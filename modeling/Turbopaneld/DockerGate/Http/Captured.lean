/-
# Chunked bodies that are captured

With a capture `relayChunked` also holds the decoded payload, up to a cap, and the capture is
the caller's own: it keeps what it holds when the relay fails.  Here the capture is part of
the state, so that what it held at a failure can be spoken of.

On a connection that delivers its bytes and a sink that takes them, decoding undoes every
chunked encoding, however the stream is split into reads.
-/

import Turbopaneld.DockerGate.Http.Body

namespace Turbopaneld.DockerGate

open Programs Sequences

/-! ## The relay beside its capture -/

/-- A relay and the capture it was handed. -/
structure Capturing where
  relay : Relay
  capture : ChunkCapture
  deriving DecidableEq, Repr

abbrev CapturingM := Prog Failure Capturing

namespace Capturing

/-- Code that does not touch the capture. -/
def onRelay {α : Type} (x : RelayM α) : CapturingM α := fun s =>
  match x s.relay with
  | (outcome, relay) => (outcome, { s with relay })

/-- `capture.chunks.push(…)` and the new running total. -/
def holdChunk (size : ℕ) (data : Bytes) : CapturingM PUnit := Prog.update fun s =>
  { s with capture := { s.capture with
      chunks := s.capture.chunks ++ [data.take size]
      held := some (s.capture.held.getD 0 + size) } }

/-- `relayCapturedChunk`: the payload is held before its bytes are relayed. -/
def relayCapturedChunk (size : ℕ) : CapturingM Unit := do
  let s ← Prog.current
  if s.capture.held.getD 0 + size > s.capture.maxBytes then
    Prog.fail (.http 413 "request body too large")
  else
    let data ← onRelay (BufferedReader.readExact (size + 2))
    holdChunk size data
    onRelay (writeAll data)

/-- One round of `relayChunked`. -/
def relayChunkedRound (_ : Unit) : CapturingM (Bool × Unit) := do
  let sizeLine ← onRelay relayLine
  let size ← onRelay (liftExcept (parseChunkSize sizeLine))
  if size = 0 then return (false, ())
  else
    relayCapturedChunk size
    return (true, ())

/-- `relayChunked` with a capture. -/
def relayChunked : CapturingM Unit := do
  let s ← Prog.current
  Prog.iterate Failure.diverged relayChunkedRound (s.relay.reader.pending.length + 1) ()
  onRelay relayTrailers

/-- What a caller that only gets the capture back on success sees of a run. -/
def shown {α β : Type} (value : α → ChunkCapture → β) :
    Except Failure α × Capturing → Except Failure β × Relay
  | (.ok a, s) => (.ok (value a s.capture), s.relay)
  | (.error e, s) => (.error e, s.relay)

@[simp]
theorem onRelay_apply {α : Type} (x : RelayM α) (s : Capturing) :
    onRelay x s = ((x s.relay).1, { s with relay := (x s.relay).2 }) := rfl

theorem onRelay_of_run {α : Type} {x : RelayM α} {s : Capturing} {relay : Relay}
    {outcome : Except Failure α} (hrun : x s.relay = (outcome, relay)) :
    onRelay x s = (outcome, { s with relay }) := by
  rw [onRelay_apply, hrun]

/-- One captured chunk, with the capture beside the relay or handed back by it. -/
theorem relayChunk_eq (size : ℕ) (s : Capturing) :
    relayChunk size (some s.capture) s.relay =
      shown (fun _ capture => some capture) (relayCapturedChunk size s) := by
  simp only [relayChunk, relayCapturedChunk, DockerGate.relayCapturedChunk, Prog.bind_apply,
    Prog.current_apply]
  by_cases hbig : s.capture.held.getD 0 + size > s.capture.maxBytes
  · simp only [if_pos hbig, Prog.fail_apply, shown]
  · simp only [if_neg hbig, Prog.bind_apply, onRelay_apply]
    rcases BufferedReader.readExact (size + 2) s.relay with ⟨_ | data, relay⟩
    · rfl
    · simp only [holdChunk, Prog.update_apply]
      rcases writeAll data relay with ⟨_ | _, relay'⟩ <;> rfl

theorem relayChunkedRound_eq (s : Capturing) :
    DockerGate.relayChunkedRound (some s.capture) s.relay =
      shown (fun r capture => (r.1, some capture)) (relayChunkedRound () s) := by
  simp only [relayChunkedRound, DockerGate.relayChunkedRound, Prog.bind_apply, onRelay_apply]
  rcases relayLine s.relay with ⟨_ | line, relay⟩
  · rfl
  · dsimp only
    rcases hsize : parseChunkSize line with _ | size
    · rfl
    · simp only [liftExcept, Prog.ret_apply]
      by_cases hzero : size = 0
      · rw [if_pos hzero, if_pos hzero]
        rfl
      · simp only [if_neg hzero, Prog.bind_apply]
        have hchunk := relayChunk_eq size ⟨relay, s.capture⟩
        dsimp only at hchunk
        rw [hchunk]
        rcases relayCapturedChunk size ⟨relay, s.capture⟩ with ⟨_ | _, s'⟩ <;> rfl

theorem iterate_relayChunkedRound_eq (fuel : ℕ) (s : Capturing) :
    Prog.iterate Failure.diverged DockerGate.relayChunkedRound fuel (some s.capture) s.relay =
      shown (fun _ capture => some capture)
        (Prog.iterate Failure.diverged relayChunkedRound fuel () s) := by
  induction fuel generalizing s with
  | zero => rfl
  | succ fuel ih =>
    simp only [Prog.iterate, Prog.bind_apply]
    rw [relayChunkedRound_eq]
    rcases relayChunkedRound () s with ⟨_ | ⟨again, _⟩, s'⟩
    · rfl
    · cases again with
      | false => rfl
      | true => exact ih s'

/-- The two models of `relayChunked` agree on all that a caller of the first can see. -/
theorem relayChunked_eq (s : Capturing) :
    DockerGate.relayChunked (some s.capture) s.relay =
      shown (fun _ capture => some capture) (relayChunked s) := by
  simp only [relayChunked, DockerGate.relayChunked, Prog.bind_apply, Prog.current_apply,
    repeatSequential]
  rw [iterate_relayChunkedRound_eq]
  rcases Prog.iterate Failure.diverged relayChunkedRound (s.relay.reader.pending.length + 1) () s
    with ⟨_ | _, s'⟩
  · rfl
  · simp only [shown, onRelay_apply]
    rcases relayTrailers s'.relay with ⟨_ | _, relay⟩ <;> rfl

end Capturing

/-! ## Connections that deliver -/

/-- No read and no write still to come fails. -/
structure Steady (s : Relay) : Prop where
  reads : Read.fault ∉ s.reader.source
  writes : Write.fault ∉ s.sink.script

/-- The relay went on from `s` to `s'`: `rest` is still to come, and `sent` was written. -/
structure Passed (s s' : Relay) (sent rest : Bytes) : Prop where
  pending : s'.reader.pending = rest
  written : s'.sink.written = s.sink.written ++ sent
  steady : Steady s'

theorem Passed.trans {first second third : Relay} {sent₁ sent₂ rest₁ rest₂ : Bytes}
    (h₁ : Passed first second sent₁ rest₁) (h₂ : Passed second third sent₂ rest₂) :
    Passed first third (sent₁ ++ sent₂) rest₂ :=
  ⟨h₂.pending, by rw [h₂.written, h₁.written, List.append_assoc], h₂.steady⟩

theorem fill_returns (s : Relay) (hsteady : Steady s) :
    ∃ more s', BufferedReader.fill s = (.ok more, s') ∧ Steady s' := by
  obtain ⟨⟨buffer, eof, source⟩, sink⟩ := s
  obtain ⟨hreads, hwrites⟩ := hsteady
  cases eof with
  | true => exact ⟨_, _, rfl, hreads, hwrites⟩
  | false =>
    cases source with
    | nil => exact ⟨_, _, rfl, hreads, hwrites⟩
    | cons read rest =>
      have hrest : Read.fault ∉ rest := fun h => hreads (List.mem_cons_of_mem _ h)
      cases read with
      | fault => exact absurd List.mem_cons_self hreads
      | data bytes => cases bytes <;> exact ⟨_, _, rfl, hrest, hwrites⟩

/-- A stretch without the delimiter is shorter than the record the stream begins with. -/
theorem length_lt_of_absent {delimiter buffer stream record rest : Bytes}
    (hbuffer : buffer <+: stream) (habsent : ∀ j, ¬ delimiter <+: buffer.drop j)
    (hcut : cutThrough delimiter stream = some (record, rest)) :
    buffer.length < record.length := by
  by_contra hlong
  obtain ⟨front, hfront⟩ := suffix_of_cutThrough hcut
  have hrecord : record <+: buffer :=
    List.prefix_of_prefix_length_le ⟨rest, (append_of_cutThrough hcut).symm⟩ hbuffer
      (not_lt.mp hlong)
  obtain ⟨more, rfl⟩ := hrecord
  refine habsent front.length ?_
  rw [← hfront, List.append_assoc, List.drop_left]
  exact List.prefix_append _ _

theorem readThroughRound_returns {s₀ : Relay} {delimiter record rest : Bytes} {max : ℕ}
    (tooLong : String) (hdelimiter : delimiter ≠ [])
    (hcut : cutThrough delimiter s₀.reader.pending = some (record, rest))
    (hfits : record.length ≤ max) {search : BufferedReader.Search} (s : Relay)
    (hsearching : BufferedReader.Searching s₀ delimiter search s) (hsteady : Steady s) :
    ∃ r s', BufferedReader.readThroughRound delimiter max tooLong search s = (.ok r, s') ∧
      Steady s' := by
  rw [BufferedReader.readThroughRound, Prog.bind_apply_of_ok (Prog.current_apply s)]
  cases hfind : indexOfSequence s.reader.buffer delimiter search.searchFrom with
  | some i => exact ⟨_, _, rfl, hsteady.reads, hsteady.writes⟩
  | none =>
    dsimp only
    have habsent : ∀ j, ¬ delimiter <+: s.reader.buffer.drop j := by
      intro j
      by_cases hj : j < search.searchFrom
      · exact hsearching.absent j hj
      · exact absent_of_indexOfSequence hdelimiter hfind j (not_lt.mp hj)
    have hbuffer : s.reader.buffer <+: s₀.reader.pending := by
      rw [← hsearching.idle.pending]
      exact List.prefix_append _ _
    have hshort := length_lt_of_absent hbuffer habsent hcut
    rw [if_neg (by omega)]
    obtain ⟨more, s', hfill, hsteady'⟩ := fill_returns s hsteady
    rw [Prog.bind_apply_of_ok hfill]
    cases more with
    | true => exact ⟨_, _, rfl, hsteady'⟩
    | false =>
      obtain ⟨hidle, -, hpending⟩ := (BufferedReader.triple_fill s).of_ok rfl hfill
      -- The stream would end before its first record does.
      have hall : s₀.reader.pending = s.reader.buffer := by
        rw [← hsearching.idle.pending, ← hidle.pending, hpending]
      have hlength := congrArg List.length (append_of_cutThrough hcut)
      rw [hall, List.length_append] at hlength
      omega

/-- A line that fits is read. -/
theorem readLine_returns {s : Relay} {line rest : Bytes} (hsteady : Steady s)
    (hline : IsRecord crlf line) (hpending : s.reader.pending = line ++ rest)
    (hfits : line.length ≤ maxLineBytes) :
    ∃ s', BufferedReader.readLine s = (.ok line, s') ∧ Passed s s' [] rest := by
  have hcut : cutThrough crlf s.reader.pending = some (line, rest) := by
    rw [hpending]
    exact hline.cutThrough_append rest
  have hround : ∀ search n, Triple
      (fun s' => (BufferedReader.Searching s crlf search s' ∧ Steady s') ∧
        s'.reader.source.length = n)
      (BufferedReader.readThroughRound crlf maxLineBytes "line too long" search)
      (fun r s' => if r.1 then (BufferedReader.Searching s crlf r.2 s' ∧ Steady s') ∧
          s'.reader.source.length < n
        else BufferedReader.ReadThrough s crlf r.2.found s' ∧ Steady s')
      (fun _ _ => False) := by
    intro search n
    refine ((BufferedReader.triple_readThroughRound s (by decide) maxLineBytes "line too long"
      search n).of_returns (I := Steady) (J := Steady) ?_).conseq ?_ ?_ fun _ _ h => h
    · exact fun s' h => readThroughRound_returns _ (by decide) hcut hfits s' h.1
    · exact fun s' h => ⟨⟨h.1.1, h.2⟩, h.1.2⟩
    · rintro ⟨again, search'⟩ s' ⟨hpost, hkept⟩
      cases again with
      | true => exact ⟨⟨hpost.1, hkept⟩, hpost.2⟩
      | false => exact ⟨hpost, hkept⟩
  have hloop := Triple.iterate (e := Failure.diverged)
    (Q := fun search s' => BufferedReader.ReadThrough s crlf search.found s' ∧ Steady s')
    (fun search s' => BufferedReader.Searching s crlf search s' ∧ Steady s')
    (fun _ s' => s'.reader.source.length) hround (s.reader.source.length + 1) ⟨0, none⟩
  obtain ⟨search, s', hrun, ⟨hsink, hread⟩, hsteady'⟩ := hloop.exists_ok
    ⟨⟨⟨Idle.refl s, rfl, fun j hj => absurd hj (Nat.not_lt_zero j)⟩, hsteady⟩, Nat.lt_succ_self _⟩
  have hthrough : BufferedReader.readThrough crlf maxLineBytes "line too long" s =
      (.ok search.found, s') := by
    rw [BufferedReader.readThrough, Prog.bind_apply_of_ok (Prog.current_apply s),
      Prog.bind_apply_of_ok hrun]
    rfl
  rw [BufferedReader.readLine, Prog.bind_apply_of_ok hthrough]
  cases hfound : search.found with
  | none =>
    rw [hfound] at hread
    have hnil : line ++ rest = [] := hpending.symm.trans hread.1
    have hlong := two_le_length_of_isRecord hline
    rw [(List.append_eq_nil_iff.mp hnil).1] at hlong
    exact absurd hlong (by decide)
  | some found =>
    rw [hfound] at hread
    have hsame : some (line, rest) = some (found, s'.reader.pending) := hcut.symm.trans hread
    obtain ⟨rfl, hrest⟩ := Prod.mk.injEq .. ▸ Option.some.inj hsame
    exact ⟨s', rfl, hrest.symm, by rw [hsink, List.append_nil], hsteady'⟩

theorem writeAllRound_returns {data : Bytes} {offset : ℕ} (s : Relay)
    (hsteady : Steady s) :
    ∃ r s', writeAllRound data offset s = (.ok r, s') ∧ Steady s' := by
  rw [writeAllRound]
  by_cases hdone : offset ≥ data.length
  · rw [if_pos hdone]
    exact ⟨_, _, rfl, hsteady⟩
  · rw [if_neg hdone]
    obtain ⟨reader, ⟨written, script⟩⟩ := s
    obtain ⟨hreads, hwrites⟩ := hsteady
    cases script with
    | nil => exact ⟨_, _, rfl, hreads, hwrites⟩
    | cons write rest =>
      cases write with
      | accept count => exact ⟨_, _, rfl, hreads, fun h => hwrites (List.mem_cons_of_mem _ h)⟩
      | fault => exact absurd List.mem_cons_self hwrites

theorem writeAll_returns {s : Relay} (hsteady : Steady s) (data : Bytes) :
    ∃ s', writeAll data s = (.ok (), s') ∧ Passed s s' data s.reader.pending := by
  have hround : ∀ offset n, Triple
      (fun s' => (Sending s data offset s' ∧ Steady s') ∧
        s'.sink.script.length + (if offset < data.length then 1 else 0) = n)
      (writeAllRound data offset)
      (fun r s' => if r.1 then (Sending s data r.2 s' ∧ Steady s') ∧
          s'.sink.script.length + (if r.2 < data.length then 1 else 0) < n
        else Sending s data data.length s' ∧ Steady s')
      (fun _ _ => False) := by
    intro offset n
    refine ((triple_writeAllRound s data offset n).of_returns (I := Steady) (J := Steady)
      ?_).conseq ?_ ?_ fun _ _ h => h
    · exact fun s' _ h => writeAllRound_returns s' h
    · exact fun s' h => ⟨⟨h.1.1, h.2⟩, h.1.2⟩
    · rintro ⟨again, offset'⟩ s' ⟨hpost, hkept⟩
      cases again with
      | true => exact ⟨⟨hpost.1, hkept⟩, hpost.2⟩
      | false => exact ⟨hpost, hkept⟩
  have hloop := Triple.iterate (e := Failure.diverged)
    (Q := fun _ s' => Sending s data data.length s' ∧ Steady s')
    (fun offset s' => Sending s data offset s' ∧ Steady s')
    (fun offset s' => s'.sink.script.length + if offset < data.length then 1 else 0)
    hround (s.sink.script.length + 2) 0
  obtain ⟨offset, s', hrun, hsent, hsteady'⟩ := hloop.exists_ok
    ⟨⟨⟨rfl, Nat.zero_le _, by simp⟩, hsteady⟩, by split <;> omega⟩
  refine ⟨s', ?_, by rw [hsent.reader], by simpa using hsent.written, hsteady'⟩
  rw [writeAll, Prog.bind_apply_of_ok (Prog.current_apply s), Prog.bind_apply_of_ok hrun]
  rfl

theorem readExactRound_returns {count : ℕ} (s : Relay) (hcount : count ≤ s.reader.pending.length)
    (hsteady : Steady s) :
    ∃ r s', BufferedReader.readExactRound count () s = (.ok r, s') ∧ Steady s' := by
  rw [BufferedReader.readExactRound, Prog.bind_apply_of_ok (Prog.current_apply s)]
  by_cases henough : s.reader.buffer.length ≥ count
  · rw [if_pos henough]
    exact ⟨_, _, rfl, hsteady⟩
  · rw [if_neg henough]
    obtain ⟨more, s', hfill, hsteady'⟩ := fill_returns s hsteady
    rw [Prog.bind_apply_of_ok hfill]
    cases more with
    | true => exact ⟨_, _, rfl, hsteady'⟩
    | false =>
      obtain ⟨hidle, -, hpending⟩ := (BufferedReader.triple_fill s).of_ok rfl hfill
      rw [← hidle.pending, hpending] at hcount
      exact absurd hcount henough

/-- Bytes that are still to come can be read. -/
theorem readExact_returns {s : Relay} {data rest : Bytes} (hsteady : Steady s)
    (hpending : s.reader.pending = data ++ rest) :
    ∃ s', BufferedReader.readExact data.length s = (.ok data, s') ∧ Passed s s' [] rest := by
  have hround : ∀ (_ : Unit) n, Triple
      (fun s' => (Idle s s' ∧ Steady s') ∧ s'.reader.source.length = n)
      (BufferedReader.readExactRound data.length ())
      (fun r s' => if r.1 then (Idle s s' ∧ Steady s') ∧ s'.reader.source.length < n
        else (Idle s s' ∧ data.length ≤ s'.reader.buffer.length) ∧ Steady s')
      (fun _ _ => False) := by
    intro _ n
    refine ((BufferedReader.triple_readExactRound s data.length n).of_returns (I := Steady)
      (J := Steady) ?_).conseq ?_ ?_ fun _ _ h => h
    · intro s' h hkept
      refine readExactRound_returns s' ?_ hkept
      rw [h.1.pending, hpending, List.length_append]
      exact Nat.le_add_right _ _
    · exact fun s' h => ⟨⟨h.1.1, h.2⟩, h.1.2⟩
    · rintro ⟨again, _⟩ s' ⟨hpost, hkept⟩
      cases again with
      | true => exact ⟨⟨hpost.1, hkept⟩, hpost.2⟩
      | false => exact ⟨hpost, hkept⟩
  have hloop := Triple.iterate (e := Failure.diverged)
    (Q := fun _ s' => (Idle s s' ∧ data.length ≤ s'.reader.buffer.length) ∧ Steady s')
    (fun _ s' => Idle s s' ∧ Steady s') (fun _ s' => s'.reader.source.length) hround
    (s.reader.source.length + 1) ()
  obtain ⟨_, s', hrun, ⟨hidle, hheld⟩, hsteady'⟩ := hloop.exists_ok
    ⟨⟨Idle.refl s, hsteady⟩, Nat.lt_succ_self _⟩
  obtain ⟨-, hlength, hsink, hsource, -, hafter⟩ :=
    (BufferedReader.triple_consume s' data.length hheld).of_ok rfl
      (show BufferedReader.consume data.length s' = (.ok (s'.reader.buffer.take data.length), _)
        from rfl)
  rw [hidle.pending, hpending] at hafter
  obtain ⟨hsame, hrest⟩ := List.append_inj hafter hlength.symm
  refine ⟨_, ?_, hrest.symm, ?_, ?_, ?_⟩
  · rw [BufferedReader.readExact, Prog.bind_apply_of_ok (Prog.current_apply s),
      Prog.bind_apply_of_ok hrun]
    exact Prod.ext (congrArg Except.ok hsame.symm) rfl
  · rw [hsink, hidle.sink, List.append_nil]
  · rw [hsource]
    exact hsteady'.reads
  · rw [hsink]
    exact hsteady'.writes

/-- A line that fits is read and relayed. -/
theorem relayLine_returns {s : Relay} {line rest : Bytes} (hsteady : Steady s)
    (hline : IsRecord crlf line) (hpending : s.reader.pending = line ++ rest)
    (hfits : line.length ≤ maxLineBytes) :
    ∃ s', relayLine s = (.ok line, s') ∧ Passed s s' line rest := by
  obtain ⟨s₁, hread, hpassed₁⟩ := readLine_returns hsteady hline hpending hfits
  obtain ⟨s₂, hwrite, hpassed₂⟩ := writeAll_returns hpassed₁.steady line
  refine ⟨s₂, ?_, ?_⟩
  · rw [relayLine, Prog.bind_apply_of_ok hread, Prog.bind_apply_of_ok hwrite]
    rfl
  · rw [hpassed₁.pending] at hpassed₂
    exact hpassed₁.trans hpassed₂

/-! ## Chunked encodings -/

/-- A text without CR or LF makes a line. -/
theorem isRecord_append_crlf {text : Bytes} (hcr : 13 ∉ text) :
    IsRecord crlf (text ++ crlf) := by
  have hnowhere : ∀ j < text.length, ¬ crlf <+: (text ++ crlf).drop j := by
    intro j hj hfound
    rw [List.drop_append_of_le_length hj.le] at hfound
    have hhead : (text.drop j).head? = some 13 := by
      obtain ⟨more, hmore⟩ := hfound
      cases hdrop : text.drop j with
      | nil => exact absurd (List.drop_eq_nil_iff.mp hdrop) (not_le.mpr hj)
      | cons b bytes =>
        rw [hdrop] at hmore
        exact congrArg some (List.cons.inj hmore).1.symm
    exact hcr (List.mem_of_mem_drop (List.mem_of_head? hhead))
  have hcut := cutThrough_of_first (i := text.length) (by decide : crlf ≠ [])
    (by rw [List.drop_left]) hnowhere
  rwa [List.take_of_length_le (by simp), List.drop_of_length_le (by simp)] at hcut

/-- A size line: one to fifteen hexadecimal digits and, behind a `;`, an extension. -/
structure SizeLine where
  digits : Bytes
  extension : Option Bytes
  hex : ∀ b ∈ digits, isHexDigit b = true
  ne_nil : digits ≠ []
  short : digits.length ≤ 15
  clean : ∀ text ∈ extension, 13 ∉ text ∧ 10 ∉ text

namespace SizeLine

/-- The `;` and the extension behind it, or nothing. -/
def tail (line : SizeLine) : Bytes :=
  match line.extension with
  | none => []
  | some text => 59 :: text

def bytes (line : SizeLine) : Bytes := line.digits ++ line.tail ++ crlf

def size (line : SizeLine) : ℕ := hexValue line.digits

end SizeLine

/-- A chunk that is not the last: its size line states the length of its data. -/
structure DataChunk where
  line : SizeLine
  data : Bytes
  ne_nil : data ≠ []
  size_eq : line.size = data.length

def DataChunk.bytes (chunk : DataChunk) : Bytes := chunk.line.bytes ++ (chunk.data ++ crlf)

/-- A chunked body as a sender may write it. -/
structure ChunkedEncoding where
  chunks : List DataChunk
  last : SizeLine
  last_size : last.size = 0
  trailers : List Bytes
  clean : ∀ text ∈ trailers, text ≠ [] ∧ 13 ∉ text ∧ 10 ∉ text

namespace ChunkedEncoding

def payload (encoding : ChunkedEncoding) : Bytes := encoding.chunks.flatMap DataChunk.data

/-- The trailer lines and the blank line. -/
def trailerBytes (encoding : ChunkedEncoding) : Bytes :=
  encoding.trailers.flatMap (· ++ crlf) ++ crlf

def bytes (encoding : ChunkedEncoding) : Bytes :=
  encoding.chunks.flatMap DataChunk.bytes ++ (encoding.last.bytes ++ encoding.trailerBytes)

/-- Every line, with its terminator, is at most `MAX_LINE_BYTES` long. -/
structure LinesFit (encoding : ChunkedEncoding) : Prop where
  chunks : ∀ chunk ∈ encoding.chunks, chunk.line.bytes.length ≤ maxLineBytes
  last : encoding.last.bytes.length ≤ maxLineBytes
  trailers : ∀ text ∈ encoding.trailers, (text ++ crlf).length ≤ maxLineBytes

end ChunkedEncoding

/-- A hexadecimal digit ends no size and no line, and is not white space. -/
theorem not_separator_of_isHexDigit {b : UInt8} (h : isHexDigit b = true) :
    b ≠ 59 ∧ b ≠ 13 ∧ isOws b = false := by
  refine ⟨?_, ?_, ?_⟩
  · rintro rfl
    exact absurd h (by decide)
  · rintro rfl
    exact absurd h (by decide)
  · rw [isOws, Bool.or_eq_false_iff, beq_eq_false_iff_ne, beq_eq_false_iff_ne]
    constructor <;>
    · rintro rfl
      exact absurd h (by decide)

theorem SizeLine.isRecord (line : SizeLine) : IsRecord crlf line.bytes := by
  refine isRecord_append_crlf ?_
  rw [List.mem_append]
  rintro (h | h)
  · exact (not_separator_of_isHexDigit (line.hex 13 h)).2.1 rfl
  · unfold SizeLine.tail at h
    split at h
    · cases h
    · next text htext =>
        rcases List.mem_cons.mp h with h | h
        · exact absurd h (by decide)
        · exact (line.clean text htext).1 h

theorem parseChunkSize_bytes (line : SizeLine) : parseChunkSize line.bytes = .ok line.size := by
  have htext : lineText line.bytes = line.digits ++ line.tail := by
    rw [lineText, SizeLine.bytes]
    exact List.take_left' (Nat.sub_eq_of_eq_add List.length_append).symm
  have hcut : (line.digits ++ line.tail).takeWhile (· ≠ 59) = line.digits := by
    rw [List.takeWhile_append_of_pos fun b hb => decide_eq_true (not_separator_of_isHexDigit (line.hex b hb)).1]
    unfold SizeLine.tail
    split <;> simp
  have htrim : trimOws line.digits = line.digits := by
    have hspace : ∀ b ∈ line.digits, isOws b = false := fun b hb =>
      (not_separator_of_isHexDigit (line.hex b hb)).2.2
    rw [trimOws, List.dropWhile_eq_self_iff.mpr, List.rdropWhile_eq_self_iff.mpr]
    · intro hne
      rw [hspace _ (List.getLast_mem hne)]
      exact Bool.false_ne_true
    · intro hpos
      rw [hspace _ (List.getElem_mem hpos)]
      exact Bool.false_ne_true
  rw [parseChunkSize, htext, hcut, htrim]
  rw [if_pos ⟨line.ne_nil, List.all_eq_true.mpr line.hex, line.short⟩]
  rfl

/-! ## Decoding an encoding -/

/-- Trailer lines are relayed through the blank line. -/
theorem iterate_relayTrailers {trailers : List Bytes}
    (hclean : ∀ text ∈ trailers, text ≠ [] ∧ (13 : UInt8) ∉ text ∧ (10 : UInt8) ∉ text)
    (hfits : ∀ text ∈ trailers, (text ++ crlf).length ≤ maxLineBytes) {rest : Bytes} :
    ∀ {fuel : ℕ} {s : Relay}, trailers.length < fuel → Steady s →
      s.reader.pending = trailers.flatMap (· ++ crlf) ++ crlf ++ rest →
      ∃ s', Prog.iterate Failure.diverged relayTrailersRound fuel () s = (.ok (), s') ∧
        Passed s s' (trailers.flatMap (· ++ crlf) ++ crlf) rest := by
  induction trailers with
  | nil =>
    intro fuel s hfuel hsteady hpending
    obtain ⟨fuel, rfl⟩ := Nat.exists_eq_succ_of_ne_zero hfuel.ne'
    obtain ⟨s', hline, hpassed⟩ := relayLine_returns hsteady (by decide : IsRecord crlf crlf)
      hpending (by decide)
    have hround : relayTrailersRound () s = (.ok (false, ()), s') := by
      rw [relayTrailersRound, Prog.bind_apply_of_ok hline]
      rfl
    refine ⟨s', ?_, hpassed⟩
    rw [Prog.iterate, Prog.bind_apply_of_ok hround]
    rfl
  | cons text trailers ih =>
    intro fuel s hfuel hsteady hpending
    obtain ⟨fuel, rfl⟩ := Nat.exists_eq_succ_of_ne_zero (Nat.ne_zero_of_lt hfuel)
    obtain ⟨⟨hne, hcr, -⟩, hcleanRest⟩ := List.forall_mem_cons.mp hclean
    obtain ⟨hfit, hfitRest⟩ := List.forall_mem_cons.mp hfits
    rw [List.flatMap_cons, List.append_assoc, List.append_assoc, List.append_assoc,
      ← List.append_assoc text] at hpending
    obtain ⟨s₁, hline, hpassed⟩ := relayLine_returns hsteady (isRecord_append_crlf hcr) hpending hfit
    have hlong : (text ++ crlf).length ≠ 2 := by
      have hpos := List.length_pos_iff.mpr hne
      rw [List.length_append, show crlf.length = 2 from rfl]
      omega
    have hround : relayTrailersRound () s = (.ok (true, ()), s₁) := by
      rw [relayTrailersRound, Prog.bind_apply_of_ok hline, decide_eq_true hlong]
      rfl
    have hpending₁ := hpassed.pending
    rw [← List.append_assoc] at hpending₁
    obtain ⟨s₂, hrun, hpassed₂⟩ := ih hcleanRest hfitRest (Nat.lt_of_succ_lt_succ hfuel)
      hpassed.steady hpending₁
    refine ⟨s₂, ?_, ?_⟩
    · rw [Prog.iterate, Prog.bind_apply_of_ok hround]
      exact hrun
    · rw [List.flatMap_cons, List.append_assoc]
      exact hpassed.trans hpassed₂

theorem length_le_flatMap_append {α : Type} {items : List α} {f : α → Bytes}
    (h : ∀ item ∈ items, f item ≠ []) : items.length ≤ (items.flatMap f).length := by
  induction items with
  | nil => exact Nat.zero_le _
  | cons item items ih =>
    obtain ⟨hitem, hitems⟩ := List.forall_mem_cons.mp h
    have hpos := List.length_pos_iff.mpr hitem
    have hrest := ih hitems
    rw [List.flatMap_cons, List.length_append, List.length_cons]
    omega

theorem relayTrailers_returns {encoding : ChunkedEncoding} (hfits : encoding.LinesFit) {s : Relay}
    {rest : Bytes} (hsteady : Steady s)
    (hpending : s.reader.pending = encoding.trailerBytes ++ rest) :
    ∃ s', relayTrailers s = (.ok (), s') ∧ Passed s s' encoding.trailerBytes rest := by
  rw [relayTrailers, Prog.bind_apply_of_ok (Prog.current_apply s)]
  refine iterate_relayTrailers encoding.clean hfits.trailers (Nat.lt_succ_of_le ?_) hsteady hpending
  have hlines : encoding.trailers.length ≤ (encoding.trailers.flatMap (· ++ crlf)).length :=
    length_le_flatMap_append fun text _ h => absurd (List.append_eq_nil_iff.mp h).2 (by decide)
  rw [hpending, ChunkedEncoding.trailerBytes, List.length_append, List.length_append]
  omega

namespace Capturing

/-- A chunk's size line is relayed and its size read. -/
theorem relaySizeLine_returns {s : Capturing} {line : SizeLine} {rest : Bytes}
    (hsteady : Steady s.relay) (hpending : s.relay.reader.pending = line.bytes ++ rest)
    (hfits : line.bytes.length ≤ maxLineBytes) :
    ∃ relay, Passed s.relay relay line.bytes rest ∧
      relayChunkedRound () s =
        (if line.size = 0 then pure (false, ())
          else do
            relayCapturedChunk line.size
            return (true, ())) { s with relay } := by
  obtain ⟨relay, hline, hpassed⟩ := relayLine_returns hsteady line.isRecord hpending hfits
  have hsize : liftExcept (parseChunkSize line.bytes) relay = (.ok line.size, relay) := by
    rw [parseChunkSize_bytes]
    rfl
  refine ⟨relay, hpassed, ?_⟩
  rw [relayChunkedRound, Prog.bind_apply_of_ok (onRelay_of_run hline),
    Prog.bind_apply_of_ok (onRelay_of_run (s := { s with relay }) hsize)]

/-- The running total is the total of what is held. -/
def Exact (capture : ChunkCapture) : Prop := capture.held.getD 0 = capture.chunks.flatten.length

/-- The capture after one more chunk. -/
def hold (capture : ChunkCapture) (data : Bytes) : ChunkCapture :=
  { capture with
    chunks := capture.chunks ++ [data]
    held := some (capture.held.getD 0 + data.length) }

theorem flatten_hold (capture : ChunkCapture) (data : Bytes) :
    (hold capture data).chunks.flatten = capture.chunks.flatten ++ data := by
  rw [hold, List.flatten_append, List.flatten_singleton]

theorem Exact.hold {capture : ChunkCapture} (h : Exact capture) (data : Bytes) :
    Exact (hold capture data) := by
  rw [Exact, flatten_hold, List.length_append, ← h]
  rfl

/-- A chunk under the cap is held and relayed. -/
theorem relayCapturedChunk_returns {s : Capturing} {data rest : Bytes} (hsteady : Steady s.relay)
    (hpending : s.relay.reader.pending = data ++ crlf ++ rest)
    (hcap : s.capture.held.getD 0 + data.length ≤ s.capture.maxBytes) :
    ∃ relay, Passed s.relay relay (data ++ crlf) rest ∧
      relayCapturedChunk data.length s = (.ok (), ⟨relay, hold s.capture data⟩) := by
  obtain ⟨relay₁, hread, hpassed₁⟩ := readExact_returns hsteady hpending
  obtain ⟨relay₂, hwrite, hpassed₂⟩ := writeAll_returns hpassed₁.steady (data ++ crlf)
  rw [hpassed₁.pending] at hpassed₂
  refine ⟨relay₂, hpassed₁.trans hpassed₂, ?_⟩
  have hlength : (data ++ crlf).length = data.length + 2 := List.length_append
  rw [hlength] at hread
  have hheld : holdChunk data.length (data ++ crlf) ⟨relay₁, s.capture⟩ =
      (.ok ⟨⟩, ⟨relay₁, hold s.capture data⟩) := by
    rw [holdChunk, Prog.update_apply, List.take_left]
    rfl
  rw [relayCapturedChunk, Prog.bind_apply_of_ok (Prog.current_apply s),
    if_neg (not_lt.mpr hcap), Prog.bind_apply_of_ok (onRelay_of_run hread),
    Prog.bind_apply_of_ok hheld, onRelay_of_run hwrite]

/-- A round on a data chunk under the cap. -/
theorem relayChunkedRound_of_chunk {s : Capturing} {chunk : DataChunk} {rest : Bytes}
    (hsteady : Steady s.relay) (hpending : s.relay.reader.pending = chunk.bytes ++ rest)
    (hfits : chunk.line.bytes.length ≤ maxLineBytes)
    (hcap : s.capture.held.getD 0 + chunk.data.length ≤ s.capture.maxBytes) :
    ∃ relay, Passed s.relay relay chunk.bytes rest ∧
      relayChunkedRound () s = (.ok (true, ()), ⟨relay, hold s.capture chunk.data⟩) := by
  rw [DataChunk.bytes, List.append_assoc] at hpending
  obtain ⟨relay₁, hpassed₁, hround⟩ := relaySizeLine_returns hsteady hpending hfits
  obtain ⟨relay₂, hpassed₂, hchunk⟩ := relayCapturedChunk_returns (s := ⟨relay₁, s.capture⟩)
    hpassed₁.steady hpassed₁.pending hcap
  refine ⟨relay₂, hpassed₁.trans hpassed₂, ?_⟩
  have hsize : chunk.line.size ≠ 0 := by
    rw [chunk.size_eq]
    exact (List.length_pos_iff.mpr chunk.ne_nil).ne'
  rw [hround, if_neg hsize, chunk.size_eq, Prog.bind_apply_of_ok hchunk]
  rfl

/-- A round on a data chunk that would exceed the cap. -/
theorem relayChunkedRound_of_excess {s : Capturing} {chunk : DataChunk} {rest : Bytes}
    (hsteady : Steady s.relay) (hpending : s.relay.reader.pending = chunk.bytes ++ rest)
    (hfits : chunk.line.bytes.length ≤ maxLineBytes)
    (hcap : s.capture.maxBytes < s.capture.held.getD 0 + chunk.data.length) :
    ∃ relay, relayChunkedRound () s =
      (.error (.http 413 "request body too large"), ⟨relay, s.capture⟩) := by
  rw [DataChunk.bytes, List.append_assoc] at hpending
  obtain ⟨relay, -, hround⟩ := relaySizeLine_returns hsteady hpending hfits
  refine ⟨relay, ?_⟩
  have hsize : chunk.line.size ≠ 0 := by
    rw [chunk.size_eq]
    exact (List.length_pos_iff.mpr chunk.ne_nil).ne'
  have hchunk : relayCapturedChunk chunk.data.length ⟨relay, s.capture⟩ =
      (.error (.http 413 "request body too large"), ⟨relay, s.capture⟩) := by
    rw [relayCapturedChunk, Prog.bind_apply_of_ok (Prog.current_apply _)]
    dsimp only
    rw [if_pos hcap]
    rfl
  rw [hround, if_neg hsize, chunk.size_eq, Prog.bind_apply_of_error hchunk]

/-- The loop over chunks that stay under the cap, through the last size line. -/
theorem iterate_relayChunkedRound {last : SizeLine} (hlast : last.size = 0)
    (hlastFits : last.bytes.length ≤ maxLineBytes) {chunks : List DataChunk}
    (hfits : ∀ chunk ∈ chunks, chunk.line.bytes.length ≤ maxLineBytes) {rest : Bytes} :
    ∀ {fuel : ℕ} {s : Capturing}, chunks.length < fuel → Steady s.relay → Exact s.capture →
      s.relay.reader.pending = chunks.flatMap DataChunk.bytes ++ (last.bytes ++ rest) →
      s.capture.chunks.flatten.length + (chunks.flatMap DataChunk.data).length ≤
        s.capture.maxBytes →
      ∃ s', Prog.iterate Failure.diverged relayChunkedRound fuel () s = (.ok (), s') ∧
        Passed s.relay s'.relay (chunks.flatMap DataChunk.bytes ++ last.bytes) rest ∧
        s'.capture.chunks.flatten =
          s.capture.chunks.flatten ++ chunks.flatMap DataChunk.data := by
  induction chunks with
  | nil =>
    intro fuel s hfuel hsteady _ hpending _
    obtain ⟨fuel, rfl⟩ := Nat.exists_eq_succ_of_ne_zero hfuel.ne'
    obtain ⟨relay, hpassed, hround⟩ := relaySizeLine_returns hsteady hpending hlastFits
    rw [if_pos hlast] at hround
    refine ⟨{ s with relay }, ?_, hpassed, (List.append_nil _).symm⟩
    rw [Prog.iterate, Prog.bind_apply_of_ok hround]
    rfl
  | cons chunk chunks ih =>
    intro fuel s hfuel hsteady hexact hpending hcap
    obtain ⟨fuel, rfl⟩ := Nat.exists_eq_succ_of_ne_zero (Nat.ne_zero_of_lt hfuel)
    obtain ⟨hfit, hfitRest⟩ := List.forall_mem_cons.mp hfits
    rw [List.flatMap_cons, List.append_assoc] at hpending
    rw [List.flatMap_cons, List.length_append] at hcap
    have hunder : s.capture.held.getD 0 + chunk.data.length ≤ s.capture.maxBytes := by
      rw [hexact]
      omega
    obtain ⟨relay, hpassed, hround⟩ := relayChunkedRound_of_chunk hsteady hpending hfit hunder
    have hcapRest : (hold s.capture chunk.data).chunks.flatten.length +
        (chunks.flatMap DataChunk.data).length ≤ s.capture.maxBytes := by
      rw [flatten_hold, List.length_append]
      omega
    obtain ⟨s', hrun, hpassed', hheld⟩ := ih hfitRest (s := ⟨relay, hold s.capture chunk.data⟩)
      (Nat.lt_of_succ_lt_succ hfuel) hpassed.steady (hexact.hold _) hpassed.pending hcapRest
    refine ⟨s', ?_, ?_, ?_⟩
    · rw [Prog.iterate, Prog.bind_apply_of_ok hround]
      exact hrun
    · rw [List.flatMap_cons, List.append_assoc]
      exact hpassed.trans hpassed'
    · rw [hheld, flatten_hold, List.flatMap_cons, List.append_assoc]

/-- The loop over chunks that come to more than the cap. -/
theorem iterate_relayChunkedRound_of_excess {chunks : List DataChunk}
    (hfits : ∀ chunk ∈ chunks, chunk.line.bytes.length ≤ maxLineBytes) {rest : Bytes} :
    ∀ {fuel : ℕ} {s : Capturing}, chunks.length < fuel → Steady s.relay → Exact s.capture →
      s.relay.reader.pending = chunks.flatMap DataChunk.bytes ++ rest →
      s.capture.chunks.flatten.length ≤ s.capture.maxBytes →
      s.capture.maxBytes <
        s.capture.chunks.flatten.length + (chunks.flatMap DataChunk.data).length →
      ∃ s', Prog.iterate Failure.diverged relayChunkedRound fuel () s =
          (.error (.http 413 "request body too large"), s') ∧
        s'.capture.chunks.flatten.length ≤ s.capture.maxBytes := by
  induction chunks with
  | nil =>
    intro fuel s _ _ _ _ hheld hcap
    exact absurd hcap (not_lt.mpr hheld)
  | cons chunk chunks ih =>
    intro fuel s hfuel hsteady hexact hpending hheld hcap
    obtain ⟨fuel, rfl⟩ := Nat.exists_eq_succ_of_ne_zero (Nat.ne_zero_of_lt hfuel)
    obtain ⟨hfit, hfitRest⟩ := List.forall_mem_cons.mp hfits
    rw [List.flatMap_cons, List.append_assoc] at hpending
    rw [List.flatMap_cons, List.length_append] at hcap
    by_cases hunder : s.capture.held.getD 0 + chunk.data.length ≤ s.capture.maxBytes
    · obtain ⟨relay, hpassed, hround⟩ := relayChunkedRound_of_chunk hsteady hpending hfit hunder
      have hlength : (hold s.capture chunk.data).chunks.flatten.length =
          s.capture.chunks.flatten.length + chunk.data.length := by
        rw [flatten_hold, List.length_append]
      rw [hexact] at hunder
      obtain ⟨s', hrun, hkept⟩ := ih hfitRest (s := ⟨relay, hold s.capture chunk.data⟩)
        (Nat.lt_of_succ_lt_succ hfuel) hpassed.steady (hexact.hold _) hpassed.pending
        (hlength.trans_le hunder) (by rw [hlength]; exact hcap.trans_eq (Nat.add_assoc _ _ _).symm)
      refine ⟨s', ?_, hkept⟩
      rw [Prog.iterate, Prog.bind_apply_of_ok hround]
      exact hrun
    · obtain ⟨relay, hround⟩ := relayChunkedRound_of_excess hsteady hpending hfit (not_le.mp hunder)
      refine ⟨⟨relay, s.capture⟩, ?_, hheld⟩
      rw [Prog.iterate, Prog.bind_apply_of_error hround]

end Capturing

/-! ## Decoding undoes encoding -/

/-- The chunks of an encoding are fewer than its bytes. -/
theorem ChunkedEncoding.length_chunks_le (encoding : ChunkedEncoding) :
    encoding.chunks.length ≤ encoding.bytes.length := by
  have hchunks : encoding.chunks.length ≤ (encoding.chunks.flatMap DataChunk.bytes).length :=
    length_le_flatMap_append fun chunk _ h => chunk.ne_nil (List.append_eq_nil_iff.mp (List.append_eq_nil_iff.mp h).2).1
  rw [ChunkedEncoding.bytes, List.length_append]
  omega

/-- A source that delivers these pieces delivers their bytes. -/
theorem flow_map_data {reads : List Bytes} (hreads : ∀ read ∈ reads, read ≠ []) :
    flow (reads.map Read.data) = reads.flatten := by
  induction reads with
  | nil => rfl
  | cons read reads ih =>
    obtain ⟨hread, hrest⟩ := List.forall_mem_cons.mp hreads
    obtain ⟨b, bytes, rfl⟩ := List.exists_cons_of_ne_nil hread
    rw [List.map_cons, List.flatten_cons, flow, ih hrest]

/-- For every chunked encoding whose lines fit, whatever follows it and however the stream is
split into reads: under the cap the payload is captured, the encoding relayed and what follows
left; over the cap the relay fails before more than the cap is held. -/
theorem relayChunked_encoding (encoding : ChunkedEncoding) (hfits : encoding.LinesFit)
    (following : Bytes) (reads : List Bytes) (hreads : ∀ read ∈ reads, read ≠ [])
    (hsplit : reads.flatten = encoding.bytes ++ following) (sink : Sink)
    (hsink : Write.fault ∉ sink.script) (maxBytes : ℕ) :
    (encoding.payload.length ≤ maxBytes →
      ∃ s, Capturing.relayChunked
          ⟨⟨BufferedReader.new (reads.map .data), sink⟩, ⟨[], maxBytes, none⟩⟩ = (.ok (), s) ∧
        s.capture.chunks.flatten = encoding.payload ∧
        s.relay.sink.written = sink.written ++ encoding.bytes ∧
        s.relay.reader.pending = following) ∧
    (maxBytes < encoding.payload.length →
      ∃ s, Capturing.relayChunked
          ⟨⟨BufferedReader.new (reads.map .data), sink⟩, ⟨[], maxBytes, none⟩⟩ =
            (.error (.http 413 "request body too large"), s) ∧
        s.capture.chunks.flatten.length ≤ maxBytes) := by
  have hpending : (BufferedReader.new (reads.map .data)).pending = encoding.bytes ++ following := by
    rw [BufferedReader.pending_new, flow_map_data hreads, hsplit]
  have hsteady : Steady ⟨BufferedReader.new (reads.map .data), sink⟩ := by
    refine ⟨fun h => ?_, hsink⟩
    obtain ⟨_, _, h⟩ := List.mem_map.mp h
    cases h
  have hfuel : encoding.chunks.length <
      (BufferedReader.new (reads.map .data)).pending.length + 1 := by
    have hchunks := encoding.length_chunks_le
    rw [hpending, List.length_append]
    omega
  have hbytes : (BufferedReader.new (reads.map .data)).pending =
      encoding.chunks.flatMap DataChunk.bytes ++
        (encoding.last.bytes ++ (encoding.trailerBytes ++ following)) := by
    rw [hpending, ChunkedEncoding.bytes, List.append_assoc, List.append_assoc]
  constructor
  · intro hcap
    obtain ⟨s₁, hloop, hpassed₁, hheld⟩ := Capturing.iterate_relayChunkedRound encoding.last_size
      hfits.last hfits.chunks
      (s := ⟨⟨BufferedReader.new (reads.map .data), sink⟩, ⟨[], maxBytes, none⟩⟩)
      hfuel hsteady rfl hbytes (by simpa [ChunkedEncoding.payload] using hcap)
    obtain ⟨relay, htrailers, hpassed₂⟩ :=
      relayTrailers_returns hfits hpassed₁.steady hpassed₁.pending
    refine ⟨{ s₁ with relay }, ?_, hheld, ?_, hpassed₂.pending⟩
    · rw [Capturing.relayChunked, Prog.bind_apply_of_ok (Prog.current_apply _),
        Prog.bind_apply_of_ok hloop, Capturing.onRelay_of_run htrailers]
    · rw [(hpassed₁.trans hpassed₂).written, ChunkedEncoding.bytes, List.append_assoc]
  · intro hcap
    obtain ⟨s₁, hloop, hheld⟩ := Capturing.iterate_relayChunkedRound_of_excess hfits.chunks
      (s := ⟨⟨BufferedReader.new (reads.map .data), sink⟩, ⟨[], maxBytes, none⟩⟩)
      hfuel hsteady rfl hbytes (Nat.zero_le _) (by simpa [ChunkedEncoding.payload] using hcap)
    refine ⟨s₁, ?_, hheld⟩
    rw [Capturing.relayChunked, Prog.bind_apply_of_ok (Prog.current_apply _),
      Prog.bind_apply_of_error hloop]

/-- The size line `3;a`. -/
def smallLine : SizeLine where
  digits := [51]
  extension := some [97]
  hex := List.forall_mem_singleton.mpr (by decide)
  ne_nil := by decide
  short := by decide
  clean := by
    rintro _ ⟨⟩
    decide

/-- The size line `0`. -/
def zeroLine : SizeLine where
  digits := [48]
  extension := none
  hex := List.forall_mem_singleton.mpr (by decide)
  ne_nil := by decide
  short := by decide
  clean := by rintro _ ⟨⟩

/-- The chunk `abc`, the last chunk, and the trailer `T`. -/
def smallEncoding : ChunkedEncoding where
  chunks := [⟨smallLine, [97, 98, 99], by decide, by decide⟩]
  last := zeroLine
  last_size := by decide
  trailers := [[84]]
  clean := List.forall_mem_singleton.mpr (by decide)

/-- Read in three pieces, one of which ends inside a line's terminator. -/
theorem relayChunked_encoding_small :
    ∃ s, Capturing.relayChunked
        ⟨⟨BufferedReader.new ([[51, 59, 97, 13], [10, 97, 98, 99, 13, 10, 48, 13, 10, 84],
          [13, 10, 13, 10, 71]].map .data), ⟨[], []⟩⟩, ⟨[], 3, none⟩⟩ = (.ok (), s) ∧
      s.capture.chunks.flatten = [97, 98, 99] ∧ s.relay.reader.pending = [71] := by
  have hfits : smallEncoding.LinesFit := by
    constructor <;> decide
  obtain ⟨s, hrun, hheld, -, hleft⟩ := (relayChunked_encoding smallEncoding hfits [71]
    [[51, 59, 97, 13], [10, 97, 98, 99, 13, 10, 48, 13, 10, 84], [13, 10, 13, 10, 71]]
    (by decide) (by decide) ⟨[], []⟩ (by decide) 3).1 (by decide)
  exact ⟨s, hrun, hheld, hleft⟩

end Turbopaneld.DockerGate
