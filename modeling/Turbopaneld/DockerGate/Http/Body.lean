/-
# Relaying bodies

`relayBody` and `relayChunked` (http.ts) pass a body on byte for byte, framing
included.  A body the gate passed is described by `BodyOf`, which speaks of the
byte string alone: for a chunked body it is the gate's own reading, line by line,
as the source makes it.  In particular a line ends at its first CRLF, a bare line
feed may stand inside it, and the two bytes after a chunk's data may be anything.
-/

import Turbopaneld.DockerGate.Http.Head

namespace Turbopaneld.DockerGate

open Programs Sequences

/-- The value of a hexadecimal digit. -/
def hexDigit (b : UInt8) : Option ℕ :=
  if 48 ≤ b ∧ b ≤ 57 then some (b.toNat - 48)
  else if 97 ≤ b ∧ b ≤ 102 then some (b.toNat - 87)
  else if 65 ≤ b ∧ b ≤ 70 then some (b.toNat - 55)
  else none

/-- Whether a byte is a hexadecimal digit. -/
def isHexDigit (b : UInt8) : Bool := (hexDigit b).isSome

/-- `Number.parseInt(digits, 16)` of hexadecimal digits. -/
def hexValue (digits : Bytes) : ℕ := digits.foldl (fun n d => 16 * n + (hexDigit d).getD 0) 0

/-- A line without its terminator. -/
def lineText (line : Bytes) : Bytes := line.take (line.length - 2)

/-- `parseChunkSize`: the hexadecimal size in front of any `;`. -/
def parseChunkSize (line : Bytes) : Except Failure ℕ :=
  let size := trimOws ((lineText line).takeWhile (· ≠ 59))
  if size ≠ [] ∧ size.all isHexDigit ∧ size.length ≤ 15 then .ok (hexValue size)
  else httpError 400 "invalid chunk size"

/-- `ChunkCapture`: the chunks held, the cap on their total, and the running
total (absent means zero). -/
structure ChunkCapture where
  chunks : List Bytes
  maxBytes : ℕ
  held : Option ℕ := none
  deriving DecidableEq, Repr

/-- Throw what a parser threw. -/
def liftExcept {α : Type} : Except Failure α → RelayM α
  | .ok a => Prog.ret a
  | .error e => Prog.fail e

/-- `relayCapturedChunk`: hold one chunk's payload and relay its bytes. -/
def relayCapturedChunk (size : ℕ) (capture : ChunkCapture) : RelayM ChunkCapture := do
  let held := capture.held.getD 0
  if held + size > capture.maxBytes then Prog.fail (.http 413 "request body too large")
  else
    let data ← BufferedReader.readExact (size + 2)
    writeAll data
    return { capture with
      chunks := capture.chunks ++ [data.take size], held := some (held + size) }

/-- Read a line and relay it. -/
def relayLine : RelayM Bytes := do
  let line ← BufferedReader.readLine
  writeAll line
  return line

/-- One round of `relayTrailers`. -/
def relayTrailersRound (_ : Unit) : RelayM (Bool × Unit) := do
  let line ← relayLine
  return (decide (line.length ≠ 2), ())

/-- `relayTrailers`: trailers, through the blank line. -/
def relayTrailers : RelayM Unit := do
  let s ← Prog.current
  repeatSequential relayTrailersRound (s.reader.pending.length + 1) ()

/-- One chunk's data and the two bytes after it, held when there is a capture. -/
def relayChunk (size : ℕ) : Option ChunkCapture → RelayM (Option ChunkCapture)
  | some capture => do return some (← relayCapturedChunk size capture)
  | none => do
      BufferedReader.copyExact (size + 2)
      return none

/-- One round of `relayChunked`. -/
def relayChunkedRound (capture : Option ChunkCapture) :
    RelayM (Bool × Option ChunkCapture) := do
  let sizeLine ← relayLine
  let size ← liftExcept (parseChunkSize sizeLine)
  if size = 0 then return (false, capture)
  else
    let capture' ← relayChunk size capture
    return (true, capture')

/-- `relayChunked`: relay a chunked body, framing included. -/
def relayChunked (capture : Option ChunkCapture) : RelayM (Option ChunkCapture) := do
  let s ← Prog.current
  let capture' ← repeatSequential relayChunkedRound (s.reader.pending.length + 1) capture
  relayTrailers
  return capture'

/-- `relayBody`: relay a body per its framing. -/
def relayBody : Framing → RelayM Unit
  | .none => return ()
  | .length n => BufferedReader.copyExact n
  | .chunked => do
      let _ ← relayChunked none
      return ()
  | .eof => BufferedReader.copyToEnd

/-! ## What a relayed body is -/

/-- A trailer section: lines that are not blank, then the blank line. -/
inductive Trailers : Bytes → Prop
  | last : Trailers crlf
  | line {line rest : Bytes} (hline : IsRecord crlf line) (hlong : line.length ≠ 2)
      (hrest : Trailers rest) : Trailers (line ++ rest)

/-- A chunked body as the gate reads it, with its decoded payload. -/
inductive ChunkedBody : Bytes → Bytes → Prop
  | last {line trailers : Bytes} (hline : IsRecord crlf line)
      (hsize : parseChunkSize line = .ok 0) (htrailers : Trailers trailers) :
      ChunkedBody (line ++ trailers) []
  | chunk {line data ending rest payload : Bytes} (hline : IsRecord crlf line)
      (hsize : parseChunkSize line = .ok data.length) (hdata : data ≠ [])
      (hending : ending.length = 2) (hrest : ChunkedBody rest payload) :
      ChunkedBody (line ++ (data ++ ending ++ rest)) (data ++ payload)

/-- A body of each framing, with its decoded payload. -/
def BodyOf (framing : Framing) (raw payload : Bytes) : Prop :=
  match framing with
  | .none => raw = [] ∧ payload = []
  | .length n => raw.length = n ∧ payload = raw
  | .chunked => ChunkedBody raw payload
  | .eof => payload = raw

/-- A stream begins with at most one trailer section. -/
theorem Trailers.unique {first second restFirst restSecond : Bytes} (hfirst : Trailers first)
    (hsecond : Trailers second) (hsame : first ++ restFirst = second ++ restSecond) :
    first = second := by
  have hcrlf : IsRecord crlf crlf := by decide
  induction hfirst generalizing second with
  | last =>
      cases hsecond with
      | last => rfl
      | @line line rest hline hlong hrest =>
          rw [List.append_assoc] at hsame
          obtain ⟨rfl, -⟩ := hcrlf.unique hline hsame
          exact absurd rfl hlong
  | @line line rest hline hlong hrest ih =>
      rw [List.append_assoc] at hsame
      cases hsecond with
      | last =>
          obtain ⟨rfl, -⟩ := hline.unique hcrlf hsame
          exact absurd rfl hlong
      | @line line' rest' hline' hlong' hrest' =>
          rw [List.append_assoc] at hsame
          obtain ⟨rfl, hafter⟩ := hline.unique hline' hsame
          rw [ih hrest' hafter]

/-- A stream begins with at most one chunked body, of one payload. -/
theorem ChunkedBody.unique {first second restFirst restSecond payload payload' : Bytes}
    (hfirst : ChunkedBody first payload) (hsecond : ChunkedBody second payload')
    (hsame : first ++ restFirst = second ++ restSecond) :
    first = second ∧ payload = payload' := by
  induction hfirst generalizing second payload' with
  | @last line trailers hline hsize htrailers =>
      rw [List.append_assoc] at hsame
      cases hsecond with
      | @last line' trailers' hline' hsize' htrailers' =>
          rw [List.append_assoc] at hsame
          obtain ⟨rfl, hafter⟩ := hline.unique hline' hsame
          exact ⟨by rw [htrailers.unique htrailers' hafter], rfl⟩
      | @chunk line' data' ending' rest' payload' hline' hsize' hdata' hending' hrest' =>
          rw [List.append_assoc] at hsame
          obtain ⟨rfl, -⟩ := hline.unique hline' hsame
          rw [hsize] at hsize'
          exact absurd (List.length_eq_zero_iff.mp (Except.ok.inj hsize').symm) hdata'
  | @chunk line data ending rest payload hline hsize hdata hending hrest ih =>
      rw [List.append_assoc line, List.append_assoc (data ++ ending)] at hsame
      cases hsecond with
      | @last line' trailers' hline' hsize' htrailers' =>
          rw [List.append_assoc line'] at hsame
          obtain ⟨rfl, -⟩ := hline.unique hline' hsame
          rw [hsize'] at hsize
          exact absurd (List.length_eq_zero_iff.mp (Except.ok.inj hsize).symm) hdata
      | @chunk line' data' ending' rest' payload' hline' hsize' hdata' hending' hrest' =>
          rw [List.append_assoc line'] at hsame
          obtain ⟨rfl, hafter⟩ := hline.unique hline' hsame
          rw [hsize'] at hsize
          have hlength : data'.length = data.length := Except.ok.inj hsize
          rw [List.append_assoc (data' ++ ending')] at hafter
          obtain ⟨hpiece, hlater⟩ := List.append_inj hafter (by simp [hlength, hending, hending'])
          obtain ⟨rfl, rfl⟩ := List.append_inj hpiece hlength.symm
          obtain ⟨rfl, rfl⟩ := ih hrest' hlater
          exact ⟨rfl, rfl⟩

/-! ## What the relays do -/

/-- A relayed line is the first line of the stream. -/
theorem triple_relayLine (s₀ : Relay) :
    Triple (· = s₀) relayLine
      (fun line s => IsRecord crlf line ∧ Moved s₀ s line line) (fun _ s => Partial s₀ s) := by
  refine Triple.bind ((BufferedReader.triple_readLine s₀).conseq (fun _ h => h) (fun _ _ h => h)
    (fun _ _ h => h.toPartial)) fun line => ?_
  rintro s ⟨hsink, hcut⟩
  have hpending := append_of_cutThrough hcut
  refine Triple.bind ((triple_writeAll s line).conseq (fun _ h => h) (fun _ _ h => h) ?_)
    (fun _ => Triple.pure _ ?_) s rfl
  · rintro _ s' ⟨hreader, sent, hprefix, hwritten⟩
    exact ⟨line, sent, hprefix, hreader ▸ hpending, hsink ▸ hwritten⟩
  · rintro s' ⟨hreader, hwritten⟩
    exact ⟨isRecord_of_cutThrough hcut, hreader ▸ hpending, hsink ▸ hwritten⟩

/-- A line holds at least its terminator. -/
theorem two_le_length_of_isRecord {line : Bytes} (hline : IsRecord crlf line) :
    2 ≤ line.length :=
  length_le_of_cutThrough hline

/-- The only line of two bytes is the blank one. -/
theorem eq_crlf_of_isRecord {line : Bytes} (hline : IsRecord crlf line)
    (hlength : line.length = 2) : line = crlf :=
  ((suffix_of_cutThrough hline).eq_of_length hlength.symm).symm

/-- Relaying a line leaves less to come. -/
theorem Moved.pending_length_lt {before after : Relay} {line : Bytes}
    (hmoved : Moved before after line line) (hline : IsRecord crlf line) :
    after.reader.pending.length < before.reader.pending.length := by
  have hlength := two_le_length_of_isRecord hline
  rw [hmoved.pending, List.length_append]
  omega

theorem triple_relayTrailersRound (s₀ : Relay) (n : ℕ) :
    Triple
      (fun s => (∃ raw, Moved s₀ s raw raw ∧ ∀ rest, Trailers rest → Trailers (raw ++ rest)) ∧
        s.reader.pending.length = n)
      (relayTrailersRound ())
      (fun r s => if r.1 then
          (∃ raw, Moved s₀ s raw raw ∧ ∀ rest, Trailers rest → Trailers (raw ++ rest)) ∧
            s.reader.pending.length < n
        else ∃ raw, Moved s₀ s raw raw ∧ Trailers raw)
      (fun _ s => Partial s₀ s) := by
  rintro s ⟨⟨raw, hmoved, htrailers⟩, rfl⟩
  refine Triple.bind ((triple_relayLine s).conseq (fun _ h => h) (fun _ _ h => h)
    (fun _ _ h => hmoved.trans_partial h)) (fun line => Triple.pure _ ?_) s rfl
  rintro s' ⟨hline, hmoved'⟩
  have hboth := hmoved.trans hmoved'
  by_cases hblank : line.length = 2
  · rw [if_neg (by simpa using hblank)]
    rw [eq_crlf_of_isRecord hline hblank] at hboth
    exact ⟨raw ++ crlf, hboth, htrailers crlf .last⟩
  · rw [if_pos (decide_eq_true hblank)]
    refine ⟨⟨raw ++ line, hboth, fun rest hrest => ?_⟩, hmoved'.pending_length_lt hline⟩
    rw [List.append_assoc]
    exact htrailers _ (.line hline hblank hrest)

/-- `relayTrailers` relays one trailer section. -/
theorem triple_relayTrailers (s₀ : Relay) :
    Triple (· = s₀) relayTrailers
      (fun _ s => ∃ raw, Moved s₀ s raw raw ∧ Trailers raw) (fun _ s => Partial s₀ s) := by
  rintro s rfl
  rw [relayTrailers, Prog.bind_apply_of_ok (Prog.current_apply s)]
  exact Triple.iterate (e := Failure.diverged)
    (fun _ s' => ∃ raw, Moved s s' raw raw ∧ ∀ rest, Trailers rest → Trailers (raw ++ rest))
    (fun _ s' => s'.reader.pending.length) (fun _ => triple_relayTrailersRound s) _ () s
    ⟨⟨[], Moved.refl s, fun _ h => h⟩, Nat.lt_succ_self _⟩

/-- What a capture holds once `payload` has been added to it. -/
def Captured (before after : Option ChunkCapture) (payload : Bytes) : Prop :=
  match before, after with
  | none, none => True
  | some c, some c' => c'.chunks.flatten = c.chunks.flatten ++ payload
  | _, _ => False

theorem Captured.refl (capture : Option ChunkCapture) : Captured capture capture [] := by
  cases capture <;> simp [Captured]

theorem Captured.trans {first second third : Option ChunkCapture} {payload₁ payload₂ : Bytes}
    (h₁ : Captured first second payload₁) (h₂ : Captured second third payload₂) :
    Captured first third (payload₁ ++ payload₂) := by
  cases first <;> cases second <;> cases third <;> simp_all [Captured]

/-- One chunk is relayed with the two bytes after it, and held when there is a
capture. -/
theorem triple_relayChunk (s₀ : Relay) (size : ℕ) (capture : Option ChunkCapture) :
    Triple (· = s₀) (relayChunk size capture)
      (fun capture' s => ∃ data ending, data.length = size ∧ ending.length = 2 ∧
        Moved s₀ s (data ++ ending) (data ++ ending) ∧ Captured capture capture' data)
      (fun _ s => Partial s₀ s) := by
  have hsplit : ∀ piece : Bytes, piece.length = size + 2 →
      (piece.take size).length = size ∧ (piece.drop size).length = 2 := by
    intro piece hpiece
    rw [List.length_take, List.length_drop]
    omega
  cases capture with
  | none =>
      refine Triple.bind (BufferedReader.triple_copyExact s₀ (size + 2))
        fun _ => Triple.pure _ ?_
      rintro s ⟨piece, hlength, hmoved⟩
      obtain ⟨hdata, hending⟩ := hsplit piece hlength
      exact ⟨piece.take size, piece.drop size, hdata, hending,
        by rwa [List.take_append_drop], trivial⟩
  | some capture =>
      refine Triple.bind (Q := fun capture' s => ∃ data ending, data.length = size ∧
        ending.length = 2 ∧ Moved s₀ s (data ++ ending) (data ++ ending) ∧
        Captured (some capture) (some capture') data) ?_ fun _ => Triple.pure _ fun _ h => h
      rintro s rfl
      rw [relayCapturedChunk]
      by_cases hbig : capture.held.getD 0 + size > capture.maxBytes
      · simp only [if_pos hbig]
        exact (Idle.refl s).toPartial
      · simp only [if_neg hbig]
        refine Triple.bind ((BufferedReader.triple_readExact s (size + 2)).conseq
          (fun _ h => h) (fun _ _ h => h) (fun _ _ h => h.toPartial)) ?_ s rfl
        rintro piece s' ⟨hsink, hlength, hpending⟩
        obtain ⟨hdata, hending⟩ := hsplit piece hlength
        refine Triple.bind ((triple_writeAll s' piece).conseq (fun _ h => h) (fun _ _ h => h) ?_)
          (fun _ => Triple.pure _ ?_) s' rfl
        · rintro _ s'' ⟨hreader, sent, hprefix, hwritten⟩
          exact ⟨piece, sent, hprefix, hreader ▸ hpending, hsink ▸ hwritten⟩
        · rintro s'' ⟨hreader, hwritten⟩
          refine ⟨piece.take size, piece.drop size, hdata, hending, ?_, by simp [Captured]⟩
          rw [List.take_append_drop]
          exact ⟨hreader ▸ hpending, hsink ▸ hwritten⟩

/-- What `relayChunked` has relayed before a round: complete chunks, which any
chunked body may follow. -/
structure Chunking (s₀ : Relay) (capture₀ capture : Option ChunkCapture) (s : Relay)
    (raw payload : Bytes) : Prop where
  moved : Moved s₀ s raw raw
  captured : Captured capture₀ capture payload
  extend : ∀ rest more, ChunkedBody rest more → ChunkedBody (raw ++ rest) (payload ++ more)

/-- What `relayChunked` has relayed once the last chunk's line is through: any
trailer section completes the body. -/
structure LastChunk (s₀ : Relay) (capture₀ capture : Option ChunkCapture) (s : Relay)
    (raw payload : Bytes) : Prop where
  moved : Moved s₀ s raw raw
  captured : Captured capture₀ capture payload
  close : ∀ trailers, Trailers trailers → ChunkedBody (raw ++ trailers) payload

theorem triple_liftExcept {α : Type} (s₀ : Relay) (result : Except Failure α) :
    Triple (· = s₀) (liftExcept result) (fun a s => s = s₀ ∧ result = .ok a)
      (fun _ s => s = s₀) := by
  rintro s rfl
  cases result with
  | ok a => exact ⟨rfl, rfl⟩
  | error e => exact rfl

theorem triple_relayChunkedRound (s₀ : Relay) (capture₀ capture : Option ChunkCapture) (n : ℕ) :
    Triple
      (fun s => (∃ raw payload, Chunking s₀ capture₀ capture s raw payload) ∧
        s.reader.pending.length = n)
      (relayChunkedRound capture)
      (fun r s => if r.1 then (∃ raw payload, Chunking s₀ capture₀ r.2 s raw payload) ∧
          s.reader.pending.length < n
        else ∃ raw payload, LastChunk s₀ capture₀ r.2 s raw payload)
      (fun _ s => Partial s₀ s) := by
  rintro s ⟨⟨raw, payload, hmoved, hcaptured, hextend⟩, rfl⟩
  refine Triple.bind ((triple_relayLine s).conseq (fun _ h => h) (fun _ _ h => h)
    (fun _ _ h => hmoved.trans_partial h)) ?_ s rfl
  rintro line s' ⟨hline, hmoved'⟩
  have hboth := hmoved.trans hmoved'
  refine Triple.bind ((triple_liftExcept s' (parseChunkSize line)).conseq (fun _ h => h)
    (fun _ _ h => h) (fun _ _ h => h ▸ hboth.toPartial)) ?_ s' rfl
  rintro size _ ⟨rfl, hsize⟩
  next s' =>
  by_cases hzero : size = 0
  · rw [if_pos hzero]
    refine ⟨raw ++ line, payload, hboth, hcaptured, fun trailers htrailers => ?_⟩
    have hlast := hextend _ _ (.last hline (hzero ▸ hsize) htrailers)
    rwa [List.append_nil, ← List.append_assoc] at hlast
  · rw [if_neg hzero]
    refine Triple.bind ((triple_relayChunk s' size capture).conseq (fun _ h => h)
      (fun _ _ h => h) (fun _ _ h => hboth.trans_partial h)) (fun capture' => Triple.pure _ ?_)
      s' rfl
    rintro s'' ⟨data, ending, hdata, hending, hmoved'', hcaptured'⟩
    refine ⟨⟨_, _, hboth.trans hmoved'', hcaptured.trans hcaptured', fun rest more hrest => ?_⟩, ?_⟩
    · have hchunk := hextend _ _ (.chunk hline (hdata ▸ hsize)
        (fun hnil => hzero (by simpa [hnil] using hdata.symm)) hending hrest)
      simpa [List.append_assoc] using hchunk
    · have hline' := hmoved'.pending_length_lt hline
      have hpending := congrArg List.length hmoved''.pending
      rw [List.length_append] at hpending
      omega

/-- `relayChunked` relays one chunked body and holds its payload when there is a
capture. -/
theorem triple_relayChunked (s₀ : Relay) (capture : Option ChunkCapture) :
    Triple (· = s₀) (relayChunked capture)
      (fun capture' s => ∃ raw payload, Moved s₀ s raw raw ∧ ChunkedBody raw payload ∧
        Captured capture capture' payload)
      (fun _ s => Partial s₀ s) := by
  rintro s rfl
  rw [relayChunked, Prog.bind_apply_of_ok (Prog.current_apply s)]
  have hloop := Triple.iterate (e := Failure.diverged)
    (Q := fun capture' s' => ∃ raw payload, LastChunk s capture capture' s' raw payload)
    (fun capture' s' => ∃ raw payload, Chunking s capture capture' s' raw payload)
    (fun _ s' => s'.reader.pending.length) (triple_relayChunkedRound s capture)
    (s.reader.pending.length + 1) capture
  refine Triple.bind hloop (fun capture' => ?_) s
    ⟨⟨[], [], Moved.refl s, Captured.refl capture, fun _ _ h => h⟩, Nat.lt_succ_self _⟩
  rintro s' ⟨raw, payload, hmoved, hcaptured, hclose⟩
  refine Triple.bind ((triple_relayTrailers s').conseq (fun _ h => h) (fun _ _ h => h)
    (fun _ _ h => hmoved.trans_partial h)) (fun _ => Triple.pure _ ?_) s' rfl
  rintro s'' ⟨trailers, hmoved', htrailers⟩
  exact ⟨raw ++ trailers, payload, hmoved.trans hmoved', hclose trailers htrailers, hcaptured⟩

/-- `relayBody` relays one body of its framing. -/
theorem triple_relayBody (s₀ : Relay) (framing : Framing) :
    Triple (· = s₀) (relayBody framing)
      (fun _ s => ∃ raw payload, Moved s₀ s raw raw ∧ BodyOf framing raw payload)
      (fun _ s => Partial s₀ s) := by
  cases framing with
  | none =>
      rintro s rfl
      exact ⟨[], [], Moved.refl s, rfl, rfl⟩
  | length n =>
      refine (BufferedReader.triple_copyExact s₀ n).conseq (fun _ h => h) ?_ (fun _ _ h => h)
      rintro _ s ⟨data, hlength, hmoved⟩
      exact ⟨data, data, hmoved, hlength, rfl⟩
  | chunked =>
      refine Triple.bind (triple_relayChunked s₀ none) fun _ => Triple.pure _ ?_
      rintro s ⟨raw, payload, hmoved, hbody, -⟩
      exact ⟨raw, payload, hmoved, hbody⟩
  | eof =>
      refine (BufferedReader.triple_copyToEnd s₀).conseq (fun _ h => h) ?_ (fun _ _ h => h)
      rintro _ s ⟨hmoved, -⟩
      exact ⟨_, _, hmoved, rfl⟩

end Turbopaneld.DockerGate
