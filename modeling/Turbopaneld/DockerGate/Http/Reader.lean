/-
# The gate's buffered reader and its sinks

`BufferedReader` (http.ts) reads a connection in whatever pieces the peer's
writes arrive in and keeps what it read ahead.  The model keeps the pieces: a
source is the list of what its next reads return.  The abstraction is `pending`,
the bytes still to come, and every operation is specified by how it cuts that
one byte string.  Nothing above this module looks at the pieces again, which is
how results hold for every way a stream is split into reads.

A sink takes as much of each write as it likes, or fails; what reached it is
`written`.
-/

import Turbopaneld.Programs.Stateful
import Turbopaneld.Sequences.Cut

namespace Turbopaneld.DockerGate

open Programs Sequences

/-- Bytes on a connection. -/
abbrev Bytes := List UInt8

/-- Why an operation on a connection threw. -/
inductive Failure
  /-- An `HttpError`: the gate answers it with the status and closes. -/
  | http (status : ℕ) (message : String)
  /-- Any other error: the peer is gone, or a read or a write failed. -/
  | io
  /-- A loop past its bound.  The triples below show that no run ends so. -/
  | diverged
  deriving DecidableEq, Repr

/-- What one `read` of a source comes to.  A read of no bytes, like the end of the
list, is the end of the stream. -/
inductive Read
  | data (bytes : Bytes)
  | fault
  deriving DecidableEq, Repr

/-- What one `write` of a sink comes to: it takes at most `count` bytes, or
fails. -/
inductive Write
  | accept (count : ℕ)
  | fault
  deriving DecidableEq, Repr

/-- `BufferedReader`: the bytes read ahead, whether the end was seen, and what the
source's next reads return. -/
structure BufferedReader where
  buffer : Bytes
  eof : Bool
  source : List Read
  deriving DecidableEq, Repr

/-- A sink: what reached it, and what its next writes come to (all of each write
once the list is used up). -/
structure Sink where
  written : Bytes
  script : List Write
  deriving DecidableEq, Repr

/-- The two ends a relay works between. -/
structure Relay where
  reader : BufferedReader
  sink : Sink
  deriving DecidableEq, Repr

/-- Code that reads one end, writes the other and may throw. -/
abbrev RelayM := Prog Failure Relay

/-- `repeatSequential` (util.ts) over the local variables of its callback. -/
abbrev repeatSequential {α : Type} (round : α → RelayM (Bool × α)) (fuel : ℕ) (a : α) :
    RelayM α :=
  Prog.iterate Failure.diverged round fuel a

/-- A fresh reader over a source. -/
def BufferedReader.new (source : List Read) : BufferedReader := ⟨[], false, source⟩

/-! ## What is still to come -/

/-- The bytes a source delivers, in order; a read that fails delivers none. -/
def flow : List Read → Bytes
  | [] => []
  | .fault :: rest => flow rest
  | .data [] :: _ => []
  | .data (b :: bytes) :: rest => (b :: bytes) ++ flow rest

/-- The bytes a reader will still hand out: what it holds, then the source. -/
def BufferedReader.pending (reader : BufferedReader) : Bytes :=
  reader.buffer ++ if reader.eof then [] else flow reader.source

@[simp]
theorem BufferedReader.pending_new (source : List Read) :
    (BufferedReader.new source).pending = flow source := rfl

/-- From `before` to `after` the relay took `consumed` off the front of the
stream and wrote `sent`. -/
structure Moved (before after : Relay) (consumed sent : Bytes) : Prop where
  pending : before.reader.pending = consumed ++ after.reader.pending
  written : after.sink.written = before.sink.written ++ sent

/-- A relay that stopped part way: what it wrote is the beginning of what it took. -/
def Partial (before after : Relay) : Prop :=
  ∃ consumed sent, sent <+: consumed ∧ Moved before after consumed sent

/-- No byte was taken and no byte was written. -/
structure Idle (before after : Relay) : Prop where
  pending : after.reader.pending = before.reader.pending
  sink : after.sink = before.sink

theorem Idle.refl (s : Relay) : Idle s s := ⟨rfl, rfl⟩

theorem Idle.trans {first second third : Relay} (h₁ : Idle first second)
    (h₂ : Idle second third) : Idle first third :=
  ⟨h₂.pending.trans h₁.pending, h₂.sink.trans h₁.sink⟩

theorem Idle.moved {before after : Relay} (h : Idle before after) :
    Moved before after [] [] :=
  ⟨by rw [h.pending]; rfl, by rw [h.sink]; simp⟩

theorem Moved.refl (s : Relay) : Moved s s [] [] := (Idle.refl s).moved

theorem Moved.trans {first second third : Relay} {taken₁ sent₁ taken₂ sent₂ : Bytes}
    (h₁ : Moved first second taken₁ sent₁) (h₂ : Moved second third taken₂ sent₂) :
    Moved first third (taken₁ ++ taken₂) (sent₁ ++ sent₂) :=
  ⟨by rw [h₁.pending, h₂.pending, List.append_assoc],
    by rw [h₂.written, h₁.written, List.append_assoc]⟩

theorem Moved.toPartial {before after : Relay} {taken : Bytes}
    (h : Moved before after taken taken) : Partial before after :=
  ⟨taken, taken, List.prefix_rfl, h⟩

theorem Idle.toPartial {before after : Relay} (h : Idle before after) : Partial before after :=
  h.moved.toPartial

/-- A complete relay followed by a partial one is a partial one. -/
theorem Moved.trans_partial {first second third : Relay} {taken : Bytes}
    (h₁ : Moved first second taken taken) (h₂ : Partial second third) :
    Partial first third := by
  obtain ⟨consumed, sent, hprefix, hmoved⟩ := h₂
  exact ⟨taken ++ consumed, taken ++ sent, List.prefix_append_right_inj taken |>.mpr hprefix,
    h₁.trans hmoved⟩

/-! ## Reading -/

/-- `MAX_HEAD_BYTES`. -/
def maxHeadBytes : ℕ := 64 * 1024

/-- `MAX_LINE_BYTES`. -/
def maxLineBytes : ℕ := 4096

/-- `CRLF`. -/
def crlf : Bytes := [13, 10]

/-- `CRLF_CRLF`. -/
def crlfCrlf : Bytes := [13, 10, 13, 10]

/-- `indexOfSequence`: the first position from `start` on where `needle` stands. -/
def indexOfSequence (haystack needle : Bytes) (start : ℕ) : Option ℕ :=
  (List.range' start (haystack.length + 1 - needle.length - start)).find? fun i =>
    needle.isPrefixOf (haystack.drop i)

namespace BufferedReader

/-- `fill`: read more from the source; false once it is exhausted. -/
def fill : RelayM Bool := fun s =>
  if s.reader.eof then (.ok false, s) else
    match s.reader.source with
    | [] => (.ok false, { s with reader := { s.reader with eof := true } })
    | .fault :: rest => (.error .io, { s with reader := { s.reader with source := rest } })
    | .data [] :: rest =>
        (.ok false, { s with reader := { s.reader with source := rest, eof := true } })
    | .data (b :: bytes) :: rest =>
        (.ok true, { s with reader :=
          { s.reader with buffer := s.reader.buffer ++ (b :: bytes), source := rest } })

/-- `consume`: take `count` bytes of the buffer. -/
def consume (count : ℕ) : RelayM Bytes := fun s =>
  (.ok (s.reader.buffer.take count),
    { s with reader := { s.reader with buffer := s.reader.buffer.drop count } })

/-- The local variables of `readThrough`. -/
structure Search where
  searchFrom : ℕ
  found : Option Bytes
  deriving DecidableEq, Repr

/-- One round of `readThrough`. -/
def readThroughRound (delimiter : Bytes) (max : ℕ) (tooLong : String) (search : Search) :
    RelayM (Bool × Search) := do
  let s ← Prog.current
  match indexOfSequence s.reader.buffer delimiter search.searchFrom with
  | some i =>
      let found ← consume (i + delimiter.length)
      return (false, { search with found := some found })
  | none =>
      if s.reader.buffer.length > max then Prog.fail (.http 431 tooLong)
      else
        let search' := { search with
          searchFrom := s.reader.buffer.length + 1 - delimiter.length }
        if ← fill then return (true, search')
        else if s.reader.buffer.length = 0 then return (false, search')
        else Prog.fail (.http 400 "connection closed inside a message head")

/-- `readThrough`: read through the next `delimiter`; `none` on a clean end before
any byte. -/
def readThrough (delimiter : Bytes) (max : ℕ) (tooLong : String) : RelayM (Option Bytes) := do
  let s ← Prog.current
  let search ← repeatSequential (readThroughRound delimiter max tooLong)
    (s.reader.source.length + 1) ⟨0, none⟩
  return search.found

/-- `readHead`: the next head, through the blank line. -/
def readHead : RelayM (Option Bytes) :=
  readThrough crlfCrlf maxHeadBytes "message head too large"

/-- `readLine`: one CRLF-terminated line, with its terminator. -/
def readLine : RelayM Bytes := do
  match ← readThrough crlf maxLineBytes "line too long" with
  | none => Prog.fail (.http 400 "connection closed in a body")
  | some line => return line

/-- One round of `readExact`'s wait for the buffer to hold `count` bytes. -/
def readExactRound (count : ℕ) (_ : Unit) : RelayM (Bool × Unit) := do
  let s ← Prog.current
  if s.reader.buffer.length ≥ count then return (false, ())
  else if ← fill then return (true, ())
  else Prog.fail (.http 400 "connection closed inside a body")

/-- `readExact`: exactly `count` bytes into memory. -/
def readExact (count : ℕ) : RelayM Bytes := do
  let s ← Prog.current
  let _ ← repeatSequential (readExactRound count) (s.reader.source.length + 1) ()
  consume count

end BufferedReader

/-! ## Writing -/

/-- `sink.write`: how many bytes of `p` the sink took. -/
def Sink.write (p : Bytes) : RelayM ℕ := fun s =>
  match s.sink.script with
  | [] => (.ok p.length, { s with sink := { s.sink with written := s.sink.written ++ p } })
  | .accept count :: rest =>
      (.ok (min count p.length),
        { s with sink := ⟨s.sink.written ++ p.take count, rest⟩ })
  | .fault :: rest => (.error .io, { s with sink := { s.sink with script := rest } })

/-- One round of `writeAll`, from `offset` on. -/
def writeAllRound (data : Bytes) (offset : ℕ) : RelayM (Bool × ℕ) := do
  if offset ≥ data.length then return (false, offset)
  else
    let count ← Sink.write (data.drop offset)
    return (decide (offset + count < data.length), offset + count)

/-- `writeAll`: write until the sink has taken everything. -/
def writeAll (data : Bytes) : RelayM Unit := do
  let s ← Prog.current
  let _ ← repeatSequential (writeAllRound data) (s.sink.script.length + 2) 0
  return ()

namespace BufferedReader

/-- Whether the buffer holds a byte, after reading more when it is empty. -/
def ready : RelayM Bool := do
  let s ← Prog.current
  if s.reader.buffer.length > 0 then return true else fill

/-- `await writeAll(sink, this.consume(count))`. -/
def relayBuffered (count : ℕ) : RelayM Unit := do
  let data ← consume count
  writeAll data

/-- One round of `copyExact`, with `remaining` bytes to go. -/
def copyExactRound (remaining : ℕ) : RelayM (Bool × ℕ) := do
  if remaining = 0 then return (false, remaining)
  else if ← ready then
    let s ← Prog.current
    let take := min remaining s.reader.buffer.length
    relayBuffered take
    return (decide (remaining - take > 0), remaining - take)
  else Prog.fail (.http 400 "connection closed inside a body")

/-- `copyExact`: relay exactly `count` bytes to the sink. -/
def copyExact (count : ℕ) : RelayM Unit := do
  let _ ← repeatSequential copyExactRound (count + 1) count
  return ()

/-- Relay what is held, if anything. -/
def relayHeld : RelayM Unit := do
  let s ← Prog.current
  if s.reader.buffer.length > 0 then relayBuffered s.reader.buffer.length else return ()

/-- One round of `copyToEnd`. -/
def copyToEndRound (_ : Unit) : RelayM (Bool × Unit) := do
  relayHeld
  let again ← fill
  return (again, ())

/-- `copyToEnd`: relay everything until the source ends. -/
def copyToEnd : RelayM Unit := do
  let s ← Prog.current
  let _ ← repeatSequential copyToEndRound (s.reader.source.length + 1) ()
  return ()

end BufferedReader

/-! ## What the operations do to the stream -/

theorem isPrefixOf_drop_iff {needle haystack : Bytes} {i : ℕ} :
    needle.isPrefixOf (haystack.drop i) = true ↔ needle <+: haystack.drop i :=
  List.isPrefixOf_iff_prefix

/-- A position `indexOfSequence` finds is the first one from `start` on. -/
theorem first_of_indexOfSequence {haystack needle : Bytes} {start i : ℕ}
    (hfind : indexOfSequence haystack needle start = some i) :
    needle <+: haystack.drop i ∧
      ∀ j, start ≤ j → j < i → ¬ needle <+: haystack.drop j := by
  rw [indexOfSequence, List.find?_range'_eq_some] at hfind
  obtain ⟨hfound, -, hbefore⟩ := hfind
  refine ⟨isPrefixOf_drop_iff.mp hfound, fun j hstart hj hprefix => ?_⟩
  have hnot := hbefore j hstart hj
  simp [isPrefixOf_drop_iff.mpr hprefix] at hnot

/-- When `indexOfSequence` finds nothing, the sequence stands nowhere from
`start` on. -/
theorem absent_of_indexOfSequence {haystack needle : Bytes} {start : ℕ}
    (hneedle : needle ≠ []) (hfind : indexOfSequence haystack needle start = none) :
    ∀ j, start ≤ j → ¬ needle <+: haystack.drop j := by
  intro j hstart hprefix
  have hlength := hprefix.length_le
  have hpos := List.length_pos_iff.mpr hneedle
  rw [List.length_drop] at hlength
  rw [indexOfSequence, List.find?_range'_eq_none] at hfind
  have hnot := hfind j hstart (by omega)
  simp [isPrefixOf_drop_iff.mpr hprefix] at hnot

namespace BufferedReader

/-- `fill` never loses a byte; when it says there is nothing more, the buffer is
all that is left. -/
theorem triple_fill (s₀ : Relay) :
    Triple (· = s₀) fill
      (fun more s => Idle s₀ s ∧
        if more then s.reader.source.length < s₀.reader.source.length ∧
          s₀.reader.buffer.length < s.reader.buffer.length ∧
          s₀.reader.buffer <+: s.reader.buffer
        else s.reader.buffer = s₀.reader.buffer ∧ s.reader.pending = s₀.reader.buffer)
      (fun _ s => Idle s₀ s) := by
  rintro ⟨⟨buffer, eof, source⟩, sink⟩ rfl
  cases eof with
  | true => simp [fill, Ends, pending, Idle.refl]
  | false =>
      rcases source with _ | ⟨read, rest⟩
      · simp [fill, Ends, pending]
        exact ⟨by simp [pending, flow], rfl⟩
      · rcases read with (_ | ⟨b, bytes⟩) | _
        · simp [fill, Ends, pending]
          exact ⟨by simp [pending, flow], rfl⟩
        · simp [fill, Ends]
          exact ⟨by simp [pending, flow], rfl⟩
        · simp only [fill, Ends]
          exact ⟨by simp [pending, flow], rfl⟩

/-- `consume` takes its bytes off the front of the stream. -/
theorem triple_consume (s₀ : Relay) (count : ℕ) (hcount : count ≤ s₀.reader.buffer.length) :
    Triple (· = s₀) (consume count)
      (fun data s => data = s₀.reader.buffer.take count ∧ data.length = count ∧
        s.sink = s₀.sink ∧ s.reader.source = s₀.reader.source ∧
        s.reader.buffer = s₀.reader.buffer.drop count ∧
        s₀.reader.pending = data ++ s.reader.pending)
      (fun _ _ => False) := by
  rintro s rfl
  refine ⟨rfl, by simp [hcount], rfl, rfl, rfl, ?_⟩
  show s.reader.buffer ++ _ = _ ++ (s.reader.buffer.drop count ++ _)
  rw [← List.append_assoc, List.take_append_drop]

/-- What `readThrough` has established when it starts a round: the delimiter does
not start before `searchFrom`. -/
structure Searching (s₀ : Relay) (delimiter : Bytes) (search : Search) (s : Relay) : Prop where
  idle : Idle s₀ s
  notFound : search.found = none
  absent : ∀ j < search.searchFrom, ¬ delimiter <+: s.reader.buffer.drop j

/-- What `readThrough` returns: the first record of the stream, or nothing at a
clean end. -/
def ReadThrough (s₀ : Relay) (delimiter : Bytes) (found : Option Bytes) (s : Relay) : Prop :=
  s.sink = s₀.sink ∧
    match found with
    | some record => cutThrough delimiter s₀.reader.pending = some (record, s.reader.pending)
    | none => s₀.reader.pending = [] ∧ s.reader.pending = []

/-- A search that fails over the whole buffer leaves only the last
`delimiter.length - 1` positions open once more bytes arrive. -/
theorem absent_after_fill {delimiter buffer longer : Bytes} {start : ℕ}
    (hdelimiter : delimiter ≠ []) (hbuffer : buffer <+: longer)
    (habsent : ∀ j < start, ¬ delimiter <+: buffer.drop j)
    (hfind : indexOfSequence buffer delimiter start = none) :
    ∀ j < buffer.length + 1 - delimiter.length, ¬ delimiter <+: longer.drop j := by
  intro j hj hprefix
  obtain ⟨more, rfl⟩ := hbuffer
  have hpos := List.length_pos_iff.mpr hdelimiter
  rw [List.drop_append_of_le_length (by omega)] at hprefix
  have hshort : delimiter <+: buffer.drop j :=
    List.prefix_of_prefix_length_le hprefix (List.prefix_append _ more)
      (by rw [List.length_drop]; omega)
  by_cases hstart : j < start
  · exact habsent j hstart hshort
  · exact absent_of_indexOfSequence hdelimiter hfind j (by omega) hshort

theorem triple_readThroughRound (s₀ : Relay) {delimiter : Bytes} (hdelimiter : delimiter ≠ [])
    (max : ℕ) (tooLong : String) (search : Search) (n : ℕ) :
    Triple (fun s => Searching s₀ delimiter search s ∧ s.reader.source.length = n)
      (readThroughRound delimiter max tooLong search)
      (fun r s => if r.1 then Searching s₀ delimiter r.2 s ∧ s.reader.source.length < n
        else ReadThrough s₀ delimiter r.2.found s)
      (fun _ s => Idle s₀ s) := by
  rintro s ⟨⟨hidle, hnone, habsent⟩, rfl⟩
  rw [readThroughRound, Prog.bind_apply_of_ok (Prog.current_apply s)]
  cases hfind : indexOfSequence s.reader.buffer delimiter search.searchFrom with
  | some i =>
      obtain ⟨hfound, hfirst⟩ := first_of_indexOfSequence hfind
      have hlength : i + delimiter.length ≤ s.reader.buffer.length := by
        have hle := hfound.length_le
        have hpos := List.length_pos_iff.mpr hdelimiter
        rw [List.length_drop] at hle
        omega
      have hcut := cutThrough_of_first hdelimiter hfound fun j hj => by
        by_cases hstart : j < search.searchFrom
        · exact habsent j hstart
        · exact hfirst j (by omega) hj
      have hconsume := triple_consume s _ hlength s rfl
      refine ⟨hidle.sink, ?_⟩
      have hlonger := cutThrough_append (if s.reader.eof then [] else flow s.reader.source) hcut
      rw [← hidle.pending]
      exact hlonger
  | none =>
      by_cases hmax : s.reader.buffer.length > max
      · simp only [if_pos hmax]
        exact hidle
      · simp only [if_neg hmax]
        have hfill := triple_fill s s rfl
        rcases hrun : fill s with ⟨outcome, s'⟩
        rw [hrun] at hfill
        cases outcome with
        | error e =>
            rw [Prog.bind_apply_of_error hrun]
            exact hidle.trans hfill
        | ok more =>
            rw [Prog.bind_apply_of_ok hrun]
            obtain ⟨hidle', hmore⟩ := hfill
            cases more with
            | true =>
                obtain ⟨hsource, -, hbuffer⟩ := hmore
                exact ⟨⟨hidle.trans hidle', hnone,
                  absent_after_fill hdelimiter hbuffer habsent hfind⟩, hsource⟩
            | false =>
                obtain ⟨-, hpending⟩ := hmore
                by_cases hempty : s.reader.buffer.length = 0
                · rw [if_neg Bool.false_ne_true, if_pos hempty]
                  have hnil := List.length_eq_zero_iff.mp hempty
                  have hlast : s'.reader.pending = [] := hpending.trans hnil
                  refine ⟨(hidle.trans hidle').sink, ?_⟩
                  simp only [hnone]
                  exact ⟨(hidle.trans hidle').pending ▸ hlast, hlast⟩
                · rw [if_neg Bool.false_ne_true, if_neg hempty]
                  exact hidle.trans hidle'

/-- `readThrough` cuts the stream after the first delimiter, however the stream
was split into reads. -/
theorem triple_readThrough (s₀ : Relay) {delimiter : Bytes} (hdelimiter : delimiter ≠ [])
    (max : ℕ) (tooLong : String) :
    Triple (· = s₀) (readThrough delimiter max tooLong)
      (fun found s => ReadThrough s₀ delimiter found s) (fun _ s => Idle s₀ s) := by
  rintro s rfl
  rw [readThrough, Prog.bind_apply_of_ok (Prog.current_apply s)]
  have hloop := Triple.iterate (e := Failure.diverged)
    (Q := fun search s' => ReadThrough s delimiter search.found s')
    (Searching s delimiter) (fun _ s' => s'.reader.source.length)
    (triple_readThroughRound s hdelimiter max tooLong)
    (s.reader.source.length + 1) ⟨0, none⟩
  refine Triple.bind (Q := fun search s' => ReadThrough s delimiter search.found s') hloop
    (fun search => Triple.pure _ fun _ h => h) s ⟨⟨Idle.refl s, rfl, ?_⟩, by simp⟩
  simp

/-- `readHead` takes everything through the first blank line. -/
theorem triple_readHead (s₀ : Relay) :
    Triple (· = s₀) readHead (fun found s => ReadThrough s₀ crlfCrlf found s)
      (fun _ s => Idle s₀ s) :=
  triple_readThrough s₀ (by decide) _ _

/-- `readLine` takes everything through the first CRLF. -/
theorem triple_readLine (s₀ : Relay) :
    Triple (· = s₀) readLine
      (fun line s => s.sink = s₀.sink ∧
        cutThrough crlf s₀.reader.pending = some (line, s.reader.pending))
      (fun _ s => Idle s₀ s) := by
  refine Triple.bind (triple_readThrough s₀ (by decide) _ _) fun found => ?_
  cases found with
  | none =>
      rintro s ⟨hsink, hbefore, hafter⟩
      exact ⟨hafter.trans hbefore.symm, hsink⟩
  | some line => exact Triple.pure _ fun _ h => h

theorem triple_readExactRound (s₀ : Relay) (count : ℕ) (n : ℕ) :
    Triple (fun s => Idle s₀ s ∧ s.reader.source.length = n) (readExactRound count ())
      (fun r s => if r.1 then Idle s₀ s ∧ s.reader.source.length < n
        else Idle s₀ s ∧ count ≤ s.reader.buffer.length)
      (fun _ s => Idle s₀ s) := by
  rintro s ⟨hidle, rfl⟩
  rw [readExactRound, Prog.bind_apply_of_ok (Prog.current_apply s)]
  by_cases henough : s.reader.buffer.length ≥ count
  · rw [if_pos henough]
    exact ⟨hidle, henough⟩
  · rw [if_neg henough]
    have hfill := triple_fill s s rfl
    rcases hrun : fill s with ⟨outcome, s'⟩
    rw [hrun] at hfill
    cases outcome with
    | error e =>
        rw [Prog.bind_apply_of_error hrun]
        exact hidle.trans hfill
    | ok more =>
        rw [Prog.bind_apply_of_ok hrun]
        obtain ⟨hidle', hmore⟩ := hfill
        cases more with
        | true => exact ⟨hidle.trans hidle', hmore.1⟩
        | false => exact hidle.trans hidle'

/-- `readExact` takes exactly `count` bytes. -/
theorem triple_readExact (s₀ : Relay) (count : ℕ) :
    Triple (· = s₀) (readExact count)
      (fun data s => s.sink = s₀.sink ∧ data.length = count ∧
        s₀.reader.pending = data ++ s.reader.pending)
      (fun _ s => Idle s₀ s) := by
  rintro s rfl
  rw [readExact, Prog.bind_apply_of_ok (Prog.current_apply s)]
  have hloop := Triple.iterate (e := Failure.diverged)
    (Q := fun _ s' => Idle s s' ∧ count ≤ s'.reader.buffer.length)
    (fun _ s' => Idle s s') (fun _ s' => s'.reader.source.length)
    (fun _ => triple_readExactRound s count) (s.reader.source.length + 1) ()
  refine Triple.bind hloop (fun _ => ?_) s ⟨Idle.refl s, by simp⟩
  rintro s' ⟨hidle, hcount⟩
  obtain ⟨-, hlength, hsink, -, -, hpending⟩ := triple_consume s' count hcount s' rfl
  exact ⟨hsink.trans hidle.sink, hlength, hidle.pending ▸ hpending⟩

end BufferedReader

/-- One write sends some beginning of what it was given, or fails and sends
nothing. -/
theorem triple_write (s₀ : Relay) (p : Bytes) :
    Triple (· = s₀) (Sink.write p)
      (fun count s => s.reader = s₀.reader ∧ count ≤ p.length ∧
        s.sink.written = s₀.sink.written ++ p.take count ∧
        (s.sink.script.length < s₀.sink.script.length ∨
          s.sink.script = s₀.sink.script ∧ count = p.length))
      (fun _ s => s.reader = s₀.reader ∧ s.sink.written = s₀.sink.written) := by
  rintro ⟨reader, ⟨written, script⟩⟩ rfl
  rcases script with _ | ⟨_ | _, rest⟩
  · simp [Sink.write, Ends]
  · next count =>
      refine ⟨rfl, Nat.min_le_right _ _, ?_, Or.inl (Nat.lt_succ_self _)⟩
      rw [← List.take_take, List.take_length]
  · simp [Sink.write, Ends]

/-- What `writeAll` has sent when it starts a round. -/
structure Sending (s₀ : Relay) (data : Bytes) (offset : ℕ) (s : Relay) : Prop where
  reader : s.reader = s₀.reader
  offset_le : offset ≤ data.length
  written : s.sink.written = s₀.sink.written ++ data.take offset

/-- A write that came short: the reader is untouched and a beginning of the data
was sent. -/
def SentPart (s₀ : Relay) (data : Bytes) (s : Relay) : Prop :=
  s.reader = s₀.reader ∧ ∃ sent, sent <+: data ∧ s.sink.written = s₀.sink.written ++ sent

theorem triple_writeAllRound (s₀ : Relay) (data : Bytes) (offset n : ℕ) :
    Triple
      (fun s => Sending s₀ data offset s ∧
        s.sink.script.length + (if offset < data.length then 1 else 0) = n)
      (writeAllRound data offset)
      (fun r s =>
        if r.1 then Sending s₀ data r.2 s ∧
          s.sink.script.length + (if r.2 < data.length then 1 else 0) < n
        else Sending s₀ data data.length s)
      (fun _ s => SentPart s₀ data s) := by
  rintro s ⟨hsending, rfl⟩
  rw [writeAllRound]
  by_cases hdone : offset ≥ data.length
  · rw [if_pos hdone]
    have hoffset : offset = data.length := le_antisymm hsending.offset_le hdone
    show Sending s₀ data data.length s
    exact hoffset ▸ hsending
  · rw [if_neg hdone]
    have hwrite := triple_write s (data.drop offset) s rfl
    rcases hrun : Sink.write (data.drop offset) s with ⟨outcome, s'⟩
    rw [hrun] at hwrite
    cases outcome with
    | error e =>
        rw [Prog.bind_apply_of_error hrun]
        exact ⟨hwrite.1.trans hsending.reader, data.take offset, List.take_prefix _ _,
          hwrite.2.trans hsending.written⟩
    | ok count =>
        rw [Prog.bind_apply_of_ok hrun]
        obtain ⟨hreader, hcount, hwritten, hscript⟩ := hwrite
        rw [List.length_drop] at hcount hscript
        have hnext : Sending s₀ data (offset + count) s' :=
          ⟨hreader.trans hsending.reader, by omega, by
            rw [hwritten, hsending.written, List.append_assoc, List.take_add]⟩
        by_cases hmore : offset + count < data.length
        · simp only [Prog.pure_apply, Ends, decide_eq_true hmore, if_true, if_pos hmore]
          refine ⟨hnext, ?_⟩
          rw [if_pos (not_le.mp hdone)]
          rcases hscript with hless | ⟨-, hall⟩
          · omega
          · omega
        · simp only [Prog.pure_apply, Ends, decide_eq_false hmore, Bool.false_eq_true, if_false]
          have hend : offset + count = data.length := by
            have := hnext.offset_le
            omega
          exact hend ▸ hnext

/-- `writeAll` sends all of its data, in order, or a beginning of it and fails. -/
theorem triple_writeAll (s₀ : Relay) (data : Bytes) :
    Triple (· = s₀) (writeAll data)
      (fun _ s => s.reader = s₀.reader ∧ s.sink.written = s₀.sink.written ++ data)
      (fun _ s => SentPart s₀ data s) := by
  rintro s rfl
  rw [writeAll, Prog.bind_apply_of_ok (Prog.current_apply s)]
  have hloop := Triple.iterate (e := Failure.diverged)
    (Q := fun _ s' => Sending s data data.length s')
    (Sending s data)
    (fun offset s' => s'.sink.script.length + if offset < data.length then 1 else 0)
    (triple_writeAllRound s data) (s.sink.script.length + 2) 0
  refine Triple.bind hloop (fun _ => Triple.pure _ ?_) s
    ⟨⟨rfl, Nat.zero_le _, by simp⟩, by split <;> omega⟩
  rintro s' hsent
  exact ⟨hsent.reader, by simpa using hsent.written⟩

namespace BufferedReader

/-- What `copyExact` has relayed when `remaining` of its `count` bytes are left. -/
def Copying (s₀ : Relay) (count remaining : ℕ) (s : Relay) : Prop :=
  remaining ≤ count ∧ ∃ data, data.length + remaining = count ∧ Moved s₀ s data data

theorem triple_ready (s₀ : Relay) :
    Triple (· = s₀) ready
      (fun more s => Idle s₀ s ∧ (more = true → 0 < s.reader.buffer.length))
      (fun _ s => Idle s₀ s) := by
  rintro s rfl
  rw [ready, Prog.bind_apply_of_ok (Prog.current_apply s)]
  by_cases hheld : s.reader.buffer.length > 0
  · rw [if_pos hheld]
    exact ⟨Idle.refl s, fun _ => hheld⟩
  · rw [if_neg hheld]
    refine Triple.conseq (triple_fill s) (fun _ h => h) ?_ (fun _ _ h => h) s rfl
    rintro more s' ⟨hidle, hmore⟩
    refine ⟨hidle, fun htrue => ?_⟩
    rw [if_pos htrue] at hmore
    exact Nat.zero_lt_of_lt hmore.2.1

/-- Taking bytes off the buffer and writing them is one step of a relay. -/
theorem triple_relayBuffered (s₀ : Relay) (count : ℕ)
    (hcount : count ≤ s₀.reader.buffer.length) :
    Triple (· = s₀) (relayBuffered count)
      (fun _ s => s.reader.source = s₀.reader.source ∧
        s.reader.buffer = s₀.reader.buffer.drop count ∧
        Moved s₀ s (s₀.reader.buffer.take count) (s₀.reader.buffer.take count))
      (fun _ s => Partial s₀ s) := by
  rintro s rfl
  obtain ⟨-, -, hsink, hsource, hbuffer, hpending⟩ := triple_consume s count hcount s rfl
  rw [relayBuffered, Prog.bind_apply_of_ok (x := consume count) rfl]
  refine Triple.conseq (triple_writeAll _ (s.reader.buffer.take count)) (fun _ h => h) ?_ ?_ _ rfl
  · rintro _ s' ⟨hreader, hwritten⟩
    rw [hreader]
    exact ⟨hsource, hbuffer, ⟨hreader ▸ hpending, hwritten⟩⟩
  · rintro _ s' ⟨hreader, sent, hprefix, hwritten⟩
    exact ⟨_, sent, hprefix, hreader ▸ hpending, hwritten⟩

theorem triple_copyExactRound (s₀ : Relay) (count remaining n : ℕ) :
    Triple (fun s => Copying s₀ count remaining s ∧ remaining = n) (copyExactRound remaining)
      (fun r s => if r.1 then Copying s₀ count r.2 s ∧ r.2 < n else Copying s₀ count 0 s)
      (fun _ s => Partial s₀ s) := by
  rintro s ⟨⟨hle, data, hlength, hmoved⟩, rfl⟩
  rw [copyExactRound]
  by_cases hzero : remaining = 0
  · rw [if_pos hzero]
    exact ⟨Nat.zero_le _, data, hzero ▸ hlength, hmoved⟩
  · rw [if_neg hzero]
    refine Triple.bind (P := (· = s)) (Q := fun more s' => Moved s₀ s' data data ∧
      (more = true → 0 < s'.reader.buffer.length)) ?_ ?_ s rfl
    · refine Triple.conseq (triple_ready s) (fun _ h => h) ?_ ?_
      · rintro more s' ⟨hidle, hmore⟩
        exact ⟨by simpa using hmoved.trans hidle.moved, hmore⟩
      · rintro _ s' hidle
        exact hmoved.trans_partial hidle.toPartial
    · intro more
      cases more with
      | false =>
          rintro s' ⟨hmoved', -⟩
          exact hmoved'.toPartial
      | true =>
          rintro s' ⟨hmoved', hheld⟩
          have hpos := hheld rfl
          rw [if_pos rfl, Prog.bind_apply_of_ok (Prog.current_apply s')]
          refine Triple.bind ((triple_relayBuffered s' _ (Nat.min_le_right _ _)).conseq
            (fun _ h => h) (fun _ _ h => h) (fun _ _ h => hmoved'.trans_partial h))
            (fun _ => Triple.pure _ ?_) s' rfl
          rintro s'' ⟨-, -, hmoved''⟩
          -- at least one byte was relayed, so the loop comes nearer its end
          have hnext : Copying s₀ count (remaining - min remaining s'.reader.buffer.length) s'' :=
            ⟨by omega, _, by rw [List.length_append, List.length_take]; omega,
              hmoved'.trans hmoved''⟩
          by_cases hmore : remaining - min remaining s'.reader.buffer.length > 0
          · rw [if_pos (decide_eq_true hmore)]
            exact ⟨hnext, by omega⟩
          · rw [if_neg (by simpa using hmore)]
            rwa [Nat.eq_zero_of_not_pos hmore] at hnext

/-- `copyExact` relays exactly `count` bytes, or a beginning of them and fails. -/
theorem triple_copyExact (s₀ : Relay) (count : ℕ) :
    Triple (· = s₀) (copyExact count)
      (fun _ s => ∃ data, data.length = count ∧ Moved s₀ s data data)
      (fun _ s => Partial s₀ s) := by
  rintro s rfl
  have hloop := Triple.iterate (e := Failure.diverged)
    (Q := fun _ s' => Copying s count 0 s') (Copying s count) (fun remaining _ => remaining)
    (triple_copyExactRound s count) (count + 1) count
  refine Triple.bind hloop (fun _ => Triple.pure _ ?_) s
    ⟨⟨le_rfl, [], by simp, Moved.refl s⟩, by omega⟩
  rintro s' ⟨-, data, hlength, hmoved⟩
  exact ⟨data, hlength, hmoved⟩

theorem triple_relayHeld (s₀ : Relay) :
    Triple (· = s₀) relayHeld
      (fun _ s => s.reader.source = s₀.reader.source ∧ s.reader.buffer = [] ∧
        Moved s₀ s s₀.reader.buffer s₀.reader.buffer)
      (fun _ s => Partial s₀ s) := by
  rintro s rfl
  rw [relayHeld, Prog.bind_apply_of_ok (Prog.current_apply s)]
  by_cases hheld : s.reader.buffer.length > 0
  · rw [if_pos hheld]
    refine (triple_relayBuffered s _ le_rfl).conseq (fun _ h => h) ?_ (fun _ _ h => h) s rfl
    rintro _ s' ⟨hsource, hbuffer, hmoved⟩
    exact ⟨hsource, by simpa using hbuffer, by simpa using hmoved⟩
  · rw [if_neg hheld]
    have hempty : s.reader.buffer = [] := by simpa using hheld
    refine ⟨rfl, hempty, ?_⟩
    rw [hempty]
    exact Moved.refl s

theorem triple_copyToEndRound (s₀ : Relay) (n : ℕ) :
    Triple (fun s => (∃ data, Moved s₀ s data data) ∧ s.reader.source.length = n)
      (copyToEndRound ())
      (fun r s => if r.1 then (∃ data, Moved s₀ s data data) ∧ s.reader.source.length < n
        else Moved s₀ s s₀.reader.pending s₀.reader.pending ∧ s.reader.pending = [])
      (fun _ s => Partial s₀ s) := by
  rintro s ⟨⟨data, hmoved⟩, rfl⟩
  refine Triple.bind ((triple_relayHeld s).conseq (fun _ h => h)
    (fun _ _ h => h) (fun _ _ h => hmoved.trans_partial h)) ?_ s rfl
  rintro _ s' ⟨hsource, hempty, hmoved'⟩
  have hboth := hmoved.trans hmoved'
  refine Triple.bind ((triple_fill s').conseq (fun _ h => h)
    (fun _ _ h => h) (fun _ _ h => hboth.trans_partial h.toPartial)) ?_ s' rfl
  rintro more s'' ⟨hidle, hmore⟩
  have hall : Moved s₀ s'' (data ++ s.reader.buffer) (data ++ s.reader.buffer) := by
    simpa using hboth.trans hidle.moved
  cases more with
  | true => exact ⟨⟨_, hall⟩, hsource ▸ hmore.1⟩
  | false =>
      have hlast : s''.reader.pending = [] := hmore.2.trans hempty
      have htaken : data ++ s.reader.buffer = s₀.reader.pending := by
        rw [hall.pending, hlast, List.append_nil]
      exact ⟨htaken ▸ hall, hlast⟩

/-- `copyToEnd` relays everything that was still to come. -/
theorem triple_copyToEnd (s₀ : Relay) :
    Triple (· = s₀) copyToEnd
      (fun _ s => Moved s₀ s s₀.reader.pending s₀.reader.pending ∧ s.reader.pending = [])
      (fun _ s => Partial s₀ s) := by
  rintro s rfl
  rw [copyToEnd, Prog.bind_apply_of_ok (Prog.current_apply s)]
  have hloop := Triple.iterate (e := Failure.diverged)
    (Q := fun _ s' => Moved s s' s.reader.pending s.reader.pending ∧ s'.reader.pending = [])
    (fun _ s' => ∃ data, Moved s s' data data) (fun _ s' => s'.reader.source.length)
    (fun _ => triple_copyToEndRound s) (s.reader.source.length + 1) ()
  exact Triple.bind hloop (fun _ => Triple.pure _ fun _ h => h) s
    ⟨⟨[], Moved.refl s⟩, by omega⟩

end BufferedReader

end Turbopaneld.DockerGate
