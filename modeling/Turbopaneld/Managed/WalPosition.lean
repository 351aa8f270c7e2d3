/-
# The final write position of a stopped primary

A planned switchover must prove that the new primary replayed everything the old one wrote,
so the end of the shutdown checkpoint record is worked out from where it starts and how long
it is.  The write-ahead log is cut into pages with a header in front of each, a longer one
where a segment begins, and the walk goes a page at a time.  What it stands for is a walk
that places one byte after another.
-/

import Turbopaneld.JavaScript.Hex
import Mathlib.Logic.Function.Iterate
import Mathlib.Algebra.Order.Ring.Nat

namespace Turbopaneld.Managed.WalPosition

open JavaScript

/-! ## The text of a position -/

/-- A part of `LSN_PATTERN`. -/
def isLsnPart (part : String) : Bool :=
  1 ≤ part.toList.length && part.toList.length ≤ 8 && part.toList.all isHexDigit

def parseLsn (value : String) : Option ℕ :=
  match split '/' (trim value) with
  | [high, low] =>
    if isLsnPart high && isLsnPart low then
      some (hexNumber high.toList <<< 32 ||| hexNumber low.toList)
    else none
  | _ => none

def formatLsn (value : ℕ) : String :=
  let high := String.ofList (upperHex (value >>> 32))
  let low := String.ofList (upperHex (value &&& 0xffffffff))
  high ++ String.singleton '/' ++ low

/-! ## The end of a record -/

def maxAlign : ℕ := 8

def pageHeader : ℕ := 24

def longPageHeader : ℕ := 40

structure WalGeometry where
  blockSize : ℕ
  segmentSize : ℕ
deriving DecidableEq, Repr

/-- The loop of `walRecordEnd`: a round takes what is left of the page, and when that does not
hold the rest of the record goes on behind the next page's header. -/
def walk (geometry : WalGeometry) (hblock : 0 < geometry.blockSize) (position remaining : ℕ) : ℕ :=
  let room := geometry.blockSize - position % geometry.blockSize
  if remaining ≤ room then position + remaining
  else
    walk geometry hblock
      (position + room +
        if (position + room) % geometry.segmentSize = 0 then longPageHeader else pageHeader)
      (remaining - room)
termination_by remaining
decreasing_by
  have hroom : position % geometry.blockSize < geometry.blockSize := Nat.mod_lt _ hblock
  omega

/-- `none` is the `RangeError` of a division by zero. -/
def walRecordEnd (start totalLength : ℕ) (geometry : WalGeometry) : Option ℕ :=
  if hsizes : 0 < geometry.blockSize ∧ 0 < geometry.segmentSize then
    let position := walk geometry hsizes.1 start totalLength
    let rest := position % maxAlign
    some (if rest = 0 then position else position + (maxAlign - rest))
  else none

/-- What `parseControlData` reads. -/
structure PostgresControlData where
  state : String
  checkpointLsn : ℕ
  redoLsn : ℕ
  timeline : ℕ
  geometry : WalGeometry
deriving DecidableEq, Repr

structure FinalWalPosition where
  lsn : String
  timeline : ℕ
deriving DecidableEq, Repr

/-- `finalWalPositionFromOutput` behind its two readers: the control data it read and the
length of the shutdown checkpoint record at a given position. -/
def finalWalPositionFromOutput (control : Option PostgresControlData)
    (recordLength : ℕ → Option ℕ) : Option FinalWalPosition := do
  let control ← control
  if control.state ≠ "shut down" then none
  else if control.checkpointLsn ≠ control.redoLsn then none
  else
    let total ← recordLength control.checkpointLsn
    let position ← walRecordEnd control.checkpointLsn total control.geometry
    some ⟨formatLsn position, control.timeline⟩

/-! ## Placing bytes one at a time -/

namespace WalGeometry

/-- The header in front of a page start, nothing anywhere else. -/
def headerAt (geometry : WalGeometry) (position : ℕ) : ℕ :=
  if position % geometry.segmentSize = 0 then longPageHeader
  else if position % geometry.blockSize = 0 then pageHeader
  else 0

/-- The byte at the position is one of its page's header.  The first byte of a page is. -/
def InHeader (geometry : WalGeometry) (position : ℕ) : Prop :=
  position % geometry.blockSize <
    geometry.headerAt (position - position % geometry.blockSize)

/-- The position after one more byte, which goes behind the header of a page not yet begun. -/
def placeByte (geometry : WalGeometry) (position : ℕ) : ℕ :=
  position + geometry.headerAt position + 1

/-- Where `length` bytes end that are placed one at a time. -/
def placed (geometry : WalGeometry) (start length : ℕ) : ℕ := geometry.placeByte^[length] start

/-- Pages that hold their headers, and segments of whole pages. -/
structure Standard (geometry : WalGeometry) : Prop where
  aligned : 8 ∣ geometry.blockSize
  large : 40 < geometry.blockSize
  whole : geometry.blockSize ∣ geometry.segmentSize
  pos : 0 < geometry.segmentSize

end WalGeometry

/-- The next multiple of eight. -/
def alignUp (position : ℕ) : ℕ := (position + 7) / 8 * 8

variable {geometry : WalGeometry} {position start length : ℕ}

theorem headerAt_of_not_dvd (hgeometry : geometry.Standard) (h : ¬geometry.blockSize ∣ position) :
    geometry.headerAt position = 0 := by
  have hsegment : position % geometry.segmentSize ≠ 0 := fun hzero =>
    h (hgeometry.whole.trans (Nat.dvd_of_mod_eq_zero hzero))
  have hblock : position % geometry.blockSize ≠ 0 := fun hzero => h (Nat.dvd_of_mod_eq_zero hzero)
  rw [WalGeometry.headerAt, if_neg hsegment, if_neg hblock]

theorem headerAt_of_dvd (h : geometry.blockSize ∣ position) :
    geometry.headerAt position =
      if position % geometry.segmentSize = 0 then longPageHeader else pageHeader := by
  rw [WalGeometry.headerAt, if_pos (Nat.mod_eq_zero_of_dvd h)]

/-- A page's header is a whole number of alignment units and leaves room in its page. -/
theorem headerAt_bounds (hgeometry : geometry.Standard) (h : geometry.blockSize ∣ position) :
    8 ∣ geometry.headerAt position ∧ 0 < geometry.headerAt position ∧
      geometry.headerAt position < geometry.blockSize := by
  have hlarge := hgeometry.large
  rw [headerAt_of_dvd h]
  split
  · exact ⟨by decide, by decide, hlarge⟩
  · exact ⟨by decide, by decide, lt_trans (by decide : 24 < 40) hlarge⟩

theorem placed_zero : geometry.placed start 0 = start := rfl

theorem placed_succ : geometry.placed start (length + 1) =
    geometry.placeByte (geometry.placed start length) :=
  Function.iterate_succ_apply' _ _ _

theorem placed_add (first second : ℕ) :
    geometry.placed start (first + second) =
      geometry.placed (geometry.placed start first) second := by
  rw [WalGeometry.placed, Nat.add_comm, Function.iterate_add_apply]
  rfl

/-- Bytes that stay in the page of the first are placed side by side. -/
theorem placed_of_room (hgeometry : geometry.Standard) (hstart : ¬geometry.blockSize ∣ position)
    (hroom : length ≤ geometry.blockSize - position % geometry.blockSize) :
    geometry.placed position length = position + length := by
  induction length with
  | zero => rfl
  | succ length ih =>
    have hinside : ¬geometry.blockSize ∣ position + length := by
      intro hdvd
      have hmod := Nat.mod_lt position (lt_trans (by decide) hgeometry.large)
      have hne : position % geometry.blockSize ≠ 0 := fun h => hstart (Nat.dvd_of_mod_eq_zero h)
      have hzero := Nat.mod_eq_zero_of_dvd hdvd
      rw [← Nat.mod_add_mod, Nat.mod_eq_of_lt (by omega)] at hzero
      omega
    rw [placed_succ, ih (Nat.le_of_succ_le hroom), WalGeometry.placeByte,
      headerAt_of_not_dvd hgeometry hinside]
    rfl

/-- Behind a page start the first byte goes where it would go behind the header. -/
theorem placed_of_dvd (hgeometry : geometry.Standard) (h : geometry.blockSize ∣ position)
    (hlength : 0 < length) :
    geometry.placed position length =
      geometry.placed (position + geometry.headerAt position) length := by
  obtain ⟨length, rfl⟩ := Nat.exists_eq_succ_of_ne_zero hlength.ne'
  obtain ⟨-, hpos, hlt⟩ := headerAt_bounds hgeometry h
  have hinside : ¬geometry.blockSize ∣ position + geometry.headerAt position := by
    rw [Nat.dvd_add_right h]
    exact Nat.not_dvd_of_pos_of_lt hpos hlt
  have hsame : geometry.placeByte (position + geometry.headerAt position) =
      geometry.placeByte position := by
    rw [WalGeometry.placeByte, headerAt_of_not_dvd hgeometry hinside]
    rfl
  rw [WalGeometry.placed, WalGeometry.placed, Function.iterate_succ_apply,
    Function.iterate_succ_apply, hsame]

/-- The walk by pages ends where the walk by bytes does. -/
theorem walk_eq_placed (hgeometry : geometry.Standard) (hblock : 0 < geometry.blockSize)
    (hstart : ¬geometry.blockSize ∣ position) (remaining : ℕ) :
    walk geometry hblock position remaining = geometry.placed position remaining := by
  induction position, remaining using walk.induct geometry hblock with
  | case1 position remaining room hfits =>
    rw [walk, if_pos hfits]
    exact (placed_of_room hgeometry hstart hfits).symm
  | case2 position remaining room hleft ih =>
    have hmod : position % geometry.blockSize < geometry.blockSize := Nat.mod_lt _ hblock
    -- The round ends at the start of the next page.
    have hpage : geometry.blockSize ∣ position + room := by
      have hsplit := Nat.div_add_mod position geometry.blockSize
      have hnext : position + room =
          geometry.blockSize * (position / geometry.blockSize) + geometry.blockSize := by
        omega
      rw [hnext]
      exact Nat.dvd_add (Nat.dvd_mul_right _ _) (Nat.dvd_refl _)
    obtain ⟨-, hpos, hlt⟩ := headerAt_bounds hgeometry hpage
    have hinside : ¬geometry.blockSize ∣ position + room + geometry.headerAt (position + room) := by
      rw [Nat.dvd_add_right hpage]
      exact Nat.not_dvd_of_pos_of_lt hpos hlt
    rw [dite_eq_ite, ← headerAt_of_dvd hpage] at ih
    have hrest := ih hinside
    rw [walk, if_neg hleft]
    show walk geometry hblock (position + room +
      if (position + room) % geometry.segmentSize = 0 then longPageHeader else pageHeader)
        (remaining - room) = _
    rw [← headerAt_of_dvd hpage, hrest, ← placed_of_dvd hgeometry hpage (by omega),
      ← placed_of_room hgeometry hstart le_rfl, ← placed_add]
    exact congrArg _ (Nat.add_sub_of_le (not_le.mp hleft).le)

/-! ## Where an end may lie -/

theorem not_dvd_of_not_inHeader (hgeometry : geometry.Standard) (h : ¬geometry.InHeader position) :
    ¬geometry.blockSize ∣ position := by
  intro hdvd
  have hzero := Nat.mod_eq_zero_of_dvd hdvd
  refine h ?_
  rw [WalGeometry.InHeader, hzero, Nat.sub_zero]
  exact (headerAt_bounds hgeometry hdvd).2.1

/-- A position is in the header of its page just when its offset is. -/
theorem inHeader_add {page offset : ℕ} (hpage : geometry.blockSize ∣ page)
    (hoffset : offset < geometry.blockSize) :
    geometry.InHeader (page + offset) ↔ offset < geometry.headerAt page := by
  have hmod : (page + offset) % geometry.blockSize = offset := by
    obtain ⟨pages, rfl⟩ := hpage
    rw [Nat.mul_add_mod, Nat.mod_eq_of_lt hoffset]
  rw [WalGeometry.InHeader, hmod, Nat.add_sub_cancel]

/-- A page start, or a position behind its page's header. -/
def EndsClear (geometry : WalGeometry) (position : ℕ) : Prop :=
  geometry.blockSize ∣ position ∨ ¬geometry.InHeader position

/-- An offset up to the page's size and behind its header is clear. -/
theorem endsClear_add {page offset : ℕ} (hpage : geometry.blockSize ∣ page)
    (hheader : geometry.headerAt page ≤ offset) (hoffset : offset ≤ geometry.blockSize) :
    EndsClear geometry (page + offset) := by
  rcases hoffset.eq_or_lt with rfl | hlt
  · exact .inl (Nat.dvd_add hpage (Nat.dvd_refl _))
  · exact .inr fun hin => absurd ((inHeader_add hpage hlt).mp hin) (not_lt.mpr hheader)

/-- A clear position is a page start or lies at such an offset. -/
theorem EndsClear.exists_offset (hgeometry : geometry.Standard)
    (h : EndsClear geometry position) (hdvd : ¬geometry.blockSize ∣ position) :
    ∃ page offset, position = page + offset ∧ geometry.blockSize ∣ page ∧
      geometry.headerAt page ≤ offset ∧ offset < geometry.blockSize := by
  have hblock : 0 < geometry.blockSize := lt_trans (by decide) hgeometry.large
  have hout := h.resolve_left hdvd
  refine ⟨position - position % geometry.blockSize, position % geometry.blockSize, ?_,
    Nat.dvd_sub_mod position, not_lt.mp hout, Nat.mod_lt _ hblock⟩
  exact (Nat.sub_add_cancel (Nat.mod_le _ _)).symm

theorem endsClear_placeByte (hgeometry : geometry.Standard) (h : EndsClear geometry position) :
    EndsClear geometry (geometry.placeByte position) := by
  by_cases hdvd : geometry.blockSize ∣ position
  · obtain ⟨-, -, hlt⟩ := headerAt_bounds hgeometry hdvd
    rw [WalGeometry.placeByte, Nat.add_assoc]
    exact endsClear_add hdvd (Nat.le_succ _) hlt
  · obtain ⟨page, offset, rfl, hpage, hheader, hoffset⟩ := h.exists_offset hgeometry hdvd
    rw [WalGeometry.placeByte, headerAt_of_not_dvd hgeometry hdvd, Nat.add_zero, Nat.add_assoc]
    exact endsClear_add hpage (Nat.le_succ_of_le hheader) hoffset

theorem endsClear_placed (hgeometry : geometry.Standard) (hstart : ¬geometry.InHeader start)
    (length : ℕ) : EndsClear geometry (geometry.placed start length) := by
  induction length with
  | zero => exact .inr hstart
  | succ length ih =>
    rw [placed_succ]
    exact endsClear_placeByte hgeometry ih

theorem dvd_alignUp (position : ℕ) : 8 ∣ alignUp position := Nat.dvd_mul_left _ _

theorem alignUp_mono {first second : ℕ} (h : first ≤ second) : alignUp first ≤ alignUp second :=
  Nat.mul_le_mul_right 8 (Nat.div_le_div_right (Nat.add_le_add_right h 7))

/-- Rounding up does not leave the page. -/
theorem endsClear_alignUp (hgeometry : geometry.Standard) (h : EndsClear geometry position) :
    EndsClear geometry (alignUp position) := by
  by_cases hdvd : geometry.blockSize ∣ position
  · have hsame : alignUp position = position := by
      have height := hgeometry.aligned.trans hdvd
      rw [alignUp]
      omega
    rw [hsame]
    exact h
  · obtain ⟨page, offset, rfl, hpage, hheader, hoffset⟩ := h.exists_offset hgeometry hdvd
    have hunits := hgeometry.aligned
    have hbase := hunits.trans hpage
    have hup : alignUp (page + offset) = page + alignUp offset := by
      rw [alignUp, alignUp]
      omega
    rw [hup]
    refine endsClear_add hpage ?_ ?_ <;> (rw [alignUp]; omega)

theorem placed_mono {first second : ℕ} (h : first ≤ second) :
    geometry.placed start first ≤ geometry.placed start second := by
  induction h with
  | refl => exact le_rfl
  | step _ ih =>
    rw [placed_succ]
    exact ih.trans (Nat.le_succ_of_le (Nat.le_add_right _ _))

/-! ## The result -/

theorem walRecordEnd_eq (hgeometry : geometry.Standard) (hstart : ¬geometry.InHeader start)
    (length : ℕ) :
    walRecordEnd start length geometry = some (alignUp (geometry.placed start length)) := by
  have hblock : 0 < geometry.blockSize := lt_trans (by decide) hgeometry.large
  rw [walRecordEnd, dif_pos ⟨hblock, hgeometry.pos⟩,
    walk_eq_placed hgeometry hblock (not_dvd_of_not_inHeader hgeometry hstart), alignUp]
  refine congrArg some ?_
  by_cases hrest : geometry.placed start length % maxAlign = 0
  · have height : geometry.placed start length % 8 = 0 := hrest
    rw [if_pos hrest]
    omega
  · have height : geometry.placed start length % 8 ≠ 0 := hrest
    rw [if_neg hrest]
    show geometry.placed start length + (8 - geometry.placed start length % 8) = _
    omega

theorem isLsnPart_upperHex {n : ℕ} (hn : n < 2 ^ 32) :
    isLsnPart (String.ofList (upperHex n)) = true := by
  have hlength : (upperHex n).length ≤ 8 := length_upperHex_le (by decide) hn
  have hpos : 1 ≤ (upperHex n).length := List.length_pos_iff.mpr (upperHex_ne_nil n)
  rw [isLsnPart, String.toList_ofList, List.all_eq_true.mpr (isHexDigit_of_mem_upperHex n),
    decide_eq_true hlength, decide_eq_true hpos]
  rfl

theorem notMem_upperHex {c : Char} (hc : isHexDigit c = false) (n : ℕ) : c ∉ upperHex n := by
  intro hmem
  rw [isHexDigit_of_mem_upperHex n c hmem] at hc
  cases hc

/-- A 64-bit position is read back from its text. -/
theorem parseLsn_formatLsn {value : ℕ} (hvalue : value < 2 ^ 64) :
    parseLsn (formatLsn value) = some value := by
  have hhigh : value >>> 32 < 2 ^ 32 := by
    rw [Nat.shiftRight_eq_div_pow]
    omega
  have hlow : value &&& 0xffffffff < 2 ^ 32 := by
    rw [show 0xffffffff = 2 ^ 32 - 1 from rfl, Nat.and_two_pow_sub_one_eq_mod]
    exact Nat.mod_lt _ (by decide)
  have hslash : ∀ n, '/' ∉ (String.ofList (upperHex n)).toList := by
    intro n
    rw [String.toList_ofList]
    exact notMem_upperHex (by decide) n
  have htrim : trim (formatLsn value) = formatLsn value := by
    refine trim_of_forall ?_
    intro c hc
    rw [formatLsn, String.toList_append, String.toList_append, String.toList_ofList,
      String.toList_ofList, String.toList_singleton, List.mem_append, List.mem_append,
      List.mem_singleton] at hc
    rcases hc with (hc | rfl) | hc
    · exact isSpace_of_isHexDigit (isHexDigit_of_mem_upperHex _ c hc)
    · decide
    · exact isSpace_of_isHexDigit (isHexDigit_of_mem_upperHex _ c hc)
  have hparts : split '/' (formatLsn value) =
      [String.ofList (upperHex (value >>> 32)), String.ofList (upperHex (value &&& 0xffffffff))] := by
    rw [formatLsn, split_append_cons (hslash _), split_of_notMem (hslash _)]
  rw [parseLsn, htrim, hparts]
  dsimp only
  rw [isLsnPart_upperHex hhigh, isLsnPart_upperHex hlow, String.toList_ofList,
    String.toList_ofList, hexNumber_upperHex, hexNumber_upperHex]
  refine congrArg some ?_
  rw [← Nat.shiftLeft_add_eq_or_of_lt hlow, Nat.shiftLeft_eq, Nat.shiftRight_eq_div_pow,
    show 0xffffffff = 2 ^ 32 - 1 from rfl, Nat.and_two_pow_sub_one_eq_mod]
  exact Nat.div_add_mod' value (2 ^ 32)

/-- In every page geometry and from every start that is not a header byte: a record ends at
the aligned end of its bytes placed one at a time, never inside a header, no sooner than a
shorter record, and its text is read back. -/
theorem walRecordEnd_spec (geometry : WalGeometry) (hgeometry : geometry.Standard) (start : ℕ)
    (hstart : ¬geometry.InHeader start) :
    (∀ length, 0 < length → ∃ position, walRecordEnd start length geometry = some position ∧
      position = alignUp (geometry.placed start length) ∧ 8 ∣ position ∧
      EndsClear geometry position ∧
      (position < 2 ^ 64 → parseLsn (formatLsn position) = some position)) ∧
    ∀ first second, 0 < first → first ≤ second →
      ∀ position ∈ walRecordEnd start first geometry,
        ∀ later ∈ walRecordEnd start second geometry, position ≤ later := by
  constructor
  · intro length _
    exact ⟨_, walRecordEnd_eq hgeometry hstart length, rfl, dvd_alignUp _,
      endsClear_alignUp hgeometry (endsClear_placed hgeometry hstart length), parseLsn_formatLsn⟩
  · intro first second _ hle position hposition later hlater
    rw [walRecordEnd_eq hgeometry hstart, Option.mem_some_iff] at hposition hlater
    rw [← hposition, ← hlater]
    exact alignUp_mono (placed_mono hle)

/-- A shutdown checkpoint that crosses into the next page. -/
theorem walRecordEnd_spec_measured :
    ¬(⟨8192, 16777216⟩ : WalGeometry).InHeader 0x7257fc0 ∧
      ∃ position, walRecordEnd 0x7257fc0 114 ⟨8192, 16777216⟩ = some position ∧
        8 ∣ position := by
  have hin : ¬(⟨8192, 16777216⟩ : WalGeometry).InHeader 0x7257fc0 := by
    rw [WalGeometry.InHeader]
    decide
  have hgeometry : (⟨8192, 16777216⟩ : WalGeometry).Standard :=
    ⟨by decide, by decide, by decide, by decide⟩
  obtain ⟨position, hend, -, height, -⟩ :=
    (walRecordEnd_spec ⟨8192, 16777216⟩ hgeometry 0x7257fc0 hin).1 114 (by decide)
  exact ⟨hin, position, hend, height⟩

/-- What a switchover waits for is the end of the shutdown checkpoint record. -/
theorem parseLsn_of_finalWalPositionFromOutput {control : PostgresControlData}
    {recordLength : ℕ → Option ℕ} {final : FinalWalPosition}
    (hgeometry : control.geometry.Standard)
    (hstart : ¬control.geometry.InHeader control.checkpointLsn)
    (h : finalWalPositionFromOutput (some control) recordLength = some final) :
    ∃ length, recordLength control.checkpointLsn = some length ∧
      final.lsn = formatLsn (alignUp (control.geometry.placed control.checkpointLsn length)) := by
  rw [finalWalPositionFromOutput, Option.bind_eq_bind, Option.bind_some] at h
  split_ifs at h
  obtain ⟨length, hlength, h⟩ := Option.bind_eq_some_iff.mp h
  rw [walRecordEnd_eq hgeometry hstart, Option.bind_eq_bind, Option.bind_some] at h
  exact ⟨length, hlength, congrArg FinalWalPosition.lsn (Option.some.inj h).symm⟩

end Turbopaneld.Managed.WalPosition
