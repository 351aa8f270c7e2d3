/-
# What a hand-off copy leaves behind

A link is kept or dropped by its own text and its own depth alone.  Nothing else is
needed: every kept link climbs at most as far as it is deep before it names anything,
and no chain of such links leaves the tree.  The exception is a text the option parser
of `ln` takes for itself, for which the link that is made is not the link that was
judged.
-/

import Turbopaneld.Deploy.SafeCopy
import Turbopaneld.Programs.Fallible

namespace Turbopaneld.Deploy

open JavaScript (startsWith split)
open Paths (Component ClimbsFirst)
open Programs (bind_eq_ok_iff)

/-! ## Kernel resolution in the destination -/

/-- The components of a link's text, as a kernel walks them. -/
def partsOf (text : String) : List (Component String) :=
  ((split '/' text).filter fun s => s != "" && s != ".").map fun s =>
    if s = ".." then .up else .name s

/-- The links of a destination. -/
def Dest.links (dest : Dest) (place : List String) : Option (Paths.Target String) :=
  match dest.lookup place with
  | some (.link text) => some { absolute := startsWith text "/", parts := partsOf text }
  | _ => none

/-- Resolving the link at a place: walking its name from the directory it is in. -/
def resolving (parent : List String) (name : String) : Paths.Walk String where
  place := parent
  todo := [.name name]

/-- The bytes of regular-file content an entry holds. -/
def Entry.bytes : Entry → ℕ
  | .file content => content.length
  | .dir | .link _ | .special => 0

/-- The bytes of regular-file content in a destination. -/
def Dest.bytes (dest : Dest) : ℕ := (dest.map fun entry => entry.2.bytes).sum

/-- What a copy may leave behind: real directories, regular files and symlinks only, as many
entries and bytes as the limits allow, and no symlink from which a walk leaves the
destination. -/
structure StaysContained (limits : HandoffLimits) (copy : Copy) : Prop where
  kinds : ∀ entry ∈ copy.dest, entry.2 ≠ .special
  entries : copy.dest.length ≤ copy.report.entries ∧ copy.report.entries ≤ limits.maxEntries
  bytes : copy.dest.bytes ≤ limits.maxBytes
  links : ∀ parent name text, copy.dest.lookup (parent ++ [name]) = some (.link text) →
    ¬Paths.Leaves copy.dest.links (resolving parent name)

/-! ## The lexical rule -/

theorem partsOf_climbsFirst {segments : List String} {ups depth : ℕ}
    (hups : segments.findIdx (· != "..") = ups) (hnames : ".." ∉ segments.drop ups)
    (hdepth : ups ≤ depth) :
    ClimbsFirst depth (segments.map fun s => if s = ".." then Component.up else .name s) := by
  refine ⟨ups, segments.drop ups, ?_, hdepth⟩
  have hfront : ∀ s ∈ segments.take ups, s = ".." := by
    intro s hs
    obtain ⟨i, hi, rfl⟩ := List.mem_iff_getElem.mp hs
    rw [List.getElem_take]
    rw [List.length_take] at hi
    have hnot := List.not_of_lt_findIdx (show i < segments.findIdx (· != "..") by omega)
    simpa using hnot
  have hlength : (segments.take ups).length = ups := by
    rw [List.length_take, ← hups]
    exact min_eq_left List.findIdx_le_length
  conv_lhs => rw [← List.take_append_drop ups segments, List.map_append]
  congr 1
  · rw [List.eq_replicate_iff]
    refine ⟨by rw [List.length_map, hlength], ?_⟩
    intro part hpart
    obtain ⟨s, hs, rfl⟩ := List.mem_map.mp hpart
    rw [if_pos (hfront s hs)]
  · apply List.map_congr_left
    intro s hs
    rw [if_neg]
    rintro rfl
    exact hnames hs

/-- A link the rule keeps has a relative text that climbs at most as far as the link is
deep, before it names anything. -/
theorem linkStaysInside_climbsFirst {relative text : String}
    (hstays : linkStaysInside relative text = true) :
    startsWith text "/" = false ∧ ClimbsFirst ((split '/' relative).length - 1) (partsOf text) := by
  rw [linkStaysInside] at hstays
  split at hstays
  · exact absurd hstays Bool.false_ne_true
  rename_i hrelative
  rw [Bool.or_eq_true, not_or, Bool.not_eq_true, Bool.not_eq_true] at hrelative
  simp only at hstays
  split at hstays
  · exact absurd hstays Bool.false_ne_true
  rename_i hnames
  refine ⟨hrelative.2, partsOf_climbsFirst rfl ?_ (of_decide_eq_true hstays)⟩
  simpa using hnames

/-! ## Depths -/

/-- The relative path of an entry has as many components as its place has names. -/
def Dir.Matches (dir : Dir) : Prop :=
  dir.relative ≠ "" ∧ (split '/' dir.relative).length = dir.place.length

/-- The top of the tree, or an entry whose path matches. -/
def Dir.MatchesOrTop (dir : Dir) : Prop :=
  (dir.relative = "" ∧ dir.place = []) ∨ dir.Matches

theorem split_name (name : Name) : split '/' name.text = [name.text] :=
  JavaScript.split_of_notMem name.valid.2.1

theorem Dir.MatchesOrTop.child {dir : Dir} (h : dir.MatchesOrTop) (name : Name) :
    (dir.child name).Matches := by
  obtain ⟨hrelative, hplace⟩ | ⟨hrelative, hlength⟩ := h
  · simp only [Dir.Matches, Dir.child, hrelative, hplace, ne_eq, not_true_eq_false, if_false]
    refine ⟨name.valid.1, ?_⟩
    rw [split_name]
    rfl
  · simp only [Dir.Matches, Dir.child, if_pos hrelative]
    constructor
    · intro hempty
      have hchars := congrArg String.toList hempty
      simp at hchars
    · rw [split, String.toList_append, String.toList_append, List.append_assoc]
      change (List.map _ (List.splitOn '/' (dir.relative.toList ++ '/' :: name.text.toList))).length = _
      rw [List.splitOn_append_cons_self, List.map_append, List.length_append, List.length_append]
      change (split '/' dir.relative).length + (split '/' name.text).length = _
      rw [hlength, split_name, List.length_singleton]

/-! ## What the copy keeps -/

/-- A link at this place climbs at most as far as it is deep. -/
def LinkContained (place : List String) (text : String) : Prop :=
  startsWith text "/" = false ∧ ClimbsFirst (place.length - 1) (partsOf text)

/-- What holds between two entries, with room for so many entries more. -/
structure Good (limits : HandoffLimits) (room : ℕ) (copy : Copy) : Prop where
  kinds : ∀ entry ∈ copy.dest, entry.2 ≠ .special
  room : copy.dest.length + room ≤ copy.report.entries
  entries : copy.report.entries ≤ limits.maxEntries
  content : copy.dest.bytes ≤ copy.report.bytes
  bytes : copy.report.bytes ≤ limits.maxBytes
  links : ∀ place text, (place, Entry.link text) ∈ copy.dest → LinkContained place text

theorem bytes_put_le (dest : Dest) (place : List String) (entry : Entry) :
    (dest.put place entry).bytes ≤ dest.bytes + entry.bytes := by
  have hkept : (Dest.bytes (dest.filter fun other => other.1 != place)) ≤ dest.bytes := by
    induction dest with
    | nil => exact le_rfl
    | cons head tail ih =>
      rw [List.filter_cons]
      split
      · simp only [Dest.bytes, List.map_cons, List.sum_cons] at ih ⊢
        omega
      · simp only [Dest.bytes, List.map_cons, List.sum_cons] at ih ⊢
        omega
  have hput : (dest.put place entry).bytes =
      Dest.bytes (dest.filter fun other => other.1 != place) + entry.bytes := by
    simp [Dest.put, Dest.bytes]
  omega

section

variable {limits : HandoffLimits} {copy : Copy}

/-- An entry is put at its place. -/
theorem Good.put (hgood : Good limits 1 copy) {place : List String} {entry : Entry}
    {report : HandoffReport} (hkind : entry ≠ .special)
    (hlink : ∀ text, entry = .link text → LinkContained place text)
    (hentries : report.entries = copy.report.entries)
    (hbytes : report.bytes = copy.report.bytes + entry.bytes)
    (hmax : report.bytes ≤ limits.maxBytes) :
    Good limits 0 { report := report, dest := copy.dest.put place entry } := by
  have hmem : ∀ other ∈ copy.dest.put place entry, other ∈ copy.dest ∨ other = (place, entry) := by
    intro other hother
    rw [Dest.put, List.mem_append, List.mem_singleton, List.mem_filter] at hother
    exact hother.imp_left And.left
  constructor
  case kinds =>
    intro other hother
    obtain hother | rfl := hmem other hother
    · exact hgood.kinds other hother
    · exact hkind
  case room =>
    have hlength := List.length_filter_le (fun other => other.1 != place) copy.dest
    have hroom := hgood.room
    simp only [Dest.put, List.length_append, List.length_singleton, hentries]
    omega
  case entries =>
    rw [hentries]
    exact hgood.entries
  case content =>
    have hput := bytes_put_le copy.dest place entry
    have hcontent := hgood.content
    simp only
    omega
  case bytes => exact hmax
  case links =>
    intro other text hother
    obtain hother | heq := hmem _ hother
    · exact hgood.links other text hother
    · rw [Prod.mk.injEq] at heq
      rw [heq.1]
      exact hlink text heq.2.symm

/-- An entry is visited and nothing is written for it. -/
theorem Good.skip (hgood : Good limits 1 copy) {report : HandoffReport}
    (hentries : report.entries = copy.report.entries) (hbytes : report.bytes = copy.report.bytes) :
    Good limits 0 { report := report, dest := copy.dest } := by
  have hroom := hgood.room
  refine ⟨hgood.kinds, ?_, ?_, ?_, ?_, hgood.links⟩
  · simp only [hentries]
    omega
  · rw [hentries]
    exact hgood.entries
  · rw [hbytes]
    exact hgood.content
  · rw [hbytes]
    exact hgood.bytes

theorem Good.countEntry (hgood : Good limits 0 copy) {relative : String} {copy' : Copy}
    (hcount : countEntry limits relative copy = .ok copy') : Good limits 1 copy' := by
  rw [Deploy.countEntry] at hcount
  split at hcount
  · exact absurd hcount (by simp)
  rename_i hfew
  obtain rfl := Except.ok.inj hcount
  have hroom := hgood.room
  exact ⟨hgood.kinds, by simp only; omega, Nat.le_of_not_lt hfew, hgood.content, hgood.bytes,
    hgood.links⟩

variable {lnOptions : String → List String → Dest → Except String Dest} {ownerUid : Option ℕ}

/-- A kept link whose text is an operand of `ln`. -/
theorem Good.copyLink (hgood : Good limits 1 copy) {here : Dir} (hmatches : here.Matches)
    {target : String} {copy' : Copy}
    (hcopy : copyLink lnOptions here.place here.relative target copy = .ok copy')
    (hplain : linkStaysInside here.relative target = true → readsAsOptions target = false) :
    Good limits 0 copy' := by
  rw [Deploy.copyLink] at hcopy
  by_cases hstays : linkStaysInside here.relative target = true
  · rw [if_pos hstays] at hcopy
    obtain ⟨dest, hdest, hcopy⟩ := bind_eq_ok_iff.mp hcopy
    obtain rfl := Except.ok.inj hcopy
    obtain ⟨hrelative, hclimbs⟩ := linkStaysInside_climbsFirst hstays
    rw [hmatches.2] at hclimbs
    have hput : ∀ place, here.place.length ≤ place.length →
        Good limits 0 { copy with dest := copy.dest.put place (.link target) } := by
      intro place hplace
      apply hgood.put (by simp) _ rfl rfl hgood.bytes
      rintro _ ⟨⟩
      exact ⟨hrelative, hclimbs.deeper (Nat.sub_le_sub_right hplace 1)⟩
    rw [createSymlink, if_neg (by simp [hplain hstays])] at hdest
    split at hdest
    · split at hdest
      · exact absurd hdest (by simp)
      · split at hdest
        · exact absurd hdest (by simp)
        · obtain rfl := Except.ok.inj hdest
          apply hput
          rw [List.length_append]
          exact Nat.le_add_right _ _
    · obtain rfl := Except.ok.inj hdest
      exact hput here.place le_rfl
  · rw [if_neg hstays] at hcopy
    obtain rfl := Except.ok.inj hcopy
    exact hgood.skip rfl rfl

theorem Good.copyFileEntry (hgood : Good limits 1 copy) {place : List String} {relative : String}
    {content : List UInt8} {copy' : Copy}
    (hcopy : copyFileEntry limits place relative content copy = .ok copy') :
    Good limits 0 copy' := by
  rw [Deploy.copyFileEntry] at hcopy
  split at hcopy
  · exact absurd hcopy (by simp)
  rename_i hbytes
  obtain ⟨dest, hdest, hcopy⟩ := bind_eq_ok_iff.mp hcopy
  obtain rfl := Except.ok.inj hcopy
  have hput : dest = copy.dest.put place (.file content) := by
    rw [openNewFile] at hdest
    split at hdest
    · exact (Except.ok.inj hdest).symm
    · exact (Except.ok.inj hdest).symm
    · exact absurd hdest (by simp)
  rw [hput]
  exact hgood.put (by simp) (by simp) rfl rfl (Nat.le_of_not_lt hbytes)

theorem Good.makeDestDir (hgood : Good limits 1 copy) {place : List String} {relative : String}
    {dest : Dest} (hdest : makeDestDir place relative copy.dest = .ok dest) :
    Good limits 0 { copy with dest } := by
  rw [Deploy.makeDestDir] at hdest
  split at hdest
  · obtain rfl := Except.ok.inj hdest
    exact hgood.put (by simp) (by simp) rfl rfl hgood.bytes
  · obtain rfl := Except.ok.inj hdest
    exact hgood.skip rfl rfl
  · exact absurd hdest (by simp)
  · exact absurd hdest (by simp)

end

mutual

/-- The texts the copy keeps that `ln` reads as options, of what stands at a name. -/
def optionTextsAt (here : Dir) : Node → List String
  | .link _ text =>
    if linkStaysInside here.relative text && readsAsOptions text then [text] else []
  | .dir _ entries => optionTexts here entries
  | .file _ _ | .special _ => []

/-- The texts the copy keeps that `ln` reads as options, of the entries of a directory. -/
def optionTexts (dir : Dir) : Entries → List String
  | .nil => []
  | .cons name node rest =>
    (if isExcluded name then [] else optionTextsAt (dir.child name) node) ++ optionTexts dir rest

end

section

variable {limits : HandoffLimits} {lnOptions : String → List String → Dest → Except String Dest}
  {ownerUid : Option ℕ}

mutual

theorem Good.copyEntry {here : Dir} (hmatches : here.Matches) (node : Node) {copy copy' : Copy}
    (hgood : Good limits 0 copy) (hplain : optionTextsAt here node = [])
    (hcopy : copyEntry lnOptions limits ownerUid here node copy = .ok copy') :
    Good limits 0 copy' := by
  cases node with
  | file uid content =>
    rw [Deploy.copyEntry] at hcopy
    obtain ⟨counted, hcount, hcopy⟩ := bind_eq_ok_iff.mp hcopy
    obtain ⟨-, -, hcopy⟩ := bind_eq_ok_iff.mp hcopy
    exact (hgood.countEntry hcount).copyFileEntry hcopy
  | link uid target =>
    rw [Deploy.copyEntry] at hcopy
    obtain ⟨counted, hcount, hcopy⟩ := bind_eq_ok_iff.mp hcopy
    obtain ⟨-, -, hcopy⟩ := bind_eq_ok_iff.mp hcopy
    apply (hgood.countEntry hcount).copyLink hmatches hcopy
    intro hstays
    rw [optionTextsAt, hstays, Bool.true_and] at hplain
    by_contra hoptions
    rw [Bool.not_eq_false] at hoptions
    simp [hoptions] at hplain
  | special uid =>
    rw [Deploy.copyEntry] at hcopy
    obtain ⟨counted, hcount, hcopy⟩ := bind_eq_ok_iff.mp hcopy
    obtain ⟨-, -, hcopy⟩ := bind_eq_ok_iff.mp hcopy
    obtain rfl := Except.ok.inj hcopy
    exact (hgood.countEntry hcount).skip rfl rfl
  | dir uid entries =>
    rw [Deploy.copyEntry] at hcopy
    obtain ⟨counted, hcount, hcopy⟩ := bind_eq_ok_iff.mp hcopy
    obtain ⟨-, -, hcopy⟩ := bind_eq_ok_iff.mp hcopy
    split at hcopy
    · exact absurd hcopy (by simp)
    obtain ⟨dest, hdest, hcopy⟩ := bind_eq_ok_iff.mp hcopy
    exact Good.copyDirectory (.inr hmatches) entries ((hgood.countEntry hcount).makeDestDir hdest)
      hplain hcopy

theorem Good.copyDirectory {dir : Dir} (hmatches : dir.MatchesOrTop) (entries : Entries)
    {copy copy' : Copy} (hgood : Good limits 0 copy) (hplain : optionTexts dir entries = [])
    (hcopy : copyDirectory lnOptions limits ownerUid dir entries copy = .ok copy') :
    Good limits 0 copy' := by
  cases entries with
  | nil =>
    rw [Deploy.copyDirectory] at hcopy
    obtain rfl := Except.ok.inj hcopy
    exact hgood
  | cons name node rest =>
    rw [optionTexts, List.append_eq_nil_iff] at hplain
    rw [Deploy.copyDirectory] at hcopy
    by_cases hexcluded : isExcluded name = true
    · rw [if_pos hexcluded] at hcopy
      exact Good.copyDirectory hmatches rest hgood hplain.2 hcopy
    · rw [if_neg hexcluded] at hcopy hplain
      obtain ⟨copied, hentry, hcopy⟩ := bind_eq_ok_iff.mp hcopy
      have hcopied := Good.copyEntry (hmatches.child name) node hgood hplain.1 hentry
      exact Good.copyDirectory hmatches rest hcopied hplain.2 hcopy

end

/-- What holds between two entries is what a copy may leave behind. -/
theorem Good.staysContained {copy : Copy} (hgood : Good limits 0 copy) :
    StaysContained limits copy := by
  have hlinks : Paths.Contained copy.dest.links := by
    intro parent name target htarget
    rw [Dest.links] at htarget
    split at htarget
    · rename_i text hlookup
      obtain rfl := Option.some.inj htarget
      rw [Dest.lookup, Option.map_eq_some_iff] at hlookup
      obtain ⟨⟨place, entry⟩, hfind, rfl⟩ := hlookup
      have hplace := List.find?_some hfind
      rw [beq_iff_eq] at hplace
      obtain ⟨hrelative, hclimbs⟩ := hgood.links place text (List.mem_of_find?_eq_some hfind)
      obtain rfl : place = parent ++ [name] := hplace
      rw [List.length_append, List.length_singleton, Nat.add_sub_cancel] at hclimbs
      exact ⟨hrelative, hclimbs⟩
    · exact absurd htarget (by simp)
  constructor
  case kinds => exact hgood.kinds
  case entries => exact ⟨hgood.room, hgood.entries⟩
  case bytes => exact hgood.content.trans hgood.bytes
  case links =>
    intro parent name text _
    exact Paths.not_leaves_of_climbsFirst hlinks ⟨0, [name], rfl, Nat.zero_le _⟩

end

/-- Whatever the tree, when the copy returns and kept no text that `ln` reads as options, what
it leaves behind is contained. -/
theorem copyContainedTree_staysContained
    (lnOptions : String → List String → Dest → Except String Dest) (tree : Node)
    (source dest : ContainedPath) (limits : GivenLimits) (copy : Copy)
    (hcopy : copyContainedTree lnOptions tree source dest limits = .ok copy)
    (hplain : ∀ entries, sourceEntries tree source = .ok entries →
      optionTexts { place := [], relative := "", depth := 0 } entries = []) :
    StaysContained limits.filled copy := by
  obtain ⟨entries, hentries, hcopy⟩ := bind_eq_ok_iff.mp hcopy
  obtain ⟨-, -, hcopy⟩ := bind_eq_ok_iff.mp hcopy
  have hempty : Good limits.filled 0
      { report := { entries := 0, bytes := 0, droppedLinks := [], skippedSpecial := [] }
        dest := [] } := by
    refine ⟨by simp, le_rfl, Nat.zero_le _, le_rfl, Nat.zero_le _, by simp⟩
  exact (Good.copyDirectory (.inl ⟨rfl, rfl⟩) entries hempty (hplain entries hentries)
    hcopy).staysContained

/-- A directory with a file and a link to its parent, and a link to the file through it. -/
def nestedLinks : Node :=
  .dir (some 1000) (.cons ⟨"app", by decide⟩
    (.dir (some 1000) (.cons ⟨"index", by decide⟩ (.file (some 1000) [104, 105])
      (.cons ⟨"up", by decide⟩ (.link (some 1000) "..") .nil)))
    (.cons ⟨"page", by decide⟩ (.link (some 1000) "app/up/app/index") .nil))

theorem nestedLinks_staysContained :
    ∃ copy, copyContainedTree (fun _ _ dest => .ok dest) nestedLinks ⟨"/build", ""⟩
        ⟨"/srv/out", ""⟩ ⟨none, none, none⟩ = .ok copy ∧ copy.dest.length = 4 ∧
      StaysContained defaultHandoffLimits copy := by
  refine ⟨_, rfl, rfl, ?_⟩
  apply copyContainedTree_staysContained (fun _ _ dest => .ok dest) nestedLinks ⟨"/build", ""⟩
    ⟨"/srv/out", ""⟩ ⟨none, none, none⟩ _ rfl
  rintro _ ⟨⟩
  rfl

/-- What `ln -sfn -t<directory> <link>` does: the text names the directory, so the path of the
link is the one target left, and the link made there has its name and points at it.  A
directory elsewhere leaves the destination as it is. -/
def lnTargetDirectory (destDir text : String) (link : List String) (dest : Dest) :
    Except String Dest :=
  match JavaScript.afterFront ("-t" ++ destDir) text with
  | none => .ok dest
  | some below =>
    let directory := (split '/' below).filter fun s => s != "" && s != "."
    if directory = [] ∨ dest.lookup directory = some .dir then
      .ok (dest.put (directory ++ [link.getLastD ""]) (.link ("/".intercalate (destDir :: link))))
    else .error "failed to access"

/-- The link `b -> -t/srv/out` names nothing outside the tree, so it is kept; `ln` reads its
text as an option and makes an absolute link in the destination. -/
theorem not_staysContained_option_text :
    ∃ copy, copyContainedTree (lnTargetDirectory "/srv/out")
        (.dir (some 1000) (.cons ⟨"b", by decide⟩ (.link (some 1000) "-t/srv/out") .nil))
        ⟨"/build", ""⟩ ⟨"/srv/out", ""⟩ ⟨none, none, none⟩ = .ok copy ∧
      copy.dest = [(["b"], .link "/srv/out/b")] ∧
      ¬StaysContained defaultHandoffLimits copy := by
  refine ⟨_, rfl, rfl, fun hcontained => ?_⟩
  exact hcontained.links [] "b" "/srv/out/b" rfl (.now rfl)

end Turbopaneld.Deploy
