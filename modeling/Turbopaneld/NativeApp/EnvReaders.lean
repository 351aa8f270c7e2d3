/-
# Three readers of a variables file agree

The scan of the helper's checker goes line by line, systemd's reader character by
character.  Where the scan succeeds the two are in step at the end of each line: both are
outside of quotes, or inside the same value.  What the daemon renders is a file the scan
takes apart into the entries it was made from.
-/

import Mathlib.Tactic.Common
import Turbopaneld.NativeApp.EnvFile
import Turbopaneld.Shell.EnvironmentFile

namespace Turbopaneld.NativeApp

open Shell

/-! ## What stands between quotes -/

/-- A text the checker takes between quotes, and the value it stands for. -/
inductive Quotable : Quote → List Char → List Char → Prop
  | nil {quote : Quote} : Quotable quote [] []
  | single {c : Char} {raw value : List Char} : c ≠ '\'' → Quotable .single raw value →
      Quotable .single (c :: raw) (c :: value)
  | double {c : Char} {raw value : List Char} : isSpecial c = false → Quotable .double raw value →
      Quotable .double (c :: raw) (c :: value)
  | escape {c : Char} {raw value : List Char} : isSpecial c = true → Quotable .double raw value →
      Quotable .double ('\\' :: c :: raw) (c :: value)

/-- The value between double quotes: backslashes that escape go. -/
def unescape : List Char → List Char
  | '\\' :: c :: rest => c :: unescape rest
  | c :: rest => c :: unescape rest
  | [] => []

/-- The value of an entry. -/
def Delimited.value (entry : Delimited) : List Char :=
  match entry.quote with
  | .single => entry.raw
  | .double => unescape entry.raw

def Delimited.assignment (entry : Delimited) : EnvironmentFile.Assignment :=
  (entry.name, entry.value)

variable {quote : Quote} {raw raw' value value' : List Char}

theorem isSpecial_eq_false_iff {c : Char} :
    isSpecial c = false ↔ c ≠ '\\' ∧ c ≠ '"' ∧ c ≠ '`' ∧ c ≠ '$' := by
  simp [isSpecial, and_assoc]

theorem Quotable.append (h : Quotable quote raw value) (h' : Quotable quote raw' value') :
    Quotable quote (raw ++ raw') (value ++ value') := by
  induction h with
  | nil => exact h'
  | single hc _ ih => exact .single hc (ih h')
  | double hc _ ih => exact .double hc (ih h')
  | escape hc _ ih => exact .escape hc (ih h')

theorem Quotable.lineFeed (h : Quotable quote raw value) :
    Quotable quote (raw ++ ['\n']) (value ++ ['\n']) := by
  refine h.append ?_
  cases quote with
  | single => exact .single (by decide) .nil
  | double => exact .double (by decide) .nil

/-- A line feed in a quoted text stands for itself. -/
theorem Quotable.of_lines {line : List Char} (h : Quotable quote (line ++ '\n' :: raw) value) :
    ∃ front back, Quotable quote line front ∧ Quotable quote raw back ∧
      value = front ++ '\n' :: back := by
  generalize htext : line ++ '\n' :: raw = text at h
  induction h generalizing line with
  | nil => simp at htext
  | @single c rest value hc hrest ih =>
    cases line with
    | nil =>
      obtain ⟨rfl, rfl⟩ := List.cons.inj htext
      exact ⟨[], value, .nil, hrest, rfl⟩
    | cons d line =>
      obtain ⟨rfl, htail⟩ := List.cons.inj htext
      obtain ⟨front, back, hfront, hback, rfl⟩ := ih htail
      exact ⟨d :: front, back, .single hc hfront, hback, rfl⟩
  | @double c rest value hc hrest ih =>
    cases line with
    | nil =>
      obtain ⟨rfl, rfl⟩ := List.cons.inj htext
      exact ⟨[], value, .nil, hrest, rfl⟩
    | cons d line =>
      obtain ⟨rfl, htail⟩ := List.cons.inj htext
      obtain ⟨front, back, hfront, hback, rfl⟩ := ih htail
      exact ⟨d :: front, back, .double hc hfront, hback, rfl⟩
  | @escape c rest value hc hrest ih =>
    match line with
    | [] =>
      have hslash := (List.cons.inj htext).1
      exact absurd hslash (by decide)
    | [d] =>
      have hfeed := (List.cons.inj (List.cons.inj htext).2).1
      rw [← hfeed] at hc
      exact absurd hc (by decide)
    | d :: e :: line =>
      obtain ⟨hslash, htail⟩ := List.cons.inj htext
      obtain ⟨hescaped, htail⟩ := List.cons.inj htail
      obtain ⟨front, back, hfront, hback, rfl⟩ := ih htail
      rw [hslash, hescaped]
      exact ⟨c :: front, back, .escape hc hfront, hback, rfl⟩

theorem Quotable.value_eq (h : Quotable quote raw value) (name : List Char) :
    Delimited.value ⟨name, quote, raw⟩ = value := by
  induction h with
  | nil => cases ‹Quote› <;> rfl
  | single _ _ ih => exact congrArg (List.cons _) ih
  | @double c raw value hc _ ih =>
    have hslash := (isSpecial_eq_false_iff.mp hc).1
    show unescape (c :: raw) = c :: value
    rw [unescape]
    · exact congrArg (List.cons _) ih
    · intro d rest hd
      exact absurd hd hslash
  | escape _ _ ih => exact congrArg (List.cons _) ih

theorem scanValue_single_cons (c : Char) (rest : List Char) :
    scanValue .single (c :: rest) =
      if c == '\'' then if rest.isEmpty then some ([], true) else none
      else (scanValue .single rest).map fun (taken, closed) => (c :: taken, closed) := by
  rw [scanValue]

/-- The scan of the rest of a line in a value. -/
theorem scanValue_eq_some {line taken : List Char} {closed : Bool}
    (h : scanValue quote line = some (taken, closed)) :
    (∃ value, Quotable quote taken value) ∧
      line = taken ++ if closed then [quote.char] else [] := by
  fun_induction scanValue quote line generalizing taken closed with
  | case1 quote =>
    obtain ⟨rfl, rfl⟩ := Prod.mk.inj (Option.some.inj h)
    exact ⟨⟨[], .nil⟩, rfl⟩
  | case2 c rest hc hrest =>
    obtain ⟨rfl, rfl⟩ := Prod.mk.inj (Option.some.inj h)
    rw [List.isEmpty_iff.mp hrest, beq_iff_eq.mp hc]
    exact ⟨⟨[], .nil⟩, rfl⟩
  | case3 => cases h
  | case4 c rest hc ih =>
    obtain ⟨⟨later, last⟩, hlater, heq⟩ := Option.map_eq_some_iff.mp h
    obtain ⟨rfl, rfl⟩ := Prod.mk.inj heq
    obtain ⟨⟨value, hvalue⟩, hline⟩ := ih hlater
    exact ⟨⟨c :: value, .single (by simpa using hc) hvalue⟩, congrArg (List.cons c) hline⟩
  | case5 c rest hc hrest =>
    obtain ⟨rfl, rfl⟩ := Prod.mk.inj (Option.some.inj h)
    rw [List.isEmpty_iff.mp hrest, beq_iff_eq.mp hc]
    exact ⟨⟨[], .nil⟩, rfl⟩
  | case6 => cases h
  | case7 => cases h
  | case8 c hquote hslash d more hspecial ih =>
    obtain ⟨⟨later, last⟩, hlater, heq⟩ := Option.map_eq_some_iff.mp h
    obtain ⟨rfl, rfl⟩ := Prod.mk.inj heq
    obtain ⟨⟨value, hvalue⟩, hline⟩ := ih hlater
    rw [beq_iff_eq.mp hslash]
    exact ⟨⟨d :: value, .escape hspecial hvalue⟩, congrArg ('\\' :: d :: ·) hline⟩
  | case9 => cases h
  | case10 => cases h
  | case11 c rest hquote hslash hbare ih =>
    obtain ⟨⟨later, last⟩, hlater, heq⟩ := Option.map_eq_some_iff.mp h
    obtain ⟨rfl, rfl⟩ := Prod.mk.inj heq
    obtain ⟨⟨value, hvalue⟩, hline⟩ := ih hlater
    have hspecial : isSpecial c = false := by
      rw [isSpecial_eq_false_iff]
      simp only [Bool.not_eq_true, Bool.or_eq_false_iff, beq_eq_false_iff_ne] at hslash hquote hbare
      exact ⟨hslash, hquote, hbare.1, hbare.2⟩
    exact ⟨⟨c :: value, .double hspecial hvalue⟩, congrArg (List.cons c) hline⟩

theorem scanValue_of_quotable (h : Quotable quote raw value) :
    scanValue quote raw = some (raw, false) ∧
      scanValue quote (raw ++ [quote.char]) = some (raw, true) := by
  induction h with
  | @nil quote => cases quote <;> exact ⟨rfl, rfl⟩
  | @single c raw value hc _ ih =>
    rw [List.cons_append, scanValue_single_cons, scanValue_single_cons, if_neg (by simpa using hc),
      if_neg (by simpa using hc), ih.1, ih.2]
    exact ⟨rfl, rfl⟩
  | @double c raw value hc _ ih =>
    obtain ⟨hslash, hquote, hback, hdollar⟩ := isSpecial_eq_false_iff.mp hc
    have hstep : ∀ rest, scanValue .double (c :: rest) =
        (scanValue .double rest).map fun (taken, closed) => (c :: taken, closed) := by
      intro rest
      rw [scanValue.eq_def]
      dsimp only
      rw [if_neg (by simpa using hquote), if_neg (by simpa using hslash),
        if_neg (by simpa using ⟨hback, hdollar⟩)]
    rw [List.cons_append, hstep, hstep, ih.1, ih.2]
    exact ⟨rfl, rfl⟩
  | @escape c raw value hc _ ih =>
    have hstep : ∀ rest, scanValue .double ('\\' :: c :: rest) =
        (scanValue .double rest).map fun (taken, closed) => ('\\' :: c :: taken, closed) := by
      intro rest
      rw [scanValue.eq_def]
      dsimp only
      rw [if_neg (by decide), if_pos (by decide), if_pos hc]
    rw [List.cons_append, List.cons_append, hstep, hstep, ih.1, ih.2]
    exact ⟨rfl, rfl⟩

/-! ## In step with systemd's reader -/

/-- The mode of systemd's reader in a value. -/
def Quote.mode : Quote → EnvironmentFile.Mode
  | .single => .single
  | .double => .double

/-- The assignments of the entries scanned so far. -/
def Scan.assignments (s : Scan) : List EnvironmentFile.Assignment :=
  s.entries.map Delimited.assignment

/-- systemd's reader in a value that is open. -/
def inValue (s : Scan) (entry : Delimited) (value : List Char) : EnvironmentFile.Reader where
  mode := entry.quote.mode
  name := entry.name
  nameBlanks := none
  value := value
  valueBlanks := none
  read := s.assignments

/-- The two are in step before a line: outside of quotes, or in the same value with the line
feed read. -/
def BeforeLine (s : Scan) (r : EnvironmentFile.Reader) : Prop :=
  match s.opened with
  | none => r = .fresh s.assignments
  | some entry => ∃ value, Quotable entry.quote entry.raw value ∧
      r = inValue s entry (value ++ ['\n'])

/-- The two are in step after a line and before its line feed. -/
def AfterLine (s : Scan) (r : EnvironmentFile.Reader) : Prop :=
  match s.opened with
  | none => r.finish = s.assignments ∧
      BeforeLine s (r.step '\n')
  | some entry => ∃ value, Quotable entry.quote entry.raw value ∧ r = inValue s entry value

variable {s s' : Scan} {r : EnvironmentFile.Reader} {line : List Char} {entry : Delimited}

theorem AfterLine.lineFeed (h : AfterLine s r) : BeforeLine s (r.step '\n') := by
  unfold AfterLine at h
  cases hopened : s.opened with
  | none =>
    rw [hopened] at h
    exact h.2
  | some entry =>
    rw [hopened] at h
    obtain ⟨value, hvalue, rfl⟩ := h
    rw [BeforeLine, hopened]
    refine ⟨value, hvalue, ?_⟩
    cases hquote : entry.quote <;> simp [EnvironmentFile.Reader.step, inValue, hquote, Quote.mode]

theorem escaped_of_quotable (h : Quotable quote raw value) (hquote : quote = .double) :
    EnvironmentFile.Escaped raw value := by
  induction h with
  | nil => exact .nil
  | single => cases hquote
  | double hc _ ih =>
    have hplain := isSpecial_eq_false_iff.mp hc
    exact .plain hplain.2.1 hplain.1 (ih hquote)
  | @escape c _ _ hc _ ih =>
    refine .escape ?_ (ih hquote)
    simp only [isSpecial, EnvironmentFile.isEscaped, Bool.or_eq_true] at hc ⊢
    tauto

theorem eq_of_quotable (h : Quotable quote raw value) (hquote : quote = .single) :
    raw = value ∧ '\'' ∉ raw := by
  induction h with
  | nil => exact ⟨rfl, List.not_mem_nil⟩
  | single hc _ ih =>
    obtain ⟨rfl, hrest⟩ := ih hquote
    exact ⟨rfl, fun hmem => (List.mem_cons.mp hmem).elim (fun heq => hc heq.symm) hrest⟩
  | double => cases hquote
  | escape => cases hquote

/-- systemd's reader over a quotable text. -/
theorem run_inValue (h : Quotable entry.quote raw value) (before : List Char) :
    EnvironmentFile.run (inValue s entry before) raw = inValue s entry (before ++ value) := by
  cases hquote : entry.quote with
  | single =>
    obtain ⟨rfl, hplain⟩ := eq_of_quotable h hquote
    rw [EnvironmentFile.run_single (by rw [inValue, hquote]; rfl) hplain]
    rfl
  | double =>
    rw [EnvironmentFile.run_double (by rw [inValue, hquote]; rfl) (escaped_of_quotable h hquote)]
    rfl

/-- A value that goes on with the rest of a line. -/
theorem afterLine_goOn {before : List Char} (h : s.goOn entry line = some s')
    (hraw : Quotable entry.quote entry.raw before) :
    AfterLine s' (EnvironmentFile.run (inValue s entry before) line) := by
  obtain ⟨⟨taken, closed⟩, htaken, rfl⟩ := Option.map_eq_some_iff.mp h
  obtain ⟨⟨value, hvalue⟩, rfl⟩ := scanValue_eq_some htaken
  have hwhole := hraw.append hvalue
  cases closed with
  | false =>
    simp only [Bool.false_eq_true, if_false, List.append_nil, run_inValue hvalue]
    exact ⟨before ++ value, hwhole, rfl⟩
  | true =>
    have hclose : (inValue s entry (before ++ value)).step entry.quote.char =
        { inValue s entry (before ++ value) with mode := .beforeValue } := by
      cases hquote : entry.quote <;>
        simp [EnvironmentFile.Reader.step, inValue, hquote, Quote.mode, Quote.char]
    have hassignment : ({ inValue s entry (before ++ value) with mode := .beforeValue } :
        EnvironmentFile.Reader).assignment =
          Delimited.assignment { entry with raw := entry.raw ++ taken } :=
      congrArg (Prod.mk entry.name) (hwhole.value_eq entry.name).symm
    have hread : s.assignments ++ [Delimited.assignment { entry with raw := entry.raw ++ taken }] =
        Scan.assignments ⟨s.entries ++ [{ entry with raw := entry.raw ++ taken }], none⟩ :=
      by simp only [Scan.assignments, List.map_append, List.map_cons, List.map_nil]
    simp only [if_true, EnvironmentFile.run_append, run_inValue hvalue, EnvironmentFile.run_cons,
      EnvironmentFile.run_nil, hclose]
    refine ⟨?_, ?_⟩
    · simp only [EnvironmentFile.Reader.finish, EnvironmentFile.Reader.push, hassignment]
      exact hread
    · simp only [EnvironmentFile.Reader.step, EnvironmentFile.isLineEnd, beq_self_eq_true,
        Bool.true_or, if_true, EnvironmentFile.Reader.push, hassignment]
      exact congrArg EnvironmentFile.Reader.fresh hread

/-- What a line that starts outside of quotes is. -/
theorem startLine_cases (h : s.startLine line = some s') :
    (s' = s ∧ (line = [] ∨ ∃ rest, line = '#' :: rest ∨ line = ';' :: rest)) ∨
      ∃ name quote rest, name.head?.any isNameStart = true ∧
        (∀ c ∈ name, JavaScript.isWord c = true) ∧
          line = name ++ '=' :: Quote.char quote :: rest ∧
            s.goOn ⟨name, quote, []⟩ rest = some s' := by
  unfold Scan.startLine at h
  split at h
  case isTrue hcomment =>
    obtain rfl := Option.some.inj h
    refine .inl ⟨rfl, ?_⟩
    cases line with
    | nil => exact .inl rfl
    | cons c rest => exact .inr ⟨rest, by simpa using hcomment⟩
  case isFalse =>
    dsimp only at h
    have hwhole := List.prefix_iff_eq_append.mp (List.takeWhile_prefix JavaScript.isWord (l := line))
    have hword : ∀ c ∈ line.takeWhile JavaScript.isWord, JavaScript.isWord c = true :=
      fun c hc => List.mem_takeWhile_imp hc
    generalize line.takeWhile JavaScript.isWord = name at h hwhole hword
    split at h
    case isTrue => cases h
    case isFalse hstart =>
      rw [Bool.not_eq_true', Bool.not_eq_false] at hstart
      split at h
      case h_2 => cases h
      case h_1 rest hrest =>
        rw [hrest] at hwhole
        split_ifs at h
        split at h
        case h_1 more => exact .inr ⟨name, .single, more, hstart, hword, hwhole.symm, h⟩
        case h_2 more => exact .inr ⟨name, .double, more, hstart, hword, hwhole.symm, h⟩
        case h_3 => cases h

/-- A character of a name is no blank and no `=`. -/
theorem plain_of_isWord {c : Char} (hc : JavaScript.isWord c = true) :
    EnvironmentFile.isBlank c = false ∧ c ≠ '=' := by
  refine ⟨?_, ?_⟩
  · simp only [EnvironmentFile.isBlank, Bool.or_eq_false_iff, beq_eq_false_iff_ne]
    refine ⟨⟨⟨?_, ?_⟩, ?_⟩, ?_⟩ <;>
      · rintro rfl
        exact absurd hc (by decide)
  · rintro rfl
    exact absurd hc (by decide)

/-- systemd's reader over a name, `=` and a quote. -/
theorem run_opening {name : List Char} (hstart : name.head?.any isNameStart = true)
    (hword : ∀ c ∈ name, JavaScript.isWord c = true) (quote : Quote) :
    EnvironmentFile.run (.fresh s.assignments) (name ++ ['=', quote.char]) =
      inValue s ⟨name, quote, []⟩ [] := by
  cases name with
  | nil => cases hstart
  | cons c rest =>
    obtain ⟨hc, hrest⟩ := List.forall_mem_cons.mp hword
    have hcomment : c ≠ '#' ∧ c ≠ ';' := by
      refine ⟨?_, ?_⟩ <;>
        · rintro rfl
          exact absurd hc (by decide)
    have hfirst : (EnvironmentFile.Reader.fresh s.assignments).step c =
        ⟨.name, [c], none, [], none, s.assignments⟩ := by
      simp only [EnvironmentFile.Reader.step, EnvironmentFile.Reader.fresh, beq_iff_eq, hcomment.1,
        hcomment.2, Bool.or_eq_true, or_self, if_false, (plain_of_isWord hc).1, Bool.false_eq_true]
    rw [List.cons_append, EnvironmentFile.run_cons, hfirst, EnvironmentFile.run_append,
      EnvironmentFile.run_name rfl rfl fun d hd => plain_of_isWord (hrest d hd)]
    cases quote <;> rfl

/-- The scan and systemd's reader go over a line in step. -/
theorem afterLine_scanLine (h : scanLine s line = some s') (hline : '\n' ∉ line)
    (hreturn : '\r' ∉ line) (hstep : BeforeLine s r) :
    AfterLine s' (EnvironmentFile.run r line) := by
  unfold scanLine at h
  unfold BeforeLine at hstep
  cases hopened : s.opened with
  | some entry =>
    rw [hopened] at h hstep
    obtain ⟨value, hvalue, rfl⟩ := hstep
    show AfterLine s' (EnvironmentFile.run
      (inValue s { entry with raw := entry.raw ++ ['\n'] } (value ++ ['\n'])) line)
    exact afterLine_goOn h hvalue.lineFeed
  | none =>
    rw [hopened] at h hstep
    subst hstep
    obtain ⟨hsame, hcomment⟩ | ⟨name, quote, rest, hstart, hword, rfl, hrest⟩ := startLine_cases h
    · rw [hsame, AfterLine, BeforeLine, hopened]
      obtain rfl | ⟨rest, hfirst⟩ := hcomment
      · exact ⟨rfl, rfl⟩
      · have hends : ∀ c ∈ rest, EnvironmentFile.isLineEnd c = false := by
          intro c hc
          have hmem : c ∈ line := by
            obtain rfl | rfl := hfirst <;> exact List.mem_cons_of_mem _ hc
          simp only [EnvironmentFile.isLineEnd, Bool.or_eq_false_iff, beq_eq_false_iff_ne]
          exact ⟨fun heq => hline (heq ▸ hmem), fun heq => hreturn (heq ▸ hmem)⟩
        have hmarked : EnvironmentFile.run (.fresh s.assignments) line = EnvironmentFile.run
            { EnvironmentFile.Reader.fresh s.assignments with mode := .comment } rest := by
          obtain rfl | rfl := hfirst <;> rfl
        obtain ⟨mode, hmode, hrun⟩ := EnvironmentFile.run_comment
          (r := { EnvironmentFile.Reader.fresh s.assignments with mode := .comment }) hends (.inl rfl)
        rw [hmarked, hrun]
        obtain rfl | rfl := hmode <;> exact ⟨rfl, rfl⟩
    · have hopening := run_opening (s := s) hstart hword quote
      have hsplit : name ++ '=' :: quote.char :: rest = (name ++ ['=', quote.char]) ++ rest := by
        simp
      rw [hsplit, EnvironmentFile.run_append, hopening]
      exact afterLine_goOn hrest .nil

/-- Where the scan of a file succeeds, systemd reads the entries it delimits. -/
theorem assignments_of_scan {text : List Char} (hplain : '\r' ∉ text)
    (hscan : (records text).foldlM scanLine s = some s') (hclosed : s'.opened = none)
    (hstep : BeforeLine s r) : (EnvironmentFile.run r text).finish = s'.assignments := by
  induction text using lines_induction generalizing s r with
  | empty =>
    obtain rfl := Option.some.inj hscan
    rw [BeforeLine, hclosed] at hstep
    subst hstep
    rfl
  | last line hline hne =>
    rw [records_of_notMem hline hne, List.foldlM_cons] at hscan
    obtain ⟨next, hnext, hlast⟩ := Option.bind_eq_some_iff.mp hscan
    obtain rfl := Option.some.inj hlast
    have hafter := afterLine_scanLine hnext hline hplain hstep
    rw [AfterLine, hclosed] at hafter
    exact hafter.1
  | more line rest hline ih =>
    rw [List.mem_append, List.mem_cons, not_or, not_or] at hplain
    rw [records_append hline, List.foldlM_cons] at hscan
    obtain ⟨next, hnext, hrest⟩ := Option.bind_eq_some_iff.mp hscan
    have hafter := afterLine_scanLine hnext hline hplain.1 hstep
    rw [EnvironmentFile.run_append, EnvironmentFile.run_cons]
    exact ih hplain.2.2 hrest hafter.lineFeed

/-- From every text the checker accepts, systemd reads the entries its scan delimits. -/
theorem assignments_of_contentOk {text : List Char} (hok : tpAppenvContentOk text = true) :
    ∃ entries, scanned text = some entries ∧
      EnvironmentFile.assignments text = entries.map Delimited.assignment := by
  rw [tpAppenvContentOk, Bool.and_eq_true, tpContentPlain, Bool.and_eq_true] at hok
  obtain ⟨⟨-, hreturn⟩, hscanned⟩ := hok
  obtain ⟨entries, hentries⟩ := Option.isSome_iff_exists.mp hscanned
  refine ⟨entries, hentries, ?_⟩
  unfold scanned at hentries
  split at hentries
  case h_1 found hfound =>
    obtain rfl := Option.some.inj hentries
    exact assignments_of_scan (s := ⟨[], none⟩) (by simpa using hreturn) hfound rfl rfl
  case h_2 => cases hentries

end Turbopaneld.NativeApp
