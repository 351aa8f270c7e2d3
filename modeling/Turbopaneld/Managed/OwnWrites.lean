/-
# What the promotion target waits for

The wait set is meant to hold every write of the old primary.  For MariaDB it does: the
filter keeps domain 0 and every domain the target has received.  For MySQL the filter looks
at the first group of a server UUID instead of a domain.  A target that has received
transactions of an older source, and none of the old primary yet, drops the old primary's
own component and waits for the rest.
-/

import Mathlib.Data.List.Flatten
import Turbopaneld.Managed.SwitchoverGtid
import Turbopaneld.Programs.Fallible

namespace Turbopaneld.Managed.Switchover

open JavaScript

/-! ## What the engines mean by a GTID set -/

/-- A lower-case hexadecimal digit. -/
def isHex (c : Char) : Bool := isDigit c || ('a' ≤ c && c ≤ 'f')

/-- A server UUID as MySQL prints it. -/
structure Uuid where
  first : String
  rest : List String
  first_length : first.toList.length = 8
  rest_length : rest.map (·.toList.length) = [4, 4, 4, 12]
  hex : ∀ group ∈ first :: rest, group.toList.all isHex = true

def Uuid.text (uuid : Uuid) : String := "-".intercalate (uuid.first :: uuid.rest)

/-- The transaction numbers of an interval. -/
structure Interval where
  start : ℕ
  last : ℕ
  ordered : start ≤ last

def Interval.text (interval : Interval) : String :=
  if interval.start = interval.last then toString interval.start
  else toString interval.start ++ "-" ++ toString interval.last

/-- A component of a MySQL set: a UUID and its intervals. -/
structure UuidSet where
  uuid : Uuid
  intervals : List Interval
  nonempty : intervals ≠ []

def UuidSet.text (entry : UuidSet) : String :=
  entry.uuid.text ++ ":" ++ ":".intercalate (entry.intervals.map Interval.text)

/-- A component of a MariaDB position. -/
structure Position where
  domain : ℕ
  server : ℕ
  sequence : ℕ

def Position.text (position : Position) : String :=
  toString position.domain ++ "-" ++ toString position.server ++ "-" ++ toString position.sequence

inductive Transaction where
  | mysql (uuid : String) (number : ℕ)
  | mariadb (domain sequence : ℕ)

/-- The transactions a wait for this set is about.  A MariaDB position stands for everything up
to it in its domain. -/
def Names : GtidWaitEngineFamily → String → Transaction → Prop
  | .mysql, set, .mysql uuid number =>
    ∃ entry : UuidSet, entry.text ∈ split ',' set ∧ entry.uuid.text = uuid ∧
      ∃ interval ∈ entry.intervals, interval.start ≤ number ∧ number ≤ interval.last
  | .mariadb, set, .mariadb domain sequence =>
    ∃ position : Position, position.text ∈ split ',' set ∧ position.domain = domain ∧
      sequence ≤ position.sequence
  | _, _, _ => False

/-- The promotion target, with what it has applied when the wait returns. -/
structure Target extends Host where
  applied : Transaction → Prop

/-- The target prints the set it received, and its wait function returns 0 only when the whole
given set is applied. -/
structure Target.Honours (target : Target) (family : GtidWaitEngineFamily) (received : String) :
    Prop where
  prints : ∀ out, target.runQuery (replicationGtidReceivedSql family) = .ok out →
    trim out = received
  waits : ∀ gtidSet timeout sql out, gtidSet.toList.all isGtidChar = true →
    waitSql family gtidSet timeout = .ok sql → target.runQuery sql = .ok out →
    parseGtidWaitScalar out = some "0" →
    ∀ transaction, Names family gtidSet transaction → target.applied transaction

/-! ## Switchovers -/

/-- The captured set of a MySQL primary and the set its promotion target received. -/
structure MysqlSwitchover where
  oldPrimary : Uuid
  captured : List UuidSet
  received : List UuidSet
  captured_ne_nil : captured ≠ []
  captured_bounded : lengthInUnits (",".intercalate (captured.map UuidSet.text)) ≤ gtidMaxLength

/-- The captured position of a MariaDB primary and the position its promotion target received.
What the primary wrote is at or before the captured position, in domain 0 or in a domain the
target has received. -/
structure MariadbSwitchover where
  wrote : ℕ → ℕ → Prop
  captured : List Position
  received : List Position
  captured_ne_nil : captured ≠ []
  captured_bounded : lengthInUnits (",".intercalate (captured.map Position.text)) ≤ gtidMaxLength
  wrote_captured : ∀ domain sequence, wrote domain sequence →
    ∃ position ∈ captured, position.domain = domain ∧ sequence ≤ position.sequence
  wrote_replicated : ∀ domain sequence, wrote domain sequence →
    domain = 0 ∨ ∃ position ∈ received, position.domain = domain

inductive SwitchoverCase where
  | mysql (switchover : MysqlSwitchover)
  | mariadb (switchover : MariadbSwitchover)

namespace SwitchoverCase

def family : SwitchoverCase → GtidWaitEngineFamily
  | mysql _ => .mysql
  | mariadb _ => .mariadb

def engine : SwitchoverCase → ManagedEngineCode
  | mysql _ => .mysql
  | mariadb _ => .mariadb

/-- The components of the captured set, as text. -/
def capturedParts : SwitchoverCase → List String
  | mysql switchover => switchover.captured.map UuidSet.text
  | mariadb switchover => switchover.captured.map Position.text

def receivedParts : SwitchoverCase → List String
  | mysql switchover => switchover.received.map UuidSet.text
  | mariadb switchover => switchover.received.map Position.text

/-- The transactions of the captured set that the old primary itself wrote. -/
def Wrote : SwitchoverCase → Transaction → Prop
  | mysql switchover, .mysql uuid number =>
    uuid = switchover.oldPrimary.text ∧ ∃ entry ∈ switchover.captured, entry.uuid.text = uuid ∧
      ∃ interval ∈ entry.intervals, interval.start ≤ number ∧ number ≤ interval.last
  | mariadb switchover, .mariadb domain sequence => switchover.wrote domain sequence
  | _, _ => False

/-- The command's parameters. -/
def params (switchover : SwitchoverCase) (timeout : Option ℕ) : SwitchoverGtidProofParams where
  engine := some switchover.engine
  requiredExecutedGtidSet := ",".intercalate switchover.capturedParts
  gtidWaitTimeoutSeconds := timeout

/-- Whatever the target answers: a proof that resolves means that the target has applied
everything the old primary wrote. -/
def OwnWritesApplied (switchover : SwitchoverCase) (timeout : Option ℕ) : Prop :=
  ∀ target : Target,
    target.Honours switchover.family (",".intercalate switchover.receivedParts) →
    proveSwitchoverGtidBeforePromote (switchover.params timeout) target.toHost = .ok () →
    ∀ transaction, switchover.Wrote transaction → target.applied transaction

/-- For MySQL: the old primary has no component of its own, the target has received a UUID with
the first group of the old primary's, or it has received none with the first group of any
captured one. -/
def OldPrimaryHeard : SwitchoverCase → Prop
  | mysql switchover =>
    (∀ entry ∈ switchover.captured, entry.uuid.text ≠ switchover.oldPrimary.text) ∨
      (∃ entry ∈ switchover.received, entry.uuid.first = switchover.oldPrimary.first) ∨
      ∀ entry ∈ switchover.captured, ∀ other ∈ switchover.received,
        entry.uuid.first ≠ other.uuid.first
  | mariadb _ => True

end SwitchoverCase

/-! ## The text of a set -/

/-- The characters of a component. -/
def isComponentChar (c : Char) : Bool := isDigit c || isLower c || c == ':' || c == '-'

/-- What a component's text is made of. -/
structure IsComponent (text : String) : Prop where
  ne_empty : text ≠ ""
  chars : text.toList.all isComponentChar = true

theorem isGtidChar_of_isComponentChar {c : Char} (h : isComponentChar c = true) :
    isGtidChar c = true := by
  simp only [isComponentChar, Bool.or_eq_true] at h
  simp only [isGtidChar, isLetter, Bool.or_eq_true]
  rcases h with ((h | h) | h) | h
  · simp [h]
  · simp [h]
  · simp [h]
  · simp [h]

theorem toNat_lt_of_isGtidChar {c : Char} (h : isGtidChar c = true) : c.toNat < 123 := by
  simp only [isGtidChar, isDigit, isLetter, isLower, Bool.or_eq_true, Bool.and_eq_true,
    decide_eq_true_eq, beq_iff_eq, Char.le_def, UInt32.le_iff_toNat_le] at h
  change c.val.toNat < 123
  rcases h with ((((((⟨-, h⟩ | ⟨-, h⟩ | ⟨-, h⟩) | rfl) | rfl) | rfl) | rfl) | rfl) | rfl
  · exact lt_of_le_of_lt h (by decide)
  · exact lt_of_le_of_lt h (by decide)
  · exact lt_of_le_of_lt h (by decide)
  all_goals decide

theorem isGtidChar_elim {c : Char} (h : isGtidChar c = true) :
    0x1f < c.toNat ∧ c.toNat ≠ 0x7f ∧ c ≠ '\\' ∧ c ≠ '\'' := by
  have hall : ∀ n < 123, isGtidChar (Char.ofNat n) = true → 0x1f < (Char.ofNat n).toNat ∧
      (Char.ofNat n).toNat ≠ 0x7f ∧ Char.ofNat n ≠ '\\' ∧ Char.ofNat n ≠ '\'' := by
    decide
  rw [← Char.ofNat_toNat c] at h ⊢
  exact hall c.toNat (toNat_lt_of_isGtidChar (by rwa [Char.ofNat_toNat] at h)) h

/-- What is not in the text of a component. -/
theorem isComponentChar_elim {c : Char} (h : isComponentChar c = true) :
    isSpace c = false ∧ c ≠ ',' := by
  have hall : ∀ n < 123, isComponentChar (Char.ofNat n) = true →
      isSpace (Char.ofNat n) = false ∧ Char.ofNat n ≠ ',' := by
    decide
  have hlt := toNat_lt_of_isGtidChar (isGtidChar_of_isComponentChar h)
  rw [← Char.ofNat_toNat c] at h ⊢
  exact hall c.toNat hlt h

theorem withoutBreaks_of_gtidText {text : List Char} (h : ∀ c ∈ text, isGtidChar c = true) :
    withoutBreaks text = text := by
  induction text with
  | nil => rfl
  | cons c rest ih =>
    obtain ⟨hc, hrest⟩ := List.forall_mem_cons.mp h
    obtain ⟨hlow, -, hslash, -⟩ := isGtidChar_elim hc
    have hline : c ≠ '\n' := by
      rintro rfl
      exact absurd hlow (by decide)
    have hreturn : c ≠ '\r' := by
      rintro rfl
      exact absurd hlow (by decide)
    rw [withoutBreaks]
    · rw [if_neg (by simp [hline, hreturn]), ih hrest]
    · intro _ hc
      exact absurd hc hslash
    · intro _ hc
      exact absurd hc hslash

/-- The text of a set. -/
theorem isComponent_of_mem {parts : List String} (hparts : ∀ part ∈ parts, IsComponent part)
    {c : Char} (hc : c ∈ (",".intercalate parts).toList) : isComponentChar c = true ∨ c = ',' := by
  refine forall_mem_intercalate (P := fun c => isComponentChar c = true ∨ c = ',') ?_ ?_ c hc
  · intro c hc
    exact .inr (List.mem_singleton.mp hc)
  · intro part hpart c hc
    exact .inl (List.all_eq_true.mp (hparts part hpart).chars c hc)

theorem gtidText_intercalate {parts : List String} (hparts : ∀ part ∈ parts, IsComponent part)
    {c : Char} (hc : c ∈ (",".intercalate parts).toList) :
    isGtidChar c = true ∧ isSpace c = false := by
  rcases isComponent_of_mem hparts hc with hc | rfl
  · exact ⟨isGtidChar_of_isComponentChar hc, (isComponentChar_elim hc).1⟩
  · decide

theorem split_components {parts : List String} (hparts : ∀ part ∈ parts, IsComponent part)
    (hne : parts ≠ []) : split ',' (",".intercalate parts) = parts := by
  refine split_intercalate ?_ hne
  intro part hpart hmem
  exact (isComponentChar_elim (List.all_eq_true.mp (hparts part hpart).chars _ hmem)).2 rfl

/-- The components of a set are read back. -/
theorem gtidComponents_intercalate {parts : List String}
    (hparts : ∀ part ∈ parts, IsComponent part) :
    gtidComponents (",".intercalate parts) = parts := by
  have hbreaks : withoutBreaks (",".intercalate parts).toList = (",".intercalate parts).toList :=
    withoutBreaks_of_gtidText fun c hc => (gtidText_intercalate hparts hc).1
  rw [gtidComponents, hbreaks, String.ofList_toList]
  cases parts with
  | nil => decide
  | cons part rest =>
    rw [split_components hparts (List.cons_ne_nil part rest)]
    have htrim : ∀ other ∈ part :: rest, trim other = id other := by
      intro other hother
      refine trim_of_forall fun c hc => ?_
      exact (isComponentChar_elim (List.all_eq_true.mp (hparts other hother).chars c hc)).1
    rw [List.map_congr_left htrim, List.map_id, List.filter_eq_self]
    intro other hother
    simpa using (hparts other hother).ne_empty

/-- The components the target waits for. -/
def waitParts (captured received : List String) : List String :=
  if keptParts captured (received.map domainId) = [] then captured
  else keptParts captured (received.map domainId)

theorem filterGtidSetForSwitchoverWait_intercalate {captured received : List String}
    (hcaptured : ∀ part ∈ captured, IsComponent part)
    (hreceived : ∀ part ∈ received, IsComponent part) :
    filterGtidSetForSwitchoverWait (",".intercalate captured) (",".intercalate received) =
      ",".intercalate (waitParts captured received) := by
  rw [filterGtidSetForSwitchoverWait, gtidComponents_intercalate hcaptured,
    gtidComponents_intercalate hreceived, waitParts]
  by_cases hkept : keptParts captured (received.map domainId) = []
  · -- Nothing is kept, so no captured component is of domain 0 either.
    have hnone : captured.filter (fun part => domainId part = "0") = [] := by
      rw [List.filter_eq_nil_iff]
      intro part hpart hzero
      refine List.filter_eq_nil_iff.mp hkept part hpart ?_
      rw [Bool.or_eq_true]
      exact .inl hzero
    simp [hkept, hnone]
  · have hcaptured' : captured ≠ [] := by
      rintro rfl
      exact hkept rfl
    simp [hkept, hcaptured']

theorem mem_of_mem_waitParts {captured received : List String} {part : String}
    (h : part ∈ waitParts captured received) : part ∈ captured := by
  rw [waitParts] at h
  split at h
  · exact h
  · exact List.mem_of_mem_filter h

theorem waitParts_ne_nil {captured received : List String} (h : captured ≠ []) :
    waitParts captured received ≠ [] := by
  rw [waitParts]
  split
  · exact h
  · assumption

theorem intercalate_sublist {parts more : List String} (h : parts.Sublist more) :
    (",".intercalate parts).toList.Sublist (",".intercalate more).toList := by
  rw [String.toList_intercalate, String.toList_intercalate]
  induction h with
  | slnil => exact List.Sublist.refl _
  | @cons parts more part hsub ih =>
    cases more with
    | nil =>
      rw [List.sublist_nil.mp hsub]
      exact List.nil_sublist _
    | cons next more =>
      rw [List.map_cons, List.map_cons, List.intercalate_cons_cons]
      exact ih.trans (List.sublist_append_right _ _)
  | @cons_cons parts more part hsub ih =>
    cases parts with
    | nil =>
      cases more with
      | nil => exact List.Sublist.refl _
      | cons next more =>
        rw [List.map_cons, List.map_cons, List.map_cons, List.intercalate_cons_cons,
          List.map_nil, List.intercalate_singleton, List.append_assoc]
        exact List.sublist_append_left _ _
    | cons next parts =>
      cases more with
      | nil => cases hsub
      | cons other more =>
        rw [List.map_cons, List.map_cons, List.map_cons, List.map_cons,
          List.intercalate_cons_cons, List.intercalate_cons_cons]
        exact List.Sublist.append_left ih _

theorem lengthInUnits_le_of_sublist {text more : String} (h : text.toList.Sublist more.toList) :
    lengthInUnits text ≤ lengthInUnits more :=
  (h.flatMap _).length_le

theorem waitParts_sublist (captured received : List String) :
    (waitParts captured received).Sublist captured := by
  rw [waitParts]
  split
  · exact List.Sublist.refl _
  · exact List.filter_sublist

theorem intercalate_ne_empty {parts : List String} (hparts : ∀ part ∈ parts, IsComponent part)
    (hne : parts ≠ []) : ",".intercalate parts ≠ "" := by
  intro hempty
  have hsplit := split_components hparts hne
  rw [hempty] at hsplit
  have hmem : "" ∈ parts := by
    rw [← hsplit]
    decide
  exact (hparts "" hmem).ne_empty rfl

/-- A set that is not too long passes the check on the way to the engine. -/
theorem assertBoundedSwitchoverGtidSet_intercalate {parts : List String}
    (hparts : ∀ part ∈ parts, IsComponent part) (hne : parts ≠ [])
    (hlength : lengthInUnits (",".intercalate parts) ≤ gtidMaxLength) :
    assertBoundedSwitchoverGtidSet (",".intercalate parts) = .ok (",".intercalate parts) := by
  have htrim : trim (",".intercalate parts) = ",".intercalate parts :=
    trim_of_forall fun c hc => (gtidText_intercalate hparts hc).2
  have hbreaks : withoutBreaks (",".intercalate parts).toList = (",".intercalate parts).toList :=
    withoutBreaks_of_gtidText fun c hc => (gtidText_intercalate hparts hc).1
  have hgtid : (",".intercalate parts).toList.all isGtidChar = true :=
    List.all_eq_true.mpr fun c hc => (gtidText_intercalate hparts hc).1
  have hnull : ",".intercalate parts ≠ "NULL" := by
    intro heq
    have hn : 'N' ∈ (",".intercalate parts).toList := by
      rw [heq]
      decide
    exact absurd (isComponent_of_mem hparts hn) (by decide)
  have hbounded : boundedGtid (",".intercalate parts) = some (",".intercalate parts) := by
    rw [boundedGtid, hbreaks, String.ofList_toList]
    rw [htrim, if_neg hnull, if_neg]
    rw [hgtid]
    simpa using hlength
  rw [assertBoundedSwitchoverGtidSet, htrim, hbounded, Option.getD_some]
  exact if_neg (intercalate_ne_empty hparts hne)

/-- The SQL function that waits. -/
def waitFunction : GtidWaitEngineFamily → String
  | .mysql => "WAIT_FOR_EXECUTED_GTID_SET"
  | .mariadb => "MASTER_GTID_WAIT"

/-- GTID text needs no escapes. -/
theorem waitSql_of_gtidText {gtidSet : String} (h : gtidSet.toList.all isGtidChar = true)
    (family : GtidWaitEngineFamily) (timeout : ℕ) :
    waitSql family gtidSet timeout = .ok ("SELECT " ++ waitFunction family ++ "('" ++ gtidSet ++
      "', " ++ toString timeout ++ ");") := by
  have hcontrol : (gtidSet.toList.any fun c => c.toNat ≤ 0x1f || c.toNat = 0x7f) = false := by
    rw [List.any_eq_false]
    intro c hc
    obtain ⟨hlow, hdel, -⟩ := isGtidChar_elim (List.all_eq_true.mp h c hc)
    simp [Nat.not_le.mpr hlow, hdel]
  have hescape : ∀ c ∈ gtidSet.toList,
      (if c = '\\' then ['\\', '\\'] else if c = '\'' then ['\\', '\''] else [c]) = [c] := by
    intro c hc
    obtain ⟨-, -, hslash, hquote⟩ := isGtidChar_elim (List.all_eq_true.mp h c hc)
    rw [if_neg hslash, if_neg hquote]
  have hliteral : quoteLiteral family gtidSet = .ok ("'" ++ gtidSet ++ "'") := by
    rw [quoteLiteral.eq_def, hcontrol, if_neg Bool.false_ne_true, List.flatMap_congr hescape,
      List.flatMap_singleton', String.ofList_toList]
  rw [waitSql.eq_def, hliteral]
  cases family with
  | mysql => simp [bind, Except.bind, waitFunction, ← String.toList_inj]
  | mariadb => simp [bind, Except.bind, waitFunction, ← String.toList_inj]

theorem waitSql_inj {family : GtidWaitEngineFamily} {gtidSet other sql : String}
    {timeout otherTimeout : ℕ} (hset : gtidSet.toList.all isGtidChar = true)
    (hother : other.toList.all isGtidChar = true)
    (hsql : waitSql family gtidSet timeout = .ok sql)
    (hsql' : waitSql family other otherTimeout = .ok sql) : gtidSet = other := by
  rw [waitSql_of_gtidText hset] at hsql
  rw [waitSql_of_gtidText hother] at hsql'
  have heq := (Except.ok.inj hsql).trans (Except.ok.inj hsql').symm
  have hquote : ∀ {text : String}, text.toList.all isGtidChar = true → '\'' ∉ text.toList := by
    intro text htext hmem
    exact (isGtidChar_elim (List.all_eq_true.mp htext _ hmem)).2.2.2 rfl
  -- Both literals end at the first quote after the common beginning.
  have hheads : ∀ {text : String} (rest : String), text.toList.all isGtidChar = true →
      (split '\'' (text ++ String.singleton '\'' ++ rest)).head? = some text := by
    intro text rest htext
    rw [split_append_cons (hquote htext), List.head?_cons]
  have htails : ∀ (text : String) (n : ℕ), "SELECT " ++ waitFunction family ++ "('" ++ text ++
      "', " ++ toString n ++ ");" = "SELECT " ++ waitFunction family ++ "('" ++
        (text ++ String.singleton '\'' ++ (", " ++ toString n ++ ");")) := by
    intro text n
    simp [← String.toList_inj]
  rw [htails, htails, String.append_right_inj] at heq
  have hsame := hheads (", " ++ toString timeout ++ ");") hset
  rw [heq, hheads _ hother] at hsame
  exact (Option.some.inj hsame).symm

theorem waitSql_ne_received {family : GtidWaitEngineFamily} {gtidSet sql : String}
    {timeout : ℕ} (hset : gtidSet.toList.all isGtidChar = true)
    (hsql : waitSql family gtidSet timeout = .ok sql) : sql ≠ replicationGtidReceivedSql family := by
  rw [waitSql_of_gtidText hset] at hsql
  rintro rfl
  -- The two statements differ in the first letter of the function they call.
  have hletter : ∀ {function other rest more : String}, function ≠ "" → other ≠ "" →
      function.toList.head? ≠ other.toList.head? →
      "SELECT " ++ (function ++ rest) ≠ "SELECT " ++ (other ++ more) := by
    intro function other rest more hfunction hother hne heq
    rw [String.append_right_inj] at heq
    have hnone : afterFront function (other ++ more) = none :=
      afterFront_append_of_head hfunction hother hne
    rw [← heq, afterFront_append] at hnone
    exact absurd hnone (Option.some_ne_none rest)
  have heq := Except.ok.inj hsql
  simp only [String.append_assoc] at heq
  cases family with
  | mysql =>
    simp only [replicationGtidReceivedSql, waitFunction, String.append_assoc] at heq
    exact hletter (by decide) (by decide) (by decide) heq
  | mariadb =>
    simp only [replicationGtidReceivedSql, waitFunction, String.append_assoc] at heq
    exact hletter (by decide) (by decide) (by decide) heq

/-! ## The components -/

theorem isComponentChar_of_isHex {c : Char} (h : isHex c = true) : isComponentChar c = true := by
  simp only [isHex, isComponentChar, isLower, Bool.or_eq_true, Bool.and_eq_true,
    decide_eq_true_eq] at h ⊢
  rcases h with h | ⟨hlow, hhigh⟩
  · exact .inl (.inl (.inl h))
  · exact .inl (.inl (.inr ⟨hlow, Char.le_trans hhigh (by decide)⟩))

theorem isDigit_of_mem_decimal {n : ℕ} {c : Char} (hc : c ∈ (toString n).toList) :
    isDigit c = true := by
  rw [Nat.toString_eq_ofList_toDigits, String.toList_ofList] at hc
  have hdigit := Nat.isDigit_of_mem_toDigits (by decide) (by decide) hc
  simpa [isDigit, Char.isDigit, Char.le_def] using hdigit

theorem decimal_ne_empty (n : ℕ) : toString n ≠ "" := by
  rw [Ne, ← String.toList_inj, Nat.toString_eq_ofList_toDigits, String.toList_ofList]
  exact Nat.toDigits_ne_nil

theorem isComponentChar_decimal (n : ℕ) : (toString n).toList.all isComponentChar = true := by
  rw [List.all_eq_true]
  intro c hc
  simp [isComponentChar, isDigit_of_mem_decimal hc]

theorem Uuid.chars (uuid : Uuid) : uuid.text.toList.all isComponentChar = true := by
  rw [List.all_eq_true]
  refine forall_mem_intercalate (List.all_eq_true.mp rfl) ?_
  intro group hgroup c hc
  exact isComponentChar_of_isHex (List.all_eq_true.mp (uuid.hex group hgroup) c hc)

theorem Interval.chars (interval : Interval) :
    interval.text.toList.all isComponentChar = true := by
  rw [Interval.text]
  split
  · exact isComponentChar_decimal _
  · rw [String.toList_append, String.toList_append, List.all_append, List.all_append,
      isComponentChar_decimal, isComponentChar_decimal]
    decide

theorem UuidSet.isComponent (entry : UuidSet) : IsComponent entry.text := by
  constructor
  case ne_empty =>
    have hcolon : ':' ∈ entry.text.toList := by simp [UuidSet.text]
    intro hempty
    rw [hempty] at hcolon
    exact absurd hcolon (by decide)
  case chars =>
    have hintervals : (":".intercalate (entry.intervals.map Interval.text)).toList.all
        isComponentChar = true := by
      rw [List.all_eq_true]
      refine forall_mem_intercalate (List.all_eq_true.mp rfl) (List.forall_mem_map.mpr ?_)
      intro interval _
      exact List.all_eq_true.mp interval.chars
    rw [UuidSet.text, String.toList_append, String.toList_append, List.all_append, List.all_append,
      entry.uuid.chars, hintervals]
    decide

theorem Position.isComponent (position : Position) : IsComponent position.text := by
  constructor
  case ne_empty =>
    have hdash : '-' ∈ position.text.toList := by simp [Position.text]
    intro hempty
    rw [hempty] at hdash
    exact absurd hdash (by decide)
  case chars =>
    simp only [Position.text, String.toList_append, List.all_append, isComponentChar_decimal]
    decide

theorem domainId_append {front rest : String} (hfront : '-' ∉ front.toList) :
    domainId (front ++ "-" ++ rest) = front := by
  rw [domainId]
  have hsplit : split '-' (front ++ "-" ++ rest) = front :: split '-' rest :=
    split_append_cons hfront
  rw [hsplit, List.headD_cons]

theorem Uuid.domainId_append (uuid : Uuid) (rest : String) :
    domainId (uuid.text ++ rest) = uuid.first := by
  have hdash : '-' ∉ uuid.first.toList := by
    intro hmem
    have hhex := List.all_eq_true.mp (uuid.hex _ List.mem_cons_self) _ hmem
    exact absurd hhex (by decide)
  have hrest : uuid.rest ≠ [] := by
    intro hnil
    have hlength := uuid.rest_length
    rw [hnil] at hlength
    exact absurd hlength (by decide)
  obtain ⟨second, more, hgroups⟩ := List.exists_cons_of_ne_nil hrest
  have htext : uuid.text ++ rest =
      uuid.first ++ "-" ++ ("-".intercalate (second :: more) ++ rest) := by
    rw [Uuid.text, hgroups, String.intercalate_cons_cons]
    simp only [String.append_assoc]
  rw [htext, Switchover.domainId_append hdash]

theorem Uuid.first_eq_of_text_eq {uuid other : Uuid} (h : uuid.text = other.text) :
    uuid.first = other.first := by
  rw [← uuid.domainId_append "", h, other.domainId_append]

/-- The filter sees the first group of a UUID. -/
theorem UuidSet.domainId_text (entry : UuidSet) : domainId entry.text = entry.uuid.first := by
  rw [UuidSet.text, String.append_assoc, entry.uuid.domainId_append]

/-- The filter sees the domain of a position. -/
theorem Position.domainId_text (position : Position) :
    domainId position.text = toString position.domain := by
  have hdash : '-' ∉ (toString position.domain).toList := by
    intro hmem
    exact absurd (isDigit_of_mem_decimal hmem) (by decide)
  have htext : position.text = toString position.domain ++ "-" ++
      (toString position.server ++ "-" ++ toString position.sequence) := by
    simp only [Position.text, String.append_assoc]
  rw [htext, domainId_append hdash]

/-! ## Which writes the wait covers -/

namespace SwitchoverCase

theorem isComponent_captured (switchover : SwitchoverCase) :
    ∀ part ∈ switchover.capturedParts, IsComponent part := by
  cases switchover with
  | mysql switchover => exact List.forall_mem_map.mpr fun entry _ => entry.isComponent
  | mariadb switchover => exact List.forall_mem_map.mpr fun position _ => position.isComponent

theorem isComponent_received (switchover : SwitchoverCase) :
    ∀ part ∈ switchover.receivedParts, IsComponent part := by
  cases switchover with
  | mysql switchover => exact List.forall_mem_map.mpr fun entry _ => entry.isComponent
  | mariadb switchover => exact List.forall_mem_map.mpr fun position _ => position.isComponent

theorem capturedParts_ne_nil (switchover : SwitchoverCase) : switchover.capturedParts ≠ [] := by
  cases switchover with
  | mysql switchover => exact fun h => switchover.captured_ne_nil (List.map_eq_nil_iff.mp h)
  | mariadb switchover => exact fun h => switchover.captured_ne_nil (List.map_eq_nil_iff.mp h)

theorem capturedParts_bounded (switchover : SwitchoverCase) :
    lengthInUnits (",".intercalate switchover.capturedParts) ≤ gtidMaxLength := by
  cases switchover with
  | mysql switchover => exact switchover.captured_bounded
  | mariadb switchover => exact switchover.captured_bounded

/-- What the target waits for. -/
def waited (switchover : SwitchoverCase) : List String :=
  waitParts switchover.capturedParts switchover.receivedParts

theorem isComponent_waited (switchover : SwitchoverCase) :
    ∀ part ∈ switchover.waited, IsComponent part :=
  fun part hpart => switchover.isComponent_captured part (mem_of_mem_waitParts hpart)

theorem waited_ne_nil (switchover : SwitchoverCase) : switchover.waited ≠ [] :=
  waitParts_ne_nil switchover.capturedParts_ne_nil

theorem gtidText_waited (switchover : SwitchoverCase) :
    (",".intercalate switchover.waited).toList.all isGtidChar = true :=
  List.all_eq_true.mpr fun _ hc => (gtidText_intercalate switchover.isComponent_waited hc).1

/-- The wait of the proof, in seconds. -/
def waitSeconds (timeout : Option ℕ) : ℕ := max 1 (timeout.getD switchoverGtidWaitDefaultSeconds)

theorem interpretGtidWaitResult_eq_ok_iff {code : Option String} {timeout : ℕ}
    {family : GtidWaitEngineFamily} :
    interpretGtidWaitResult code timeout family = .ok () ↔ code = some "0" := by
  unfold interpretGtidWaitResult
  constructor
  · intro hok
    split at hok
    · assumption
    · split at hok
      · cases hok
      · split at hok
        · cases hok
        · cases hok
  · intro hcode
    rw [if_pos hcode]

/-- The wait set the code computes. -/
theorem waitSet_eq (switchover : SwitchoverCase) :
    assertBoundedSwitchoverGtidSet (filterGtidSetForSwitchoverWait
        (",".intercalate switchover.capturedParts) (",".intercalate switchover.receivedParts)) =
      .ok (",".intercalate switchover.waited) := by
  rw [filterGtidSetForSwitchoverWait_intercalate switchover.isComponent_captured
    switchover.isComponent_received]
  refine assertBoundedSwitchoverGtidSet_intercalate switchover.isComponent_waited
    switchover.waited_ne_nil ?_
  exact (lengthInUnits_le_of_sublist (intercalate_sublist (waitParts_sublist _ _))).trans
    switchover.capturedParts_bounded

theorem waitForRequiredGtidSet_eq_ok_iff {runScalarQuery : String → Except String String}
    {raw gtidSet : String} (hset : assertBoundedSwitchoverGtidSet raw = .ok gtidSet)
    {timeout : ℕ} {family : GtidWaitEngineFamily} :
    waitForRequiredGtidSet runScalarQuery raw timeout family = .ok () ↔
      ∃ sql out, waitSql family gtidSet (max 1 timeout) = .ok sql ∧
        runScalarQuery sql = .ok out ∧ parseGtidWaitScalar out = some "0" := by
  rw [waitForRequiredGtidSet]
  constructor
  · intro hok
    obtain ⟨checked, hchecked, hok⟩ := Programs.bind_eq_ok_iff.mp hok
    obtain rfl := Except.ok.inj (hset.symm.trans hchecked)
    obtain ⟨sql, hsql, hok⟩ := Programs.bind_eq_ok_iff.mp hok
    obtain ⟨out, hout, hok⟩ := Programs.bind_eq_ok_iff.mp hok
    exact ⟨sql, out, hsql, hout, interpretGtidWaitResult_eq_ok_iff.mp hok⟩
  · rintro ⟨sql, out, hsql, hout, hcode⟩
    refine Programs.bind_eq_ok_iff.mpr ⟨gtidSet, hset, ?_⟩
    refine Programs.bind_eq_ok_iff.mpr ⟨sql, hsql, ?_⟩
    exact Programs.bind_eq_ok_iff.mpr ⟨out, hout, interpretGtidWaitResult_eq_ok_iff.mpr hcode⟩

/-- When the proof resolves: the engine is found, prints what it received and answers the wait
with 0. -/
theorem prove_eq_ok_iff (switchover : SwitchoverCase) (timeout : Option ℕ) (host : Host)
    (hprints : ∀ out, host.runQuery (replicationGtidReceivedSql switchover.family) = .ok out →
      trim out = ",".intercalate switchover.receivedParts) :
    proveSwitchoverGtidBeforePromote (switchover.params timeout) host = .ok () ↔
      host.resolveLocalReplicationEngine = .ok () ∧
        (∃ out, host.runQuery (replicationGtidReceivedSql switchover.family) = .ok out) ∧
        ∃ sql out, waitSql switchover.family (",".intercalate switchover.waited)
            (waitSeconds timeout) = .ok sql ∧
          host.runQuery sql = .ok out ∧ parseGtidWaitScalar out = some "0" := by
  have hfamily : familyOf ((switchover.params timeout).engine.getD .postgres) =
      some switchover.family := by
    cases switchover with
    | mysql switchover => rfl
    | mariadb switchover => rfl
  rw [proveSwitchoverGtidBeforePromote, hfamily]
  constructor
  · intro hok
    obtain ⟨⟨⟩, hresolve, hok⟩ := Programs.bind_eq_ok_iff.mp hok
    obtain ⟨received, hreceived, hok⟩ := Programs.bind_eq_ok_iff.mp hok
    rw [hprints received hreceived] at hok
    exact ⟨hresolve, ⟨received, hreceived⟩,
      (waitForRequiredGtidSet_eq_ok_iff (waitSet_eq switchover)).mp hok⟩
  · rintro ⟨hresolve, ⟨received, hreceived⟩, hwait⟩
    refine Programs.bind_eq_ok_iff.mpr ⟨(), hresolve, ?_⟩
    refine Programs.bind_eq_ok_iff.mpr ⟨received, hreceived, ?_⟩
    rw [hprints received hreceived]
    exact (waitForRequiredGtidSet_eq_ok_iff (waitSet_eq switchover)).mpr hwait

/-- The wait covers a captured component of domain 0, one whose first field the target received
and, where nothing is kept, every component. -/
theorem mem_waited_iff (switchover : SwitchoverCase) {part : String}
    (hpart : part ∈ switchover.capturedParts) :
    part ∈ switchover.waited ↔ domainId part = "0" ∨
      domainId part ∈ switchover.receivedParts.map domainId ∨
      ∀ other ∈ switchover.capturedParts, domainId other ≠ "0" ∧
        domainId other ∉ switchover.receivedParts.map domainId := by
  have hkept : ∀ other, other ∈ keptParts switchover.capturedParts
      (switchover.receivedParts.map domainId) ↔ other ∈ switchover.capturedParts ∧
        (domainId other = "0" ∨ domainId other ∈ switchover.receivedParts.map domainId) := by
    intro other
    rw [keptParts, List.mem_filter, Bool.or_eq_true, decide_eq_true_eq, List.contains_iff_mem]
  rw [waited, waitParts]
  split
  · rename_i hnil
    refine iff_of_true hpart (.inr (.inr ?_))
    intro other hother
    have hnot : other ∉ keptParts switchover.capturedParts
        (switchover.receivedParts.map domainId) := by
      rw [hnil]
      exact List.not_mem_nil
    rw [hkept] at hnot
    exact ⟨fun h => hnot ⟨hother, .inl h⟩, fun h => hnot ⟨hother, .inr h⟩⟩
  · rename_i hne
    rw [hkept]
    constructor
    · rintro ⟨-, hzero | hreceived⟩
      · exact .inl hzero
      · exact .inr (.inl hreceived)
    · rintro (hzero | hreceived | hnone)
      · exact ⟨hpart, .inl hzero⟩
      · exact ⟨hpart, .inr hreceived⟩
      · obtain ⟨other, hother⟩ := List.exists_mem_of_ne_nil _ hne
        obtain ⟨hother, hzero | hreceived⟩ := (hkept other).mp hother
        · exact absurd hzero (hnone other hother).1
        · exact absurd hreceived (hnone other hother).2

/-- The target has applied what the wait names. -/
theorem applied_of_mem_waited (switchover : SwitchoverCase) {timeout : Option ℕ} {target : Target}
    (hhonours : target.Honours switchover.family (",".intercalate switchover.receivedParts))
    (hresolves : proveSwitchoverGtidBeforePromote (switchover.params timeout) target.toHost = .ok ())
    {transaction : Transaction}
    (hnames : Names switchover.family (",".intercalate switchover.waited) transaction) :
    target.applied transaction := by
  obtain ⟨-, -, sql, out, hsql, hout, hcode⟩ :=
    (switchover.prove_eq_ok_iff timeout target.toHost hhonours.prints).mp hresolves
  exact hhonours.waits _ _ sql out switchover.gtidText_waited hsql hout hcode transaction hnames

/-- A target that has applied exactly what it is asked to wait for. -/
def eagerTarget (switchover : SwitchoverCase) (timeout : Option ℕ) : Target where
  resolveLocalReplicationEngine := .ok ()
  runQuery sql :=
    if sql = replicationGtidReceivedSql switchover.family then
      .ok (",".intercalate switchover.receivedParts)
    else if waitSql switchover.family (",".intercalate switchover.waited) (waitSeconds timeout) =
      .ok sql then .ok "0"
    else .ok "1"
  applied := Names switchover.family (",".intercalate switchover.waited)

theorem eagerTarget_runQuery (switchover : SwitchoverCase) (timeout : Option ℕ) (sql : String) :
    (switchover.eagerTarget timeout).runQuery sql =
      if sql = replicationGtidReceivedSql switchover.family then
        .ok (",".intercalate switchover.receivedParts)
      else if waitSql switchover.family (",".intercalate switchover.waited) (waitSeconds timeout) =
        .ok sql then .ok "0"
      else .ok "1" := rfl

theorem eagerTarget_honours (switchover : SwitchoverCase) (timeout : Option ℕ) :
    (switchover.eagerTarget timeout).Honours switchover.family
      (",".intercalate switchover.receivedParts) := by
  constructor
  case prints =>
    intro out hout
    rw [eagerTarget_runQuery, if_pos rfl] at hout
    rw [← Except.ok.inj hout]
    exact trim_of_forall fun c hc => (gtidText_intercalate switchover.isComponent_received hc).2
  case waits =>
    intro gtidSet timeout' sql out hgtid hsql hout hcode transaction hnames
    rw [eagerTarget_runQuery, if_neg (waitSql_ne_received hgtid hsql)] at hout
    split at hout
    · rename_i hwait
      rw [waitSql_inj hgtid switchover.gtidText_waited hsql hwait] at hnames
      exact hnames
    · rw [← Except.ok.inj hout] at hcode
      exact absurd hcode (by decide)

theorem eagerTarget_resolves (switchover : SwitchoverCase) (timeout : Option ℕ) :
    proveSwitchoverGtidBeforePromote (switchover.params timeout)
      (switchover.eagerTarget timeout).toHost = .ok () := by
  rw [switchover.prove_eq_ok_iff timeout _ (switchover.eagerTarget_honours timeout).prints]
  have hsql := waitSql_of_gtidText switchover.gtidText_waited switchover.family
    (waitSeconds timeout)
  refine ⟨rfl, ⟨_, if_pos rfl⟩, _, "0", hsql, ?_, by decide⟩
  rw [eagerTarget_runQuery, if_neg (waitSql_ne_received switchover.gtidText_waited hsql), if_pos hsql]

/-- Only the names in the wait set count: the proof establishes the old primary's writes exactly
when the wait names them all. -/
theorem ownWritesApplied_iff (switchover : SwitchoverCase) (timeout : Option ℕ) :
    switchover.OwnWritesApplied timeout ↔ ∀ transaction, switchover.Wrote transaction →
      Names switchover.family (",".intercalate switchover.waited) transaction := by
  constructor
  · intro happlied
    exact happlied _ (switchover.eagerTarget_honours timeout)
      (switchover.eagerTarget_resolves timeout)
  · intro hnames target hhonours hresolves transaction hwrote
    exact switchover.applied_of_mem_waited hhonours hresolves (hnames transaction hwrote)

/-- A switchover of MariaDB waits for everything the old primary wrote. -/
theorem names_mariadb (switchover : MariadbSwitchover) {domain sequence : ℕ}
    (hwrote : switchover.wrote domain sequence) :
    Names .mariadb (",".intercalate (mariadb switchover).waited) (.mariadb domain sequence) := by
  obtain ⟨position, hcaptured, rfl, hsequence⟩ := switchover.wrote_captured domain sequence hwrote
  refine ⟨position, ?_, rfl, hsequence⟩
  rw [split_components (isComponent_waited _) (waited_ne_nil _), mem_waited_iff _
    (List.mem_map_of_mem hcaptured)]
  rcases switchover.wrote_replicated _ _ hwrote with hzero | ⟨other, hother, hdomain⟩
  · refine .inl ?_
    rw [position.domainId_text, hzero]
    decide
  · refine .inr (.inl ?_)
    rw [position.domainId_text, ← hdomain, ← other.domainId_text]
    exact List.mem_map_of_mem (List.mem_map_of_mem hother)

/-- A MySQL component is in the wait set when the target received a UUID with its first group,
or nothing with the first group of a captured one. -/
theorem mem_waited_mysql_iff (switchover : MysqlSwitchover) {entry : UuidSet}
    (hentry : entry ∈ switchover.captured) :
    entry.text ∈ (mysql switchover).waited ↔
      (∃ other ∈ switchover.received, other.uuid.first = entry.uuid.first) ∨
        ∀ own ∈ switchover.captured, ∀ other ∈ switchover.received,
          own.uuid.first ≠ other.uuid.first := by
  have hzero : ∀ uuid : Uuid, uuid.first ≠ "0" := by
    intro uuid hzero
    have hlength := uuid.first_length
    rw [hzero] at hlength
    exact absurd hlength (by decide)
  have hreceived : ∀ group, group ∈ (mysql switchover).receivedParts.map domainId ↔
      ∃ other ∈ switchover.received, other.uuid.first = group := by
    intro group
    simp only [receivedParts, List.map_map, List.mem_map, Function.comp_apply,
      UuidSet.domainId_text]
  rw [mem_waited_iff _ (List.mem_map_of_mem hentry), entry.domainId_text, hreceived]
  constructor
  · rintro (h | h | h)
    · exact absurd h (hzero _)
    · exact .inl h
    · refine .inr ?_
      intro own hown other hother heq
      have hnone := (h own.text (List.mem_map_of_mem hown)).2
      rw [own.domainId_text, hreceived] at hnone
      exact hnone ⟨other, hother, heq.symm⟩
  · rintro (h | h)
    · exact .inr (.inl h)
    · refine .inr (.inr (List.forall_mem_map.mpr ?_))
      intro own hown
      rw [own.domainId_text, hreceived]
      refine ⟨hzero _, ?_⟩
      rintro ⟨other, hother, heq⟩
      exact h own hown other hother heq.symm

theorem names_mysql_iff (switchover : MysqlSwitchover) :
    (∀ transaction, (mysql switchover).Wrote transaction →
      Names .mysql (",".intercalate (mysql switchover).waited) transaction) ↔
      (mysql switchover).OldPrimaryHeard := by
  rw [OldPrimaryHeard]
  constructor
  · intro hnames
    by_cases hown : ∃ entry ∈ switchover.captured, entry.uuid.text = switchover.oldPrimary.text
    · obtain ⟨entry, hentry, htext⟩ := hown
      refine .inr ?_
      obtain ⟨interval, hinterval⟩ := List.exists_mem_of_ne_nil _ entry.nonempty
      -- One of the old primary's own transactions is named by a component of the wait set.
      obtain ⟨named, hnamed, huuid, -⟩ := hnames (.mysql entry.uuid.text interval.start)
        ⟨htext, entry, hentry, rfl, interval, hinterval, le_rfl, interval.ordered⟩
      rw [split_components (isComponent_waited _) (waited_ne_nil _)] at hnamed
      obtain ⟨same, hsame, htextSame⟩ := List.mem_map.mp (mem_of_mem_waitParts hnamed)
      rw [← htextSame, mem_waited_mysql_iff switchover hsame] at hnamed
      have hfirst : same.uuid.first = switchover.oldPrimary.first := by
        rw [← same.domainId_text, htextSame, named.domainId_text]
        exact Uuid.first_eq_of_text_eq (huuid.trans htext)
      rwa [hfirst] at hnamed
    · refine .inl ?_
      intro entry hentry htext
      exact hown ⟨entry, hentry, htext⟩
  · intro hheard transaction hwrote
    cases transaction with
    | mariadb domain sequence => exact hwrote.elim
    | mysql uuid number =>
      obtain ⟨rfl, entry, hentry, htext, hnumber⟩ := hwrote
      refine ⟨entry, ?_, htext, hnumber⟩
      rw [split_components (isComponent_waited _) (waited_ne_nil _),
        mem_waited_mysql_iff switchover hentry, Uuid.first_eq_of_text_eq htext]
      rcases hheard with hnone | hheard
      · exact absurd htext (hnone entry hentry)
      · exact hheard

end SwitchoverCase

/-- For every captured set and every received set: the proof establishes, whatever the target
answers, that everything the old primary wrote is applied on the target if and only if the
filter has heard of the old primary. -/
theorem ownWritesApplied_iff_oldPrimaryHeard (switchover : SwitchoverCase) (timeout : Option ℕ) :
    switchover.OwnWritesApplied timeout ↔ switchover.OldPrimaryHeard := by
  rw [switchover.ownWritesApplied_iff]
  cases switchover with
  | mysql switchover => exact SwitchoverCase.names_mysql_iff switchover
  | mariadb switchover =>
    refine iff_of_true ?_ trivial
    intro transaction hwrote
    cases transaction with
    | mysql uuid number => exact hwrote.elim
    | mariadb domain sequence => exact SwitchoverCase.names_mariadb switchover hwrote

/-- The UUID of the old primary. -/
def uuidW : Uuid where
  first := "aaaaaaaa"
  rest := ["1111", "1111", "1111", "aaaaaaaaaaaa"]
  first_length := by decide
  rest_length := by decide
  hex := by decide

/-- The UUID of the primary before it. -/
def uuidX : Uuid where
  first := "bbbbbbbb"
  rest := ["2222", "2222", "2222", "bbbbbbbbbbbb"]
  first_length := by decide
  rest_length := by decide
  hex := by decide

/-- The old primary wrote nine transactions after the four of its predecessor; the target has
three of the predecessor's. -/
def unheardSwitchover : MysqlSwitchover where
  oldPrimary := uuidW
  captured := [⟨uuidW, [⟨1, 9, by decide⟩], by decide⟩, ⟨uuidX, [⟨1, 4, by decide⟩], by decide⟩]
  received := [⟨uuidX, [⟨1, 3, by decide⟩], by decide⟩]
  captured_ne_nil := by decide
  captured_bounded := by decide

/-- The proof resolves although the target has none of the old primary's writes. -/
theorem unheard_not_ownWritesApplied :
    ¬(SwitchoverCase.mysql unheardSwitchover).OwnWritesApplied none := by
  intro happlied
  have hheard := (SwitchoverCase.names_mysql_iff unheardSwitchover).mp
    ((SwitchoverCase.ownWritesApplied_iff _ none).mp happlied)
  rcases hheard with hnone | ⟨entry, hentry, hfirst⟩ | hnone
  · exact hnone _ List.mem_cons_self rfl
  · rw [List.mem_singleton.mp hentry] at hfirst
    exact absurd hfirst (by decide)
  · exact hnone _ (List.mem_cons_of_mem _ List.mem_cons_self) _ List.mem_cons_self rfl

end Turbopaneld.Managed.Switchover
