/-
# The remembering walk and plain resolution agree

The walk over the links' texts shares results, hop counts and the marks of links
in progress between all links of a release.  Between two rounds of its loop every
frame on the stack is tied to plain resolution: the innermost stands where its
link's chain passes, and every other waits for the link of the frame inside it.
What is remembered of a link is what plain resolution gives for it, and the steps
left and the components still to be taken fall together.
-/

import Mathlib.Algebra.BigOperators.Group.Finset.Basic
import Turbopaneld.Deploy.ReleaseLinks

namespace Turbopaneld.Deploy

open JavaScript (startsWith)

section

variable {texts : Place → Option String}

variable (texts) in
/-- The frame stands where its link's chain passes: what is left of its text decides
where the link ends. -/
def Standing (frame : Frame) : Prop :=
  frame.hops ≤ maxLinkHops ∧
    ∀ place hops, Target texts frame.link place hops ↔
      ∃ more, Ends texts frame.at_ frame.parts place more ∧ hops = frame.hops + more

variable (texts) in
/-- The frame waits for a link it named: where that link ends, what is left of the frame's
text goes on. -/
def Waiting (frame : Frame) (link : Place) : Prop :=
  frame.hops < maxLinkHops ∧
    ∀ place hops, Target texts frame.link place hops ↔
      ∃ mid first second, Target texts link mid first ∧ Ends texts mid frame.parts place second ∧
        hops = frame.hops + (first + 1 + second)

variable (texts) in
/-- Every frame of the stack waits for the link of the frame inside it, and the outermost
link is the one the resolution started from. -/
def Chain (start : Place) : Place → List Frame → Prop
  | link, [] => link = start
  | link, frame :: outer => Waiting texts frame link ∧ Chain start frame.link outer

variable (texts) in
/-- A result is what plain resolution of the link gives. -/
def RightFor (link : Place) (result : Result) : Prop := result.toOption = resolution texts link

variable (texts) in
/-- What the nodes remember while the links given are on the stack. -/
structure Remembers (marks : Marks) (onStack : List Place) : Prop where
  known : ∀ link result, marks.result link = some result → RightFor texts link result
  marked : ∀ link, marks.resolving link = true ↔ link ∈ onStack
  distinct : onStack.Nodup
  unknown : ∀ link ∈ onStack, marks.result link = none

variable (texts) in
/-- Where a walk is: its innermost frame stands, or a result was just produced that the
innermost frame waits for. -/
def Walking (start : Place) (walk : Walk) : Prop :=
  match walk.returned with
  | none => ∃ frame outer, walk.stack = frame :: outer ∧ Standing texts frame ∧
      Chain texts start frame.link outer
  | some result => ∃ link, RightFor texts link result ∧ Chain texts start link walk.stack

variable (texts) in
/-- What holds between two rounds of the loop. -/
structure Sound (start : Place) (s : Resolving) : Prop where
  remembers : Remembers texts s.1 (s.2.stack.map Frame.link)
  walking : Walking texts start s.2

/-! ## Each link of the stack follows fewer links than the links outside it -/

/-- A link outside on the stack ends only if the innermost does, following fewer links. -/
theorem Chain.inner {start inner : Place} {stack : List Frame} (hchain : Chain texts start inner stack)
    {outer : Place} (houter : outer ∈ stack.map Frame.link) {place : Place} {hops : ℕ}
    (htarget : Target texts outer place hops) :
    ∃ place' hops', Target texts inner place' hops' ∧ hops' < hops := by
  induction stack generalizing inner with
  | nil => simp at houter
  | cons frame stack ih =>
    obtain ⟨hwaiting, hrest⟩ := hchain
    have hhere : ∀ place hops, Target texts frame.link place hops →
        ∃ place' hops', Target texts inner place' hops' ∧ hops' < hops := by
      intro place hops hframe
      obtain ⟨mid, first, second, hinner, -, rfl⟩ := (hwaiting.2 place hops).mp hframe
      exact ⟨mid, first, hinner, by omega⟩
    rw [List.map_cons, List.mem_cons] at houter
    obtain rfl | houter := houter
    · exact hhere place hops htarget
    · obtain ⟨place', hops', hframe, hless⟩ := ih hrest houter
      obtain ⟨place'', hops'', hinner, hless'⟩ := hhere place' hops' hframe
      exact ⟨place'', hops'', hinner, hless'.trans hless⟩

/-! ## What each operation of the walk keeps -/

theorem RightFor.refused {link : Place} (why : Why)
    (hrefused : ∀ place hops, Target texts link place hops → maxLinkHops < hops) :
    RightFor texts link (.error why) := by
  rw [RightFor, resolution_eq_none_iff.mpr hrefused]
  rfl

theorem Remembers.finish {marks : Marks} {link : Place} {outer : List Place} {result : Result}
    (h : Remembers texts marks (link :: outer)) (hright : RightFor texts link result) :
    Remembers texts
      { result := Function.update marks.result link (some result)
        resolving := Function.update marks.resolving link false } outer := by
  obtain ⟨hnew, hdistinct⟩ := List.nodup_cons.mp h.distinct
  constructor
  case known =>
    intro other known hknown
    by_cases hother : other = link
    · subst hother
      simp only [Function.update_self] at hknown
      obtain rfl := Option.some.inj hknown
      exact hright
    · simp only [Function.update_of_ne hother] at hknown
      exact h.known other known hknown
  case marked =>
    intro other
    by_cases hother : other = link
    · subst hother
      simp [hnew]
    · simp only [Function.update_of_ne hother, h.marked, List.mem_cons, hother, false_or]
  case distinct => exact hdistinct
  case unknown =>
    intro other hother
    have hne : other ≠ link := fun heq => hnew (heq ▸ hother)
    simp only [Function.update_of_ne hne]
    exact h.unknown other (List.mem_cons_of_mem _ hother)

theorem Remembers.enter {marks : Marks} {link : Place} {outer : List Place}
    (h : Remembers texts marks outer) (hfresh : marks.resolving link = false)
    (hunknown : marks.result link = none) :
    Remembers texts { marks with resolving := Function.update marks.resolving link true }
      (link :: outer) := by
  have hnew : link ∉ outer := by
    rw [← h.marked, hfresh]
    exact Bool.false_ne_true
  constructor
  case known => exact h.known
  case marked =>
    intro other
    by_cases hother : other = link
    · subst hother
      simp
    · simp only [Function.update_of_ne hother, h.marked, List.mem_cons, hother, false_or]
  case distinct => exact List.nodup_cons.mpr ⟨hnew, h.distinct⟩
  case unknown =>
    intro other hother
    obtain rfl | hother := List.mem_cons.mp hother
    · exact hunknown
    · exact h.unknown other hother

/-- The link is on the stack or its result is known. -/
def Entered (marks : Marks) (link : Place) : Prop :=
  marks.result link ≠ none ∨ marks.resolving link = true

theorem entered_finish {marks : Marks} {link : Place} {result : Result} {other : Place}
    (hentered : Entered marks other) :
    Entered
      { result := Function.update marks.result link (some result)
        resolving := Function.update marks.resolving link false } other := by
  by_cases hother : other = link
  · subst hother
    simp [Entered]
  · simpa only [Entered, Function.update_of_ne hother] using hentered

theorem entered_enter {marks : Marks} {link other : Place} (hentered : Entered marks other) :
    Entered { marks with resolving := Function.update marks.resolving link true } other := by
  by_cases hother : other = link
  · subst hother
    simp [Entered]
  · simpa only [Entered, Function.update_of_ne hother] using hentered

/-! ## The components still to be taken -/

variable (texts) in
/-- The components a frame still takes once the link it waits for has been resolved. -/
def owedWith (frame : Frame) : Option Resolved → ℕ
  | none => 0
  | some sub =>
    if maxLinkHops < frame.hops + 1 + sub.hops then 0
    else taken texts sub.at_ (frame.hops + 1 + sub.hops) frame.parts

variable (texts) in
/-- The components the frames outside a link still take. -/
def owedOutside : Place → List Frame → ℕ
  | _, [] => 0
  | link, frame :: outer =>
    owedWith texts frame (resolution texts link) + owedOutside frame.link outer

variable (texts) in
/-- The components the frames of a walk still take. -/
def owed (walk : Walk) : ℕ :=
  match walk.stack with
  | [] => 0
  | frame :: outer =>
    (match walk.returned with
      | none => taken texts frame.at_ frame.hops frame.parts
      | some result => owedWith texts frame result.toOption) +
      owedOutside texts frame.link outer

variable (texts) in
/-- The components the links not yet entered take. -/
def pending (places : Finset Place) (marks : Marks) : ℕ :=
  ∑ place ∈ places with marks.result place = none ∧ marks.resolving place = false,
    stepsOf texts place

variable (texts) in
/-- The components still to be taken for all the links. -/
def debt (places : Finset Place) (s : Resolving) : ℕ := owed texts s.2 + pending texts places s.1

theorem owedOutside_eq {link : Place} {result : Result} (hright : RightFor texts link result)
    (outer : List Frame) :
    owed texts { stack := outer, returned := some result } = owedOutside texts link outer := by
  cases outer with
  | nil => rfl
  | cons frame outer => rw [owed, owedOutside, ← hright]

/-- A link on the stack is not pending, nor is it once it has a result. -/
theorem pending_finish {places : Finset Place} {marks : Marks} {link : Place} {result : Result}
    (hmarked : marks.resolving link = true) :
    pending texts places
      { result := Function.update marks.result link (some result)
        resolving := Function.update marks.resolving link false } = pending texts places marks := by
  rw [pending, pending]
  congr 1
  apply Finset.filter_congr
  intro place _
  by_cases hplace : place = link
  · subst hplace
    simp [hmarked]
  · simp only [Function.update_of_ne hplace]

/-- A link that is entered is no longer pending. -/
theorem pending_enter {places : Finset Place} {marks : Marks} {link : Place}
    (hplace : link ∈ places) (hfresh : marks.resolving link = false)
    (hunknown : marks.result link = none) :
    pending texts places marks = stepsOf texts link +
      pending texts places
        { marks with resolving := Function.update marks.resolving link true } := by
  rw [pending, pending, ← Finset.add_sum_erase _ _ (Finset.mem_filter.mpr ⟨hplace, hunknown, hfresh⟩)]
  congr 2
  ext place
  by_cases hne : place = link
  · subst hne
    simp
  · simp [hne]

variable {start : Place} {s : Resolving} {frame : Frame} {outer : List Frame}
  {places : Finset Place}

theorem sound_finishFrame {result : Result} (hstack : s.2.stack = frame :: outer)
    (hremembers : Remembers texts s.1 (s.2.stack.map Frame.link))
    (hchain : Chain texts start frame.link outer) (hright : RightFor texts frame.link result) :
    Sound texts start (finishFrame s frame result) := by
  rw [hstack] at hremembers
  constructor
  · rw [finishFrame, hstack]
    exact hremembers.finish hright
  · rw [finishFrame, Walking, hstack]
    exact ⟨frame.link, hright, hchain⟩

theorem debt_finishFrame {result : Result} (hstack : s.2.stack = frame :: outer)
    (hremembers : Remembers texts s.1 (s.2.stack.map Frame.link))
    (hright : RightFor texts frame.link result) :
    debt texts places (finishFrame s frame result) =
      owedOutside texts frame.link outer + pending texts places s.1 := by
  have hmarked : s.1.resolving frame.link = true := by
    rw [hremembers.marked, hstack]
    exact List.mem_cons_self
  rw [debt, finishFrame, pending_finish hmarked, hstack, List.tail_cons, owedOutside_eq hright]

theorem sound_setFrame {frame' : Frame} (hstack : s.2.stack = frame :: outer)
    (hreturned : s.2.returned = none) (hremembers : Remembers texts s.1 (s.2.stack.map Frame.link))
    (hchain : Chain texts start frame.link outer) (hlink : frame'.link = frame.link)
    (hstanding : Standing texts frame') : Sound texts start (setFrame s frame') := by
  rw [hstack] at hremembers
  constructor
  · rw [setFrame, hstack, List.tail_cons, List.map_cons, hlink]
    exact hremembers
  · rw [setFrame, Walking, hstack, hreturned]
    refine ⟨frame', outer, rfl, hstanding, ?_⟩
    rw [hlink]
    exact hchain

theorem debt_setFrame {frame' : Frame} (hstack : s.2.stack = frame :: outer)
    (hreturned : s.2.returned = none) (hlink : frame'.link = frame.link) :
    debt texts places (setFrame s frame') =
      taken texts frame'.at_ frame'.hops frame'.parts + owedOutside texts frame.link outer +
        pending texts places s.1 := by
  rw [debt, setFrame, owed, hreturned, hstack, List.tail_cons]
  simp only [hlink]

theorem standing_entered {link : Place} {text : String} (htext : texts link = some text)
    (hrelative : startsWith text "/" = false) :
    Standing texts { link := link, at_ := link.dropLast, parts := segments text, hops := 0 } := by
  refine ⟨Nat.zero_le _, fun place hops => ?_⟩
  simp [Target, htext, hrelative]

theorem sound_enterLink {link : Place} {text : String} (hstack : s.2.stack = frame :: outer)
    (hreturned : s.2.returned = none) (hremembers : Remembers texts s.1 (s.2.stack.map Frame.link))
    (hchain : Chain texts start frame.link outer) (hwaiting : Waiting texts frame link)
    (htext : texts link = some text) (hrelative : startsWith text "/" = false)
    (hfresh : s.1.resolving link = false) (hunknown : s.1.result link = none) :
    Sound texts start (enterLink s link text) := by
  constructor
  · exact hremembers.enter hfresh hunknown
  · rw [enterLink, Walking, hreturned, hstack]
    exact ⟨_, _, rfl, standing_entered htext hrelative, hwaiting, hchain⟩

theorem debt_enterLink {link : Place} {text : String} (hreturned : s.2.returned = none)
    (hplace : link ∈ places) (htext : texts link = some text)
    (hrelative : startsWith text "/" = false) (hfresh : s.1.resolving link = false)
    (hunknown : s.1.result link = none) :
    debt texts places (enterLink s link text) =
      owedOutside texts link s.2.stack + pending texts places s.1 := by
  have hsteps : stepsOf texts link = taken texts link.dropLast 0 (segments text) := by
    simp [stepsOf, htext, hrelative]
  rw [debt, enterLink, owed, hreturned, pending_enter hplace hfresh hunknown, hsteps]
  simp only
  omega

/-! ## What each round keeps -/

variable (texts) in
/-- A round of the loop: what holds between rounds holds again, no link is forgotten, the
steps left and the components still to be taken fall together, and fewer rounds are
needed. -/
structure Round (places : Finset Place) (start : Place) (steps : ℕ) (s : Resolving) (steps' : ℕ)
    (s' : Resolving) : Prop where
  sound : Sound texts start s'
  keeps : ∀ link, Entered s.1 link → Entered s'.1 link
  ledger : steps + debt texts places s' = steps' + debt texts places s
  fewer : roundsFor steps' s'.2 < roundsFor steps s.2

theorem debt_standing (hstack : s.2.stack = frame :: outer) (hreturned : s.2.returned = none) :
    debt texts places s =
      taken texts frame.at_ frame.hops frame.parts + owedOutside texts frame.link outer +
        pending texts places s.1 := by
  rw [debt, owed, hstack, hreturned]

theorem debt_returned {sub : Result} (hstack : s.2.stack = frame :: outer)
    (hreturned : s.2.returned = some sub) :
    debt texts places s =
      owedWith texts frame sub.toOption + owedOutside texts frame.link outer +
        pending texts places s.1 := by
  rw [debt, owed, hstack, hreturned]

theorem Sound.standing (hsound : Sound texts start s) (hstack : s.2.stack = frame :: outer)
    (hreturned : s.2.returned = none) :
    Standing texts frame ∧ Chain texts start frame.link outer := by
  have hwalking := hsound.walking
  rw [Walking, hreturned] at hwalking
  obtain ⟨frame', outer', hstack', hstanding, hchain⟩ := hwalking
  rw [hstack, List.cons.injEq] at hstack'
  obtain ⟨rfl, rfl⟩ := hstack'
  exact ⟨hstanding, hchain⟩

theorem Sound.returned {sub : Result} (hsound : Sound texts start s)
    (hstack : s.2.stack = frame :: outer) (hreturned : s.2.returned = some sub) :
    ∃ link, RightFor texts link sub ∧ Waiting texts frame link ∧
      Chain texts start frame.link outer := by
  have hwalking := hsound.walking
  rw [Walking, hreturned, hstack] at hwalking
  exact hwalking

/-- The text of the innermost frame is used up. -/
theorem round_finished (steps : ℕ) (hsound : Sound texts start s)
    (hstack : s.2.stack = frame :: outer) (hreturned : s.2.returned = none)
    (hparts : frame.parts = []) :
    Round texts places start steps s steps (finishFrame s frame (.ok ⟨frame.at_, frame.hops⟩)) := by
  obtain ⟨⟨hfew, hstanding⟩, hchain⟩ := hsound.standing hstack hreturned
  have hright : RightFor texts frame.link (.ok ⟨frame.at_, frame.hops⟩) := by
    rw [RightFor, eq_comm, Except.toOption, resolution_eq_some_iff, hstanding]
    refine ⟨hfew, 0, ?_, rfl⟩
    rw [hparts]
    exact .done _
  constructor
  case sound => exact sound_finishFrame hstack hsound.remembers hchain hright
  case keeps => exact fun _ => entered_finish
  case ledger =>
    rw [debt_finishFrame hstack hsound.remembers hright, debt_standing hstack hreturned, hparts,
      taken, Nat.zero_add]
  case fewer =>
    simp only [roundsFor, finishFrame, hstack, hreturned, List.tail_cons, List.length_cons,
      Option.isSome]
    simp
    omega

variable {t : Resolving} {steps steps' : ℕ}

/-- A round that ends with the innermost link refused. -/
theorem round_refused (why : Why) (hmarks : t.1 = s.1) (hstack : t.2.stack = frame :: outer)
    (hremembers : Remembers texts t.1 (t.2.stack.map Frame.link))
    (hchain : Chain texts start frame.link outer)
    (hrefused : ∀ place hops, Target texts frame.link place hops → maxLinkHops < hops)
    (hledger : steps + (owedOutside texts frame.link outer + pending texts places t.1) =
      steps' + debt texts places s)
    (hfewer : 3 * steps' + 2 * outer.length + 1 < roundsFor steps s.2) :
    Round texts places start steps s steps' (finishFrame t frame (.error why)) := by
  constructor
  case sound => exact sound_finishFrame hstack hremembers hchain (.refused why hrefused)
  case keeps =>
    intro link hentered
    rw [← hmarks] at hentered
    exact entered_finish hentered
  case ledger =>
    rw [debt_finishFrame hstack hremembers (.refused why hrefused)]
    exact hledger
  case fewer =>
    rw [roundsFor, finishFrame, hstack]
    exact hfewer

/-- A round that ends with the innermost frame at another place. -/
theorem round_setFrame {frame' : Frame} (hmarks : t.1 = s.1) (hstack : t.2.stack = frame :: outer)
    (hreturned : t.2.returned = none) (hremembers : Remembers texts t.1 (t.2.stack.map Frame.link))
    (hchain : Chain texts start frame.link outer) (hlink : frame'.link = frame.link)
    (hstanding : Standing texts frame')
    (hledger : steps + (taken texts frame'.at_ frame'.hops frame'.parts +
        owedOutside texts frame.link outer + pending texts places t.1) =
      steps' + debt texts places s)
    (hfewer : 3 * steps' + 2 * (outer.length + 1) < roundsFor steps s.2) :
    Round texts places start steps s steps' (setFrame t frame') := by
  constructor
  case sound => exact sound_setFrame hstack hreturned hremembers hchain hlink hstanding
  case keeps =>
    intro link hentered
    rw [← hmarks] at hentered
    exact hentered
  case ledger =>
    rw [debt_setFrame hstack hreturned hlink]
    exact hledger
  case fewer =>
    rw [roundsFor, setFrame, hreturned, hstack]
    exact hfewer

/-- The innermost frame takes up the result it waited for. -/
theorem round_absorbReturned {sub : Result} (hsound : Sound texts start s)
    (hstack : s.2.stack = frame :: outer) (hreturned : s.2.returned = some sub) :
    Round texts places start steps s steps (absorbReturned s frame sub) := by
  obtain ⟨link, hright, ⟨hfew, hwaiting⟩, hchain⟩ := hsound.returned hstack hreturned
  have hrounds : roundsFor steps s.2 = 3 * steps + 2 * (outer.length + 1) + 1 := by
    rw [roundsFor, hstack, hreturned]
    rfl
  rw [RightFor] at hright
  cases sub with
  | error why =>
    apply round_refused why rfl hstack hsound.remembers hchain
    · intro place hops htarget
      obtain ⟨mid, first, second, hlink, -, rfl⟩ := (hwaiting place hops).mp htarget
      have hmany := resolution_eq_none_iff.mp hright.symm mid first hlink
      omega
    · rw [debt_returned hstack hreturned]
      simp [owedWith, Except.toOption]
    · omega
  | ok sub =>
    obtain ⟨hops, htarget⟩ := resolution_eq_some_iff.mp hright.symm
    rw [absorbReturned]
    simp only
    split
    · rename_i hmany
      apply round_refused .loops rfl hstack hsound.remembers hchain
      · intro place hops htarget'
        obtain ⟨mid, first, second, hlink, -, rfl⟩ := (hwaiting place hops).mp htarget'
        have hfirst := (target_unique htarget hlink).2
        omega
      · rw [debt_returned hstack hreturned]
        simp [owedWith, Except.toOption, hmany]
      · omega
    · rename_i hmany
      refine round_setFrame (t := (s.1, { s.2 with returned := none })) rfl hstack rfl hsound.remembers
        hchain rfl ?_ ?_ ?_
      · refine ⟨Nat.le_of_not_lt hmany, fun place hops => ?_⟩
        rw [hwaiting]
        constructor
        · rintro ⟨mid, first, second, hlink, hrest, rfl⟩
          obtain ⟨rfl, rfl⟩ := target_unique htarget hlink
          exact ⟨second, hrest, by simp only; omega⟩
        · rintro ⟨more, hrest, rfl⟩
          exact ⟨sub.at_, sub.hops, more, htarget, hrest, by simp only; omega⟩
      · rw [debt_returned hstack hreturned]
        simp [owedWith, Except.toOption, hmany]
      · omega

/-- Refusing a link whose text cannot be walked on. -/
theorem Standing.refused (hstanding : Standing texts frame)
    (hends : ∀ place more, Ends texts frame.at_ frame.parts place more →
      maxLinkHops < frame.hops + more) (place : Place) (hops : ℕ)
    (htarget : Target texts frame.link place hops) : maxLinkHops < hops := by
  obtain ⟨more, hmore, rfl⟩ := (hstanding.2 place hops).mp htarget
  exact hends place more hmore

@[simp]
theorem Frame.advanced_link (frame : Frame) : frame.advanced.link = frame.link := rfl

@[simp]
theorem Frame.advanced_at (frame : Frame) : frame.advanced.at_ = frame.at_ := rfl

@[simp]
theorem Frame.advanced_hops (frame : Frame) : frame.advanced.hops = frame.hops := rfl

@[simp]
theorem setFrame_marks (s : Resolving) (frame : Frame) : (setFrame s frame).1 = s.1 := rfl

@[simp]
theorem setFrame_returned (s : Resolving) (frame : Frame) :
    (setFrame s frame).2.returned = s.2.returned := rfl

theorem setFrame_stack {frame' : Frame} (hstack : s.2.stack = frame :: outer) :
    (setFrame s frame').2.stack = frame' :: outer := by
  rw [setFrame, hstack]
  rfl

theorem Remembers.advanced (hremembers : Remembers texts s.1 (s.2.stack.map Frame.link))
    (hstack : s.2.stack = frame :: outer) :
    Remembers texts (setFrame s frame.advanced).1
      ((setFrame s frame.advanced).2.stack.map Frame.link) := by
  rw [hstack] at hremembers
  rw [setFrame_stack hstack]
  exact hremembers

theorem roundsFor_standing (hstack : s.2.stack = frame :: outer) (hreturned : s.2.returned = none) :
    roundsFor steps s.2 = 3 * steps + 2 * (outer.length + 1) := by
  rw [roundsFor, hstack, hreturned]
  rfl

/-- The component just taken ends the chain. -/
theorem round_component_refused (why : Why) (hsound : Sound texts start s)
    (hstack : s.2.stack = frame :: outer) (hreturned : s.2.returned = none)
    (hends : ∀ place more, Ends texts frame.at_ frame.parts place more →
      maxLinkHops < frame.hops + more)
    (htaken : taken texts frame.at_ frame.hops frame.parts = 1) :
    Round texts places start (steps + 1) s steps
      (finishFrame (setFrame s frame.advanced) frame.advanced (.error why)) := by
  obtain ⟨hstanding, hchain⟩ := hsound.standing hstack hreturned
  apply round_refused why (setFrame_marks s _) (setFrame_stack hstack) (hsound.remembers.advanced hstack) hchain
    (hstanding.refused hends)
  · rw [debt_standing hstack hreturned, htaken, setFrame_marks, Frame.advanced_link]
    omega
  · rw [roundsFor_standing hstack hreturned]
    omega

/-- The component just taken leads to another place. -/
theorem round_component_moves {next : Place} {rest : List String} (hsound : Sound texts start s)
    (hstack : s.2.stack = frame :: outer) (hreturned : s.2.returned = none)
    (htail : frame.advanced.parts = rest)
    (hends : ∀ place more, Ends texts frame.at_ frame.parts place more ↔
      Ends texts next rest place more)
    (htaken : taken texts frame.at_ frame.hops frame.parts =
      1 + taken texts next frame.hops rest) :
    Round texts places start (steps + 1) s steps
      (setFrame (setFrame s frame.advanced) { frame.advanced with at_ := next }) := by
  obtain ⟨hstanding, hchain⟩ := hsound.standing hstack hreturned
  refine round_setFrame rfl (setFrame_stack hstack) hreturned (hsound.remembers.advanced hstack) hchain
    rfl ?_ ?_ ?_
  · refine ⟨hstanding.1, fun place hops => ?_⟩
    simp only [htail, Frame.advanced_link, Frame.advanced_hops, hstanding.2, hends]
  · simp only [debt_standing hstack hreturned, htaken, setFrame_marks, Frame.advanced_link,
      Frame.advanced_hops, htail]
    omega
  · rw [roundsFor_standing hstack hreturned]
    omega

/-- The component just taken names a link. -/
theorem waiting_of_link {part text : String} {rest : List String} (hstanding : Standing texts frame)
    (hparts : frame.parts = part :: rest) (hpart : part ≠ "..")
    (hshared : ¬(frame.at_ = [] ∧ part = releaseSharedName))
    (htext : texts (frame.at_ ++ [part]) = some text) (hfew : frame.hops < maxLinkHops) :
    Waiting texts frame.advanced (frame.at_ ++ [part]) := by
  refine ⟨hfew, fun place hops => ?_⟩
  rw [Frame.advanced_link, hstanding.2, hparts]
  simp only [ends_link_iff hpart hshared htext, Frame.advanced, hparts, List.tail_cons]
  constructor
  · rintro ⟨more, ⟨mid, first, second, htarget, hrest, rfl⟩, rfl⟩
    exact ⟨mid, first, second, htarget, hrest, rfl⟩
  · rintro ⟨mid, first, second, htarget, hrest, rfl⟩
    exact ⟨_, ⟨mid, first, second, htarget, hrest, rfl⟩, rfl⟩

/-- A link met again while it is being resolved is a cycle: the innermost link does not
end. -/
theorem refused_of_cycle {part text : String} {rest : List String}
    (hstanding : Standing texts frame) (hchain : Chain texts start frame.link outer)
    (hparts : frame.parts = part :: rest) (hpart : part ≠ "..")
    (hshared : ¬(frame.at_ = [] ∧ part = releaseSharedName))
    (htext : texts (frame.at_ ++ [part]) = some text)
    (hcycle : frame.at_ ++ [part] ∈ (frame :: outer).map Frame.link) (place : Place) (hops : ℕ) :
    ¬Target texts (frame.at_ ++ [part]) place hops := by
  have hmet : ∀ place hops, Target texts frame.link place hops →
      ∃ place' hops', Target texts (frame.at_ ++ [part]) place' hops' ∧ hops' < hops := by
    intro place hops htarget
    obtain ⟨more, hends, rfl⟩ := (hstanding.2 place hops).mp htarget
    rw [hparts, ends_link_iff hpart hshared htext] at hends
    obtain ⟨mid, first, second, hlink, -, rfl⟩ := hends
    exact ⟨mid, first, hlink, by omega⟩
  apply not_target_of_smaller
  intro place hops htarget
  rw [List.map_cons, List.mem_cons] at hcycle
  obtain hsame | houter := hcycle
  · rw [hsame] at htarget
    exact hmet place hops htarget
  · obtain ⟨place', hops', hinner, hless⟩ := hchain.inner houter htarget
    obtain ⟨place'', hops'', hagain, hless'⟩ := hmet place' hops' hinner
    exact ⟨place'', hops'', hagain, hless'.trans hless⟩

theorem owedWith_eq_zero {link : Place}
    (hmany : ∀ mid first, Target texts link mid first → maxLinkHops < frame.hops + 1 + first) :
    owedWith texts frame (resolution texts link) = 0 := by
  cases hsub : resolution texts link with
  | none => rfl
  | some sub => rw [owedWith, if_pos (hmany _ _ (resolution_eq_some_iff.mp hsub).2)]

/-- The component just taken names a link that does not end within the bound. -/
theorem round_link_refused {part text : String} {rest : List String} (why : Why)
    (hsound : Sound texts start s) (hstack : s.2.stack = frame :: outer)
    (hreturned : s.2.returned = none) (hparts : frame.parts = part :: rest) (hpart : part ≠ "..")
    (hshared : ¬(frame.at_ = [] ∧ part = releaseSharedName))
    (htext : texts (frame.at_ ++ [part]) = some text)
    (htaken : taken texts frame.at_ frame.hops frame.parts =
      1 + owedWith texts frame.advanced (resolution texts (frame.at_ ++ [part])))
    (hmany : ∀ mid first, Target texts (frame.at_ ++ [part]) mid first →
      maxLinkHops < frame.hops + 1 + first) :
    Round texts places start (steps + 1) s steps
      (finishFrame (setFrame s frame.advanced) frame.advanced (.error why)) := by
  apply round_component_refused why hsound hstack hreturned
  · intro place more hends
    rw [hparts, ends_link_iff hpart hshared htext] at hends
    obtain ⟨mid, first, second, htarget, -, rfl⟩ := hends
    have hfirst := hmany mid first htarget
    omega
  · have hnone : owedWith texts frame.advanced (resolution texts (frame.at_ ++ [part])) = 0 :=
      owedWith_eq_zero hmany
    rw [htaken, hnone]

/-- The component just taken names a link whose result is known. -/
theorem round_link_known {link : Place} {result : Result} (hsound : Sound texts start s)
    (hstack : s.2.stack = frame :: outer) (hreturned : s.2.returned = none)
    (hknown : s.1.result link = some result) (hwaiting : Waiting texts frame.advanced link)
    (htaken : taken texts frame.at_ frame.hops frame.parts =
      1 + owedWith texts frame.advanced (resolution texts link)) :
    Round texts places start (steps + 1) s steps
      (setReturned (setFrame s frame.advanced) result) := by
  have hright := hsound.remembers.known link result hknown
  obtain ⟨-, hchain⟩ := hsound.standing hstack hreturned
  constructor
  case sound =>
    refine ⟨hsound.remembers.advanced hstack, link, hright, ?_⟩
    rw [setReturned, setFrame_stack hstack]
    exact ⟨hwaiting, hchain⟩
  case keeps => exact fun _ hentered => hentered
  case ledger =>
    have hafter : debt texts places (setReturned (setFrame s frame.advanced) result) = _ :=
      debt_returned (setFrame_stack hstack) rfl
    rw [debt_standing hstack hreturned, hafter, htaken, hright, Frame.advanced_link]
    simp only [setReturned, setFrame_marks]
    omega
  case fewer =>
    rw [roundsFor_standing hstack hreturned]
    simp [roundsFor, setReturned, setFrame_stack hstack]
    omega

/-- The component just taken names a link that has to be resolved first. -/
theorem round_link_entered {link : Place} {text : String} (hsound : Sound texts start s)
    (hstack : s.2.stack = frame :: outer) (hreturned : s.2.returned = none)
    (hplace : link ∈ places) (hwaiting : Waiting texts frame.advanced link)
    (htext : texts link = some text) (hrelative : startsWith text "/" = false)
    (hfresh : s.1.resolving link = false) (hunknown : s.1.result link = none)
    (htaken : taken texts frame.at_ frame.hops frame.parts =
      1 + owedWith texts frame.advanced (resolution texts link)) :
    Round texts places start (steps + 1) s steps
      (enterLink (setFrame s frame.advanced) link text) := by
  obtain ⟨-, hchain⟩ := hsound.standing hstack hreturned
  constructor
  case sound =>
    exact sound_enterLink (setFrame_stack hstack) hreturned (hsound.remembers.advanced hstack)
      hchain hwaiting htext hrelative hfresh hunknown
  case keeps => exact fun _ => entered_enter
  case ledger =>
    rw [debt_standing hstack hreturned, debt_enterLink (s := setFrame s frame.advanced) hreturned
      hplace htext hrelative hfresh hunknown, htaken, setFrame_stack hstack, owedOutside,
      setFrame_marks, Frame.advanced_link]
    omega
  case fewer =>
    rw [roundsFor_standing hstack hreturned]
    simp [roundsFor, enterLink, setFrame_stack hstack, hreturned]
    omega

/-- The innermost frame takes its next component. -/
theorem round_stepFrame {part : String} {rest : List String}
    (hplaces : ∀ place text, texts place = some text → place ≠ [releaseSharedName] →
      place ∈ places)
    (hsound : Sound texts start s) (hstack : s.2.stack = frame :: outer)
    (hreturned : s.2.returned = none) (hparts : frame.parts = part :: rest) :
    Round texts places start (steps + 1) s steps (stepFrame texts s frame part) := by
  obtain ⟨hstanding, hchain⟩ := hsound.standing hstack hreturned
  have htail : frame.advanced.parts = rest := by
    rw [Frame.advanced, hparts]
    rfl
  have htaken := taken.eq_2 texts frame.at_ frame.hops part rest
  rw [← hparts] at htaken
  rw [stepFrame, takeComponent, Frame.advanced_at, Frame.advanced_hops]
  by_cases hpart : part = ".."
  · subst hpart
    rw [if_pos rfl] at htaken ⊢
    by_cases hplace : frame.at_ = []
    · rw [if_pos hplace] at htaken ⊢
      apply round_component_refused _ hsound hstack hreturned _ htaken
      intro place more hends
      rw [hparts, ends_up_iff] at hends
      exact absurd hplace hends.1
    · rw [if_neg hplace] at htaken ⊢
      apply round_component_moves hsound hstack hreturned htail _ htaken
      intro place more
      rw [hparts, ends_up_iff]
      simp [hplace]
  rw [if_neg hpart] at htaken ⊢
  by_cases hshared : frame.at_ = [] ∧ part = releaseSharedName
  · rw [if_pos hshared] at htaken ⊢
    apply round_component_refused _ hsound hstack hreturned _ htaken
    intro place more hends
    rw [hparts] at hends
    exact absurd hends (not_ends_shared hpart hshared)
  rw [if_neg hshared] at htaken ⊢
  cases htext : texts (frame.at_ ++ [part]) with
  | none =>
    simp only [htext] at htaken ⊢
    apply round_component_moves hsound hstack hreturned htail _ htaken
    intro place more
    rw [hparts, ends_down_iff hpart hshared htext]
  | some text =>
    simp only [htext] at htaken ⊢
    have howed : taken texts frame.at_ frame.hops frame.parts =
        1 + owedWith texts frame.advanced (resolution texts (frame.at_ ++ [part])) := by
      rw [htaken]
      cases resolution texts (frame.at_ ++ [part]) with
      | none => rfl
      | some sub => simp only [owedWith, Frame.advanced_hops, htail]
    by_cases habsolute : startsWith text "/" = true
    · rw [if_pos habsolute]
      apply round_link_refused _ hsound hstack hreturned hparts hpart hshared htext howed
      simp [Target, htext, habsolute]
    rw [if_neg habsolute, setFrame_marks]
    by_cases hloops : maxLinkHops ≤ frame.hops ∨ s.1.resolving (frame.at_ ++ [part]) = true
    · rw [if_pos hloops]
      apply round_link_refused _ hsound hstack hreturned hparts hpart hshared htext howed
      intro mid first htarget
      obtain hmany | hcycle := hloops
      · omega
      · rw [hsound.remembers.marked, hstack] at hcycle
        exact absurd htarget
          (refused_of_cycle hstanding hchain hparts hpart hshared htext hcycle mid first)
    rw [if_neg hloops]
    rw [not_or, Nat.not_le, Bool.not_eq_true] at hloops
    have hwaiting := waiting_of_link hstanding hparts hpart hshared htext hloops.1
    cases hresult : s.1.result (frame.at_ ++ [part]) with
    | some result =>
      simp only
      exact round_link_known hsound hstack hreturned hresult hwaiting howed
    | none =>
      simp only
      apply round_link_entered hsound hstack hreturned _ hwaiting htext
        (Bool.eq_false_iff.mpr habsolute) hloops.2 hresult howed
      apply hplaces _ _ htext
      intro heq
      apply hshared
      exact List.append_eq_cons_iff.mp heq |>.elim (fun h => ⟨h.1, (List.cons.inj h.2).1⟩)
        fun ⟨_, h⟩ => by simp at h

/-! ## Whole resolutions -/

variable (texts) in
/-- What an answer says of the link asked for, and how it leaves the nodes and the budget:
the result is right, or the steps left do not reach for the components still to be
taken. -/
def Answered (places : Finset Place) (start : Place) (marks : Marks) (steps owing : ℕ) :
    Answer × Marks × ℕ → Prop
  | (.overBudget, _, _) => steps < owing
  | (.result result, marks', steps') =>
    RightFor texts start result ∧ Remembers texts marks' [] ∧
      (∀ link, Entered marks link → Entered marks' link) ∧
      steps + pending texts places marks' = steps' + owing

/-- Whoever answers after a round answers before it. -/
theorem Answered.before (hround : Round texts places start steps s steps' t)
    {answer : Answer × Marks × ℕ}
    (h : Answered texts places start t.1 steps' (debt texts places t) answer) :
    Answered texts places start s.1 steps (debt texts places s) answer := by
  have hledger := hround.ledger
  obtain ⟨_ | result, marks, left⟩ := answer
  · rw [Answered] at h ⊢
    omega
  · obtain ⟨hright, hremembers, hkeeps, hleft⟩ := h
    refine ⟨hright, hremembers, fun link hlink => hkeeps link (hround.keeps link hlink), ?_⟩
    omega

/-- The loop answers, within the rounds it may need. -/
theorem resolveLoop_answers
    (hplaces : ∀ place text, texts place = some text → place ≠ [releaseSharedName] →
      place ∈ places) (rounds : ℕ) (hsound : Sound texts start s)
    (hrounds : roundsFor steps s.2 < rounds) :
    ∃ answer, resolveLoop texts rounds steps s = some answer ∧
      Answered texts places start s.1 steps (debt texts places s) answer := by
  induction rounds generalizing s steps with
  | zero => exact absurd hrounds (Nat.not_lt_zero _)
  | succ rounds ih =>
    have hnext : ∀ {steps' t}, Round texts places start steps s steps' t →
        ∃ answer, resolveLoop texts rounds steps' t = some answer ∧
          Answered texts places start s.1 steps (debt texts places s) answer := by
      intro steps' t hround
      obtain ⟨answer, hanswer, hanswered⟩ := ih hround.sound
        (lt_of_lt_of_le hround.fewer (Nat.lt_succ_iff.mp hrounds))
      exact ⟨answer, hanswer, hanswered.before hround⟩
    rw [resolveLoop]
    cases hstack : s.2.stack with
    | nil =>
      have hwalking := hsound.walking
      cases hreturned : s.2.returned with
      | none => simp [Walking, hreturned, hstack] at hwalking
      | some result =>
        rw [Walking, hreturned, hstack] at hwalking
        obtain ⟨link, hright, rfl⟩ := hwalking
        refine ⟨_, rfl, hright, ?_, fun _ hentered => hentered, ?_⟩
        · have hremembers := hsound.remembers
          rw [hstack] at hremembers
          exact hremembers
        · simp [debt, owed, hstack]
    | cons frame outer =>
      cases hreturned : s.2.returned with
      | some sub => exact hnext (round_absorbReturned hsound hstack hreturned)
      | none =>
        simp only
        cases hparts : frame.parts with
        | nil => exact hnext (round_finished steps hsound hstack hreturned hparts)
        | cons part rest =>
          cases steps with
          | zero =>
            refine ⟨_, rfl, ?_⟩
            rw [Answered, debt_standing hstack hreturned, hparts, taken]
            omega
          | succ steps => exact hnext (round_stepFrame hplaces hsound hstack hreturned hparts)

/-- An absolute text is refused before anything is walked. -/
theorem answered_absolute {marks : Marks} {text : String} (hremembers : Remembers texts marks [])
    (htext : texts start = some text) (habsolute : startsWith text "/" = true) :
    Answered texts places start marks steps (pending texts places marks)
      (.result (.error .leaves),
        { marks with result := Function.update marks.result start (some (.error .leaves)) },
        steps) := by
  have hright : RightFor texts start (.error .leaves) := by
    apply RightFor.refused
    simp [Target, htext, habsolute]
  have hsteps : stepsOf texts start = 0 := by
    simp [stepsOf, htext, habsolute]
  have hresolving : ∀ link, marks.resolving link = false := by
    intro link
    rw [Bool.eq_false_iff, ne_eq, hremembers.marked]
    exact List.not_mem_nil
  refine ⟨hright, ⟨?_, hremembers.marked, List.nodup_nil, by simp⟩, ?_, ?_⟩
  · intro link result hknown
    by_cases hlink : link = start
    · subst hlink
      simp only [Function.update_self] at hknown
      obtain rfl := Option.some.inj hknown
      exact hright
    · simp only [Function.update_of_ne hlink] at hknown
      exact hremembers.known link result hknown
  · intro link hentered
    by_cases hlink : link = start
    · subst hlink
      simp [Entered]
    · simpa only [Entered, Function.update_of_ne hlink] using hentered
  · rw [Nat.add_left_cancel_iff, pending, pending]
    -- The link no longer counted takes no component.
    apply Finset.sum_subset
    · intro place hplace
      rw [Finset.mem_filter] at hplace ⊢
      by_cases heq : place = start
      · subst heq
        simp at hplace
      · simpa only [Function.update_of_ne heq] using hplace
    · intro place hplace hnot
      by_cases heq : place = start
      · rw [heq]
        exact hsteps
      · rw [Finset.mem_filter] at hplace hnot
        simp only [Function.update_of_ne heq] at hnot
        exact absurd hplace hnot

/-- A link is answered for, whether its result is known or not. -/
theorem answerFor_answers (steps : ℕ) {marks : Marks} {text : String}
    (hplaces : ∀ place text, texts place = some text → place ≠ [releaseSharedName] →
      place ∈ places) (hremembers : Remembers texts marks []) (hplace : start ∈ places)
    (htext : texts start = some text) :
    ∃ answer, answerFor texts marks start steps = some answer ∧
      Answered texts places start marks steps (pending texts places marks) answer ∧
      (∀ result marks' steps', answer = (.result result, marks', steps') → Entered marks' start) := by
  rw [answerFor]
  cases hknown : marks.result start with
  | some result =>
    refine ⟨_, rfl, ⟨hremembers.known start result hknown, hremembers, fun _ h => h, rfl⟩, ?_⟩
    rintro _ _ _ ⟨⟩
    exact .inl (by simp [hknown])
  | none =>
    rw [htext, Option.getD_some]
    simp only [resolveLink]
    by_cases habsolute : startsWith text "/" = true
    · rw [if_pos habsolute]
      refine ⟨_, rfl, answered_absolute hremembers htext habsolute, ?_⟩
      rintro _ _ _ ⟨⟩
      exact .inl (by simp)
    rw [if_neg habsolute]
    have hrelative := Bool.eq_false_iff.mpr habsolute
    have hfresh : marks.resolving start = false := by
      rw [Bool.eq_false_iff, ne_eq, hremembers.marked]
      exact List.not_mem_nil
    have hsound : Sound texts start
        (enterLink (marks, { stack := [], returned := none }) start text) := by
      refine ⟨hremembers.enter hfresh hknown, ?_⟩
      exact ⟨_, _, rfl, standing_entered htext hrelative, rfl⟩
    have hdebt := debt_enterLink (s := (marks, { stack := [], returned := none })) rfl hplace htext
      hrelative hfresh hknown
    rw [owedOutside, Nat.zero_add] at hdebt
    obtain ⟨answer, hanswer, hanswered⟩ := resolveLoop_answers hplaces
      (roundsFor steps (enterLink (marks, { stack := [], returned := none }) start text).2 + 1)
      hsound (Nat.lt_succ_self _)
    refine ⟨answer, hanswer, ?_, ?_⟩
    · obtain ⟨_ | result, marks', steps'⟩ := answer
      · rw [Answered, hdebt] at hanswered
        exact hanswered
      · rw [hdebt] at hanswered
        obtain ⟨hright, hremembers', hkeeps, hleft⟩ := hanswered
        exact ⟨hright, hremembers', fun link hlink => hkeeps link (entered_enter hlink), hleft⟩
    · rintro result marks' steps' rfl
      exact hanswered.2.2.1 start (.inr (by simp [enterLink]))

/-! ## Whole checks -/

/-- The link is among the reports. -/
def Reported (reports : List (ReleaseLink × Complaint)) (link : ReleaseLink) : Prop :=
  ∃ complaint, (link, complaint) ∈ reports

/-- Some link is reported because the budget ran out. -/
def Exhausted (reports : List (ReleaseLink × Complaint)) : Prop :=
  ∃ link, (link, Complaint.overBudget) ∈ reports

variable (texts) in
/-- The reports of the links left: with the steps for all components to be taken, exactly
the links plain resolution refuses; else one link for the budget. -/
def ReportedRight (owing steps : ℕ) (links : List ReleaseLink)
    (reports : List (ReleaseLink × Complaint)) : Prop :=
  if owing ≤ steps then
    ¬Exhausted reports ∧ ∀ link, Reported reports link ↔
      link ∈ links ∧ link.path ≠ releaseSharedName ∧ resolution texts (segments link.path) = none
  else ∃ link ∈ links, (link, Complaint.overBudget) ∈ reports

section

variable {owing owing' : ℕ} {link : ReleaseLink} {rest : List ReleaseLink}
  {reports : List (ReleaseLink × Complaint)}

theorem ReportedRight.skip (h : ReportedRight texts owing' steps' rest reports)
    (hledger : steps + owing' = steps' + owing)
    (hlink : link.path = releaseSharedName ∨ resolution texts (segments link.path) ≠ none) :
    ReportedRight texts owing steps (link :: rest) reports := by
  rw [ReportedRight] at h ⊢
  by_cases henough : owing ≤ steps
  · rw [if_pos henough]
    rw [if_pos (by omega)] at h
    refine ⟨h.1, fun other => ?_⟩
    rw [h.2, List.mem_cons]
    constructor
    · rintro ⟨hother, hrefused⟩
      exact ⟨.inr hother, hrefused⟩
    · rintro ⟨rfl | hother, hpath, hrefused⟩
      · exact absurd hlink (not_or.mpr ⟨hpath, not_not.mpr hrefused⟩)
      · exact ⟨hother, hpath, hrefused⟩
  · rw [if_neg henough]
    rw [if_neg (by omega)] at h
    obtain ⟨other, hother, hreport⟩ := h
    exact ⟨other, List.mem_cons_of_mem _ hother, hreport⟩

theorem ReportedRight.report (why : Why) (h : ReportedRight texts owing' steps' rest reports)
    (hledger : steps + owing' = steps' + owing) (hpath : link.path ≠ releaseSharedName)
    (hrefused : resolution texts (segments link.path) = none) :
    ReportedRight texts owing steps (link :: rest) ((link, .refused why) :: reports) := by
  rw [ReportedRight] at h ⊢
  by_cases henough : owing ≤ steps
  · rw [if_pos henough]
    rw [if_pos (by omega)] at h
    constructor
    · rintro ⟨other, hother⟩
      rw [List.mem_cons] at hother
      obtain hsame | hother := hother
      · simp at hsame
      · exact h.1 ⟨other, hother⟩
    · intro other
      have hrest := h.2 other
      rw [Reported] at hrest ⊢
      by_cases hsame : other = link
      · subst hsame
        simp [hpath, hrefused]
      · simp only [List.mem_cons, Prod.mk.injEq, hsame, false_and, false_or]
        exact hrest
  · rw [if_neg henough]
    rw [if_neg (by omega)] at h
    obtain ⟨other, hother, hreport⟩ := h
    exact ⟨other, List.mem_cons_of_mem _ hother, List.mem_cons_of_mem _ hreport⟩

theorem ReportedRight.overBudget (hover : steps < owing) :
    ReportedRight texts owing steps (link :: rest) [(link, .overBudget)] := by
  rw [ReportedRight, if_neg (Nat.not_le.mpr hover)]
  exact ⟨link, List.mem_cons_self, List.mem_singleton_self _⟩

theorem ReportedRight.exhausted_iff {links : List ReleaseLink}
    (h : ReportedRight texts owing steps links reports) : Exhausted reports ↔ steps < owing := by
  rw [ReportedRight] at h
  by_cases henough : owing ≤ steps
  · rw [if_pos henough] at h
    simp [h.1, henough]
  · rw [if_neg henough] at h
    obtain ⟨other, -, hreport⟩ := h
    exact ⟨fun _ => Nat.lt_of_not_le henough, fun _ => ⟨other, hreport⟩⟩

end

theorem reportLinks_right (links : List ReleaseLink) (steps : ℕ) {marks : Marks}
    (hplaces : ∀ place text, texts place = some text → place ≠ [releaseSharedName] →
      place ∈ places) (hremembers : Remembers texts marks [])
    (hlisted : ∀ link ∈ links, link.path ≠ releaseSharedName →
      segments link.path ∈ places ∧ texts (segments link.path) ≠ none)
    (hcover : ∀ place ∈ places, Entered marks place ∨
      ∃ link ∈ links, link.path ≠ releaseSharedName ∧ segments link.path = place) :
    ∃ reports, reportLinks texts links marks steps = some reports ∧
      ReportedRight texts (pending texts places marks) steps links reports := by
  induction links generalizing marks steps with
  | nil =>
    have hnone : pending texts places marks = 0 := by
      apply Finset.sum_eq_zero
      intro place hplace
      rw [Finset.mem_filter] at hplace
      obtain hentered | ⟨link, hlink, -⟩ := hcover place hplace.1
      · obtain hknown | hmarked := hentered
        · exact absurd hplace.2.1 hknown
        · simp [hplace.2.2] at hmarked
      · simp at hlink
    refine ⟨[], rfl, ?_⟩
    rw [ReportedRight, hnone, if_pos (Nat.zero_le _)]
    simp [Exhausted, Reported]
  | cons link rest ih =>
    have hlisted' := fun other hother => hlisted other (List.mem_cons_of_mem link hother)
    rw [reportLinks]
    by_cases hshared : link.path = releaseSharedName
    · rw [if_pos hshared]
      obtain ⟨reports, hreports, hright⟩ := ih steps hremembers hlisted' (by
        intro place hplace
        obtain hentered | ⟨other, hother, hpath, rfl⟩ := hcover place hplace
        · exact .inl hentered
        · obtain rfl | hother := List.mem_cons.mp hother
          · exact absurd hshared hpath
          · exact .inr ⟨other, hother, hpath, rfl⟩)
      exact ⟨reports, hreports, hright.skip rfl (.inl hshared)⟩
    rw [if_neg hshared]
    obtain ⟨hplace, htext⟩ := hlisted link List.mem_cons_self hshared
    obtain ⟨text, htext⟩ := Option.ne_none_iff_exists'.mp htext
    obtain ⟨⟨_ | result, marks', steps'⟩, hanswer, hanswered, hentered⟩ :=
      answerFor_answers steps hplaces hremembers hplace htext
    · rw [hanswer]
      exact ⟨_, rfl, .overBudget hanswered⟩
    obtain ⟨hright, hremembers', hkeeps, hledger⟩ := hanswered
    obtain ⟨reports, hreports, hrest⟩ := ih steps' hremembers' hlisted' (by
      intro place hplace
      obtain hbefore | ⟨other, hother, hpath, rfl⟩ := hcover place hplace
      · exact .inl (hkeeps place hbefore)
      · obtain rfl | hother := List.mem_cons.mp hother
        · exact .inl (hentered result marks' steps' rfl)
        · exact .inr ⟨other, hother, hpath, rfl⟩)
    rw [hanswer]
    cases result with
    | error why =>
      simp only [hreports, Option.map_some]
      exact ⟨_, rfl, hrest.report why hledger hshared hright.symm⟩
    | ok resolved =>
      refine ⟨reports, hreports, hrest.skip hledger (.inr ?_)⟩
      rw [← hright]
      exact Option.some_ne_none resolved

end

/-- The links of a release: every link is named below the release, and no two have the same
path. -/
structure Listing where
  links : List ReleaseLink
  named : ∀ link ∈ links, segments link.path ≠ []
  distinct : (links.map fun link => segments link.path).Nodup

namespace Listing

variable (listing : Listing)

/-- The text a node has is that of the listed link it stands for. -/
theorem textAt_eq_some_iff (place : Place) (text : String) :
    textAt listing.links place = some text ↔
      ∃ link ∈ listing.links, segments link.path = place ∧ link.text = text := by
  rw [textAt, Option.map_eq_some_iff]
  constructor
  · rintro ⟨link, hfind, htext⟩
    have hpath := List.find?_some hfind
    have hlink := List.mem_of_find?_eq_some hfind
    exact ⟨link, List.mem_reverse.mp hlink, beq_iff_eq.mp hpath, htext⟩
  · rintro ⟨link, hlink, rfl, rfl⟩
    cases hfind : listing.links.reverse.find? fun other => segments other.path == segments link.path with
    | none =>
      rw [List.find?_eq_none] at hfind
      exact absurd (beq_self_eq_true _) (hfind link (List.mem_reverse.mpr hlink))
    | some other =>
      have hpath := List.find?_some hfind
      rw [beq_iff_eq] at hpath
      have hother := List.mem_reverse.mp (List.mem_of_find?_eq_some hfind)
      rw [List.inj_on_of_nodup_map listing.distinct hother hlink hpath]
      exact ⟨link, rfl, rfl⟩

theorem textAt_link {link : ReleaseLink} (hlink : link ∈ listing.links) :
    textAt listing.links (segments link.path) = some link.text :=
  (listing.textAt_eq_some_iff _ _).mpr ⟨link, hlink, rfl, rfl⟩

/-- The places of the links that are checked. -/
def places : Finset Place :=
  ((listing.links.filter (·.path ≠ releaseSharedName)).map fun link => segments link.path).toFinset

theorem mem_places {place : Place} :
    place ∈ listing.places ↔
      ∃ link ∈ listing.links, link.path ≠ releaseSharedName ∧ segments link.path = place := by
  simp [places, and_assoc]

/-- The components a check of the links takes. -/
def neededSteps : ℕ := ∑ place ∈ listing.places, stepsOf (textAt listing.links) place

theorem textAt_perm {other : Listing} (hperm : other.links.Perm listing.links) :
    textAt other.links = textAt listing.links := by
  funext place
  ext text
  rw [textAt_eq_some_iff, textAt_eq_some_iff]
  simp only [hperm.mem_iff]

theorem neededSteps_perm {other : Listing} (hperm : other.links.Perm listing.links) :
    other.neededSteps = listing.neededSteps := by
  have hplaces : other.places = listing.places := by
    ext place
    simp only [mem_places, hperm.mem_iff]
  rw [neededSteps, neededSteps, hplaces, textAt_perm listing hperm]

theorem leavingLinks_right (stepBudget : ℕ) :
    ∃ reports, leavingLinks listing.links stepBudget = some reports ∧
      ReportedRight (textAt listing.links) listing.neededSteps stepBudget listing.links reports := by
  have hpending : pending (textAt listing.links) listing.places noMarks = listing.neededSteps := by
    simp [pending, noMarks, neededSteps]
  rw [← hpending]
  apply reportLinks_right
  · intro place text htext hplace
    obtain ⟨link, hlink, rfl, rfl⟩ := (listing.textAt_eq_some_iff _ _).mp htext
    refine listing.mem_places.mpr ⟨link, hlink, fun hpath => hplace ?_, rfl⟩
    rw [hpath]
    decide
  · exact ⟨by simp [noMarks], by simp [noMarks], List.nodup_nil, by simp⟩
  · intro link hlink hpath
    refine ⟨listing.mem_places.mpr ⟨link, hlink, hpath, rfl⟩, ?_⟩
    rw [listing.textAt_link hlink]
    exact Option.some_ne_none _
  · intro place hplace
    exact .inr (listing.mem_places.mp hplace)

/-- Where plain resolution ends nowhere, it refuses. -/
theorem resolution_eq_none_iff_refused {link : ReleaseLink} (hlink : link ∈ listing.links) :
    resolution (textAt listing.links) (segments link.path) = none ↔
      ∃ refusal, resolvePlain (textAt listing.links) (segments link.path) link.text =
        .error refusal := by
  rw [resolution, listing.textAt_link hlink, Option.bind_some]
  cases resolvePlain (textAt listing.links) (segments link.path) link.text with
  | error refusal => simp [Except.toOption]
  | ok resolved => simp [Except.toOption]

theorem reported_iff_refused {stepBudget : ℕ} (henough : listing.neededSteps ≤ stepBudget)
    {reports : List (ReleaseLink × Complaint)}
    (hright : ReportedRight (textAt listing.links) listing.neededSteps stepBudget listing.links
      reports) (link : ReleaseLink) :
    Reported reports link ↔ link ∈ listing.links ∧ link.path ≠ releaseSharedName ∧
      ∃ refusal, resolvePlain (textAt listing.links) (segments link.path) link.text =
        .error refusal := by
  rw [ReportedRight, if_pos henough] at hright
  rw [hright.2]
  constructor
  · rintro ⟨hlink, hpath, hnone⟩
    exact ⟨hlink, hpath, (listing.resolution_eq_none_iff_refused hlink).mp hnone⟩
  · rintro ⟨hlink, hpath, hrefused⟩
    exact ⟨hlink, hpath, (listing.resolution_eq_none_iff_refused hlink).mpr hrefused⟩

end Listing

/-- The check returns for every listing and every budget.  The budget runs out exactly when
it is below the components the links take.  When it does not, a link other than the
top-level `shared` is reported exactly when plain resolution refuses it, and any other order
of the links gives reports of the same links; when it does, some link is reported. -/
theorem linksLeavingReleaseLexically_eq_plain (listing : Listing) (stepBudget : ℕ) :
    ∃ reports, leavingLinks listing.links stepBudget = some reports ∧
      linksLeavingReleaseLexically listing.links stepBudget =
        some (reports.map (reportText stepBudget)) ∧
      (Exhausted reports ↔ stepBudget < listing.neededSteps) ∧
      (¬Exhausted reports →
        (∀ link, Reported reports link ↔ link ∈ listing.links ∧ link.path ≠ releaseSharedName ∧
          ∃ refusal, resolvePlain (textAt listing.links) (segments link.path) link.text =
            .error refusal) ∧
        ∀ other : Listing, other.links.Perm listing.links →
          ∃ reports', leavingLinks other.links stepBudget = some reports' ∧
            ¬Exhausted reports' ∧ ∀ link, Reported reports' link ↔ Reported reports link) ∧
      (Exhausted reports → ∃ link ∈ listing.links, Reported reports link) := by
  obtain ⟨reports, hreports, hright⟩ := listing.leavingLinks_right stepBudget
  refine ⟨reports, hreports, ?_, hright.exhausted_iff, ?_, ?_⟩
  · rw [linksLeavingReleaseLexically, hreports, Option.map_some]
  · intro hleft
    rw [hright.exhausted_iff, Nat.not_lt] at hleft
    have hreported := listing.reported_iff_refused hleft hright
    refine ⟨hreported, fun other hperm => ?_⟩
    obtain ⟨reports', hreports', hright'⟩ := other.leavingLinks_right stepBudget
    have hleft' : other.neededSteps ≤ stepBudget := by
      rw [listing.neededSteps_perm hperm]
      exact hleft
    refine ⟨reports', hreports', ?_, fun link => ?_⟩
    · rw [hright'.exhausted_iff, Nat.not_lt]
      exact hleft'
    · rw [hreported, other.reported_iff_refused hleft' hright', listing.textAt_perm hperm,
        hperm.mem_iff]
  · intro hexhausted
    rw [hright.exhausted_iff] at hexhausted
    rw [ReportedRight, if_neg (Nat.not_le.mpr hexhausted)] at hright
    obtain ⟨link, hlink, hreport⟩ := hright
    exact ⟨link, hlink, _, hreport⟩

/-- A link through another that climbs out of it leaves the release; the other does not, and
`shared` is not reported. -/
example :
    linksLeavingReleaseLexically
      [⟨"shared", "../../shared"⟩, ⟨"public/up", ".."⟩, ⟨"out", "public/up/../x"⟩] 100 =
      some ["out -> public/up/../x (leaves the release)"] := by
  decide +kernel

end Turbopaneld.Deploy
