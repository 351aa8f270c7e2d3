/-
# The lexical check of a sealed release's links

Before a sealed release is served again the daemon follows the text of every
symlink in it, inside the release and never through the filesystem, and refuses
the release when a chain leaves it or lands in the top-level `shared`.  The walk
keeps an explicit stack of the links being resolved and remembers the result of
each link, so that no text is walked twice; a budget caps the components walked.

A place in the release is the list of names that leads to it from the top, which
is what a node of the source's path tree stands for: its parent is the list
without its last name, and the top is the empty list.
-/

import Mathlib.Logic.Function.Basic
import Mathlib.Data.List.Perm.Basic
import Turbopaneld.JavaScript.Text

namespace Turbopaneld.Deploy

open JavaScript (startsWith)

/-- A symlink in a release: its path relative to the release, and its text. -/
structure ReleaseLink where
  path : String
  text : String
deriving DecidableEq, Repr

/-- Links followed in one chain before it counts as a loop (as the kernel's). -/
def maxLinkHops : ℕ := 40

/-- The name of the layout's own writable-state link at the top of a release. -/
def releaseSharedName : String := "shared"

/-- The components of a path. -/
def segments (path : String) : List String :=
  (JavaScript.split '/' path).filter fun part => part != "" && part != "."

/-- A place in the release. -/
abbrev Place : Type := List String

/-- A link resolved to where its chain ends, and how many links it followed. -/
structure Resolved where
  at_ : Place
  hops : ℕ
deriving DecidableEq, Repr

/-- Why a chain is refused. -/
inductive Why where
  | leaves
  | intoShared
  | loops
deriving DecidableEq, Repr

/-- The text a report gives for it. -/
def Why.text : Why → String
  | .leaves => "leaves the release"
  | .intoShared => "reaches into shared/"
  | .loops => "loops"

/-- What resolving a link gives: `Resolved | string`. -/
abbrev Result : Type := Except Why Resolved

/-- The texts of the nodes of the path tree: those of the listed links, where the
last of two links with one path stays. -/
def textAt (links : List ReleaseLink) (place : Place) : Option String :=
  (links.reverse.find? fun link => segments link.path == place).map ReleaseLink.text

/-- What the nodes of the path tree remember: the result of a link once known, and
the mark of a link on the stack. -/
structure Marks where
  result : Place → Option Result
  resolving : Place → Bool

/-- One link being resolved: the components of its text that are left. -/
structure Frame where
  link : Place
  at_ : Place
  parts : List String
  hops : ℕ

/-- The frame with its next component taken: `frame.i++`. -/
def Frame.advanced (frame : Frame) : Frame := { frame with parts := frame.parts.tail }

/-- The links being resolved, innermost first, and the result just produced. -/
structure Walk where
  stack : List Frame
  returned : Option Result

/-- A walk together with what the nodes remember. -/
abbrev Resolving : Type := Marks × Walk

def enterLink (s : Resolving) (link : Place) (text : String) : Resolving :=
  ({ s.1 with resolving := Function.update s.1.resolving link true },
    { s.2 with
      stack := { link := link, at_ := link.dropLast, parts := segments text, hops := 0 } ::
        s.2.stack })

def finishFrame (s : Resolving) (frame : Frame) (result : Result) : Resolving :=
  ({ result := Function.update s.1.result frame.link (some result)
     resolving := Function.update s.1.resolving frame.link false },
    { stack := s.2.stack.tail, returned := some result })

/-- The innermost frame is now `frame`. -/
def setFrame (s : Resolving) (frame : Frame) : Resolving :=
  (s.1, { s.2 with stack := frame :: s.2.stack.tail })

/-- `walk.returned` is now `result`. -/
def setReturned (s : Resolving) (result : Result) : Resolving :=
  (s.1, { s.2 with returned := some result })

/-- A link the frame named has been resolved: continue from its end. -/
def absorbReturned (s : Resolving) (frame : Frame) (sub : Result) : Resolving :=
  let s := (s.1, { s.2 with returned := none })
  match sub with
  | .error why => finishFrame s frame (.error why)
  | .ok sub =>
    if maxLinkHops < frame.hops + 1 + sub.hops then finishFrame s frame (.error .loops)
    else setFrame s { frame with hops := frame.hops + 1 + sub.hops, at_ := sub.at_ }

section

variable (texts : Place → Option String)

/-- What a component does to the frame it was taken from. -/
def takeComponent (s : Resolving) (frame : Frame) (part : String) : Resolving :=
  if part = ".." then
    if frame.at_ = [] then finishFrame s frame (.error .leaves)
    else setFrame s { frame with at_ := frame.at_.dropLast }
  else if frame.at_ = [] ∧ part = releaseSharedName then finishFrame s frame (.error .intoShared)
  else
    match texts (frame.at_ ++ [part]) with
    | none => setFrame s { frame with at_ := frame.at_ ++ [part] }
    | some text =>
      if startsWith text "/" then finishFrame s frame (.error .leaves)
      else if maxLinkHops ≤ frame.hops ∨ s.1.resolving (frame.at_ ++ [part]) then
        finishFrame s frame (.error .loops)
      else
        match s.1.result (frame.at_ ++ [part]) with
        | some result => setReturned s result
        | none => enterLink s (frame.at_ ++ [part]) text

/-- Take the frame's next path component. -/
def stepFrame (s : Resolving) (frame : Frame) (part : String) : Resolving :=
  takeComponent texts (setFrame s frame.advanced) frame.advanced part

/-- What `resolveLink` returns: a result, or that the budget ran out. -/
inductive Answer where
  | overBudget
  | result (result : Result)

/-- The loop of `resolveLink`, with the steps the budget still allows.  The first
argument bounds the rounds; `none` says that they did not suffice. -/
def resolveLoop : ℕ → ℕ → Resolving → Option (Answer × Marks × ℕ)
  | 0, _, _ => none
  | rounds + 1, steps, s =>
    match s.2.stack with
    | [] => s.2.returned.map fun result => (.result result, s.1, steps)
    | frame :: _ =>
      match s.2.returned with
      | some sub => resolveLoop rounds steps (absorbReturned s frame sub)
      | none =>
        match frame.parts with
        | [] => resolveLoop rounds steps (finishFrame s frame (.ok ⟨frame.at_, frame.hops⟩))
        | part :: _ =>
          match steps with
          | 0 => some (.overBudget, s.1, 0)
          | steps + 1 => resolveLoop rounds steps (stepFrame texts s frame part)

/-- The rounds the loop can need: every step may put a frame on the stack, and a
frame is finished and absorbed once. -/
def roundsFor (steps : ℕ) (walk : Walk) : ℕ :=
  3 * steps + 2 * walk.stack.length + (if walk.returned.isSome then 1 else 0)

/-- Resolve a link lexically: why its chain is refused, or where it ends. -/
def resolveLink (marks : Marks) (start : Place) (text : String) (steps : ℕ) :
    Option (Answer × Marks × ℕ) :=
  if startsWith text "/" then
    some (.result (.error .leaves),
      { marks with result := Function.update marks.result start (some (.error .leaves)) }, steps)
  else
    let s := enterLink (marks, { stack := [], returned := none }) start text
    resolveLoop texts (roundsFor steps s.2 + 1) steps s

/-- `node.result ?? resolveLink(node, root, budget)`. -/
def answerFor (marks : Marks) (node : Place) (steps : ℕ) : Option (Answer × Marks × ℕ) :=
  match marks.result node with
  | some result => some (.result result, marks, steps)
  | none => resolveLink texts marks node ((texts node).getD "") steps

/-- Why a link is reported. -/
inductive Complaint where
  | refused (why : Why)
  | overBudget
deriving DecidableEq

/-- The loop of `linksLeavingReleaseLexically` over the links. -/
def reportLinks : List ReleaseLink → Marks → ℕ → Option (List (ReleaseLink × Complaint))
  | [], _, _ => some []
  | link :: rest, marks, steps =>
    if link.path = releaseSharedName then reportLinks rest marks steps
    else
      match answerFor texts marks (segments link.path) steps with
      | none => none
      | some (.overBudget, _, _) => some [(link, .overBudget)]
      | some (.result (.error why), marks, steps) =>
        (reportLinks rest marks steps).map ((link, .refused why) :: ·)
      | some (.result (.ok _), marks, steps) => reportLinks rest marks steps

end

/-- The nodes before any link is resolved. -/
def noMarks : Marks := ⟨fun _ => none, fun _ => false⟩

/-- The links reported, each with why. -/
def leavingLinks (links : List ReleaseLink) (stepBudget : ℕ) :
    Option (List (ReleaseLink × Complaint)) :=
  reportLinks (textAt links) links noMarks stepBudget

/-- The text of one report. -/
def reportText (stepBudget : ℕ) : ReleaseLink × Complaint → String
  | (link, .refused why) => link.path ++ " -> " ++ link.text ++ " (" ++ why.text ++ ")"
  | (link, .overBudget) =>
    link.path ++ " -> " ++ link.text ++ " (too many link components to check: over " ++
      toString stepBudget ++ ")"

/-- Links (other than the layout's own top-level `shared`) whose chain, followed
lexically inside the release, leaves it or lands in `shared`.  The daemon calls it with
a budget of 1,000,000 components. -/
def linksLeavingReleaseLexically (links : List ReleaseLink) (stepBudget : ℕ) : Option (List String) :=
  (leavingLinks links stepBudget).map (List.map (reportText stepBudget))

/-- The pairs of fields `find` printed, less those with no path. -/
def linksOfFields : List String → List ReleaseLink
  | path :: text :: rest =>
    if path ≠ "" then ⟨path, text⟩ :: linksOfFields rest else linksOfFields rest
  | _ => []

/-- Parse `<path>\0<text>\0…` as `find` prints it. -/
def parseReleaseLinkTexts (stdout : String) : List ReleaseLink :=
  linksOfFields (JavaScript.split '\x00' stdout)

/-- What `find -printf '%P\0%l\0'` prints of a link. -/
def printedLink (link : ReleaseLink) : List Char :=
  link.path.toList ++ '\x00' :: (link.text.toList ++ ['\x00'])

/-- What `find` prints of links that are named and hold no zero character is parsed back to
the links. -/
theorem parseReleaseLinkTexts_printed (links : List ReleaseLink)
    (hlinks : ∀ link ∈ links, link.path ≠ "" ∧ '\x00' ∉ link.path.toList ∧
      '\x00' ∉ link.text.toList) :
    parseReleaseLinkTexts (String.ofList (links.flatMap printedLink)) = links := by
  rw [parseReleaseLinkTexts, JavaScript.split, String.toList_ofList]
  induction links with
  | nil => rfl
  | cons link links ih =>
    obtain ⟨hpath, hzero, hzero'⟩ := hlinks link List.mem_cons_self
    have hrest := ih fun other hother => hlinks other (List.mem_cons_of_mem _ hother)
    rw [List.flatMap_cons, printedLink, List.append_assoc, List.cons_append, List.append_assoc,
      List.splitOn_append_cons_self_of_not_mem hzero,
      List.singleton_append, List.splitOn_append_cons_self_of_not_mem hzero', List.map_cons,
      List.map_cons, String.ofList_toList, String.ofList_toList, linksOfFields, if_pos hpath, hrest]

/-! ## Plain resolution -/

/-- Why plain resolution refuses a chain. -/
inductive Refusal where
  | absolute
  | climbs
  | entersShared
  | tooManyLinks
deriving DecidableEq

section

variable (texts : Place → Option String)

/-- One more link followed. -/
def Resolved.followed (resolved : Resolved) : Resolved :=
  { resolved with hops := resolved.hops + 1 }

/-- Walk from a place along the components left, where `follow` says how the walk
goes on once a link's components are put in the place of its name. -/
def walkParts (follow : Place → List String → Except Refusal Resolved) :
    Place → List String → Except Refusal Resolved
  | place, [] => .ok ⟨place, 0⟩
  | place, part :: rest =>
    if part = ".." then
      if place = [] then .error .climbs else walkParts follow place.dropLast rest
    else if place = [] ∧ part = releaseSharedName then .error .entersShared
    else
      match texts (place ++ [part]) with
      | none => walkParts follow (place ++ [part]) rest
      | some text =>
        if startsWith text "/" then .error .absolute
        else (follow place (segments text ++ rest)).map Resolved.followed

/-- Walk, following at most so many links.  A cycle follows links without end, so
it meets the bound whatever the bound is. -/
def walkPlain : ℕ → Place → List String → Except Refusal Resolved
  | 0 => walkParts texts fun _ _ => .error .tooManyLinks
  | hops + 1 => walkParts texts (walkPlain hops)

/-- Resolve a link with the given text, component by component, with nothing
remembered: its text is walked from the directory the link is in. -/
def resolvePlain (link : Place) (text : String) : Except Refusal Resolved :=
  if startsWith text "/" then .error .absolute
  else walkPlain texts maxLinkHops link.dropLast (segments text)

/-- Where plain resolution of a listed link ends, when it is not refused. -/
def resolution (link : Place) : Option Resolved :=
  (texts link).bind fun text => (resolvePlain texts link text).toOption

/-- The components of a text that are taken, from a place and with so many links
followed, before the text ends or the chain is refused. -/
def taken : Place → ℕ → List String → ℕ
  | _, _, [] => 0
  | place, hops, part :: rest =>
    1 + if part = ".." then
        if place = [] then 0 else taken place.dropLast hops rest
      else if place = [] ∧ part = releaseSharedName then 0
      else
        match texts (place ++ [part]) with
        | none => taken (place ++ [part]) hops rest
        | some _ =>
          match resolution texts (place ++ [part]) with
          | none => 0
          | some sub =>
            if maxLinkHops < hops + 1 + sub.hops then 0
            else taken sub.at_ (hops + 1 + sub.hops) rest

/-- The components of a link's own text that its resolution takes. -/
def stepsOf (link : Place) : ℕ :=
  match texts link with
  | none => 0
  | some text => if startsWith text "/" then 0 else taken texts link.dropLast 0 (segments text)

/-- Walking the components from a place ends at a place, following so many links:
the walk with no bound on the links. -/
inductive Ends : Place → List String → Place → ℕ → Prop
  | done (place) : Ends place [] place 0
  | up {place rest end_ hops} (hplace : place ≠ []) (hrest : Ends place.dropLast rest end_ hops) :
    Ends place (".." :: rest) end_ hops
  | down {place part rest end_ hops} (hpart : part ≠ "..")
    (hshared : ¬(place = [] ∧ part = releaseSharedName)) (htext : texts (place ++ [part]) = none)
    (hrest : Ends (place ++ [part]) rest end_ hops) : Ends place (part :: rest) end_ hops
  | link {place part rest text mid first end_ second} (hpart : part ≠ "..")
    (hshared : ¬(place = [] ∧ part = releaseSharedName))
    (htext : texts (place ++ [part]) = some text) (hrelative : startsWith text "/" = false)
    (hlink : Ends place (segments text) mid first) (hrest : Ends mid rest end_ second) :
    Ends place (part :: rest) end_ (first + 1 + second)

/-- A listed link with a relative text resolves to a place, following so many further
links. -/
def Target (link place : Place) (hops : ℕ) : Prop :=
  ∃ text, texts link = some text ∧ startsWith text "/" = false ∧
    Ends texts link.dropLast (segments text) place hops

end

section

variable {texts : Place → Option String}

theorem ends_nil_iff {place end_ : Place} {hops : ℕ} :
    Ends texts place [] end_ hops ↔ end_ = place ∧ hops = 0 := by
  constructor
  · intro h
    cases h
    exact ⟨rfl, rfl⟩
  · rintro ⟨rfl, rfl⟩
    exact .done _

theorem ends_up_iff {place end_ : Place} {rest : List String} {hops : ℕ} :
    Ends texts place (".." :: rest) end_ hops ↔
      place ≠ [] ∧ Ends texts place.dropLast rest end_ hops := by
  constructor
  · intro h
    cases h with
    | up hplace hrest => exact ⟨hplace, hrest⟩
    | down hpart => exact absurd rfl hpart
    | link hpart => exact absurd rfl hpart
  · rintro ⟨hplace, hrest⟩
    exact .up hplace hrest

theorem not_ends_shared {place end_ : Place} {part : String} {rest : List String} {hops : ℕ}
    (hpart : part ≠ "..") (hshared : place = [] ∧ part = releaseSharedName) :
    ¬Ends texts place (part :: rest) end_ hops := by
  intro h
  cases h with
  | up => exact hpart rfl
  | down _ hnot => exact hnot hshared
  | link _ hnot => exact hnot hshared

theorem ends_down_iff {place end_ : Place} {part : String} {rest : List String} {hops : ℕ}
    (hpart : part ≠ "..") (hshared : ¬(place = [] ∧ part = releaseSharedName))
    (htext : texts (place ++ [part]) = none) :
    Ends texts place (part :: rest) end_ hops ↔ Ends texts (place ++ [part]) rest end_ hops := by
  constructor
  · intro h
    cases h with
    | up => exact absurd rfl hpart
    | down _ _ _ hrest => exact hrest
    | link _ _ hsome => simp [htext] at hsome
  · exact .down hpart hshared htext

/-- A component that names a link is replaced by that link's resolution. -/
theorem ends_link_iff {place end_ : Place} {part text : String} {rest : List String} {hops : ℕ}
    (hpart : part ≠ "..") (hshared : ¬(place = [] ∧ part = releaseSharedName))
    (htext : texts (place ++ [part]) = some text) :
    Ends texts place (part :: rest) end_ hops ↔
      ∃ mid first second, Target texts (place ++ [part]) mid first ∧
        Ends texts mid rest end_ second ∧ hops = first + 1 + second := by
  constructor
  · intro h
    cases h with
    | up => exact absurd rfl hpart
    | down _ _ hnone => simp [htext] at hnone
    | @link _ _ _ text _ first _ second _ _ hsome hrelative hlink hrest =>
      refine ⟨_, first, second, ⟨text, hsome, hrelative, ?_⟩, hrest, rfl⟩
      rw [List.dropLast_concat]
      exact hlink
  · rintro ⟨mid, first, second, ⟨text, hsome, hrelative, hlink⟩, hrest, rfl⟩
    rw [List.dropLast_concat] at hlink
    exact .link hpart hshared hsome hrelative hlink hrest

theorem ends_unique {place end_ end' : Place} {parts : List String} {hops hops' : ℕ}
    (h : Ends texts place parts end_ hops) (h' : Ends texts place parts end' hops') :
    end_ = end' ∧ hops = hops' := by
  induction h generalizing end' hops' with
  | done =>
    obtain ⟨rfl, rfl⟩ := ends_nil_iff.mp h'
    exact ⟨rfl, rfl⟩
  | up _ _ ih => exact ih (ends_up_iff.mp h').2
  | down hpart hshared htext _ ih => exact ih ((ends_down_iff hpart hshared htext).mp h')
  | link hpart hshared htext _ _ _ ihlink ihrest =>
    obtain ⟨mid, first, second, ⟨text, hsome, _, hlink⟩, hrest, rfl⟩ :=
      (ends_link_iff hpart hshared htext).mp h'
    rw [List.dropLast_concat] at hlink
    rw [htext] at hsome
    obtain rfl := Option.some.inj hsome
    obtain ⟨rfl, rfl⟩ := ihlink hlink
    obtain ⟨rfl, rfl⟩ := ihrest hrest
    exact ⟨rfl, rfl⟩

theorem target_unique {link place place' : Place} {hops hops' : ℕ}
    (h : Target texts link place hops) (h' : Target texts link place' hops') :
    place = place' ∧ hops = hops' := by
  obtain ⟨text, htext, -, hends⟩ := h
  obtain ⟨text', htext', -, hends'⟩ := h'
  rw [htext] at htext'
  obtain rfl := Option.some.inj htext'
  exact ends_unique hends hends'

theorem ends_append_iff {place end_ : Place} {front back : List String} {hops : ℕ} :
    Ends texts place (front ++ back) end_ hops ↔
      ∃ mid first second, Ends texts place front mid first ∧ Ends texts mid back end_ second ∧
        hops = first + second := by
  constructor
  · intro h
    induction front generalizing place hops with
    | nil => exact ⟨place, 0, hops, .done _, h, (Nat.zero_add _).symm⟩
    | cons part front ih =>
      cases h with
      | up hplace hrest =>
        obtain ⟨mid, first, second, hfront, hback, rfl⟩ := ih hrest
        exact ⟨mid, first, second, .up hplace hfront, hback, rfl⟩
      | down hpart hshared htext hrest =>
        obtain ⟨mid, first, second, hfront, hback, rfl⟩ := ih hrest
        exact ⟨mid, first, second, .down hpart hshared htext hfront, hback, rfl⟩
      | @link _ _ _ _ _ third _ _ hpart hshared htext hrelative hlink hrest =>
        obtain ⟨mid, first, second, hfront, hback, rfl⟩ := ih hrest
        exact ⟨mid, third + 1 + first, second, .link hpart hshared htext hrelative hlink hfront,
          hback, (Nat.add_assoc _ _ _).symm⟩
  · rintro ⟨mid, first, second, hfront, hback, rfl⟩
    induction hfront with
    | done =>
      rw [Nat.zero_add]
      exact hback
    | up hplace _ ih => exact .up hplace (ih hback)
    | down hpart hshared htext _ ih => exact .down hpart hshared htext (ih hback)
    | link hpart hshared htext hrelative hlink _ _ ih =>
      rw [Nat.add_assoc]
      exact .link hpart hshared htext hrelative hlink (ih hback)

theorem map_followed_eq_ok_iff {walked : Except Refusal Resolved} {resolved : Resolved} :
    walked.map Resolved.followed = .ok resolved ↔
      ∃ hops, walked = .ok ⟨resolved.at_, hops⟩ ∧ resolved.hops = hops + 1 := by
  obtain ⟨place, hops⟩ := resolved
  cases walked with
  | error refusal => simp [Except.map]
  | ok walked =>
    obtain ⟨place', hops'⟩ := walked
    simp only [Except.map, Resolved.followed, Except.ok.injEq, Resolved.mk.injEq]
    constructor
    · rintro ⟨rfl, rfl⟩
      exact ⟨hops', ⟨rfl, rfl⟩, rfl⟩
    · rintro ⟨_, ⟨rfl, rfl⟩, rfl⟩
      exact ⟨rfl, rfl⟩

theorem walkParts_eq_ok_iff {follow : Place → List String → Except Refusal Resolved}
    (within : ℕ → Prop) (hzero : within 0)
    (hfollow : ∀ place parts end_ hops, follow place parts = .ok ⟨end_, hops⟩ ↔
      within (hops + 1) ∧ Ends texts place parts end_ hops)
    (place : Place) (parts : List String) (end_ : Place) (hops : ℕ) :
    walkParts texts follow place parts = .ok ⟨end_, hops⟩ ↔
      within hops ∧ Ends texts place parts end_ hops := by
  induction parts generalizing place with
  | nil =>
    rw [walkParts, ends_nil_iff, Except.ok.injEq, Resolved.mk.injEq]
    constructor
    · rintro ⟨rfl, rfl⟩
      exact ⟨hzero, rfl, rfl⟩
    · rintro ⟨-, rfl, rfl⟩
      exact ⟨rfl, rfl⟩
  | cons part rest ih =>
    rw [walkParts]
    by_cases hpart : part = ".."
    · subst hpart
      rw [if_pos rfl]
      by_cases hplace : place = []
      · simp [hplace, ends_up_iff]
      · simp [hplace, ends_up_iff, ih]
    rw [if_neg hpart]
    by_cases hshared : place = [] ∧ part = releaseSharedName
    · rw [if_pos hshared]
      simp [not_ends_shared hpart hshared]
    rw [if_neg hshared]
    cases htext : texts (place ++ [part]) with
    | none =>
      rw [ends_down_iff hpart hshared htext]
      exact ih _
    | some text =>
      simp only
      by_cases habsolute : startsWith text "/" = true
      · simp [habsolute, ends_link_iff hpart hshared htext, Target, htext]
      rw [if_neg habsolute, map_followed_eq_ok_iff]
      simp only [hfollow, ends_append_iff]
      constructor
      · rintro ⟨_, ⟨hwithin, mid, first, second, hlink, hrest, rfl⟩, rfl⟩
        refine ⟨hwithin, ?_⟩
        rw [Nat.add_right_comm]
        exact .link hpart hshared htext (Bool.eq_false_iff.mpr habsolute) hlink hrest
      · rintro ⟨hwithin, hends⟩
        obtain ⟨mid, first, second, ⟨_, hsome, -, hlink⟩, hrest, rfl⟩ :=
          (ends_link_iff hpart hshared htext).mp hends
        rw [htext] at hsome
        obtain rfl := Option.some.inj hsome
        rw [List.dropLast_concat] at hlink
        rw [Nat.add_right_comm] at hwithin ⊢
        exact ⟨first + second, ⟨hwithin, mid, first, second, hlink, hrest, rfl⟩, rfl⟩

/-- The walk with a bound on the links succeeds exactly when the walk without one ends
within it. -/
theorem walkPlain_eq_ok_iff (bound : ℕ) (place : Place) (parts : List String) (end_ : Place)
    (hops : ℕ) :
    walkPlain texts bound place parts = .ok ⟨end_, hops⟩ ↔
      hops ≤ bound ∧ Ends texts place parts end_ hops := by
  induction bound generalizing place parts end_ hops with
  | zero =>
    apply walkParts_eq_ok_iff (· ≤ 0) le_rfl
    intro place parts end_ hops
    simp
  | succ bound ih =>
    apply walkParts_eq_ok_iff (· ≤ bound + 1) (Nat.zero_le _)
    intro place parts end_ hops
    rw [Nat.add_le_add_iff_right]
    exact ih place parts end_ hops

theorem resolution_eq_some_iff {link end_ : Place} {hops : ℕ} :
    resolution texts link = some ⟨end_, hops⟩ ↔
      hops ≤ maxLinkHops ∧ Target texts link end_ hops := by
  rw [resolution, Target]
  cases htext : texts link with
  | none => simp
  | some text =>
    rw [Option.bind_some, resolvePlain]
    by_cases habsolute : startsWith text "/" = true
    · simp [habsolute, Except.toOption]
    · rw [if_neg habsolute]
      have hplain : walkPlain texts maxLinkHops link.dropLast (segments text) = .ok ⟨end_, hops⟩ ↔ _ :=
        walkPlain_eq_ok_iff maxLinkHops link.dropLast (segments text) end_ hops
      cases hwalk : walkPlain texts maxLinkHops link.dropLast (segments text) with
      | error refusal => simpa [Except.toOption, hwalk, habsolute] using hplain
      | ok resolved => simpa [Except.toOption, hwalk, habsolute] using hplain

theorem resolution_eq_none_iff {link : Place} :
    resolution texts link = none ↔
      ∀ place hops, Target texts link place hops → maxLinkHops < hops := by
  rw [Option.eq_none_iff_forall_not_mem]
  constructor
  · intro hnone place hops htarget
    by_contra hmany
    exact hnone ⟨place, hops⟩ (resolution_eq_some_iff.mpr ⟨Nat.le_of_not_lt hmany, htarget⟩)
  · rintro hmany ⟨place, hops⟩ hsome
    obtain ⟨hfew, htarget⟩ := resolution_eq_some_iff.mp hsome
    exact absurd (hmany place hops htarget) (Nat.not_lt.mpr hfew)

/-- A link that ends only after ending earlier does not end. -/
theorem not_target_of_smaller {link : Place}
    (hsmaller : ∀ place hops, Target texts link place hops →
      ∃ place' hops', Target texts link place' hops' ∧ hops' < hops)
    (place : Place) (hops : ℕ) : ¬Target texts link place hops := by
  intro htarget
  obtain ⟨_, _, hagain, hless⟩ := hsmaller place hops htarget
  exact absurd (target_unique htarget hagain).2 (Nat.ne_of_gt hless)

variable (texts) in
/-- Resolving a link meets another: so far along its text, the next component names it. -/
def Meets (link next : Place) : Prop :=
  ∃ text front part rest mid hops, texts link = some text ∧ segments text = front ++ part :: rest ∧
    Ends texts link.dropLast front mid hops ∧ part ≠ ".." ∧
    ¬(mid = [] ∧ part = releaseSharedName) ∧ next = mid ++ [part] ∧ texts next ≠ none

theorem Meets.smaller {link next : Place} (hmeets : Meets texts link next) {place : Place}
    {hops : ℕ} (htarget : Target texts link place hops) :
    ∃ place' hops', Target texts next place' hops' ∧ hops' < hops := by
  obtain ⟨text, front, part, rest, mid, before, htext, hparts, hfront, hpart, hshared, rfl, hnext⟩ :=
    hmeets
  obtain ⟨text', htext', -, hends⟩ := htarget
  rw [htext] at htext'
  obtain rfl := Option.some.inj htext'
  rw [hparts, ends_append_iff] at hends
  obtain ⟨mid', first, second, hfront', hback, rfl⟩ := hends
  obtain ⟨rfl, rfl⟩ := ends_unique hfront hfront'
  obtain ⟨next, hnext⟩ := Option.ne_none_iff_exists'.mp hnext
  obtain ⟨end_, third, fourth, hlink, -, rfl⟩ := (ends_link_iff hpart hshared hnext).mp hback
  exact ⟨end_, third, hlink, by omega⟩

/-- A link whose chain meets a cycle is refused: it would follow links without end. -/
theorem resolution_eq_none_of_cycle {link met : Place}
    (hmet : Relation.ReflTransGen (Meets texts) link met)
    (hcycle : Relation.TransGen (Meets texts) met met) : resolution texts link = none := by
  have hsmaller : ∀ {next}, Relation.TransGen (Meets texts) met next → ∀ place hops,
      Target texts met place hops → ∃ place' hops', Target texts next place' hops' ∧ hops' < hops := by
    intro next hmeets
    induction hmeets with
    | single hmeets => exact fun place hops => hmeets.smaller
    | tail _ hmeets ih =>
      intro place hops htarget
      obtain ⟨place', hops', htarget', hless⟩ := ih place hops htarget
      obtain ⟨place'', hops'', htarget'', hless'⟩ := hmeets.smaller htarget'
      exact ⟨place'', hops'', htarget'', hless'.trans hless⟩
  have hends : ∀ place hops, ¬Target texts link place hops := by
    induction hmet using Relation.ReflTransGen.head_induction_on with
    | refl => exact not_target_of_smaller (hsmaller hcycle)
    | head hmeets _ ih =>
      intro place hops htarget
      obtain ⟨place', hops', htarget', -⟩ := hmeets.smaller htarget
      exact ih place' hops' htarget'
  exact resolution_eq_none_iff.mpr fun place hops htarget => absurd htarget (hends place hops)

end

end Turbopaneld.Deploy
