/-
# Where a bind lands

The walk the gate makes over a bind source, component by component, and the text it
hands to the bind policy.  A path the walk returns should name no link: it is the only
thing the policy looks at.

The walk is an instance of the general one over places; the texts it keeps are the
places' own.  It returns a path free of links for every file system and every source,
except where a missing name is climbed out of by text.
-/

import Mathlib.Tactic.Common
import Turbopaneld.DockerGate.Policy
import Turbopaneld.Paths.Resolve

namespace Turbopaneld.DockerGate

open JavaScript
open Paths (Component Target Entry FileTree Resolving)

/-! ## The walk -/

/-- What `kind` says of a path that exists. -/
inductive PathKind where
  | link
  | other
deriving DecidableEq

/-- `PathProbe`, over a file system that does not change. -/
structure PathProbe where
  kind : String → Option PathKind
  readLink : String → String

/-- `MAX_SYMLINK_HOPS`. -/
def maxSymlinkHops : ℕ := 40

/-- `parentOf`. -/
def parentOf (path : String) : String :=
  if lastIndexOf '/' path ≤ 0 then "/" else takeChars path (lastIndexOf '/' path).toNat

/-- `childOf`. -/
def childOf (base name : String) : String :=
  if base = "/" then "/" ++ name else base ++ "/" ++ name

/-- `segments`. -/
def segments (path : String) : List String :=
  (split '/' path).filter fun part => part ≠ "" && part ≠ "."

/-- `Walk`. -/
structure BindWalk where
  pending : List String
  resolved : String
  hops : ℕ
  done : Option String

/-- `appendRest`. -/
def appendRest (base : String) (rest : List String) : String :=
  rest.foldl (fun out part => if part = ".." then parentOf out else childOf out part) base

/-- `walkOne`, with the pending components already taken apart. -/
def walkOne (probe : PathProbe) (walk : BindWalk) (name : String) (rest : List String) :
    Except String BindWalk :=
  if name = ".." then
    .ok { walk with pending := rest, resolved := parentOf walk.resolved }
  else
    let next := childOf walk.resolved name
    match probe.kind next with
    | none => .ok { walk with pending := rest, done := some (appendRest next rest) }
    | some .other => .ok { walk with pending := rest, resolved := next }
    | some .link =>
      let hops := walk.hops + 1
      if hops > maxSymlinkHops then .error "too many symbolic links"
      else
        let target := probe.readLink next
        .ok { walk with
          pending := segments target ++ rest
          resolved := if startsWith target "/" then "/" else walk.resolved
          hops := hops }

/-- The rounds of `resolveBindPath`, at most `fuel` of them. -/
def resolveLoop (probe : PathProbe) : ℕ → BindWalk → Option (Except String BindWalk)
  | 0, _ => none
  | fuel + 1, walk =>
    match walk.done, walk.pending with
    | some _, _ => some (.ok walk)
    | none, [] => some (.ok walk)
    | none, name :: rest =>
      match walkOne probe walk name rest with
      | .error error => some (.error error)
      | .ok walk' => resolveLoop probe fuel walk'

/-- `resolveBindPath`, with a bound on its rounds. -/
def resolveBindPath (probe : PathProbe) (path : String) (fuel : ℕ) :
    Option (Except String String) :=
  (resolveLoop probe fuel ⟨segments path, "/", 0, none⟩).map
    (·.map fun walk => walk.done.getD walk.resolved)

/-! ## Places -/

/-- A component that names something. -/
structure PathName where
  text : String
  nonempty : text ≠ ""
  notHere : text ≠ "."
  notUp : text ≠ ".."
  plain : '/' ∉ text.toList

/-- The path of a place: its names, each after a slash. -/
def placeText (place : List PathName) : String :=
  if place = [] then "/"
  else String.ofList (place.flatMap fun name => '/' :: name.text.toList)

/-- What the walk makes of one part of a path. -/
def component? (part : String) : Option (Component PathName) :=
  if hup : part = ".." then some .up
  else if h : part ≠ "" ∧ part ≠ "." ∧ '/' ∉ part.toList then
    some (.name ⟨part, h.1, h.2.1, hup, h.2.2⟩)
  else none

/-- The components of a path. -/
def components (path : String) : List (Component PathName) := (split '/' path).filterMap component?

/-- The text of a component. -/
def partText : Component PathName → String
  | .up => ".."
  | .name name => name.text

/-- A file system a probe looks at: its root is a directory, and nothing stands below a
missing path. -/
structure FileSystem extends PathProbe where
  root : kind "/" = some .other
  below : ∀ place name, kind (placeText place) = none → kind (placeText (place ++ [name])) = none

namespace FileSystem

/-- What stands at a place. -/
def entry (fs : FileSystem) (place : List PathName) : Entry PathName :=
  match fs.kind (placeText place) with
  | none => .missing
  | some .other => .plain
  | some .link =>
    .link ⟨startsWith (fs.readLink (placeText place)) "/",
      components (fs.readLink (placeText place))⟩

theorem entry_eq_missing_iff (fs : FileSystem) (place : List PathName) :
    fs.entry place = .missing ↔ fs.kind (placeText place) = none := by
  rw [entry]
  split <;> simp [*]

/-- The file system by places. -/
def tree (fs : FileSystem) : FileTree PathName where
  entry := fs.entry
  root := by
    rw [entry, placeText, if_pos rfl, fs.root]
  below := by
    intro place name
    rw [entry_eq_missing_iff, entry_eq_missing_iff]
    exact fs.below place name

end FileSystem

/-! ## The texts of places -/

theorem placeText_nil : placeText [] = "/" := rfl

theorem placeText_append_singleton (place : List PathName) (name : PathName) :
    placeText (place ++ [name]) =
      (if place = [] then "" else placeText place) ++ String.singleton '/' ++ name.text := by
  rw [placeText, if_neg (by simp), ← String.toList_inj]
  by_cases hplace : place = []
  · simp [hplace]
  · simp [hplace, placeText]

theorem placeText_ne_root {place : List PathName} (hplace : place ≠ []) : placeText place ≠ "/" := by
  obtain ⟨name, rest, rfl⟩ := List.exists_cons_of_ne_nil hplace
  intro heq
  rw [placeText, if_neg hplace, ← String.toList_inj, String.toList_ofList, List.flatMap_cons,
    List.cons_append] at heq
  have hnil := List.append_eq_nil_iff.mp (List.cons.inj heq).2
  exact name.nonempty (String.toList_inj.mp hnil.1)

theorem childOf_placeText (place : List PathName) (name : PathName) :
    childOf (placeText place) name.text = placeText (place ++ [name]) := by
  rw [placeText_append_singleton, childOf]
  by_cases hplace : place = []
  · rw [if_pos hplace, hplace, if_pos placeText_nil, String.empty_append]
    rfl
  · rw [if_neg hplace, if_neg (placeText_ne_root hplace)]
    rfl

theorem parentOf_placeText (place : List PathName) :
    parentOf (placeText place) = placeText place.dropLast := by
  obtain rfl | ⟨front, name, rfl⟩ := List.eq_nil_or_concat' place
  · rfl
  · rw [List.dropLast_concat, parentOf, placeText_append_singleton, lastIndexOf_eq name.plain]
    by_cases hfront : front = []
    · rw [if_pos hfront, if_pos (by simp), hfront, placeText_nil]
    · have hpos : 0 < (placeText front).length := by
        rw [← String.length_toList, List.length_pos_iff, placeText, if_neg hfront, String.toList_ofList]
        obtain ⟨first, more, rfl⟩ := List.exists_cons_of_ne_nil hfront
        simp
      rw [if_neg hfront, if_neg (by omega), takeChars, Int.toNat_natCast, String.toList_append,
        String.toList_append, List.append_assoc, ← String.length_toList, List.take_left,
        String.ofList_toList]

theorem appendRest_placeText (place : List PathName) (parts : List (Component PathName)) :
    appendRest (placeText place) (parts.map partText) = placeText (Paths.byText place parts) := by
  induction parts generalizing place with
  | nil => rfl
  | cons part rest ih =>
    rw [appendRest, List.map_cons, List.foldl_cons, ← appendRest]
    cases part with
    | up => rw [partText, if_pos rfl, parentOf_placeText, ih, Paths.byText]
    | name name => rw [partText, if_neg name.notUp, childOf_placeText, ih, Paths.byText]

theorem segments_eq (path : String) : segments path = (components path).map partText := by
  have hpieces : ∀ piece ∈ split '/' path, '/' ∉ piece.toList := fun _ => notMem_of_mem_split
  rw [segments, components]
  generalize split '/' path = pieces at hpieces ⊢
  induction pieces with
  | nil => rfl
  | cons piece rest ih =>
    obtain ⟨hpiece, hrest⟩ := List.forall_mem_cons.mp hpieces
    rw [List.filter_cons, List.filterMap_cons, ih hrest]
    by_cases hup : piece = ".."
    · simp [hup, component?, partText]
    · by_cases hnamed : piece ≠ "" ∧ piece ≠ "."
      · simp [hup, component?, partText, hpiece, hnamed]
      · have hskip : piece = "" ∨ piece = "." := by
          rw [not_and_or, not_not, not_not] at hnamed
          exact hnamed
        obtain rfl | rfl := hskip
        · rfl
        · rfl

theorem append_flatMap_eq_intercalate (front : List Char) (place : List PathName) :
    (front ++ place.flatMap fun name => '/' :: name.text.toList) =
      ['/'].intercalate (front :: place.map (·.text.toList)) := by
  induction place generalizing front with
  | nil => simp
  | cons name rest ih =>
    rw [List.flatMap_cons, List.cons_append, ih, List.map_cons, List.intercalate_cons_cons,
      List.append_assoc, List.singleton_append]

theorem split_placeText {place : List PathName} (hplace : place ≠ []) :
    split '/' (placeText place) = "" :: place.map (·.text) := by
  have hparts : ∀ chars ∈ [] :: place.map (·.text.toList), '/' ∉ chars := by
    rw [List.forall_mem_cons, List.forall_mem_map]
    exact ⟨List.not_mem_nil, fun name _ => name.plain⟩
  rw [split, placeText, if_neg hplace, String.toList_ofList, ← List.nil_append (List.flatMap _ _),
    append_flatMap_eq_intercalate, List.splitOn_intercalate '/' hparts (List.cons_ne_nil _ _),
    List.map_cons, List.map_map]
  simp

/-- A place is read back from its path. -/
theorem components_placeText (place : List PathName) :
    components (placeText place) = place.map .name := by
  have hname (name : PathName) : component? name.text = some (.name name) := by
    rw [component?, dif_neg name.notUp, dif_pos ⟨name.nonempty, name.notHere, name.plain⟩]
  by_cases hplace : place = []
  · rw [hplace]
    rfl
  · rw [components, split_placeText hplace, List.filterMap_cons_none rfl, List.filterMap_map]
    simp only [Function.comp_def, hname, List.filterMap_eq_map']

/-! ## The walk goes over places -/

/-- The source's walk where the general one stands. -/
def bindWalk (walk : Resolving PathName) : BindWalk :=
  ⟨walk.todo.map partText, placeText walk.place, walk.followed, none⟩

/-- What the source makes of where the general walk ends. -/
def outcomeOf : Option (List PathName) → Except String String
  | none => .error "too many symbolic links"
  | some place => .ok (placeText place)

theorem walkOne_up (probe : PathProbe) (place : List PathName) (rest : List (Component PathName))
    (followed : ℕ) :
    walkOne probe (bindWalk ⟨place, .up :: rest, followed⟩) ".." (rest.map partText) =
      .ok (bindWalk ⟨place.dropLast, rest, followed⟩) := by
  rw [walkOne, if_pos rfl, bindWalk, bindWalk, parentOf_placeText]

/-- One round of the source's loop takes one component of the general walk. -/
theorem walkOne_name (fs : FileSystem) (place : List PathName) (name : PathName)
    (rest : List (Component PathName)) (followed : ℕ) :
    walkOne fs.toPathProbe (bindWalk ⟨place, .name name :: rest, followed⟩) name.text
        (rest.map partText) =
      match Paths.turn fs.tree maxSymlinkHops ⟨place, .name name :: rest, followed⟩ with
      | .done there => .ok ⟨rest.map partText, placeText place, followed, some (placeText there)⟩
      | .tooMany => .error "too many symbolic links"
      | .at walk => .ok (bindWalk walk) := by
  rw [walkOne, if_neg name.notUp, Paths.turn, bindWalk]
  dsimp only
  rw [childOf_placeText, FileSystem.tree]
  dsimp only
  rw [FileSystem.entry]
  cases fs.kind (placeText (place ++ [name])) with
  | none =>
    dsimp only
    rw [appendRest_placeText]
  | some kind =>
    cases kind with
    | other => rfl
    | link =>
      dsimp only
      split
      case isTrue => rfl
      case isFalse =>
        dsimp only
        rw [bindWalk, List.map_append, segments_eq]
        split
        · rfl
        · rfl

/-- What the loop's last walk comes to. -/
def landing (result : Option (Except String BindWalk)) : Option (Except String String) :=
  result.map (·.map fun walk => walk.done.getD walk.resolved)

theorem resolveLoop_cons (probe : PathProbe) (fuel : ℕ) (place : List PathName)
    (part : Component PathName) (rest : List (Component PathName)) (followed : ℕ) :
    resolveLoop probe (fuel + 1) (bindWalk ⟨place, part :: rest, followed⟩) =
      match walkOne probe (bindWalk ⟨place, part :: rest, followed⟩) (partText part)
        (rest.map partText) with
      | .error error => some (.error error)
      | .ok walk' => resolveLoop probe fuel walk' := rfl

/-- The source's loop, with enough rounds, ends where the general walk ends. -/
theorem resolveLoop_of_ends (fs : FileSystem) {walk : Resolving PathName}
    {outcome : Option (List PathName)} (hends : Paths.Ends fs.tree maxSymlinkHops walk outcome) :
    ∃ fuel, landing (resolveLoop fs.toPathProbe fuel (bindWalk walk)) = some (outcomeOf outcome) := by
  induction hends with
  | @done walk place hturn =>
    obtain ⟨here, todo, followed⟩ := walk
    cases todo with
    | nil =>
      obtain rfl := Paths.Turn.done.inj hturn
      exact ⟨1, rfl⟩
    | cons part rest =>
      cases part with
      | up => cases hturn
      | name name =>
        refine ⟨2, ?_⟩
        rw [resolveLoop_cons, partText, walkOne_name, hturn]
        rfl
  | @tooMany walk hturn =>
    obtain ⟨here, todo, followed⟩ := walk
    cases todo with
    | nil => cases hturn
    | cons part rest =>
      cases part with
      | up => cases hturn
      | name name =>
        refine ⟨1, ?_⟩
        rw [resolveLoop_cons, partText, walkOne_name, hturn]
        rfl
  | @step walk walk' outcome hturn _ ih =>
    obtain ⟨fuel, hfuel⟩ := ih
    refine ⟨fuel + 1, ?_⟩
    obtain ⟨here, todo, followed⟩ := walk
    cases todo with
    | nil => cases hturn
    | cons part rest =>
      rw [resolveLoop_cons]
      cases part with
      | up =>
        obtain rfl := Paths.Turn.at.inj hturn
        rw [partText, walkOne_up]
        exact hfuel
      | name name =>
        rw [partText, walkOne_name, hturn]
        exact hfuel

/-- More rounds change nothing. -/
theorem resolveLoop_mono {probe : PathProbe} {fuel fuel' : ℕ} (hle : fuel ≤ fuel')
    {walk : BindWalk} {result : Except String BindWalk}
    (h : resolveLoop probe fuel walk = some result) :
    resolveLoop probe fuel' walk = some result := by
  induction fuel generalizing fuel' walk with
  | zero => cases h
  | succ fuel ih =>
    obtain ⟨more, rfl⟩ := Nat.exists_eq_add_of_le' hle
    rw [← Nat.add_assoc, resolveLoop]
    rw [resolveLoop] at h
    split
    case h_1 hdone => simpa [hdone] using h
    case h_2 hdone hpending => simpa [hdone, hpending] using h
    case h_3 name rest hdone hpending =>
      rw [hdone, hpending] at h
      cases hone : walkOne probe walk name rest with
      | error error => simpa [hone] using h
      | ok walk' =>
        simp only [hone] at h
        exact ih (by omega) h

/-! ## What it returns -/

/-- The call ends with this outcome: from some number of rounds on, a larger bound changes
nothing. -/
def Returns (fs : FileSystem) (path : String) (outcome : Except String String) : Prop :=
  ∃ rounds, ∀ fuel, rounds ≤ fuel → resolveBindPath fs.toPathProbe path fuel = some outcome

theorem Returns.of_eq {fs : FileSystem} {path : String} {outcome : Except String String} (fuel : ℕ)
    (h : resolveBindPath fs.toPathProbe path fuel = some outcome) : Returns fs path outcome := by
  refine ⟨fuel, ?_⟩
  intro fuel' hle
  obtain ⟨result, hresult, rfl⟩ := Option.map_eq_some_iff.mp h
  rw [resolveBindPath, resolveLoop_mono hle hresult]
  rfl

theorem Returns.unique {fs : FileSystem} {path : String} {outcome outcome' : Except String String}
    (h : Returns fs path outcome) (h' : Returns fs path outcome') : outcome = outcome' := by
  obtain ⟨rounds, hrounds⟩ := h
  obtain ⟨rounds', hrounds'⟩ := h'
  have hboth := (hrounds _ (Nat.le_max_left rounds rounds')).symm.trans
    (hrounds' _ (Nat.le_max_right rounds rounds'))
  exact Option.some.inj hboth

/-- The general walk the call makes. -/
def walkOf (path : String) : Resolving PathName := ⟨[], components path, 0⟩

theorem returns_of_ends {fs : FileSystem} {path : String} {outcome : Option (List PathName)}
    (hends : Paths.Ends fs.tree maxSymlinkHops (walkOf path) outcome) :
    Returns fs path (outcomeOf outcome) := by
  obtain ⟨fuel, hfuel⟩ := resolveLoop_of_ends fs hends
  apply Returns.of_eq fuel
  rw [resolveBindPath, segments_eq]
  exact hfuel

/-- The path is a place no link stands on the way to, and resolving it changes nothing. -/
structure ReallyResolved (fs : FileSystem) (path : String) : Prop where
  named : ∃ place, path = placeText place ∧
    ∀ front, front <+: place → fs.kind (placeText front) ≠ some .link
  again : Returns fs path (.ok path)

theorem placeText_injective : Function.Injective placeText := by
  intro place place' heq
  have hparts := congrArg components heq
  rw [components_placeText, components_placeText] at hparts
  exact List.map_injective_iff.mpr (fun _ _ h => Component.name.inj h) hparts

theorem entry_ne_link_iff (fs : FileSystem) (place : List PathName) :
    (∀ target, fs.entry place ≠ .link target) ↔ fs.kind (placeText place) ≠ some .link := by
  rw [FileSystem.entry]
  cases fs.kind (placeText place) with
  | none => simp
  | some kind =>
    cases kind with
    | other => simp
    | link => simp

theorem reallyResolved_iff_clean (fs : FileSystem) (place : List PathName) :
    ReallyResolved fs (placeText place) ↔ Paths.Clean fs.tree place := by
  constructor
  · rintro ⟨⟨place', hplace, hfronts⟩, -⟩ front hfront
    obtain rfl := placeText_injective hplace
    exact (entry_ne_link_iff fs front).mpr (hfronts front hfront)
  · intro hclean
    refine ⟨⟨place, rfl, fun front hfront => (entry_ne_link_iff fs front).mp (hclean front hfront)⟩, ?_⟩
    have hends : Paths.Ends fs.tree maxSymlinkHops (walkOf (placeText place)) (some place) := by
      rw [walkOf, components_placeText]
      exact hclean.ends 0
    exact returns_of_ends hends

/-- The walk over the path climbs out of a missing name and into a link. -/
def ClimbsIntoLink (fs : FileSystem) (path : String) : Prop :=
  Paths.ClimbsIntoLink fs.tree maxSymlinkHops (walkOf path)

/-- The call always ends, and what it returns is free of links exactly when the walk never
climbs out of a missing name and into one. -/
theorem resolveBindPath_resolves_iff (fs : FileSystem) (path : String) :
    ∃ outcome, Returns fs path outcome ∧
      ((∀ resolved, outcome = .ok resolved → ReallyResolved fs resolved) ↔
        ¬ClimbsIntoLink fs path) := by
  obtain ⟨outcome, hends⟩ : ∃ outcome, Paths.Ends fs.tree maxSymlinkHops (walkOf path) outcome :=
    Paths.exists_ends _
  refine ⟨outcomeOf outcome, returns_of_ends hends, ?_⟩
  rw [ClimbsIntoLink, ← hends.clean_iff (Paths.clean_nil fs.tree)]
  cases outcome with
  | none => simp [outcomeOf]
  | some place => simp [outcomeOf, reallyResolved_iff_clean]

/-! ## What the policy judges -/

theorem normalSegments_names (place : List PathName) :
    normalSegments ("" :: place.map (·.text)) = place.map (·.text) := by
  have hkept (out : List String) : (place.map (·.text)).foldl (fun out segment =>
      if segment = "" ∨ segment = "." then out
      else if segment = ".." then out.dropLast
      else out ++ [segment]) out = out ++ place.map (·.text) := by
    induction place generalizing out with
    | nil => simp
    | cons name rest ih =>
      rw [List.map_cons, List.foldl_cons, if_neg (not_or.mpr ⟨name.nonempty, name.notHere⟩),
        if_neg name.notUp, ih, List.append_assoc, List.singleton_append]
  rw [normalSegments, List.foldl_cons, if_pos (.inl rfl), hkept, List.nil_append]

/-- The policy judges the very text the walk returned: normalizing it changes nothing. -/
theorem resolvedSource_eq {runtime : Runtime} {source : String} {place : List PathName}
    (hresolved : runtime.resolvePath source = some (placeText place)) :
    resolvedSource source runtime = placeText place := by
  rw [resolvedSource, hresolved, Option.getD_some, normalizeAbsolute]
  by_cases hplace : place = []
  · rw [hplace]
    rfl
  · have hmap : place.map (·.text.toList) ≠ [] := by simpa using hplace
    obtain ⟨first, rest, hfirst⟩ := List.exists_cons_of_ne_nil hmap
    rw [split_placeText hplace, normalSegments_names, ← String.toList_inj, placeText, if_neg hplace,
      String.toList_append, String.toList_intercalate, String.toList_ofList,
      ← List.nil_append (List.flatMap _ _), append_flatMap_eq_intercalate, List.map_map]
    simp only [Function.comp_def]
    rw [hfirst, List.intercalate_cons_cons, List.nil_append, String.toList_ofList]

/-! ## A link that is not resolved -/

/-- A path of one name stands right below the root. -/
theorem eq_nil_of_placeText_append {place : List PathName} {name : PathName} (only : PathName)
    (h : placeText (place ++ [name]) = placeText [only]) : place = [] := by
  have hlength := congrArg List.length (placeText_injective h)
  rw [List.length_append, List.length_singleton, List.length_singleton] at hlength
  exact List.length_eq_zero_iff.mp (by omega)

/-- A file system with two links: `/data`, which climbs out of a missing name, and `/link`. -/
def twoLinks : FileSystem where
  kind path :=
    if path = "/data" ∨ path = "/link" then some .link
    else if path = "/" ∨ path = "/etc" then some .other
    else none
  readLink path := if path = "/data" then "gone/../link" else "/etc"
  root := rfl
  below := by
    intro place name hmissing
    have hplace : place ≠ [] := by
      rintro rfl
      exact absurd hmissing (by decide)
    have hdata : placeText (place ++ [name]) ≠ "/data" := fun h =>
      hplace (eq_nil_of_placeText_append
        ⟨"data", by decide, by decide, by decide, by decide⟩ h)
    have hlink : placeText (place ++ [name]) ≠ "/link" := fun h =>
      hplace (eq_nil_of_placeText_append
        ⟨"link", by decide, by decide, by decide, by decide⟩ h)
    have hetc : placeText (place ++ [name]) ≠ "/etc" := fun h =>
      hplace (eq_nil_of_placeText_append
        ⟨"etc", by decide, by decide, by decide, by decide⟩ h)
    have hroot : placeText (place ++ [name]) ≠ "/" := placeText_ne_root (by simp)
    rw [if_neg (not_or.mpr ⟨hdata, hlink⟩), if_neg (not_or.mpr ⟨hroot, hetc⟩)]

/-- `/data` comes out as `/link`: the text after the missing `/gone` is not probed. -/
theorem not_resolveBindPath_resolves :
    ¬∀ (fs : FileSystem) (path : String), ∃ outcome, Returns fs path outcome ∧
      ∀ resolved, outcome = .ok resolved → ReallyResolved fs resolved := by
  intro hall
  obtain ⟨outcome, hreturns, hresolved⟩ := hall twoLinks "/data"
  have hlink : Returns twoLinks "/data" (.ok "/link") := .of_eq 3 (by decide +kernel)
  obtain rfl := hreturns.unique hlink
  have hagain : Returns twoLinks "/link" (.ok "/etc") := .of_eq 3 (by decide +kernel)
  exact absurd ((hresolved _ rfl).again.unique hagain) (by decide)

end Turbopaneld.DockerGate
