/-
# Resolving a path by hand

A resolver that walks a path from the top of a file system one component at a time:
it follows the links it meets, up to a limit, and stops asking at the first name that
is not there, after which the rest of the path is taken by text alone.

A place is clean when no link stands on the way to it.  The walk keeps the place it
stands at clean; the text after a missing name need not.  The main result says for
which walks it does: those that never climb back out of a missing name into a link.
-/

import Turbopaneld.Paths.Walk

namespace Turbopaneld.Paths

/-- What stands at a place. -/
inductive Entry (N : Type*) where
  | missing
  | plain
  | link (target : Target N)

/-- A file system, by places.  Nothing stands below a place that is missing. -/
structure FileTree (N : Type*) where
  entry : List N → Entry N
  root : entry [] = .plain
  below : ∀ place name, entry place = .missing → entry (place ++ [name]) = .missing

/-- A walk that counts the links it has followed. -/
structure Resolving (N : Type*) where
  place : List N
  todo : List (Component N)
  followed : ℕ

/-- What one component does to a walk. -/
inductive Turn (N : Type*) where
  | done (place : List N)
  | tooMany
  | at (walk : Resolving N)

section

variable {N : Type*}

/-- The components taken by text: `..` takes back the last name. -/
def byText : List N → List (Component N) → List N
  | place, [] => place
  | place, .up :: rest => byText place.dropLast rest
  | place, .name name :: rest => byText (place ++ [name]) rest

/-- What is left of the components once every `..` has taken back the name before it: how
many of them climb out of the start, and the names that stay. -/
def settle : List (Component N) → ℕ × List N
  | [] => (0, [])
  | .up :: rest => ((settle rest).1 + 1, (settle rest).2)
  | .name name :: rest =>
    match (settle rest).1 with
    | 0 => (0, name :: (settle rest).2)
    | climbs + 1 => (climbs, (settle rest).2)

variable (tree : FileTree N) (limit : ℕ)

/-- Take the next component. -/
def turn : Resolving N → Turn N
  | ⟨place, [], _⟩ => .done place
  | ⟨place, .up :: rest, followed⟩ => .at ⟨place.dropLast, rest, followed⟩
  | ⟨place, .name name :: rest, followed⟩ =>
    match tree.entry (place ++ [name]) with
    | .missing => .done (byText (place ++ [name]) rest)
    | .plain => .at ⟨place ++ [name], rest, followed⟩
    | .link target =>
      if limit < followed + 1 then .tooMany
      else .at ⟨if target.absolute then [] else place, target.parts ++ rest, followed + 1⟩

/-- The walk ends at a place, or gives up. -/
inductive Ends : Resolving N → Option (List N) → Prop
  | done {walk : Resolving N} {place : List N} (hturn : turn tree limit walk = .done place) :
    Ends walk (some place)
  | tooMany {walk : Resolving N} (hturn : turn tree limit walk = .tooMany) : Ends walk none
  | step {walk walk' : Resolving N} {outcome : Option (List N)}
    (hturn : turn tree limit walk = .at walk') (hends : Ends walk' outcome) : Ends walk outcome

/-- No link stands on the way to the place. -/
def Clean (place : List N) : Prop :=
  ∀ front, front <+: place → ∀ target, tree.entry front ≠ .link target

/-- The walk comes to a missing name, and the components after it climb out of that name
and then go through a link. -/
inductive ClimbsIntoLink : Resolving N → Prop
  | now {place front : List N} {name : N} {rest : List (Component N)} {followed : ℕ}
    {target : Target N} (hmissing : tree.entry (place ++ [name]) = .missing)
    (hclimbs : 0 < (settle rest).1) (hfront : front <+: (settle rest).2)
    (hlink : tree.entry (place.take (place.length + 1 - (settle rest).1) ++ front) = .link target) :
    ClimbsIntoLink ⟨place, .name name :: rest, followed⟩
  | later {walk walk' : Resolving N} (hturn : turn tree limit walk = .at walk')
    (hclimbs : ClimbsIntoLink walk') : ClimbsIntoLink walk

end

section

variable {N : Type*} {tree : FileTree N} {limit : ℕ}

/-! ## Every walk ends -/

/-- Between two links a walk takes its components one by one, so it ends if it ends after
the next link. -/
theorem exists_ends_of_next {followed : ℕ}
    (hnext : followed < limit → ∀ place todo,
      ∃ outcome, Ends tree limit ⟨place, todo, followed + 1⟩ outcome)
    (place : List N) (todo : List (Component N)) :
    ∃ outcome, Ends tree limit ⟨place, todo, followed⟩ outcome := by
  induction todo generalizing place with
  | nil => exact ⟨_, .done rfl⟩
  | cons part rest ih =>
    cases part with
    | up =>
      obtain ⟨outcome, hends⟩ := ih place.dropLast
      exact ⟨outcome, .step rfl hends⟩
    | name name =>
      cases hentry : tree.entry (place ++ [name]) with
      | missing =>
        exact ⟨some (byText (place ++ [name]) rest), .done (by simp only [turn, hentry])⟩
      | plain =>
        obtain ⟨outcome, hends⟩ := ih (place ++ [name])
        exact ⟨outcome, .step (by simp only [turn, hentry]) hends⟩
      | link target =>
        by_cases hover : limit < followed + 1
        · exact ⟨none, .tooMany (by simp only [turn, hentry, if_pos hover])⟩
        · obtain ⟨outcome, hends⟩ := hnext (by omega) (if target.absolute then [] else place)
            (target.parts ++ rest)
          exact ⟨outcome, .step (by simp only [turn, hentry, if_neg hover]) hends⟩

theorem exists_ends (walk : Resolving N) : ∃ outcome, Ends tree limit walk outcome := by
  obtain ⟨place, todo, followed⟩ := walk
  induction hleft : limit - followed generalizing place todo followed with
  | zero =>
    apply exists_ends_of_next
    intro hlt
    omega
  | succ left ih =>
    apply exists_ends_of_next
    intro hlt place todo
    exact ih place todo (followed + 1) (by omega)

/-! ## Clean places -/

theorem clean_nil (tree : FileTree N) : Clean tree [] := by
  intro front hfront target
  rw [List.prefix_nil.mp hfront, tree.root]
  simp

theorem Clean.of_prefix {place front : List N} (hclean : Clean tree place) (hfront : front <+: place) :
    Clean tree front :=
  fun shorter hshorter => hclean shorter (hshorter.trans hfront)

theorem Clean.append_singleton {place : List N} {name : N} (hclean : Clean tree place)
    (hentry : ∀ target, tree.entry (place ++ [name]) ≠ .link target) : Clean tree (place ++ [name]) := by
  intro front hfront target
  obtain rfl | hfront := List.prefix_concat_iff.mp hfront
  · exact hentry target
  · exact hclean front hfront target

/-- Below a missing place everything is missing. -/
theorem entry_append_of_missing {place : List N} (hmissing : tree.entry place = .missing)
    (names : List N) : tree.entry (place ++ names) = .missing := by
  induction names generalizing place with
  | nil => rwa [List.append_nil]
  | cons name names ih =>
    rw [← List.singleton_append, ← List.append_assoc]
    exact ih (tree.below place name hmissing)

theorem Clean.append_of_missing {place : List N} (hclean : Clean tree place)
    (hmissing : tree.entry place = .missing) (names : List N) : Clean tree (place ++ names) := by
  intro front hfront target
  obtain hshort | ⟨more, rfl⟩ := List.prefix_or_prefix_of_prefix hfront (List.prefix_append place names)
  · exact hclean front hshort target
  · rw [entry_append_of_missing hmissing]
    simp

/-! ## What the text after a missing name does -/

theorem byText_eq (place : List N) (parts : List (Component N)) :
    byText place parts = place.take (place.length - (settle parts).1) ++ (settle parts).2 := by
  induction parts generalizing place with
  | nil => simp [byText, settle]
  | cons part rest ih =>
    cases part with
    | up =>
      rw [byText, ih, List.length_dropLast, List.dropLast_eq_take, List.take_take, settle]
      congr 2
      omega
    | name name =>
      rw [byText, ih, List.length_append, List.length_singleton, settle]
      cases hclimbs : (settle rest).1 with
      | zero =>
        rw [Nat.sub_zero, Nat.sub_zero, List.take_length, List.take_of_length_le (by simp),
          List.append_assoc, List.singleton_append]
      | succ climbs =>
        rw [Nat.add_sub_add_right, List.take_append_of_le_length (Nat.sub_le _ _)]

/-- The text after a missing name stays clean unless it climbs out of the name and into a
link. -/
theorem clean_byText_iff {place : List N} {name : N} (hclean : Clean tree place)
    (hmissing : tree.entry (place ++ [name]) = .missing) (rest : List (Component N)) :
    Clean tree (byText (place ++ [name]) rest) ↔
      ∀ front target, 0 < (settle rest).1 → front <+: (settle rest).2 →
        tree.entry (place.take (place.length + 1 - (settle rest).1) ++ front) ≠ .link target := by
  rw [byText_eq, List.length_append, List.length_singleton]
  cases hclimbs : (settle rest).1 with
  | zero =>
    have hbase : Clean tree (place ++ [name]) := hclean.append_singleton (by simp [hmissing])
    have htake : (place ++ [name]).take (place.length + 1 - 0) = place ++ [name] := by
      rw [Nat.sub_zero]
      exact List.take_of_length_le (by simp)
    rw [htake]
    exact iff_of_true (hbase.append_of_missing hmissing _) fun _ _ hlt => absurd hlt (Nat.lt_irrefl 0)
  | succ climbs =>
    have hkept : (place ++ [name]).take (place.length + 1 - (climbs + 1)) =
        place.take (place.length + 1 - (climbs + 1)) :=
      List.take_append_of_le_length (by omega)
    rw [hkept]
    constructor
    · intro hland front target _ hfront
      exact hland _ ((List.prefix_append_right_inj _).mpr hfront) target
    · intro hland front hfront target
      obtain hshort | ⟨more, rfl⟩ :=
        List.prefix_or_prefix_of_prefix hfront (List.prefix_append (place.take _) (settle rest).2)
      · exact hclean front (hshort.trans (List.take_prefix _ _)) target
      · exact hland more target (Nat.succ_pos _) ((List.prefix_append_right_inj _).mp hfront)

/-! ## Where a walk ends -/

/-- A walk that goes on from a clean place stands at a clean place. -/
theorem clean_of_turn {walk walk' : Resolving N} (hclean : Clean tree walk.place)
    (hturn : turn tree limit walk = .at walk') : Clean tree walk'.place := by
  obtain ⟨place, todo, followed⟩ := walk
  cases todo with
  | nil => cases hturn
  | cons part rest =>
    cases part with
    | up =>
      obtain rfl := Turn.at.inj hturn
      exact hclean.of_prefix (List.dropLast_prefix place)
    | name name =>
      simp only [turn] at hturn
      split at hturn
      case h_1 => cases hturn
      case h_2 hentry =>
        obtain rfl := Turn.at.inj hturn
        exact hclean.append_singleton (by simp [hentry])
      case h_3 target hentry =>
        split at hturn
        · cases hturn
        · obtain rfl := Turn.at.inj hturn
          dsimp only
          split
          · exact clean_nil tree
          · exact hclean

/-- A walk that ends here ends at a clean place, unless it stands before a missing name and
climbs into a link after it. -/
theorem clean_done_iff {walk : Resolving N} {place : List N} (hclean : Clean tree walk.place)
    (hturn : turn tree limit walk = .done place) :
    Clean tree place ↔ ¬ClimbsIntoLink tree limit walk := by
  obtain ⟨here, todo, followed⟩ := walk
  cases todo with
  | nil =>
    obtain rfl := Turn.done.inj hturn
    refine iff_of_true hclean ?_
    intro hclimbs
    cases hclimbs with
    | later hturn' _ => cases hturn'
  | cons part rest =>
    cases part with
    | up => cases hturn
    | name name =>
      cases hentry : tree.entry (here ++ [name]) with
      | missing =>
        have hplace : byText (here ++ [name]) rest = place := by simpa [turn, hentry] using hturn
        rw [← hplace, clean_byText_iff hclean hentry]
        constructor
        · intro hland hclimbs
          cases hclimbs with
          | now _ hpos hfront hlink => exact hland _ _ hpos hfront hlink
          | later hturn' _ => simp [turn, hentry] at hturn'
        · intro hnot front target hpos hfront hlink
          exact hnot (.now hentry hpos hfront hlink)
      | plain => simp [turn, hentry] at hturn
      | link target =>
        simp only [turn, hentry] at hturn
        split at hturn <;> cases hturn

/-- A walk from a clean place ends at a clean place, if it does not give up, exactly when it
never climbs out of a missing name into a link. -/
theorem Ends.clean_iff {walk : Resolving N} {outcome : Option (List N)}
    (hends : Ends tree limit walk outcome) (hclean : Clean tree walk.place) :
    (∀ place, outcome = some place → Clean tree place) ↔ ¬ClimbsIntoLink tree limit walk := by
  induction hends with
  | done hturn =>
    rw [← clean_done_iff hclean hturn]
    simp
  | tooMany hturn =>
    refine iff_of_true (fun _ h => nomatch h) ?_
    intro hclimbs
    cases hclimbs with
    | now hmissing => simp [turn, hmissing] at hturn
    | later hturn' _ => simp [hturn] at hturn'
  | step hturn _ ih =>
    rw [ih (clean_of_turn hclean hturn), not_iff_not]
    constructor
    · exact .later hturn
    · intro hclimbs
      cases hclimbs with
      | now hmissing => simp [turn, hmissing] at hturn
      | later hturn' hlater =>
        obtain rfl := Turn.at.inj (hturn.symm.trans hturn')
        exact hlater

/-! ## Clean places are fixed -/

theorem byText_names (place names : List N) : byText place (names.map .name) = place ++ names := by
  induction names generalizing place with
  | nil => rw [List.map_nil, byText, List.append_nil]
  | cons name names ih => rw [List.map_cons, byText, ih, List.append_assoc, List.singleton_append]

/-- A walk down a clean place ends there. -/
theorem Clean.ends {place : List N} (hclean : Clean tree place) (followed : ℕ) :
    Ends tree limit ⟨[], place.map .name, followed⟩ (some place) := by
  suffices h : ∀ names here, here ++ names = place →
      Ends tree limit ⟨here, names.map .name, followed⟩ (some place) from h place [] rfl
  intro names
  induction names with
  | nil =>
    intro here hhere
    rw [List.append_nil] at hhere
    exact .done (by simp [turn, hhere])
  | cons name names ih =>
    intro here hhere
    rw [← List.singleton_append, ← List.append_assoc] at hhere
    rw [List.map_cons]
    cases hentry : tree.entry (here ++ [name]) with
    | missing =>
      refine .done ?_
      simp only [turn, hentry]
      rw [byText_names, hhere]
    | plain => exact .step (by simp only [turn, hentry]) (ih _ hhere)
    | link target => exact absurd hentry (hclean _ ⟨names, hhere⟩ target)

end

end Turbopaneld.Paths
