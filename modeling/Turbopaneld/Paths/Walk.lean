/-
# Walking a path through links

How a kernel walks a path inside a tree of directories: a name that is a link is
replaced by the link's target, `..` climbs out of where the walk really stands,
and a name that is not there is passed as a directory would be, which a walk that
stops there only cuts short.  A walk leaves the tree when it climbs above its top
or follows an absolute target.

The main result is a condition on single links, each judged by its own target and
its own depth, under which no walk that starts from a link leaves the tree,
whatever chain of links it follows.
-/

import Mathlib.Data.List.Basic

namespace Turbopaneld.Paths

/-- One component of a target. -/
inductive Component (N : Type*) where
  | up
  | name (name : N)
deriving DecidableEq

/-- Where a link points. -/
structure Target (N : Type*) where
  absolute : Bool
  parts : List (Component N)

/-- A walk: the place it stands at, as the names from the top of the tree, and the
components left. -/
structure Walk (N : Type*) where
  place : List N
  todo : List (Component N)

/-- What one component does to a walk. -/
inductive Next (N : Type*) where
  | arrived
  | outside
  | at (walk : Walk N)

section

variable {N : Type*} (links : List N → Option (Target N))

/-- Take the next component. -/
def next : Walk N → Next N
  | ⟨_, []⟩ => .arrived
  | ⟨place, .up :: rest⟩ => if place.isEmpty then .outside else .at ⟨place.dropLast, rest⟩
  | ⟨place, .name name :: rest⟩ =>
    match links (place ++ [name]) with
    | none => .at ⟨place ++ [name], rest⟩
    | some target => if target.absolute then .outside else .at ⟨place, target.parts ++ rest⟩

/-- The walk leaves the tree, now or after some components. -/
inductive Leaves : Walk N → Prop
  | now {walk : Walk N} (hnext : next links walk = .outside) : Leaves walk
  | later {walk walk' : Walk N} (hnext : next links walk = .at walk') (hleaves : Leaves walk') :
    Leaves walk

/-- The components are a run of `..`, no longer than the given depth, and then names. -/
def ClimbsFirst (depth : ℕ) (parts : List (Component N)) : Prop :=
  ∃ ups names, parts = List.replicate ups .up ++ List.map .name names ∧ ups ≤ depth

/-- Every link's target is relative and climbs at most as far as the link is deep, before it
names anything. -/
def Contained : Prop :=
  ∀ place name target, links (place ++ [name]) = some target →
    target.absolute = false ∧ ClimbsFirst place.length target.parts

end

section

variable {N : Type*} {links : List N → Option (Target N)}

theorem ClimbsFirst.deeper {depth deeper : ℕ} {parts : List (Component N)}
    (h : ClimbsFirst depth parts) (hdeeper : depth ≤ deeper) : ClimbsFirst deeper parts := by
  obtain ⟨ups, names, hparts, hups⟩ := h
  exact ⟨ups, names, hparts, Nat.le_trans hups hdeeper⟩

/-- A run of names after a target that climbs first is again such a target. -/
theorem ClimbsFirst.append_names {depth : ℕ} {parts : List (Component N)}
    (h : ClimbsFirst depth parts) (names : List N) :
    ClimbsFirst depth (parts ++ List.map .name names) := by
  obtain ⟨ups, front, rfl, hups⟩ := h
  refine ⟨ups, front ++ names, ?_, hups⟩
  rw [List.append_assoc, List.map_append]

/-- A walk that climbs first stays inside with its next component, and climbs first again. -/
theorem next_of_climbsFirst (hcontained : Contained links) {walk : Walk N}
    (hclimbs : ClimbsFirst walk.place.length walk.todo) :
    next links walk = .arrived ∨
      ∃ walk', next links walk = .at walk' ∧ ClimbsFirst walk'.place.length walk'.todo := by
  obtain ⟨place, todo⟩ := walk
  obtain ⟨ups, names, rfl, hups⟩ := hclimbs
  cases ups with
  | succ ups =>
    have hplace : place.isEmpty = false := by
      rw [List.isEmpty_eq_false_iff]
      exact List.length_pos_iff.mp (Nat.lt_of_lt_of_le (Nat.succ_pos ups) hups)
    refine .inr ⟨⟨place.dropLast, List.replicate ups .up ++ List.map .name names⟩, ?_,
      ups, names, rfl, ?_⟩
    · simp [List.replicate_succ, next, hplace]
    · rw [List.length_dropLast]
      exact Nat.le_sub_of_add_le hups
  | zero =>
    cases names with
    | nil => exact .inl rfl
    | cons name names =>
      right
      rw [List.replicate_zero, List.nil_append, List.map_cons, next]
      cases hlink : links (place ++ [name]) with
      | none => exact ⟨_, rfl, 0, names, rfl, Nat.zero_le _⟩
      | some target =>
        obtain ⟨hrelative, htarget⟩ := hcontained place name target hlink
        simp only [hrelative]
        exact ⟨_, rfl, htarget.append_names names⟩

/-- No chain of contained links leaves the tree. -/
theorem not_leaves_of_climbsFirst (hcontained : Contained links) {walk : Walk N}
    (hclimbs : ClimbsFirst walk.place.length walk.todo) : ¬Leaves links walk := by
  intro hleaves
  induction hleaves with
  | now hnext =>
    obtain harrived | ⟨_, hat, -⟩ := next_of_climbsFirst hcontained hclimbs
    · simp [hnext] at harrived
    · simp [hnext] at hat
  | later hnext _ ih =>
    obtain harrived | ⟨walk', hat, hclimbs'⟩ := next_of_climbsFirst hcontained hclimbs
    · simp [hnext] at harrived
    · rw [hnext, Next.at.injEq] at hat
      subst hat
      exact ih hclimbs'

end

end Turbopaneld.Paths
