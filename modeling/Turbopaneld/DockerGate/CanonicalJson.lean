/-
# Equal values have one canonical text

Two values are equal when they differ at most in the order of their members and in how their
numbers are spelled.  Their canonical texts are then one text.  A number that is too large for a
double is written as `null`.
-/

import Mathlib.Data.List.Lex
import Turbopaneld.DockerGate.NumberText
import Turbopaneld.DockerGate.Tokens

namespace Turbopaneld.DockerGate

open JavaScript

/-- The surroundings whose `JSON.stringify` writes numbers as the source's language does. -/
def Crypto.standard {Key : Type} (crypto : Crypto Key) : Crypto Key :=
  { crypto with numberText := fun token => (jsNumber token).text }

/-! ## Equal values -/

namespace Json

mutual

/-- Equality of values: members in any order, numbers by value. -/
def Equal : Json → Json → Prop
  | .null, .null => True
  | .bool b, .bool c => b = c
  | .number token, .number other => jsNumber token = jsNumber other
  | .string text, .string other => text = other
  | .array items, .array others => EqualItems items others
  | .object fields, .object others => fields.length = others.length ∧ EqualFields fields others
  | _, _ => False

def EqualItems : List Json → List Json → Prop
  | [], [] => True
  | item :: items, other :: others => Equal item other ∧ EqualItems items others
  | _, _ => False

/-- Each member has an equal one of its name. -/
def EqualFields : List (String × Json) → List (String × Json) → Prop
  | [], _ => True
  | (name, value) :: fields, others =>
    (∃ other, (name, other) ∈ others ∧ Equal value other) ∧ EqualFields fields others

end

mutual

/-- A value the source's language can hold: the names of an object differ. -/
def WellFormed : Json → Prop
  | .array items => WellFormedItems items
  | .object fields => (fields.map Prod.fst).Nodup ∧ WellFormedFields fields
  | _ => True

def WellFormedItems : List Json → Prop
  | [] => True
  | item :: items => WellFormed item ∧ WellFormedItems items

def WellFormedFields : List (String × Json) → Prop
  | [] => True
  | (_, value) :: fields => WellFormed value ∧ WellFormedFields fields

end

mutual

/-- A value with `null` for every number that is too large for a double. -/
def nulled : Json → Json
  | .number token => if (numberOf token).isSome then .number token else .null
  | .array items => .array (nulledItems items)
  | .object fields => .object (nulledFields fields)
  | value => value

def nulledItems : List Json → List Json
  | [] => []
  | item :: items => nulled item :: nulledItems items

def nulledFields : List (String × Json) → List (String × Json)
  | [] => []
  | (name, value) :: fields => (name, nulled value) :: nulledFields fields

end

theorem equalItems_iff {items others : List Json} :
    EqualItems items others ↔ List.Forall₂ Equal items others := by
  induction items generalizing others with
  | nil => cases others <;> simp [EqualItems]
  | cons item items ih => cases others <;> simp [EqualItems, ih]

theorem equalFields_iff {fields others : List (String × Json)} :
    EqualFields fields others ↔
      ∀ field ∈ fields, ∃ other, (field.1, other) ∈ others ∧ Equal field.2 other := by
  induction fields with
  | nil => simp [EqualFields]
  | cons field fields ih =>
    obtain ⟨name, value⟩ := field
    rw [EqualFields, ih, List.forall_mem_cons]

theorem wellFormedItems_iff {items : List Json} :
    WellFormedItems items ↔ ∀ item ∈ items, WellFormed item := by
  induction items with
  | nil => simp [WellFormedItems]
  | cons item items ih => rw [WellFormedItems, ih, List.forall_mem_cons]

theorem wellFormedFields_iff {fields : List (String × Json)} :
    WellFormedFields fields ↔ ∀ field ∈ fields, WellFormed field.2 := by
  induction fields with
  | nil => simp [WellFormedFields]
  | cons field fields ih =>
    obtain ⟨name, value⟩ := field
    rw [WellFormedFields, ih, List.forall_mem_cons]

theorem nulledItems_eq (items : List Json) : nulledItems items = items.map nulled := by
  induction items with
  | nil => rfl
  | cons item items ih => rw [nulledItems, ih, List.map_cons]

theorem nulledFields_eq (fields : List (String × Json)) :
    nulledFields fields = fields.map fun field => (field.1, nulled field.2) := by
  induction fields with
  | nil => rfl
  | cons field fields ih =>
    obtain ⟨name, value⟩ := field
    rw [nulledFields, ih, List.map_cons]

end Json

/-! ## Strings -/

theorem hexDigitOf_digitChar {n : ℕ} (h : n < 16) : hexDigitOf (Nat.digitChar n) = some n := by
  have hall : ∀ n < 16, hexDigitOf (Nat.digitChar n) = some n := by decide
  exact hall n h

theorem decodeUnits_plain {c : Char} (hlow : 32 ≤ c.toNat) (hquote : c ≠ '"') (hescape : c ≠ '\\')
    (rest : List Char) : decodeUnits (c :: rest) = (decodeUnits rest).map (c.toNat :: ·) := by
  rw [decodeUnits]
  · rw [if_neg (by simp [hquote, hescape, hlow])]
    cases decodeUnits rest <;> rfl
  · exact fun _ _ _ _ _ h => absurd h hescape
  · exact fun _ _ h => absurd h hescape

theorem decodeUnits_simple {e : Char} {unit : ℕ} (hescape : simpleEscape e = some unit)
    (rest : List Char) :
    decodeUnits ('\\' :: e :: rest) = (decodeUnits rest).map (unit :: ·) := by
  have hplain : e ≠ 'u' := by
    rintro rfl
    cases hescape
  rw [decodeUnits]
  · rw [hescape]
    cases decodeUnits rest <;> rfl
  · exact fun _ _ _ _ _ h => absurd h hplain

theorem decodeUnits_hex {n : ℕ} (h : n < 32) (rest : List Char) :
    decodeUnits ('\\' :: 'u' :: '0' :: '0' :: Nat.digitChar (n / 16) :: Nat.digitChar (n % 16) ::
      rest) = (decodeUnits rest).map (n :: ·) := by
  have hzero : hexDigitOf '0' = some 0 := rfl
  have hvalue : 4096 * 0 + 256 * 0 + 16 * (n / 16) + n % 16 = n := by omega
  rw [decodeUnits, hzero, hexDigitOf_digitChar (by omega), hexDigitOf_digitChar (by omega)]
  simp only [Option.bind_eq_bind, Option.bind_some, hvalue]
  cases decodeUnits rest <;> rfl

/-- The escape of a character is decoded to it. -/
theorem decodeUnits_quoteChar (c : Char) (rest : List Char) :
    decodeUnits (quoteChar c ++ rest) = (decodeUnits rest).map (c.toNat :: ·) := by
  by_cases hquote : c = '"'
  · rw [hquote]
    exact decodeUnits_simple rfl rest
  by_cases hescape : c = '\\'
  · rw [hescape]
    exact decodeUnits_simple rfl rest
  by_cases hback : c = '\u0008'
  · rw [hback]
    exact decodeUnits_simple rfl rest
  by_cases hfeed : c = '\u000c'
  · rw [hfeed]
    exact decodeUnits_simple rfl rest
  by_cases hline : c = '\n'
  · rw [hline]
    exact decodeUnits_simple rfl rest
  by_cases hreturn : c = '\r'
  · rw [hreturn]
    exact decodeUnits_simple rfl rest
  by_cases htab : c = '\t'
  · rw [htab]
    exact decodeUnits_simple rfl rest
  simp only [quoteChar, beq_iff_eq, hquote, hescape, hback, hfeed, hline, hreturn, htab, if_false]
  split
  case isTrue hlow => exact decodeUnits_hex hlow rest
  case isFalse hhigh => exact decodeUnits_plain (by omega) hquote hescape rest

theorem decodeUnits_quoted (chars : List Char) :
    decodeUnits (chars.flatMap quoteChar) = some (chars.map Char.toNat) := by
  induction chars with
  | nil => rfl
  | cons c chars ih => rw [List.flatMap_cons, decodeUnits_quoteChar, ih]; rfl

theorem joinSurrogates_chars (chars : List Char) :
    joinSurrogates (chars.map Char.toNat) = chars := by
  have hchar : ∀ c : Char, ¬(0xd800 ≤ c.toNat ∧ c.toNat ≤ 0xdfff) := fun c h => by
    have hvalid : c.toNat < 0xd800 ∨ 0xdfff < c.toNat ∧ c.toNat < 0x110000 := c.valid
    omega
  have hunit : ∀ c : Char, unitChar c.toNat = c := fun c => by
    rw [unitChar, if_neg (hchar c), Char.ofNat_toNat]
  induction chars with
  | nil => rfl
  | cons c chars ih =>
    cases chars with
    | nil => rw [List.map_singleton, joinSurrogates, hunit]
    | cons d chars =>
      have hpair : ¬(0xd800 ≤ c.toNat ∧ c.toNat ≤ 0xdbff ∧ 0xdc00 ≤ d.toNat ∧ d.toNat ≤ 0xdfff) :=
        fun h => hchar c ⟨h.1, by omega⟩
      rw [List.map_cons, List.map_cons, joinSurrogates, if_neg hpair, hunit]
      exact congrArg (c :: ·) ih

/-- The quoted text of a string is a string token of it. -/
theorem isString_quoted (text : String) : IsString (text.toList.flatMap quoteChar) text := by
  rw [IsString, decodeToken, decodeUnits_quoted]
  dsimp only
  rw [joinSurrogates_chars, String.ofList_toList]

/-- What follows a quoted string is told from it. -/
theorem quote_append_inj {text other : String} {rest rest' : List Char}
    (h : (quote text).toList ++ rest = (quote other).toList ++ rest') :
    text = other ∧ rest = rest' := by
  have hquote : ∀ (text : String) (rest : List Char), (quote text).toList ++ rest =
      '"' :: (text.toList.flatMap quoteChar ++ '"' :: rest) := fun text rest => by
    simp [quote]
  have hparsed := congrArg parseString h
  rw [hquote, hquote, parseString_append (isString_quoted text),
    parseString_append (isString_quoted other)] at hparsed
  exact Prod.mk.inj (Except.ok.inj hparsed)

/-! ## The order of names -/

theorem codeUnits_injective : ∀ {text other : List Char},
    (text.flatMap fun c => if c.toNat < 0x10000 then [c.toNat]
      else [0xd800 + (c.toNat - 0x10000) / 0x400, 0xdc00 + (c.toNat - 0x10000) % 0x400]) =
    (other.flatMap fun c => if c.toNat < 0x10000 then [c.toNat]
      else [0xd800 + (c.toNat - 0x10000) / 0x400, 0xdc00 + (c.toNat - 0x10000) % 0x400]) →
    text = other
  | [], [], _ => rfl
  | [], d :: other, h => by
    rw [List.flatMap_nil, List.flatMap_cons] at h
    split at h <;> cases h
  | c :: text, [], h => by
    rw [List.flatMap_nil, List.flatMap_cons] at h
    split at h <;> cases h
  | c :: text, d :: other, h => by
    have hc : c.toNat < 0xd800 ∨ 0xdfff < c.toNat ∧ c.toNat < 0x110000 := c.valid
    have hd : d.toNat < 0xd800 ∨ 0xdfff < d.toNat ∧ d.toNat < 0x110000 := d.valid
    rw [List.flatMap_cons, List.flatMap_cons] at h
    have hsame : c.toNat = d.toNat ∧ (text.flatMap fun c => if c.toNat < 0x10000 then [c.toNat]
        else [0xd800 + (c.toNat - 0x10000) / 0x400, 0xdc00 + (c.toNat - 0x10000) % 0x400]) =
        (other.flatMap fun c => if c.toNat < 0x10000 then [c.toNat]
        else [0xd800 + (c.toNat - 0x10000) / 0x400, 0xdc00 + (c.toNat - 0x10000) % 0x400]) := by
      split at h <;> split at h
      · obtain ⟨hhead, htail⟩ := List.cons.inj h
        exact ⟨hhead, htail⟩
      · obtain ⟨hhead, -⟩ := List.cons.inj h
        omega
      · obtain ⟨hhead, -⟩ := List.cons.inj h
        omega
      · obtain ⟨hhead, htail⟩ := List.cons.inj h
        obtain ⟨hlow, htail⟩ := List.cons.inj htail
        exact ⟨by omega, htail⟩
    rw [Char.toNat_inj.mp hsame.1, codeUnits_injective hsame.2]

theorem unitsLe_iff {a b : String} : unitsLe a b = true ↔ codeUnits a ≤ codeUnits b := by
  have hlt : List.lt (codeUnits b) (codeUnits a) ↔ codeUnits b < codeUnits a := Iff.rfl
  rw [unitsLe, Bool.not_eq_true', decide_eq_false_iff_not, hlt, not_lt]

theorem eq_of_unitsLe {a b : String} (h : unitsLe a b = true) (h' : unitsLe b a = true) : a = b := by
  have hunits := le_antisymm (unitsLe_iff.mp h) (unitsLe_iff.mp h')
  exact String.toList_inj.mp (codeUnits_injective hunits)

section

variable {α : Type}

/-- Members by their names. -/
def nameLe (a b : String × α) : Prop := unitsLe a.1 b.1 = true

instance : DecidableRel (nameLe (α := α)) := fun _ _ => inferInstanceAs (Decidable (_ = true))

instance : IsTrans (String × α) nameLe where
  trans _ _ _ h h' := unitsLe_iff.mpr (le_trans (unitsLe_iff.mp h) (unitsLe_iff.mp h'))

instance : Std.Total (α := String × α) nameLe where
  total a b := (le_total (codeUnits a.1) (codeUnits b.1)).imp unitsLe_iff.mpr unitsLe_iff.mpr

/-- Sorting forgets the order that members of different names had. -/
theorem insertionSort_eq_of_perm {members others : List (String × α)}
    (hperm : members.Perm others) (hnames : (members.map Prod.fst).Nodup) :
    members.insertionSort nameLe = others.insertionSort nameLe := by
  have hsorted : (members.insertionSort nameLe).Perm (others.insertionSort nameLe) :=
    (members.perm_insertionSort nameLe).trans (hperm.trans (others.perm_insertionSort nameLe).symm)
  refine hsorted.eq_of_pairwise ?_ (members.pairwise_insertionSort nameLe)
    (others.pairwise_insertionSort nameLe)
  intro a b ha hb hle hge
  have hname : a.1 = b.1 := eq_of_unitsLe hle hge
  have ha : a ∈ members := (List.mem_insertionSort nameLe).mp ha
  have hb : b ∈ members := hperm.mem_iff.mpr ((List.mem_insertionSort nameLe).mp hb)
  exact List.inj_on_of_nodup_map hnames ha hb hname

end

/-! ## Sorted members -/

section

variable {Key : Type} (crypto : Crypto Key)

theorem canonicalItems_eq (items : List Json) :
    canonicalItems crypto items = items.map (canonicalJson crypto) := by
  induction items with
  | nil => rfl
  | cons item items ih => rw [canonicalItems, ih, List.map_cons]

theorem canonicalMembers_eq (fields : List (String × Json)) :
    canonicalMembers crypto fields =
      fields.map fun field => (field.1, canonicalJson crypto field.2) := by
  induction fields with
  | nil => rfl
  | cons field fields ih =>
    obtain ⟨name, value⟩ := field
    rw [canonicalMembers, ih, List.map_cons]

/-- The characters of a canonical text. -/
def canonicalChars (value : Json) : List Char := (canonicalJson crypto value).toList

def memberChars (field : String × Json) : List Char :=
  (quote field.1).toList ++ ':' :: canonicalChars crypto field.2

theorem canonicalChars_array (items : List Json) : canonicalChars crypto (.array items) =
    '[' :: ([','].intercalate (items.map (canonicalChars crypto)) ++ [']']) := by
  have htexts : items.map (canonicalChars crypto) =
      (items.map (canonicalJson crypto)).map String.toList := by
    rw [List.map_map]
    rfl
  rw [canonicalChars, canonicalJson, canonicalItems_eq, htexts]
  simp [String.toList_intercalate]

theorem canonicalChars_object (fields : List (String × Json)) :
    canonicalChars crypto (.object fields) =
      '\x7b' :: ([','].intercalate ((fields.insertionSort nameLe).map (memberChars crypto)) ++
        ['\x7d']) := by
  have hsorted : (canonicalMembers crypto fields).insertionSort (fun a b => unitsLe a.1 b.1) =
      (fields.insertionSort nameLe).map fun field => (field.1, canonicalJson crypto field.2) := by
    rw [canonicalMembers_eq]
    exact (List.map_insertionSort nameLe nameLe
      (fun field : String × Json => (field.1, canonicalJson crypto field.2)) fields
      fun _ _ _ _ => Iff.rfl).symm
  have htexts : (fields.insertionSort nameLe).map (memberChars crypto) =
      ((fields.insertionSort nameLe).map fun field =>
        quote field.1 ++ ":" ++ canonicalJson crypto field.2).map String.toList := by
    rw [List.map_map]
    apply List.map_congr_left
    intro field _
    simp [memberChars, canonicalChars]
  rw [canonicalChars, canonicalJson, htexts]
  simp only [hsorted]
  simp [String.toList_intercalate, Function.comp_def]

end

/-! ## Equal values have one text -/

section

variable {Key : Type} (crypto : Crypto Key)

theorem map_eq_of_forall₂ {α β : Type} {R : α → α → Prop} {f : α → β} {items others : List α}
    (h : List.Forall₂ R items others) (hf : ∀ a ∈ items, ∀ b ∈ others, R a b → f a = f b) :
    items.map f = others.map f := by
  induction h with
  | nil => rfl
  | cons hab _ ih =>
    rw [List.map_cons, List.map_cons, hf _ List.mem_cons_self _ List.mem_cons_self hab]
    rw [ih fun a ha b hb => hf a (List.mem_cons_of_mem _ ha) b (List.mem_cons_of_mem _ hb)]

/-- Members of the same names and texts are sorted into one list. -/
theorem sortedMembers_eq {fields others : List (String × Json)}
    (hfields : (fields.map Prod.fst).Nodup) (hlength : fields.length = others.length)
    (hsub : ∀ field ∈ fields, ∃ other, (field.1, other) ∈ others ∧
      canonicalJson crypto field.2 = canonicalJson crypto other) :
    (canonicalMembers crypto fields).insertionSort nameLe =
      (canonicalMembers crypto others).insertionSort nameLe := by
  have hnames : ((canonicalMembers crypto fields).map Prod.fst).Nodup := by
    rw [canonicalMembers_eq, List.map_map]
    exact hfields
  have hsubset : canonicalMembers crypto fields ⊆ canonicalMembers crypto others := by
    rw [canonicalMembers_eq, canonicalMembers_eq]
    intro member hmember
    obtain ⟨field, hfield, rfl⟩ := List.mem_map.mp hmember
    obtain ⟨other, hother, htext⟩ := hsub field hfield
    exact List.mem_map.mpr ⟨_, hother, Prod.ext rfl htext.symm⟩
  have hle : (canonicalMembers crypto others).length ≤ (canonicalMembers crypto fields).length := by
    rw [canonicalMembers_eq, canonicalMembers_eq, List.length_map, List.length_map, hlength]
  have hperm := (List.subperm_of_subset (List.Nodup.of_map _ hnames) hsubset).perm_of_length_le hle
  exact insertionSort_eq_of_perm hperm hnames

theorem canonicalJson_eq_of_equal {v w : Json} (hv : v.WellFormed) (hw : w.WellFormed)
    (h : v.Equal w) :
    canonicalJson crypto.standard v = canonicalJson crypto.standard w := by
  induction v using Json.induction generalizing w with
  | leaf v hleaf =>
    cases v with
    | array | object => cases hleaf
    | null =>
      cases w <;> first | rfl | exact h.elim
    | bool b =>
      cases w with
      | bool c => rw [show b = c from h]
      | _ => exact h.elim
    | number token =>
      cases w with
      | number other =>
        have hsame : jsNumber token = jsNumber other := h
        rw [canonicalJson, canonicalJson, Crypto.standard]
        dsimp only
        rw [hsame]
      | _ => exact h.elim
    | string text =>
      cases w with
      | string other => rw [show text = other from h]
      | _ => exact h.elim
  | array items ih =>
    cases w with
    | array others =>
      have hitems := Json.wellFormedItems_iff.mp hv
      have hothers := Json.wellFormedItems_iff.mp hw
      have hequal := Json.equalItems_iff.mp h
      rw [canonicalJson, canonicalJson, canonicalItems_eq, canonicalItems_eq,
        map_eq_of_forall₂ hequal fun a ha b hb hab => ih a ha (hitems a ha) (hothers b hb) hab]
    | _ => exact h.elim
  | object fields ih =>
    cases w with
    | object others =>
      have hfields := Json.wellFormedFields_iff.mp hv.2
      have hothers := Json.wellFormedFields_iff.mp hw.2
      have hequal := Json.equalFields_iff.mp h.2
      have hsorted := sortedMembers_eq crypto.standard hv.1 h.1 fun field hfield => by
        obtain ⟨other, hother, hsame⟩ := hequal field hfield
        exact ⟨other, hother, ih field hfield (hfields field hfield) (hothers _ hother) hsame⟩
      rw [canonicalJson, canonicalJson]
      exact congrArg (fun members : List (String × String) => "\x7b" ++
        ",".intercalate (members.map fun member => quote member.1 ++ ":" ++ member.2) ++ "\x7d")
        hsorted
    | _ => exact h.elim

/-- A number that is too large is written as `null` is. -/
theorem canonicalJson_nulled (v : Json) :
    canonicalJson crypto.standard v.nulled = canonicalJson crypto.standard v := by
  induction v using Json.induction with
  | leaf v hleaf =>
    cases v with
    | array | object => cases hleaf
    | number token =>
      rw [Json.nulled]
      split
      case isTrue => rfl
      case isFalse hinfinite =>
        have hnone := Option.not_isSome_iff_eq_none.mp hinfinite
        rw [canonicalJson, canonicalJson, Crypto.standard]
        dsimp only
        rw [jsNumber, hnone, JsNumber.text]
    | _ => rfl
  | array items ih =>
    rw [Json.nulled, Json.nulledItems_eq, canonicalJson, canonicalJson, canonicalItems_eq,
      canonicalItems_eq, List.map_map]
    have hitems : items.map (canonicalJson crypto.standard ∘ Json.nulled) =
        items.map (canonicalJson crypto.standard) := List.map_congr_left ih
    rw [hitems]
  | object fields ih =>
    have hmembers : canonicalMembers crypto.standard (Json.nulledFields fields) =
        canonicalMembers crypto.standard fields := by
      rw [Json.nulledFields_eq, canonicalMembers_eq, canonicalMembers_eq, List.map_map]
      apply List.map_congr_left
      intro field hfield
      exact Prod.ext rfl (ih field hfield)
    rw [Json.nulled, canonicalJson, canonicalJson, hmembers]

end

namespace Json

theorem WellFormed.nulled {v : Json} (h : v.WellFormed) : v.nulled.WellFormed := by
  induction v using Json.induction with
  | leaf v hleaf =>
    cases v with
    | array | object => cases hleaf
    | number token =>
      rw [Json.nulled]
      split <;> trivial
    | _ => trivial
  | array items ih =>
    have hitems := wellFormedItems_iff.mp h
    rw [Json.nulled, nulledItems_eq]
    exact wellFormedItems_iff.mpr (List.forall_mem_map.mpr fun item hitem =>
      ih item hitem (hitems item hitem))
  | object fields ih =>
    have hfields := wellFormedFields_iff.mp h.2
    rw [Json.nulled, nulledFields_eq]
    refine ⟨?_, wellFormedFields_iff.mpr (List.forall_mem_map.mpr fun field hfield =>
      ih field hfield (hfields field hfield))⟩
    rw [List.map_map]
    exact h.1

end Json

end Turbopaneld.DockerGate
