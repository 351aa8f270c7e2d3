/-
# The canonical text identifies a value

A canonical text can be read in one way only: what stands behind a quoted name, a number or a
bracket is told from it.  So values of one text are equal, except where one holds `null` and the
other a number that is too large for a double.  The same holds of what an approval's digest is
taken of.
-/

import Turbopaneld.DockerGate.CanonicalJson

namespace Turbopaneld.DockerGate

open JavaScript

/-! ## A text is read in one way -/

/-- What stands behind a value does not go on with its number. -/
def NumberEnds (rest : List Char) : Prop := ∀ c, rest.head? = some c → isNumberChar c = false

/-- Texts with commas between them are told apart where each text is. -/
theorem join_unique {α : Type} {text : α → List Char} {R : α → α → Prop} {close : Char}
    (hclose : isNumberChar close = false) (hcomma : close ≠ ',')
    (hhead : ∀ a rest, (text a ++ rest).head? ≠ some close) {items others : List α}
    (hunique : ∀ a ∈ items, ∀ b rest rest', NumberEnds rest → NumberEnds rest' →
      text a ++ rest = text b ++ rest' → R a b ∧ rest = rest') {rest rest' : List Char}
    (h : [','].intercalate (items.map text) ++ close :: rest =
      [','].intercalate (others.map text) ++ close :: rest') :
    List.Forall₂ R items others ∧ rest = rest' := by
  have hends : ∀ {c : Char}, isNumberChar c = false → ∀ rest, NumberEnds (c :: rest) := by
    rintro c hc rest d ⟨⟩
    exact hc
  -- What stands behind the first text: a comma or the closing character.
  have hsplit : ∀ a (more : List α) (rest : List Char), ∃ c behind, isNumberChar c = false ∧
      [','].intercalate ((a :: more).map text) ++ close :: rest = text a ++ c :: behind ∧
      ((more = [] ∧ c = close ∧ behind = rest) ∨ (more ≠ [] ∧ c = ',' ∧
        behind = [','].intercalate (more.map text) ++ close :: rest)) := by
    intro a more rest
    cases more with
    | nil => exact ⟨close, rest, hclose, by simp, .inl ⟨rfl, rfl, rfl⟩⟩
    | cons b more =>
      refine ⟨',', [','].intercalate ((b :: more).map text) ++ close :: rest, rfl, ?_,
        .inr ⟨List.cons_ne_nil _ _, rfl, rfl⟩⟩
      rw [List.map_cons, List.map_cons, List.intercalate_cons_cons]
      simp
  induction items generalizing others with
  | nil =>
    cases others with
    | nil =>
      refine ⟨.nil, ?_⟩
      simpa using h
    | cons b others =>
      obtain ⟨c, behind, -, hb, -⟩ := hsplit b others rest'
      rw [hb] at h
      exact absurd (congrArg List.head? h.symm) (hhead b (c :: behind))
  | cons a items ih =>
    cases others with
    | nil =>
      obtain ⟨c, behind, -, ha, -⟩ := hsplit a items rest
      rw [ha] at h
      exact absurd (congrArg List.head? h) (hhead a (c :: behind))
    | cons b others =>
      obtain ⟨c, behind, hc, ha, hcases⟩ := hsplit a items rest
      obtain ⟨d, behind', hd, hb, hcases'⟩ := hsplit b others rest'
      rw [ha, hb] at h
      obtain ⟨hab, hrest⟩ := hunique a List.mem_cons_self b _ _ (hends hc behind)
        (hends hd behind') h
      obtain ⟨hcd, hbehind⟩ := List.cons.inj hrest
      rcases hcases with ⟨rfl, hcClose, rfl⟩ | ⟨-, hcComma, rfl⟩
      · rcases hcases' with ⟨rfl, -, rfl⟩ | ⟨-, hdComma, -⟩
        · exact ⟨.cons hab .nil, hbehind⟩
        · exact absurd (hcClose.symm.trans (hcd.trans hdComma)) hcomma
      · rcases hcases' with ⟨-, hdClose, -⟩ | ⟨-, -, rfl⟩
        · exact absurd (hdClose.symm.trans (hcd.symm.trans hcComma)) hcomma
        · obtain ⟨hforall, hend⟩ :=
            ih (fun x hx => hunique x (List.mem_cons_of_mem _ hx)) hbehind
          exact ⟨.cons hab hforall, hend⟩

/-- What a canonical text begins with tells what it is the text of. -/
inductive Kind
  | null
  | yes
  | no
  | number
  | string
  | array
  | object
deriving DecidableEq

def kindOf (c : Char) : Kind :=
  if c = 'n' then .null
  else if c = 't' then .yes
  else if c = 'f' then .no
  else if c = '"' then .string
  else if c = '[' then .array
  else if c = '\x7b' then .object
  else .number

def Json.kind : Json → Kind
  | .null => .null
  | .bool true => .yes
  | .bool false => .no
  | .number token => if (numberOf token).isSome then .number else .null
  | .string _ => .string
  | .array _ => .array
  | .object _ => .object

theorem kindOf_numberChar {c : Char} (h : isNumberChar c = true) : kindOf c = .number := by
  have hne : ∀ d : Char, isNumberChar d = false → c ≠ d := by
    rintro d hd rfl
    rw [hd] at h
    cases h
  rw [kindOf, if_neg (hne 'n' rfl), if_neg (hne 't' rfl), if_neg (hne 'f' rfl),
    if_neg (hne '"' rfl), if_neg (hne '[' rfl), if_neg (hne '\x7b' rfl)]

section

variable {Key : Type} {crypto : Crypto Key}

theorem canonicalChars_finite {token : String} {x : ℚ} (h : numberOf token = some x) :
    canonicalChars crypto.standard (.number token) = (numberToString x).toList := by
  rw [canonicalChars, canonicalJson, Crypto.standard]
  dsimp only
  rw [jsNumber, h, JsNumber.text]

theorem canonicalChars_infinite {token : String} (h : numberOf token = none) :
    canonicalChars crypto.standard (.number token) = "null".toList := by
  rw [canonicalChars, canonicalJson, Crypto.standard]
  dsimp only
  rw [jsNumber, h, JsNumber.text]

theorem toDouble_of_numberOf {token : String} {x : ℚ} (h : numberOf token = some x) :
    toDouble x = some x := by
  rw [numberOf] at h
  exact toDouble_toDouble h

/-- A canonical text is not empty and begins as its kind does. -/
theorem exists_head (crypto : Crypto Key) (v : Json) :
    ∃ c rest, canonicalChars crypto.standard v = c :: rest ∧ c ≠ ']' ∧ kindOf c = v.kind := by
  cases v with
  | null => exact ⟨'n', "ull".toList, by rw [canonicalChars, canonicalJson]; rfl, by decide, rfl⟩
  | bool b =>
    cases b with
    | false =>
      exact ⟨'f', "alse".toList, by rw [canonicalChars, canonicalJson]; rfl, by decide, rfl⟩
    | true => exact ⟨'t', "rue".toList, by rw [canonicalChars, canonicalJson]; rfl, by decide, rfl⟩
  | number token =>
    cases hvalue : numberOf token with
    | none =>
      refine ⟨'n', "ull".toList, canonicalChars_infinite hvalue, by decide, ?_⟩
      rw [Json.kind, hvalue]
      rfl
    | some x =>
      have hdouble := toDouble_of_numberOf hvalue
      obtain ⟨c, rest, hchars⟩ := List.exists_cons_of_ne_nil (numberToString_ne_nil hdouble)
      have hnumber : isNumberChar c = true :=
        isNumberChar_of_mem_numberToString hdouble c (hchars ▸ List.mem_cons_self)
      refine ⟨c, rest, (canonicalChars_finite hvalue).trans hchars, ?_, ?_⟩
      · rintro rfl
        cases hnumber
      · rw [Json.kind, hvalue]
        exact kindOf_numberChar hnumber
  | string text =>
    refine ⟨'"', text.toList.flatMap quoteChar ++ ['"'], ?_, by decide, rfl⟩
    rw [canonicalChars, canonicalJson, quote, String.toList_ofList]
    rfl
  | array items => exact ⟨'[', _, canonicalChars_array _ items, by decide, rfl⟩
  | object fields => exact ⟨'\x7b', _, canonicalChars_object _ fields, by decide, rfl⟩

theorem kind_eq {v w : Json} {rest rest' : List Char}
    (h : canonicalChars crypto.standard v ++ rest = canonicalChars crypto.standard w ++ rest') :
    v.kind = w.kind := by
  obtain ⟨c, more, hc, -, hv⟩ := exists_head crypto v
  obtain ⟨d, more', hd, -, hw⟩ := exists_head crypto w
  rw [hc, hd] at h
  obtain ⟨rfl, -⟩ := List.cons.inj h
  exact hv.symm.trans hw

theorem of_kind_null (crypto : Crypto Key) {v : Json} (h : v.kind = .null) :
    v.nulled = .null ∧ canonicalChars crypto.standard v = "null".toList := by
  cases v with
  | null => exact ⟨rfl, rfl⟩
  | bool b => cases b <;> cases h
  | number token =>
    cases hvalue : numberOf token with
    | none => exact ⟨by rw [Json.nulled, hvalue]; rfl, canonicalChars_infinite hvalue⟩
    | some x =>
      rw [Json.kind, hvalue] at h
      cases h
  | string | array | object => cases h

/-- Numbers with something else behind them are told apart. -/
theorem number_unique {x y : ℚ} (hx : toDouble x = some x) (hy : toDouble y = some y)
    {rest rest' : List Char} (hrest : NumberEnds rest) (hrest' : NumberEnds rest')
    (h : (numberToString x).toList ++ rest = (numberToString y).toList ++ rest') :
    x = y ∧ rest = rest' := by
  have htake := congrArg (List.takeWhile isNumberChar) h
  rw [takeWhile_append_of_head (isNumberChar_of_mem_numberToString hx) hrest,
    takeWhile_append_of_head (isNumberChar_of_mem_numberToString hy) hrest',
    String.toList_inj] at htake
  obtain rfl := numberToString_inj hx hy htake
  exact ⟨rfl, List.append_cancel_left h⟩

/-- The members of two objects with one text, in their order. -/
theorem member_unique {fields others : List (String × Json)} {rest rest' : List Char}
    (ih : ∀ field ∈ fields, ∀ w rest rest', NumberEnds rest → NumberEnds rest' →
      canonicalChars crypto.standard field.2 ++ rest = canonicalChars crypto.standard w ++ rest' →
        field.2.nulled.Equal w.nulled ∧ rest = rest')
    (h : [','].intercalate ((fields.insertionSort nameLe).map (memberChars crypto.standard)) ++
        '\x7d' :: rest =
      [','].intercalate ((others.insertionSort nameLe).map (memberChars crypto.standard)) ++
        '\x7d' :: rest') :
    List.Forall₂ (fun field other => field.1 = other.1 ∧ field.2.nulled.Equal other.2.nulled)
      (fields.insertionSort nameLe) (others.insertionSort nameLe) ∧ rest = rest' := by
  apply join_unique rfl (by decide) ?_ ?_ h
  · intro field rest
    rw [memberChars, quote, String.toList_ofList]
    exact fun hhead => by cases hhead
  · intro field hfield other rest rest' hrest hrest' hmember
    rw [memberChars, memberChars, List.append_assoc, List.append_assoc] at hmember
    obtain ⟨hname, hvalue⟩ := quote_append_inj hmember
    obtain ⟨-, hvalue⟩ := List.cons.inj hvalue
    obtain ⟨hequal, hend⟩ := ih field ((List.mem_insertionSort nameLe).mp hfield) other.2 rest rest'
      hrest hrest' hvalue
    exact ⟨⟨hname, hequal⟩, hend⟩

theorem exists_of_forall₂ {α β : Type} {R : α → β → Prop} {items : List α} {others : List β}
    (h : List.Forall₂ R items others) : ∀ a ∈ items, ∃ b ∈ others, R a b := by
  induction h with
  | nil => exact nofun
  | cons hab _ ih =>
    rintro a (_ | ⟨_, ha⟩)
    · exact ⟨_, List.mem_cons_self, hab⟩
    · obtain ⟨b, hb, hab⟩ := ih a ha
      exact ⟨b, List.mem_cons_of_mem _ hb, hab⟩

/-- Objects whose members are equal one by one, when sorted, are equal. -/
theorem equal_nulled_of_sorted {fields others : List (String × Json)}
    (h : List.Forall₂ (fun field other => field.1 = other.1 ∧ field.2.nulled.Equal other.2.nulled)
      (fields.insertionSort nameLe) (others.insertionSort nameLe)) :
    (Json.object fields).nulled.Equal (Json.object others).nulled := by
  have hlength := h.length_eq
  rw [List.length_insertionSort, List.length_insertionSort] at hlength
  rw [Json.nulled, Json.nulled, Json.nulledFields_eq, Json.nulledFields_eq]
  refine ⟨by rw [List.length_map, List.length_map, hlength], Json.equalFields_iff.mpr ?_⟩
  rw [List.forall_mem_map]
  intro field hfield
  obtain ⟨other, hother, hname, hequal⟩ :=
    exists_of_forall₂ h field ((List.mem_insertionSort nameLe).mpr hfield)
  refine ⟨other.2.nulled, ?_, hequal⟩
  rw [hname]
  exact List.mem_map.mpr ⟨other, (List.mem_insertionSort nameLe).mp hother, rfl⟩

/-- A canonical text is the text of equal values, up to numbers that are too large, and ends
where it ends. -/
theorem value_unique (v : Json) : ∀ (w : Json) (rest rest' : List Char), NumberEnds rest →
    NumberEnds rest' →
    canonicalChars crypto.standard v ++ rest = canonicalChars crypto.standard w ++ rest' →
      v.nulled.Equal w.nulled ∧ rest = rest' := by
  induction v using Json.induction with
  | leaf v hleaf =>
    intro w rest rest' hrest hrest' h
    have hkind := kind_eq h
    by_cases hnull : v.kind = .null
    · obtain ⟨hv, hvText⟩ := of_kind_null crypto hnull
      obtain ⟨hw, hwText⟩ := of_kind_null crypto (hkind.symm.trans hnull)
      rw [hvText, hwText] at h
      rw [hv, hw]
      exact ⟨trivial, List.append_cancel_left h⟩
    cases v with
    | array | object => cases hleaf
    | null => exact absurd rfl hnull
    | bool b =>
      cases w with
      | bool c =>
        cases b <;> cases c <;> first | exact ⟨rfl, List.append_cancel_left h⟩ | cases hkind
      | number token =>
        rw [Json.kind] at hkind
        split at hkind <;> cases b <;> cases hkind
      | _ => cases b <;> cases hkind
    | number token =>
      cases hvalue : numberOf token with
      | none =>
        rw [Json.kind, hvalue] at hnull
        exact absurd rfl hnull
      | some x =>
        rw [Json.kind, hvalue] at hkind
        cases w with
        | number other =>
          cases hother : numberOf other with
          | none =>
            rw [Json.kind, hother] at hkind
            cases hkind
          | some y =>
            rw [canonicalChars_finite hvalue, canonicalChars_finite hother] at h
            obtain ⟨hxy, hend⟩ := number_unique (toDouble_of_numberOf hvalue)
              (toDouble_of_numberOf hother) hrest hrest' h
            refine ⟨?_, hend⟩
            rw [Json.nulled, Json.nulled, hvalue, hother]
            have hsame : jsNumber token = jsNumber other := by
              rw [jsNumber, jsNumber, hvalue, hother, hxy]
            exact hsame
        | bool c => cases c <;> cases hkind
        | null | string | array | object => cases hkind
    | string text =>
      cases w with
      | string other =>
        obtain ⟨htext, hend⟩ := quote_append_inj h
        exact ⟨htext, hend⟩
      | bool c => cases c <;> cases hkind
      | number other =>
        rw [Json.kind, Json.kind] at hkind
        split at hkind <;> cases hkind
      | null | array | object => cases hkind
  | array items ih =>
    intro w rest rest' hrest hrest' h
    have hkind := kind_eq h
    cases w with
    | array others =>
      rw [canonicalChars_array, canonicalChars_array, List.cons_append, List.cons_append,
        List.append_assoc, List.append_assoc] at h
      have hhead : ∀ (a : Json) (more : List Char),
          (canonicalChars crypto.standard a ++ more).head? ≠ some ']' := fun a more hclose => by
        obtain ⟨c, behind, hchars, hc, -⟩ := exists_head crypto a
        rw [hchars] at hclose
        exact hc (Option.some.inj hclose)
      obtain ⟨hforall, hend⟩ := join_unique (R := fun a b => a.nulled.Equal b.nulled) rfl
        (by decide) hhead (fun a ha b => ih a ha b) (List.cons.inj h).2
      refine ⟨?_, hend⟩
      rw [Json.nulled, Json.nulled, Json.nulledItems_eq, Json.nulledItems_eq]
      exact Json.equalItems_iff.mpr (List.forall₂_map_left_iff.mpr
        (List.forall₂_map_right_iff.mpr hforall))
    | bool c => cases c <;> cases hkind
    | number other =>
      rw [Json.kind, Json.kind] at hkind
      split at hkind <;> cases hkind
    | null | string | object => cases hkind
  | object fields ih =>
    intro w rest rest' hrest hrest' h
    have hkind := kind_eq h
    cases w with
    | object others =>
      rw [canonicalChars_object, canonicalChars_object, List.cons_append, List.cons_append,
        List.append_assoc, List.append_assoc] at h
      obtain ⟨hforall, hend⟩ := member_unique ih (List.cons.inj h).2
      refine ⟨?_, hend⟩
      exact equal_nulled_of_sorted hforall
    | bool c => cases c <;> cases hkind
    | number other =>
      rw [Json.kind, Json.kind] at hkind
      split at hkind <;> cases hkind
    | null | string | array => cases hkind

/-- Texts are equal exactly when the values are, up to numbers that are too large. -/
theorem canonicalJson_eq_iff {v w : Json} (hv : v.WellFormed) (hw : w.WellFormed) :
    canonicalJson crypto.standard v = canonicalJson crypto.standard w ↔
      v.nulled.Equal w.nulled := by
  constructor
  case mp =>
    intro htext
    have hchars : canonicalChars crypto.standard v ++ [] = canonicalChars crypto.standard w ++ [] :=
      congrArg (fun text => String.toList text ++ []) htext
    have hend : NumberEnds [] := nofun
    exact (value_unique v w [] [] hend hend hchars).1
  case mpr =>
    intro hequal
    rw [← canonicalJson_nulled crypto v, ← canonicalJson_nulled crypto w]
    exact canonicalJson_eq_of_equal crypto hv.nulled hw.nulled hequal

end

/-! ## The digest of a create body -/

/-- What `approvalBodyDigest` hashes. -/
def digestedText {Key : Type} (crypto : Crypto Key) (body : Json) : String :=
  canonicalJson crypto (withoutApproval body)

theorem approvalBodyDigest_some {Key : Type} (crypto : Crypto Key) (body : Json) :
    approvalBodyDigest crypto (some body) =
      toBase64Url (crypto.sha256 (utf8 (digestedText crypto body))) := rfl

theorem wellFormed_withoutApproval {body : Json} (h : body.WellFormed) :
    (withoutApproval body).WellFormed := by
  cases body with
  | object fields =>
    have hfields := Json.wellFormedFields_iff.mp h.2
    rw [withoutApproval]
    refine ⟨?_, Json.wellFormedFields_iff.mpr ?_⟩
    · rw [List.map_map]
      refine (congrArg List.Nodup (List.map_congr_left (g := Prod.fst) fun entry _ => ?_)).mpr h.1
      rw [Function.comp_apply]
      split <;> rfl
    · rw [List.forall_mem_map]
      intro entry hentry
      split
      case h_1 labels =>
        obtain ⟨hnames, hlabels⟩ := hfields _ hentry
        exact ⟨hnames.sublist (List.filter_sublist.map _), Json.wellFormedFields_iff.mpr
          fun label hlabel => Json.wellFormedFields_iff.mp hlabels label
            (List.mem_of_mem_filter hlabel)⟩
      case h_2 => exact hfields entry hentry
  | _ => exact h

section

variable {Key : Type} {crypto : Crypto Key}

/-- Where no number is too large, the text of a value identifies it. -/
theorem canonicalJson_eq_iff_of_finite {v w : Json} (hv : v.WellFormed) (hw : w.WellFormed)
    (hvFinite : v.nulled = v) (hwFinite : w.nulled = w) :
    canonicalJson crypto.standard v = canonicalJson crypto.standard w ↔ v.Equal w := by
  rw [canonicalJson_eq_iff hv hw, hvFinite, hwFinite]

/-- The text of a value identifies it, and what is hashed for a create body identifies the body
without its approval, exactly when the two values at hand do not become equal only by writing
`null` for the numbers that are too large for a double. -/
theorem canonicalJson_identifies_iff {v w : Json} (hv : v.WellFormed) (hw : w.WellFormed) :
    ((canonicalJson crypto.standard v = canonicalJson crypto.standard w ↔ v.Equal w) ↔
      (v.nulled.Equal w.nulled → v.Equal w)) ∧
    ((digestedText crypto.standard v = digestedText crypto.standard w →
        (withoutApproval v).Equal (withoutApproval w)) ↔
      ((withoutApproval v).nulled.Equal (withoutApproval w).nulled →
        (withoutApproval v).Equal (withoutApproval w))) := by
  have hbodies : digestedText crypto.standard v = digestedText crypto.standard w ↔
      (withoutApproval v).nulled.Equal (withoutApproval w).nulled :=
    canonicalJson_eq_iff (wellFormed_withoutApproval hv) (wellFormed_withoutApproval hw)
  constructor
  case left =>
    constructor
    case mp => exact fun hidentifies hnulled =>
      hidentifies.mp ((canonicalJson_eq_iff hv hw).mpr hnulled)
    case mpr => exact fun hapart => ⟨fun htext => hapart ((canonicalJson_eq_iff hv hw).mp htext),
      canonicalJson_eq_of_equal crypto hv hw⟩
  case right => rw [hbodies]

end

/-- Surroundings that neither sign nor hash. -/
def plainCrypto : Crypto Unit where
  verify _ _ _ := false
  sha256 bytes := bytes
  parseJson _ := none
  numberText token := token

/-- A create body whose memory limit is no double and one without a limit have one text. -/
theorem canonicalJson_not_identifies :
    canonicalJson plainCrypto.standard (.object [("Memory", .number "1e400")]) =
        canonicalJson plainCrypto.standard (.object [("Memory", .null)]) ∧
      digestedText plainCrypto.standard (.object [("Memory", .number "1e400")]) =
        digestedText plainCrypto.standard (.object [("Memory", .null)]) ∧
      ¬(Json.object [("Memory", .number "1e400")]).Equal (.object [("Memory", .null)]) := by
  have hlarge : numberOf "1e400" = none := by decide +kernel
  have hnulled : (Json.object [("Memory", .number "1e400")]).nulled =
      .object [("Memory", .null)] := by
    rw [Json.nulled, Json.nulledFields, Json.nulled, hlarge]
    rfl
  have hv : (Json.object [("Memory", .number "1e400")]).WellFormed := ⟨by decide, trivial, trivial⟩
  have hw : (Json.object [("Memory", .null)]).WellFormed := ⟨by decide, trivial, trivial⟩
  have htext := canonicalJson_nulled plainCrypto (.object [("Memory", .number "1e400")])
  rw [hnulled] at htext
  refine ⟨htext.symm, htext.symm, ?_⟩
  rintro ⟨-, ⟨other, hother, hequal⟩, -⟩
  obtain ⟨-, rfl⟩ := Prod.mk.inj (List.mem_singleton.mp hother)
  exact hequal

/-- The identification at two spellings of one body. -/
theorem canonicalJson_identifies_memory :
    canonicalJson plainCrypto.standard
        (.object [("Memory", .number "1e3"), ("Tty", .bool true)]) =
      canonicalJson plainCrypto.standard
        (.object [("Tty", .bool true), ("Memory", .number "1000")]) := by
  have hsame : (Json.number "1e3").Equal (.number "1000") := by
    have hnumber : jsNumber "1e3" = jsNumber "1000" := by decide +kernel
    exact hnumber
  have hequal : (Json.object [("Memory", .number "1e3"), ("Tty", .bool true)]).Equal
      (.object [("Tty", .bool true), ("Memory", .number "1000")]) :=
    ⟨rfl, ⟨.number "1000", List.mem_cons_of_mem _ List.mem_cons_self, hsame⟩,
      ⟨.bool true, List.mem_cons_self, rfl⟩, trivial⟩
  have hv : (Json.object [("Memory", .number "1e3"), ("Tty", .bool true)]).WellFormed :=
    ⟨by decide, trivial, trivial, trivial⟩
  have hw : (Json.object [("Tty", .bool true), ("Memory", .number "1000")]).WellFormed :=
    ⟨by decide, trivial, trivial, trivial⟩
  exact ((canonicalJson_identifies_iff hv hw).1.mpr fun _ => hequal).mpr hequal

end Turbopaneld.DockerGate
