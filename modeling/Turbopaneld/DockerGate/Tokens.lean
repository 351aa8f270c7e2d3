/-
# Tokens of the strict parser

The strict parser takes a token off the front of a text by hand: white space, a
separator, a number, a word, a string.  Each of its scanners takes what the grammar
calls such a token, and all of it where the rest of the text is one that may follow a
value.
-/

import Turbopaneld.DockerGate.JsonGrammar

namespace Turbopaneld.DockerGate

open JavaScript

/-- What may follow a value: nothing, white space, or a separator that closes or goes on. -/
def Delimited (rest : List Char) : Prop :=
  ∀ c, rest.head? = some c → IsSpace c ∨ c = ',' ∨ c = ']' ∨ c = '\x7d'

theorem delimited_nil : Delimited [] := by simp [Delimited]

theorem Delimited.spaces {space rest : List Char} (hspace : Spaces space) (hrest : Delimited rest) :
    Delimited (space ++ rest) := by
  cases space with
  | nil => exact hrest
  | cons first space =>
    intro c hc
    obtain rfl : first = c := by simpa using hc
    exact .inl (hspace first List.mem_cons_self)

theorem delimited_cons {c : Char} (hc : c = ',' ∨ c = ']' ∨ c = '\x7d') (rest : List Char) :
    Delimited (c :: rest) := by
  intro c' hc'
  obtain rfl : c = c' := by simpa using hc'
  exact .inr hc

/-! ## White space and separators -/

theorem isSpace_iff (c : Char) :
    (c == ' ' || c == '\t' || c == '\n' || c == '\r') = true ↔ IsSpace c := by
  simp [IsSpace, or_assoc]

theorem skipWhitespace_append {space : List Char} (hspace : Spaces space) (rest : List Char) :
    skipWhitespace (space ++ rest) = skipWhitespace rest := by
  rw [skipWhitespace, List.dropWhile_append_of_pos]
  · rfl
  · intro c hc
    exact (isSpace_iff c).mpr (hspace c hc)

theorem skipWhitespace_cons {c : Char} (hc : ¬IsSpace c) (rest : List Char) :
    skipWhitespace (c :: rest) = c :: rest := by
  rw [skipWhitespace, List.dropWhile_cons_of_neg]
  rwa [isSpace_iff]

theorem skipWhitespace_front {space : List Char} (hspace : Spaces space) {c : Char}
    (hc : ¬IsSpace c) (rest : List Char) : skipWhitespace (space ++ c :: rest) = c :: rest := by
  rw [skipWhitespace_append hspace, skipWhitespace_cons hc]

/-- White space is skipped to the last. -/
theorem exists_spaces (text : List Char) :
    ∃ space, Spaces space ∧ text = space ++ skipWhitespace text := by
  refine ⟨text.takeWhile fun c => c == ' ' || c == '\t' || c == '\n' || c == '\r', ?_, ?_⟩
  · intro c hc
    have hp : (c == ' ' || c == '\t' || c == '\n' || c == '\r') = true :=
      List.mem_takeWhile_imp (p := fun c => c == ' ' || c == '\t' || c == '\n' || c == '\r') hc
    exact (isSpace_iff c).mp hp
  · exact List.takeWhile_append_dropWhile.symm

theorem eat_append {ch : Char} (hch : ¬IsSpace ch) {space : List Char} (hspace : Spaces space)
    (rest : List Char) : eat ch (space ++ ch :: rest) = some rest := by
  rw [eat, skipWhitespace_append hspace, skipWhitespace_cons hch]
  simp

theorem eat_eq_none {ch other : Char} (hother : ¬IsSpace other) (hne : other ≠ ch)
    {space : List Char} (hspace : Spaces space) (rest : List Char) :
    eat ch (space ++ other :: rest) = none := by
  rw [eat, skipWhitespace_append hspace, skipWhitespace_cons hother]
  simp [hne]

theorem exists_of_eat {ch : Char} {text rest : List Char} (heat : eat ch text = some rest) :
    ∃ space, Spaces space ∧ text = space ++ ch :: rest := by
  obtain ⟨space, hspace, htext⟩ := exists_spaces text
  refine ⟨space, hspace, ?_⟩
  rw [eat] at heat
  split at heat
  case h_1 c after hskip =>
    split at heat
    case isTrue hc => rw [htext, hskip, hc, Option.some.inj heat]
    case isFalse => cases heat
  case h_2 => cases heat

theorem expect_append {ch : Char} (hch : ¬IsSpace ch) {space : List Char} (hspace : Spaces space)
    (rest : List Char) : expect ch (space ++ ch :: rest) = .ok rest := by
  rw [expect, eat_append hch hspace]

theorem exists_of_expect {ch : Char} {text rest : List Char} (hexpect : expect ch text = .ok rest) :
    ∃ space, Spaces space ∧ text = space ++ ch :: rest := by
  rw [expect] at hexpect
  split at hexpect
  case h_1 after heat =>
    rw [← Except.ok.inj hexpect]
    exact exists_of_eat heat
  case h_2 => cases hexpect

/-! ## Numbers -/

theorem notSpecial_of_isDigit {c : Char} (hdigit : JavaScript.isDigit c = true) :
    ¬IsSpace c ∧ c ≠ ']' ∧ c ≠ '\x7d' := by
  refine ⟨?_, ?_, ?_⟩
  · rintro (rfl | rfl | rfl | rfl)
    all_goals exact absurd hdigit (by decide)
  all_goals
    rintro rfl
    exact absurd hdigit (by decide)

/-- A run of digits is taken to its end. -/
theorem takeWhile_digits_append {digits rest : List Char}
    (hdigits : ∀ c ∈ digits, JavaScript.isDigit c = true)
    (hrest : ∀ c, rest.head? = some c → JavaScript.isDigit c = false) :
    (digits ++ rest).takeWhile JavaScript.isDigit = digits := by
  rw [List.takeWhile_append_of_pos hdigits]
  cases rest with
  | nil => simp
  | cons c rest => rw [List.takeWhile_cons_of_neg (by simp [hrest c rfl]), List.append_nil]

theorem digits_takeWhile {text : List Char} (hne : text.takeWhile JavaScript.isDigit ≠ []) :
    Digits (text.takeWhile JavaScript.isDigit) :=
  ⟨hne, fun _ hc => List.mem_takeWhile_imp hc⟩

/-- No character that may follow a value goes on with a number. -/
theorem Delimited.notNumber {rest : List Char} (hrest : Delimited rest) {c : Char}
    (hc : rest.head? = some c) : JavaScript.isDigit c = false ∧ c ≠ '.' ∧ c ≠ 'e' ∧ c ≠ 'E' := by
  rcases hrest c hc with (rfl | rfl | rfl | rfl) | rfl | rfl | rfl
  all_goals decide

theorem head?_digits {digits : List Char} (hdigits : Digits digits) (rest : List Char) {c : Char}
    (hc : (digits ++ rest).head? = some c) : JavaScript.isDigit c = true := by
  obtain ⟨first, more, rfl⟩ := List.exists_cons_of_ne_nil hdigits.1
  obtain rfl : first = c := by simpa using hc
  exact hdigits.2 first List.mem_cons_self

/-- A sign is taken off the front, and nothing where there is none. -/
theorem take_sign {p : Char → Bool} {sign tail : List Char}
    (hsign : sign = [] ∨ ∃ c, sign = [c] ∧ p c = true)
    (htail : ∀ c, tail.head? = some c → p c = false) :
    ((sign ++ tail).take 1).filter p = sign := by
  obtain rfl | ⟨c, rfl, hc⟩ := hsign
  · cases tail with
    | nil => rfl
    | cons c tail => simp [htail c rfl]
  · simp [hc]

theorem exists_sign (p : Char → Bool) (text : List Char) :
    ((text.take 1).filter p = [] ∨ ∃ c, (text.take 1).filter p = [c] ∧ p c = true) ∧
      text = (text.take 1).filter p ++ text.drop ((text.take 1).filter p).length := by
  cases text with
  | nil => simp
  | cons c rest =>
    by_cases hc : p c = true
    · simp [hc]
    · simp [hc]

theorem takeExponent_append {text rest : List Char} (htext : IsExponent text)
    (hrest : Delimited rest) : takeExponent (text ++ rest) = text := by
  obtain rfl | ⟨mark, sign, digits, hmark, hsign, hdigits, rfl⟩ := htext
  · cases rest with
    | nil => rfl
    | cons c rest =>
      obtain ⟨-, -, he, hE⟩ := hrest.notNumber rfl
      simp [takeExponent, he, hE]
  · have hrun : (digits ++ rest).takeWhile JavaScript.isDigit = digits :=
      takeWhile_digits_append hdigits.2 fun c hc => (hrest.notNumber hc).1
    have htaken : ((sign ++ (digits ++ rest)).take 1).filter (fun s => s == '+' || s == '-') = sign := by
      apply take_sign
      · obtain rfl | rfl | rfl := hsign
        · exact .inl rfl
        · exact .inr ⟨'+', rfl, rfl⟩
        · exact .inr ⟨'-', rfl, rfl⟩
      · intro c hc
        have hdigit := head?_digits hdigits rest hc
        rw [Bool.eq_false_iff]
        intro hsigned
        obtain rfl | rfl : c = '+' ∨ c = '-' := by simpa using hsigned
        · exact absurd hdigit (by decide)
        · exact absurd hdigit (by decide)
    rw [List.cons_append, takeExponent, if_pos hmark, List.append_assoc, htaken]
    dsimp only
    rw [List.drop_left, hrun, if_neg hdigits.1]

theorem isExponent_takeExponent (text : List Char) : IsExponent (takeExponent text) := by
  cases text with
  | nil => exact .inl rfl
  | cons c rest =>
    rw [takeExponent]
    split
    case isFalse => exact .inl rfl
    case isTrue hmark =>
      dsimp only
      split
      case isTrue => exact .inl rfl
      case isFalse hdigits =>
        refine .inr ⟨c, _, _, hmark, ?_, digits_takeWhile hdigits, rfl⟩
        obtain hnone | ⟨sign, hsome, hsign⟩ :=
          (exists_sign (fun s => s == '+' || s == '-') rest).1
        · exact .inl hnone
        · obtain rfl | rfl : sign = '+' ∨ sign = '-' := by simpa using hsign
          · exact .inr (.inl hsome)
          · exact .inr (.inr hsome)

theorem takeExponent_prefix (text : List Char) : takeExponent text <+: text := by
  cases text with
  | nil => exact List.prefix_rfl
  | cons c rest =>
    rw [takeExponent]
    split
    case isFalse => exact List.nil_prefix
    case isTrue =>
      dsimp only
      split
      case isTrue => exact List.nil_prefix
      case isFalse =>
        rw [List.prefix_cons_inj]
        have hrest := (exists_sign (fun s => s == '+' || s == '-') rest).2
        conv_rhs => rw [hrest]
        rw [List.prefix_append_right_inj]
        exact List.takeWhile_prefix _

theorem takeFraction_append {text rest : List Char} (htext : IsFraction text)
    (hrest : ∀ c, rest.head? = some c → JavaScript.isDigit c = false ∧ c ≠ '.') :
    takeFraction (text ++ rest) = text := by
  obtain rfl | ⟨digits, hdigits, rfl⟩ := htext
  · cases rest with
    | nil => rfl
    | cons c rest =>
      obtain ⟨-, hdot⟩ := hrest c rfl
      rw [List.nil_append, takeFraction]
      simpa using hdot
  · have hrun : (digits ++ rest).takeWhile JavaScript.isDigit = digits :=
      takeWhile_digits_append hdigits.2 fun c hc => (hrest c hc).1
    rw [List.cons_append, takeFraction, hrun, if_neg hdigits.1]

theorem isFraction_takeFraction (text : List Char) : IsFraction (takeFraction text) := by
  unfold takeFraction
  split
  case h_1 rest =>
    split
    case isTrue => exact .inl rfl
    case isFalse hdigits => exact .inr ⟨_, digits_takeWhile hdigits, rfl⟩
  case h_2 => exact .inl rfl

theorem takeFraction_prefix (text : List Char) : takeFraction text <+: text := by
  unfold takeFraction
  split
  case h_1 rest =>
    split
    case isTrue => exact List.nil_prefix
    case isFalse =>
      rw [List.prefix_cons_inj]
      exact List.takeWhile_prefix _
  case h_2 => exact List.nil_prefix

/-- The whole part at the front of a text, as `takeNumber` takes it. -/
def takeWhole (text : List Char) : List Char :=
  if text.head? = some '0' then ['0'] else text.takeWhile JavaScript.isDigit

theorem takeWhole_append {text rest : List Char} (htext : IsWhole text)
    (hrest : ∀ c, rest.head? = some c → JavaScript.isDigit c = false) :
    takeWhole (text ++ rest) = text := by
  obtain rfl | ⟨hdigits, hzero⟩ := htext
  · rfl
  · have hhead : (text ++ rest).head? = text.head? := by
      rw [List.head?_append_of_ne_nil _ hdigits.1]
    rw [takeWhole, hhead, if_neg hzero, takeWhile_digits_append hdigits.2 hrest]

theorem isWhole_takeWhole {text : List Char} (hne : takeWhole text ≠ []) : IsWhole (takeWhole text) := by
  rw [takeWhole] at hne ⊢
  split at hne
  case isTrue hzero =>
    rw [if_pos hzero]
    exact .inl rfl
  case isFalse hzero =>
    rw [if_neg hzero]
    refine .inr ⟨digits_takeWhile hne, ?_⟩
    rw [List.head?_takeWhile]
    intro hhead
    exact hzero (Option.filter_eq_some_iff.mp hhead).1

theorem takeWhole_prefix (text : List Char) : takeWhole text <+: text := by
  rw [takeWhole]
  split
  case isTrue hzero =>
    cases text with
    | nil => cases hzero
    | cons c rest =>
      obtain rfl : c = '0' := by simpa using hzero
      simp
  case isFalse => exact List.takeWhile_prefix _

/-- `takeNumber` in parts. -/
theorem takeNumber_eq (text : List Char) :
    takeNumber text =
      let sign := (text.take 1).filter fun s => s == '-'
      let unsigned := text.drop sign.length
      if takeWhole unsigned = [] then []
      else
        let behind := unsigned.drop (takeWhole unsigned).length
        sign ++ takeWhole unsigned ++ takeFraction behind ++
          takeExponent (behind.drop (takeFraction behind).length) := rfl

/-- A number token is taken whole where a value may end. -/
theorem takeNumber_append {token rest : List Char} (htoken : IsNumber token)
    (hrest : Delimited rest) : takeNumber (token ++ rest) = token := by
  obtain ⟨sign, whole, fraction, exponent, hsign, hwhole, hfraction, hexponent, rfl⟩ := htoken
  have hne : whole ≠ [] := by
    obtain rfl | ⟨hdigits, -⟩ := hwhole
    · simp
    · exact hdigits.1
  have htaken : ((sign ++ (whole ++ (fraction ++ (exponent ++ rest)))).take 1).filter
      (fun s => s == '-') = sign := by
    apply take_sign
    · obtain rfl | rfl := hsign
      · exact .inl rfl
      · exact .inr ⟨'-', rfl, rfl⟩
    · intro c hc
      have hdigit : JavaScript.isDigit c = true := by
        obtain rfl | ⟨hdigits, -⟩ := hwhole
        · obtain rfl : '0' = c := by simpa using hc
          rfl
        · exact head?_digits hdigits _ hc
      rw [beq_eq_false_iff_ne]
      rintro rfl
      exact absurd hdigit (by decide)
  have hmark : ∀ c, (exponent ++ rest).head? = some c → JavaScript.isDigit c = false ∧ c ≠ '.' := by
    obtain rfl | ⟨mark, _, _, rfl | rfl, -, -, rfl⟩ := hexponent
    · exact fun c hc => ⟨(hrest.notNumber hc).1, (hrest.notNumber hc).2.1⟩
    · intro c hc
      obtain rfl : 'e' = c := by simpa using hc
      decide
    · intro c hc
      obtain rfl : 'E' = c := by simpa using hc
      decide
  have hpoint : ∀ c, (fraction ++ (exponent ++ rest)).head? = some c → JavaScript.isDigit c = false := by
    obtain rfl | ⟨digits, -, rfl⟩ := hfraction
    · exact fun c hc => (hmark c hc).1
    · intro c hc
      obtain rfl : '.' = c := by simpa using hc
      decide
  rw [takeNumber_eq, List.append_assoc, List.append_assoc, List.append_assoc, htaken]
  dsimp only
  rw [List.drop_left, takeWhole_append hwhole hpoint, if_neg hne, List.drop_left,
    takeFraction_append hfraction hmark, List.drop_left, takeExponent_append hexponent hrest]

theorem isNumber_takeNumber {text : List Char} (hne : takeNumber text ≠ []) :
    IsNumber (takeNumber text) := by
  rw [takeNumber_eq] at hne ⊢
  dsimp only at hne ⊢
  split at hne
  case isTrue => exact absurd rfl hne
  case isFalse hwhole =>
    rw [if_neg hwhole]
    refine ⟨_, _, _, _, ?_, isWhole_takeWhole hwhole, isFraction_takeFraction _,
      isExponent_takeExponent _, rfl⟩
    obtain hnone | ⟨sign, hsome, hsign⟩ := (exists_sign (fun s => s == '-') text).1
    · exact .inl hnone
    · obtain rfl : sign = '-' := by simpa using hsign
      exact .inr hsome

theorem takeNumber_prefix (text : List Char) : takeNumber text <+: text := by
  rw [takeNumber_eq]
  dsimp only
  split
  case isTrue => exact List.nil_prefix
  case isFalse =>
    have hsign := (exists_sign (fun s => s == '-') text).2
    generalize (text.take 1).filter (fun s => s == '-') = sign at hsign ⊢
    obtain ⟨behind, hbehind⟩ := takeWhole_prefix (text.drop sign.length)
    obtain ⟨after, hafter⟩ := takeFraction_prefix behind
    obtain ⟨rest, hrest⟩ := takeExponent_prefix after
    refine ⟨rest, ?_⟩
    have hdrop : ∀ {front back whole : List Char}, front ++ back = whole →
        whole.drop front.length = back := by
      rintro front back _ rfl
      exact List.drop_left
    rw [hdrop hbehind, hdrop hafter, List.append_assoc, hrest, List.append_assoc, hafter,
      List.append_assoc, hbehind, ← hsign]

/-! ## Words and scalars -/

/-- A scalar's scanner takes a word or a number where a value may end. -/
theorem parseScalar_word {word : List Char} {value : Json} (hword : (word, value) ∈ literals)
    (rest : List Char) : parseScalar (word ++ rest) = .ok (value, rest) := by
  simp only [literals, List.mem_cons, Prod.mk.injEq, List.not_mem_nil, or_false] at hword
  obtain ⟨rfl, rfl⟩ | ⟨rfl, rfl⟩ | ⟨rfl, rfl⟩ := hword
  · rfl
  · rfl
  · rfl

/-- The first character of a number token. -/
theorem head?_number {token : List Char} (htoken : IsNumber token) (rest : List Char) :
    ∃ c more, token ++ rest = c :: more ∧ (c = '-' ∨ JavaScript.isDigit c = true) := by
  obtain ⟨sign, whole, fraction, exponent, hsign, hwhole, -, -, rfl⟩ := htoken
  obtain rfl | rfl := hsign
  · obtain rfl | ⟨hdigits, -⟩ := hwhole
    · exact ⟨'0', _, rfl, .inr rfl⟩
    · obtain ⟨first, more, rfl⟩ := List.exists_cons_of_ne_nil hdigits.1
      exact ⟨first, _, rfl, .inr (hdigits.2 first List.mem_cons_self)⟩
  · exact ⟨'-', _, rfl, .inl rfl⟩

theorem parseScalar_number {token rest : List Char} (htoken : IsNumber token)
    (hrest : Delimited rest) :
    parseScalar (token ++ rest) = .ok (.number (String.ofList token), rest) := by
  obtain ⟨c, more, hhead, hc⟩ := head?_number htoken rest
  have hnoWord : (literals.find? fun literal => literal.1.isPrefixOf (token ++ rest)) = none := by
    rw [List.find?_eq_none]
    intro literal hliteral
    rw [hhead]
    simp only [literals, List.mem_cons, List.not_mem_nil, or_false] at hliteral
    obtain rfl | rfl | rfl := hliteral
    all_goals
      intro hprefix
      have hfirst := (List.cons_prefix_cons.mp (List.isPrefixOf_iff_prefix.mp hprefix)).1
      obtain rfl | hdigit := hc
      · exact absurd hfirst (by decide)
      · rw [← hfirst] at hdigit
        exact absurd hdigit (by decide)
  have hne : token ≠ [] := by
    rintro rfl
    obtain ⟨_, _, hnil, -⟩ := head?_number htoken []
    cases hnil
  rw [parseScalar, hnoWord]
  dsimp only
  rw [takeNumber_append htoken hrest, if_neg hne, List.drop_left]

/-- What a scalar's scanner takes is a value by the grammar. -/
theorem derives_of_parseScalar {text rest : List Char} {value : Json}
    (hparse : parseScalar text = .ok (value, rest)) :
    ∃ token, text = token ++ rest ∧ ∃ written, Derives .value token written := by
  rw [parseScalar] at hparse
  split at hparse
  case h_1 word found hfind =>
    have hmem := List.mem_of_find?_eq_some hfind
    have hprefix : word <+: text := by simpa using List.find?_some hfind
    obtain ⟨after, rfl⟩ := hprefix
    rw [List.drop_left] at hparse
    simp only [Except.ok.injEq, Prod.mk.injEq] at hparse
    refine ⟨word, by rw [hparse.2], ?_⟩
    simp only [literals, List.mem_cons, Prod.mk.injEq, List.not_mem_nil, or_false] at hmem
    obtain ⟨rfl, -⟩ | ⟨rfl, -⟩ | ⟨rfl, -⟩ := hmem
    · exact ⟨_, .true⟩
    · exact ⟨_, .false⟩
    · exact ⟨_, .null⟩
  case h_2 =>
    split at hparse
    case isTrue => cases hparse
    case isFalse hne =>
      simp only [Except.ok.injEq, Prod.mk.injEq] at hparse
      refine ⟨takeNumber text, ?_, _, .number (isNumber_takeNumber hne)⟩
      obtain ⟨after, hafter⟩ := takeNumber_prefix text
      rw [← hparse.2]
      exact (List.prefix_iff_eq_append.mp ( takeNumber_prefix text)).symm

/-! ## Strings -/

theorem scanString_escape (c : Char) (rest : List Char) :
    scanString ('\\' :: c :: rest) = (scanString rest).map fun cut => ('\\' :: c :: cut.1, cut.2) :=
  rfl

theorem scanString_plain {c : Char} (hquote : c ≠ '"') (hescape : c ≠ '\\') (rest : List Char) :
    scanString (c :: rest) = (scanString rest).map fun cut => (c :: cut.1, cut.2) := by
  rw [scanString]
  · exact hquote
  · intro c' rest' heq
    exact absurd heq hescape

theorem plain_of_hexDigit {c : Char} {digit : ℕ} (hdigit : hexDigitOf c = some digit) :
    c ≠ '"' ∧ c ≠ '\\' := by
  have hquote : hexDigitOf '"' = none := rfl
  have hescape : hexDigitOf '\\' = none := rfl
  constructor
  · rintro rfl
    rw [hquote] at hdigit
    cases hdigit
  · rintro rfl
    rw [hescape] at hdigit
    cases hdigit

/-- The scanner of a string ends where the string's inside does. -/
theorem scanString_append {inside : List Char} {units : List ℕ}
    (hunits : decodeUnits inside = some units) (rest : List Char) :
    scanString (inside ++ '"' :: rest) = some (inside, rest) := by
  induction inside using decodeUnits.induct generalizing units with
  | case1 => rfl
  | case2 a b c d after ih =>
    simp only [decodeUnits, Option.bind_eq_bind, Option.bind_eq_some_iff] at hunits
    obtain ⟨_, ha, _, hb, _, hc, _, hd, _, hafter, -⟩ := hunits
    have ha := plain_of_hexDigit ha
    have hb := plain_of_hexDigit hb
    have hc := plain_of_hexDigit hc
    have hd := plain_of_hexDigit hd
    simp only [List.cons_append]
    rw [scanString_escape, scanString_plain ha.1 ha.2, scanString_plain hb.1 hb.2,
      scanString_plain hc.1 hc.2, scanString_plain hd.1 hd.2, ih hafter]
    rfl
  | case3 e after hnot ih =>
    rw [decodeUnits] at hunits
    · simp only [Option.bind_eq_bind, Option.bind_eq_some_iff] at hunits
      obtain ⟨_, -, _, hafter, -⟩ := hunits
      simp only [List.cons_append]
      rw [scanString_escape, ih hafter]
      rfl
    · exact hnot
  | case4 c after hnotLong hnotShort hbad =>
    rw [decodeUnits, if_pos hbad] at hunits
    · cases hunits
    · exact hnotLong
    · exact hnotShort
  | case5 c after hnotLong hnotShort hgood ih =>
    rw [decodeUnits, if_neg hgood] at hunits
    · simp only [Option.bind_eq_bind, Option.bind_eq_some_iff] at hunits
      obtain ⟨_, hafter, -⟩ := hunits
      rw [not_or, not_or] at hgood
      rw [List.cons_append, scanString_plain hgood.2.1 hgood.2.2, ih hafter]
      rfl
    · exact hnotLong
    · exact hnotShort

theorem parseString_append {inside : List Char} {value : String} (hinside : IsString inside value)
    (rest : List Char) : parseString ('"' :: (inside ++ '"' :: rest)) = .ok (value, rest) := by
  rw [IsString, decodeToken] at hinside
  cases hunits : decodeUnits inside with
  | none => simp [hunits] at hinside
  | some units =>
    rw [parseString, scanString_append hunits]
    dsimp only
    rw [decodeToken]
    rw [hunits] at hinside ⊢
    rw [hinside]
    rfl

theorem exists_of_scanString {text inside rest : List Char}
    (hscan : scanString text = some (inside, rest)) : text = inside ++ '"' :: rest := by
  induction text using scanString.induct generalizing inside rest with
  | case1 => cases hscan
  | case2 after =>
    obtain ⟨rfl, rfl⟩ : [] = inside ∧ after = rest := by simpa [scanString] using hscan
    rfl
  | case3 c after ih =>
    rw [scanString_escape, Option.map_eq_some_iff] at hscan
    obtain ⟨⟨inside', rest'⟩, hinner, heq⟩ := hscan
    obtain ⟨rfl, rfl⟩ := Prod.mk.inj heq
    rw [ih hinner]
    rfl
  | case4 c after hquote hescape ih =>
    rw [scanString, Option.map_eq_some_iff] at hscan
    · obtain ⟨⟨inside', rest'⟩, hinner, heq⟩ := hscan
      obtain ⟨rfl, rfl⟩ := Prod.mk.inj heq
      rw [ih hinner]
      rfl
    · exact hquote
    · exact hescape

theorem exists_of_parseString {text rest : List Char} {value : String}
    (hparse : parseString text = .ok (value, rest)) :
    ∃ inside, IsString inside value ∧ text = '"' :: (inside ++ '"' :: rest) := by
  unfold parseString at hparse
  split at hparse
  case h_1 after =>
    cases hscan : scanString after with
    | none => simp [hscan] at hparse
    | some cut =>
      obtain ⟨inside, behind⟩ := cut
      rw [hscan] at hparse
      dsimp only at hparse
      cases hdecode : decodeToken inside with
      | error e => simp [hdecode, Except.map] at hparse
      | ok decoded =>
        rw [hdecode] at hparse
        obtain ⟨rfl, rfl⟩ := Prod.mk.inj (Except.ok.inj hparse)
        exact ⟨inside, hdecode, by rw [exists_of_scanString hscan]⟩
  case h_2 => cases hparse

end Turbopaneld.DockerGate
