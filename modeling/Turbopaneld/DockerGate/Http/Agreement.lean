/-
# When gate and engine read the same request

The gate relays what it accepted without changing a byte, so the engine reads
exactly the bytes the gate read.  The two agree on every head the gate accepts
whose framing fields are single plain values.  On a chunked body they agree when
the body keeps to the lines both know: no line feed inside the size line of a
chunk with data, CRLF after each chunk's data, and no empty line before the one
that closes the trailers.  The gate checks none of these three, and the module
ends with a stream on which the engine finds a second request where the gate saw
one.
-/

import Mathlib.Tactic.Ring
import Mathlib.Tactic.NormNum
import Turbopaneld.DockerGate.Http.Engine

namespace Turbopaneld.DockerGate

open Programs Sequences

/-! ## Lines and sections of lines -/

namespace Engine

@[simp]
theorem dropCr_append_cr (text : Bytes) : dropCr (text ++ [13]) = text := by
  simp [dropCr]

/-- A line feed ends the present line, whatever came before it on that line. -/
theorem blankEnded_append {text : Bytes} (htext : 10 ∉ text) (current rest : Bytes) :
    blankEnded current (text ++ 10 :: rest) =
      if dropCr (current ++ text) = [] then some ([], rest)
      else (blankEnded [] rest).map fun cut => (dropCr (current ++ text) :: cut.1, cut.2) := by
  induction text generalizing current with
  | nil => simp [blankEnded]
  | cons b text ih =>
      have hb : b ≠ 10 := fun h => htext (h ▸ List.mem_cons_self)
      rw [List.cons_append, blankEnded, if_neg hb,
        ih (fun h => htext (List.mem_cons_of_mem b h)), List.append_assoc]
      rfl

/-- Lines written with CRLF, then a blank line, are read back as those lines. -/
theorem blankEnded_lines {lines : List Bytes}
    (hlines : ∀ text ∈ lines, text ≠ [] ∧ (10 : UInt8) ∉ text) (rest : Bytes) :
    blankEnded [] (lines.flatMap (· ++ crlf) ++ (crlf ++ rest)) = some (lines, rest) := by
  induction lines with
  | nil => rfl
  | cons text lines ih =>
      obtain ⟨hne, hlf⟩ := hlines text List.mem_cons_self
      have hlf' : (10 : UInt8) ∉ text ++ [13] := by simp [hlf]
      have hshape : (text :: lines).flatMap (· ++ crlf) ++ (crlf ++ rest) =
          (text ++ [13]) ++ 10 :: (lines.flatMap (· ++ crlf) ++ (crlf ++ rest)) := by
        simp [crlf]
      rw [hshape, blankEnded_append hlf', List.nil_append, dropCr_append_cr, if_neg hne,
        ih fun other hother => hlines other (List.mem_cons_of_mem text hother)]
      rfl

/-- A stream whose first line feed is known has a known first line. -/
theorem line_append {text : Bytes} (htext : 10 ∉ text) (rest : Bytes) :
    line (text ++ 10 :: rest) = some (dropCr text, rest) := by
  have hfirst : ∀ text : Bytes, 10 ∉ text →
      cutThrough [10] (text ++ 10 :: rest) = some (text ++ [10], rest) := by
    intro text htext
    induction text with
    | nil => simp [cutThrough]
    | cons b text ih =>
        have hb : ¬ [10] <+: b :: (text ++ 10 :: rest) := by
          rw [List.cons_prefix_cons]
          exact fun h => htext (h.1 ▸ List.mem_cons_self)
        rw [List.cons_append, cutThrough, if_neg hb, ih fun h => htext (List.mem_cons_of_mem b h)]
        rfl
  rw [line, hfirst text htext]
  simp

end Engine

/-! ## Heads -/

/-- Joining the lines of a text gives the text back. -/
theorem flatMap_splitCrlf (text : Bytes) :
    (splitCrlf text).flatMap (· ++ crlf) = text ++ crlf := by
  induction text using splitCrlf.induct with
  | case1 => simp [splitCrlf]
  | case2 rest ih => simpa [splitCrlf, crlf] using ih
  | case3 b rest hne hsplit ih => simp [hsplit, crlf] at ih
  | case4 b rest hne line lines hsplit ih =>
      rw [hsplit] at ih
      rw [splitCrlf, hsplit]
      · simpa using ih
      · exact hne

/-- The lines of an accepted head are its bytes, and hold no line break. -/
theorem lines_of_splitHeadLines {raw : Bytes} {lines : List Bytes}
    (hraw : IsRecord crlfCrlf raw) (hlines : splitHeadLines raw = .ok lines) :
    raw = lines.flatMap (· ++ crlf) ++ crlf ∧ ∀ text ∈ lines, (10 : UInt8) ∉ text := by
  obtain ⟨text, htext⟩ := suffix_of_cutThrough hraw
  have htake : raw.take (raw.length - 4) = text := by
    rw [← htext]
    simp [crlfCrlf]
  rw [splitHeadLines, htake] at hlines
  by_cases hnul : 0 ∈ text
  · simp [hnul, httpError] at hlines
  · simp only [hnul, if_false] at hlines
    split_ifs at hlines with hbare
    · simp [httpError] at hlines
    · obtain rfl := Except.ok.inj hlines
      refine ⟨?_, fun line hline hlf => ?_⟩
      · rw [flatMap_splitCrlf, ← htext]
        simp [crlf, crlfCrlf]
      · apply hbare
        rw [List.any_eq_true]
        exact ⟨line, hline, by simp [hlf]⟩

/-- A header line the gate accepts is read by the engine as the same field, and
is not empty. -/
theorem field_of_parseHeaderLine {line : Bytes} {header : Header}
    (hparse : parseHeaderLine line = .ok header) :
    Engine.field line = some header ∧ line ≠ [] := by
  unfold parseHeaderLine at hparse
  dsimp only at hparse
  split_ifs at hparse with hows hname htoken
  · simp [httpError] at hparse
  · simp [httpError] at hparse
  · obtain rfl := Except.ok.inj hparse
    rw [not_or] at hname
    refine ⟨by rw [Engine.field, if_neg hname.1], ?_⟩
    rintro rfl
    exact hname.2 rfl
  · simp [httpError] at hparse

/-- The engine reads the header lines the gate accepts as the same fields. -/
theorem fields_of_parseHeaders {lines : List Bytes} {headers : List Header}
    (hparse : parseHeaders lines = .ok headers) :
    lines.mapM Engine.field = some headers ∧ ∀ line ∈ lines, line ≠ [] := by
  rw [parseHeaders] at hparse
  induction lines generalizing headers with
  | nil =>
      obtain rfl := Except.ok.inj hparse
      exact ⟨rfl, by simp⟩
  | cons line lines ih =>
      rw [List.mapM_cons] at hparse
      cases hline : parseHeaderLine line with
      | error e => simp [hline, bind, Except.bind] at hparse
      | ok header =>
          cases hrest : lines.mapM parseHeaderLine with
          | error e => simp [hline, hrest, bind, Except.bind] at hparse
          | ok rest =>
              simp only [hline, hrest, bind, Except.bind, pure, Except.pure] at hparse
              obtain rfl := Except.ok.inj hparse
              obtain ⟨hfield, hne⟩ := field_of_parseHeaderLine hline
              obtain ⟨hfields, hnes⟩ := ih hrest
              refine ⟨by rw [List.mapM_cons, hfield, hfields]; rfl, ?_⟩
              intro other hother
              rcases List.mem_cons.mp hother with rfl | hother
              · exact hne
              · exact hnes other hother

/-- What an accepted request head says about its bytes. -/
theorem lines_of_parseRequestHead {raw : Bytes} {head : RequestHead}
    (hraw : IsRecord crlfCrlf raw) (hparse : parseRequestHead raw = .ok head) :
    head.raw = raw ∧ ∃ requestLine fieldLines,
      raw = (requestLine :: fieldLines).flatMap (· ++ crlf) ++ crlf ∧
      (∀ text ∈ requestLine :: fieldLines, text ≠ [] ∧ (10 : UInt8) ∉ text) ∧
      requestLine.splitOn 32 = [head.method, head.target, head.version] ∧
      fieldLines.mapM Engine.field = some head.headers := by
  unfold parseRequestHead at hparse
  cases hlines : splitHeadLines raw with
  | error e => simp [hlines, bind, Except.bind] at hparse
  | ok lines =>
      obtain ⟨hjoin, hbreak⟩ := lines_of_splitHeadLines hraw hlines
      simp only [hlines, bind, Except.bind] at hparse
      rcases lines with _ | ⟨requestLine, fieldLines⟩
      · simp [httpError] at hparse
      · dsimp only at hparse
        split at hparse
        · next method target version hparts =>
            split_ifs at hparse with hmethod htarget hversion
            · simp [httpError] at hparse
            · simp [httpError] at hparse
            · simp [httpError] at hparse
            · cases hheaders : parseHeaders fieldLines with
              | error e => simp [hheaders] at hparse
              | ok headers =>
                  simp only [hheaders, pure, Except.pure] at hparse
                  obtain rfl := Except.ok.inj hparse
                  obtain ⟨hfields, hnes⟩ := fields_of_parseHeaders hheaders
                  refine ⟨rfl, requestLine, fieldLines, hjoin, fun text htext => ?_, hparts,
                    hfields⟩
                  refine ⟨?_, hbreak text htext⟩
                  rcases List.mem_cons.mp htext with rfl | hfield
                  · rintro rfl
                    simp at hparts
                  · exact hnes text hfield
        · simp [httpError] at hparse

/-! ## Framing fields -/

/-- The fields of one name are plain: at most one of them, with a value that is
neither empty nor a list. -/
def PlainField (headers : List Header) (name : String) : Prop :=
  (fieldValues headers name).length ≤ 1 ∧
    ∀ value ∈ fieldValues headers name, trimOws value ≠ [] ∧ (44 : UInt8) ∉ value

/-- The two framing fields are plain. -/
def PlainFields (headers : List Header) : Prop :=
  PlainField headers "transfer-encoding" ∧ PlainField headers "content-length"

instance (headers : List Header) (name : String) : Decidable (PlainField headers name) :=
  inferInstanceAs (Decidable (_ ∧ _))

instance (headers : List Header) : Decidable (PlainFields headers) :=
  inferInstanceAs (Decidable (_ ∧ _))

/-- A plain field is one token, its value. -/
theorem PlainField.cases {headers : List Header} {name : String}
    (hplain : PlainField headers name) :
    (fieldValues headers name = [] ∧ headerTokens headers name = []) ∨
      ∃ value, fieldValues headers name = [value] ∧
        headerTokens headers name = [toLowerCase (trimOws value)] := by
  obtain ⟨hlength, hvalues⟩ := hplain
  rcases hfields : fieldValues headers name with _ | ⟨value, more⟩
  · exact .inl ⟨rfl, by simp [headerTokens, hfields]⟩
  · rw [hfields] at hlength hvalues
    have hmore : more = [] := List.length_eq_zero_iff.mp (by simpa using hlength)
    subst hmore
    obtain ⟨htrim, hcomma⟩ := hvalues value List.mem_cons_self
    have hsplit : value.splitOn 44 = [value] := List.splitOn_eq_singleton hcomma
    have htoken : toLowerCase (trimOws value) ≠ [] := by simpa [toLowerCase] using htrim
    exact .inr ⟨value, rfl, by simp [headerTokens, hfields, hsplit, htoken]⟩

/-- Lower-casing changes no digit and makes none. -/
theorem isDigit_lowerByte {b : UInt8} (hdigit : isDigit (lowerByte b) = true) :
    lowerByte b = b := by
  unfold lowerByte at hdigit ⊢
  split_ifs at hdigit ⊢ with hupper
  · exfalso
    simp only [isDigit, Bool.and_eq_true, decide_eq_true_eq, UInt8.le_iff_toNat_le,
      UInt8.toNat_add] at hdigit hupper
    simp at hdigit hupper
    omega
  · rfl

theorem toLowerCase_of_isDigit {text : Bytes} (hdigits : (toLowerCase text).all isDigit = true) :
    toLowerCase text = text := by
  rw [toLowerCase, List.all_map, List.all_eq_true] at hdigits
  calc toLowerCase text = text.map id :=
        List.map_congr_left fun b hb => isDigit_lowerByte (hdigits b hb)
    _ = text := List.map_id text

theorem decimalValue_lt {digits : Bytes} (hdigits : digits.all isDigit = true) :
    decimalValue digits < 10 ^ digits.length := by
  have hfold : ∀ (text : Bytes) (n : ℕ), text.all isDigit = true →
      text.foldl (fun n d => 10 * n + (d.toNat - 48)) n < (n + 1) * 10 ^ text.length := by
    intro text
    induction text with
    | nil => intro n _; simp
    | cons d text ih =>
        intro n hall
        rw [List.all_cons, Bool.and_eq_true] at hall
        have hd : d.toNat ≤ 57 := by
          have := hall.1
          simp only [isDigit, Bool.and_eq_true, decide_eq_true_eq, UInt8.le_iff_toNat_le] at this
          exact this.2
        have hrest := ih (10 * n + (d.toNat - 48)) hall.2
        rw [List.foldl_cons, List.length_cons, pow_succ]
        have hstep : 10 * n + (d.toNat - 48) + 1 ≤ (n + 1) * 10 := by omega
        calc text.foldl (fun n d => 10 * n + (d.toNat - 48)) (10 * n + (d.toNat - 48))
            < (10 * n + (d.toNat - 48) + 1) * 10 ^ text.length := hrest
          _ ≤ (n + 1) * 10 * 10 ^ text.length := Nat.mul_le_mul_right _ hstep
          _ = (n + 1) * (10 ^ text.length * 10) := by ring
  simpa [decimalValue] using hfold digits 0 hdigits

/-- What the gate's transfer coding says about the field. -/
theorem headerTokens_of_transferCoding {headers : List Header} {chunked : Bool}
    (hcoding : transferCoding headers = .ok chunked) :
    headerTokens headers "transfer-encoding" = if chunked then [ascii "chunked"] else [] := by
  unfold transferCoding at hcoding
  split at hcoding
  · obtain rfl := Except.ok.inj hcoding
    assumption
  · next coding htokens =>
      by_cases hchunked : coding = ascii "chunked"
      · rw [if_pos hchunked] at hcoding
        obtain rfl := Except.ok.inj hcoding
        rw [htokens, hchunked]
        rfl
      · rw [if_neg hchunked] at hcoding
        simp [httpError] at hcoding
  · simp [httpError] at hcoding

/-- What the gate's content length says about the field. -/
theorem headerTokens_of_parseContentLength {headers : List Header} {length : Option ℕ}
    (hlength : parseContentLength headers = .ok length) :
    (length = none ∧ headerTokens headers "content-length" = []) ∨
      ∃ digits, headerTokens headers "content-length" = [digits] ∧
        digits.all isDigit = true ∧ digits.length ≤ 15 ∧
        length = some (decimalValue digits) := by
  unfold parseContentLength at hlength
  split at hlength
  · obtain rfl := Except.ok.inj hlength
    exact .inl ⟨rfl, by assumption⟩
  · next digits htokens =>
      split_ifs at hlength with hcount hdigits
      · simp [httpError] at hlength
      · obtain rfl := Except.ok.inj hlength
        rw [Bool.and_eq_true, decide_eq_true_eq] at hdigits
        exact .inr ⟨digits, htokens, hdigits.1, hdigits.2, rfl⟩
      · simp [httpError] at hlength
  · simp [httpError] at hlength

/-- What the gate's framing says about the two fields. -/
theorem headerTokens_of_sharedFraming {headers : List Header} {framing : Option Framing}
    (hframing : sharedFraming headers = .ok framing) :
    (framing = some .chunked ∧
        headerTokens headers "transfer-encoding" = [ascii "chunked"] ∧
        headerTokens headers "content-length" = []) ∨
      (framing = none ∧ headerTokens headers "transfer-encoding" = [] ∧
        headerTokens headers "content-length" = []) ∨
      ∃ digits, framing = some (.length (decimalValue digits)) ∧
        headerTokens headers "transfer-encoding" = [] ∧
        headerTokens headers "content-length" = [digits] ∧
        digits.all isDigit = true ∧ digits.length ≤ 15 := by
  unfold sharedFraming at hframing
  cases hcoding : transferCoding headers with
  | error e => simp [hcoding, bind, Except.bind] at hframing
  | ok chunked =>
      have hcodings := headerTokens_of_transferCoding hcoding
      cases hlength : parseContentLength headers with
      | error e => simp [hcoding, hlength, bind, Except.bind] at hframing
      | ok length =>
          have hlengths := headerTokens_of_parseContentLength hlength
          simp only [hcoding, hlength, bind, Except.bind] at hframing
          rcases hlengths with ⟨rfl, hnone⟩ | ⟨digits, hsome, hdigits, hshort, rfl⟩
          · cases chunked with
            | true =>
                obtain rfl := Except.ok.inj hframing
                exact .inl ⟨rfl, hcodings, hnone⟩
            | false =>
                obtain rfl := Except.ok.inj hframing
                exact .inr (.inl ⟨rfl, hcodings, hnone⟩)
          · cases chunked with
            | true => simp [httpError] at hframing
            | false =>
                obtain rfl := Except.ok.inj hframing
                exact .inr (.inr ⟨digits, rfl, hcodings, hsome, hdigits, hshort⟩)

/-- A plain field without a token is absent. -/
theorem PlainField.absent {headers : List Header} {name : String}
    (hplain : PlainField headers name) (htokens : headerTokens headers name = []) :
    fieldValues headers name = [] := by
  rcases hplain.cases with ⟨habsent, -⟩ | ⟨value, -, hone⟩
  · exact habsent
  · simp [hone] at htokens

/-- A plain field with a token has one value, which is the token. -/
theorem PlainField.single {headers : List Header} {name : String} {token : Bytes}
    (hplain : PlainField headers name) (htokens : headerTokens headers name = [token]) :
    ∃ value, fieldValues headers name = [value] ∧ trimOws value ≠ [] ∧
      toLowerCase (trimOws value) = token := by
  rcases hplain.cases with ⟨-, hnone⟩ | ⟨value, hvalue, hone⟩
  · simp [hnone] at htokens
  · rw [hone] at htokens
    exact ⟨value, hvalue, (hplain.2 value (by simp [hvalue])).1, List.head_eq_of_cons_eq htokens⟩

/-- At most fifteen decimal digits fit the engine's length. -/
theorem contentLength_of_digits {value digits : Bytes} (hvalue : toLowerCase (trimOws value) = digits)
    (hnonempty : trimOws value ≠ []) (hdigits : digits.all isDigit = true)
    (hshort : digits.length ≤ 15) :
    Engine.contentLength value = some (decimalValue digits) := by
  subst hvalue
  have hsame := toLowerCase_of_isDigit hdigits
  rw [hsame] at hdigits hshort ⊢
  have hsmall : decimalValue (trimOws value) < 2 ^ 63 :=
    calc decimalValue (trimOws value) < 10 ^ (trimOws value).length := decimalValue_lt hdigits
      _ ≤ 10 ^ 15 := Nat.pow_le_pow_right (by norm_num) hshort
      _ ≤ 2 ^ 63 := by norm_num
  rw [Engine.contentLength]
  exact if_pos ⟨hnonempty, hdigits, hsmall⟩

/-- With plain framing fields the engine frames a body as the gate does. -/
theorem framing_of_requestFraming {head : RequestHead} {framing : Framing}
    (hplain : PlainFields head.headers) (hframing : requestFraming head = .ok framing) :
    Engine.framing head.version head.headers = some framing := by
  obtain ⟨hcoding, hlength⟩ := hplain
  unfold requestFraming at hframing
  split_ifs at hframing with hversion
  · simp [httpError] at hframing
  · cases hshared : sharedFraming head.headers with
    | error e => simp [hshared, Except.map] at hframing
    | ok shared =>
        simp only [hshared, Except.map, Except.ok.injEq] at hframing
        subst hframing
        rcases headerTokens_of_sharedFraming hshared with
          ⟨rfl, hcodings, hlengths⟩ | ⟨rfl, hcodings, hlengths⟩ |
          ⟨digits, rfl, hcodings, hlengths, hdigits, hshort⟩
        · obtain ⟨coding, hcodingValue, -, hchunked⟩ := hcoding.single hcodings
          have hmodern : head.version ≠ ascii "HTTP/1.0" := by
            intro hold
            exact hversion ⟨hold, by simp [hcodings]⟩
          simp [Engine.framing, hcodingValue, hmodern, hchunked]
        · simp [Engine.framing, hcoding.absent hcodings, hlength.absent hlengths]
        · obtain ⟨value, hvalue, hnonempty, hsame⟩ := hlength.single hlengths
          simp [Engine.framing, hcoding.absent hcodings, hvalue,
            contentLength_of_digits hsame hnonempty hdigits hshort]

/-! ## Chunked bodies -/

/-- A size line both readers take the same size from: the digits stand first, and
blanks alone or an extension follow them. -/
def PlainSize (text : Bytes) : Prop :=
  ∃ digits tail, text = digits ++ tail ∧ digits ≠ [] ∧ digits.all isHexDigit = true ∧
    (tail.all isOws = true ∨ tail.head? = some 59)

/-- The first empty line, in the engine's sense, ends the text. -/
def SingleBlankLine (text : Bytes) : Prop :=
  ∀ tail ∈ text.tails, ([10, 10] <+: tail → tail.length = 2) ∧
    ([10, 13, 10] <+: tail → tail.length = 3)

instance (text : Bytes) : Decidable (SingleBlankLine text) :=
  inferInstanceAs (Decidable (∀ tail ∈ text.tails, _ ∧ _))

/-- A chunked body of the gate that keeps to the lines both readers know. -/
inductive PlainChunked : Bytes → Bytes → Prop
  | last {line trailers : Bytes} (hline : IsRecord crlf line)
      (hsize : parseChunkSize line = .ok 0) (htrailers : Trailers trailers)
      (hplain : PlainSize (lineText line)) (hblank : SingleBlankLine (line ++ trailers)) :
      PlainChunked (line ++ trailers) []
  | chunk {line data rest payload : Bytes} (hline : IsRecord crlf line)
      (hsize : parseChunkSize line = .ok data.length) (hdata : data ≠ [])
      (hplain : PlainSize (lineText line)) (hsingle : (10 : UInt8) ∉ lineText line)
      (hrest : PlainChunked rest payload) :
      PlainChunked (line ++ (data ++ crlf ++ rest)) (data ++ payload)

/-- A line is its text and the terminator. -/
theorem lineText_append_crlf {line : Bytes} (hline : IsRecord crlf line) :
    lineText line ++ crlf = line := by
  obtain ⟨text, rfl⟩ := suffix_of_cutThrough hline
  simp [lineText, crlf]

/-- A hexadecimal digit is no blank, no line break and no `;`. -/
theorem isSpace_of_isHexDigit {b : UInt8} (hb : isHexDigit b = true) :
    isOws b = false ∧ Engine.isSpace b = false ∧ b ≠ 59 := by
  have hother : ∀ c : UInt8, isHexDigit c = false → b ≠ c := by
    intro c hc hbc
    rw [hbc, hc] at hb
    exact Bool.noConfusion hb
  have hspace := hother 32 rfl
  have htab := hother 9 rfl
  have hlf := hother 10 rfl
  have hcr := hother 13 rfl
  exact ⟨by simp [isOws, hspace, htab], by simp [Engine.isSpace, isOws, hspace, htab, hlf, hcr],
    hother 59 rfl⟩

/-- Blanks after digits are trimmed off, by either reader's rule. -/
theorem rdropWhile_digits {p : UInt8 → Bool} {digits blanks : Bytes}
    (hdigits : ∀ b ∈ digits, p b = false) (hblanks : ∀ b ∈ blanks, p b = true) :
    (digits ++ blanks).rdropWhile p = digits := by
  rw [List.rdropWhile, List.reverse_append, List.dropWhile_append_of_pos (by simpa using hblanks)]
  have hkeep : digits.reverse.dropWhile p = digits.reverse := by
    rw [List.dropWhile_eq_self_iff]
    intro hlength
    simpa using hdigits _ (List.mem_reverse.mp (List.getElem_mem hlength))
  rw [hkeep, List.reverse_reverse]

theorem takeWhile_digits {digits : Bytes} (hdigits : digits.all isHexDigit = true)
    (tail : Bytes) :
    (digits ++ tail).takeWhile (· ≠ 59) = digits ++ tail.takeWhile (· ≠ 59) := by
  apply List.takeWhile_append_of_pos
  intro b hb
  simpa using (isSpace_of_isHexDigit (List.all_eq_true.mp hdigits b hb)).2.2

theorem takeWhile_of_all_isOws {tail : Bytes} (htail : tail.all isOws = true) :
    tail.takeWhile (· ≠ 59) = tail := by
  rw [List.takeWhile_eq_self_iff]
  intro b hb
  have hows := List.all_eq_true.mp htail b hb
  simp only [decide_not, Bool.not_eq_true', decide_eq_false_iff_not]
  rintro rfl
  exact absurd hows (by decide)

/-- The engine takes the size the gate takes from a plain size line. -/
theorem chunkSize_of_parseChunkSize {text digits tail : Bytes} {size : ℕ}
    (htext : text = digits ++ tail) (hne : digits ≠ [])
    (hdigits : digits.all isHexDigit = true)
    (htail : tail.all isOws = true ∨ tail.head? = some 59)
    (hsize : parseChunkSize (text ++ crlf) = .ok size) :
    size = hexValue digits := by
  have hline : lineText (text ++ crlf) = text := by simp [lineText, crlf]
  have hall := List.all_eq_true.mp hdigits
  have htaken : trimOws (text.takeWhile (· ≠ 59)) = digits := by
    have hblanks : ∃ blanks, blanks.all isOws = true ∧ text.takeWhile (· ≠ 59) = digits ++ blanks := by
      rw [htext, takeWhile_digits hdigits]
      rcases htail with hows | hsemi
      · exact ⟨tail, hows, by rw [takeWhile_of_all_isOws hows]⟩
      · rcases tail with _ | ⟨b, tail⟩
        · simp at hsemi
        · obtain rfl := Option.some.inj hsemi
          exact ⟨[], rfl, by simp⟩
    obtain ⟨blanks, hblanks, htake⟩ := hblanks
    rw [htake, trimOws]
    have hfront : (digits ++ blanks).dropWhile isOws = digits ++ blanks := by
      rcases digits with _ | ⟨d, digits⟩
      · exact absurd rfl hne
      · rw [List.cons_append, List.dropWhile_cons_of_neg]
        simp [(isSpace_of_isHexDigit (hall d List.mem_cons_self)).1]
    rw [hfront]
    exact rdropWhile_digits (fun b hb => (isSpace_of_isHexDigit (hall b hb)).1)
      (List.all_eq_true.mp hblanks)
  rw [parseChunkSize, hline, htaken] at hsize
  split_ifs at hsize with hvalid
  · exact (Except.ok.inj hsize).symm
  · simp [httpError] at hsize

/-- The engine's size of a plain size line. -/
theorem chunkSize_of_plain {digits tail : Bytes} (hne : digits ≠ [])
    (hdigits : digits.all isHexDigit = true)
    (htail : tail.all isOws = true ∨ tail.head? = some 59) :
    Engine.chunkSize (digits ++ tail) = some (hexValue digits) := by
  have hall := List.all_eq_true.mp hdigits
  have hkept : ((digits ++ tail).rdropWhile Engine.isSpace).takeWhile (· ≠ 59) = digits := by
    rcases htail with hows | hsemi
    · rw [rdropWhile_digits (fun b hb => (isSpace_of_isHexDigit (hall b hb)).2.1)
        (fun b hb => by simp [Engine.isSpace, List.all_eq_true.mp hows b hb])]
      simpa using takeWhile_digits hdigits []
    · rcases tail with _ | ⟨b, tail⟩
      · simp at hsemi
      · obtain rfl := Option.some.inj hsemi
        have hstop : ∃ kept, (digits ++ 59 :: tail).rdropWhile Engine.isSpace =
            digits ++ 59 :: kept := by
          clear hsemi
          induction tail using List.reverseRecOn with
          | nil => exact ⟨[], List.rdropWhile_concat_neg _ _ _ (by decide)⟩
          | append_singleton tail b ih =>
              obtain ⟨kept, hkept⟩ := ih
              rw [← List.cons_append, ← List.append_assoc]
              by_cases hb : Engine.isSpace b = true
              · exact ⟨kept, by rw [List.rdropWhile_concat_pos _ _ _ hb, hkept]⟩
              · exact ⟨tail ++ [b], by rw [List.rdropWhile_concat_neg _ _ _ hb]; simp⟩
        obtain ⟨kept, hkept⟩ := hstop
        rw [hkept, takeWhile_digits hdigits]
        simp
  rw [Engine.chunkSize]
  simp only [hkept]
  exact if_pos ⟨hne, hdigits⟩

/-- A trailer section ends in a blank line of its own. -/
theorem suffix_of_trailers {trailers : Bytes} (htrailers : Trailers trailers) :
    [10, 13, 10] <:+ 10 :: trailers := by
  induction htrailers with
  | last => exact List.suffix_rfl
  | @line line rest hline hlong hrest ih =>
      obtain ⟨text, htext⟩ := suffix_of_cutThrough hline
      have hshape : 10 :: (line ++ rest) = (10 :: text ++ [13]) ++ 10 :: rest := by
        rw [← htext]
        simp [crlf]
      rw [hshape]
      exact ih.trans (List.suffix_append _ _)

/-- Where the text's first empty line is its end, a section read from any line of
it on leaves nothing over. -/
theorem blankEnded_of_singleBlankLine {full : Bytes} (hsingle : SingleBlankLine full)
    (current rest : Bytes) (hcurrent : (10 : UInt8) ∉ current)
    (hfull : 10 :: (current ++ rest) <:+ full)
    (hclosed : [10, 13, 10] <:+ 10 :: (current ++ rest)) :
    ∃ lines, Engine.blankEnded current rest = some (lines, []) := by
  induction rest generalizing current with
  | nil =>
      -- the closing blank line cannot lie within a line
      exfalso
      obtain ⟨before, hbefore⟩ := hclosed
      rcases before with _ | ⟨b, before⟩
      · simp at hbefore
        simp [← hbefore] at hcurrent
      · simp at hbefore
        simp [← hbefore.2] at hcurrent
  | cons b rest ih =>
      by_cases hb : b = 10
      · subst hb
        by_cases hblank : Engine.dropCr current = []
        · have hnil : rest = [] := by
            have htails := hsingle _ ((List.mem_tails _ _).mpr hfull)
            have hshort : current = [] ∨ current = [13] := by
              unfold Engine.dropCr at hblank
              split_ifs at hblank with hcr
              · have := List.dropLast_append_getLast? 13 hcr
                rw [hblank] at this
                exact .inr this.symm
              · exact .inl hblank
            rcases hshort with rfl | rfl
            · simpa using htails.1
            · simpa using htails.2
          subst hnil
          exact ⟨[], by simp [Engine.blankEnded, hblank]⟩
        · have hlines := ih [] (by simp) ((List.suffix_append (10 :: current) (10 :: rest)).trans
            (by simpa using hfull)) ?_
          · obtain ⟨lines, hlines⟩ := hlines
            exact ⟨Engine.dropCr current :: lines, by simp [Engine.blankEnded, hblank, hlines]⟩
          · have hsplit : [10, 13, 10] <:+ (10 :: current) ++ (10 :: rest) := by
              simpa using hclosed
            by_cases hlong : 2 ≤ rest.length
            · exact List.suffix_of_suffix_length_le hsplit
                (List.suffix_append (10 :: current) (10 :: rest)) (by simpa using hlong)
            · exfalso
              apply hblank
              obtain ⟨before, hbefore⟩ := hsplit
              rcases rest with _ | ⟨c, _ | ⟨d, rest⟩⟩
              · have hends : before ++ [10, 13] = 10 :: current := by
                  have hcut : (before ++ [10, 13]) ++ [10] = (10 :: current) ++ [10] := by simpa using hbefore
                  exact List.append_cancel_right hcut
                rcases before with _ | ⟨c, before⟩
                · have hcr : current = [13] := (List.cons_eq_cons.mp hends).2.symm
                  rw [hcr]
                  rfl
                · have htext : before ++ [10, 13] = current := (List.cons_eq_cons.mp hends).2
                  simp [← htext] at hcurrent
              · have := congrArg List.reverse hbefore
                simp at this
              · simp at hlong
      · obtain ⟨lines, hlines⟩ := ih (current ++ [b]) (by simp [hcurrent, Ne.symm hb])
          (by simpa using hfull) (by simpa using hclosed)
        exact ⟨lines, by rw [Engine.blankEnded, if_neg hb, hlines]⟩

/-- Dropping a carriage return leaves an extension an extension. -/
theorem dropCr_extension (digits before : Bytes) :
    ∃ kept, Engine.dropCr (digits ++ 59 :: before) = digits ++ 59 :: kept := by
  unfold Engine.dropCr
  split_ifs with hcr
  · rcases before.eq_nil_or_concat with rfl | ⟨kept, last, rfl⟩
    · simp at hcr
    · refine ⟨kept, ?_⟩
      rw [List.concat_eq_append, ← List.cons_append, ← List.append_assoc, List.dropLast_concat]
  · exact ⟨before, rfl⟩

/-- A size line with a line feed inside has it in its extension. -/
theorem PlainSize.extension {text : Bytes} (hplain : PlainSize text) (hlf : 10 ∈ text) :
    ∃ digits before after, text = digits ++ 59 :: before ++ 10 :: after ∧ digits ≠ [] ∧
      digits.all isHexDigit = true ∧ (10 : UInt8) ∉ digits ++ 59 :: before := by
  obtain ⟨digits, tail, rfl, hne, hdigits, htail⟩ := hplain
  have hclear : (10 : UInt8) ∉ digits := fun hmem =>
    absurd (List.all_eq_true.mp hdigits 10 hmem) (by decide)
  have hmem : (10 : UInt8) ∈ tail := (List.mem_append.mp hlf).resolve_left hclear
  rcases htail with hows | hsemi
  · exact absurd (List.all_eq_true.mp hows 10 hmem) (by decide)
  · rcases tail with _ | ⟨b, tail⟩
    · simp at hsemi
    · obtain rfl := Option.some.inj hsemi
      have hext : (10 : UInt8) ∈ tail := (List.mem_cons.mp hmem).resolve_left (by decide)
      obtain ⟨before, after, rfl, hbefore⟩ := List.eq_append_cons_of_mem hext
      exact ⟨digits, before, after, by simp, hne, hdigits, by simp [hclear, hbefore]⟩

/-- The engine's first line of a plain last chunk: it has the gate's size, and
what follows is the rest of the chunk after some line feed of it. -/
theorem line_of_lastChunk {text trailers : Bytes}
    (hsize : parseChunkSize (text ++ crlf) = .ok 0) (hplain : PlainSize text)
    (htrailers : Trailers trailers) :
    ∃ first rest, Engine.line (text ++ crlf ++ trailers) = some (first, rest) ∧
      Engine.chunkSize first = some 0 ∧ 10 :: rest <:+ text ++ crlf ++ trailers ∧
      [10, 13, 10] <:+ 10 :: rest := by
  have hclose := suffix_of_trailers htrailers
  by_cases hlf : (10 : UInt8) ∈ text
  · obtain ⟨digits, before, after, rfl, hne, hdigits, hclear⟩ := hplain.extension hlf
    obtain ⟨kept, hkept⟩ := dropCr_extension digits before
    have htext : digits ++ 59 :: before ++ 10 :: after = digits ++ (59 :: before ++ 10 :: after) :=
      by simp
    have hvalue : 0 = hexValue digits :=
      chunkSize_of_parseChunkSize htext hne hdigits (.inr rfl) hsize
    have hshape : digits ++ 59 :: before ++ 10 :: after ++ crlf ++ trailers =
        (digits ++ 59 :: before) ++ 10 :: (after ++ crlf ++ trailers) := by simp
    rw [hshape]
    refine ⟨digits ++ 59 :: kept, after ++ crlf ++ trailers, ?_, ?_, List.suffix_append _ _, ?_⟩
    · rw [Engine.line_append hclear, hkept]
    · rw [chunkSize_of_plain hne hdigits (.inr rfl), ← hvalue]
    · exact hclose.trans ⟨10 :: after ++ [13], by simp [crlf]⟩
  · obtain ⟨digits, tail, rfl, hne, hdigits, htail⟩ := hplain
    have hvalue : 0 = hexValue digits :=
      chunkSize_of_parseChunkSize rfl hne hdigits htail hsize
    have hshape : digits ++ tail ++ crlf ++ trailers =
        (digits ++ tail ++ [13]) ++ 10 :: trailers := by simp [crlf]
    have hclear : (10 : UInt8) ∉ digits ++ tail ++ [13] := by
      rw [List.mem_append]
      exact fun hmem => hmem.elim hlf (by decide)
    rw [hshape]
    refine ⟨digits ++ tail, trailers, ?_, ?_, List.suffix_append _ _, hclose⟩
    · rw [Engine.line_append hclear, Engine.dropCr_append_cr]
    · rw [chunkSize_of_plain hne hdigits htail, ← hvalue]

/-- The engine reads a plain chunked body to its end, with the gate's payload. -/
theorem chunked_of_plainChunked {raw payload : Bytes} (hbody : PlainChunked raw payload)
    {fuel : ℕ} (hfuel : raw.length ≤ fuel) :
    Engine.chunked fuel raw = some (payload, []) := by
  induction hbody generalizing fuel with
  | @last line trailers hline hsize htrailers hplain hblank =>
      have hlength := two_le_length_of_isRecord hline
      rw [List.length_append] at hfuel
      obtain ⟨fuel, rfl⟩ : ∃ n, fuel = n + 1 := ⟨fuel - 1, by omega⟩
      have hwhole := lineText_append_crlf hline
      rw [← hwhole] at hsize hblank ⊢
      obtain ⟨first, rest, hfirst, hzero, hsuffix, hclosed⟩ :=
        line_of_lastChunk hsize (hwhole ▸ hplain) htrailers
      obtain ⟨lines, hlines⟩ := blankEnded_of_singleBlankLine hblank [] rest (by simp) hsuffix hclosed
      rw [Engine.chunked, hfirst]
      simp [hzero, hlines]
  | @chunk line data rest payload hline hsize hdata hplain hsingle hrest ih =>
      have hlength := two_le_length_of_isRecord hline
      simp only [List.length_append] at hfuel
      obtain ⟨fuel, rfl⟩ : ∃ n, fuel = n + 1 := ⟨fuel - 1, by omega⟩
      have hwhole := lineText_append_crlf hline
      obtain ⟨digits, tail, htext, hne, hdigits, htail⟩ := hplain
      rw [← hwhole, htext] at hsize
      have hvalue : data.length = hexValue digits :=
        chunkSize_of_parseChunkSize rfl hne hdigits htail hsize
      have hfirst : Engine.line (line ++ (data ++ crlf ++ rest)) =
          some (digits ++ tail, data ++ crlf ++ rest) := by
        have hshape : line ++ (data ++ crlf ++ rest) =
            (lineText line ++ [13]) ++ 10 :: (data ++ crlf ++ rest) := by
          conv_lhs => rw [← hwhole]
          simp [crlf]
        rw [hshape, Engine.line_append (by simp [hsingle]), Engine.dropCr_append_cr, htext]
      have hpositive : data.length ≠ 0 := by simpa using hdata
      have hcrlf : ((data ++ crlf ++ rest).drop data.length).take 2 = crlf := by simp [crlf]
      have hafter : (data ++ crlf ++ rest).drop (data.length + 2) = rest := by
        simp [← List.drop_drop, crlf]
      have hnext : Engine.chunked fuel rest = some (payload, []) := ih (by omega)
      have hdataTake : (data ++ crlf ++ rest).take data.length = data := by simp
      simp only [Engine.chunked, hfirst, Option.bind_eq_bind, Option.bind_some,
        chunkSize_of_plain hne hdigits htail, ← hvalue, if_neg hpositive, if_pos hcrlf, hafter,
        hnext, hdataTake]
      rfl

/-! ## Whole requests -/

/-- A request stream whose first request keeps to what both readers know. -/
def PlainStream (stream : Bytes) : Prop :=
  ∀ raw rest, cutThrough crlfCrlf stream = some (raw, rest) →
    ∀ head, parseRequestHead raw = .ok head →
      PlainFields head.headers ∧
        (requestFraming head = .ok .chunked → ∀ body left payload, rest = body ++ left →
          ChunkedBody body payload → PlainChunked body payload)

/-- A request never runs to the end of the stream. -/
theorem ne_eof_of_requestFraming {head : RequestHead} {framing : Framing}
    (hframing : requestFraming head = .ok framing) : framing ≠ .eof := by
  unfold requestFraming at hframing
  split_ifs at hframing with hversion
  · simp [httpError] at hframing
  · cases hshared : sharedFraming head.headers with
    | error e => simp [hshared, Except.map] at hframing
    | ok shared =>
        simp only [hshared, Except.map, Except.ok.injEq] at hframing
        subst hframing
        rcases headerTokens_of_sharedFraming hshared with
          ⟨rfl, -⟩ | ⟨rfl, -⟩ | ⟨digits, rfl, -⟩
        · exact Framing.noConfusion
        · exact Framing.noConfusion
        · exact Framing.noConfusion

/-- The engine reads a body the gate read, when a chunked one is plain. -/
theorem body_of_bodyOf {framing : Framing} {raw payload : Bytes} (heof : framing ≠ .eof)
    (hbody : BodyOf framing raw payload)
    (hplain : framing = .chunked → PlainChunked raw payload) :
    Engine.body framing raw = some (payload, []) := by
  cases framing with
  | none =>
      obtain ⟨rfl, rfl⟩ := hbody
      rfl
  | length n =>
      obtain ⟨rfl, rfl⟩ := hbody
      simp [Engine.body]
  | chunked => exact chunked_of_plainChunked (hplain rfl) le_rfl
  | eof => exact absurd rfl heof

/-- The engine reads an accepted head and a body that follows it as one request. -/
theorem readRequest_of_parseRequestHead {raw body payload : Bytes} {head : RequestHead}
    {framing : Framing} (hraw : IsRecord crlfCrlf raw) (hparse : parseRequestHead raw = .ok head)
    (hframing : Engine.framing head.version head.headers = some framing)
    (hbody : Engine.body framing body = some (payload, [])) :
    Engine.readRequest (raw ++ body) =
      some (⟨head.method, head.target, head.version, head.headers, payload⟩, []) := by
  obtain ⟨-, requestLine, fieldLines, hjoin, hlines, hparts, hfields⟩ :=
    lines_of_parseRequestHead hraw hparse
  have hsection := Engine.blankEnded_lines hlines body
  rw [← List.append_assoc, ← hjoin] at hsection
  simp only [Engine.readRequest, hsection, Option.bind_eq_bind, Option.bind_some, hparts, hfields,
    hframing, hbody]
  rfl

theorem triple_relayRequestBody (s₀ : Relay) (capture : Option ChunkCapture) (framing : Framing) :
    Triple (· = s₀) (relayRequestBody capture framing)
      (fun capture' s => ∃ raw payload, Moved s₀ s raw raw ∧ BodyOf framing raw payload ∧
        Captured capture capture' (if framing = .chunked then payload else []))
      (fun _ s => Partial s₀ s) := by
  have hother : ∀ framing, framing ≠ Framing.chunked →
      Triple (· = s₀) (do relayBody framing; return capture)
        (fun capture' s => ∃ raw payload, Moved s₀ s raw raw ∧ BodyOf framing raw payload ∧
          Captured capture capture' (if framing = .chunked then payload else []))
        (fun _ s => Partial s₀ s) := by
    intro framing hne
    refine Triple.bind (triple_relayBody s₀ framing) fun _ => Triple.pure _ ?_
    rintro s ⟨raw, payload, hmoved, hbody⟩
    exact ⟨raw, payload, hmoved, hbody, by rw [if_neg hne]; exact Captured.refl capture⟩
  cases framing with
  | chunked =>
      refine (triple_relayChunked s₀ capture).conseq (fun _ h => h) ?_ (fun _ _ h => h)
      rintro capture' s ⟨raw, payload, hmoved, hbody, hcaptured⟩
      exact ⟨raw, payload, hmoved, hbody, by simpa using hcaptured⟩
  | none => exact hother .none (by simp)
  | length n => exact hother (.length n) (by simp)
  | eof => exact hother .eof (by simp)

/-- A request the gate accepts is the first head of the stream and a body of its
framing, and both were relayed as they are. -/
theorem triple_relayRequest (s₀ : Relay) (capture : Option ChunkCapture) :
    Triple (· = s₀) (relayRequest capture)
      (fun result s => ∀ accepted, result = some accepted →
        ∃ raw rest body payload, cutThrough crlfCrlf s₀.reader.pending = some (raw, rest) ∧
          parseRequestHead raw = .ok accepted.head ∧
          requestFraming accepted.head = .ok accepted.framing ∧
          Moved s₀ s (raw ++ body) (raw ++ body) ∧ BodyOf accepted.framing body payload ∧
          Captured capture accepted.capture (if accepted.framing = .chunked then payload else []))
      (fun _ s => Partial s₀ s) := by
  refine Triple.bind ((BufferedReader.triple_readHead s₀).conseq (fun _ h => h) (fun _ _ h => h)
    (fun _ _ h => h.toPartial)) fun found => ?_
  cases found with
  | none =>
      apply Triple.pure
      intro s _ accepted hnone
      exact absurd hnone (by simp)
  | some raw =>
      rintro s ⟨hsink, hcut⟩
      have hpending := append_of_cutThrough hcut
      -- until the head is written, what was taken off the stream is not sent
      have hheld : Partial s₀ s :=
        ⟨raw, [], List.nil_prefix, hpending, by simp [hsink]⟩
      refine Triple.bind ((triple_liftExcept s (parseRequestHead raw)).conseq (fun _ h => h)
        (fun _ _ h => h) (fun _ _ h => h ▸ hheld)) ?_ s rfl
      rintro head _ ⟨rfl, hparse⟩
      refine Triple.bind ((triple_liftExcept _ (requestFraming head)).conseq (fun _ h => h)
        (fun _ _ h => h) (fun _ _ h => h ▸ hheld)) ?_ _ rfl
      rintro framing s ⟨rfl, hframing⟩
      refine Triple.bind ((triple_writeAll _ raw).conseq (fun _ h => h) (fun _ _ h => h) ?_) ?_ _
        rfl
      · rintro _ s' ⟨hreader, sent, hprefix, hwritten⟩
        exact ⟨raw, sent, hprefix, hreader ▸ hpending, hsink ▸ hwritten⟩
      · rintro _ s' ⟨hreader, hwritten⟩
        have hmoved : Moved s₀ s' raw raw := ⟨hreader ▸ hpending, hsink ▸ hwritten⟩
        refine Triple.bind ((triple_relayRequestBody s' capture framing).conseq (fun _ h => h)
          (fun _ _ h => h) (fun _ _ h => hmoved.trans_partial h)) (fun capture' => Triple.pure _ ?_)
          s' rfl
        rintro s'' ⟨body, payload, hmoved', hbody, hcaptured⟩ accepted haccepted
        obtain rfl := Option.some.inj haccepted
        exact ⟨raw, _, body, payload, hcut, hparse, hframing, hmoved.trans hmoved', hbody,
          hcaptured⟩

/-- On a stream that keeps to what both readers know, the engine reads from the
relayed bytes exactly the one request the gate accepted, however the stream is
split into reads and however the engine takes the writes. -/
theorem framingAgrees_of_plainStream (start : Relay) (capture : Option ChunkCapture)
    (hplain : PlainStream start.reader.pending) : FramingAgrees start capture := by
  intro accepted after hrun
  obtain ⟨raw, rest, body, payload, hcut, hparse, hframing, hmoved, hbody, hcaptured⟩ :=
    (triple_relayRequest start capture).of_ok rfl hrun accepted rfl
  obtain ⟨hfields, hchunks⟩ := hplain raw rest hcut accepted.head hparse
  have hraw := isRecord_of_cutThrough hcut
  obtain ⟨hheadRaw, -⟩ := lines_of_parseRequestHead hraw hparse
  have hrest : rest = body ++ after.reader.pending := by
    have hstream := append_of_cutThrough hcut
    rw [hmoved.pending, List.append_assoc] at hstream
    exact (List.append_cancel_left hstream).symm
  have hplainBody : accepted.framing = .chunked → PlainChunked body payload := by
    intro hchunked
    rw [hchunked] at hframing hbody
    exact hchunks hframing body _ payload hrest hbody
  rw [← hheadRaw] at hmoved
  refine ⟨body, payload, hbody, hcaptured, hmoved.pending, hmoved.written, ?_⟩
  rw [hheadRaw]
  exact readRequest_of_parseRequestHead hraw hparse (framing_of_requestFraming hfields hframing)
    (body_of_bodyOf (ne_eof_of_requestFraming hframing) hbody hplainBody)

theorem PlainChunked.chunkedBody {raw payload : Bytes} (hplain : PlainChunked raw payload) :
    ChunkedBody raw payload := by
  induction hplain with
  | last hline hsize htrailers _ _ => exact .last hline hsize htrailers
  | chunk hline hsize hdata _ _ _ ih => exact .chunk hline hsize hdata rfl ih

/-- A head with plain fields and a plain chunked body make a plain stream. -/
theorem plainStream_of_plainChunked {stream raw body left payload : Bytes} {head : RequestHead}
    (hcut : cutThrough crlfCrlf stream = some (raw, body ++ left))
    (hparse : parseRequestHead raw = .ok head) (hfields : PlainFields head.headers)
    (hbody : PlainChunked body payload) : PlainStream stream := by
  intro raw' rest hcut' head' hparse'
  rw [hcut] at hcut'
  obtain ⟨rfl, rfl⟩ := Prod.mk.inj (Option.some.inj hcut')
  rw [hparse] at hparse'
  obtain rfl := Except.ok.inj hparse'
  refine ⟨hfields, fun _ body' left' payload' hrest hbody' => ?_⟩
  obtain ⟨rfl, rfl⟩ := hbody.chunkedBody.unique hbody' hrest
  exact hbody

/-- A relay that has just accepted a client whose stream arrives in the given
reads. -/
def accepting (reads : List Bytes) : Relay :=
  ⟨BufferedReader.new (reads.map Read.data), ⟨[], []⟩⟩

/-- The head of an upload with a chunked body. -/
def chunkedHead : Bytes :=
  ascii "POST /x HTTP/1.1\r\nHost: d\r\nTransfer-Encoding: chunked\r\n\r\n"

/-- What the gate reads from it. -/
def chunkedRequest : RequestHead where
  method := ascii "POST"
  target := ascii "/x"
  version := ascii "HTTP/1.1"
  headers := [(ascii "Host", ascii "d"), (ascii "Transfer-Encoding", ascii "chunked")]
  raw := chunkedHead

theorem parseRequestHead_chunkedHead : parseRequestHead chunkedHead = .ok chunkedRequest := by
  decide +kernel

/-- An ordinary chunked upload, arriving in three pieces. -/
def chunkedUpload : Relay :=
  accepting [chunkedHead.take 7, chunkedHead.drop 7 ++ ascii "3;x\r\nab",
    ascii "c\r\n0\r\n\r\n"]

set_option maxRecDepth 10000 in
theorem framingAgrees_chunkedUpload :
    PlainStream chunkedUpload.reader.pending ∧ FramingAgrees chunkedUpload none := by
  have hlast : PlainChunked (ascii "0\r\n" ++ crlf) [] :=
    .last (by decide) (by decide) .last ⟨ascii "0", [], by decide⟩ (by decide)
  have hbody : PlainChunked (ascii "3;x\r\n" ++ (ascii "abc" ++ crlf ++ (ascii "0\r\n" ++ crlf)))
      (ascii "abc" ++ []) :=
    .chunk (by decide) (by decide) (by decide) ⟨ascii "3", ascii ";x", by decide⟩ (by decide) hlast
  have hcut : cutThrough crlfCrlf chunkedUpload.reader.pending = some (chunkedHead,
      ascii "3;x\r\n" ++ (ascii "abc" ++ crlf ++ (ascii "0\r\n" ++ crlf)) ++ []) := by
    decide +kernel
  have hplain : PlainStream chunkedUpload.reader.pending :=
    plainStream_of_plainChunked hcut parseRequestHead_chunkedHead (by decide) hbody
  exact ⟨hplain, framingAgrees_of_plainStream chunkedUpload none hplain⟩

/-- What a client sends after the head: one body for the gate, because the line
feed in the last chunk's extension ends no line there. -/
def smuggledBody : Bytes :=
  ascii "0;a\n\r\nGET /containers/json HTTP/1.1\r\nHost: d\r\n\r\n"

/-- The gate relays the whole stream as one request. -/
theorem relayRequest_smuggledBody :
    relayRequest none (accepting [chunkedHead ++ smuggledBody]) =
      (.ok (some ⟨chunkedRequest, .chunked, none⟩),
        ⟨⟨[], false, []⟩, ⟨chunkedHead ++ smuggledBody, []⟩⟩) := by
  decide +kernel

/-- The engine's reading of the same bytes stops after the last chunk and leaves a
complete request over, which no check has seen. -/
theorem smuggled_request_is_left_over :
    ¬ FramingAgrees (accepting [chunkedHead ++ smuggledBody]) none := by
  intro hagrees
  obtain ⟨raw, payload, -, -, -, hwritten, hread⟩ := hagrees _ _ relayRequest_smuggledBody
  have hraw : raw = smuggledBody := List.append_cancel_left hwritten.symm
  have hleft : (Engine.readRequest (chunkedHead ++ smuggledBody)).map Prod.snd =
      some (ascii "GET /containers/json HTTP/1.1\r\nHost: d\r\n\r\n") := by decide +kernel
  subst hraw
  rw [show chunkedRequest.raw = chunkedHead from rfl] at hread
  rw [hread, Option.map_some] at hleft
  have hnil : [] = ascii "GET /containers/json HTTP/1.1\r\nHost: d\r\n\r\n" :=
    Option.some.inj hleft
  exact absurd hnil (by decide)

end Turbopaneld.DockerGate
