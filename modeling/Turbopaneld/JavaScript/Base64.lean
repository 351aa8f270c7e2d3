/-
# Base64url

The unpadded base64url of a byte sequence, and reading it back.  Decoding follows
`atob` on the padded text: a lone last character is refused, and bits beyond the
last whole byte are dropped.
-/

import Turbopaneld.JavaScript.Text

namespace Turbopaneld.JavaScript

/-- The base64url alphabet. -/
def base64UrlAlphabet : List Char :=
  "ABCDEFGHIJKLMNOPQRSTUVWXYZabcdefghijklmnopqrstuvwxyz0123456789-_".toList

/-- The base64url character of six bits. -/
def base64UrlChar (sextet : ℕ) : Char := base64UrlAlphabet.getD sextet 'A'

/-- The six-bit values of a byte sequence, the last ones filled up with zeros. -/
def toSextets : List UInt8 → List ℕ
  | a :: b :: c :: rest =>
      a.toNat / 4 :: (a.toNat % 4 * 16 + b.toNat / 16) :: (b.toNat % 16 * 4 + c.toNat / 64) ::
        c.toNat % 64 :: toSextets rest
  | [a, b] => [a.toNat / 4, a.toNat % 4 * 16 + b.toNat / 16, b.toNat % 16 * 4]
  | [a] => [a.toNat / 4, a.toNat % 4 * 16]
  | [] => []

/-- The bytes of a run of six-bit values. -/
def ofSextets : List ℕ → Option (List UInt8)
  | a :: b :: c :: d :: rest => do
      let after ← ofSextets rest
      return UInt8.ofNat (a * 4 + b / 16) :: UInt8.ofNat (b % 16 * 16 + c / 4) ::
        UInt8.ofNat (c % 4 * 64 + d) :: after
  | [a, b, c] => some [UInt8.ofNat (a * 4 + b / 16), UInt8.ofNat (b % 16 * 16 + c / 4)]
  | [a, b] => some [UInt8.ofNat (a * 4 + b / 16)]
  | [_] => none
  | [] => some []

/-- `toBase64Url`: no padding. -/
def toBase64Url (bytes : List UInt8) : String :=
  String.ofList ((toSextets bytes).map base64UrlChar)

/-- `fromBase64Url`. -/
def fromBase64Url (text : String) : Option (List UInt8) :=
  if text.toList.all base64UrlAlphabet.contains then
    ofSextets (text.toList.map fun c => base64UrlAlphabet.idxOf c)
  else none

/-! ## Round trip -/

theorem base64UrlChar_mem : ∀ n < 64, base64UrlChar n ∈ base64UrlAlphabet := by
  decide +kernel

theorem idxOf_base64UrlChar : ∀ n < 64, base64UrlAlphabet.idxOf (base64UrlChar n) = n := by
  decide +kernel

theorem toSextets_lt (bytes : List UInt8) : ∀ n ∈ toSextets bytes, n < 64 := by
  fun_induction toSextets bytes with
  | case1 a b c rest ih =>
      have ha := a.toNat_lt
      have hb := b.toNat_lt
      intro n hn
      simp only [List.mem_cons] at hn
      rcases hn with hn | hn | hn | hn | hn
      · omega
      · omega
      · have hc := c.toNat_lt
        omega
      · omega
      · exact ih n hn
  | case2 a b =>
      have ha := a.toNat_lt
      have hb := b.toNat_lt
      intro n hn
      simp only [List.mem_cons, List.not_mem_nil, or_false] at hn
      omega
  | case3 a =>
      have ha := a.toNat_lt
      intro n hn
      simp only [List.mem_cons, List.not_mem_nil, or_false] at hn
      omega
  | case4 => simp

theorem ofNat_of_eq {n : ℕ} {byte : UInt8} (heq : n = byte.toNat) : UInt8.ofNat n = byte := by
  rw [heq, UInt8.ofNat_toNat]

theorem ofSextets_toSextets (bytes : List UInt8) : ofSextets (toSextets bytes) = some bytes := by
  fun_induction toSextets bytes with
  | case1 a b c rest ih =>
      have ha := a.toNat_lt
      have hb := b.toNat_lt
      have hc := c.toNat_lt
      rw [ofSextets, ih]
      have hfirst := ofNat_of_eq (show a.toNat / 4 * 4 + (a.toNat % 4 * 16 + b.toNat / 16) / 16 =
        a.toNat by omega)
      have hsecond := ofNat_of_eq (show (a.toNat % 4 * 16 + b.toNat / 16) % 16 * 16 +
        (b.toNat % 16 * 4 + c.toNat / 64) / 4 = b.toNat by omega)
      have hthird := ofNat_of_eq (show (b.toNat % 16 * 4 + c.toNat / 64) % 4 * 64 +
        c.toNat % 64 = c.toNat by omega)
      rw [hfirst, hsecond, hthird]
      rfl
  | case2 a b =>
      have ha := a.toNat_lt
      have hb := b.toNat_lt
      have hfirst := ofNat_of_eq (show a.toNat / 4 * 4 + (a.toNat % 4 * 16 + b.toNat / 16) / 16 =
        a.toNat by omega)
      have hsecond := ofNat_of_eq (show (a.toNat % 4 * 16 + b.toNat / 16) % 16 * 16 +
        b.toNat % 16 * 4 / 4 = b.toNat by omega)
      rw [ofSextets, hfirst, hsecond]
  | case3 a =>
      have ha := a.toNat_lt
      have hfirst := ofNat_of_eq (show a.toNat / 4 * 4 + a.toNat % 4 * 16 / 16 = a.toNat by omega)
      rw [ofSextets, hfirst]
  | case4 => rfl

/-- The characters of an encoded text are those of the alphabet. -/
theorem mem_alphabet_of_toBase64Url {bytes : List UInt8} {c : Char}
    (hmem : c ∈ (toBase64Url bytes).toList) : c ∈ base64UrlAlphabet := by
  rw [toBase64Url, String.toList_ofList] at hmem
  obtain ⟨n, hn, hc⟩ := List.mem_map.mp hmem
  rw [← hc]
  exact base64UrlChar_mem n (toSextets_lt bytes n hn)

/-- What is encoded is read back. -/
theorem fromBase64Url_toBase64Url (bytes : List UInt8) :
    fromBase64Url (toBase64Url bytes) = some bytes := by
  have halphabet : (toBase64Url bytes).toList.all base64UrlAlphabet.contains = true := by
    rw [List.all_eq_true]
    intro c hc
    exact List.contains_iff_mem.mpr (mem_alphabet_of_toBase64Url hc)
  have hindex : ((toSextets bytes).map base64UrlChar).map (fun c => base64UrlAlphabet.idxOf c) =
      toSextets bytes := by
    rw [List.map_map]
    calc (toSextets bytes).map ((fun c => base64UrlAlphabet.idxOf c) ∘ base64UrlChar) =
        (toSextets bytes).map id := by
          apply List.map_congr_left
          intro n hn
          exact idxOf_base64UrlChar n (toSextets_lt bytes n hn)
      _ = toSextets bytes := List.map_id _
  rw [fromBase64Url, if_pos halphabet, toBase64Url, String.toList_ofList, hindex,
    ofSextets_toSextets]

theorem length_toSextets_le (bytes : List UInt8) : (toSextets bytes).length ≤ 2 * bytes.length := by
  fun_induction toSextets bytes with
  | case1 a b c rest ih =>
      simp only [List.length_cons]
      omega
  | case2 a b => simp
  | case3 a => simp
  | case4 => simp

end Turbopaneld.JavaScript
