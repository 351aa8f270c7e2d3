/-
# Tokens of a control plane

The control plane signs approvals; the gate only verifies.  For concrete tokens this
is a control plane that signed a given list of payload texts and nothing else.  Its
signature is one fixed byte, which the key accepts for exactly those texts.
-/

import Turbopaneld.DockerGate.Approval

namespace Turbopaneld.DockerGate

open JavaScript

/-- The surroundings of a gate whose control plane signed these payload texts, with
the given signature, and where the given texts have the given digests. -/
def signing (payloads : List String) (digests : List (String × Bytes)) : Crypto Unit where
  verify := fun _ signature data => signature == [0] &&
    payloads.any fun text => data == utf8 (approvalDomain ++ toBase64Url (utf8 text))
  sha256 := fun bytes => ((digests.find? fun digest => bytes == utf8 digest.1).map (·.2)).getD []
  parseJson := fun bytes => (decodeUtf8 bytes).bind fun text => (parseText writtenNames text).toOption
  numberText := id

/-- The token of a payload text that was signed. -/
def tokenOf (payload : String) : String :=
  approvalVersion ++ "." ++ toBase64Url (utf8 payload) ++ ".AA"

theorem utf8_injective {a b : String} (h : utf8 a = utf8 b) : a = b := by
  have hchars : some a.toList = some b.toList := by
    rw [← decodeUtf8_utf8, ← decodeUtf8_utf8, h]
  exact String.toList_inj.mp (Option.some.inj hchars)

/-- The payload a payload text gives. -/
def payloadOfText (text : String) : Option ApprovalPayload :=
  (parseText writtenNames text.toList).toOption.bind parsePayload

theorem parseJson_signing (payloads : List String) (digests : List (String × Bytes))
    (text : String) :
    ((signing payloads digests).parseJson (utf8 text)).bind parsePayload = payloadOfText text := by
  show ((decodeUtf8 (utf8 text)).bind _).bind _ = _
  rw [decodeUtf8_utf8, Option.bind_some, payloadOfText]

/-- Only what the control plane signed is signed. -/
theorem payloadOfText_of_signing {payloads : List String} {digests : List (String × Bytes)}
    {token : String} {payload : ApprovalPayload}
    (hsigned : signedPayload (signing payloads digests) [()] token = some payload) :
    ∃ text ∈ payloads, payloadOfText text = some payload := by
  rw [signedPayload] at hsigned
  split at hsigned
  · rename_i version body mark hparts
    split at hsigned
    · exact absurd hsigned (by simp)
    · split at hsigned
      · rename_i payloadBytes signature hbody hmark
        split at hsigned
        · rename_i hvalid
          simp only [signatureValid, signing, List.any_cons, List.any_nil, Bool.or_false,
            Bool.and_eq_true, List.any_eq_true, beq_iff_eq] at hvalid
          obtain ⟨-, text, htext, hdata⟩ := hvalid
          have hsame := utf8_injective hdata
          have hbodies : body = toBase64Url (utf8 text) := by
            rw [← String.toList_inj] at hsame ⊢
            simpa using hsame
          rw [hbodies, fromBase64Url_toBase64Url] at hbody
          rw [← Option.some.inj hbody, parseJson_signing] at hsigned
          exact ⟨text, htext, hsigned⟩
        · exact absurd hsigned (by simp)
      · exact absurd hsigned (by simp)
  · exact absurd hsigned (by simp)

theorem dot_notMem_alphabet : '.' ∉ base64UrlAlphabet := by decide

theorem toList_tokenOf (text : String) : (tokenOf text).toList =
    approvalVersion.toList ++ '.' :: ((toBase64Url (utf8 text)).toList ++ '.' :: "AA".toList) := by
  simp [tokenOf]

theorem split_tokenOf (text : String) :
    split '.' (tokenOf text) = [approvalVersion, toBase64Url (utf8 text), "AA"] := by
  have hbody : '.' ∉ (toBase64Url (utf8 text)).toList := fun hmem =>
    dot_notMem_alphabet (mem_alphabet_of_toBase64Url hmem)
  rw [split, toList_tokenOf, List.splitOn_append_cons_self, List.splitOn_append_cons_self,
    List.splitOn_eq_singleton hbody, List.splitOn_eq_singleton (by decide),
    List.splitOn_eq_singleton (by decide)]
  simp

theorem lengthInUnits_tokenOf_le (text : String) :
    lengthInUnits (tokenOf text) ≤ 2 * (utf8 text).length + 6 := by
  have hascii : (base64UrlAlphabet ++ ['v', '2', '.', 'A']).all (fun c => c.toNat < 128) = true := by
    decide
  have hunit : ∀ c ∈ base64UrlAlphabet ++ ['v', '2', '.', 'A'], c.toNat < 0x10000 := by
    intro c hc
    have hsmall := of_decide_eq_true (List.all_eq_true.mp hascii c hc)
    omega
  have hsmall : ∀ c ∈ (tokenOf text).toList, c.toNat < 0x10000 := by
    intro c hc
    rw [toList_tokenOf] at hc
    by_cases hbody : c ∈ (toBase64Url (utf8 text)).toList
    · exact hunit c (List.mem_append_left _ (mem_alphabet_of_toBase64Url hbody))
    · apply hunit
      apply List.mem_append_right
      simp only [approvalVersion, List.mem_append, List.mem_cons, hbody, false_or] at hc ⊢
      simpa [or_assoc, or_comm, or_left_comm] using hc
  have hlength := length_codeUnits_of_small hsmall
  have hsextets := length_toSextets_le (utf8 text)
  rw [String.ofList_toList] at hlength
  rw [hlength, toList_tokenOf, toBase64Url, String.toList_ofList]
  simp only [List.length_append, List.length_cons, List.length_map]
  have hversion : approvalVersion.toList.length = 2 := by decide
  have hmark : "AA".toList.length = 2 := by decide
  omega

/-- The token of a signed payload text is signed. -/
theorem signedPayload_tokenOf {payloads : List String} {digests : List (String × Bytes)}
    {text : String} {payload : ApprovalPayload} (hmem : text ∈ payloads)
    (hlength : (utf8 text).length ≤ 2000) (hpayload : payloadOfText text = some payload) :
    signedPayload (signing payloads digests) [()] (tokenOf text) = some payload := by
  have hparts : tokenParts (tokenOf text) = [approvalVersion, toBase64Url (utf8 text), "AA"] := by
    have hbound := lengthInUnits_tokenOf_le text
    have hshort : lengthInUnits (tokenOf text) ≤ maxApprovalTokenBytes := by
      rw [maxApprovalTokenBytes]
      omega
    rw [tokenParts, if_pos hshort, split_tokenOf]
  have hmark : fromBase64Url "AA" = some [0] := by decide
  have hvalid : signatureValid (signing payloads digests) [()] [0] (toBase64Url (utf8 text)) =
      true := by
    simp only [signatureValid, signing, List.any_cons, List.any_nil, Bool.or_false,
      Bool.and_eq_true, List.any_eq_true, beq_iff_eq]
    exact ⟨trivial, text, hmem, rfl⟩
  rw [signedPayload, hparts]
  simp [fromBase64Url_toBase64Url, hmark, hvalid, parseJson_signing, hpayload]

/-! ## Approvals of one project -/

/-- The text of an approval of host paths for the project `shop`. -/
def shopText (digest jti exp : String) : String :=
  "\x7b\"deployId\":\"d1\",\"project\":\"shop\",\"composeDigest\":\"\",\"bodyDigest\":\"" ++
    digest ++ "\",\"containerName\":\"web\",\"jti\":\"" ++ jti ++
    "\",\"features\":[\"host-paths\"],\"iat\":60,\"exp\":" ++ exp ++ "\x7d"

/-- What that text parses to. -/
def shopJson (digest jti exp : String) : Json :=
  .object [("deployId", .string "d1"), ("project", .string "shop"), ("composeDigest", .string ""),
    ("bodyDigest", .string digest), ("containerName", .string "web"), ("jti", .string jti),
    ("features", .array [.string "host-paths"]), ("iat", .number "60"), ("exp", .number exp)]

/-- The payload it gives. -/
def shopPayload (digest jti : String) (exp : ℤ) : ApprovalPayload where
  deployId := "d1"
  project := "shop"
  bodyDigest := digest
  containerName := "web"
  jti := jti
  features := ["host-paths"]
  iat := 60
  exp := exp

@[simp]
theorem shopPayload_jti (digest jti : String) (exp : ℤ) :
    (shopPayload digest jti exp).jti = jti := rfl

@[simp]
theorem shopPayload_exp (digest jti : String) (exp : ℤ) :
    (shopPayload digest jti exp).exp = exp := rfl

theorem parsePayload_shopJson {digest jti token : String} {exp : ℤ}
    (hjti : shortString (some (.string jti)) 128 = some jti)
    (hdigest : isDigest digest = true)
    (hexp : wholeNumber (some (.number token)) = some exp) :
    parsePayload (shopJson digest jti token) = some (shopPayload digest jti exp) := by
  have htext : "60" = toString ((60 : ℕ) : ℤ) := by decide
  have hiat : wholeNumber (some (.number "60")) = some ((60 : ℕ) : ℤ) := by
    rw [htext]
    exact wholeNumber_toString (by decide)
  have hfeatures : featureNames (some (.array [.string "host-paths"])) = some ["host-paths"] := by
    decide
  have hdeploy : shortString (some (.string "d1")) 128 = some "d1" := by decide
  have hproject : shortString (some (.string "shop")) 128 = some "shop" := by decide
  have hname : shortString (some (.string "web")) 255 = some "web" := by decide
  simp [parsePayload, shopJson, List.lookup_cons, hiat, hexp, hfeatures, hdeploy, hproject, hname,
    hjti, hdigest, shopPayload]

/-- The payload of an approval's text, given what the text parses to. -/
theorem payloadOfText_shopText {digest jti : String} (exp : ℕ)
    (hparse : (parseText writtenNames (shopText digest jti (toString (exp : ℤ))).toList).toOption =
      some (shopJson digest jti (toString (exp : ℤ))))
    (hjti : shortString (some (.string jti)) 128 = some jti)
    (hdigest : isDigest digest = true) (hsafe : |(exp : ℤ)| ≤ maxSafeInteger) :
    payloadOfText (shopText digest jti (toString (exp : ℤ))) = some (shopPayload digest jti exp) := by
  rw [payloadOfText, hparse, Option.bind_some]
  exact parsePayload_shopJson hjti hdigest (wholeNumber_toString hsafe)

end Turbopaneld.DockerGate
