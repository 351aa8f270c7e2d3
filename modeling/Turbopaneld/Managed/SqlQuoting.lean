/-
# Quoting for the managed engines

What the three files of SQL builders share: the names and literals they accept, and how a
statement's lines are put together.  The builders throw on what they do not accept.
-/

import Turbopaneld.JavaScript.Text
import Turbopaneld.Sql.Lexer

namespace Turbopaneld.Managed

open Turbopaneld JavaScript Sql

/-- `value.replaceAll(c, by)` for one character. -/
def replaceAll (c : Char) (replacement : List Char) (value : String) : String :=
  String.ofList (value.toList.flatMap fun x => if x == c then replacement else [x])

/-- `CONTROL_CHAR_RE.test(value)` -/
def hasControlChar (value : String) : Bool :=
  value.toList.any fun c => c.toNat ≤ 0x1f || c.toNat == 0x7f

/-- `IDENTIFIER_RE.test(value)` -/
def isIdentifier (value : String) : Bool :=
  match value.toList with
  | [] => false
  | c :: rest => (isLetter c || c == '_') && rest.all isWord

/-- The names `quoteIdentifier` does not throw on. -/
def acceptsIdentifier (value : String) (maxLength : ℕ) : Bool :=
  !(lengthInUnits value == 0 || decide (maxLength < lengthInUnits value) || !isIdentifier value)

/-- `lines.join("\n")` -/
def joinLines (lines : List String) : String := "\n".intercalate lines

/-! ## What is accepted -/

theorem isWord_of_acceptsIdentifier {value : String} {maxLength : ℕ}
    (h : acceptsIdentifier value maxLength = true) : ∀ c ∈ value.toList, isWord c = true := by
  have hidentifier : isIdentifier value = true := by
    simp only [acceptsIdentifier, Bool.not_eq_true', Bool.or_eq_false_iff, Bool.not_eq_false'] at h
    exact h.2
  rw [isIdentifier] at hidentifier
  cases hchars : value.toList with
  | nil => exact List.forall_mem_nil _
  | cons c rest =>
    rw [hchars, Bool.and_eq_true, Bool.or_eq_true, beq_iff_eq, List.all_eq_true] at hidentifier
    rw [List.forall_mem_cons]
    constructor
    · rcases hidentifier.1 with hletter | rfl
      · simp [isWord, hletter]
      · rfl
    · exact hidentifier.2

/-- A name has no character that is special to a server. -/
theorem notMem_of_acceptsIdentifier {value : String} {maxLength : ℕ} {c : Char}
    (hc : isWord c = false) (h : acceptsIdentifier value maxLength = true) : c ∉ value.toList := by
  intro hmem
  rw [isWord_of_acceptsIdentifier h c hmem] at hc
  cases hc

theorem hasControlChar_of_acceptsIdentifier {value : String} {maxLength : ℕ}
    (h : acceptsIdentifier value maxLength = true) : hasControlChar value = false := by
  rw [hasControlChar, List.any_eq_false]
  intro c hc hcontrol
  have hword := isWord_of_acceptsIdentifier h c hc
  simp only [isWord, isLetter, isLower, isDigit, Bool.or_eq_true, Bool.and_eq_true,
    decide_eq_true_eq, beq_iff_eq, Char.le_def, UInt32.le_iff_toNat_le] at hword
  rw [Bool.or_eq_true, decide_eq_true_iff, beq_iff_eq] at hcontrol
  have hlow : 0x20 ≤ c.val.toNat ∧ c.val.toNat ≤ 0x7a := by
    obtain ((hword | hword) | hword) | rfl := hword
    · exact ⟨le_trans (by decide) hword.1, le_trans hword.2 (by decide)⟩
    · exact ⟨le_trans (by decide) hword.1, le_trans hword.2 (by decide)⟩
    · exact ⟨le_trans (by decide) hword.1, le_trans hword.2 (by decide)⟩
    · decide
  have hvalue : c.toNat = c.val.toNat := rfl
  omega

end Turbopaneld.Managed
