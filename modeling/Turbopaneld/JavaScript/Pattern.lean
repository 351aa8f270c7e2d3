/-
# Anchored patterns

The regular expressions the source tests a whole text against: characters of a class,
one after the other, with counted repetition.  A pattern is run as the source's language
runs it, with what has to match behind it as a continuation.
-/

import Turbopaneld.JavaScript.Text

namespace Turbopaneld.JavaScript

/-- A pattern. -/
inductive Pattern
  | one (accepts : Char → Bool)
  | seq (first second : Pattern)
  | times (count : ℕ) (body : Pattern)
  | upTo (count : ℕ) (body : Pattern)

namespace Pattern

/-- What a pattern does with what has to match behind it. -/
abbrev Matcher := (List Char → Bool) → List Char → Bool

/-- Match exactly so many times. -/
def exactly (body : Matcher) : ℕ → Matcher
  | 0, k => k
  | count + 1, k => body (exactly body count k)

/-- Match at most so many times. -/
def atMost (body : Matcher) : ℕ → Matcher
  | 0, k => k
  | count + 1, k => fun text => body (atMost body count k) text || k text

/-- Match a pattern at the front of a text. -/
def run : Pattern → Matcher
  | .one accepts, k => fun text =>
    match text with
    | [] => false
    | c :: rest => accepts c && k rest
  | .seq first second, k => first.run (second.run k)
  | .times count body, k => exactly body.run count k
  | .upTo count body, k => atMost body.run count k

/-- `/^pattern$/.test(text)`. -/
def test (pattern : Pattern) (text : String) : Bool := pattern.run List.isEmpty text.toList

/-- A pattern for one given character. -/
def char (c : Char) : Pattern := .one (· == c)

/-- Patterns one after the other. -/
def inTurn (first : Pattern) (others : List Pattern) : Pattern := others.foldl .seq first

variable (accepts : Char → Bool) (k : List Char → Bool)

@[simp]
theorem run_one_nil : (one accepts).run k [] = false := rfl

@[simp]
theorem run_one_cons (c : Char) (rest : List Char) :
    (one accepts).run k (c :: rest) = (accepts c && k rest) := rfl

@[simp]
theorem run_seq (first second : Pattern) : (seq first second).run k = first.run (second.run k) := rfl

@[simp]
theorem run_times_zero (body : Pattern) : (times 0 body).run k = k := rfl

theorem run_times_succ (count : ℕ) (body : Pattern) :
    (times (count + 1) body).run k = body.run ((times count body).run k) := rfl

@[simp]
theorem run_upTo_zero (body : Pattern) : (upTo 0 body).run k = k := rfl

theorem run_upTo_succ (count : ℕ) (body : Pattern) (text : List Char) :
    (upTo (count + 1) body).run k text = (body.run ((upTo count body).run k) text || k text) := rfl

/-- A class repeated to the end of the text. -/
theorem run_upTo_one_isEmpty (count : ℕ) (text : List Char) :
    (upTo count (one accepts)).run List.isEmpty text =
      (decide (text.length ≤ count) && text.all accepts) := by
  induction count generalizing text with
  | zero => cases text <;> simp
  | succ count ih =>
    rw [run_upTo_succ]
    cases text with
    | nil => simp
    | cons c rest =>
      rw [run_one_cons, ih, List.isEmpty_cons, Bool.or_false, List.all_cons, List.length_cons]
      simp only [Nat.add_le_add_iff_right]
      exact Bool.and_left_comm _ _ _

/-- A class repeated up to the last character, which has a class of its own. -/
theorem run_upTo_one_last (final : Char → Bool) (count : ℕ) (text : List Char) :
    (upTo count (one accepts)).run ((one final).run List.isEmpty) text = true ↔
      ∃ front last, text = front ++ [last] ∧ front.length ≤ count ∧
        (∀ c ∈ front, accepts c = true) ∧ final last = true := by
  have hlast (text : List Char) : (one final).run List.isEmpty text = true ↔
      ∃ last, text = [last] ∧ final last = true := by
    cases text with
    | nil => simp
    | cons c rest => simp [and_comm]
  induction count generalizing text with
  | zero =>
    rw [run_upTo_zero, hlast]
    constructor
    · rintro ⟨last, rfl, hfinal⟩
      exact ⟨[], last, rfl, Nat.le_refl 0, by simp, hfinal⟩
    · rintro ⟨front, last, rfl, hfront, -, hfinal⟩
      obtain rfl := List.length_eq_zero_iff.mp (Nat.le_zero.mp hfront)
      exact ⟨last, rfl, hfinal⟩
  | succ count ih =>
    rw [run_upTo_succ, Bool.or_eq_true, hlast]
    cases text with
    | nil => simp
    | cons c rest =>
      have hrest : (upTo count (one accepts)).run ((one final).run List.isEmpty) rest = true ↔
          ∃ front last, rest = front ++ [last] ∧ front.length ≤ count ∧
            (∀ c ∈ front, accepts c = true) ∧ final last = true := ih rest
      rw [run_one_cons, Bool.and_eq_true, hrest]
      constructor
      · rintro (⟨hc, front, last, rfl, hfront, hall, hfinal⟩ | ⟨last, hsingle, hfinal⟩)
        · exact ⟨c :: front, last, rfl, Nat.succ_le_succ hfront, List.forall_mem_cons.mpr ⟨hc, hall⟩,
            hfinal⟩
        · exact ⟨[], last, hsingle, Nat.zero_le _, by simp, hfinal⟩
      · rintro ⟨front, last, htext, hfront, hall, hfinal⟩
        cases front with
        | nil => exact .inr ⟨last, htext, hfinal⟩
        | cons first front =>
          obtain ⟨rfl, rfl⟩ := List.cons.inj htext
          obtain ⟨hc, hall⟩ := List.forall_mem_cons.mp hall
          exact .inl ⟨hc, front, last, rfl, Nat.le_of_succ_le_succ hfront, hall, hfinal⟩

end Pattern

/-- A class and then another one, counted, to the end of the text. -/
theorem test_seq_upTo {first accepts : Char → Bool} {count : ℕ} {text : String} :
    (Pattern.seq (.one first) (.upTo count (.one accepts))).test text = true ↔
      ∃ c rest, text.toList = c :: rest ∧ first c = true ∧ rest.length ≤ count ∧
        ∀ d ∈ rest, accepts d = true := by
  rw [Pattern.test, Pattern.run_seq]
  cases text.toList with
  | nil => simp
  | cons c rest =>
    rw [Pattern.run_one_cons, Pattern.run_upTo_one_isEmpty]
    simp

end Turbopaneld.JavaScript
