/-
# Counting in fixed windows

A sender counts what it sends in a window and starts a new window when the old one is over.
A window does not line up with the interval a receiver looks at, so an interval of `k` widths
may meet `k + 1` windows, and no more: that many bursts bound what is sent in it.
-/

import Mathlib.Algebra.Order.Ring.Nat
import Mathlib.Data.List.Basic

namespace Turbopaneld.Sequences

/-- How many of the times are `low` or later. -/
def countSince (low : ℕ) (times : List ℕ) : ℕ := times.countP (low ≤ ·)

/-- How many of the times are in `[low, high)`. -/
def countIn (low high : ℕ) (times : List ℕ) : ℕ :=
  times.countP fun time => low ≤ time && time < high

theorem countIn_le_countSince (low high : ℕ) (times : List ℕ) :
    countIn low high times ≤ countSince low times :=
  List.countP_mono_left fun time _ h => by
    rw [Bool.and_eq_true] at h
    exact h.1

/-- Times at which at most `burst` a window of the given width were sent.  The last window began
at `start` and has sent `sent`; nothing has been sent after `last`. -/
structure Paced (width burst start sent last : ℕ) (times : List ℕ) : Prop where
  le_last : ∀ time ∈ times, time ≤ last
  sent_le : sent ≤ burst
  earlier : ∀ low ≤ start, countSince low times ≤ sent + burst * ((start - low) / width + 1)
  current : ∀ low, start < low → countSince low times ≤ sent
  bounded : ∀ k low, countIn low (low + k * width) times ≤ (k + 1) * burst

variable {width burst start sent last : ℕ} {times : List ℕ}

/-- Nothing has been sent yet. -/
theorem paced_nil (width burst start last : ℕ) : Paced width burst start 0 last [] where
  le_last _ h := absurd h List.not_mem_nil
  sent_le := Nat.zero_le _
  earlier _ _ := Nat.zero_le _
  current _ _ := Nat.zero_le _
  bounded _ _ := Nat.zero_le _

/-- Time passes. -/
theorem Paced.mono (h : Paced width burst start sent last times) {later : ℕ} (hlater : last ≤ later) :
    Paced width burst start sent later times :=
  { h with le_last := fun time htime => (h.le_last time htime).trans hlater }

/-- A window begins when the one before is over. -/
theorem Paced.reset (hwidth : 0 < width) (h : Paced width burst start sent last times) {next : ℕ}
    (hover : start + width ≤ next) (hlast : last ≤ next) : Paced width burst next 0 next times where
  le_last time htime := (h.le_last time htime).trans hlast
  sent_le := Nat.zero_le _
  earlier low hlow := by
    rw [Nat.zero_add]
    by_cases hstart : low ≤ start
    · have hwindows : (start - low) / width + 1 ≤ (next - low) / width := by
        rw [← Nat.add_div_right _ hwidth]
        exact Nat.div_le_div_right (by omega)
      calc countSince low times
          ≤ sent + burst * ((start - low) / width + 1) := h.earlier low hstart
        _ ≤ burst + burst * ((next - low) / width) :=
            Nat.add_le_add h.sent_le (Nat.mul_le_mul_left _ hwindows)
        _ = burst * ((next - low) / width + 1) := by
            rw [Nat.mul_add, Nat.mul_one, Nat.add_comm]
    · calc countSince low times
          ≤ sent := h.current low (Nat.lt_of_not_le hstart)
        _ ≤ burst := h.sent_le
        _ ≤ burst * ((next - low) / width + 1) := Nat.le_mul_of_pos_right _ (Nat.succ_pos _)
  current low hlow := by
    refine (List.countP_eq_zero.mpr fun time htime hle => ?_).le
    have hbound := (h.le_last time htime).trans hlast
    exact absurd (of_decide_eq_true hle) (by omega)
  bounded := h.bounded

theorem countSince_cons_le (low time : ℕ) (times : List ℕ) :
    countSince low (time :: times) ≤ countSince low times + 1 := by
  rw [countSince, List.countP_cons]
  split <;> simp [countSince]

/-- Something is sent while the window has room. -/
theorem Paced.send (h : Paced width burst start sent last times) (hroom : sent < burst) {time : ℕ}
    (hlast : last ≤ time) (hstart : start ≤ time) :
    Paced width burst start (sent + 1) time (time :: times) where
  le_last other hother := by
    rcases List.mem_cons.mp hother with rfl | hother
    · exact le_rfl
    · exact (h.le_last other hother).trans hlast
  sent_le := hroom
  earlier low hlow := by
    have hcons := countSince_cons_le low time times
    have hearlier := h.earlier low hlow
    omega
  current low hlow := by
    have hcons := countSince_cons_le low time times
    have hcurrent := h.current low hlow
    omega
  bounded k low := by
    by_cases hin : low ≤ time ∧ time < low + k * width
    · have hcount := (countIn_le_countSince low (low + k * width) (time :: times)).trans
        (countSince_cons_le low time times)
      by_cases hlow : low ≤ start
      · -- the windows that begin in the interval, the one before them, and the current one
        have hpos : 0 < width := by
          by_contra hzero
          have hwidth : width = 0 := by omega
          rw [hwidth, Nat.mul_zero] at hin
          omega
        have hwindows : (start - low) / width + 1 ≤ k := by
          refine Nat.succ_le_of_lt ((Nat.div_lt_iff_lt_mul hpos).mpr ?_)
          omega
        calc countIn low (low + k * width) (time :: times)
            ≤ countSince low times + 1 := hcount
          _ ≤ sent + burst * ((start - low) / width + 1) + 1 := Nat.succ_le_succ (h.earlier low hlow)
          _ ≤ sent + burst * k + 1 :=
              Nat.succ_le_succ (Nat.add_le_add_left (Nat.mul_le_mul_left _ hwindows) _)
          _ ≤ burst + burst * k := by omega
          _ = (k + 1) * burst := by rw [Nat.add_mul, Nat.one_mul, Nat.mul_comm, Nat.add_comm]
      · calc countIn low (low + k * width) (time :: times)
            ≤ countSince low times + 1 := hcount
          _ ≤ sent + 1 := Nat.succ_le_succ (h.current low (Nat.lt_of_not_le hlow))
          _ ≤ burst := hroom
          _ ≤ (k + 1) * burst := Nat.le_mul_of_pos_left _ (Nat.succ_pos _)
    · have hout : (decide (low ≤ time) && decide (time < low + k * width)) = false := by
        rw [← Bool.decide_and]
        exact decide_eq_false hin
      have hsame : countIn low (low + k * width) (time :: times) =
          countIn low (low + k * width) times := by
        rw [countIn, List.countP_cons_of_neg (by simpa using hout)]
        rfl
      rw [hsame]
      exact h.bounded k low

end Turbopaneld.Sequences
