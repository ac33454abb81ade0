import Mathlib.Algebra.BigOperators.Intervals
import Mathlib.Tactic

/-!
# Metered flows

Amounts `a k` at times `t k`, metered by a burst and a rate: within any window, no more than the burst and what the rate
yields in the time of the window (`Metered`). A bucket that holds at most the burst and is filled at the rate keeps
account of all windows at once: its level is exactly what may still be taken (`le_level_iff`), so that a flow is
metered exactly if it never takes more than the level (`metered_iff`).
-/

namespace RustProxy.Lib

open Finset

variable {K : Type} [CommRing K] [LinearOrder K] [IsStrictOrderedRing K]

/-- The total of every window is at most the burst and what the rate yields in its time. -/
def Metered (burst rate : K) (t a : ℕ → K) : Prop :=
  ∀ i j, i ≤ j → ∑ k ∈ Icc i j, a k ≤ burst + rate * (t j - t i)

/-- The level of the bucket at time `t j`, before `a j` is taken. -/
def level (burst rate : K) (t a : ℕ → K) : ℕ → K
  | 0 => burst
  | j + 1 => min (level burst rate t a j - a j + rate * (t (j + 1) - t j)) burst

variable {burst rate : K} {t a : ℕ → K}

/-- **What the level allows.** An amount can be taken at `t j` exactly if it fits every window that ends there. -/
theorem le_level_iff {j : ℕ} {x : K} :
    x ≤ level burst rate t a j ↔ ∀ i ≤ j, ∑ k ∈ Ico i j, a k + x ≤ burst + rate * (t j - t i) := by
  induction j generalizing x with
  | zero => simp [level]
  | succ j ih =>
    -- what is taken after the last amount and the refill could have been taken together with that amount before it
    have hback : x ≤ level burst rate t a j - a j + rate * (t (j + 1) - t j) ↔
        x + a j - rate * (t (j + 1) - t j) ≤ level burst rate t a j := by
      constructor <;> intro h <;> linarith
    rw [level, le_min_iff, hback, ih]
    constructor
    · rintro ⟨hwindows, hburst⟩ i hi
      rcases Nat.le_succ_iff.mp hi with hi | rfl
      · have h := hwindows i hi
        rw [sum_Ico_succ_top hi]
        linarith
      · simpa using hburst
    · intro h
      refine ⟨fun i hi => ?_, ?_⟩
      · have h := h i (hi.trans j.le_succ)
        rw [sum_Ico_succ_top hi] at h
        linarith
      · simpa using h (j + 1) le_rfl

/-- A flow is metered exactly if it never takes more than the level. -/
theorem metered_iff : Metered burst rate t a ↔ ∀ j, a j ≤ level burst rate t a j := by
  simp only [le_level_iff]
  constructor
  · intro h j i hi
    rw [← sum_Ico_succ_top hi, Ico_add_one_right_eq_Icc]
    exact h i j hi
  · intro h i j hi
    have hsum := h j i hi
    rw [← sum_Ico_succ_top hi, Ico_add_one_right_eq_Icc] at hsum
    exact hsum

end RustProxy.Lib
