import Mathlib.Algebra.Order.Floor.Ring
import Mathlib.Tactic.Positivity
/-!
# Casts between number types

`trunc` is C's conversion of a floating-point number to an integer type: it
drops the fraction, towards zero. C leaves it undefined where the result does
not fit the integer type (`Fits`).
-/

namespace Cast

variable {K : Type} [Ring K] [LinearOrder K] [FloorRing K]

def trunc (x : K) : ℤ := if 0 ≤ x then ⌊x⌋ else ⌈x⌉

/-- A signed type of `w` bits holds `n`. -/
def Fits (w : ℕ) (n : ℤ) : Prop := -2 ^ (w - 1) ≤ n ∧ n < 2 ^ (w - 1)

theorem trunc_of_nonneg {x : K} (h : 0 ≤ x) : trunc x = ⌊x⌋ := if_pos h

theorem trunc_of_neg {x : K} (h : x < 0) : trunc x = ⌈x⌉ := if_neg h.not_ge

variable [IsStrictOrderedRing K]

/-- What truncation drops is the fractional part, less one below zero. -/
theorem fract_eq_sub_trunc (x : K) :
    Int.fract x = if x < trunc x then x - trunc x + 1 else x - trunc x := by
  rcases le_or_gt 0 x with h | h
  · rw [trunc_of_nonneg h, if_neg (Int.floor_le x).not_gt]
    rfl
  · rw [trunc_of_neg h]
    by_cases hx : x < ⌈x⌉
    · -- not a whole number
      have hceil : ⌈x⌉ = ⌊x⌋ + 1 := by
        refine le_antisymm (Int.ceil_le_floor_add_one x) (Int.add_one_le_iff.2 ?_)
        exact_mod_cast (Int.floor_le x).trans_lt hx
      rw [if_pos hx, hceil, Int.fract]
      push_cast
      abel
    · have hx : x = ⌈x⌉ := le_antisymm (Int.le_ceil x) (not_lt.1 hx)
      rw [if_neg hx.symm.not_gt, sub_eq_zero.2 hx, hx, Int.fract_intCast]

theorem fits_trunc {w : ℕ} {x : K} (h : |x| < 2 ^ (w - 1)) : Fits w (trunc x) := by
  obtain ⟨h1, h2⟩ := abs_lt.1 h
  have hcast : ((2 ^ (w - 1) : ℤ) : K) = 2 ^ (w - 1) := by push_cast; rfl
  rcases le_or_gt 0 x with h0 | h0
  · rw [trunc_of_nonneg h0]
    refine ⟨?_, Int.floor_lt.2 (hcast ▸ h2)⟩
    have := Int.floor_nonneg.2 h0
    have : (0 : ℤ) < 2 ^ (w - 1) := by positivity
    omega
  · rw [trunc_of_neg h0]
    constructor
    · have : ((-2 ^ (w - 1) : ℤ) : K) < x := by rw [Int.cast_neg, hcast]; exact h1
      exact (Int.lt_ceil.2 this).le
    · have := Int.ceil_le.2 (show x ≤ ((0 : ℤ) : K) by simpa using h0.le)
      have : (0 : ℤ) < 2 ^ (w - 1) := by positivity
      omega

end Cast
