import VscpAutomation.Rational
import Mathlib.Algebra.Order.ToIntervalMod
import Mathlib.Tactic.FieldSimp
import Mathlib.Tactic.Linarith
/-!
# Angles in range

`FNrange` truncates towards zero, so angles on the two sides of 0 go through
different branches. Both end in the one angle of `[0, 2*pi)` that is whole
turns away (`FNrange_eq_toIcoMod`), whatever the sign.
-/

namespace VscpAutomation.Angle

open Cast

variable {K : Type} [Field K] [LinearOrder K] [IsStrictOrderedRing K]

theorem pi_pos : (0 : K) < pi := by
  unfold pi
  norm_num

theorem two_pi_pos : (0 : K) < 2 * pi := mul_pos two_pos pi_pos

theorem half_div_pi (x : K) : 0.5 * x / pi = x / (2 * pi) := by
  have h : (0.5 : K) = 1 / 2 := by norm_num
  rw [h]
  field_simp

variable [FloorRing K]

/-- `FNrange` keeps the fraction of a turn. -/
theorem FNrange_mul (b : K) : FNrange (2 * pi * b) = 2 * pi * Int.fract b := by
  have hb : 0.5 * (2 * pi * b) / pi = b := by rw [half_div_pi, mul_div_cancel_left₀ b two_pi_pos.ne']
  have htwo : (2.0 : K) = 2 := by norm_num
  have hneg : 2 * pi * (b - trunc b) < 0 ↔ b < trunc b :=
    ⟨fun h => sub_neg.1 (neg_of_mul_neg_right h two_pi_pos.le),
      fun h => mul_neg_of_pos_of_neg two_pi_pos (sub_neg.2 h)⟩
  unfold FNrange
  simp only [hb, htwo, hneg, fract_eq_sub_trunc]
  split <;> ring

/-- The angle in range is the canonical one. -/
theorem FNrange_eq_toIcoMod (x : K) : FNrange x = toIcoMod two_pi_pos 0 x := by
  have hx : 2 * pi * (x / (2 * pi)) = x := mul_div_cancel₀ x two_pi_pos.ne'
  rw [toIcoMod_eq_fract_mul, mul_comm, ← FNrange_mul, hx]

theorem FNrange_mem (x : K) : 0 ≤ FNrange x ∧ FNrange x < 2 * pi := by
  rw [FNrange_eq_toIcoMod]
  exact toIcoMod_mem_Ico' two_pi_pos x

theorem sub_FNrange (x : K) : ∃ n : ℤ, x - FNrange x = n * (2 * pi) := by
  refine ⟨toIcoDiv two_pi_pos 0 x, ?_⟩
  rw [FNrange_eq_toIcoMod, self_sub_toIcoMod, zsmul_eq_mul]

theorem FNrange_idem (x : K) : FNrange (FNrange x) = FNrange x := by
  simp only [FNrange_eq_toIcoMod, toIcoMod_toIcoMod]

theorem FNrange_add_turns (x : K) (k : ℤ) : FNrange (x + 2 * pi * k) = FNrange x := by
  have hk : 2 * pi * (k : K) = k • (2 * pi) := by rw [zsmul_eq_mul, mul_comm]
  rw [FNrange_eq_toIcoMod, FNrange_eq_toIcoMod, hk, toIcoMod_add_zsmul]

/-- `FNrange` picks the angle of `[0, 2*pi)` that is whole turns away, with a
conversion that fits. So do the three angles of `FNsun`, on any day. -/
theorem FNrange_canonical (E : Env K) (x d : K) (h : |x / (2 * pi)| < 2 ^ 63) :
    Fits 64 (trunc (0.5 * x / pi)) ∧ (0 ≤ FNrange x ∧ FNrange x < 2 * pi) ∧
      (∃ n : ℤ, x - FNrange x = n * (2 * pi)) ∧ FNrange (FNrange x) = FNrange x ∧
      (∀ k : ℤ, FNrange (x + 2 * pi * k) = FNrange x) ∧
      ((0 ≤ (FNsun E d).L ∧ (FNsun E d).L < 2 * pi) ∧ (0 ≤ (FNsun E d).g ∧ (FNsun E d).g < 2 * pi) ∧
        0 ≤ (FNsun E d).lambda ∧ (FNsun E d).lambda < 2 * pi) := by
  refine ⟨?_, FNrange_mem x, sub_FNrange x, FNrange_idem x, FNrange_add_turns x, FNrange_mem _, FNrange_mem _,
    FNrange_mem _⟩
  rw [half_div_pi]
  exact fits_trunc h

/-- Half a turn back, on a day of 1980. -/
theorem FNrange_canonical_back :
    let E := rationalEnv fun _ => .error .parse_error
    FNrange (-pi) = (pi : ℚ) ∧ Fits 64 (trunc (0.5 * -pi / pi : ℚ)) ∧
      (0 ≤ FNrange (-pi : ℚ) ∧ FNrange (-pi : ℚ) < 2 * pi) ∧
      (∃ n : ℤ, -pi - FNrange (-pi : ℚ) = n * (2 * pi)) ∧ FNrange (FNrange (-pi : ℚ)) = FNrange (-pi) ∧
      (∀ k : ℤ, FNrange (-pi + 2 * pi * k : ℚ) = FNrange (-pi)) ∧
      ((0 ≤ (FNsun E (-7000)).L ∧ (FNsun E (-7000)).L < 2 * pi) ∧
        (0 ≤ (FNsun E (-7000)).g ∧ (FNsun E (-7000)).g < 2 * pi) ∧
        0 ≤ (FNsun E (-7000)).lambda ∧ (FNsun E (-7000)).lambda < 2 * pi) := by
  intro E
  refine ⟨by decide +kernel, FNrange_canonical E (-pi) (-7000) ?_⟩
  rw [abs_lt]
  constructor <;> norm_num [pi]

end VscpAutomation.Angle
