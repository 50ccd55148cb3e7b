import Mathlib.Analysis.SpecialFunctions.Complex.Arg
import Mathlib.Analysis.SpecialFunctions.Trigonometric.Bounds
/-!
# From the ecliptic to the equator

A point of the ecliptic at longitude `lam` has the right ascension
`arg (cos lam + c * sin lam * I)`, with the cosine `c` of the obliquity. Up to
whole turns the two differ by `swing` at most, which is small where `c` is near
1, and at the equinoxes.
-/

namespace RightAscension

open Real

/-- How far right ascension and longitude can be apart. -/
noncomputable def swing (c lam : ℝ) : ℝ := (1 - c) * |sin lam * cos lam| / c

/-- The tangent moves away from 0 faster than its angle. -/
theorem abs_le_abs_tan {x : ℝ} (h : |x| < π / 2) : |x| ≤ |tan x| := by
  rcases le_total 0 x with h0 | h0
  · rw [abs_of_nonneg h0] at h ⊢
    exact (le_tan h0 h).trans (le_abs_self _)
  · rw [abs_of_nonpos h0] at h ⊢
    have hle := le_tan (neg_nonneg.2 h0) h
    rw [tan_neg] at hle
    exact hle.trans (neg_le_abs _)

/-- The point of the equator, turned back by the longitude. -/
noncomputable def turned (c lam : ℝ) : ℂ := ⟨cos lam ^ 2 + c * sin lam ^ 2, -((1 - c) * (sin lam * cos lam))⟩

variable {c : ℝ}

theorem turned_re_pos (h0 : 0 < c) (h1 : c ≤ 1) (lam : ℝ) : c ≤ (turned c lam).re := by
  have hsq := sin_sq_add_cos_sq lam
  have hcos := sq_nonneg (cos lam)
  unfold turned
  dsimp only
  nlinarith

theorem turned_mul (c lam : ℝ) :
    (⟨cos lam, c * sin lam⟩ : ℂ) = (cos lam + sin lam * Complex.I) * turned c lam := by
  have hsq := sin_sq_add_cos_sq lam
  have hunit : (cos lam + sin lam * Complex.I : ℂ) = ⟨cos lam, sin lam⟩ := (Complex.mk_eq_add_mul_I _ _).symm
  rw [hunit]
  unfold turned
  apply Complex.ext
  · simp only [Complex.mul_re]
    linear_combination (-cos lam) * hsq
  · simp only [Complex.mul_im]
    linear_combination (-c * sin lam) * hsq

/-- The angle of the turned point. -/
theorem abs_arg_turned_le (h0 : 0 < c) (h1 : c ≤ 1) (lam : ℝ) : |Complex.arg (turned c lam)| ≤ swing c lam := by
  have hre := turned_re_pos h0 h1 lam
  have hpos : 0 < (turned c lam).re := h0.trans_le hre
  have hlt : |Complex.arg (turned c lam)| < π / 2 := Complex.abs_arg_lt_pi_div_two_iff.2 (.inl hpos)
  refine (abs_le_abs_tan hlt).trans ?_
  rw [Complex.tan_arg, abs_div, abs_of_pos hpos]
  have him : |(turned c lam).im| = (1 - c) * |sin lam * cos lam| := by
    unfold turned
    rw [abs_neg, abs_mul, abs_of_nonneg (sub_nonneg.2 h1)]
  rw [him]
  unfold swing
  gcongr

/-- Right ascension and longitude, up to whole turns. -/
theorem exists_turns (h0 : 0 < c) (h1 : c ≤ 1) (lam : ℝ) :
    ∃ (m : ℤ) (eta : ℝ), Complex.arg ⟨cos lam, c * sin lam⟩ = lam + eta + 2 * π * m ∧ |eta| ≤ swing c lam := by
  have hturned : turned c lam ≠ 0 := by
    intro h
    have hre := turned_re_pos h0 h1 lam
    rw [h, Complex.zero_re] at hre
    exact absurd h0 hre.not_gt
  have hunit : (cos lam + sin lam * Complex.I : ℂ) ≠ 0 := by
    rw [Complex.ofReal_cos, Complex.ofReal_sin, ← Complex.exp_mul_I]
    exact Complex.exp_ne_zero _
  have harg : (Complex.arg (cos lam + sin lam * Complex.I) : Angle) = lam := by
    have h := Complex.arg_cos_add_sin_mul_I_coe_angle lam
    rwa [Angle.cos_coe, Angle.sin_coe] at h
  have hangle : (Complex.arg ⟨cos lam, c * sin lam⟩ : Angle) = ((lam + Complex.arg (turned c lam) : ℝ) : Angle) := by
    rw [turned_mul, Complex.arg_mul_coe_angle hunit hturned, harg, Angle.coe_add]
  obtain ⟨m, hm⟩ := Angle.angle_eq_iff_two_pi_dvd_sub.1 hangle
  exact ⟨m, Complex.arg (turned c lam), by linarith, abs_arg_turned_le h0 h1 lam⟩

end RightAscension
