import VscpAutomation.Ephemeris
/-!
# Longer and shorter days

The length of the day by place and season, on the dates from 1901 to 2099 and
where no NaN comes up. At one place days are the longer the further the sun has
come to that side of the equator; on one day they grow towards the pole in the
half-year of the summer and shrink in the other (`day_lengths`).
-/

namespace VscpAutomation.DayLength

open HourAngle Ephemeris

theorem dayLength_mono : Monotone (dayLength : ℝ → ℝ) := by
  intro x y h
  have hdegs : (0 : ℝ) ≤ degs := by
    unfold degs
    exact div_nonneg (by norm_num) Angle.pi_pos.le
  have hle : degs * x / 7.5 ≤ degs * y / 7.5 :=
    div_le_div_of_nonneg_right (mul_le_mul_of_nonneg_left h hdegs) (by norm_num)
  unfold dayLength
  dsimp only
  split
  · split
    · exact le_rfl
    · rename_i hy
      exact le_trans (by norm_num) (not_lt.1 hy)
  · rename_i hx
    rw [if_neg (not_lt.2 ((not_lt.1 hx).trans hle))]
    exact hle

/-- Half a turn of the sun is twelve hours. -/
theorem dayLength_half : dayLength (pi / 2.0 : ℝ) = 12 := by
  have hpi : (pi : ℝ) ≠ 0 := Angle.pi_pos.ne'
  have h : degs * (pi / 2.0 : ℝ) / 7.5 = 12 := by
    unfold degs
    norm_num only
    field_simp
    norm_num
  unfold dayLength
  dsimp only
  rw [h]
  norm_num

/-! ## North of the equator -/

section
variable {E : Env ℝ} (hE : OnReals E)
include hE

theorem hourAngle_mono {dip lat lat' declin declin' : ℝ}
    (h : product E dip lat declin ≤ product E dip lat' declin') :
    hourAngle E dip lat declin ≤ hourAngle E dip lat' declin' := by
  unfold hourAngle
  rw [hE.asin]
  exact add_le_add_left (Real.monotone_arcsin (clamp_mono h)) _

theorem product_north {dip lat declin : ℝ} (h : 0 ≤ lat) :
    product E dip lat declin = Real.tan (declin + dip) * Real.tan (lat * rads) := by
  unfold product
  rw [if_neg (by norm_num; exact h), hE.tan]

end

/-- What `f0` has tangents of. -/
theorem angles {lat declin : ℝ} (hlat : 0 ≤ lat ∧ lat ≤ 67.3) (hdeclin : |declin| ≤ 23.5 * rads) :
    lat * rads ∈ Set.Ico 0 (Real.pi / 2) ∧ declin + sunriseDip ∈ Set.Ioo (-(Real.pi / 2)) (Real.pi / 2) := by
  obtain ⟨hd0, hd, hd6⟩ := dips (K := ℝ)
  obtain ⟨h1, h2⟩ := abs_le.1 hdeclin
  have hr := rads_pos (K := ℝ)
  have hpi := pi_lt_real
  have hhalf := half_pi (K := ℝ)
  have hle : lat * rads ≤ 67.3 * rads := mul_le_mul_of_nonneg_right hlat.2 hr.le
  norm_num only at h1 h2 hle
  refine ⟨⟨mul_nonneg hlat.1 hr.le, ?_⟩, ?_, ?_⟩
  · linarith
  · linarith
  · linarith

theorem tan_mono {x y : ℝ} (hx : x ∈ Set.Ioo (-(Real.pi / 2)) (Real.pi / 2))
    (hy : y ∈ Set.Ioo (-(Real.pi / 2)) (Real.pi / 2)) (h : x ≤ y) : Real.tan x ≤ Real.tan y :=
  Real.strictMonoOn_tan.monotoneOn hx hy h

theorem clamp_zero : clamp (0 : ℝ) = 0 := by
  unfold clamp
  rw [if_neg (by norm_num)]

section
variable {E : Env ℝ} (hE : OnReals E)
include hE

/-- A day is twelve hours or more where the product is not negative. -/
theorem twelve_le {lat declin : ℝ} (h : 0 ≤ product E sunriseDip lat declin) :
    12 ≤ dayLength (f0 E lat declin) := by
  rw [← dayLength_half, f0_eq, hourAngle, hE.asin]
  apply dayLength_mono
  have harcsin := Real.monotone_arcsin (clamp_mono h)
  rw [clamp_zero, Real.arcsin_zero] at harcsin
  linarith

theorem le_twelve {lat declin : ℝ} (h : product E sunriseDip lat declin ≤ 0) :
    dayLength (f0 E lat declin) ≤ 12 := by
  rw [← dayLength_half, f0_eq, hourAngle, hE.asin]
  apply dayLength_mono
  have harcsin := Real.monotone_arcsin (clamp_mono h)
  rw [clamp_zero, Real.arcsin_zero] at harcsin
  linarith

/-- In the north, by the season and towards the pole. -/
theorem north {lat lat' declin declin' : ℝ} (h0 : 0 ≤ lat) (hle : lat ≤ lat') (hmax : lat' ≤ 67.3)
    (hdeclin : |declin| ≤ 23.5 * rads) (hdeclin' : |declin'| ≤ 23.5 * rads) :
    (declin ≤ declin' → dayLength (f0 E lat declin) ≤ dayLength (f0 E lat declin')) ∧
      (0 ≤ declin + sunriseDip →
        dayLength (f0 E lat declin) ≤ dayLength (f0 E lat' declin) ∧ 12 ≤ dayLength (f0 E lat declin)) ∧
      (declin + sunriseDip ≤ 0 →
        dayLength (f0 E lat' declin) ≤ dayLength (f0 E lat declin) ∧ dayLength (f0 E lat declin) ≤ 12) := by
  have hr := rads_pos (K := ℝ)
  have hpi := Real.pi_pos
  obtain ⟨hl, hd⟩ := angles ⟨h0, hle.trans hmax⟩ hdeclin
  obtain ⟨hl', -⟩ := angles ⟨h0.trans hle, hmax⟩ hdeclin
  obtain ⟨-, hd'⟩ := angles ⟨h0, hle.trans hmax⟩ hdeclin'
  have htan0 : 0 ≤ Real.tan (lat * rads) := Real.tan_nonneg_of_nonneg_of_le_pi_div_two hl.1 hl.2.le
  have htan : Real.tan (lat * rads) ≤ Real.tan (lat' * rads) :=
    tan_mono ⟨by linarith [hl.1], hl.2⟩ ⟨by linarith [hl'.1], hl'.2⟩ (mul_le_mul_of_nonneg_right hle hr.le)
  have hlen {x y z w : ℝ} (h : product E sunriseDip x z ≤ product E sunriseDip y w) :
      dayLength (f0 E x z) ≤ dayLength (f0 E y w) := by
    rw [f0_eq, f0_eq]
    exact dayLength_mono (hourAngle_mono hE h)
  refine ⟨?_, ?_, ?_⟩
  · intro h
    apply hlen
    rw [product_north hE h0, product_north hE h0]
    exact mul_le_mul_of_nonneg_right (tan_mono hd hd' (by linarith)) htan0
  · intro h
    have hs : 0 ≤ Real.tan (declin + sunriseDip) := Real.tan_nonneg_of_nonneg_of_le_pi_div_two h hd.2.le
    constructor
    · apply hlen
      rw [product_north hE h0, product_north hE (h0.trans hle)]
      exact mul_le_mul_of_nonneg_left htan hs
    · apply twelve_le hE
      rw [product_north hE h0]
      exact mul_nonneg hs htan0
  · intro h
    have hs : Real.tan (declin + sunriseDip) ≤ 0 := Real.tan_nonpos_of_nonpos_of_neg_pi_div_two_le h hd.1.le
    constructor
    · apply hlen
      rw [product_north hE h0, product_north hE (h0.trans hle)]
      exact mul_le_mul_of_nonpos_left htan hs
    · apply le_twelve hE
      rw [product_north hE h0]
      exact mul_nonpos_of_nonpos_of_nonneg hs htan0

/-! ## Both hemispheres -/

/-- At `l` degrees from the equator, to the north or the south: days are the
longer the further the sun is on that side; on one day they grow from the
equator to the pole, and have twelve hours or more, while it is on that side,
and shrink and have twelve hours at most while it is on the other. -/
theorem day_lengths {c c' : Clock} (hc : 1901 ≤ c.date.year ∧ c.date.year ≤ 2099)
    (hc' : 1901 ≤ c'.date.year ∧ c'.date.year ≤ 2099) {side l l' : ℝ} (hside : side = 1 ∨ side = -1) (h0 : 0 ≤ l)
    (hle : l ≤ l') (hmax : l' ≤ 67.3) (lon : ℝ) :
    let delta c := (calcSun E (side * l) lon (Clock.now c)).delta
    let daylen l c := (calcSun E (side * l) lon (Clock.now c)).daylen
    (side * delta c ≤ side * delta c' → daylen l c ≤ daylen l c') ∧
      (0 ≤ side * delta c + sunriseDip → daylen l c ≤ daylen l' c ∧ 12 ≤ daylen l c) ∧
      (side * delta c + sunriseDip ≤ 0 → daylen l' c ≤ daylen l c ∧ daylen l c ≤ 12) := by
  have hodd : ∀ x, E.tan (-x) = -E.tan x := by
    rw [hE.tan]
    exact Real.tan_neg
  intro delta daylen
  -- the south is the north with the sun on the other side
  have hflip (l : ℝ) (c : Clock) : daylen l c = dayLength (f0 E l (side * delta c)) := by
    change dayLength (f0 E (side * l) (delta c)) = _
    rcases hside with rfl | rfl
    · rw [one_mul, one_mul]
    · rw [neg_one_mul, neg_one_mul, f0_eq, f0_eq, ← hourAngle_neg hodd, neg_neg]
  have hdeclin {c : Clock} (hc : 1901 ≤ c.date.year ∧ c.date.year ≤ 2099) : |side * delta c| ≤ 23.5 * rads := by
    have h := declination_le hE (inRange_dayOf hc.1 hc.2)
    rw [abs_mul]
    rcases hside with rfl | rfl
    · rwa [abs_one, one_mul]
    · rwa [abs_neg, abs_one, one_mul]
  rw [hflip, hflip, hflip]
  exact north hE h0 hle hmax (hdeclin hc) (hdeclin hc')

end

/-- The southern hemisphere in March, at 30 and 60 degrees. -/
theorem day_lengths_march :
    let delta c := (calcSun realEnv (-1 * 30) 15 (Clock.now c)).delta
    let daylen l c := (calcSun realEnv (-1 * l) 15 (Clock.now c)).daylen
    let c := march 20 0 0 (by decide)
    let c' := march 30 0 0 (by decide)
    (-1 * delta c ≤ -1 * delta c' → daylen 30 c ≤ daylen 30 c') ∧
      (0 ≤ -1 * delta c + sunriseDip → daylen 30 c ≤ daylen 60 c ∧ 12 ≤ daylen 30 c) ∧
      (-1 * delta c + sunriseDip ≤ 0 → daylen 60 c ≤ daylen 30 c ∧ daylen 30 c ≤ 12) :=
  day_lengths onReals_realEnv (by decide) (by decide) (.inr rfl) (by norm_num) (by norm_num) (by norm_num) 15

end VscpAutomation.DayLength
