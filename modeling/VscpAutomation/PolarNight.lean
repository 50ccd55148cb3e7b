import VscpAutomation.HourAngle
/-!
# Polar night

`asin` has no value for a number below -1, and the clamp of `f0` and `f1` cuts
off at the upper end only. So where the sun stays more than `sunriseDip` below
the horizon all day, NaN goes through the guard that should make the day 0
hours long (`hour_angles_defined_iff`).
-/

namespace VscpAutomation.PolarNight

open HourAngle

/-! ## Numbers that may be NaN -/

section
variable {K : Type} [Field K] [LinearOrder K] (E : Env K)

/-- `asin` of `<math.h>`; `none` is NaN. -/
def asinOrNaN (x : K) : Option K := if -1 ≤ x ∧ x ≤ 1 then some (E.asin x) else none

/-- The hour angle that `f0` and `f1` return. -/
def hourAngleOrNaN (dip lat declin : K) : Option K :=
  (asinOrNaN E (clamp (product E dip lat declin))).map fun x => x + pi / 2.0

/-- `daylen` of `doCalc`: NaN is not less than 0.0001 and stays NaN. -/
def dayLengthOrNaN (lat declin : K) : Option K := (hourAngleOrNaN E sunriseDip lat declin).map dayLength

def rawTimesOrNaN (lat declin m_longitude tzone equation : K) : Option (Times K) :=
  (hourAngleOrNaN E sunriseDip lat declin).bind fun ha =>
    (hourAngleOrNaN E twilightDip lat declin).map fun hb => rawTimes ha hb m_longitude tzone equation

/-- What `doCalc` needs of a latitude and a declination. -/
structure Defined (lat declin : K) : Prop where
  sunrise_arg : clamp (product E sunriseDip lat declin) ∈ Set.Icc (-1) 1
  twilight_arg : clamp (product E twilightDip lat declin) ∈ Set.Icc (-1) 1
  sunrise_angle : (hourAngleOrNaN E sunriseDip lat declin).isSome
  twilight_angle : (hourAngleOrNaN E twilightDip lat declin).isSome
  daylen : (dayLengthOrNaN E lat declin).isSome
  times : ∀ m_longitude tzone equation, (rawTimesOrNaN E lat declin m_longitude tzone equation).isSome
  /-- The sun does not rise. -/
  no_day : product E sunriseDip lat declin ≤ -1 → dayLengthOrNaN E lat declin = some 0

theorem hourAngleOrNaN_some {dip lat declin : K} (h : clamp (product E dip lat declin) ∈ Set.Icc (-1) 1) :
    hourAngleOrNaN E dip lat declin = some (hourAngle E dip lat declin) := by
  unfold hourAngleOrNaN asinOrNaN
  rw [if_pos (Set.mem_Icc.1 h)]
  rfl

end

/-! ## When the sun rises -/

/-- The product of two tangents is -1 where their angles are a quarter turn apart. -/
theorem neg_one_le_tan_mul_tan {a b : ℝ} (ha : |a| < Real.pi / 2) (hb : |b| < Real.pi / 2) :
    -1 ≤ Real.tan a * Real.tan b ↔ |b - a| ≤ Real.pi / 2 := by
  have hcos {x : ℝ} (h : |x| < Real.pi / 2) : 0 < Real.cos x := Real.cos_pos_of_mem_Ioo (abs_lt.1 h)
  have hca := hcos ha
  have hcb := hcos hb
  have hsub : Real.cos (b - a) = Real.cos a * Real.cos b * (1 + Real.tan a * Real.tan b) := by
    rw [Real.cos_sub, Real.tan_eq_sin_div_cos, Real.tan_eq_sin_div_cos]
    field_simp
  have hpos : 0 ≤ Real.cos (b - a) ↔ -1 ≤ Real.tan a * Real.tan b := by
    rw [hsub, mul_nonneg_iff_of_pos_left (mul_pos hca hcb)]
    constructor <;> intro h <;> linarith
  rw [← hpos, ← Real.cos_abs]
  constructor
  · intro h
    by_contra! hgt
    have hlt : |b - a| < Real.pi + Real.pi / 2 := by
      have := abs_sub b a
      linarith [Real.pi_pos]
    exact (Real.cos_neg_of_pi_div_two_lt_of_lt hgt hlt).not_ge h
  · intro h
    have := abs_nonneg (b - a)
    exact Real.cos_nonneg_of_mem_Icc ⟨by linarith [Real.pi_pos], h⟩

variable {E : Env ℝ} {lat declin : ℝ}

/-- The product is -1 or more where noon has the sun no lower than `dip`. -/
theorem neg_one_le_product (htan : E.tan = Real.tan) (hlat : -90 < lat ∧ lat < 90)
    (hdeclin : -(23.5 * rads) ≤ declin ∧ declin ≤ 23.5 * rads) {dip : ℝ} (h0 : 0 ≤ dip)
    (h6 : dip ≤ 6 * rads) :
    -1 ≤ product E dip lat declin ↔ |lat * rads - declin| ≤ Real.pi / 2 + dip := by
  have hr := rads_pos (K := ℝ)
  have hpi := pi_lt_real
  have hhalf := half_pi (K := ℝ)
  norm_num only at hdeclin
  have hl : |lat * rads| < Real.pi / 2 := by
    rw [abs_lt]
    constructor <;> nlinarith
  unfold product
  norm_num only
  rw [htan]
  by_cases hneg : lat < 0
  · have hlr : lat * rads < 0 := mul_neg_of_neg_of_pos hneg hr
    rw [if_pos hneg, neg_one_le_tan_mul_tan (abs_lt.2 ⟨by linarith, by linarith⟩) hl, abs_le, abs_le]
    constructor <;> rintro ⟨h1, h2⟩ <;> constructor <;> linarith
  · have hlr : 0 ≤ lat * rads := mul_nonneg (not_lt.1 hneg) hr.le
    rw [if_neg hneg, neg_one_le_tan_mul_tan (abs_lt.2 ⟨by linarith, by linarith⟩) hl, abs_le, abs_le]
    constructor <;> rintro ⟨h1, h2⟩ <;> constructor <;> linarith

theorem dayLength_of_nonpos {ha : ℝ} (h : ha ≤ 0) : dayLength ha = 0 := by
  have hdegs : (0 : ℝ) ≤ degs := by
    unfold degs
    exact div_nonneg (by norm_num) Angle.pi_pos.le
  have hneg : degs * ha / 7.5 ≤ 0 :=
    div_nonpos_of_nonpos_of_nonneg (mul_nonpos_of_nonneg_of_nonpos hdegs h) (by norm_num)
  unfold dayLength
  dsimp only
  rw [if_pos (hneg.trans_lt (by norm_num))]
  norm_num

/-- Where the product is just -1, `asin` still has a value and the day is empty. -/
theorem dayLengthOrNaN_neg_one (hasin : E.asin (-1) = -(Real.pi / 2)) (h : product E sunriseDip lat declin = -1) :
    dayLengthOrNaN E lat declin = some 0 := by
  have hmem : clamp (product E sunriseDip lat declin) ∈ Set.Icc (-1 : ℝ) 1 := (clamp_mem _).2 h.ge
  have hclamp : clamp (-1 : ℝ) = -1 := by
    unfold clamp
    rw [if_neg (by norm_num)]
  have hle : hourAngle E sunriseDip lat declin ≤ 0 := by
    have := pi_lt_real
    unfold hourAngle
    rw [h, hclamp, hasin]
    norm_num only
    linarith
  unfold dayLengthOrNaN
  rw [hourAngleOrNaN_some E hmem, Option.map_some, dayLength_of_nonpos hle]

/-- All is defined where the sun at noon is no more than `sunriseDip` below the
horizon. -/
theorem hour_angles_defined_iff (E : Env ℝ) (htan : E.tan = Real.tan) (hasin : E.asin (-1) = -(Real.pi / 2))
    (lat declin : ℝ) (hlat : -90 < lat ∧ lat < 90)
    (hdeclin : -(23.5 * rads) ≤ declin ∧ declin ≤ 23.5 * rads) :
    Defined E lat declin ↔ |lat * rads - declin| ≤ Real.pi / 2 + sunriseDip := by
  obtain ⟨hd0, hd, hd6⟩ := dips (K := ℝ)
  have hsunrise := neg_one_le_product htan hlat hdeclin hd0 (hd.trans hd6.le)
  have htwilight := neg_one_le_product htan hlat hdeclin (hd0.trans hd) hd6.le
  constructor
  · intro h
    exact hsunrise.1 ((clamp_mem _).1 h.sunrise_arg)
  · intro h
    -- the twilight reaches further than the day
    have h0 := hsunrise.2 h
    have h1 := htwilight.2 (h.trans (by linarith))
    have ha := hourAngleOrNaN_some E ((clamp_mem _).2 h0)
    have hb := hourAngleOrNaN_some E ((clamp_mem _).2 h1)
    refine ⟨(clamp_mem _).2 h0, (clamp_mem _).2 h1, by rw [ha]; rfl, by rw [hb]; rfl, ?_, ?_, ?_⟩
    · unfold dayLengthOrNaN
      rw [ha]
      rfl
    · intro m_longitude tzone equation
      unfold rawTimesOrNaN
      rw [ha, hb]
      rfl
    · intro hle
      exact dayLengthOrNaN_neg_one hasin (le_antisymm hle h0)

/-- Helsinki in summer. -/
theorem hour_angles_defined_helsinki :
    Defined realEnv 60 (20 * rads) ↔ |60 * rads - 20 * rads| ≤ Real.pi / 2 + sunriseDip := by
  have hr := rads_pos (K := ℝ)
  exact hour_angles_defined_iff realEnv rfl Real.arcsin_neg_one 60 (20 * rads) (by norm_num)
    ⟨by norm_num only; linarith, by norm_num only; linarith⟩

/-- At 80 degrees in December the sun is 13 degrees below the horizon at noon. -/
theorem polar_night_undefined :
    ¬ ∀ lat declin : ℝ, -90 < lat ∧ lat < 90 → -(23.5 * rads) ≤ declin ∧ declin ≤ 23.5 * rads →
      Defined realEnv lat declin := by
  intro h
  obtain ⟨hd0, hd, hd6⟩ := dips (K := ℝ)
  have hr := rads_pos (K := ℝ)
  have hpi := Real.pi_lt_d4
  have hlat : -90 < (80 : ℝ) ∧ (80 : ℝ) < 90 := by norm_num
  have hdeclin : -(23.5 * rads : ℝ) ≤ -(23 * rads) ∧ (-(23 * rads) : ℝ) ≤ 23.5 * rads := by
    norm_num only
    constructor <;> linarith
  have harg := (clamp_mem _).1 (h 80 (-(23 * rads)) hlat hdeclin).sunrise_arg
  have hle := (neg_one_le_product rfl hlat hdeclin hd0 (hd.trans hd6.le)).1 harg
  have hrads : (rads : ℝ) = 3.14159 / 180.0 := rfl
  have habs : |(80 : ℝ) * rads - -(23 * rads)| = 103 * rads := by
    rw [abs_of_pos (by linarith)]
    ring
  rw [habs] at hle
  norm_num at hrads hpi
  linarith

end VscpAutomation.PolarNight
