import VscpAutomation.TimeOfDay
import VscpAutomation.RealNumbers
import Mathlib.Analysis.Real.Pi.Bounds
/-!
# Hour angles

`f0` and `f1` are one function (`hourAngle`) of how far below the horizon the
sun is. It is the same north and south of the equator (`hemispheres`), and
grows with that depth (`hourAngle_mono`), so the five times come in their
order (`natural_order`).
-/

namespace VscpAutomation.HourAngle

open CAutomation TimeOfDay

/-! ## One function -/

section
variable {K : Type} [Field K]

/-- How far the sun's centre is below the horizon at sunrise. -/
def sunriseDip : K := rads * (0.5 * SunDia + AirRefr)

/-- How far it is when the civil twilight begins. -/
def twilightDip : K := rads * 6.0

variable [LinearOrder K] (E : Env K)

/-- What is clamped before `asin`. -/
def product (dip lat declin : K) : K :=
  E.tan (declin + if lat < 0.0 then -dip else dip) * E.tan (lat * rads)

/-- The clamp "to avoid overflow". -/
def clamp (x : K) : K := if x > 0.99999 then 1.0 else x

def hourAngle (dip lat declin : K) : K := E.asin (clamp (product E dip lat declin)) + pi / 2.0

theorem f0_eq (lat declin : K) : f0 E lat declin = hourAngle E sunriseDip lat declin := rfl

theorem f1_eq (lat declin : K) : f1 E lat declin = hourAngle E twilightDip lat declin := rfl

end

variable {K : Type} [Field K] [LinearOrder K] [IsStrictOrderedRing K]

theorem rads_pos : (0 : K) < rads := by
  unfold rads
  have := Angle.pi_pos (K := K)
  norm_num [this]

/-- A quarter turn is 90 degrees. -/
theorem half_pi : (pi / 2 : K) = 90 * rads := by
  have h : (180.0 : K) = 180 := by norm_num
  rw [rads, h]
  ring

/-! ## Both hemispheres -/

section
variable {E : Env K} (hodd : ∀ x, E.tan (-x) = -E.tan x)
include hodd

theorem tan_zero : E.tan 0 = 0 := by
  have h := hodd 0
  rw [neg_zero] at h
  linarith

theorem product_neg (dip lat declin : K) : product E dip (-lat) (-declin) = product E dip lat declin := by
  unfold product
  rw [neg_mul, hodd]
  norm_num only
  rcases lt_trichotomy lat 0 with h | rfl | h
  · rw [if_neg (by linarith), if_pos h, neg_add_eq_sub, ← neg_sub, sub_eq_add_neg, hodd]
    ring
  · rw [zero_mul, tan_zero hodd]
    ring
  · rw [if_pos (by linarith), if_neg (by linarith), ← neg_add, hodd]
    ring

theorem hourAngle_neg (dip lat declin : K) : hourAngle E dip (-lat) (-declin) = hourAngle E dip lat declin := by
  unfold hourAngle
  rw [product_neg hodd]

end

theorem maxAltitude_eq (lat delta : K) : maxAltitude lat delta = 90 - |lat - delta * degs| := by
  unfold maxAltitude
  norm_num only
  split
  · rename_i h
    rw [abs_of_neg (sub_neg.2 h)]
    ring
  · rename_i h
    rw [abs_of_nonneg (sub_nonneg.2 (not_lt.1 h))]
    ring

/-- Latitude and declination with their signs changed give the same hour
angles, day and twilight lengths and altitude. -/
theorem hemispheres (E : Env K) [FloorRing K] (hodd : ∀ x, E.tan (-x) = -E.tan x) (lat delta : K) :
    f0 E (-lat) (-delta) = f0 E lat delta ∧ f1 E (-lat) (-delta) = f1 E lat delta ∧
      dayLength (f0 E (-lat) (-delta)) = dayLength (f0 E lat delta) ∧
      twilightLength (f0 E (-lat) (-delta)) (f1 E (-lat) (-delta)) =
        twilightLength (f0 E lat delta) (f1 E lat delta) ∧
      maxAltitude (-lat) (-delta) = maxAltitude lat delta ∧
      maxAltitude lat delta = 90 - |lat - delta * degs| := by
  have h0 : f0 E (-lat) (-delta) = f0 E lat delta := hourAngle_neg hodd sunriseDip lat delta
  have h1 : f1 E (-lat) (-delta) = f1 E lat delta := hourAngle_neg hodd twilightDip lat delta
  refine ⟨h0, h1, by rw [h0], by rw [h0, h1], ?_, maxAltitude_eq lat delta⟩
  rw [maxAltitude_eq, maxAltitude_eq, neg_mul, neg_sub_neg, abs_sub_comm]

/-- An arctic place in June, and its counterpart in December. -/
theorem hemispheres_arctic :
    let lat : ℝ := 67.85
    let delta : ℝ := 23.4 * rads
    f0 realEnv (-lat) (-delta) = f0 realEnv lat delta ∧ f1 realEnv (-lat) (-delta) = f1 realEnv lat delta ∧
      dayLength (f0 realEnv (-lat) (-delta)) = dayLength (f0 realEnv lat delta) ∧
      twilightLength (f0 realEnv (-lat) (-delta)) (f1 realEnv (-lat) (-delta)) =
        twilightLength (f0 realEnv lat delta) (f1 realEnv lat delta) ∧
      maxAltitude (-lat) (-delta) = maxAltitude lat delta ∧
      maxAltitude lat delta = 90 - |lat - delta * degs| :=
  hemispheres realEnv Real.tan_neg 67.85 (23.4 * rads)

/-! ## The order of the times -/

theorem clamp_mono : Monotone (clamp : K → K) := by
  intro x y h
  unfold clamp
  norm_num only
  split
  · rw [if_pos (by linarith)]
  · split
    · linarith
    · exact h

theorem clamp_le_one (x : K) : clamp x ≤ 1 := by
  unfold clamp
  norm_num only
  split
  · exact le_rfl
  · linarith

/-- The clamp cuts off above 1 only. -/
theorem clamp_mem (x : K) : clamp x ∈ Set.Icc (-1 : K) 1 ↔ -1 ≤ x := by
  rw [Set.mem_Icc, and_iff_left (clamp_le_one x)]
  unfold clamp
  norm_num only
  split
  · constructor <;> intro <;> linarith
  · rfl

section
variable {E : Env K} (hodd : ∀ x, E.tan (-x) = -E.tan x)
  (htan : MonotoneOn E.tan (Set.Ioo (-(pi / 2)) (pi / 2)))
include hodd htan

/-- The lower the sun has to be, the larger the product. -/
theorem product_mono {dip dip' lat declin : K} (hlat : -90 < lat ∧ lat < 90)
    (hdeclin : -(24 * rads) ≤ declin ∧ declin ≤ 24 * rads) (h0 : 0 ≤ dip) (hle : dip ≤ dip')
    (h6 : dip' ≤ 6 * rads) : product E dip lat declin ≤ product E dip' lat declin := by
  have hr := rads_pos (K := K)
  have hzero : (0 : K) ∈ Set.Ioo (-(pi / 2)) (pi / 2) := by
    rw [half_pi]
    constructor <;> linarith
  have hl : lat * rads ∈ Set.Ioo (-(pi / 2)) (pi / 2) := by
    rw [half_pi]
    constructor <;> nlinarith
  have hmem {x : K} (h1 : -(30 * rads) ≤ x) (h2 : x ≤ 30 * rads) : x ∈ Set.Ioo (-(pi / 2)) (pi / 2) := by
    rw [half_pi]
    constructor <;> linarith
  unfold product
  norm_num only
  by_cases hneg : lat < 0
  · -- in the south both factors change their signs
    rw [if_pos hneg, if_pos hneg]
    have h1 : E.tan (declin + -dip') ≤ E.tan (declin + -dip) :=
      htan (hmem (by linarith) (by linarith)) (hmem (by linarith) (by linarith)) (by linarith)
    have h2 : E.tan (lat * rads) ≤ 0 := by
      rw [← tan_zero hodd]
      exact htan hl hzero (mul_nonpos_of_nonpos_of_nonneg hneg.le hr.le)
    exact mul_le_mul_of_nonpos_right h1 h2
  · rw [if_neg hneg, if_neg hneg]
    have h1 : E.tan (declin + dip) ≤ E.tan (declin + dip') :=
      htan (hmem (by linarith) (by linarith)) (hmem (by linarith) (by linarith)) (by linarith)
    have h2 : 0 ≤ E.tan (lat * rads) := by
      rw [← tan_zero hodd]
      exact htan hzero hl (mul_nonneg (not_lt.1 hneg) hr.le)
    exact mul_le_mul_of_nonneg_right h1 h2

end

theorem dips : (0 : K) ≤ sunriseDip ∧ (sunriseDip : K) ≤ twilightDip ∧ (twilightDip : K) = 6 * rads := by
  have hr := rads_pos (K := K)
  unfold sunriseDip twilightDip SunDia AirRefr
  norm_num only
  refine ⟨by positivity, ?_, mul_comm _ _⟩
  exact mul_le_mul_of_nonneg_left (by norm_num) hr.le

variable [FloorRing K]

/-- A later time of one day is published as a later minute. -/
theorem minuteOfDay_mono {a b : K} (h0 : 0 ≤ a) (hab : a ≤ b) (hb : b < 24) :
    minuteOfDay (convert2HourMinute a) ≤ minuteOfDay (convert2HourMinute b) := by
  have hday {t : K} (h : 0 ≤ t) (h24 : t < 24) : minuteOfDay (convert2HourMinute t) = ⌊60 * t⌋ := by
    have h1 : 0 ≤ ⌊60 * t⌋ := Int.floor_nonneg.2 (by linarith)
    have h2 : ⌊60 * t⌋ < 1440 := Int.floor_lt.2 (by push_cast; linarith)
    rw [minuteOfDay_nonneg h]
    omega
  rw [hday h0 (by linarith), hday (h0.trans hab) hb]
  exact Int.floor_le_floor (by linarith)

/-- The twilight is not negative and noon is in the middle of the day; on a day
that holds the five times, they are published in their order. -/
structure InOrder (ha hb : K) : Prop where
  twilight : ha ≤ hb ∧ 0 ≤ twilightLength ha hb
  times : ∀ m_longitude tzone equation,
    let t := rawTimes ha hb m_longitude tzone equation
    let minute := fun k => minuteOfDay (convert2HourMinute (timeOf t.wrap k))
    t.noonTime = (t.sunriseTime + t.sunsetTime) / 2 ∧
      ((∀ k, 0 ≤ timeOf t k ∧ timeOf t k < 24) →
        minute .civilTwilightSunrise ≤ minute .sunrise ∧ minute .sunrise ≤ minute .noon ∧
          minute .noon ≤ minute .sunset ∧ minute .sunset ≤ minute .civilTwilightSunset)

theorem inOrder_of_le {ha hb : K} (h0 : 0 ≤ ha) (hab : ha ≤ hb) : InOrder ha hb := by
  have hours0 : 0 ≤ hours ha := hours_zero (K := K) ▸ hours_mono h0
  have hours1 := hours_mono hab
  refine ⟨⟨hab, ?_⟩, fun m_longitude tzone equation => ⟨?_, ?_⟩⟩
  · have := Angle.pi_pos (K := K)
    unfold twilightLength
    norm_num only
    exact div_nonneg (mul_nonneg (by norm_num) (sub_nonneg.2 hab)) this.le
  · have hr := timeOf_rawTimes ha hb m_longitude tzone equation
    have hnoon := hr .noon
    have hrise := hr .sunrise
    have hset := hr .sunset
    simp only [timeOf, fromNoon] at hnoon hrise hset
    rw [hnoon, hrise, hset]
    ring
  · intro hday
    have hstep (k k' : Kind) (h : fromNoon ha hb k ≤ fromNoon ha hb k') :
        minuteOfDay (convert2HourMinute (timeOf (rawTimes ha hb m_longitude tzone equation).wrap k)) ≤
          minuteOfDay (convert2HourMinute (timeOf (rawTimes ha hb m_longitude tzone equation).wrap k')) := by
      rw [convert2HourMinute_wrap, convert2HourMinute_wrap]
      refine minuteOfDay_mono (hday k).1 ?_ (hday k').2
      rw [timeOf_rawTimes, timeOf_rawTimes]
      linarith
    refine ⟨hstep _ _ ?_, hstep _ _ ?_, hstep _ _ ?_, hstep _ _ ?_⟩ <;> simp only [fromNoon] <;> linarith

/-- Where `f0` and `f1` have numbers, their hour angles are in order and not
negative, and so are the times of the day. -/
theorem natural_order (E : Env K) (lat declin : K) (hlat : -90 < lat ∧ lat < 90)
    (hdeclin : -(24 * rads) ≤ declin ∧ declin ≤ 24 * rads) (hodd : ∀ x, E.tan (-x) = -E.tan x)
    (htan : MonotoneOn E.tan (Set.Ioo (-(pi / 2)) (pi / 2))) (hasin : MonotoneOn E.asin (Set.Icc (-1) 1))
    (hrange : ∀ x ∈ Set.Icc (-1 : K) 1, -(pi / 2) ≤ E.asin x ∧ E.asin x ≤ pi / 2)
    (h0 : clamp (product E sunriseDip lat declin) ∈ Set.Icc (-1 : K) 1)
    (h1 : clamp (product E twilightDip lat declin) ∈ Set.Icc (-1 : K) 1) :
    InOrder (f0 E lat declin) (f1 E lat declin) := by
  obtain ⟨hd0, hd, hd6⟩ := dips (K := K)
  rw [f0_eq, f1_eq, hourAngle, hourAngle]
  norm_num only
  refine inOrder_of_le ?_ ?_
  · linarith [(hrange _ h0).1]
  · have := hasin h0 h1 (clamp_mono (product_mono hodd htan hlat hdeclin hd0 hd hd6.le))
    linarith

/-! ## A day at 30 degrees -/

/-- `arcsin` with its ends cut off where the file's `pi` ends. -/
noncomputable def cutEnv : Env ℝ :=
  { realEnv with asin := fun x => max (-(pi / 2.0)) (min (pi / 2.0) (Real.arcsin x)) }

theorem pi_lt_real : (pi : ℝ) < Real.pi := by
  have := Real.pi_gt_d6
  unfold pi
  norm_num
  linarith

theorem tan_monotoneOn : MonotoneOn Real.tan (Set.Ioo (-(pi / 2)) (pi / 2)) := by
  have := pi_lt_real
  exact Real.strictMonoOn_tan.monotoneOn.mono (Set.Ioo_subset_Ioo (by linarith) (by linarith))

theorem asin_cut (x : ℝ) : -(pi / 2) ≤ cutEnv.asin x ∧ cutEnv.asin x ≤ pi / 2 := by
  have := Angle.pi_pos (K := ℝ)
  have h2 : (2.0 : ℝ) = 2 := by norm_num
  unfold cutEnv
  dsimp only
  rw [h2]
  exact ⟨le_max_left _ _, max_le (by linarith) (min_le_left _ _)⟩

/-- North of the equator in summer both products are small and positive. -/
theorem product_june {dip : ℝ} (h0 : 0 ≤ dip) (h6 : dip ≤ 6 * rads) :
    0 ≤ product cutEnv dip 30 (10 * rads) ∧ product cutEnv dip 30 (10 * rads) ≤ 1 / 2 := by
  have hr := rads_pos (K := ℝ)
  have hpi := pi_lt_real
  have h30 : (30 * rads : ℝ) ≤ Real.pi / 6 := by
    have := half_pi (K := ℝ)
    linarith
  have hsix : Real.tan (Real.pi / 6) = 1 / √3 := Real.tan_pi_div_six
  have htan {x : ℝ} (hx0 : 0 ≤ x) (hx : x ≤ 30 * rads) : 0 ≤ Real.tan x ∧ Real.tan x ≤ 1 / √3 := by
    refine ⟨Real.tan_nonneg_of_nonneg_of_le_pi_div_two hx0 (by linarith), ?_⟩
    rw [← hsix]
    exact Real.strictMonoOn_tan.monotoneOn ⟨by linarith, by linarith⟩ ⟨by linarith, by linarith⟩ (by linarith)
  obtain ⟨ha0, ha1⟩ := htan (x := 10 * rads + dip) (by linarith) (by linarith)
  obtain ⟨hb0, hb1⟩ := htan (x := 30 * rads) (by linarith) le_rfl
  have hprod : product cutEnv dip 30 (10 * rads) = Real.tan (10 * rads + dip) * Real.tan (30 * rads) := by
    unfold product
    norm_num only
    rfl
  rw [hprod]
  refine ⟨mul_nonneg ha0 hb0, (mul_le_mul ha1 hb1 hb0 (by positivity)).trans ?_⟩
  rw [div_mul_div_comm, one_mul, Real.mul_self_sqrt (by norm_num)]
  norm_num

/-- The twilight's hour angle is far from `pi`. -/
theorem hours_june : hours (f1 cutEnv 30 (10 * rads)) < 12 := by
  obtain ⟨hd0, hd, hd6⟩ := dips (K := ℝ)
  obtain ⟨hb0, hb1⟩ := product_june (hd0.trans hd) hd6.le
  have hclamp : clamp (product cutEnv twilightDip 30 (10 * rads)) = product cutEnv twilightDip 30 (10 * rads) := by
    unfold clamp
    rw [if_neg (by norm_num; linarith)]
  have hasin : Real.arcsin (product cutEnv twilightDip 30 (10 * rads)) ≤ Real.pi / 6 := by
    have hpi := Real.pi_pos
    rw [Real.arcsin_le_iff_le_sin ⟨by linarith, by linarith⟩ ⟨by linarith, by linarith⟩, Real.sin_pi_div_six]
    exact hb1
  have hcut : cutEnv.asin (product cutEnv twilightDip 30 (10 * rads)) < pi / 2 := by
    have hpi : (pi : ℝ) = 3.14159 := rfl
    have hlt := Real.pi_lt_d2
    have h2 : (2.0 : ℝ) = 2 := by norm_num
    unfold cutEnv at hasin ⊢
    dsimp only at hasin ⊢
    rw [h2]
    refine max_lt (by linarith [Angle.pi_pos (K := ℝ)]) ((min_le_right _ _).trans_lt (hasin.trans_lt ?_))
    norm_num at hpi hlt ⊢
    linarith
  have hpi := Angle.pi_pos (K := ℝ)
  rw [← hours_pi (K := ℝ)]
  unfold hours
  rw [div_lt_div_iff_of_pos_right hpi, f1_eq, hourAngle, hclamp]
  norm_num only
  linarith

/-- At 30 degrees in June the sun is up for a day of numbers, and the five
minutes are in order. -/
theorem natural_order_june :
    InOrder (f0 cutEnv 30 (10 * rads)) (f1 cutEnv 30 (10 * rads)) ∧
      ∀ k, let t := rawTimes (f0 cutEnv 30 (10 * rads)) (f1 cutEnv 30 (10 * rads)) 15 1 0
        0 ≤ timeOf t k ∧ timeOf t k < 24 := by
  obtain ⟨hd0, hd, hd6⟩ := dips (K := ℝ)
  have hr := rads_pos (K := ℝ)
  obtain ⟨ha0, -⟩ := product_june hd0 (hd.trans hd6.le)
  obtain ⟨hb0, -⟩ := product_june (hd0.trans hd) hd6.le
  have horder : InOrder (f0 cutEnv 30 (10 * rads)) (f1 cutEnv 30 (10 * rads)) := by
    refine natural_order cutEnv 30 (10 * rads) (by norm_num) ⟨by linarith, by linarith⟩ Real.tan_neg
      tan_monotoneOn ?_ (fun x _ => asin_cut x) ((clamp_mem _).2 (by linarith)) ((clamp_mem _).2 (by linarith))
    intro x _ y _ h
    exact max_le_max le_rfl (min_le_min le_rfl (Real.monotone_arcsin h))
  refine ⟨horder, ?_⟩
  intro k
  have hlt := hours_june
  have hnoon : noon (15 : ℝ) 1 0 = 12 := by norm_num [noon]
  obtain ⟨⟨hab, -⟩, -⟩ := horder
  have h0 : 0 ≤ f0 cutEnv 30 (10 * rads) := by
    rw [f0_eq, hourAngle]
    have := (asin_cut (clamp (product cutEnv sunriseDip 30 (10 * rads)))).1
    norm_num only
    linarith
  have hfrom := abs_le.1 (abs_fromNoon_le h0 hab k)
  dsimp only
  rw [timeOf_rawTimes, hnoon]
  constructor <;> linarith

end VscpAutomation.HourAngle
