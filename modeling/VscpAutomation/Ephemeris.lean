import VscpAutomation.PolarNight
import VscpAutomation.DayNumber
import VscpAutomation.Lib.RightAscension
/-!
# The sun's place in the sky

`sunPosition` on real numbers, on the dates from 1901 to 2099. The declination
stays within the obliquity. The equation of time is within 20 minutes, but for
whole days: near the autumn equinox, where `L` and `lambda` are on two sides of
half a turn, it comes out a day too late, never a day too early.
-/

namespace VscpAutomation.Ephemeris

open HourAngle RightAscension

/-- The functions of `<math.h>` are those on `ℝ`. -/
structure OnReals (E : Env ℝ) : Prop where
  sin : E.sin = Real.sin
  cos : E.cos = Real.cos
  tan : E.tan = Real.tan
  asin : E.asin = Real.arcsin
  atan2 : ∀ y x, E.atan2 y x = Complex.arg ⟨x, y⟩

theorem onReals_realEnv : OnReals realEnv := ⟨rfl, rfl, rfl, rfl, fun _ _ => rfl⟩

theorem pi_eq : (pi : ℝ) = 3.14159 := rfl

theorem rads_eq : (rads : ℝ) = 3.14159 / 180 := by
  unfold rads
  rw [pi_eq]
  norm_num

/-! ## Declination -/

/-- The obliquity of the ecliptic. -/
noncomputable def obliq (d : ℝ) : ℝ := 23.439 * rads - 0.0000004 * rads * d

/-- The days from 1901 to 2099 are among these. -/
def InRange (d : ℝ) : Prop := |d| ≤ 36600

theorem obliq_bounds {d : ℝ} (hd : InRange d) : 23.4 * rads ≤ obliq d ∧ obliq d ≤ 23.46 * rads := by
  obtain ⟨h1, h2⟩ := abs_le.1 hd
  have hr := rads_pos (K := ℝ)
  unfold obliq
  norm_num only
  constructor <;> nlinarith

theorem declination_le {E : Env ℝ} (hE : OnReals E) {d : ℝ} (hd : InRange d) :
    |(sunPosition E d).delta| ≤ 23.5 * rads := by
  obtain ⟨h1, h2⟩ := obliq_bounds hd
  have hr := rads_eq
  have hpi := Real.pi_gt_d2
  have h0 : 0 ≤ obliq d := by norm_num at h1 hr; linarith
  have hq : obliq d < Real.pi / 2 := by norm_num at h2 hr hpi; linarith
  have hsin : 0 ≤ Real.sin (obliq d) := Real.sin_nonneg_of_nonneg_of_le_pi h0 (by linarith)
  have hdelta : (sunPosition E d).delta = Real.arcsin (Real.sin (obliq d) * Real.sin (FNsun E d).lambda) := by
    unfold sunPosition
    dsimp only
    rw [hE.asin, hE.sin]
    rfl
  have hle : |Real.arcsin (Real.sin (obliq d) * Real.sin (FNsun E d).lambda)| ≤ obliq d := by
    rw [abs_le, Real.arcsin_le_iff_le_sin' ⟨by linarith, hq⟩, Real.le_arcsin_iff_sin_le' ⟨by linarith, by linarith⟩,
      Real.sin_neg]
    have hl1 := Real.neg_one_le_sin (FNsun E d).lambda
    have hl2 := Real.sin_le_one (FNsun E d).lambda
    constructor <;> nlinarith
  rw [hdelta]
  refine hle.trans ?_
  norm_num at h2 hr ⊢
  linarith

/-! ## Equation of time -/

/-- How far the sun is ahead of its mean place on the ecliptic. -/
noncomputable def centre (g : ℝ) : ℝ := 1.915 * rads * Real.sin g + 0.02 * rads * Real.sin (2.0 * g)

theorem abs_centre_le (g : ℝ) : |centre g| ≤ 0.034 := by
  have h1 := Real.neg_one_le_sin g
  have h2 := Real.sin_le_one g
  have h3 := Real.neg_one_le_sin (2.0 * g)
  have h4 := Real.sin_le_one (2.0 * g)
  unfold centre
  rw [rads_eq, abs_le]
  norm_num only at h3 h4 ⊢
  constructor <;> linarith

/-- The longitude is the mean one and the centre, up to whole turns. -/
theorem lambda_eq {E : Env ℝ} (hE : OnReals E) (d : ℝ) :
    ∃ n : ℤ, (FNsun E d).lambda = (FNsun E d).L + centre (FNsun E d).g + n * (2 * pi) := by
  have hlambda : (FNsun E d).lambda = FNrange ((FNsun E d).L + 1.915 * rads * E.sin (FNsun E d).g +
    0.02 * rads * E.sin (2 * (FNsun E d).g)) := rfl
  obtain ⟨n, hn⟩ := Angle.sub_FNrange ((FNsun E d).L + 1.915 * rads * E.sin (FNsun E d).g +
    0.02 * rads * E.sin (2 * (FNsun E d).g))
  have h2 : (2.0 : ℝ) = 2 := by norm_num
  refine ⟨-n, ?_⟩
  unfold centre
  rw [h2, ← hE.sin, hlambda]
  push_cast
  linarith

/-- So is the anomaly, from the perihelion on. -/
theorem g_eq (E : Env ℝ) (d : ℝ) :
    ∃ j : ℤ, (FNsun E d).g = (FNsun E d).L + (77.067 - 0.0000471 * d) * rads + j * (2 * pi) := by
  obtain ⟨j, hj⟩ := Angle.sub_FNrange (280.461 * rads + 0.9856474 * rads * d)
  obtain ⟨k, hk⟩ := Angle.sub_FNrange (357.528 * rads + 0.9856003 * rads * d)
  refine ⟨j - k, ?_⟩
  change FNrange _ = FNrange _ + _ + _
  push_cast
  norm_num only at hj hk ⊢
  linarith

/-- In autumn the sun is behind its mean place. -/
theorem centre_autumn (E : Env ℝ) {d : ℝ} (hd : InRange d) (h1 : pi - 0.08 ≤ (FNsun E d).L)
    (h2 : (FNsun E d).L ≤ pi) : centre (FNsun E d).g ≤ -0.016 := by
  obtain ⟨hd1, hd2⟩ := abs_le.1 hd
  obtain ⟨hg0, hg1⟩ := Angle.FNrange_mem (357.528 * rads + 0.9856003 * rads * d : ℝ)
  change 0 ≤ (FNsun E d).g at hg0
  change (FNsun E d).g < 2 * pi at hg1
  obtain ⟨j, hj⟩ := g_eq E d
  rw [rads_eq] at hj
  rw [pi_eq] at h1 h2 hg1 hj
  norm_num only at h1 h2 hg1 hj
  have hj0 : j = 0 := by
    have hlow : (-1 : ℝ) < j := by linarith
    have hhigh : (j : ℝ) < 1 := by linarith
    have hlow' : -1 < j := by exact_mod_cast hlow
    have hhigh' : j < 1 := by exact_mod_cast hhigh
    omega
  rw [hj0, Int.cast_zero, zero_mul, add_zero] at hj
  -- the anomaly is well past half a turn
  have hgt := Real.pi_gt_d2
  have hlt := Real.pi_lt_d2
  norm_num only at hgt hlt
  have hmono : Real.sin (Real.pi / 6) ≤ Real.sin ((FNsun E d).g - Real.pi) :=
    Real.sin_le_sin_of_le_of_le_pi_div_two (by linarith) (by linarith) (by linarith)
  rw [Real.sin_pi_div_six, Real.sin_sub_pi] at hmono
  have h4 := Real.sin_le_one (2.0 * (FNsun E d).g)
  unfold centre
  rw [rads_eq]
  norm_num only at h4 ⊢
  linarith

theorem cos_obliq {d : ℝ} (hd : InRange d) : 0.916 ≤ Real.cos (obliq d) ∧ Real.cos (obliq d) ≤ 1 := by
  obtain ⟨h1, h2⟩ := obliq_bounds hd
  rw [rads_eq] at h1 h2
  norm_num only at h1 h2
  have hcos := Real.one_sub_sq_div_two_le_cos (x := obliq d)
  refine ⟨?_, Real.cos_le_one _⟩
  norm_num only
  nlinarith

theorem abs_sin_mul_cos_le (x : ℝ) : |Real.sin x * Real.cos x| ≤ 1 / 2 := by
  have h := Real.sin_sq_add_cos_sq x
  rw [abs_le]
  constructor <;> nlinarith [sq_nonneg (Real.sin x + Real.cos x), sq_nonneg (Real.sin x - Real.cos x)]

/-- The swing is small, and smaller at the equinoxes. -/
theorem swing_le {d : ℝ} (hd : InRange d) (lam : ℝ) :
    swing (Real.cos (obliq d)) lam ≤ 0.046 ∧ swing (Real.cos (obliq d)) lam ≤ 0.092 * |Real.sin lam| := by
  obtain ⟨h1, h2⟩ := cos_obliq hd
  have hpos : 0 < Real.cos (obliq d) := lt_of_lt_of_le (by norm_num) h1
  have hhalf := abs_sin_mul_cos_le lam
  have hsin : |Real.sin lam * Real.cos lam| ≤ |Real.sin lam| := by
    rw [abs_mul]
    exact mul_le_of_le_one_right (abs_nonneg _) (Real.abs_cos_le_one lam)
  have h0 := abs_nonneg (Real.sin lam * Real.cos lam)
  unfold swing
  rw [div_le_iff₀ hpos, div_le_iff₀ hpos]
  norm_num only at h1 ⊢
  constructor <;> nlinarith [abs_nonneg (Real.sin lam)]

/-- The whole days that the turns of longitude and right ascension make of the
equation of time, where the two are on one side of half a turn before autumn. -/
theorem turns {L e eta : ℝ} {n m : ℤ} (hL : 0 ≤ L ∧ L < 2 * pi) (he : |e| ≤ 0.034) (heta : |eta| ≤ 0.046)
    (hlam : 0 ≤ L + e + n * (2 * pi) ∧ L + e + n * (2 * pi) < 2 * pi)
    (halpha : -Real.pi < L + e + n * (2 * pi) + eta + 2 * Real.pi * m ∧
      L + e + n * (2 * pi) + eta + 2 * Real.pi * m ≤ Real.pi)
    (hautumn : L < pi → n = 0 → L + e + eta ≤ Real.pi) :
    let days := 1 + n + m - if L < pi then 1 else 0
    (m = -1 ∨ m = 0) ∧ (days = 0 ∨ days = 1) := by
  obtain ⟨he1, he2⟩ := abs_le.1 he
  obtain ⟨heta1, heta2⟩ := abs_le.1 heta
  have hgt := Real.pi_gt_d2
  have hlt := Real.pi_lt_d2
  rw [pi_eq] at *
  norm_num only at he1 he2 heta1 heta2 hL hlam halpha hautumn hgt hlt ⊢
  have hn1 : -1 ≤ n := by
    have h : (-2 : ℝ) < n := by linarith
    have h' : -2 < n := by exact_mod_cast h
    omega
  have hn2 : n ≤ 1 := by
    have h : (n : ℝ) < 2 := by linarith
    have h' : n < 2 := by exact_mod_cast h
    omega
  have hm1 : -1 ≤ m := by
    have h : (-2 : ℝ) < m := by nlinarith
    have h' : -2 < m := by exact_mod_cast h
    omega
  have hm2 : m ≤ 0 := by
    have h : (m : ℝ) < 1 := by nlinarith
    have h' : m < 1 := by exact_mod_cast h
    omega
  refine ⟨by omega, ?_⟩
  by_cases hp : L < 314159 / 100000
  · rw [if_pos hp]
    have h1 : n ≠ -1 := by
      rintro rfl
      push_cast at hlam
      linarith
    have h2 : n = 1 → m ≠ 0 := by
      rintro rfl rfl
      push_cast at halpha
      linarith
    have h3 : n = 0 → m ≠ -1 := by
      rintro rfl rfl
      have := hautumn hp rfl
      push_cast at halpha
      linarith
    omega
  · rw [if_neg hp]
    have h1 : n ≠ 1 := by
      rintro rfl
      push_cast at hlam
      linarith
    have h2 : n = -1 → m ≠ -1 := by
      rintro rfl rfl
      push_cast at hlam halpha
      linarith
    omega

/-- The equation of time by the right ascension `alpha`. -/
noncomputable def minutes (L alpha : ℝ) : ℝ :=
  1440.0 * (1.0 - (if L < pi then L - alpha + 2.0 * pi else L - alpha) / pi / 2.0)

theorem equation_eq {E : Env ℝ} (hE : OnReals E) (d : ℝ) :
    (sunPosition E d).equation = minutes (FNsun E d).L (Complex.arg
      ⟨Real.cos (FNsun E d).lambda, Real.cos (obliq d) * Real.sin (FNsun E d).lambda⟩) := by
  unfold sunPosition minutes
  dsimp only
  rw [hE.atan2, hE.cos, hE.sin]
  rfl

/-- Whole turns are whole days, but for the places at which the file's `pi` ends. -/
theorem minutes_eq (L a : ℝ) (n m : ℤ) :
    minutes L (L + a + n * (2 * pi) + 2 * Real.pi * m) =
      1440 * ((1 + n + m - if L < pi then 1 else 0 : ℤ) : ℝ) + 720 * (a + 2 * (Real.pi - pi) * m) / pi := by
  have hpi : (pi : ℝ) ≠ 0 := Angle.pi_pos.ne'
  have h1440 : (1440.0 : ℝ) = 1440 := by norm_num
  have h2 : (2.0 : ℝ) = 2 := by norm_num
  have h1 : (1.0 : ℝ) = 1 := by norm_num
  unfold minutes
  rw [h1440, h2, h1]
  split
  · push_cast
    field_simp
    ring
  · push_cast
    field_simp
    ring

/-- Before the equinox the right ascension is less than half a turn. -/
theorem before_equinox (E : Env ℝ) {d eta : ℝ} (hd : InRange d) (hL : (FNsun E d).L < pi) (heta : |eta| ≤ 0.046)
    (hsin : |eta| ≤ 0.092 * |Real.sin ((FNsun E d).L + centre (FNsun E d).g)|) :
    (FNsun E d).L + centre (FNsun E d).g + eta ≤ Real.pi := by
  obtain ⟨hcentre1, hcentre2⟩ := abs_le.1 (abs_centre_le (FNsun E d).g)
  have hgt := Real.pi_gt_d6
  have hlt := Real.pi_lt_d6
  by_contra! hlate
  have hlow : (pi : ℝ) - 0.08 ≤ (FNsun E d).L := by
    have := (abs_le.1 heta).2
    rw [pi_eq]
    norm_num only at *
    linarith
  have hautumn := centre_autumn E hd hlow hL.le
  have hnear : |Real.sin ((FNsun E d).L + centre (FNsun E d).g)| ≤ 0.12 := by
    rw [← Real.sin_pi_sub]
    refine Real.abs_sin_le_abs.trans ?_
    rw [pi_eq] at hlow hL
    rw [abs_le]
    norm_num only at *
    constructor <;> linarith
  have := (abs_le.1 (hsin.trans (mul_le_mul_of_nonneg_left hnear (by norm_num)))).2
  rw [pi_eq] at hL
  norm_num only at *
  linarith

/-- The equation of time is within 20 minutes, or within 20 minutes of a day
late. -/
theorem equation_le {E : Env ℝ} (hE : OnReals E) {d : ℝ} (hd : InRange d) :
    ∃ days : ℤ, (days = 0 ∨ days = 1) ∧ |(sunPosition E d).equation - 1440 * days| ≤ 20 := by
  obtain ⟨hc1, hc2⟩ := cos_obliq hd
  obtain ⟨n, hn⟩ := lambda_eq hE d
  obtain ⟨m, eta, halpha, heta⟩ := exists_turns (lt_of_lt_of_le (by norm_num) hc1) hc2 (FNsun E d).lambda
  obtain ⟨hswing, hsin⟩ := swing_le hd (FNsun E d).lambda
  have hL : 0 ≤ (FNsun E d).L ∧ (FNsun E d).L < 2 * pi := Angle.FNrange_mem _
  have hlam : 0 ≤ (FNsun E d).lambda ∧ (FNsun E d).lambda < 2 * pi := Angle.FNrange_mem _
  have hmem := Complex.arg_mem_Ioc ⟨Real.cos (FNsun E d).lambda, Real.cos (obliq d) * Real.sin (FNsun E d).lambda⟩
  have hcentre := abs_centre_le (FNsun E d).g
  have hequation := equation_eq hE d
  rw [halpha] at hmem hequation
  have hautumn (hp : (FNsun E d).L < pi) (h0 : n = 0) : (FNsun E d).L + centre (FNsun E d).g + eta ≤ Real.pi := by
    rw [h0, Int.cast_zero, zero_mul, add_zero] at hn
    exact before_equinox E hd hp (heta.trans hswing) (hn ▸ heta.trans hsin)
  have hfull : (FNsun E d).lambda + eta + 2 * Real.pi * m =
      (FNsun E d).L + (centre (FNsun E d).g + eta) + n * (2 * pi) + 2 * Real.pi * m := by rw [hn]; ring
  obtain ⟨hm, hdays⟩ := turns (m := m) hL hcentre (heta.trans hswing) (hn ▸ hlam) (by rwa [← hn]) hautumn
  refine ⟨_, hdays, ?_⟩
  rw [hequation, hfull, minutes_eq, add_sub_cancel_left]
  -- the rest is small
  obtain ⟨h1, h2⟩ := abs_le.1 hcentre
  obtain ⟨h3, h4⟩ := abs_le.1 (heta.trans hswing)
  have hgt := Real.pi_gt_d6
  have hlt := Real.pi_lt_d6
  have hpi : (0 : ℝ) < pi := Angle.pi_pos
  rw [abs_div, abs_of_pos hpi, div_le_iff₀ hpi, abs_le, pi_eq]
  norm_num only at h1 h2 h3 h4 hgt hlt ⊢
  rcases hm with rfl | rfl
  · push_cast
    constructor <;> linarith
  · push_cast
    constructor <;> linarith

/-! ## The dates of doCalc -/

/-- The day number `doCalc` has at a reading. -/
noncomputable def dayOf (c : Clock) : ℝ := FNday c.now.year (c.now.month + 1) c.now.day (c.now.hour : ℝ)

theorem inRange_dayOf {c : Clock} (h1 : 1901 ≤ c.date.year) (h2 : c.date.year ≤ 2099) : InRange (dayOf c) := by
  have hmonth1 := c.date.month_pos
  have hmonth2 := c.date.month_le
  have hday1 := c.date.day_pos
  have hday2 : c.date.day ≤ 31 := by
    refine c.date.day_le.trans ?_
    unfold Calendar.daysInMonth
    split <;> (try split) <;> omega
  have hhour : (c.hour : ℕ) < 24 := c.hour.isLt
  have hm : c.now.month + 1 = (c.date.month : ℤ) := sub_add_cancel _ _
  -- the whole days
  have hluku : -36200 ≤ DayNumber.luku c.now.year (c.now.month + 1) c.now.day - 730531 ∧
      DayNumber.luku c.now.year (c.now.month + 1) c.now.day - 730531 ≤ 36530 := by
    rw [hm]
    change -36200 ≤ DayNumber.luku c.date.year c.date.month c.date.day - 730531 ∧
      DayNumber.luku c.date.year c.date.month c.date.day - 730531 ≤ 36530
    rw [DayNumber.luku_eq (by omega) (by omega)]
    omega
  have hlow : ((-36200 : ℤ) : ℝ) ≤ ((DayNumber.luku c.now.year (c.now.month + 1) c.now.day - 730531 : ℤ) : ℝ) :=
    Int.cast_le.2 hluku.1
  have hhigh : ((DayNumber.luku c.now.year (c.now.month + 1) c.now.day - 730531 : ℤ) : ℝ) ≤ ((36530 : ℤ) : ℝ) :=
    Int.cast_le.2 hluku.2
  have hh1 : (0 : ℝ) ≤ (c.now.hour : ℝ) := Int.cast_nonneg (Int.natCast_nonneg _)
  have hh2 : (c.now.hour : ℝ) ≤ ((24 : ℤ) : ℝ) := Int.cast_le.2 (by change ((c.hour : ℕ) : ℤ) ≤ 24; omega)
  push_cast at hlow hhigh hh2
  unfold InRange dayOf
  rw [DayNumber.FNday_eq, abs_le]
  norm_num only
  constructor <;> linarith

/-- On every date from 1901 to 2099 the declination is within 23.5 degrees, and
the equation of time within 20 minutes of none or of a whole day. -/
theorem sun_position {E : Env ℝ} (hE : OnReals E) {c : Clock} (h1 : 1901 ≤ c.date.year) (h2 : c.date.year ≤ 2099) :
    let p := sunPosition E (dayOf c)
    |p.delta| ≤ 23.5 * rads ∧ ∃ days : ℤ, (days = 0 ∨ days = 1) ∧ |p.equation - 1440 * days| ≤ 20 :=
  ⟨declination_le hE (inRange_dayOf h1 h2), equation_le hE (inRange_dayOf h1 h2)⟩

theorem sun_position_march :
    let p := sunPosition realEnv (dayOf (march 20 0 0 (by decide)))
    |p.delta| ≤ 23.5 * rads ∧ ∃ days : ℤ, (days = 0 ∨ days = 1) ∧ |p.equation - 1440 * days| ≤ 20 :=
  sun_position onReals_realEnv (by decide) (by decide)

/-! ## Where the sun rises every day -/

/-- What is clamped before `asin` is at least -1. -/
theorem neg_one_le_of_lat {E : Env ℝ} (hE : OnReals E) {lat declin dip : ℝ} (hlat : |lat| ≤ 67.3)
    (hdeclin : |declin| ≤ 23.5 * rads) (h0 : sunriseDip ≤ dip) (h6 : dip ≤ 6 * rads) :
    clamp (product E dip lat declin) ∈ Set.Icc (-1) 1 := by
  obtain ⟨hd0, -, -⟩ := dips (K := ℝ)
  obtain ⟨hl1, hl2⟩ := abs_le.1 hlat
  obtain ⟨hdec1, hdec2⟩ := abs_le.1 hdeclin
  have hr := rads_pos (K := ℝ)
  have hpi := pi_lt_real
  have hhalf := half_pi (K := ℝ)
  have hdip : 0.8 * rads ≤ (sunriseDip : ℝ) := by
    unfold sunriseDip SunDia AirRefr
    norm_num only
    linarith
  rw [clamp_mem, PolarNight.neg_one_le_product hE.tan ⟨by norm_num at hl1; linarith, by norm_num at hl2; linarith⟩
    ⟨hdec1, hdec2⟩ (hd0.trans h0) h6, abs_le]
  norm_num only at hl1 hl2 hdec1 hdec2 hdip
  constructor <;> nlinarith

/-- Up to 67.3 degrees north and south no NaN comes up on any of these dates:
the times and the length of the day are the numbers that `calcSun` has. -/
theorem always_defined {E : Env ℝ} (hE : OnReals E) {c : Clock} (h1 : 1901 ≤ c.date.year)
    (h2 : c.date.year ≤ 2099) {lat : ℝ} (hlat : |lat| ≤ 67.3) (lon : ℝ) :
    let p := sunPosition E (dayOf c)
    (PolarNight.rawTimesOrNaN E lat p.delta lon (E.tzOffset2LocalTime c.now) p.equation).map Times.wrap =
        some (calcSun E lat lon c.now).times ∧
      PolarNight.dayLengthOrNaN E lat p.delta = some (calcSun E lat lon c.now).daylen := by
  obtain ⟨hd0, hd, hd6⟩ := dips (K := ℝ)
  have hdeclin := declination_le hE (inRange_dayOf h1 h2)
  have ha := PolarNight.hourAngleOrNaN_some E (neg_one_le_of_lat hE hlat hdeclin le_rfl (hd.trans hd6.le))
  have hb := PolarNight.hourAngleOrNaN_some E (neg_one_le_of_lat hE hlat hdeclin hd hd6.le)
  constructor
  · unfold PolarNight.rawTimesOrNaN
    rw [ha, hb]
    rfl
  · unfold PolarNight.dayLengthOrNaN
    rw [ha]
    rfl

/-- On the polar circle. -/
theorem always_defined_arctic :
    let p := sunPosition realEnv (dayOf (march 20 0 0 (by decide)))
    (PolarNight.rawTimesOrNaN realEnv 66.56 p.delta 15 (realEnv.tzOffset2LocalTime (march 20 0 0 (by decide)).now)
        p.equation).map Times.wrap = some (calcSun realEnv 66.56 15 (march 20 0 0 (by decide)).now).times ∧
      PolarNight.dayLengthOrNaN realEnv 66.56 p.delta =
        some (calcSun realEnv 66.56 15 (march 20 0 0 (by decide)).now).daylen :=
  always_defined onReals_realEnv (by decide) (by decide) (by rw [abs_le]; norm_num) 15

end VscpAutomation.Ephemeris
