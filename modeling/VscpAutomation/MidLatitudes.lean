import VscpAutomation.Ephemeris
import VscpAutomation.Delivery
/-!
# Days between the twilights

Up to 55 degrees north and south the civil twilight begins ten hours before
noon at most, on every date from 1901 to 2099. Where the clock is not more than
an hour and a half behind the sun, the five times of `doCalc` are right, so the
days of such a place are served with nothing left to assume of the calculation.
-/

namespace VscpAutomation.MidLatitudes

open CAutomation TimeOfDay HourAngle Ephemeris

/-! ## Hour angles -/

/-- The tangent of 55 degrees. -/
theorem tan_le {x : ℝ} (h0 : 0 ≤ x) (h : x ≤ 55 * rads) : Real.tan x ≤ 3 / 2 := by
  have hr := rads_eq
  have hpi := Real.pi_gt_d6
  have hlt := Real.pi_lt_d2
  norm_num only at hr hpi hlt
  -- 55 is 45 and 10
  have hmono : Real.tan x ≤ Real.tan (Real.pi / 4 + 0.1746) := by
    refine Real.strictMonoOn_tan.monotoneOn ⟨by linarith, by linarith⟩ ⟨by linarith, ?_⟩ ?_
    · norm_num only
      linarith
    · norm_num only
      linarith
  refine hmono.trans ?_
  have hsin : Real.sin 0.1746 ≤ 0.1746 := Real.sin_le (by norm_num)
  have hcos := Real.one_sub_sq_div_two_le_cos (x := 0.1746)
  have hsqrt : 0 < √(2 : ℝ) := by positivity
  have hpos : 0 < Real.cos (Real.pi / 4 + 0.1746) := by
    apply Real.cos_pos_of_mem_Ioo
    norm_num only
    constructor <;> linarith
  rw [Real.tan_eq_sin_div_cos, div_le_iff₀ hpos, Real.sin_add, Real.cos_add, Real.sin_pi_div_four,
    Real.cos_pi_div_four]
  norm_num only at hsin hcos ⊢
  nlinarith

/-- A tangent is odd, so bounds on one side are enough. -/
theorem abs_tan_le {x a b : ℝ} (hx : |x| ≤ a) (ha : a < Real.pi / 2) (h : Real.tan a ≤ b) : |Real.tan x| ≤ b := by
  obtain ⟨h1, h2⟩ := abs_le.1 hx
  have hpi := Real.pi_pos
  have hmono := Real.strictMonoOn_tan.monotoneOn
  rw [abs_le]
  constructor
  · have := hmono (a := -a) ⟨by linarith, by linarith⟩ (b := x) ⟨by linarith, by linarith⟩ h1
    rw [Real.tan_neg] at this
    linarith
  · exact (hmono (a := x) ⟨by linarith, by linarith⟩ (b := a) ⟨by linarith, by linarith⟩ h2).trans h

/-- Up to 55 degrees the sine of what the twilight adds to 6 hours is that of 60
degrees at most. -/
theorem abs_product_le {E : Env ℝ} (hE : OnReals E) {lat declin dip : ℝ} (hlat : |lat| ≤ 55)
    (hdeclin : |declin| ≤ 23.5 * rads) (h0 : 0 ≤ dip) (h6 : dip ≤ 6 * rads) :
    |product E dip lat declin| ≤ √3 / 2 := by
  have hr := rads_pos (K := ℝ)
  have hlt := pi_lt_real
  have hhalf := half_pi (K := ℝ)
  have hlatr : |lat * rads| ≤ 55 * rads := by
    rw [abs_mul, abs_of_pos hr]
    exact mul_le_mul_of_nonneg_right hlat hr.le
  have htan1 : |Real.tan (lat * rads)| ≤ 3 / 2 :=
    abs_tan_le hlatr (by linarith) (tan_le (by linarith) le_rfl)
  have hsum : |declin + if lat < 0.0 then -dip else dip| ≤ 30 * rads := by
    refine (abs_add_le _ _).trans ?_
    have hdip : |if lat < 0.0 then -dip else dip| ≤ 6 * rads := by
      split
      · rw [abs_neg, abs_of_nonneg h0]
        exact h6
      · rw [abs_of_nonneg h0]
        exact h6
    norm_num only at hdeclin hdip ⊢
    linarith
  have htan2 : |Real.tan (declin + if lat < 0.0 then -dip else dip)| ≤ 1 / √3 := by
    refine abs_tan_le hsum (by linarith) ?_
    rw [← Real.tan_pi_div_six]
    exact Real.strictMonoOn_tan.monotoneOn ⟨by linarith, by linarith⟩ ⟨by linarith, by linarith⟩ (by linarith)
  unfold product
  rw [hE.tan, abs_mul]
  have hsqrt : 0 < √(3 : ℝ) := by positivity
  calc |Real.tan (declin + if lat < 0.0 then -dip else dip)| * |Real.tan (lat * rads)| ≤ 1 / √3 * (3 / 2) :=
        mul_le_mul htan2 htan1 (abs_nonneg _) (by positivity)
    _ = √3 / 2 := by
      have hsq := Real.mul_self_sqrt (show (0 : ℝ) ≤ 3 by norm_num)
      field_simp
      linarith

theorem abs_arcsin_le {x : ℝ} (hx : |x| ≤ √3 / 2) : |Real.arcsin x| ≤ Real.pi / 3 := by
  obtain ⟨h1, h2⟩ := abs_le.1 hx
  have hpi := Real.pi_pos
  have hthird : Real.arcsin (√3 / 2) = Real.pi / 3 := by
    rw [← Real.sin_pi_div_three]
    exact Real.arcsin_sin (by linarith) (by linarith)
  rw [abs_le]
  constructor
  · have := Real.monotone_arcsin h1
    rwa [Real.arcsin_neg, hthird] at this
  · have := Real.monotone_arcsin h2
    rwa [hthird] at this

/-- There the clamp is never used. -/
theorem clamp_of_abs_le {x : ℝ} (hx : |x| ≤ √3 / 2) : clamp x = x := by
  have hsqrt : √(3 : ℝ) < 1.8 := (Real.sqrt_lt' (by norm_num)).2 (by norm_num)
  have h := (abs_le.1 hx).2
  unfold clamp
  rw [if_neg]
  norm_num only at hsqrt ⊢
  linarith

/-- Noon is six hours and 60 degrees of angle after the twilight at most. -/
theorem hour_angles {E : Env ℝ} (hE : OnReals E) {lat declin : ℝ} (hlat : |lat| ≤ 55)
    (hdeclin : |declin| ≤ 23.5 * rads) :
    0 ≤ f0 E lat declin ∧ f0 E lat declin ≤ f1 E lat declin ∧ hours (f1 E lat declin) ≤ 10.1 := by
  obtain ⟨hd0, hd, hd6⟩ := dips (K := ℝ)
  obtain ⟨hlat1, hlat2⟩ := abs_le.1 hlat
  obtain ⟨hdeclin1, hdeclin2⟩ := abs_le.1 hdeclin
  have hr := rads_pos (K := ℝ)
  have h0 := abs_product_le hE hlat hdeclin hd0 (hd.trans hd6.le)
  have h1 := abs_product_le hE hlat hdeclin (hd0.trans hd) hd6.le
  have hmono : product E sunriseDip lat declin ≤ product E twilightDip lat declin := by
    refine product_mono (by rw [hE.tan]; exact Real.tan_neg) (by rw [hE.tan]; exact tan_monotoneOn)
      ⟨by linarith, by linarith⟩ ?_ hd0 hd hd6.le
    norm_num only at hdeclin1 hdeclin2
    constructor <;> linarith
  have hasin0 := abs_le.1 (abs_arcsin_le h0)
  have hasin1 := abs_le.1 (abs_arcsin_le h1)
  have hgt := Real.pi_gt_d6
  have hlt := Real.pi_lt_d6
  have hpi := Angle.pi_pos (K := ℝ)
  rw [f0_eq, f1_eq, hourAngle, hourAngle, clamp_of_abs_le h0, clamp_of_abs_le h1, hE.asin]
  refine ⟨?_, ?_, ?_⟩
  · rw [pi_eq]
    norm_num only at hlt ⊢
    linarith
  · have := Real.monotone_arcsin hmono
    linarith
  · unfold hours
    rw [div_le_iff₀ hpi, pi_eq]
    norm_num only at hlt ⊢
    linarith

/-! ## The times of doCalc -/

/-- The times are those of noon and the hour angles, and none is before
midnight. -/
theorem times_nonneg {E : Env ℝ} (hE : OnReals E) {c : Clock} (h1 : 1901 ≤ c.date.year)
    (h2 : c.date.year ≤ 2099) {lat lon : ℝ} (hlat : |lat| ≤ 55)
    (hclock : -1.5 ≤ E.tzOffset2LocalTime c.now - lon / 15) (k : Kind) :
    let p := sunPosition E (dayOf c)
    0 ≤ timeOf (rawTimes (f0 E lat p.delta) (f1 E lat p.delta) lon (E.tzOffset2LocalTime c.now) p.equation) k := by
  obtain ⟨days, hdays, hequation⟩ := equation_le hE (inRange_dayOf h1 h2)
  obtain ⟨h0, hab, hb⟩ := hour_angles hE hlat (declination_le hE (inRange_dayOf h1 h2))
  have hfrom := (abs_le.1 (abs_fromNoon_le h0 hab k)).1
  have hlow := (abs_le.1 hequation).1
  have hnonneg : (0 : ℝ) ≤ days := by
    rcases hdays with rfl | rfl <;> norm_num
  dsimp only
  rw [timeOf_rawTimes, noon_eq]
  norm_num only at hb hclock
  linarith

theorem published {E : Env ℝ} (hE : OnReals E) {c : Clock} (h1 : 1901 ≤ c.date.year)
    (h2 : c.date.year ≤ 2099) {lat lon : ℝ} (hlat : |lat| ≤ 55)
    (hclock : -1.5 ≤ E.tzOffset2LocalTime c.now - lon / 15) (k : Kind) :
    let p := sunPosition E (dayOf c)
    Published (timeOf (rawTimes (f0 E lat p.delta) (f1 E lat p.delta) lon (E.tzOffset2LocalTime c.now) p.equation) k)
      (hourMinute E lat lon c k) := by
  have h := published_nonneg (times_nonneg hE h1 h2 hlat hclock k)
  rwa [← convert2HourMinute_wrap] at h

/-- On every date from 1901 to 2099 the hour angles are in order, and all five
times come out as the minutes they are in. -/
theorem published_all_year {E : Env ℝ} (hE : OnReals E) {c : Clock} (h1 : 1901 ≤ c.date.year)
    (h2 : c.date.year ≤ 2099) {lat lon : ℝ} (hlat : |lat| ≤ 55)
    (hclock : -1.5 ≤ E.tzOffset2LocalTime c.now - lon / 15) :
    let p := sunPosition E (dayOf c)
    let t := rawTimes (f0 E lat p.delta) (f1 E lat p.delta) lon (E.tzOffset2LocalTime c.now) p.equation
    InOrder (f0 E lat p.delta) (f1 E lat p.delta) ∧ ∀ k, Published (timeOf t k) (hourMinute E lat lon c k) := by
  obtain ⟨h0, hab, -⟩ := hour_angles hE hlat (declination_le hE (inRange_dayOf h1 h2))
  exact ⟨inOrder_of_le h0 hab, fun k => published hE h1 h2 hlat hclock k⟩

/-- In the middle of a time zone, at 55 degrees. -/
theorem published_all_year_march :
    let c := march 20 0 0 (by decide)
    let p := sunPosition realEnv (dayOf c)
    let t := rawTimes (f0 realEnv 55 p.delta) (f1 realEnv 55 p.delta) 15 (realEnv.tzOffset2LocalTime c.now) p.equation
    InOrder (f0 realEnv 55 p.delta) (f1 realEnv 55 p.delta) ∧
      ∀ k, Published (timeOf t k) (hourMinute realEnv 55 15 c k) := by
  refine published_all_year onReals_realEnv (by decide) (by decide) (by rw [abs_le]; norm_num) ?_
  unfold realEnv
  norm_num

/-! ## The day -/

/-- Whatever the schedule was before, a day of six calls in every minute that
begins with a recalculation has one event of each kind, in the minute of its
time. -/
theorem served_in_its_minute {E : Env ℝ} (hE : OnReals E) (hlaw : E.Lawful) {s : CAutomation ℝ} {c₀ : Clock}
    {rest : List Clock} {D : Day} (hcalc : s.CalcDue c₀) (hday : ∀ c ∈ c₀ :: rest, c.date = D)
    (hmono : (c₀ :: rest).Pairwise (· ≤ ·))
    (hsix : ∀ m, (ofLex m).1 = D → 6 ≤ (c₀ :: rest).countP fun c => c.toMinute = m) (h1 : 1901 ≤ D.year)
    (h2 : D.year ≤ 2099) (hlat : |s.m_latitude| ≤ 55)
    (hclock : -1.5 ≤ E.tzOffset2LocalTime c₀.now - s.m_longitude / 15) :
    let log := (Runs.run (workStep E) s (c₀ :: rest)).2
    let p := sunPosition E (dayOf c₀)
    let t := rawTimes (f0 E s.m_latitude p.delta) (f1 E s.m_latitude p.delta) s.m_longitude
      (E.tzOffset2LocalTime c₀.now) p.equation
    log.filterMap Entry.calculation = [(s.m_latitude, s.m_longitude, c₀)] ∧
      log.filterMap (Entry.handedAt .VSCP2_TYPE_VSCPD_NEW_CALCULATION) = [c₀] ∧
      ∀ k : Kind, ∃ c : Clock, log.filterMap (Entry.handedAt k.vscp_type) = [c] ∧
        Published (timeOf t k) (c.hour, c.minute) := by
  have hc₀ : c₀.date = D := hday c₀ List.mem_cons_self
  subst hc₀
  have hpublished := published hE h1 h2 hlat hclock
  have hlawful (k : Kind) := scheduled_lawful E hlaw (hpublished k).valid.1 (hpublished k).valid.2
  obtain ⟨hcalculation, hnew, hkinds⟩ := Delivery.day_served E hcalc hday hmono hsix (fun k => by
    obtain ⟨hdate, hhour, hminute⟩ := hlawful k
    exact ⟨hdate, hhour ▸ (hpublished k).valid.1, hminute ▸ (hpublished k).valid.2⟩) hlaw.addSpan_onDate
  refine ⟨hcalculation, hnew, ?_⟩
  intro k
  obtain ⟨c, hc, hsame⟩ := hkinds k
  obtain ⟨-, hhour, hminute⟩ := vscpdatetime.sameMinute_iff.1 hsame
  obtain ⟨-, hhour', hminute'⟩ := hlawful k
  refine ⟨c, hc, ?_⟩
  rw [← hhour, ← hminute, hhour', hminute']
  exact hpublished k

theorem realEnv_lawful : realEnv.Lawful where
  zeroTime_onDate _ _ h := h
  setHour_onDate _ _ _ h _ _ := h
  setHour_hour _ _ _ _ := rfl
  setMinute_onDate _ _ _ h _ _ := h
  setMinute_hour _ _ _ _ := rfl
  setMinute_minute _ _ _ _ := rfl
  addSpan_onDate _ _ h := vscpdatetime.dayAfter_onDate h

/-- A whole day at 50 degrees, for an object moved there at noon of the day
before. -/
theorem served_in_its_minute_march :
    let s := ((new realEnv (march 19 12 0 (by decide))).setLatitude 50).setLongitude 15
    let c₀ := march 20 0 0 (by decide)
    let log := (Runs.run (workStep realEnv) s (c₀ :: Delivery.wholeDay 20 (by decide))).2
    let p := sunPosition realEnv (dayOf c₀)
    let t := rawTimes (f0 realEnv s.m_latitude p.delta) (f1 realEnv s.m_latitude p.delta) s.m_longitude
      (realEnv.tzOffset2LocalTime c₀.now) p.equation
    log.filterMap Entry.calculation = [(s.m_latitude, s.m_longitude, c₀)] ∧
      log.filterMap (Entry.handedAt .VSCP2_TYPE_VSCPD_NEW_CALCULATION) = [c₀] ∧
      ∀ k : Kind, ∃ c : Clock, log.filterMap (Entry.handedAt k.vscp_type) = [c] ∧
        Published (timeOf t k) (c.hour, c.minute) := by
  intro s c₀
  have hlat : |s.m_latitude| ≤ 55 := by
    change |(50 : ℝ)| ≤ 55
    rw [abs_of_pos] <;> norm_num
  have hclock : -1.5 ≤ realEnv.tzOffset2LocalTime c₀.now - s.m_longitude / 15 := by
    change -1.5 ≤ (1 : ℝ) - 15 / 15
    norm_num
  refine served_in_its_minute onReals_realEnv realEnv_lawful (D := c₀.date) ⟨rfl, rfl⟩ ?_ ?_ ?_ (by decide)
    (by decide) hlat hclock
  · intro c hc
    rcases List.mem_cons.1 hc with rfl | hc
    · rfl
    · obtain ⟨h, m, rfl⟩ := Delivery.mem_wholeDay hc
      rfl
  · refine List.pairwise_cons.2 ⟨?_, Delivery.wholeDay_pairwise 20 _⟩
    intro c hc
    obtain ⟨h, m, rfl⟩ := Delivery.mem_wholeDay hc
    exact Delivery.march_le (.inr ⟨rfl, h.zero_le.lt_or_eq.imp_right fun h => ⟨h, m.zero_le⟩⟩)
  · intro m hm
    obtain ⟨d, h, mi⟩ := m
    change d = _ at hm
    subst hm
    exact (Delivery.wholeDay_six 20 (by decide) h mi).trans (List.sublist_cons_self _ _).countP_le

end VscpAutomation.MidLatitudes
