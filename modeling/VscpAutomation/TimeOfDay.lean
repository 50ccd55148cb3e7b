import VscpAutomation.Angle
/-!
# Hours and minutes

`convert2HourMinute` is exact for every time that is not negative
(`convert2HourMinute_exact`), whatever number of days it has. Below zero it is
right for whole days only (`whole_days`), and nothing in `doCalc` brings a
negative time up: the five times come out right exactly when the earliest of
them is not negative (`published_iff`).
-/

namespace VscpAutomation.TimeOfDay

open Cast CAutomation

variable {K : Type} [Field K]

/-! ## Times around noon -/

/-- When the sun is highest, in hours. -/
def noon (m_longitude tzone equation : K) : K :=
  12.0 + tzone - m_longitude / 15.0 + equation / 60.0

/-- How far from then the sun has an hour angle. -/
def hours (h : K) : K := 12 * h / pi

/-- How far a kind's time is from noon. -/
def fromNoon (ha hb : K) : Kind → K
  | .sunrise => -hours ha
  | .civilTwilightSunrise => -hours hb
  | .sunset => hours ha
  | .civilTwilightSunset => hours hb
  | .noon => 0

theorem hours_zero : hours (0 : K) = 0 := by
  simp [hours]

variable [LinearOrder K] [IsStrictOrderedRing K]

theorem noon_eq (m_longitude tzone equation : K) :
    noon m_longitude tzone equation = 12 + tzone - m_longitude / 15 + equation / 60 := by
  unfold noon
  norm_num only

theorem timeOf_rawTimes (ha hb m_longitude tzone equation : K) (k : Kind) :
    timeOf (rawTimes ha hb m_longitude tzone equation) k =
      noon m_longitude tzone equation + fromNoon ha hb k := by
  have h12 : (12.0 : K) = 12 := by norm_num
  have h15 : (15.0 : K) = 15 := by norm_num
  have h60 : (60.0 : K) = 60 := by norm_num
  cases k <;> simp only [timeOf, rawTimes, twilightLength, noon, fromNoon, hours, h12, h15, h60] <;> ring

theorem hours_mono {h h' : K} (hle : h ≤ h') : hours h ≤ hours h' := by
  unfold hours
  have := Angle.pi_pos (K := K)
  gcongr

theorem hours_pi : hours (pi : K) = 12 := by
  unfold hours
  exact mul_div_cancel_right₀ 12 Angle.pi_pos.ne'

/-- No time is further from noon than the twilights. -/
theorem abs_fromNoon_le {ha hb : K} (h0 : 0 ≤ ha) (hab : ha ≤ hb) (k : Kind) : |fromNoon ha hb k| ≤ hours hb := by
  have ha0 : 0 ≤ hours ha := hours_zero (K := K) ▸ hours_mono h0
  have hle := hours_mono hab
  cases k with
  | sunrise => rwa [fromNoon, abs_neg, abs_of_nonneg ha0]
  | civilTwilightSunrise => rw [fromNoon, abs_neg, abs_of_nonneg (ha0.trans hle)]
  | sunset => rwa [fromNoon, abs_of_nonneg ha0]
  | civilTwilightSunset => rw [fromNoon, abs_of_nonneg (ha0.trans hle)]
  | noon => rw [fromNoon, abs_zero]; exact ha0.trans hle

variable [FloorRing K]

/-! ## Hours and minutes that exist -/

/-- An hour and a minute that `setHour` and `setMinute` take. -/
def Valid (hm : ℤ × ℤ) : Prop := (0 ≤ hm.1 ∧ hm.1 ≤ 23) ∧ 0 ≤ hm.2 ∧ hm.2 ≤ 59

/-- Minutes since midnight. -/
def minuteOfDay (hm : ℤ × ℤ) : ℤ := 60 * hm.1 + hm.2

/-! ## Times that are not negative -/

theorem floor_hours (t : K) : ⌊t⌋ = ⌊60 * t⌋ / 60 := by
  have h := Int.floor_div_natCast (60 * t) 60
  rwa [Nat.cast_ofNat, mul_div_cancel_left₀ t (by norm_num)] at h

/-- The hour, and the number that is cast for the minute. -/
theorem hour_nonneg {t : K} (h : 0 ≤ t) :
    (convert2HourMinute t).1 = ⌊t⌋ % 24 ∧ 0 ≤ (t - ((⌊t⌋ % 24 : ℤ) : K)) * 60 ∧
      (t - ((⌊t⌋ % 24 : ℤ) : K)) * 60 ≤ 60 * t := by
  have hfloor := Int.floor_nonneg.2 h
  have hle : ((⌊t⌋ % 24 : ℤ) : K) ≤ t :=
    le_trans (by exact_mod_cast (by omega : ⌊t⌋ % 24 ≤ ⌊t⌋)) (Int.floor_le t)
  have h0 : (0 : K) ≤ ((⌊t⌋ % 24 : ℤ) : K) := by exact_mod_cast (by omega : 0 ≤ ⌊t⌋ % 24)
  refine ⟨?_, by linarith, by linarith⟩
  rw [convert2HourMinute, trunc_of_nonneg h, Int.tmod_eq_emod_of_nonneg hfloor]

theorem convert2HourMinute_nonneg {t : K} (h : 0 ≤ t) :
    convert2HourMinute t = (⌊60 * t⌋ / 60 % 24, ⌊60 * t⌋ % 60) := by
  obtain ⟨hhour, h0, -⟩ := hour_nonneg h
  have hmin : ⌊(t - ((⌊t⌋ % 24 : ℤ) : K)) * 60⌋ = ⌊60 * t⌋ - 60 * (⌊t⌋ % 24) := by
    rw [← Int.floor_sub_intCast]
    congr 1
    push_cast
    ring
  apply Prod.ext (hhour.trans (by rw [floor_hours]))
  change Int.tmod (trunc ((t - ((convert2HourMinute t).1 : K)) * 60)) 60 = _
  rw [hhour, trunc_of_nonneg h0, Int.tmod_eq_emod_of_nonneg (Int.floor_nonneg.2 h0), hmin]
  dsimp only
  omega

theorem valid_nonneg {t : K} (h : 0 ≤ t) : Valid (convert2HourMinute t) := by
  rw [convert2HourMinute_nonneg h]
  unfold Valid
  dsimp only
  omega

theorem minuteOfDay_nonneg {t : K} (h : 0 ≤ t) : minuteOfDay (convert2HourMinute t) = ⌊60 * t⌋ % 1440 := by
  rw [convert2HourMinute_nonneg h]
  unfold minuteOfDay
  dsimp only
  omega

/-- Whole days make no difference. -/
theorem convert2HourMinute_add_days {t : K} (h : 0 ≤ t) (k : ℕ) :
    convert2HourMinute (t + 24 * k) = convert2HourMinute t := by
  have hk : 0 ≤ t + 24 * (k : K) := by positivity
  have hfloor : ⌊60 * (t + 24 * (k : K))⌋ = ⌊60 * t⌋ + 1440 * k := by
    rw [← Int.floor_add_intCast]
    congr 1
    push_cast
    ring
  rw [convert2HourMinute_nonneg h, convert2HourMinute_nonneg hk, hfloor]
  refine Prod.ext ?_ ?_
  · dsimp only
    omega
  · dsimp only
    omega

/-- The correction of `doCalc` makes no difference. -/
theorem convert2HourMinute_wrap24 (t : K) : convert2HourMinute (wrap24 t) = convert2HourMinute t := by
  unfold wrap24
  split
  · rename_i hgt
    norm_num only at hgt ⊢
    have := convert2HourMinute_add_days (t := t - 24) (by linarith) 1
    rw [Nat.cast_one, mul_one, sub_add_cancel] at this
    exact this.symm
  · rfl

/-- For a time that is not negative the numbers cast fit an `int`, the hour and
the minute exist, and they are the minute of the day; whole days, and so the
correction of `doCalc`, make no difference. -/
theorem convert2HourMinute_exact (t : K) (h0 : 0 ≤ t) (h1 : 60 * t < 2 ^ 31) :
    (Fits 32 (trunc t) ∧ Fits 32 (trunc ((t - ((convert2HourMinute t).1 : K)) * 60))) ∧
      Valid (convert2HourMinute t) ∧ minuteOfDay (convert2HourMinute t) = ⌊60 * t⌋ % 1440 ∧
      (∀ k : ℕ, 60 * (t + 24 * k) < 2 ^ 31 → convert2HourMinute (t + 24 * k) = convert2HourMinute t) ∧
      convert2HourMinute (wrap24 t) = convert2HourMinute t := by
  refine ⟨⟨fits_trunc ?_, fits_trunc ?_⟩, valid_nonneg h0, minuteOfDay_nonneg h0,
    fun k _ => convert2HourMinute_add_days h0 k, convert2HourMinute_wrap24 t⟩
  · rw [abs_of_nonneg h0]
    norm_num at h1 ⊢
    linarith
  · obtain ⟨hhour, hpos, hle⟩ := hour_nonneg h0
    rw [hhour, abs_of_nonneg hpos]
    exact hle.trans_lt h1

/-- Two days and two hours and a half. -/
theorem convert2HourMinute_exact_days :
    convert2HourMinute (50.5 : ℚ) = (2, 30) ∧
      (Fits 32 (trunc (50.5 : ℚ)) ∧
        Fits 32 (trunc (((50.5 : ℚ) - ((convert2HourMinute (50.5 : ℚ)).1 : ℚ)) * 60))) ∧
      Valid (convert2HourMinute (50.5 : ℚ)) ∧
      minuteOfDay (convert2HourMinute (50.5 : ℚ)) = ⌊60 * (50.5 : ℚ)⌋ % 1440 ∧
      (∀ k : ℕ, 60 * ((50.5 : ℚ) + 24 * k) < 2 ^ 31 →
        convert2HourMinute ((50.5 : ℚ) + 24 * k) = convert2HourMinute (50.5 : ℚ)) ∧
      convert2HourMinute (wrap24 (50.5 : ℚ)) = convert2HourMinute (50.5 : ℚ) :=
  ⟨by decide +kernel, convert2HourMinute_exact 50.5 (by norm_num) (by norm_num)⟩

/-! ## Negative times -/

/-- `t` is published as the minute it is in, on a clock of 24 hours. -/
structure Published (t : K) (hm : ℤ × ℤ) : Prop where
  valid : Valid hm
  minute : minuteOfDay hm ≡ ⌊60 * t⌋ [ZMOD 1440]

theorem published_nonneg {t : K} (h : 0 ≤ t) : Published t (convert2HourMinute t) := by
  refine ⟨valid_nonneg h, ?_⟩
  rw [minuteOfDay_nonneg h]
  exact Int.mod_modEq _ _

theorem tmod_of_nonpos {a : ℤ} (h : a ≤ 0) (b : ℤ) : Int.tmod a b = -(-a % b) := by
  rw [← Int.tmod_eq_emod_of_nonneg (Int.neg_nonneg_of_nonpos h), Int.neg_tmod, neg_neg]

/-- Below zero, hours and minutes are counted backwards; they exist and are the
right ones for whole days only. -/
theorem whole_days {t : K} (h : t < 0) (hp : Published t (convert2HourMinute t)) :
    ∃ n : ℤ, t = 24 * n := by
  obtain ⟨⟨⟨hh, -⟩, hm, -⟩, hmod⟩ := hp
  have hceil : ⌈t⌉ ≤ 0 := Int.ceil_le.2 (by simpa using h.le)
  -- the hour is 0
  have hhour : (convert2HourMinute t).1 = -(-⌈t⌉ % 24) := by
    rw [convert2HourMinute, trunc_of_neg h, tmod_of_nonpos hceil]
  have h24 : -⌈t⌉ % 24 = 0 := by omega
  have hhour : (convert2HourMinute t).1 = 0 := by omega
  -- so is the minute
  have hsixty : 60 * t < 0 := by linarith
  have hceil60 : ⌈60 * t⌉ ≤ 0 := Int.ceil_le.2 (by simpa using hsixty.le)
  have hminute : (convert2HourMinute t).2 = -(-⌈60 * t⌉ % 60) := by
    change Int.tmod (trunc ((t - ((convert2HourMinute t).1 : K)) * 60)) 60 = _
    rw [hhour, Int.cast_zero, sub_zero, mul_comm, trunc_of_neg hsixty, tmod_of_nonpos hceil60]
  have h60 : -⌈60 * t⌉ % 60 = 0 := by omega
  have hminute : (convert2HourMinute t).2 = 0 := by omega
  -- so the time is a whole number of hours, and of days
  rw [minuteOfDay, hhour, hminute] at hmod
  obtain ⟨n, hn⟩ := hmod.dvd
  have h1 := Int.floor_le_ceil (60 * t)
  have h2 := Int.ceil_le_floor_add_one (60 * t)
  have heq : ⌈60 * t⌉ = ⌊60 * t⌋ := by omega
  have hint : 60 * t = (⌊60 * t⌋ : K) := le_antisymm (heq ▸ Int.le_ceil (60 * t)) (Int.floor_le _)
  have hfloor : ⌊60 * t⌋ = 1440 * n := by omega
  rw [hfloor] at hint
  push_cast at hint
  exact ⟨n, by linarith⟩

/-! ## The five times -/

/-- The 24-hour correction never shows. -/
theorem convert2HourMinute_wrap (t : Times K) (k : Kind) :
    convert2HourMinute (timeOf t.wrap k) = convert2HourMinute (timeOf t k) := by
  cases k with
  | noon => rfl
  | _ => exact convert2HourMinute_wrap24 _

/-- The hour angles of a day, a place, a time zone and an equation of time. -/
structure Inputs (ha hb m_longitude tzone equation : K) : Prop where
  ha_nonneg : 0 ≤ ha
  ha_le : ha ≤ hb
  hb_le : hb ≤ pi
  longitude : -180 ≤ m_longitude ∧ m_longitude ≤ 180
  tzone : -12 ≤ tzone ∧ tzone ≤ 14
  equation : -20 ≤ equation ∧ equation ≤ 20

/-- All five times are published as the minutes they are in exactly when the
morning twilight does not begin before midnight. -/
theorem published_iff (ha hb m_longitude tzone equation : K) (h : Inputs ha hb m_longitude tzone equation) :
    (∀ k, Published (timeOf (rawTimes ha hb m_longitude tzone equation) k)
        (convert2HourMinute (timeOf (rawTimes ha hb m_longitude tzone equation).wrap k))) ↔
      12 * hb / pi ≤ 12 + tzone - m_longitude / 15 + equation / 60 := by
  rw [← noon_eq]
  change _ ↔ hours hb ≤ noon m_longitude tzone equation
  simp only [convert2HourMinute_wrap, timeOf_rawTimes]
  constructor
  · intro hall
    by_contra! hlt
    have hb12 : hours hb ≤ 12 := hours_pi (K := K) ▸ hours_mono h.hb_le
    have hlow : -(37 / 3) ≤ noon m_longitude tzone equation := by
      rw [noon_eq]
      linarith [h.longitude.2, h.tzone.1, h.equation.1]
    -- a whole number of days before midnight, so noon would be on the day before too
    obtain ⟨n, hn⟩ := whole_days (t := noon m_longitude tzone equation + -hours hb) (by linarith)
      (hall .civilTwilightSunrise)
    have hn1 : n < 0 := by
      have : (n : K) < 0 := by linarith
      exact_mod_cast this
    have hn2 : (n : K) ≤ -1 := by exact_mod_cast (by omega : n ≤ -1)
    obtain ⟨m, hm⟩ := whole_days (t := noon m_longitude tzone equation + 0) (by linarith) (hall .noon)
    have hm1 : -1 < m := by
      have : (-1 : K) < m := by linarith
      exact_mod_cast this
    have hm2 : m < 0 := by
      have : (m : K) < 0 := by linarith
      exact_mod_cast this
    omega
  · intro hle k
    apply published_nonneg
    have := (abs_le.1 (abs_fromNoon_le h.ha_nonneg h.ha_le k)).1
    linarith

/-- A white night at the default place, in the local time of winter: the
twilight begins at -2 minutes. -/
theorem published_white_night :
    Inputs (2.57 : ℚ) pi 15.1604167 1 (-1.8) ∧
      let t : Times ℚ := rawTimes 2.57 pi 15.1604167 1 (-1.8)
      convert2HourMinute (timeOf t.wrap .civilTwilightSunrise) = (0, -2) ∧
        ¬ ∀ k, Published (timeOf t k) (convert2HourMinute (timeOf t.wrap k)) := by
  constructor
  · constructor <;> norm_num [pi]
  · intro t
    have hm : convert2HourMinute (timeOf t.wrap .civilTwilightSunrise) = (0, -2) := by decide +kernel
    refine ⟨hm, ?_⟩
    intro h
    have := (h .civilTwilightSunrise).valid.2.1
    rw [hm] at this
    exact absurd this (by decide)

/-- The same place in spring. -/
theorem published_spring :
    (∀ k, Published (timeOf (rawTimes (1.6 : ℚ) 1.8 15.1604167 1 7) k)
        (convert2HourMinute (timeOf (rawTimes (1.6 : ℚ) 1.8 15.1604167 1 7).wrap k))) ↔
      12 * (1.8 : ℚ) / pi ≤ 12 + 1 - 15.1604167 / 15 + 7 / 60 := by
  apply published_iff 1.6 1.8 15.1604167 1 7
  constructor <;> norm_num [pi]

end VscpAutomation.TimeOfDay
