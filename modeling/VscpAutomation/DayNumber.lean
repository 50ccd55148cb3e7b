import VscpAutomation.Sun
import VscpAutomation.Time
import VscpAutomation.Lib.Cast
import Mathlib.Tactic.IntervalCases
import Mathlib.Tactic.NormNum
import Mathlib.Tactic.Ring
import Mathlib.Tactic.FieldSimp
/-!
# Day numbers

`FNday` goes up by one from each day to the next, in the calendar in which each
fourth year is a leap year. From 1901 to 2099 that is the system's calendar, so
there `FNday` counts the days from J2000 (`FNday_counts`). Its C integers hold
what they are given for years up to three hundred million (`luku_fits`).
-/

namespace VscpAutomation.DayNumber

open Calendar

/-- Each fourth year is a leap year. -/
def fourth (y : ℤ) : Bool := y % 4 == 0

theorem fourth_iff {y : ℤ} : fourth y = true ↔ y % 4 = 0 := beq_iff_eq

theorem gregorian_eq_fourth {y : ℤ} (h : y ∈ Set.Icc 1901 2099) : gregorian y = fourth y := by
  obtain ⟨h1, h2⟩ := h
  have h100 : y % 100 = 0 → y % 400 = 0 := by omega
  unfold gregorian fourth
  grind

/-! ## The whole days -/

/-- `FNday` without its fractions. -/
def luku (y m d : ℤ) : ℤ :=
  Int.tdiv (-7 * (y + Int.tdiv (m + 9) 12)) 4 + Int.tdiv (275 * m) 9 + d + y * 367

theorem FNday_eq {K : Type} [Field K] (y m d : ℤ) (h : K) :
    FNday y m d h = (luku y m d : K) - 730531.5 + h / 24.0 := rfl

/-- None of the `int`s of `FNday` overflows, and neither does the `long`. -/
theorem luku_fits {y m d : ℤ} (hy : |y| ≤ 300000000) (hm : 1 ≤ m ∧ m ≤ 12) (hd : 1 ≤ d ∧ d ≤ 31) :
    let yearInt := -7 * (y + Int.tdiv (m + 9) 12)
    let monthInt := 275 * m
    let dayInt := Int.tdiv yearInt 4 + Int.tdiv monthInt 9 + d
    (∀ n ∈ [m + 9, y + Int.tdiv (m + 9) 12, yearInt, monthInt, Int.tdiv yearInt 4 + Int.tdiv monthInt 9, dayInt],
        Cast.Fits 32 n) ∧
      Cast.Fits 64 (y * 367) ∧ Cast.Fits 64 (luku y m d) := by
  intro yearInt monthInt dayInt
  obtain ⟨hy1, hy2⟩ := abs_le.1 hy
  have hmonth : Int.tdiv (m + 9) 12 = 0 ∨ Int.tdiv (m + 9) 12 = 1 := by
    rw [Int.tdiv_eq_ediv_of_nonneg (by omega)]
    omega
  have hmonthDays : 0 ≤ Int.tdiv monthInt 9 ∧ Int.tdiv monthInt 9 ≤ 366 := by
    rw [Int.tdiv_eq_ediv_of_nonneg (by omega)]
    omega
  have hyear : |yearInt| ≤ 7 * 300000001 := by rw [abs_le]; omega
  have hquarter : |Int.tdiv yearInt 4| ≤ |yearInt| := by
    rw [Int.abs_eq_natAbs, Int.abs_eq_natAbs]
    exact_mod_cast Int.natAbs_tdiv_le_natAbs yearInt 4
  obtain ⟨h1, h2⟩ := abs_le.1 hyear
  obtain ⟨h3, h4⟩ := abs_le.1 (hquarter.trans hyear)
  have hluku : luku y m d = dayInt + y * 367 := rfl
  refine ⟨?_, ?_, ?_⟩
  · simp only [List.forall_mem_cons, List.not_mem_nil, false_implies, implies_true, and_true, Cast.Fits]
    omega
  · unfold Cast.Fits; omega
  · rw [hluku]
    unfold Cast.Fits
    omega

/-- The same with divisions that round down. -/
theorem luku_eq {y m : ℤ} (hy : 1 ≤ y) (hm : 1 ≤ m) (d : ℤ) :
    luku y m d = 367 * y + 275 * m / 9 + d - 7 * (y + (m + 9) / 12) / 4 := by
  have hmonth : Int.tdiv (m + 9) 12 = (m + 9) / 12 := Int.tdiv_eq_ediv_of_nonneg (by omega)
  have hdays : Int.tdiv (275 * m) 9 = 275 * m / 9 := Int.tdiv_eq_ediv_of_nonneg (by omega)
  have hyears : Int.tdiv (7 * (y + (m + 9) / 12)) 4 = 7 * (y + (m + 9) / 12) / 4 :=
    Int.tdiv_eq_ediv_of_nonneg (by omega)
  unfold luku
  rw [hmonth, hdays, Int.neg_mul, Int.neg_tdiv, hyears]
  ring

theorem luku_month {y : ℤ} {m : ℕ} (hy : 1 ≤ y) (hm : 1 ≤ m) (hm' : m < 12) :
    luku y (m + 1) 1 = luku y m (daysInMonth fourth y m) + 1 := by
  rw [luku_eq hy (by omega), luku_eq hy (by omega)]
  interval_cases m <;> simp only [daysInMonth] <;> push_cast
  case «2» =>
    split
    · rename_i h
      rw [fourth_iff] at h
      omega
    · rename_i h
      rw [fourth_iff] at h
      have h' : y % 4 = 1 ∨ y % 4 = 2 ∨ y % 4 = 3 := by omega
      omega
  all_goals omega

theorem luku_year {y : ℤ} (hy : 1 ≤ y) : luku (y + 1) 1 1 = luku y 12 31 + 1 := by
  rw [luku_eq (by omega) le_rfl, luku_eq hy (by omega)]
  omega

variable {leap : ℤ → Bool}

theorem luku_next {d : Date leap} (hy : 1 ≤ d.year) (h4 : leap d.year = fourth d.year) :
    luku d.next.year d.next.month d.next.day = luku d.year d.month d.day + 1 := by
  have hmonth : daysInMonth leap d.year d.month = daysInMonth fourth d.year d.month := by
    unfold daysInMonth
    rw [h4]
  have hpos := d.month_pos
  have hle := d.day_le
  unfold Date.next
  split
  · unfold luku
    push_cast
    ring
  · rename_i hd
    have hday : d.day = daysInMonth fourth d.year d.month := by omega
    split
    · rename_i hm
      rw [hday, ← luku_month hy hpos hm]
      rfl
    · rename_i hm
      have h12 : d.month = 12 := by have := d.month_le; omega
      rw [hday, h12]
      exact luku_year hy

/-! ## FNday -/

section
variable {K : Type} [Field K]

/-- `FNday` of a date. -/
def dayNumber (d : Date leap) (h : K) : K := FNday d.year d.month d.day h

theorem dayNumber_next {d : Date leap} (hy : 1 ≤ d.year) (h4 : leap d.year = fourth d.year) (h : K) :
    dayNumber d.next h = dayNumber d h + 1 := by
  unfold dayNumber
  rw [FNday_eq, FNday_eq, luku_next hy h4]
  push_cast
  ring

/-- 2000-01-01. -/
def J2000 : Day := ⟨2000, 1, 1, by decide, by decide, by decide, by decide⟩

theorem FNday_J2000 [CharZero K] (h : K) : FNday 2000 1 1 h = (h - 12) / 24 := by
  have hdays : luku 2000 1 1 = 730531 := by decide
  rw [FNday_eq, hdays]
  norm_num
  ring

theorem dayNumber_eq_daysFrom [CharZero K] {d : Day} (hd : d.year ∈ Set.Icc 1901 2099) (h : K) :
    dayNumber d h = daysFrom J2000 d + (h - 12) / 24 := by
  have hJ : J2000.year ∈ Set.Icc 1901 2099 := by decide
  have hstep (e : Day) (he : e.year ∈ Set.Icc 1901 2099) : dayNumber e.next h = dayNumber e h + 1 :=
    dayNumber_next (by have := he.1; omega) (gregorian_eq_fourth he) h
  have h0 : dayNumber J2000 h = (h - 12) / 24 := FNday_J2000 h
  rw [Date.eq_add_daysFrom (f := fun e : Day => dayNumber e h) Set.ordConnected_Icc hstep hJ hd, h0, add_comm]

/-- `FNday` goes up by one from day to day, in C for the years of `luku_fits`, and
counts the days from J2000 at 12 o'clock. -/
theorem FNday_counts [CharZero K] :
    (∀ d : Date fourth, 1 ≤ d.year → ∀ h : K, dayNumber d.next h = dayNumber d h + 1) ∧
      FNday 2000 1 1 (12 : K) = 0 ∧
      ∀ d : Day, 1901 ≤ d.year → d.year ≤ 2099 → ∀ h : K,
        dayNumber d h = daysFrom J2000 d + (h - 12) / 24 := by
  refine ⟨fun d hy h => dayNumber_next hy rfl h, ?_, fun d h1 h2 h => dayNumber_eq_daysFrom ⟨h1, h2⟩ h⟩
  rw [FNday_J2000, sub_self, zero_div]

end

/-- After a leap day, and at Christmas 1901. -/
theorem FNday_counts_leap_day :
    let d : Date fourth := ⟨2000, 2, 29, by decide, by decide, by decide, by decide⟩
    let e : Day := ⟨1901, 12, 25, by decide, by decide, by decide, by decide⟩
    dayNumber d.next (12 : ℚ) = dayNumber d 12 + 1 ∧ FNday 2000 1 1 (12 : ℚ) = 0 ∧
      dayNumber e (6 : ℚ) = daysFrom J2000 e + (6 - 12) / 24 := by
  intro d e
  obtain ⟨hnext, hzero, hcount⟩ := FNday_counts (K := ℚ)
  exact ⟨hnext d (by decide) 12, hzero, hcount e (by decide) (by decide) 6⟩

end VscpAutomation.DayNumber
