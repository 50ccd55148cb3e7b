import Mathlib.Order.Lattice
import Mathlib.Data.Prod.Lex
import Mathlib.Data.Fin.Basic
import Mathlib.Order.Fin.Basic
import Mathlib.Data.Int.Order.Basic
import Mathlib.Order.SuccPred.LinearLocallyFinite
import Mathlib.Order.Interval.Finset.SuccPred
import Mathlib.Data.Finite.Prod
import Mathlib.Algebra.Ring.Basic
import Mathlib.Data.Int.ConditionallyCompleteOrder
import Mathlib.Data.Int.Interval
import Mathlib.Order.Interval.Finset.Nat
import Mathlib.Data.Int.Cast.Basic
import Mathlib.Tactic.Common
/-!
# Calendars

Dates of a calendar with twelve months, for any rule `leap` saying which years
have a 29th of February. A `Date` carries the proof that its day exists, so
there is no 30th of February to exclude later. Dates are ordered by year, month
and day, and `next` is the date that follows. `daysFrom` counts the days between
two dates, and so does whatever goes up by one a day (`eq_add_daysFrom`).
-/

namespace Calendar

variable {leap : ℤ → Bool}

/-! ## Counting in a discrete order -/

section
variable {α : Type*} [LinearOrder α] [LocallyFiniteOrder α]

/-- The number of steps from `a` to `b`, negative where `b` is the earlier one. -/
def daysFrom (a b : α) : ℤ := (Finset.Ico a b).card - (Finset.Ico b a).card

theorem daysFrom_self (a : α) : daysFrom a a = 0 := sub_self _

variable [SuccOrder α] [NoMaxOrder α]

theorem daysFrom_succ (a b : α) : daysFrom a (Order.succ b) = daysFrom a b + 1 := by
  unfold daysFrom
  rcases le_or_gt a b with h | h
  · -- `b` is one more after `a`
    rw [← Finset.insert_Ico_right_eq_Ico_succ h, Finset.card_insert_of_notMem Finset.right_notMem_Ico,
      Finset.Ico_eq_empty_of_le h, Finset.Ico_eq_empty_of_le (h.trans (Order.le_succ b)), Finset.card_empty]
    omega
  · -- `b` is one less before `a`
    have hnot : b ∉ Finset.Ico (Order.succ b) a := fun hb =>
      (Order.lt_succ b).not_ge (Finset.mem_Ico.1 hb).1
    rw [← Finset.insert_Ico_succ_left_eq_Ico h, Finset.card_insert_of_notMem hnot,
      Finset.Ico_eq_empty_of_le h.le, Finset.Ico_eq_empty_of_le (Order.succ_le_of_lt h), Finset.card_empty]
    omega

end

/-! ## Dates -/

/-- The years with a 29th of February since 1582. -/
def gregorian (y : ℤ) : Bool := y % 4 == 0 && (y % 100 != 0 || y % 400 == 0)

/-- Days in month `m` (1 to 12) of year `y`. -/
def daysInMonth (leap : ℤ → Bool) (y : ℤ) (m : ℕ) : ℕ :=
  match m with
  | 2 => if leap y then 29 else 28
  | 4 | 6 | 9 | 11 => 30
  | _ => 31

theorem daysInMonth_pos (y : ℤ) (m : ℕ) : 1 ≤ daysInMonth leap y m := by
  unfold daysInMonth
  split
  · split <;> omega
  all_goals omega

/-- A day of the calendar. -/
@[ext]
structure Date (leap : ℤ → Bool) where
  year : ℤ
  month : ℕ
  day : ℕ
  month_pos : 1 ≤ month
  month_le : month ≤ 12
  day_pos : 1 ≤ day
  day_le : day ≤ daysInMonth leap year month
deriving DecidableEq

namespace Date

/-- What dates are compared by. -/
def key (d : Date leap) : ℤ ×ₗ ℕ ×ₗ ℕ := toLex (d.year, toLex (d.month, d.day))

theorem key_injective : Function.Injective (@key leap) := by
  intro a b h
  simp only [key, EmbeddingLike.apply_eq_iff_eq, Prod.mk.injEq] at h
  exact Date.ext h.1 h.2.1 h.2.2

instance : LinearOrder (Date leap) := LinearOrder.lift' key key_injective

theorem lt_iff {a b : Date leap} :
    a < b ↔ a.year < b.year ∨ a.year = b.year ∧
      (a.month < b.month ∨ a.month = b.month ∧ a.day < b.day) := by
  change a.key < b.key ↔ _
  simp [key, Prod.Lex.toLex_lt_toLex]

/-- The day after `d`. -/
def next (d : Date leap) : Date leap :=
  if hd : d.day < daysInMonth leap d.year d.month then
    { d with day := d.day + 1, day_pos := by omega, day_le := hd }
  else if hm : d.month < 12 then
    { year := d.year, month := d.month + 1, day := 1, month_pos := by omega, month_le := hm,
      day_pos := le_rfl, day_le := daysInMonth_pos _ _ }
  else
    { year := d.year + 1, month := 1, day := 1, month_pos := le_rfl, month_le := by omega,
      day_pos := le_rfl, day_le := daysInMonth_pos _ _ }

theorem lt_next (d : Date leap) : d < d.next := by
  rw [lt_iff, next]
  split
  · exact .inr ⟨rfl, .inr ⟨rfl, Nat.lt_succ_self _⟩⟩
  · split
    · exact .inr ⟨rfl, .inl (Nat.lt_succ_self _)⟩
    · exact .inl (Int.lt_succ d.year)

theorem next_le_of_lt {a b : Date leap} (h : a < b) : a.next ≤ b := by
  have hpos := b.day_pos
  have hle := b.day_le
  have hmonth := b.month_pos
  have hmonth' := b.month_le
  rw [lt_iff] at h
  rw [← not_lt, lt_iff, next]
  split
  · grind
  · split <;> grind

theorem year_mono {a b : Date leap} (h : a ≤ b) : a.year ≤ b.year := by
  rcases h.eq_or_lt with rfl | h
  · exact le_rfl
  · rw [lt_iff] at h
    omega

/-! ## Counting days -/

theorem finite_Icc (a b : Date leap) : (Set.Icc a b).Finite := by
  have hinj : Function.Injective fun d : Date leap => (d.year, d.month, d.day) := by
    intro d e h
    simp only [Prod.mk.injEq] at h
    exact Date.ext h.1 h.2.1 h.2.2
  have hday (d : Date leap) : d.day ≤ 31 := by
    apply d.day_le.trans
    unfold daysInMonth
    split
    · split <;> omega
    all_goals omega
  have hfin : (Set.Icc a.year b.year ×ˢ Set.Iic 12 ×ˢ Set.Iic 31).Finite :=
    (Set.finite_Icc _ _).prod ((Set.finite_Iic _).prod (Set.finite_Iic _))
  refine (hfin.subset ?_).of_finite_image hinj.injOn
  rintro _ ⟨d, ⟨h1, h2⟩, rfl⟩
  exact ⟨⟨year_mono h1, year_mono h2⟩, d.month_le, hday d⟩

instance succOrder : SuccOrder (Date leap) :=
  SuccOrder.ofSuccLeIff next ⟨(lt_next _).trans_le, next_le_of_lt⟩

instance noMaxOrder : NoMaxOrder (Date leap) := ⟨fun d => ⟨d.next, lt_next d⟩⟩

noncomputable instance locallyFiniteOrder : LocallyFiniteOrder (Date leap) := .ofFiniteIcc finite_Icc

theorem succ_eq (d : Date leap) : Order.succ d = d.next := rfl

/-- What goes up by one from each day to the next counts the days. -/
theorem eq_add_daysFrom {R : Type*} [Ring R] {f : Date leap → R} {S : Set ℤ} (hS : S.OrdConnected)
    (hf : ∀ d : Date leap, d.year ∈ S → f d.next = f d + 1) {a b : Date leap} (ha : a.year ∈ S)
    (hb : b.year ∈ S) : f b = f a + daysFrom a b := by
  have hstep {a b : Date leap} (hab : a ≤ b) (ha : a.year ∈ S) (hb : b.year ∈ S) (c : Date leap) :
      f b - daysFrom c b = f a - daysFrom c a := by
    induction hab using Succ.rec with
    | rfl => rfl
    | succ b hab ih =>
      have hmem : b.year ∈ S := hS.out ha hb ⟨year_mono hab, year_mono (Order.le_succ b)⟩
      rw [← ih hmem, daysFrom_succ, succ_eq, hf b hmem, Int.cast_add, Int.cast_one, add_sub_add_right_eq_sub]
  have key : f b - daysFrom a b = f a - daysFrom a a := by
    rcases le_total a b with h | h
    · exact hstep h ha hb a
    · exact (hstep h hb ha a).symm
  rw [daysFrom_self, Int.cast_zero, sub_zero] at key
  rw [← key, sub_add_cancel]

end Date

end Calendar
