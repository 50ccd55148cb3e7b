import VscpAutomation.Lib.Calendar
import Mathlib.Algebra.GroupWithZero.Nat
/-!
# Clock readings and date-times

`vscpdatetime` is the helper library's class, as its getters show it. A
`Clock` is what `vscpdatetime::Now()` can return: a date that exists and a
time of day. The driver only compares date-times through the getters, down to
the minute (`sameMinute`).
-/

namespace VscpAutomation

open Calendar

/-- A day of the system's calendar. -/
abbrev Day := Date gregorian

/-- What the getters of a `vscpdatetime` return. `getMonth` counts from 0. -/
structure vscpdatetime where
  year : ℤ
  month : ℤ
  day : ℤ
  hour : ℤ
  minute : ℤ
  second : ℤ
  millisecond : ℤ
deriving DecidableEq

/-- A day has an hour 0. -/
instance hours_neZero : NeZero 24 := ⟨by decide⟩

/-- A reading of the system clock, in local time. -/
@[ext]
structure Clock where
  date : Day
  hour : Fin 24
  minute : Fin 60
  second : Fin 61
  millisecond : Fin 1000
deriving DecidableEq

namespace Clock

/-- `vscpdatetime::Now()`. -/
def now (c : Clock) : vscpdatetime where
  year := c.date.year
  month := c.date.month - 1
  day := c.date.day
  hour := c.hour
  minute := c.minute
  second := c.second
  millisecond := c.millisecond

/-- What readings are compared by. -/
def key (c : Clock) : Day ×ₗ Fin 24 ×ₗ Fin 60 ×ₗ Fin 61 ×ₗ Fin 1000 :=
  toLex (c.date, toLex (c.hour, toLex (c.minute, toLex (c.second, c.millisecond))))

theorem key_injective : Function.Injective key := by
  intro a b h
  simp only [key, EmbeddingLike.apply_eq_iff_eq, Prod.mk.injEq] at h
  exact Clock.ext h.1 h.2.1 h.2.2.1 h.2.2.2.1 h.2.2.2.2

instance : LinearOrder Clock := LinearOrder.lift' key key_injective

/-- The minute a reading falls in. -/
def toMinute (c : Clock) : Day ×ₗ Fin 24 ×ₗ Fin 60 := toLex (c.date, toLex (c.hour, c.minute))

theorem toMinute_mono {a b : Clock} (h : a ≤ b) : a.toMinute ≤ b.toMinute := by
  change a.key ≤ b.key at h
  simp only [key, toMinute, Prod.Lex.toLex_le_toLex] at h ⊢
  grind

theorem date_mono {a b : Clock} (h : a ≤ b) : a.date ≤ b.date := by
  have := toMinute_mono h
  simp only [toMinute, Prod.Lex.toLex_le_toLex] at this
  exact this.elim le_of_lt fun h => h.1.le

/-- Within one day the hour never goes back. -/
theorem hour_mono {a b : Clock} (h : a ≤ b) (hd : a.date = b.date) : a.hour ≤ b.hour := by
  have := toMinute_mono h
  simp only [toMinute, Prod.Lex.toLex_le_toLex, hd, lt_self_iff_false, false_or, true_and] at this
  exact this.elim le_of_lt fun h => h.1.le

end Clock

namespace vscpdatetime

/-- `t` is some time on day `d`. -/
def OnDate (t : vscpdatetime) (d : Day) : Prop :=
  t.year = d.year ∧ t.month = d.month - 1 ∧ t.day = d.day

theorem onDate_unique {t : vscpdatetime} {d e : Day} (hd : t.OnDate d) (he : t.OnDate e) : d = e := by
  obtain ⟨h1, h2, h3⟩ := hd
  obtain ⟨k1, k2, k3⟩ := he
  exact Date.ext (by omega) (by omega) (by omega)

theorem onDate_now (c : Clock) : c.now.OnDate c.date := ⟨rfl, rfl, rfl⟩

/-- The test in front of every event in `doWork`. -/
def sameMinute (now t : vscpdatetime) : Bool :=
  now.year == t.year && now.month == t.month && now.day == t.day && now.hour == t.hour &&
    now.minute == t.minute

theorem sameMinute_iff {c : Clock} {t : vscpdatetime} :
    sameMinute c.now t = true ↔ t.OnDate c.date ∧ t.hour = c.hour ∧ t.minute = c.minute := by
  simp only [sameMinute, Clock.now, Bool.and_eq_true, beq_iff_eq, OnDate]
  constructor
  · rintro ⟨⟨⟨⟨h1, h2⟩, h3⟩, h4⟩, h5⟩
    exact ⟨⟨h1.symm, h2.symm, h3.symm⟩, h4.symm, h5.symm⟩
  · rintro ⟨⟨h1, h2, h3⟩, h4, h5⟩
    exact ⟨⟨⟨⟨h1.symm, h2.symm⟩, h3.symm⟩, h4.symm⟩, h5.symm⟩

end vscpdatetime

end VscpAutomation
