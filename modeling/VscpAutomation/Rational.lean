import VscpAutomation.Driver
import VscpAutomation.Lib.Elementary
import Mathlib.Data.Rat.Floor
/-!
# The driver on rationals

An `Env` that runs: the functions of `Elementary` for `<math.h>`, date-times on
the calendar, a clock one hour ahead of UTC and events that always convert and
pass the filter.
-/

namespace VscpAutomation

open Calendar Elementary

namespace vscpdatetime

/-- The day of a date-time, if there is such a day. -/
def toDay (t : vscpdatetime) : Option Day :=
  if h : 1 ≤ (t.month + 1).toNat ∧ (t.month + 1).toNat ≤ 12 ∧ 1 ≤ t.day.toNat ∧
      t.day.toNat ≤ daysInMonth gregorian t.year (t.month + 1).toNat then
    some ⟨t.year, (t.month + 1).toNat, t.day.toNat, h.1, h.2.1, h.2.2.1, h.2.2.2⟩
  else none

theorem toDay_onDate {t : vscpdatetime} {d : Day} (h : t.OnDate d) : t.toDay = some d := by
  obtain ⟨hy, hm, hd⟩ := h
  have hm' : (t.month + 1).toNat = d.month := by omega
  have hd' : t.day.toNat = d.day := by omega
  unfold toDay
  simp only [hy, hm', hd', d.month_pos, d.month_le, d.day_pos, d.day_le, and_self, dite_true]

/-- The same time of the next day. -/
def dayAfter (t : vscpdatetime) : vscpdatetime :=
  match t.toDay with
  | some d => { t with year := d.next.year, month := d.next.month - 1, day := d.next.day }
  | none => t

theorem dayAfter_onDate {t : vscpdatetime} {d : Day} (h : t.OnDate d) : t.dayAfter.OnDate d.next := by
  unfold dayAfter
  rw [toDay_onDate h]
  exact ⟨rfl, rfl, rfl⟩

end vscpdatetime

/-- One hour earlier, in UTC, with months counted from 1. -/
def utc (t : vscpdatetime) : EventTime :=
  let year := t.year.toNat
  let month := (t.month + 1).toNat
  let day := t.day.toNat
  let (year, month, day, hour) :=
    if 0 < t.hour then (year, month, day, t.hour.toNat - 1)
    else if 1 < day then (year, month, day - 1, 23)
    else if 1 < month then (year, month - 1, daysInMonth gregorian t.year (month - 1), 23)
    else (year - 1, 12, 31, 23)
  ⟨year, month, day, hour, t.minute.toNat, t.second.toNat⟩

/-- The environment on `ℚ`. `addSeconds` adds whole days, all the driver adds. -/
def rationalEnv (readJson : String → Except JsonException (Json ℚ × String)) : Env ℚ where
  sin x := toRat (sinCos (ofRat x)).1
  cos x := toRat (sinCos (ofRat x)).2
  tan x := toRat (div (sinCos (ofRat x)).1 (sinCos (ofRat x)).2)
  asin x := toRat (asin (ofRat x))
  atan2 y x := toRat (atan2 (ofRat y) (ofRat x))
  zeroTime t := { t with hour := 0, minute := 0, second := 0, millisecond := 0 }
  setHour t h := { t with hour := h }
  setMinute t m := { t with minute := m }
  addSeconds t n := vscpdatetime.dayAfter^[(n / SPAN24).toNat] t
  dateTimeZero := ⟨0, 0, 0, 0, 0, 0, 0⟩
  tzOffset2LocalTime _ := 1
  vscp_makeTimeStamp _ := 0
  vscp_setEventExToNow := utc
  cguidInit := .replicate 16 0
  vscp_clearVSCPFilter := ⟨⟨0, 0, 0, .replicate 16 0⟩, ⟨0, 0, 0, .replicate 16 0⟩⟩
  vscp_doLevel2Filter _ _ := true
  vscp_convertEventExToEvent ex := some ⟨ex.timestamp, ex.vscp_class, ex.vscp_type, ex.GUID, ex.data⟩
  readJson := readJson

theorem rationalEnv_lawful (readJson : String → Except JsonException (Json ℚ × String)) :
    (rationalEnv readJson).Lawful where
  zeroTime_onDate _ _ h := h
  setHour_onDate _ _ _ h _ _ := h
  setHour_hour _ _ _ _ := rfl
  setMinute_onDate _ _ _ h _ _ := h
  setMinute_hour _ _ _ _ := rfl
  setMinute_minute _ _ _ _ := rfl
  addSpan_onDate _ _ h := vscpdatetime.dayAfter_onDate h

/-- A reading in March 2021. -/
def march (day : ℕ) (hour : Fin 24) (minute : Fin 60) (hday : 1 ≤ day ∧ day ≤ 31) : Clock where
  date := ⟨2021, 3, day, by decide, by decide, hday.1, hday.2⟩
  hour := hour
  minute := minute
  second := 0
  millisecond := 0

end VscpAutomation
