import VscpAutomation.Time
import Mathlib.Data.Rat.Defs
/-!
# What the driver calls

The helper library, `<math.h>` and nlohmann::json are not in the repository.
`Env` is what the driver uses of them, `Env.Lawful` what it relies on of the
date-times.
-/

namespace VscpAutomation

/-! ## Events -/

/-- A 16-byte VSCP id. -/
abbrev cguid := Vector UInt8 16

/-- The event classes the driver names. -/
inductive VscpClass where
  | VSCP_CLASS1_INFORMATION
  | VSCP_CLASS2_VSCPD
  | VSCP_CLASS2_HLO
  | other (code : ℕ)
deriving DecidableEq

/-- The event types the driver names. -/
inductive VscpType where
  | VSCP_TYPE_INFORMATION_SUNRISE
  | VSCP_TYPE_INFORMATION_SUNSET
  | VSCP_TYPE_INFORMATION_SUNRISE_TWILIGHT_START
  | VSCP_TYPE_INFORMATION_SUNSET_TWILIGHT_START
  | VSCP_TYPE_INFORMATION_CALCULATED_NOON
  | VSCP2_TYPE_VSCPD_NEW_CALCULATION
  | VSCP2_TYPE_HLO_COMMAND
  | other (code : ℕ)
deriving DecidableEq

/-- The date and time of an event, which `vscp_setEventExToNow` sets. -/
structure EventTime where
  year : ℕ
  month : ℕ
  day : ℕ
  hour : ℕ
  minute : ℕ
  second : ℕ
deriving DecidableEq

/-- An event as `doWork` fills it in; `data` is the first `sizeData` bytes. -/
structure vscpEventEx where
  obid : ℕ
  head : ℕ
  timestamp : ℕ
  dateTime : EventTime
  vscp_class : VscpClass
  vscp_type : VscpType
  sizeData : ℕ
  GUID : cguid
  data : List UInt8
deriving DecidableEq

/-- An event in a queue. -/
structure vscpEvent where
  timestamp : ℕ
  vscp_class : VscpClass
  vscp_type : VscpType
  GUID : cguid
  data : List UInt8
deriving DecidableEq

/-- A filter or a mask: priority, class, type and id. -/
structure FilterWords where
  priority : ℕ
  vscp_class : ℕ
  vscp_type : ℕ
  GUID : cguid

structure vscpEventFilter where
  filter : FilterWords
  mask : FilterWords

/-! ## JSON -/

/-- A value of `nlohmann::json` whose floating-point numbers are in `K`. -/
inductive Json (K : Type) where
  | null
  | boolean (b : Bool)
  | number_integer (i : ℤ)
  | number_unsigned (n : ℕ)
  | number_float (x : K)
  | string (s : String)
  | array (l : List (Json K))
  | object (members : List (String × Json K))

/-- What `operator>>` can throw: `parse_error` where the text does not begin with
a value, `out_of_range` where a number does not fit a double. -/
inductive JsonException where
  | parse_error
  | out_of_range

/-! ## The environment -/

/-- The functions the driver calls. -/
structure Env (K : Type) where
  sin : K → K
  cos : K → K
  tan : K → K
  asin : K → K
  atan2 : K → K → K
  /-- Set the time to midnight. -/
  zeroTime : vscpdatetime → vscpdatetime
  setHour : vscpdatetime → ℤ → vscpdatetime
  setMinute : vscpdatetime → ℤ → vscpdatetime
  /-- `operator+=` with a number of seconds. -/
  addSeconds : vscpdatetime → ℤ → vscpdatetime
  dateTimeZero : vscpdatetime
  /-- Hours from UTC to local time, at a local time. -/
  tzOffset2LocalTime : vscpdatetime → K
  vscp_makeTimeStamp : vscpdatetime → ℕ
  /-- What it sets in an event, at a local time. -/
  vscp_setEventExToNow : vscpdatetime → EventTime
  /-- The id that the constructor of `cguid` makes. -/
  cguidInit : cguid
  /-- A filter that accepts all events. -/
  vscp_clearVSCPFilter : vscpEventFilter
  vscp_doLevel2Filter : vscpEvent → vscpEventFilter → Bool
  /-- `none` where the C function returns non-zero. -/
  vscp_convertEventExToEvent : vscpEventEx → Option vscpEvent
  /-- `operator>>` into a `json`: the value that the text begins with, and the
  text after it, at which it does not look. -/
  readJson : String → Except JsonException (Json K × String)

/-- Seconds for 24h. -/
def SPAN24 : ℤ := 24 * 3600

/-- What the driver relies on of date-times. Setting a time of day needs one
that exists; `+= SPAN24` leads to the next day. -/
structure Env.Lawful {K : Type} (E : Env K) : Prop where
  zeroTime_onDate : ∀ t d, vscpdatetime.OnDate t d → (E.zeroTime t).OnDate d
  setHour_onDate : ∀ t d h, vscpdatetime.OnDate t d → 0 ≤ h → h ≤ 23 → (E.setHour t h).OnDate d
  setHour_hour : ∀ t h, 0 ≤ h → h ≤ 23 → (E.setHour t h).hour = h
  setMinute_onDate : ∀ t d m, vscpdatetime.OnDate t d → 0 ≤ m → m ≤ 59 → (E.setMinute t m).OnDate d
  setMinute_hour : ∀ t m, 0 ≤ m → m ≤ 59 → (E.setMinute t m).hour = t.hour
  setMinute_minute : ∀ t m, 0 ≤ m → m ≤ 59 → (E.setMinute t m).minute = m
  addSpan_onDate : ∀ t d, vscpdatetime.OnDate t d → (E.addSeconds t SPAN24).OnDate d.next

end VscpAutomation
