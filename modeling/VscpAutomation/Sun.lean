import VscpAutomation.Lib.Cast
import VscpAutomation.Env
import Mathlib.Algebra.Field.Defs
import Mathlib.Algebra.Order.Floor.Defs
/-!
# The sunrise and sunset calculation

The arithmetic of `doCalc` and its helpers, with exact numbers from any ordered
field `K` in place of doubles. The file-level `L` and `g` that `FNsun` writes
are part of its result.
-/

namespace VscpAutomation

open Cast

section
variable {K : Type} [Field K] [LinearOrder K] [FloorRing K]

/-! ## Constants -/

def pi : K := 3.14159

def degs : K := 180.0 / pi

def rads : K := pi / 180.0

/-- Sun diameter in degrees. -/
def SunDia : K := 0.53

/-- Atmospheric refraction in degrees. -/
def AirRefr : K := 34.0 / 60.0

/-! ## Helpers -/

/-- Days from J2000; `h` is in decimal hours. -/
def FNday (y m d : ℤ) (h : K) : K :=
  let luku := Int.tdiv (-7 * (y + Int.tdiv (m + 9) 12)) 4 + Int.tdiv (275 * m) 9 + d
  let luku := luku + y * 367
  (luku : K) - 730531.5 + h / 24.0

/-- An angle in the range 0 to 2*pi. -/
def FNrange (x : K) : K :=
  let b := 0.5 * x / pi
  let a := 2.0 * pi * (b - (trunc b : K))
  if a < 0 then 2.0 * pi + a else a

/-- The hour angle. -/
def f0 (E : Env K) (lat declin : K) : K :=
  let dfo := rads * (0.5 * SunDia + AirRefr)
  let dfo := if lat < 0.0 then -dfo else dfo
  let fo := E.tan (declin + dfo) * E.tan (lat * rads)
  let fo := if fo > 0.99999 then 1.0 else fo
  E.asin fo + pi / 2.0

/-- The hour angle for twilight times. -/
def f1 (E : Env K) (lat declin : K) : K :=
  let df1 := rads * 6.0
  let df1 := if lat < 0.0 then -df1 else df1
  let fi := E.tan (declin + df1) * E.tan (lat * rads)
  let fi := if fi > 0.99999 then 1.0 else fi
  E.asin fi + pi / 2.0

/-- The sun's mean longitude and anomaly, and its ecliptic longitude. -/
structure Ecliptic (K : Type) where
  L : K
  g : K
  lambda : K

def FNsun (E : Env K) (d : K) : Ecliptic K :=
  let L := FNrange (280.461 * rads + 0.9856474 * rads * d)
  let g := FNrange (357.528 * rads + 0.9856003 * rads * d)
  ⟨L, g, FNrange (L + 1.915 * rads * E.sin g + 0.02 * rads * E.sin (2 * g))⟩

/-- The sum that `FNsun` returns, with `g` as it is at its first and its second
read. -/
def lambdaOf (E : Env K) (L g g' : K) : K := FNrange (L + 1.915 * rads * E.sin g + 0.02 * rads * E.sin (2 * g'))

/-- Decimal hours in hours and minutes, by C's remainders. -/
def convert2HourMinute (floatTime : K) : ℤ × ℤ :=
  let hours := Int.tmod (trunc floatTime) 24
  (hours, Int.tmod (trunc ((floatTime - (hours : K)) * 60)) 60)

/-! ## doCalc -/

/-- Declination and equation of time on day `d`. -/
structure SunPosition (K : Type) where
  delta : K
  equation : K

def sunPosition (E : Env K) (d : K) : SunPosition K :=
  let s := FNsun E d
  let obliq := 23.439 * rads - 0.0000004 * rads * d
  let alpha := E.atan2 (E.cos obliq * E.sin s.lambda) (E.cos s.lambda)
  let delta := E.asin (E.sin obliq * E.sin s.lambda)
  let LL := s.L - alpha
  let LL := if s.L < pi then LL + 2.0 * pi else LL
  ⟨delta, 1440.0 * (1.0 - LL / pi / 2.0)⟩

/-- The five times in hours, as doCalc has them before or after its
24-hour correction. -/
structure Times (K : Type) where
  sunriseTime : K
  sunsetTime : K
  noonTime : K
  twilightSunrise : K
  twilightSunset : K

/-- Length of twilight in hours. -/
def twilightLength (ha hb : K) : K := 12.0 * (hb - ha) / pi

/-- Length of the day in hours; 0 in the arctic winter. -/
def dayLength (ha : K) : K :=
  let daylen := degs * ha / 7.5
  if daylen < 0.0001 then 0.0 else daylen

def rawTimes (ha hb m_longitude tzone equation : K) : Times K :=
  let twx := twilightLength ha hb
  let sunriseTime := 12.0 - 12.0 * ha / pi + tzone - m_longitude / 15.0 + equation / 60.0
  let sunsetTime := 12.0 + 12.0 * ha / pi + tzone - m_longitude / 15.0 + equation / 60.0
  { sunriseTime, sunsetTime
    noonTime := sunriseTime + 12.0 * ha / pi
    twilightSunrise := sunriseTime - twx
    twilightSunset := sunsetTime + twx }

/-- The correction of one time. -/
def wrap24 (t : K) : K := if t > 24.0 then t - 24.0 else t

/-- The correction of the five; noon is left as it is. -/
def Times.wrap (t : Times K) : Times K where
  sunriseTime := wrap24 t.sunriseTime
  sunsetTime := wrap24 t.sunsetTime
  noonTime := t.noonTime
  twilightSunrise := wrap24 t.twilightSunrise
  twilightSunset := wrap24 t.twilightSunset

/-- Altitude of the sun at noon, from the horizon it is nearer to. -/
def maxAltitude (m_latitude delta : K) : K :=
  let maxAltitude := 90.0 + delta * degs - m_latitude
  if m_latitude < delta * degs then 180.0 - maxAltitude else maxAltitude

/-- The locals of doCalc that it stores or converts. -/
structure Calc (K : Type) where
  delta : K
  daylen : K
  maxAltitude : K
  times : Times K

/-- The arithmetic of doCalc at a place and a clock reading. -/
def calcSun (E : Env K) (m_latitude m_longitude : K) (nowLocal : vscpdatetime) : Calc K :=
  let tzone := E.tzOffset2LocalTime nowLocal
  let d := FNday nowLocal.year (nowLocal.month + 1) nowLocal.day (nowLocal.hour : K)
  let p := sunPosition E d
  let ha := f0 E m_latitude p.delta
  let hb := f1 E m_latitude p.delta
  { delta := p.delta
    daylen := dayLength ha
    maxAltitude := maxAltitude m_latitude p.delta
    times := (rawTimes ha hb m_longitude tzone p.equation).wrap }

end

end VscpAutomation
