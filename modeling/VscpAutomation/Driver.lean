import VscpAutomation.Sun
/-!
# The automation object

`CAutomation`'s state, its constructor, setters, `doCalc`, `doWork` and
`eventExToReceiveQueue`. One call reads the clock once: where the source calls
`Now()` again within a call it gets the same reading here.

`Entry` logs what a call did: a `doCalc`, with the place and the reading it
used, and an event handed to `eventExToReceiveQueue`.
-/

namespace VscpAutomation

open vscpdatetime (sameMinute)

/-- The five daily events. -/
inductive Kind where
  | sunrise
  | civilTwilightSunrise
  | sunset
  | civilTwilightSunset
  | noon
deriving DecidableEq

/-- The kinds in the order in which `doWork` looks at them. -/
def Kind.order : List Kind := [.sunrise, .civilTwilightSunrise, .sunset, .civilTwilightSunset, .noon]

theorem Kind.mem_order (k : Kind) : k ∈ Kind.order := by
  cases k <;> decide

theorem Kind.order_nodup : Kind.order.Nodup := by decide

/-- The type of a kind's event. -/
def Kind.vscp_type : Kind → VscpType
  | sunrise => .VSCP_TYPE_INFORMATION_SUNRISE
  | civilTwilightSunrise => .VSCP_TYPE_INFORMATION_SUNRISE_TWILIGHT_START
  | sunset => .VSCP_TYPE_INFORMATION_SUNSET
  | civilTwilightSunset => .VSCP_TYPE_INFORMATION_SUNSET_TWILIGHT_START
  | noon => .VSCP_TYPE_INFORMATION_CALCULATED_NOON

theorem Kind.vscp_type_injective : Function.Injective Kind.vscp_type := by
  intro a b h
  cases a <;> cases b <;> first | rfl | cases h

/-! ## State -/

structure CAutomation (K : Type) where
  m_bDebug : Bool
  m_bWrite : Bool
  m_bQuit : Bool
  m_vscpfilter : vscpEventFilter
  m_path : String
  m_guid : cguid
  m_receiveList : List vscpEvent
  m_semReceiveQueue : ℕ
  m_bEnableAutomation : Bool
  m_zone : UInt8
  m_subzone : UInt8
  m_longitude : K
  m_latitude : K
  m_bSunRiseEvent : Bool
  m_bSunRiseTwilightEvent : Bool
  m_bSunSetEvent : Bool
  m_bSunSetTwilightEvent : Bool
  m_bCalculatedNoonEvent : Bool
  m_declination : K
  m_daylength : K
  m_SunMaxAltitude : K
  m_lastCalculation : vscpdatetime
  m_civilTwilightSunriseTime : vscpdatetime
  m_civilTwilightSunriseTime_sent : vscpdatetime
  m_SunriseTime : vscpdatetime
  m_SunriseTime_sent : vscpdatetime
  m_SunsetTime : vscpdatetime
  m_SunsetTime_sent : vscpdatetime
  m_civilTwilightSunsetTime : vscpdatetime
  m_civilTwilightSunsetTime_sent : vscpdatetime
  m_noonTime : vscpdatetime
  m_noonTime_sent : vscpdatetime
  m_bCalulationHasBeenDone : Bool

/-- One thing a call did. -/
inductive Entry (K : Type) where
  | calculated (m_latitude m_longitude : K) (now : Clock)
  | handed (now : Clock) (ex : vscpEventEx)

namespace CAutomation

variable {K : Type}

/-- The time a kind is scheduled for. -/
def time (s : CAutomation K) : Kind → vscpdatetime
  | .sunrise => s.m_SunriseTime
  | .civilTwilightSunrise => s.m_civilTwilightSunriseTime
  | .sunset => s.m_SunsetTime
  | .civilTwilightSunset => s.m_civilTwilightSunsetTime
  | .noon => s.m_noonTime

/-- When a kind was last sent. -/
def sent (s : CAutomation K) : Kind → vscpdatetime
  | .sunrise => s.m_SunriseTime_sent
  | .civilTwilightSunrise => s.m_civilTwilightSunriseTime_sent
  | .sunset => s.m_SunsetTime_sent
  | .civilTwilightSunset => s.m_civilTwilightSunsetTime_sent
  | .noon => s.m_noonTime_sent

/-- The flag of a kind. -/
def enabled (s : CAutomation K) : Kind → Bool
  | .sunrise => s.m_bSunRiseEvent
  | .civilTwilightSunrise => s.m_bSunRiseTwilightEvent
  | .sunset => s.m_bSunSetEvent
  | .civilTwilightSunset => s.m_bSunSetTwilightEvent
  | .noon => s.m_bCalculatedNoonEvent

/-! ## Setters -/

def enableCalculatedNoonEvent (s : CAutomation K) (bEnable : Bool) : CAutomation K :=
  { s with m_bCalculatedNoonEvent := bEnable }

def disableCalculatedNoonEvent (s : CAutomation K) : CAutomation K :=
  { s with m_bCalculatedNoonEvent := false }

def enableSunRiseEvent (s : CAutomation K) (bEnable : Bool) : CAutomation K :=
  { s with m_bSunRiseEvent := bEnable }

def disableSunRiseEvent (s : CAutomation K) : CAutomation K :=
  { s with m_bSunRiseEvent := false }

def enableSunSetEvent (s : CAutomation K) (bEnable : Bool) : CAutomation K :=
  { s with m_bSunSetEvent := bEnable }

def disableSunSetEvent (s : CAutomation K) : CAutomation K :=
  { s with m_bSunSetEvent := false }

def enableSunRiseTwilightEvent (s : CAutomation K) (bEnable : Bool) : CAutomation K :=
  { s with m_bSunRiseTwilightEvent := bEnable }

def disableSunRiseTwilightEvent (s : CAutomation K) : CAutomation K :=
  { s with m_bSunRiseTwilightEvent := false }

def enableSunSetTwilightEvent (s : CAutomation K) (bEnable : Bool) : CAutomation K :=
  { s with m_bSunSetTwilightEvent := bEnable }

def disableSunSetTwilightEvent (s : CAutomation K) : CAutomation K :=
  { s with m_bSunSetTwilightEvent := false }

def enableAutomation (s : CAutomation K) (bVal : Bool) : CAutomation K :=
  { s with m_bEnableAutomation := bVal }

def disableAutomation (s : CAutomation K) : CAutomation K :=
  { s with m_bEnableAutomation := false }

def setLongitude (s : CAutomation K) (l : K) : CAutomation K := { s with m_longitude := l }

def setLatitude (s : CAutomation K) (l : K) : CAutomation K := { s with m_latitude := l }

/-! ## Receive queue -/

section
variable (E : Env K)

/-- Put `ex` in the receive queue, unless it cannot be converted or the filter
stops it. -/
def eventExToReceiveQueue (ex : vscpEventEx) (s : CAutomation K) : Bool × CAutomation K :=
  match E.vscp_convertEventExToEvent ex with
  | none => (false, s)
  | some pev =>
    if E.vscp_doLevel2Filter pev s.m_vscpfilter then
      (true, { s with
        m_receiveList := s.m_receiveList ++ [pev]
        m_semReceiveQueue := s.m_semReceiveQueue + 1 })
    else (true, s)

/-- Only the queue and its semaphore change. -/
theorem eventExToReceiveQueue_frame (ex : vscpEventEx) (s : CAutomation K) :
    ∃ l n, (s.eventExToReceiveQueue E ex).2 = { s with m_receiveList := l, m_semReceiveQueue := n } := by
  unfold eventExToReceiveQueue
  split
  · exact ⟨_, _, rfl⟩
  · split
    · exact ⟨_, _, rfl⟩
    · exact ⟨_, _, rfl⟩

end

/-! ## Calculation -/

/-- Which of the five times is a kind's. -/
def timeOf (t : Times K) : Kind → K
  | .sunrise => t.sunriseTime
  | .civilTwilightSunrise => t.twilightSunrise
  | .sunset => t.sunsetTime
  | .civilTwilightSunset => t.twilightSunset
  | .noon => t.noonTime

section
variable [Field K] [LinearOrder K] [FloorRing K] (E : Env K)

/-- `floatTime` on the date of `now`. -/
def publish (c : Clock) (floatTime : K) : vscpdatetime :=
  let hm := convert2HourMinute floatTime
  E.setMinute (E.setHour (E.zeroTime c.now) hm.1) hm.2

def doCalc (c : Clock) (s : CAutomation K) : CAutomation K :=
  let r := calcSun E s.m_latitude s.m_longitude c.now
  { s with
    m_declination := r.delta * degs
    m_daylength := r.daylen
    m_SunMaxAltitude := r.maxAltitude
    m_lastCalculation := c.now
    m_civilTwilightSunriseTime := publish E c r.times.twilightSunrise
    m_SunriseTime := publish E c r.times.sunriseTime
    m_SunsetTime := publish E c r.times.sunsetTime
    m_civilTwilightSunsetTime := publish E c r.times.twilightSunset
    m_noonTime := publish E c r.times.noonTime }

/-- The hour and minute `doCalc` finds for a kind, at a place and a reading. -/
def hourMinute (m_latitude m_longitude : K) (c : Clock) (k : Kind) : ℤ × ℤ :=
  convert2HourMinute (timeOf (calcSun E m_latitude m_longitude c.now).times k)

/-- The time `doCalc` schedules a kind for, at a place and a reading. -/
def scheduled (m_latitude m_longitude : K) (c : Clock) (k : Kind) : vscpdatetime :=
  publish E c (timeOf (calcSun E m_latitude m_longitude c.now).times k)

@[simp]
theorem doCalc_time (c : Clock) (s : CAutomation K) (k : Kind) :
    (s.doCalc E c).time k = scheduled E s.m_latitude s.m_longitude c k := by
  cases k <;> rfl

/-- An hour and a minute that exist are scheduled on the date of the reading. -/
theorem scheduled_lawful (hE : E.Lawful) {lat lon : K} {c : Clock} {k : Kind}
    (hh : 0 ≤ (hourMinute E lat lon c k).1 ∧ (hourMinute E lat lon c k).1 ≤ 23)
    (hm : 0 ≤ (hourMinute E lat lon c k).2 ∧ (hourMinute E lat lon c k).2 ≤ 59) :
    (scheduled E lat lon c k).OnDate c.date ∧
      (scheduled E lat lon c k).hour = (hourMinute E lat lon c k).1 ∧
      (scheduled E lat lon c k).minute = (hourMinute E lat lon c k).2 := by
  have h0 := hE.zeroTime_onDate _ _ (vscpdatetime.onDate_now c)
  have h1 := hE.setHour_onDate _ _ _ h0 hh.1 hh.2
  refine ⟨hE.setMinute_onDate _ _ _ h1 hm.1 hm.2, ?_, hE.setMinute_minute _ _ hm.1 hm.2⟩
  exact (hE.setMinute_hour _ _ hm.1 hm.2).trans (hE.setHour_hour _ _ hh.1 hh.2)

/-! ## Construction -/

/-- The constructor, at reading `c`. -/
def new (c : Clock) : CAutomation K :=
  doCalc E c
    { m_bDebug := false
      m_bWrite := false
      m_bQuit := false
      m_vscpfilter := E.vscp_clearVSCPFilter
      m_path := ""
      m_guid := E.cguidInit
      m_receiveList := []
      m_semReceiveQueue := 0
      m_bEnableAutomation := true
      m_zone := 0
      m_subzone := 0
      m_longitude := 15.1604167
      m_latitude := 61.7441833
      m_bSunRiseEvent := true
      m_bSunRiseTwilightEvent := true
      m_bSunSetEvent := true
      m_bSunSetTwilightEvent := true
      m_bCalculatedNoonEvent := true
      m_declination := 0
      m_daylength := 0
      m_SunMaxAltitude := 0
      m_lastCalculation := c.now
      m_civilTwilightSunriseTime := E.dateTimeZero
      m_civilTwilightSunriseTime_sent := E.dateTimeZero
      m_SunriseTime := E.dateTimeZero
      m_SunriseTime_sent := E.dateTimeZero
      m_SunsetTime := E.dateTimeZero
      m_SunsetTime_sent := E.dateTimeZero
      m_civilTwilightSunsetTime := E.dateTimeZero
      m_civilTwilightSunsetTime_sent := E.dateTimeZero
      m_noonTime := E.dateTimeZero
      m_noonTime_sent := E.dateTimeZero
      m_bCalulationHasBeenDone := false }

/-! ## doWork -/

/-- What a call leaves behind: the state, what it returned and what it did. -/
structure Work (K : Type) where
  state : CAutomation K
  ret : Bool
  log : List (Entry K)

/-- The VSCP2_TYPE_VSCPD_NEW_CALCULATION event. -/
def newCalculation (c : Clock) (s : CAutomation K) : vscpEventEx where
  obid := 0
  head := 0
  timestamp := E.vscp_makeTimeStamp c.now
  dateTime := E.vscp_setEventExToNow c.now
  vscp_class := .VSCP_CLASS2_VSCPD
  vscp_type := .VSCP2_TYPE_VSCPD_NEW_CALCULATION
  sizeData := 0
  GUID := s.m_guid
  data := []

/-- The event of a kind: index, zone and subzone. -/
def information (c : Clock) (k : Kind) (s : CAutomation K) : vscpEventEx where
  obid := 0
  head := 0
  timestamp := E.vscp_makeTimeStamp c.now
  dateTime := E.vscp_setEventExToNow c.now
  vscp_class := .VSCP_CLASS1_INFORMATION
  vscp_type := k.vscp_type
  sizeData := 3
  GUID := s.m_guid
  data := [0, s.m_zone, s.m_subzone]

/-- Move a kind's time on by 24h and note that it is sent now. -/
def reschedule (c : Clock) (k : Kind) (s : CAutomation K) : CAutomation K :=
  match k with
  | .sunrise =>
    { s with m_SunriseTime := E.addSeconds s.m_SunriseTime SPAN24, m_SunriseTime_sent := c.now }
  | .civilTwilightSunrise =>
    { s with
      m_civilTwilightSunriseTime := E.addSeconds s.m_civilTwilightSunriseTime SPAN24
      m_civilTwilightSunriseTime_sent := c.now }
  | .sunset =>
    { s with m_SunsetTime := E.addSeconds s.m_SunsetTime SPAN24, m_SunsetTime_sent := c.now }
  | .civilTwilightSunset =>
    { s with
      m_civilTwilightSunsetTime := E.addSeconds s.m_civilTwilightSunsetTime SPAN24
      m_civilTwilightSunsetTime_sent := c.now }
  | .noon => { s with m_noonTime := E.addSeconds s.m_noonTime SPAN24, m_noonTime_sent := c.now }

/-- The branch of `doWork` for a kind that is due. -/
def deliver (c : Clock) (k : Kind) (s : CAutomation K) : Work K :=
  let s := s.reschedule E c k
  let ex := s.information E c k
  let r := s.eventExToReceiveQueue E ex
  ⟨r.2, r.1, [.handed c ex]⟩

def doWork (c : Clock) (s : CAutomation K) : Work K :=
  -- Calculate Sunrise/sunset parameters once a day
  if !s.m_bCalulationHasBeenDone && 0 == c.now.hour then
    let s' := { s.doCalc E c with m_bCalulationHasBeenDone := true }
    let ex := s'.newCalculation E c
    let r := s'.eventExToReceiveQueue E ex
    ⟨r.2, r.1, [.calculated s.m_latitude s.m_longitude c, .handed c ex]⟩
  else
    -- Trigger for next noon calculation
    let s := if 0 != c.now.hour then { s with m_bCalulationHasBeenDone := false } else s
    if sameMinute c.now s.m_SunriseTime then s.deliver E c .sunrise
    else if sameMinute c.now s.m_civilTwilightSunriseTime then s.deliver E c .civilTwilightSunrise
    else if sameMinute c.now s.m_SunsetTime then s.deliver E c .sunset
    else if sameMinute c.now s.m_civilTwilightSunsetTime then s.deliver E c .civilTwilightSunset
    else if sameMinute c.now s.m_noonTime then s.deliver E c .noon
    else ⟨s, false, []⟩

end

end CAutomation

end VscpAutomation
