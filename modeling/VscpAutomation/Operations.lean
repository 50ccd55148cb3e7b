import VscpAutomation.Work
import VscpAutomation.Config
/-!
# Everything done to one object

`Operation` is a call on the object, from the API, the configuration or the
worker thread. `opRun` is the constructor and then any calls, one after the
other. Its trace has what the calls did, and when the place was set. `Request`
has the setters that `Operation` lacks; nothing in the driver calls them.
-/

namespace VscpAutomation

/-- A call on the object. -/
inductive Operation (K : Type) where
  | open_ (path : String) (guid : cguid) (content : String) (created : Bool)
  | doLoadConfig (content : String)
  | doCalc (now : Clock)
  | doWork (now : Clock)
  | setLongitude (l : K)
  | setLatitude (l : K)
  | enableCalculatedNoonEvent (bEnable : Bool)
  | disableCalculatedNoonEvent
  | enableSunRiseEvent (bEnable : Bool)
  | disableSunRiseEvent
  | enableSunSetEvent (bEnable : Bool)
  | disableSunSetEvent
  | enableSunRiseTwilightEvent (bEnable : Bool)
  | disableSunRiseTwilightEvent
  | enableSunSetTwilightEvent (bEnable : Bool)
  | disableSunSetTwilightEvent
  | enableAutomation (bVal : Bool)
  | disableAutomation

/-- Any call on the object, by whoever holds it. -/
inductive Request (K : Type) where
  | operation (op : Operation K)
  | setZone (zone : UInt8)
  | setSubzone (subzone : UInt8)
  | enableWrite (bEnable : Bool)
  | disableWrite

/-- What happened in a run: an entry of a log, or the place was set. -/
inductive Trace (K : Type) where
  | did (e : Entry K)
  | moved

namespace Trace

variable {K : Type}

def calculation : Trace K → Option (K × K × Clock)
  | .did e => e.calculation
  | .moved => none

def handedAt (t : VscpType) : Trace K → Option Clock
  | .did e => e.handedAt t
  | .moved => none

def isMoved : Trace K → Bool
  | .did _ => false
  | .moved => true

end Trace

namespace CAutomation

section
variable {K : Type}

def setZone (s : CAutomation K) (zone : UInt8) : CAutomation K := { s with m_zone := zone }

def setSubzone (s : CAutomation K) (subzone : UInt8) : CAutomation K := { s with m_subzone := subzone }

def enableWrite (s : CAutomation K) (bEnable : Bool) : CAutomation K := { s with m_bWrite := bEnable }

def disableWrite (s : CAutomation K) : CAutomation K := { s with m_bWrite := false }

end

variable {K : Type} [Field K] [LinearOrder K] [FloorRing K] (E : Env K)

def opStep (s : CAutomation K) : Operation K → CAutomation K × List (Trace K)
  | .open_ path guid content created => ((s.open_ E path guid content created).state, [])
  | .doLoadConfig content => ((s.doLoadConfig E content).state, [])
  | .doCalc c => (s.doCalc E c, [.did (.calculated s.m_latitude s.m_longitude c)])
  | .doWork c => ((s.doWork E c).state, (s.doWork E c).log.map .did)
  | .setLongitude l => (s.setLongitude l, [.moved])
  | .setLatitude l => (s.setLatitude l, [.moved])
  | .enableCalculatedNoonEvent b => (s.enableCalculatedNoonEvent b, [])
  | .disableCalculatedNoonEvent => (s.disableCalculatedNoonEvent, [])
  | .enableSunRiseEvent b => (s.enableSunRiseEvent b, [])
  | .disableSunRiseEvent => (s.disableSunRiseEvent, [])
  | .enableSunSetEvent b => (s.enableSunSetEvent b, [])
  | .disableSunSetEvent => (s.disableSunSetEvent, [])
  | .enableSunRiseTwilightEvent b => (s.enableSunRiseTwilightEvent b, [])
  | .disableSunRiseTwilightEvent => (s.disableSunRiseTwilightEvent, [])
  | .enableSunSetTwilightEvent b => (s.enableSunSetTwilightEvent b, [])
  | .disableSunSetTwilightEvent => (s.disableSunSetTwilightEvent, [])
  | .enableAutomation b => (s.enableAutomation b, [])
  | .disableAutomation => (s.disableAutomation, [])

/-- The constructor at `start`, which calculates, and then `ops`. -/
def opRun (start : Clock) (ops : List (Operation K)) : CAutomation K × List (Trace K) :=
  let s := new E start
  let r := Runs.run (opStep E) s ops
  (r.1, .did (.calculated s.m_latitude s.m_longitude start) :: r.2)

theorem opRun_concat (start : Clock) (ops : List (Operation K)) (op : Operation K) :
    opRun E start (ops ++ [op]) =
      ((opStep E (opRun E start ops).1 op).1, (opRun E start ops).2 ++ (opStep E (opRun E start ops).1 op).2) := by
  simp only [opRun, Runs.run_concat, List.cons_append]

/-- A request: the state after it, and what it did. -/
def request (s : CAutomation K) : Request K → CAutomation K × List (Trace K)
  | .operation op => opStep E s op
  | .setZone zone => (s.setZone zone, [])
  | .setSubzone subzone => (s.setSubzone subzone, [])
  | .enableWrite b => (s.enableWrite b, [])
  | .disableWrite => (s.disableWrite, [])

/-- The constructor at `start`, and then `reqs`. -/
def requestRun (start : Clock) (reqs : List (Request K)) : CAutomation K × List (Trace K) :=
  Runs.run (request E) (new E start) reqs

end CAutomation

end VscpAutomation
