import VscpAutomation.Plan
/-!
# The settings of an object

The place, the flags, the path, the id and the zones are cells that some calls
write and no calculation touches (`request_settings`, `request_flag`). After any
run each holds what was written last (`last_written`): loading a configuration
writes `m_bDebug` and four of the five kinds' flags, never the place, the zones
or `m_bWrite`. So the events of a run carry the id of the last `open` and the
zones last set by their setters (`event_content`).
-/

namespace VscpAutomation

/-- A setting that is on or off. -/
inductive Flag where
  | debug
  | write
  | automation
  | send (k : Kind)
deriving DecidableEq

namespace Flag

variable {K : Type}

/-- What the constructor sets. -/
def initial : Flag → Bool
  | debug => false
  | write => false
  | automation => true
  | send _ => true

/-- What a document sets. Two of its keys set `debug`, "write-enable" after
"debug-enable". -/
def inDocument (j : Json K) : Flag → Option Bool
  | debug => (j.boolAt "write-enable").or (j.boolAt "debug-enable")
  | write => none
  | automation => none
  | send .sunrise => j.boolAt "sunrise-enable"
  | send .civilTwilightSunrise => j.boolAt "sunrise-twilight-enable"
  | send .sunset => j.boolAt "sunset-enable"
  | send .civilTwilightSunset => j.boolAt "sunset-twilight-enable"
  | send .noon => none

/-- What a file sets: nothing, unless a document is read from it. -/
def inFile (E : Env K) (content : String) (f : Flag) : Option Bool :=
  match E.readJson content with
  | .ok (j, _) => f.inDocument j
  | .error _ => none

end Flag

/-- The flag that a setter sets, and to what. -/
def Operation.sets {K : Type} : Operation K → Option (Flag × Bool)
  | .enableCalculatedNoonEvent b => some (.send .noon, b)
  | .disableCalculatedNoonEvent => some (.send .noon, false)
  | .enableSunRiseEvent b => some (.send .sunrise, b)
  | .disableSunRiseEvent => some (.send .sunrise, false)
  | .enableSunSetEvent b => some (.send .sunset, b)
  | .disableSunSetEvent => some (.send .sunset, false)
  | .enableSunRiseTwilightEvent b => some (.send .civilTwilightSunrise, b)
  | .disableSunRiseTwilightEvent => some (.send .civilTwilightSunrise, false)
  | .enableSunSetTwilightEvent b => some (.send .civilTwilightSunset, b)
  | .disableSunSetTwilightEvent => some (.send .civilTwilightSunset, false)
  | .enableAutomation b => some (.automation, b)
  | .disableAutomation => some (.automation, false)
  | _ => none

/-! ## What each request writes -/

namespace Request

variable {K : Type}

def sets : Request K → Option (Flag × Bool)
  | .operation op => op.sets
  | .enableWrite b => some (.write, b)
  | .disableWrite => some (.write, false)
  | _ => none

def flag (E : Env K) (f : Flag) : Request K → Option Bool
  | .operation (.open_ _ _ content _) => f.inFile E content
  | .operation (.doLoadConfig content) => f.inFile E content
  | req => req.sets.bind fun x => if x.1 = f then some x.2 else none

def longitude : Request K → Option K
  | .operation (.setLongitude l) => some l
  | _ => none

def latitude : Request K → Option K
  | .operation (.setLatitude l) => some l
  | _ => none

/-- The path and the id. -/
def opens : Request K → Option (String × cguid)
  | .operation (.open_ path guid _ _) => some (path, guid)
  | _ => none

def zone : Request K → Option UInt8
  | .setZone zone => some zone
  | _ => none

def subzone : Request K → Option UInt8
  | .setSubzone subzone => some subzone
  | _ => none

end Request

namespace CAutomation

variable {K : Type}

def flag (s : CAutomation K) : Flag → Bool
  | .debug => s.m_bDebug
  | .write => s.m_bWrite
  | .automation => s.m_bEnableAutomation
  | .send k => s.enabled k

/-- What is set from outside, but for the flags. -/
structure Settings (K : Type) where
  m_longitude : K
  m_latitude : K
  /-- The path and the id. -/
  opened : String × cguid
  m_zone : UInt8
  m_subzone : UInt8
  m_vscpfilter : vscpEventFilter

def settings (s : CAutomation K) : Settings K where
  m_longitude := s.m_longitude
  m_latitude := s.m_latitude
  opened := (s.m_path, s.m_guid)
  m_zone := s.m_zone
  m_subzone := s.m_subzone
  m_vscpfilter := s.m_vscpfilter

/-- What a request writes. -/
def Settings.write (x : Settings K) (req : Request K) : Settings K :=
  { x with
    m_longitude := req.longitude.getD x.m_longitude
    m_latitude := req.latitude.getD x.m_latitude
    opened := req.opens.getD x.opened
    m_zone := req.zone.getD x.m_zone
    m_subzone := req.subzone.getD x.m_subzone }

/-! ## What each part of a request leaves -/

theorem unlatch_settings (c : Clock) (s : CAutomation K) : (s.unlatch c).settings = s.settings := by
  unfold unlatch; split <;> rfl

theorem unlatch_flag (c : Clock) (s : CAutomation K) : (s.unlatch c).flag = s.flag := by
  unfold unlatch; split <;> rfl

theorem reschedule_settings (E : Env K) (c : Clock) (k : Kind) (s : CAutomation K) :
    (s.reschedule E c k).settings = s.settings := by
  cases k <;> rfl

theorem reschedule_flag (E : Env K) (c : Clock) (k : Kind) (s : CAutomation K) :
    (s.reschedule E c k).flag = s.flag := by
  cases k <;> rfl

/-- The blocks leave of a flag what the document sets, or what it was. -/
theorem stored_flag (j : Json K) (s : CAutomation K) (f : Flag) :
    (stored j s).flag f = (f.inDocument j).getD (s.flag f) := by
  cases f with
  | debug => exact Option.getD_or.symm
  | write => rfl
  | automation => rfl
  | send k => cases k <;> rfl

section
variable [Field K] (E : Env K)

theorem doLoadConfig_flag (content : String) (s : CAutomation K) (f : Flag) :
    (s.doLoadConfig E content).state.flag f = (f.inFile E content).getD (s.flag f) := by
  unfold doLoadConfig Flag.inFile
  cases E.readJson content with
  | error e => cases e <;> rfl
  | ok value =>
    change (Runs.run (Block.read value.1) s blocks).1.flag f = _
    rw [blocks_state]
    exact stored_flag value.1 s f

/-- Loading changes flags only. -/
theorem doLoadConfig_settings (content : String) (s : CAutomation K) :
    (s.doLoadConfig E content).state.settings = s.settings := by
  rcases doLoadConfig_state E content s with h | ⟨j, h⟩
  · rw [h]
  · rw [h]; rfl

end

variable [Field K] [LinearOrder K] [FloorRing K] (E : Env K)

/-- Calculating and sending change none. -/
theorem doWork_settings (c : Clock) (s : CAutomation K) :
    (s.doWork E c).state.settings = s.settings ∧ (s.doWork E c).state.flag = s.flag := by
  have hd := doWork_did E c s
  generalize s.doWork E c = w at hd ⊢
  cases hd with
  | calculated h l n r => exact ⟨rfl, rfl⟩
  | sent h k hk l n r =>
    constructor
    · exact (reschedule_settings E c k (s.unlatch c)).trans (unlatch_settings c s)
    · exact (reschedule_flag E c k (s.unlatch c)).trans (unlatch_flag c s)
  | idle h hk => exact ⟨unlatch_settings c s, unlatch_flag c s⟩

theorem request_settings (s : CAutomation K) (req : Request K) :
    (request E s req).1.settings = s.settings.write req := by
  cases req with
  | operation op =>
    cases op with
    | open_ path guid content created =>
      change (s.open_ E path guid content created).state.settings = _
      rw [open_loads, doLoadConfig_settings]
      rfl
    | doLoadConfig content => exact doLoadConfig_settings E content s
    | doWork c => exact (doWork_settings E c s).1
    | _ => rfl
  | _ => rfl

theorem request_flag (f : Flag) (s : CAutomation K) (req : Request K) :
    (request E s req).1.flag f = (req.flag E f).getD (s.flag f) := by
  cases req with
  | operation op =>
    cases op with
    | open_ path guid content created =>
      change (s.open_ E path guid content created).state.flag f = _
      rw [open_loads, doLoadConfig_flag]
      rfl
    | doLoadConfig content => exact doLoadConfig_flag E content s f
    | doWork c => exact congrFun (doWork_settings E c s).2 f
    | _ =>
      -- a setter: the flag is its own, or another
      cases f with
      | send k => cases k <;> rfl
      | _ => rfl
  | _ => cases f <;> rfl

/-! ## What a run leaves -/

theorem new_flag (start : Clock) (f : Flag) : (new E start).flag f = f.initial := by
  cases f with
  | send k => cases k <;> rfl
  | _ => rfl

/-- A setting of a run is what was written last. -/
theorem run_settings {A : Type} (get : Settings K → A) (writes : Request K → Option A)
    (h : ∀ x req, get (Settings.write x req) = (writes req).getD (get x)) (start : Clock) (reqs : List (Request K)) :
    get (requestRun E start reqs).1.settings =
      (reqs.filterMap writes).getLast?.getD (get (new E start).settings) := by
  apply Runs.run_written (request E) fun s => get s.settings
  intro s req
  rw [request_settings]
  exact h s.settings req

/-- The path and the id of the last `open`, or what the constructor sets. -/
def lastOpened (reqs : List (Request K)) : String × cguid :=
  (reqs.filterMap Request.opens).getLast?.getD ("", E.cguidInit)

def lastZone (reqs : List (Request K)) : UInt8 := (reqs.filterMap Request.zone).getLast?.getD 0

def lastSubzone (reqs : List (Request K)) : UInt8 := (reqs.filterMap Request.subzone).getLast?.getD 0

/-- After any run each flag, the place, the path and the id, and the zones are
what the last request that writes them wrote, or what the constructor set. The
filter is as constructed. -/
theorem last_written (start : Clock) (reqs : List (Request K)) :
    let s := (requestRun E start reqs).1
    (∀ f, s.flag f = (reqs.filterMap (Request.flag E f)).getLast?.getD f.initial) ∧
      s.m_longitude = (reqs.filterMap Request.longitude).getLast?.getD 15.1604167 ∧
      s.m_latitude = (reqs.filterMap Request.latitude).getLast?.getD 61.7441833 ∧
      (s.m_path, s.m_guid) = lastOpened E reqs ∧ s.m_zone = lastZone reqs ∧ s.m_subzone = lastSubzone reqs ∧
      s.m_vscpfilter = E.vscp_clearVSCPFilter := by
  refine ⟨fun f => ?_, ?_, ?_, ?_, ?_, ?_, ?_⟩
  · rw [← new_flag E start f]
    exact Runs.run_written (request E) (·.flag f) (Request.flag E f) (request_flag E f) (new E start) reqs
  · exact run_settings E (·.m_longitude) Request.longitude (fun _ _ => rfl) start reqs
  · exact run_settings E (·.m_latitude) Request.latitude (fun _ _ => rfl) start reqs
  · exact run_settings E (·.opened) Request.opens (fun _ _ => rfl) start reqs
  · exact run_settings E (·.m_zone) Request.zone (fun _ _ => rfl) start reqs
  · exact run_settings E (·.m_subzone) Request.subzone (fun _ _ => rfl) start reqs
  · have hnone : (reqs.filterMap fun _ => (none : Option vscpEventFilter)) = [] := List.filterMap_none ..
    have hfilter := run_settings E (·.m_vscpfilter) (fun _ => none) (fun _ _ => rfl) start reqs
    rwa [hnone] at hfilter

/-! ## What the events hold -/

/-- The event that a call decides to hand over. -/
def eventOf (x : Sender) (c : Clock) : Decision → Option vscpEventEx
  | .calculate => some
    { obid := 0
      head := 0
      timestamp := E.vscp_makeTimeStamp c.now
      dateTime := E.vscp_setEventExToNow c.now
      vscp_class := .VSCP_CLASS2_VSCPD
      vscp_type := .VSCP2_TYPE_VSCPD_NEW_CALCULATION
      sizeData := 0
      GUID := x.m_guid
      data := [] }
  | .send k => some
    { obid := 0
      head := 0
      timestamp := E.vscp_makeTimeStamp c.now
      dateTime := E.vscp_setEventExToNow c.now
      vscp_class := .VSCP_CLASS1_INFORMATION
      vscp_type := k.vscp_type
      sizeData := 3
      GUID := x.m_guid
      data := [0, x.m_zone, x.m_subzone] }
  | .rest => none

/-- A call hands over the event it decides for, at its own reading. -/
theorem handed_iff (c c' : Clock) (ex : vscpEventEx) (s : CAutomation K) :
    .handed c' ex ∈ (s.doWork E c).log ↔ c' = c ∧ eventOf E s.sender c (s.plan.decide c) = some ex := by
  rw [(doWork_plan E c s).2.2]
  unfold Plan.step
  cases s.plan.decide c with
  | calculate => simp [entries, newCalculation, sender, eventOf, eq_comm]
  | send k => simp [entries, information, sender, eventOf, eq_comm]
  | rest => simp [eventOf]

/-- The sender of a run. -/
def lastSender (reqs : List (Request K)) : Sender where
  m_guid := (lastOpened E reqs).2
  m_zone := lastZone reqs
  m_subzone := lastSubzone reqs

theorem run_sender (start : Clock) (reqs : List (Request K)) :
    (requestRun E start reqs).1.sender = lastSender E reqs := by
  have hopened := run_settings E (·.opened) Request.opens (fun _ _ => rfl) start reqs
  have hzone := run_settings E (·.m_zone) Request.zone (fun _ _ => rfl) start reqs
  have hsubzone := run_settings E (·.m_subzone) Request.subzone (fun _ _ => rfl) start reqs
  exact congr (congrArg₂ Sender.mk (congrArg Prod.snd hopened) hzone) hsubzone

/-- Only `doWork` hands anything over. -/
theorem request_handed {s : CAutomation K} {req : Request K} {c : Clock} {ex : vscpEventEx}
    (h : .did (.handed c ex) ∈ (request E s req).2) :
    ∃ c', req = .operation (.doWork c') ∧ .handed c ex ∈ (s.doWork E c').log := by
  cases req with
  | operation op =>
    cases op with
    | doWork c' =>
      obtain ⟨e, he, heq⟩ := List.mem_map.1 h
      cases heq
      exact ⟨c', rfl, he⟩
    | _ => simp [request, opStep] at h
  | _ => cases h

/-- The events of any run are those its `doWork` calls decide for. Each holds the
id of the last `open` and the zones last set before the call, whatever was
loaded. -/
theorem event_content (start : Clock) (reqs : List (Request K)) (c : Clock) (ex : vscpEventEx) :
    .did (.handed c ex) ∈ (requestRun E start reqs).2 ↔
      ∃ pre post, reqs = pre ++ .operation (.doWork c) :: post ∧
        eventOf E (lastSender E pre) c ((requestRun E start pre).1.plan.decide c) = some ex := by
  constructor
  · intro h
    obtain ⟨pre, req, post, rfl, hreq⟩ := (Runs.mem_run _).1 h
    obtain ⟨c', rfl, hc⟩ := request_handed E hreq
    obtain ⟨rfl, hex⟩ := (handed_iff E c' c ex _).1 hc
    refine ⟨pre, post, rfl, ?_⟩
    rw [← run_sender E start pre]
    exact hex
  · rintro ⟨pre, post, rfl, hex⟩
    rw [← run_sender E start pre] at hex
    refine (Runs.mem_run _).2 ⟨pre, _, post, rfl, ?_⟩
    exact List.mem_map_of_mem ((handed_iff E c c ex _).2 ⟨rfl, hex⟩)

end CAutomation

end VscpAutomation
