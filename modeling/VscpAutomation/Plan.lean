import VscpAutomation.Operations
import VscpAutomation.Object
/-!
# What doWork decides by

Of an object with all its fields, `doWork` decides by few: the place, the five
times and the latch. `Plan` is a machine of these alone, which the object
refines (`run_plan`). What the events hold is the object's id, zone and subzone
(`Sender`). So two objects with one plan and one sender do the same for ever
(`run_congr`), and a recalculation makes one plan of any two of one place
(`restart_forgotten`).
-/

namespace VscpAutomation

open vscpdatetime (sameMinute)

/-- What a call of `doWork` does. -/
inductive Decision where
  | calculate
  | send (k : Kind)
  | rest

/-- Where the object is, when its kinds are due, and whether today's calculation
has been done. -/
@[ext]
structure Plan (K : Type) where
  m_latitude : K
  m_longitude : K
  due : Kind → vscpdatetime
  m_bCalulationHasBeenDone : Bool

namespace Plan

variable {K : Type}

def decide (c : Clock) (p : Plan K) : Decision :=
  if p.m_bCalulationHasBeenDone = false ∧ c.hour = 0 then .calculate
  else
    match Kind.order.find? fun k => sameMinute c.now (p.due k) with
    | some k => .send k
    | none => .rest

variable [Field K] [LinearOrder K] [FloorRing K] (E : Env K)

/-- One call: the plan after it, and what it did. -/
def step (p : Plan K) (c : Clock) : Plan K × List (Clock × Decision) :=
  match p.decide c with
  | .calculate =>
    ({ p with due := CAutomation.scheduled E p.m_latitude p.m_longitude c, m_bCalulationHasBeenDone := true },
      [(c, .calculate)])
  | .send k =>
    ({ p with
        due := Function.update p.due k (E.addSeconds (p.due k) SPAN24)
        m_bCalulationHasBeenDone := p.m_bCalulationHasBeenDone && c.hour = 0 }, [(c, .send k)])
  | .rest => ({ p with m_bCalulationHasBeenDone := p.m_bCalulationHasBeenDone && c.hour = 0 }, [])

end Plan

/-- What an object's events say of it. -/
structure Sender where
  m_guid : cguid
  m_zone : UInt8
  m_subzone : UInt8
deriving DecidableEq

namespace CAutomation

section
variable {K : Type}

def plan (s : CAutomation K) : Plan K where
  m_latitude := s.m_latitude
  m_longitude := s.m_longitude
  due := s.time
  m_bCalulationHasBeenDone := s.m_bCalulationHasBeenDone

def sender (s : CAutomation K) : Sender where
  m_guid := s.m_guid
  m_zone := s.m_zone
  m_subzone := s.m_subzone

theorem unlatch_plan (c : Clock) (s : CAutomation K) :
    (s.unlatch c).plan =
      { s.plan with m_bCalulationHasBeenDone := s.m_bCalulationHasBeenDone && c.hour = 0 } := by
  refine Plan.ext (unlatch_m_latitude c s) (unlatch_m_longitude c s) (funext fun k => unlatch_time c s k) ?_
  change (s.unlatch c).m_bCalulationHasBeenDone = (s.m_bCalulationHasBeenDone && decide (c.hour = 0))
  unfold unlatch
  by_cases h : c.hour = 0
  · rw [if_pos h, decide_eq_true h, Bool.and_true]
  · rw [if_neg h, decide_eq_false h, Bool.and_false]

theorem unlatch_sender (c : Clock) (s : CAutomation K) : (s.unlatch c).sender = s.sender := by
  unfold unlatch; split <;> rfl

theorem reschedule_plan (E : Env K) (c : Clock) (k : Kind) (s : CAutomation K) :
    (s.reschedule E c k).plan =
      { s.plan with due := Function.update s.time k (E.addSeconds (s.time k) SPAN24) } := by
  refine Plan.ext (reschedule_m_latitude E c s k) (reschedule_m_longitude E c s k) ?_ (reschedule_latch E c s k)
  funext j
  exact (reschedule_time E c s k j).trans (Function.update_apply _ _ _ _).symm

theorem reschedule_sender (E : Env K) (c : Clock) (k : Kind) (s : CAutomation K) :
    (s.reschedule E c k).sender = s.sender := by
  cases k <;> rfl

theorem decide_of_not_calcDue {c : Clock} {s : CAutomation K} (h : ¬ s.CalcDue c) :
    s.plan.decide c =
      match s.firstDue c with
      | some k => .send k
      | none => .rest :=
  if_neg h

/-- What a call that decides `d` logs. -/
def entries (E : Env K) (s : CAutomation K) (c : Clock) : Decision → List (Entry K)
  | .calculate => [.calculated s.m_latitude s.m_longitude c, .handed c (s.newCalculation E c)]
  | .send k => [.handed c (s.information E c k)]
  | .rest => []

theorem entries_congr (E : Env K) {s s' : CAutomation K} (hlat : s.m_latitude = s'.m_latitude)
    (hlon : s.m_longitude = s'.m_longitude) (hsender : s.sender = s'.sender) (c : Clock) (d : Decision) :
    s.entries E c d = s'.entries E c d := by
  obtain ⟨hguid, hzone, hsubzone⟩ := Sender.mk.inj hsender
  cases d with
  | calculate => simp only [entries, newCalculation, hlat, hlon, hguid]
  | send k => simp only [entries, information, hguid, hzone, hsubzone]
  | rest => rfl

variable [Field K] [LinearOrder K] [FloorRing K] (E : Env K)

/-- `doWork` goes by the plan, and logs what the plan does. -/
theorem doWork_plan (c : Clock) (s : CAutomation K) :
    (s.doWork E c).state.plan = (s.plan.step E c).1 ∧ (s.doWork E c).state.sender = s.sender ∧
      (s.doWork E c).log = (s.plan.step E c).2.flatMap fun x => s.entries E x.1 x.2 := by
  have hd := doWork_did E c s
  generalize s.doWork E c = w at hd ⊢
  cases hd with
  | calculated h l n r =>
    have hdecide : s.plan.decide c = .calculate := if_pos h
    unfold Plan.step
    rw [hdecide]
    refine ⟨?_, rfl, rfl⟩
    exact Plan.ext rfl rfl (funext fun k => doCalc_time E c s k) rfl
  | sent h k hk l n r =>
    have hdecide : s.plan.decide c = .send k := by
      rw [decide_of_not_calcDue h, hk]
    unfold Plan.step
    rw [hdecide]
    refine ⟨?_, ?_, rfl⟩
    · change ((s.unlatch c).reschedule E c k).plan = _
      rw [reschedule_plan, unlatch_plan, unlatch_time]
      refine Plan.ext rfl rfl ?_ rfl
      exact congrArg (Function.update · k _) (funext fun j => unlatch_time c s j)
    · change ((s.unlatch c).reschedule E c k).sender = _
      rw [reschedule_sender, unlatch_sender]
  | idle h hk =>
    have hdecide : s.plan.decide c = .rest := by
      rw [decide_of_not_calcDue h, hk]
    unfold Plan.step
    rw [hdecide]
    exact ⟨unlatch_plan c s, unlatch_sender c s, rfl⟩

/-- No call moves the place. -/
theorem step_place (p : Plan K) (c : Clock) :
    (p.step E c).1.m_latitude = p.m_latitude ∧ (p.step E c).1.m_longitude = p.m_longitude := by
  unfold Plan.step
  cases p.decide c <;> exact ⟨rfl, rfl⟩

/-- Runs of calls refine runs of the plan. -/
theorem run_plan (s : CAutomation K) (cs : List Clock) :
    let r := Runs.run (workStep E) s cs
    let p := Runs.run (Plan.step E) s.plan cs
    r.1.plan = p.1 ∧ r.1.sender = s.sender ∧ r.2 = p.2.flatMap fun x => s.entries E x.1 x.2 := by
  induction cs generalizing s with
  | nil => exact ⟨rfl, rfl, rfl⟩
  | cons c cs ih =>
    obtain ⟨hplan, hsender, hlog⟩ := doWork_plan E c s
    obtain ⟨iplan, isender, ilog⟩ := ih (s.doWork E c).state
    obtain ⟨hlat, hlon⟩ := step_place E s.plan c
    rw [← hplan] at hlat hlon
    simp only [Runs.run, workStep, List.flatMap_append]
    rw [← hplan]
    refine ⟨iplan, isender.trans hsender, ?_⟩
    rw [hlog, ilog]
    congr 2
    funext x
    exact entries_congr E hlat hlon hsender x.1 x.2

end

/-! ## Two objects with one plan -/

section
variable {K : Type} [Field K] (E : Env K)

/-- Loading a configuration changes neither. -/
theorem doLoadConfig_plan (content : String) (s : CAutomation K) :
    (s.doLoadConfig E content).state.plan = s.plan ∧ (s.doLoadConfig E content).state.sender = s.sender := by
  rcases doLoadConfig_state E content s with h | ⟨j, h⟩
  · rw [h]
    exact ⟨rfl, rfl⟩
  · rw [h]
    exact ⟨Plan.ext rfl rfl (funext fun k => by cases k <;> rfl) rfl, rfl⟩

variable [LinearOrder K] [FloorRing K]

/-- So an object that is opened goes by the plan the constructor made. -/
theorem opened_plan (start : Clock) (path : String) (guid : cguid) (content : String) :
    (opened E start path guid content).plan = (new E start).plan := by
  unfold opened
  rw [open_loads, (doLoadConfig_plan E content _).1]
  exact Plan.ext rfl rfl (funext fun k => by cases k <;> rfl) rfl

/-- Whatever is called next, two objects with one plan and one sender do the
same: no other field matters. -/
theorem opStep_congr {s s' : CAutomation K} (hplan : s.plan = s'.plan) (hsender : s.sender = s'.sender)
    (op : Operation K) :
    (opStep E s op).1.plan = (opStep E s' op).1.plan ∧ (opStep E s op).1.sender = (opStep E s' op).1.sender ∧
      (opStep E s op).2 = (opStep E s' op).2 := by
  obtain ⟨hlat, hlon, hdue, hlatch⟩ := Plan.mk.inj hplan
  obtain ⟨hguid, hzone, hsubzone⟩ := Sender.mk.inj hsender
  have htime (k : Kind) : s.time k = s'.time k := congrFun hdue k
  cases op with
  | open_ path guid content created =>
    obtain ⟨h1, h2⟩ := doLoadConfig_plan E content { s with m_guid := guid, m_path := path }
    obtain ⟨h1', h2'⟩ := doLoadConfig_plan E content { s' with m_guid := guid, m_path := path }
    simp only [opStep, open_loads]
    refine ⟨h1.trans (Eq.trans ?_ h1'.symm), h2.trans (Eq.trans ?_ h2'.symm), trivial⟩
    · refine Plan.ext hlat hlon (funext fun k => ?_) hlatch
      have := htime k
      cases k <;> exact this
    · simp only [sender, hzone, hsubzone]
  | doLoadConfig content =>
    obtain ⟨h1, h2⟩ := doLoadConfig_plan E content s
    obtain ⟨h1', h2'⟩ := doLoadConfig_plan E content s'
    exact ⟨h1.trans (hplan.trans h1'.symm), h2.trans (hsender.trans h2'.symm), rfl⟩
  | doCalc c =>
    refine ⟨Plan.ext hlat hlon (funext fun k => ?_) hlatch, hsender, ?_⟩
    · exact (doCalc_time E c s k).trans (Eq.trans (by rw [hlat, hlon]) (doCalc_time E c s' k).symm)
    · simp only [opStep, hlat, hlon]
  | doWork c =>
    obtain ⟨h1, h2, h3⟩ := doWork_plan E c s
    obtain ⟨h1', h2', h3'⟩ := doWork_plan E c s'
    simp only [opStep]
    rw [h1, h1', h2, h2', h3, h3', hplan]
    refine ⟨rfl, hsender, ?_⟩
    congr 2
    funext x
    exact entries_congr E hlat hlon hsender x.1 x.2
  | setLongitude l =>
    refine ⟨Plan.ext hlat rfl (funext fun k => ?_) hlatch, hsender, rfl⟩
    have := htime k
    cases k <;> exact this
  | setLatitude l =>
    refine ⟨Plan.ext rfl hlon (funext fun k => ?_) hlatch, hsender, rfl⟩
    have := htime k
    cases k <;> exact this
  | _ =>
    -- a flag, which nothing reads
    refine ⟨Plan.ext hlat hlon (funext fun k => ?_) hlatch, hsender, rfl⟩
    have := htime k
    cases k <;> exact this

/-- The setters of the zones and of `m_bWrite` keep the plan. -/
theorem request_plan {req : Request K} (h : ∀ op, req ≠ .operation op) (s : CAutomation K) :
    (request E s req).1.plan = s.plan := by
  cases req with
  | operation op => exact absurd rfl (h op)
  | _ => exact Plan.ext rfl rfl (funext fun k => by cases k <;> rfl) rfl

theorem request_congr {s s' : CAutomation K} (hplan : s.plan = s'.plan) (hsender : s.sender = s'.sender)
    (req : Request K) :
    (request E s req).1.plan = (request E s' req).1.plan ∧ (request E s req).1.sender = (request E s' req).1.sender ∧
      (request E s req).2 = (request E s' req).2 := by
  obtain ⟨hguid, hzone, hsubzone⟩ := Sender.mk.inj hsender
  have hsetter (h : ∀ op, req ≠ .operation op) : (request E s req).1.plan = (request E s' req).1.plan := by
    rw [request_plan E h, request_plan E h, hplan]
  cases req with
  | operation op => exact opStep_congr E hplan hsender op
  | setZone zone =>
    refine ⟨hsetter nofun, ?_, rfl⟩
    simp only [request, setZone, sender, hguid, hsubzone]
  | setSubzone subzone =>
    refine ⟨hsetter nofun, ?_, rfl⟩
    simp only [request, setSubzone, sender, hguid, hzone]
  | _ => exact ⟨hsetter nofun, hsender, rfl⟩

theorem run_congr {s s' : CAutomation K} (hplan : s.plan = s'.plan) (hsender : s.sender = s'.sender)
    (reqs : List (Request K)) :
    (Runs.run (request E) s reqs).1.plan = (Runs.run (request E) s' reqs).1.plan ∧
      (Runs.run (request E) s reqs).2 = (Runs.run (request E) s' reqs).2 := by
  induction reqs generalizing s s' with
  | nil => exact ⟨hplan, rfl⟩
  | cons req reqs ih =>
    obtain ⟨h1, h2, h3⟩ := request_congr E hplan hsender req
    obtain ⟨i1, i2⟩ := ih h1 h2
    simp only [Runs.run]
    rw [h3, i2]
    exact ⟨i1, rfl⟩

/-- One plan sends the same kinds at the same calls, whoever the sender is. -/
theorem handedAt_congr {s s' : CAutomation K} (hplan : s.plan = s'.plan) (cs : List Clock) (t : VscpType) :
    (Runs.run (workStep E) s cs).2.filterMap (Entry.handedAt t) =
      (Runs.run (workStep E) s' cs).2.filterMap (Entry.handedAt t) := by
  obtain ⟨-, -, hlog⟩ := run_plan E s cs
  obtain ⟨-, -, hlog'⟩ := run_plan E s' cs
  rw [hlog, hlog', hplan, List.filterMap_flatMap, List.filterMap_flatMap]
  congr 1
  funext x
  cases x.2 <;> rfl

/-- A recalculation takes nothing from the past but the place. -/
theorem calculate_congr {s s' : CAutomation K} (hlat : s.m_latitude = s'.m_latitude)
    (hlon : s.m_longitude = s'.m_longitude) (hsender : s.sender = s'.sender) {c : Clock} (h : s.CalcDue c)
    (h' : s'.CalcDue c) :
    (s.doWork E c).state.plan = (s'.doWork E c).state.plan ∧
      (s.doWork E c).state.sender = (s'.doWork E c).state.sender ∧ (s.doWork E c).log = (s'.doWork E c).log := by
  obtain ⟨h1, h2, h3⟩ := doWork_plan E c s
  obtain ⟨h1', h2', h3'⟩ := doWork_plan E c s'
  have hd : s.plan.decide c = .calculate := if_pos h
  have hd' : s'.plan.decide c = .calculate := if_pos h'
  unfold Plan.step at h1 h3 h1' h3'
  rw [hd] at h1 h3
  rw [hd'] at h1' h3'
  rw [h1, h1', h2, h2', h3, h3']
  refine ⟨?_, hsender, ?_⟩
  · refine Plan.ext hlat hlon ?_ rfl
    change scheduled E s.m_latitude s.m_longitude c = scheduled E s'.m_latitude s'.m_longitude c
    rw [hlat, hlon]
  · simp only [List.flatMap_singleton]
    exact entries_congr E hlat hlon hsender c .calculate

/-- Two objects of one place and one id, zone and subzone, whatever they went
through before: once each was called outside hour 0, a call in hour 0 gives them
one plan, and from then on whatever is called has the same trace in both. -/
theorem restart_forgotten {s s' : CAutomation K} (hlat : s.m_latitude = s'.m_latitude)
    (hlon : s.m_longitude = s'.m_longitude) (hsender : s.sender = s'.sender) {y y' x : Clock} (hy : y.hour ≠ 0)
    (hy' : y'.hour ≠ 0) (hx : x.hour = 0) (reqs : List (Request K)) :
    let after (s : CAutomation K) (y : Clock) :=
      Runs.run (request E) (s.doWork E y).state (.operation (.doWork x) :: reqs)
    (after s y).1.plan = (after s' y').1.plan ∧ (after s y).2 = (after s' y').2 := by
  have hcalc {s : CAutomation K} {y : Clock} (hy : y.hour ≠ 0) : (s.doWork E y).state.CalcDue x := by
    refine ⟨?_, hx⟩
    rw [latch_doWork, decide_eq_false hy]
  have hplace (s : CAutomation K) (y : Clock) : (s.doWork E y).state.m_latitude = s.m_latitude ∧
      (s.doWork E y).state.m_longitude = s.m_longitude ∧ (s.doWork E y).state.sender = s.sender := by
    obtain ⟨h1, h2, -⟩ := doWork_plan E y s
    obtain ⟨h3, h4⟩ := step_place E s.plan y
    rw [← h1] at h3 h4
    exact ⟨h3, h4, h2⟩
  obtain ⟨a1, a2, a3⟩ := hplace s y
  obtain ⟨b1, b2, b3⟩ := hplace s' y'
  obtain ⟨h1, h2, h3⟩ := calculate_congr E (a1.trans (hlat.trans b1.symm)) (a2.trans (hlon.trans b2.symm))
    (a3.trans (hsender.trans b3.symm)) (hcalc hy) (hcalc hy')
  obtain ⟨i1, i2⟩ := run_congr E h1 h2 reqs
  simp only [Runs.run, request, opStep]
  rw [h3, i2]
  exact ⟨i1, rfl⟩

end

/-- An object that has run for two days, and one that was opened in the last
hour of them. -/
theorem restart_forgotten_march :
    let E := rationalEnv fun _ => .error .parse_error
    let s := (workRun E (march 19 12 0 (by decide)) [march 20 0 0 (by decide)]).1
    let s' := new E (march 20 23 5 (by decide))
    let y := march 20 23 58 (by decide)
    let y' := march 20 23 59 (by decide)
    let x := march 21 0 0 (by decide)
    let reqs := [.operation (.doWork (march 21 6 1 (by decide))), .setZone 7, .operation (.setLatitude 50),
      .operation (.doWork (march 22 0 0 (by decide)))]
    let after (s : CAutomation ℚ) (y : Clock) :=
      Runs.run (request E) (s.doWork E y).state (.operation (.doWork x) :: reqs)
    (after s y).1.plan = (after s' y').1.plan ∧ (after s y).2 = (after s' y').2 := by
  intro E s s' y y' x reqs
  have hlat : s.m_latitude = s'.m_latitude := by decide +kernel
  have hlon : s.m_longitude = s'.m_longitude := by decide +kernel
  have hsender : s.sender = s'.sender := by decide +kernel
  exact restart_forgotten E hlat hlon hsender (by decide) (by decide) (by decide) reqs

end CAutomation

end VscpAutomation
