import VscpAutomation.Clients
import VscpAutomation.Days
/-!
# What clients get of a day

The schedule of the `doWork` calls, seen from the far end of the receive queue.
Whatever the clients do, together they never get more events of a kind than
there are days (`never_more_than_days`). By the end of a day with six calls in
every minute each kind's event of that day is with a client, in the queue or on
its way, after the events of the days before it and before those of the days
after it (`delivered_each_day`).
-/

namespace VscpAutomation.Object

open Interleave CAutomation Blocks Recalculation NoRepeat Delivery

/-! ## Types of events -/

section
variable {K : Type} {E : Env K} {m_vscpfilter : vscpEventFilter}

/-- The event is of type `t`. -/
def hasType (t : VscpType) (pev : vscpEvent) : Bool := pev.vscp_type = t

theorem acceptedIn_handed (c : Clock) (ex : vscpEventEx) :
    acceptedIn E m_vscpfilter [.handed c ex] = (accepted E m_vscpfilter ex).toList := by
  change [ex].filterMap (accepted E m_vscpfilter) = _
  cases h : accepted E m_vscpfilter ex with
  | none => rw [List.filterMap_cons_none h]; rfl
  | some pev => rw [List.filterMap_cons_some h]; rfl

/-- The queue accepts the event of the entry, if it has one. -/
def isAccepted (E : Env K) (m_vscpfilter : vscpEventFilter) (e : Entry K) : Bool :=
  e.event.all fun ex => (accepted E m_vscpfilter ex).isSome

variable (htype : ∀ ex pev, E.vscp_convertEventExToEvent ex = some pev → pev.vscp_type = ex.vscp_type)
include htype

/-- Each event of a type was handed over as one. -/
theorem countP_acceptedIn (t : VscpType) (log : List (Entry K)) :
    (acceptedIn E m_vscpfilter log).countP (hasType t) =
      ((log.filter (isAccepted E m_vscpfilter)).filterMap (Entry.handedAt t)).length := by
  induction log with
  | nil => rfl
  | cons e log ih =>
    cases e with
    | calculated m_latitude m_longitude now =>
      rw [List.filter_cons_of_pos rfl]
      exact ih
    | handed c ex =>
      rw [← List.singleton_append, acceptedIn_append, List.countP_append, acceptedIn_handed, ih, List.filter_append,
        List.filterMap_append, List.length_append, Nat.add_right_cancel_iff]
      cases h : accepted E m_vscpfilter ex with
      | none =>
        rw [List.filter_cons_of_neg (by simp [isAccepted, Entry.event, h])]
        rfl
      | some pev =>
        have hpev : pev.vscp_type = ex.vscp_type := htype ex pev (Option.eq_some_of_filter_eq_some h)
        rw [List.filter_cons_of_pos (by simp [isAccepted, Entry.event, h])]
        by_cases ht : ex.vscp_type = t
        · simp [hasType, Entry.handedAt, hpev, ht]
        · simp [hasType, Entry.handedAt, hpev, ht]

theorem countP_acceptedIn_le (t : VscpType) (log : List (Entry K)) :
    (acceptedIn E m_vscpfilter log).countP (hasType t) ≤ (log.filterMap (Entry.handedAt t)).length := by
  rw [countP_acceptedIn htype]
  exact (List.filter_sublist.filterMap _).length_le

/-- Where every event is accepted, they are as many as were handed over. -/
theorem countP_acceptedIn_eq (haccept : ∀ ex, (accepted E m_vscpfilter ex).isSome) (t : VscpType)
    (log : List (Entry K)) :
    (acceptedIn E m_vscpfilter log).countP (hasType t) = (log.filterMap (Entry.handedAt t)).length := by
  rw [countP_acceptedIn htype, List.filter_eq_self.2]
  intro e _
  unfold isAccepted
  cases e with
  | calculated => rfl
  | handed c ex => exact haccept ex

end

/-! ## The worker alone -/

section
variable {K : Type}

/-- The worker is about to begin its loop, and nothing is left to do. -/
structure Quiet (x : Shared K) : Prop where
  worker : x.send.worker = .while_
  m_bQuit : x.send.m_bQuit = false
  m_sendList : x.send.m_sendList = []
  doing : x.doing = .begins
  m_mutexReceiveQueue : x.receive.m_mutexReceiveQueue = false

variable [Field K] [LinearOrder K] [FloorRing K] {E : Env K} {vscp_isSameGUID : cguid → cguid → Bool}
  {s₀ : State (Shared K) Call}

theorem works {x x' : Shared K} {e : Step} (h : (object E vscp_isSameGUID).Reachable s₀ ⟨x, []⟩)
    (he : workerThread E vscp_isSameGUID e x = some x') : (object E vscp_isSameGUID).Reachable s₀ ⟨x', []⟩ := by
  have hstep : (object E vscp_isSameGUID).step ⟨x, []⟩ (.env e) = some ⟨x', []⟩ := congrArg (Option.map _) he
  exact h.step hstep

/-- From the end of `doWork` to the next time round, by a wait that times out. -/
theorem rest {x : Shared K} (h : (object E vscp_isSameGUID).Reachable s₀ ⟨x, []⟩) (hw : x.send.worker = .doWork)
    (hq : x.send.m_bQuit = false) (hl : x.send.m_sendList = []) (hd : x.doing.returned = true)
    (hm : x.receive.m_mutexReceiveQueue = false) :
    ∃ y, (object E vscp_isSameGUID).Reachable s₀ ⟨y, []⟩ ∧ Quiet y ∧ y.readings = x.readings := by
  have h1 : workerThread E vscp_isSameGUID (.send .work) x =
      some { x with send := { x.send with worker := .vscp_sem_wait }, doing := .begins } := by
    simp [workerThread, SendQueue.workerThread, hw, hd]
  have h2 := works (e := .send (.fails .ETIMEDOUT)) (works h h1) rfl
  have h3 := works (e := .send .work) h2 rfl
  dsimp only at h3
  rw [hl] at h3
  refine ⟨_, h3, ⟨rfl, ?_, rfl, rfl, hm⟩, rfl⟩
  change (x.send.m_bQuit || false) = false
  rw [hq]
  rfl

/-- A step of its call of `eventExToReceiveQueue`. -/
theorem hands {a : CAutomation K} {q q' : ReceiveQueue.Queue} {send : SendQueue.Queue} {c c' : ReceiveQueue.Call}
    {rd : List Clock} {ha de : List vscpEvent}
    (h : (object E vscp_isSameGUID).Reachable s₀ ⟨⟨a, q, send, .handing c, rd, ha, de⟩, []⟩)
    (hm : ReceiveQueue.move E a.m_vscpfilter .go q c = some (q', c')) :
    (object E vscp_isSameGUID).Reachable s₀ ⟨⟨a, q', send, .handing c', rd, ha, de⟩, []⟩ := by
  apply works h (e := .eventExToReceiveQueue)
  simp only [workerThread, hm, Option.map_some]

/-- With the mutex free the call comes to its end. -/
theorem hands_over {x : Shared K} {ex : vscpEventEx} (h : (object E vscp_isSameGUID).Reachable s₀ ⟨x, []⟩)
    (hd : x.doing = .handing (.convert ex)) (hm : x.receive.m_mutexReceiveQueue = false) :
    ∃ q ret, q.m_mutexReceiveQueue = false ∧
      (object E vscp_isSameGUID).Reachable s₀ ⟨{ x with receive := q, doing := .handing (.pushed ret) }, []⟩ := by
  obtain ⟨a, ⟨l, n, m, pu, po⟩, send, d, rd, ha, de⟩ := x
  obtain rfl : d = .handing (.convert ex) := hd
  obtain rfl : m = false := hm
  cases hconvert : E.vscp_convertEventExToEvent ex with
  | none => exact ⟨_, _, rfl, hands h (by simp only [ReceiveQueue.move, hconvert]; rfl)⟩
  | some pev =>
    by_cases hf : E.vscp_doLevel2Filter pev a.m_vscpfilter = true
    · have h1 := hands h (by simp only [ReceiveQueue.move, hconvert, if_pos hf]; rfl)
      exact ⟨_, _, rfl, hands (hands (hands (hands h1 rfl) rfl) rfl) rfl⟩
    · exact ⟨_, _, rfl, hands h (by simp only [ReceiveQueue.move, hconvert, if_neg hf]; rfl)⟩

/-- Alone, the worker can go round once more at any reading. -/
theorem round {x : Shared K} (h : (object E vscp_isSameGUID).Reachable s₀ ⟨x, []⟩) (hx : Quiet x) (c : Clock) :
    ∃ y, (object E vscp_isSameGUID).Reachable s₀ ⟨y, []⟩ ∧ Quiet y ∧ y.readings = x.readings ++ [c] := by
  obtain ⟨hw, hq, hl, hd, hm⟩ := hx
  have h1 : workerThread E vscp_isSameGUID (.send .work) x =
      some { x with send := { x.send with worker := .doWork } } := by
    simp [workerThread, SendQueue.workerThread, hw, hq]
  have h2 : workerThread E vscp_isSameGUID (.doWork c) { x with send := { x.send with worker := .doWork } } =
      some (beginWork E c { x with send := { x.send with worker := .doWork } }) := by
    simp [workerThread, hd]
  have hb := works (works h h1) h2
  unfold beginWork at hb
  dsimp only at hb
  cases hp : (x.automation.prepare E c).2 with
  | none =>
    rw [hp] at hb
    exact rest hb rfl hq hl rfl hm
  | some ex =>
    rw [hp] at hb
    obtain ⟨q, ret, hmutex, hq'⟩ := hands_over hb rfl hm
    exact rest hq' rfl hq hl rfl hmutex

/-- So there are runs with any readings. -/
theorem exists_readings (s : CAutomation K) (cs : List Clock) :
    ∃ x : Shared K, (object E vscp_isSameGUID).Reachable (init s) ⟨x, []⟩ ∧ Quiet x ∧ x.readings = cs := by
  induction cs using List.reverseRecOn with
  | nil => exact ⟨_, .init, ⟨rfl, rfl, rfl, rfl, rfl⟩, rfl⟩
  | append_singleton cs c ih =>
    obtain ⟨x, h, hx, rfl⟩ := ih
    exact round h hx c

end

/-! ## Days -/

section
variable {K : Type} [Field K] [LinearOrder K] [FloorRing K] (E : Env K) (s : CAutomation K) (cs : List Clock) (D : Day)

/-- The state in which day `D` begins, and what was handed over before it. -/
def beforeDay : CAutomation K × List (Entry K) :=
  Runs.run (workStep E) s (cs.filter fun c => c.date < D)

/-- The state in which day `D` ends, and what was handed over on it. -/
def onDay : CAutomation K × List (Entry K) :=
  Runs.run (workStep E) (beforeDay E s cs D).1 (cs.filter fun c => c.date = D)

/-- What was handed over after day `D`. -/
def afterDay : CAutomation K × List (Entry K) :=
  Runs.run (workStep E) (onDay E s cs D).1 (cs.filter fun c => D < c.date)

/-- The days follow each other. -/
theorem run_days (hcs : cs.Pairwise (· ≤ ·)) :
    (Runs.run (workStep E) s cs).2 = (beforeDay E s cs D).2 ++ (onDay E s cs D).2 ++ (afterDay E s cs D).2 := by
  have hcut := cut Clock.date D cs (hcs.imp Clock.date_mono)
  conv_lhs => rw [← hcut, Runs.run_append, Runs.run_append]
  exact (List.append_assoc _ _ _).symm

end

section
variable {K : Type} [Field K] [LinearOrder K] [FloorRing K] {E : Env K} {vscp_isSameGUID : cguid → cguid → Bool}
  {start : Clock} {path : String} {guid : cguid} {content : String} {s : State (Shared K) Call}

theorem opened_m_vscpfilter : (opened E start path guid content).m_vscpfilter = E.vscp_clearVSCPFilter := by
  unfold opened
  rw [open_loads]
  rcases doLoadConfig_state E content { new E start with m_guid := guid, m_path := path } with h | ⟨j, h⟩
  · rw [h]
    rfl
  · rw [h]
    rfl

/-- What an opened object hands over is what the constructor's would. -/
theorem handedAt_opened (cs : List Clock) (t : VscpType) :
    (Runs.run (workStep E) (opened E start path guid content) cs).2.filterMap (Entry.handedAt t) =
      (workRun E start cs).2.filterMap (Entry.handedAt t) :=
  handedAt_congr E (opened_plan E start path guid content) cs t

/-- Where the days of a type's events increase, no more of them are popped than
there are days. -/
theorem countP_popped_le (h : (object E vscp_isSameGUID).Reachable (init (opened E start path guid content)) s)
    (htype : ∀ ex pev, E.vscp_convertEventExToEvent ex = some pev → pev.vscp_type = ex.vscp_type) {t : VscpType}
    (hdays : ((workRun E start s.shared.readings).2.filterMap (Entry.handedAt t)).Pairwise
      fun a b => a.date < b.date)
    (hmem : ∀ c ∈ (workRun E start s.shared.readings).2.filterMap (Entry.handedAt t), c ∈ s.shared.readings) :
    s.shared.receive.popped.countP (fun pev => pev.any (hasType t)) ≤
      (s.shared.readings.map Clock.date).toFinset.card := by
  set days := ((workRun E start s.shared.readings).2.filterMap (Entry.handedAt t)).map Clock.date with hd
  have hnodup : days.Nodup := List.pairwise_map.2 (hdays.imp ne_of_lt)
  have hsub : days.toFinset ⊆ (s.shared.readings.map Clock.date).toFinset := by
    intro d hd'
    obtain ⟨c, hc, rfl⟩ := List.mem_map.1 (List.mem_toFinset.1 hd')
    exact List.mem_toFinset.2 (List.mem_map_of_mem (hmem c hc))
  set log := (Runs.run (workStep E) (opened E start path guid content) s.shared.readings).2 with hlog
  have hpopped : s.shared.receive.popped.countP (fun pev => pev.any (hasType t)) ≤
      (acceptedIn E (opened E start path guid content).m_vscpfilter log).countP (hasType t) := by
    have hreceived := congrArg (List.countP fun pev => pev.any (hasType t)) (received h)
    rw [List.countP_append, List.countP_append, List.countP_map, List.countP_map] at hreceived
    exact ((Nat.le_add_right _ _).trans (Nat.le_add_right _ _)).trans hreceived.le
  calc s.shared.receive.popped.countP (fun pev => pev.any (hasType t))
      ≤ (log.filterMap (Entry.handedAt t)).length := hpopped.trans (countP_acceptedIn_le htype t log)
    _ = days.length := by rw [hlog, handedAt_opened, hd, List.length_map]
    _ = days.toFinset.card := (List.toFinset_card_of_nodup hnodup).symm
    _ ≤ (s.shared.readings.map Clock.date).toFinset.card := Finset.card_le_card hsub

/-- However the worker and the clients take turns, the clients together get no
more events of a kind, and no more NEW_CALCULATIONs, than there are days on
which `doWork` was called. -/
theorem never_more_than_days
    (h : (object E vscp_isSameGUID).Reachable (init (opened E start path guid content)) s)
    (hmono : (start :: s.shared.readings).Pairwise (· ≤ ·))
    (hcalc : ∀ c ∈ start :: s.shared.readings, ∀ k,
      (scheduled E (homeLatitude E start) (homeLongitude E start) c k).OnDate c.date)
    (hspan : ∀ t d, vscpdatetime.OnDate t d → (E.addSeconds t SPAN24).OnDate d.next)
    (htype : ∀ ex pev, E.vscp_convertEventExToEvent ex = some pev → pev.vscp_type = ex.vscp_type) :
    let count t := s.shared.receive.popped.countP fun pev => pev.any (hasType t)
    let days := (s.shared.readings.map Clock.date).toFinset.card
    (∀ k : Kind, count k.vscp_type ≤ days) ∧ count .VSCP2_TYPE_VSCPD_NEW_CALCULATION ≤ days := by
  have hi := NoRepeat.inv_run E start s.shared.readings hmono hcalc hspan
  exact ⟨fun k => countP_popped_le h htype (hi.kinds k) (hi.mem _), countP_popped_le h htype hi.news (hi.mem _)⟩

/-- What an opened object hands over on a day of six calls in every minute. -/
theorem day_opened {cs : List Clock} {D : Day} (hstart : start.date < D) (hmono : (start :: cs).Pairwise (· ≤ ·))
    (hsix : SixEachMinute start cs D)
    (hcalc : ∀ c ∈ start :: cs, ∀ k,
      let t := scheduled E (homeLatitude E start) (homeLongitude E start) c k
      t.OnDate c.date ∧ (0 ≤ t.hour ∧ t.hour ≤ 23) ∧ (0 ≤ t.minute ∧ t.minute ≤ 59))
    (hspan : ∀ t d, vscpdatetime.OnDate t d → (E.addSeconds t SPAN24).OnDate d.next) :
    let today := (onDay E (opened E start path guid content) cs D).2
    (today.filterMap (Entry.handedAt .VSCP2_TYPE_VSCPD_NEW_CALCULATION)).length = 1 ∧
      ∀ k : Kind, (today.filterMap (Entry.handedAt k.vscp_type)).length = 1 := by
  have hcs := (List.pairwise_cons.1 hmono).2
  obtain ⟨c₀, rest, hc₀, hh⟩ := first_call hstart hcs hsix
  -- the state in which the day begins
  have hsub : (start :: cs.filter fun c => c.date < D).Sublist (start :: cs) := List.filter_sublist.cons_cons _
  have hi := inv_run E start _ (hmono.sublist hsub) (fun c hc k => (hcalc c (hsub.subset hc) k).1) hspan
  have hplan : (beforeDay E (opened E start path guid content) cs D).1.plan =
      (workRun E start (cs.filter fun c => c.date < D)).1.plan := by
    rw [beforeDay, (run_plan E _ _).1, opened_plan E start path guid content]
    exact (run_plan E _ _).1.symm
  rw [onDay, hc₀]
  generalize beforeDay E (opened E start path guid content) cs D = r at hplan ⊢
  obtain ⟨hlat, hlon, -, hlatch⟩ := Plan.mk.inj hplan
  have hday (c : Clock) (hc : c ∈ c₀ :: rest) : c ∈ cs ∧ c.date = D := by
    rw [← hc₀] at hc
    simpa using hc
  have hcalcDue : r.1.CalcDue c₀ := ⟨hlatch.trans (hi.latch.trans (latch_clear hmono hsix)), hh⟩
  obtain ⟨-, hnew, hkinds⟩ := day_served E hcalcDue (fun c hc => (hday c hc).2) (by rw [← hc₀]; exact hcs.filter _)
    (fun m hm => by
      refine (hsix m (Prod.Lex.le_iff.2 (.inl (hm ▸ hstart))) hm.le).trans (le_of_eq ?_)
      rw [← hc₀, List.countP_filter]
      apply List.countP_congr
      intro c _
      simp only [decide_eq_true_eq, Bool.and_eq_true]
      exact ⟨fun h => ⟨h, by rw [← hm, ← h]; rfl⟩, fun h => h.1⟩)
    (fun k => by
      rw [hlat, hlon, hi.m_latitude, hi.m_longitude]
      exact hcalc c₀ (List.mem_cons_of_mem _ (hday c₀ List.mem_cons_self).1) k) hspan
  constructor
  · rw [hnew]
    rfl
  · intro k
    obtain ⟨c, hc, -⟩ := hkinds k
    rw [hc]
    rfl

/-- Once `doWork` has been called six times in every minute to the end of a day,
the clients have been given, or the queue and the worker still hold, one event
of each kind and one NEW_CALCULATION of that day, between what is accepted of
the days before it and of those after it. -/
theorem delivered_each_day
    (h : (object E vscp_isSameGUID).Reachable (init (opened E start path guid content)) s) {D : Day}
    (hstart : start.date < D) (hmono : (start :: s.shared.readings).Pairwise (· ≤ ·))
    (hsix : SixEachMinute start s.shared.readings D)
    (hcalc : ∀ c ∈ start :: s.shared.readings, ∀ k,
      let t := scheduled E (homeLatitude E start) (homeLongitude E start) c k
      t.OnDate c.date ∧ (0 ≤ t.hour ∧ t.hour ≤ 23) ∧ (0 ≤ t.minute ∧ t.minute ≤ 59))
    (hspan : ∀ t d, vscpdatetime.OnDate t d → (E.addSeconds t SPAN24).OnDate d.next)
    (htype : ∀ ex pev, E.vscp_convertEventExToEvent ex = some pev → pev.vscp_type = ex.vscp_type)
    (haccept : ∀ ex, (accepted E E.vscp_clearVSCPFilter ex).isSome) :
    let inHands := s.shared.doing.call.flatMap (inHand E E.vscp_clearVSCPFilter)
    let s₀ := opened E start path guid content
    let before := acceptedIn E E.vscp_clearVSCPFilter (beforeDay E s₀ s.shared.readings D).2
    let today := acceptedIn E E.vscp_clearVSCPFilter (onDay E s₀ s.shared.readings D).2
    let after := acceptedIn E E.vscp_clearVSCPFilter (afterDay E s₀ s.shared.readings D).2
    s.shared.receive.popped ++ s.shared.receive.m_receiveList ++ inHands.map some =
        (before ++ today ++ after).map some ∧
      today.countP (hasType .VSCP2_TYPE_VSCPD_NEW_CALCULATION) = 1 ∧
      ∀ k : Kind, today.countP (hasType k.vscp_type) = 1 := by
  obtain ⟨hnew, hkinds⟩ := @day_opened K _ _ _ E start path guid content _ D hstart hmono hsix hcalc hspan
  have hreceived := received h
  rw [opened_m_vscpfilter, run_days E _ _ D (List.pairwise_cons.1 hmono).2, acceptedIn_append, acceptedIn_append]
    at hreceived
  refine ⟨hreceived, ?_, fun k => ?_⟩
  · exact (countP_acceptedIn_eq htype haccept _ _).trans hnew
  · exact (countP_acceptedIn_eq htype haccept _ _).trans (hkinds k)

end

/-! ## Runs -/

theorem rational_type (ex : vscpEventEx) (pev : vscpEvent)
    (h : (rationalEnv fun _ => .error .parse_error).vscp_convertEventExToEvent ex = some pev) :
    pev.vscp_type = ex.vscp_type := by
  obtain rfl := Option.some.inj h
  rfl

/-- A reader is given the NEW_CALCULATION of one midnight. -/
theorem never_more_than_days_midnight :
    let E := rationalEnv fun _ => .error .parse_error
    let s₀ := opened E (march 20 12 0 (by decide)) "" (.replicate 16 0) ""
    ∃ s, (object E (· == ·)).run (init s₀) midnight = some s ∧ s.shared.receive.popped.length = 1 ∧
      let count t := s.shared.receive.popped.countP fun pev => pev.any (hasType t)
      let days := (s.shared.readings.map Clock.date).toFinset.card
      (∀ k : Kind, count k.vscp_type ≤ days) ∧ count .VSCP2_TYPE_VSCPD_NEW_CALCULATION ≤ days := by
  intro E s₀
  have hr (s) (h : (object E (· == ·)).run (init s₀) midnight = some s)
      (hs : s.shared.readings = [march 21 0 0 (by decide)]) :=
    never_more_than_days (System.run_reachable midnight .init h) (by rw [hs]; decide)
      (fun c _ k => vscpdatetime.onDate_now c) (rationalEnv_lawful _).addSpan_onDate rational_type
  exact ⟨_, rfl, rfl, hr _ rfl rfl⟩

/-- A worker that goes round six times in every minute of two days. -/
theorem delivered_each_day_march :
    let E := rationalEnv fun _ => .error .parse_error
    let start := march 19 0 0 (by decide)
    let s₀ := opened E start "" (.replicate 16 0) ""
    ∃ x, (object E (· == ·)).Reachable (init s₀) ⟨x, []⟩ ∧
      x.readings = wholeDay 19 (by decide) ++ wholeDay 20 (by decide) ∧
      let D := (march 20 0 0 (by decide)).date
      let inHands := x.doing.call.flatMap (inHand E E.vscp_clearVSCPFilter)
      let before := acceptedIn E E.vscp_clearVSCPFilter (beforeDay E s₀ x.readings D).2
      let today := acceptedIn E E.vscp_clearVSCPFilter (onDay E s₀ x.readings D).2
      let after := acceptedIn E E.vscp_clearVSCPFilter (afterDay E s₀ x.readings D).2
      x.receive.popped ++ x.receive.m_receiveList ++ inHands.map some = (before ++ today ++ after).map some ∧
        today.countP (hasType .VSCP2_TYPE_VSCPD_NEW_CALCULATION) = 1 ∧
        ∀ k : Kind, today.countP (hasType k.vscp_type) = 1 := by
  intro E start s₀
  obtain ⟨x, h, -, hreadings⟩ :=
    @exists_readings ℚ _ _ _ E (· == ·) s₀ (wholeDay 19 (by decide) ++ wholeDay 20 (by decide))
  have hmem (c : Clock) (hc : c ∈ start :: (wholeDay 19 (by decide) ++ wholeDay 20 (by decide))) :
      ∃ d : {d // 1 ≤ d ∧ d ≤ 31}, ∃ h m, d ∈ [(⟨19, by decide⟩ : {d // 1 ≤ d ∧ d ≤ 31}), ⟨20, by decide⟩] ∧
        (19 < d.1 ∨ 19 = d.1 ∧ (0 < h ∨ 0 = h ∧ 0 ≤ m)) ∧ c = march d.1 h m d.2 := by
    have hzero (h : Fin 24) (m : Fin 60) : 0 < h ∨ 0 = h ∧ 0 ≤ m :=
      h.zero_le.lt_or_eq.imp_right fun h => ⟨h, m.zero_le⟩
    rcases List.mem_cons.1 hc with rfl | hc
    · exact ⟨⟨19, by decide⟩, 0, 0, by simp, .inr ⟨rfl, hzero 0 0⟩, rfl⟩
    · rcases List.mem_append.1 hc with hc | hc
      · obtain ⟨h, m, rfl⟩ := mem_wholeDay hc
        exact ⟨⟨19, by decide⟩, h, m, by simp, .inr ⟨rfl, hzero h m⟩, rfl⟩
      · obtain ⟨h, m, rfl⟩ := mem_wholeDay hc
        exact ⟨⟨20, by decide⟩, h, m, by simp, .inl (by decide), rfl⟩
  refine ⟨x, h, hreadings, delivered_each_day h (D := (march 20 0 0 (by decide)).date) ?_ ?_ ?_ ?_
    (rationalEnv_lawful _).addSpan_onDate rational_type fun ex => rfl⟩
  · decide
  · change (start :: x.readings).Pairwise (· ≤ ·)
    rw [hreadings]
    refine List.pairwise_cons.2 ⟨?_, List.pairwise_append.2 ⟨wholeDay_pairwise 19 _, wholeDay_pairwise 20 _, ?_⟩⟩
    · intro c hc
      obtain ⟨d, h, m, -, hle, rfl⟩ := hmem c (List.mem_cons_of_mem _ hc)
      exact march_le hle
    · intro a ha b hb
      obtain ⟨h, m, rfl⟩ := mem_wholeDay ha
      obtain ⟨h', m', rfl⟩ := mem_wholeDay hb
      exact march_le (.inl (by decide))
  · change SixEachMinute start x.readings _
    rw [hreadings]
    exact wholeDay_sixEachMinute
  · change ∀ c ∈ start :: x.readings, _
    rw [hreadings]
    intro c hc k
    obtain ⟨d, h, m, hd, -, rfl⟩ := hmem c hc
    obtain ⟨hh, hm⟩ := rational_valid d hd h k k.mem_order
    obtain ⟨hdate, hhour, hminute⟩ := @scheduled_lawful ℚ _ _ _ E (rationalEnv_lawful _) (homeLatitude E start)
      (homeLongitude E start) (march d.1 h m d.2) k hh hm
    exact ⟨hdate, hhour ▸ hh, hminute ▸ hm⟩

end VscpAutomation.Object
