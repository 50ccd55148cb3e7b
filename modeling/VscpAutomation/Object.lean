import VscpAutomation.SendQueue
import VscpAutomation.Work
import VscpAutomation.Config
/-!
# One object and its clients

The worker thread with everything it does, and calls of `VSCPWrite` and
`VSCPRead`, step by step and in any order. `doWork` is taken apart at its call
of `eventExToReceiveQueue`: what comes before (`prepare`) is the worker's own,
the call itself meets the readers at the queue.

Each queue does here what it does alone (`send_follows`, `receive_follows`), and
the schedule is that of the `doWork` calls one after the other
(`schedule_follows`).
-/

namespace VscpAutomation

/-- The event that was handed over. -/
def Entry.event {K : Type} : Entry K → Option vscpEventEx
  | .calculated _ _ _ => none
  | .handed _ ex => some ex

namespace CAutomation

variable {K : Type}

/-- `s` with another receive queue. -/
def setQueue (l : List vscpEvent) (n : ℕ) (s : CAutomation K) : CAutomation K :=
  { s with m_receiveList := l, m_semReceiveQueue := n }

@[simp]
theorem setQueue_time (l : List vscpEvent) (n : ℕ) (s : CAutomation K) (k : Kind) :
    (s.setQueue l n).time k = s.time k := by
  cases k <;> rfl

@[simp]
theorem unlatch_m_vscpfilter (c : Clock) (s : CAutomation K) : (s.unlatch c).m_vscpfilter = s.m_vscpfilter := by
  unfold unlatch; split <;> rfl

@[simp]
theorem reschedule_m_vscpfilter (E : Env K) (c : Clock) (s : CAutomation K) (k : Kind) :
    (s.reschedule E c k).m_vscpfilter = s.m_vscpfilter := by
  cases k <;> rfl

/-- What the queue accepts of an event. -/
def accepted (E : Env K) (m_vscpfilter : vscpEventFilter) (ex : vscpEventEx) : Option vscpEvent :=
  (E.vscp_convertEventExToEvent ex).filter fun pev => E.vscp_doLevel2Filter pev m_vscpfilter

theorem eventExToReceiveQueue_state (E : Env K) (ex : vscpEventEx) (s : CAutomation K) :
    (s.eventExToReceiveQueue E ex).2 =
      s.setQueue (s.m_receiveList ++ (accepted E s.m_vscpfilter ex).toList)
        (s.m_semReceiveQueue + (accepted E s.m_vscpfilter ex).toList.length) := by
  unfold eventExToReceiveQueue accepted
  cases E.vscp_convertEventExToEvent ex with
  | none => rw [Option.filter_none, Option.toList_none, List.append_nil]; rfl
  | some pev =>
    dsimp only
    rw [Option.filter_some]
    by_cases hf : E.vscp_doLevel2Filter pev s.m_vscpfilter = true
    · rw [if_pos hf, if_pos hf]
      rfl
    · rw [if_neg hf, if_neg hf, Option.toList_none, List.append_nil]
      rfl

variable [Field K] [LinearOrder K] [FloorRing K] (E : Env K)

/-- `doWork` up to its call of `eventExToReceiveQueue`, and the event it makes. -/
def prepare (c : Clock) (s : CAutomation K) : CAutomation K × Option vscpEventEx :=
  if !s.m_bCalulationHasBeenDone && 0 == c.now.hour then
    let s := { s.doCalc E c with m_bCalulationHasBeenDone := true }
    (s, some (s.newCalculation E c))
  else
    let s := if 0 != c.now.hour then { s with m_bCalulationHasBeenDone := false } else s
    match s.firstDue c with
    | some k =>
      let s := s.reschedule E c k
      (s, some (s.information E c k))
    | none => (s, none)

theorem prepare_of_calcDue {c : Clock} {s : CAutomation K} (h : s.CalcDue c) :
    s.prepare E c = ({ s.doCalc E c with m_bCalulationHasBeenDone := true }, some (s.newCalculation E c)) := by
  unfold prepare
  simp only [zero_beq_hour]
  rw [if_pos (by simp [h.1, h.2])]
  rfl

theorem prepare_of_not_calcDue {c : Clock} {s : CAutomation K} (h : ¬ s.CalcDue c) :
    s.prepare E c =
      match s.firstDue c with
      | some k => ((s.unlatch c).reschedule E c k, some (s.information E c k))
      | none => (s.unlatch c, none) := by
  have hu : (if (!decide (c.hour = 0)) = true then { s with m_bCalulationHasBeenDone := false } else s) =
      s.unlatch c := by
    unfold unlatch
    by_cases hc : c.hour = 0 <;> simp [hc]
  have hf : (s.unlatch c).firstDue c = s.firstDue c := by simp [firstDue]
  unfold prepare
  simp only [bne, zero_beq_hour]
  rw [if_neg (by simpa [CalcDue] using h), hu, hf]
  cases s.firstDue c with
  | none => rfl
  | some k => simp only [reschedule_information, unlatch_information]

/-- `doWork` is `prepare`, and the call where there is an event. -/
theorem doWork_eq_prepare (c : Clock) (s : CAutomation K) :
    (s.doWork E c).state =
        ((s.prepare E c).1.setQueue
          (s.m_receiveList ++ ((s.prepare E c).2.bind (accepted E s.m_vscpfilter)).toList)
          (s.m_semReceiveQueue + ((s.prepare E c).2.bind (accepted E s.m_vscpfilter)).toList.length)) ∧
      (s.doWork E c).log.filterMap Entry.event = (s.prepare E c).2.toList := by
  by_cases h : s.CalcDue c
  · rw [doWork_of_calcDue E h, prepare_of_calcDue E h]
    dsimp only
    rw [eventExToReceiveQueue_state]
    exact ⟨rfl, rfl⟩
  · rw [doWork_of_not_calcDue E h, prepare_of_not_calcDue E h]
    cases s.firstDue c with
    | none =>
      refine ⟨?_, rfl⟩
      dsimp only
      rw [Option.bind_none, Option.toList_none, List.append_nil, ← unlatch_m_receiveList c s,
        ← unlatch_m_semReceiveQueue c s]
      rfl
    | some k =>
      refine ⟨?_, ?_⟩
      · dsimp only [deliver]
        rw [eventExToReceiveQueue_state, reschedule_information, unlatch_information, reschedule_m_receiveList,
          reschedule_m_semReceiveQueue, reschedule_m_vscpfilter, unlatch_m_receiveList, unlatch_m_semReceiveQueue,
          unlatch_m_vscpfilter]
        rfl
      · dsimp only [deliver]
        rw [reschedule_information, unlatch_information]
        rfl

/-- `prepare` neither reads nor changes the queue. -/
theorem prepare_setQueue (c : Clock) (s : CAutomation K) (l : List vscpEvent) (n : ℕ) :
    (s.setQueue l n).prepare E c = ((s.prepare E c).1.setQueue l n, (s.prepare E c).2) := by
  have hf : (s.setQueue l n).firstDue c = s.firstDue c := by simp [firstDue]
  by_cases h : s.CalcDue c
  · rw [prepare_of_calcDue E h, prepare_of_calcDue E (s := s.setQueue l n) h]
    rfl
  · rw [prepare_of_not_calcDue E h, prepare_of_not_calcDue E (s := s.setQueue l n) h, hf]
    cases s.firstDue c with
    | none =>
      dsimp only
      unfold unlatch setQueue
      split <;> rfl
    | some k =>
      dsimp only
      unfold unlatch setQueue
      cases k <;> (split <;> rfl)

/-- `VSCPOpen` before its handle: the constructor and `open`, which starts the
worker. -/
def opened (start : Clock) (path : String) (guid : cguid) (content : String) : CAutomation K :=
  ((new E start).open_ E path guid content true).state

theorem opened_queue (start : Clock) (path : String) (guid : cguid) (content : String) :
    (opened E start path guid content).m_receiveList = [] ∧ (opened E start path guid content).m_semReceiveQueue = 0 := by
  unfold opened
  rw [open_loads]
  rcases doLoadConfig_state E content { new E start with m_guid := guid, m_path := path } with h | ⟨j, h⟩
  · rw [h]
    exact ⟨rfl, rfl⟩
  · rw [h]
    exact ⟨rfl, rfl⟩

end CAutomation

namespace Object

open Interleave CAutomation

/-! ## State -/

/-- Where the worker is in `doWork`: before it, in its call of
`eventExToReceiveQueue`, or at its end without one. -/
inductive Doing where
  | begins
  | handing (c : ReceiveQueue.Call)
  | ends

/-- `doWork` has nothing left to do. -/
def Doing.returned : Doing → Bool
  | .handing (.pushed _) => true
  | .ends => true
  | _ => false

/-- What the worker and the calls share. The queues and `m_bQuit` are in
`receive` and `send`; the fields that `automation` has for them stay as they
are. `readings` records when `doWork` was called, `handled` what `handleHLO`
was given and `deleted` what the worker deleted. -/
structure Shared (K : Type) where
  automation : CAutomation K
  receive : ReceiveQueue.Queue
  send : SendQueue.Queue
  doing : Doing
  readings : List Clock
  handled : List vscpEvent
  deleted : List vscpEvent

/-- A call of a client, at its next step. -/
inductive Call where
  | VSCPWrite (c : SendQueue.Call)
  | VSCPRead (c : ReceiveQueue.Call)

inductive Start where
  | VSCPWrite (pEvent : Option vscpEvent)
  | VSCPRead

/-- A step of the worker: it begins `doWork`, goes on with
`eventExToReceiveQueue`, or does what `SendQueue` has for it. `close` is a step
of `SendQueue` too. -/
inductive Step where
  | doWork (now : Clock)
  | eventExToReceiveQueue
  | send (e : SendQueue.Step)

/-- Only these events are of interest to the worker. -/
def isCommand (vscp_isSameGUID : cguid → cguid → Bool) (m_guid : cguid) (pEvent : vscpEvent) : Bool :=
  .VSCP_CLASS2_HLO == pEvent.vscp_class && .VSCP2_TYPE_HLO_COMMAND == pEvent.vscp_type &&
    vscp_isSameGUID m_guid pEvent.GUID

section
variable {K : Type} (E : Env K)

def move : ReceiveQueue.Choice → Shared K → Call → Option (Shared K × Call)
  | a, s, .VSCPRead c =>
    (ReceiveQueue.move E s.automation.m_vscpfilter a s.receive c).map fun r =>
      ({ s with receive := r.1 }, .VSCPRead r.2)
  | .go, s, .VSCPWrite c => (SendQueue.move s.send c).map fun r => ({ s with send := r.1 }, .VSCPWrite r.2)
  | .fails _, _, .VSCPWrite _ => none

variable [Field K] [LinearOrder K] [FloorRing K] (vscp_isSameGUID : cguid → cguid → Bool)

/-- The worker's part of `doWork`, up to its call. -/
def beginWork (now : Clock) (s : Shared K) : Shared K :=
  let r := s.automation.prepare E now
  { s with
    automation := r.1
    doing := r.2.elim .ends fun ex => .handing (.convert ex)
    readings := s.readings ++ [now] }

/-- The worker handles an event and deletes it. -/
def handle (pEvent : vscpEvent) (s : Shared K) : Shared K :=
  { s with
    handled := if isCommand vscp_isSameGUID s.automation.m_guid pEvent then s.handled ++ [pEvent] else s.handled
    deleted := s.deleted ++ [pEvent] }

def workerThread : Step → Shared K → Option (Shared K)
  | .doWork now, s =>
    match s.send.worker, s.doing with
    | .doWork, .begins => some (beginWork E now s)
    | _, _ => none
  | .eventExToReceiveQueue, s =>
    match s.doing with
    | .handing c =>
      (ReceiveQueue.move E s.automation.m_vscpfilter .go s.receive c).map fun r =>
        { s with receive := r.1, doing := .handing r.2 }
    | _ => none
  | .send .work, s =>
    match s.send.worker with
    | .doWork =>
      if s.doing.returned then
        (SendQueue.workerThread .work s.send).map fun q => { s with send := q, doing := .begins }
      else none
    | .handle pEvent =>
      (SendQueue.workerThread .work s.send).map fun q => { handle vscp_isSameGUID pEvent s with send := q }
    | _ => (SendQueue.workerThread .work s.send).map fun q => { s with send := q }
  | .send e, s => (SendQueue.workerThread e s.send).map fun q => { s with send := q }

/-- The worker of one object, and its clients. -/
def object : System (Shared K) Call Start ReceiveQueue.Choice Step where
  start
    | .VSCPWrite pEvent => .VSCPWrite (.lock pEvent)
    | .VSCPRead => .VSCPRead .vscp_sem_wait
  move := move E
  env := workerThread E vscp_isSameGUID

end

/-- The worker of `s` has just been started. -/
def init {K : Type} (s : CAutomation K) : State (Shared K) Call :=
  ⟨⟨s, ReceiveQueue.init.shared, SendQueue.init.shared, .begins, [], [], []⟩, []⟩

/-! ## What a step does -/

section
variable {K : Type} {E : Env K}

/-- A move is one on the queue of its call. -/
theorem move_cases {a : ReceiveQueue.Choice} {s s' : Shared K} {t t' : Call} (h : move E a s t = some (s', t')) :
    (∃ c c' q, t = .VSCPRead c ∧ t' = .VSCPRead c' ∧ s' = { s with receive := q } ∧
        ReceiveQueue.move E s.automation.m_vscpfilter a s.receive c = some (q, c')) ∨
      ∃ c c' q, t = .VSCPWrite c ∧ t' = .VSCPWrite c' ∧ s' = { s with send := q } ∧
        SendQueue.move s.send c = some (q, c') := by
  cases t with
  | VSCPRead c =>
    obtain ⟨⟨q, c'⟩, hm, he⟩ := Option.map_eq_some_iff.1 h
    obtain ⟨rfl, rfl⟩ := Prod.mk.inj he
    exact .inl ⟨c, c', q, rfl, rfl, rfl, hm⟩
  | VSCPWrite c =>
    cases a with
    | go =>
      obtain ⟨⟨q, c'⟩, hm, he⟩ := Option.map_eq_some_iff.1 h
      obtain ⟨rfl, rfl⟩ := Prod.mk.inj he
      exact .inr ⟨c, c', q, rfl, rfl, rfl, hm⟩
    | fails errno => cases h

variable [Field K] [LinearOrder K] [FloorRing K] {vscp_isSameGUID : cguid → cguid → Bool}

/-- What a step of the worker leaves of `s`. -/
inductive Did (E : Env K) (vscp_isSameGUID : cguid → cguid → Bool) (s : Shared K) : Step → Shared K → Prop
  | doWork (now : Clock) (hw : s.send.worker = .doWork) (hd : s.doing = .begins) :
      Did E vscp_isSameGUID s (.doWork now) (beginWork E now s)
  | eventExToReceiveQueue {c c' : ReceiveQueue.Call} {q : ReceiveQueue.Queue} (hd : s.doing = .handing c)
      (hm : ReceiveQueue.move E s.automation.m_vscpfilter .go s.receive c = some (q, c')) :
      Did E vscp_isSameGUID s .eventExToReceiveQueue { s with receive := q, doing := .handing c' }
  | returns {q : SendQueue.Queue} (hw : s.send.worker = .doWork)
      (hd : s.doing.returned = true)
      (hq : SendQueue.workerThread .work s.send = some q) :
      Did E vscp_isSameGUID s (.send .work) { s with send := q, doing := .begins }
  | handle {pEvent : vscpEvent} {q : SendQueue.Queue} (hw : s.send.worker = .handle pEvent)
      (hq : SendQueue.workerThread .work s.send = some q) :
      Did E vscp_isSameGUID s (.send .work) { handle vscp_isSameGUID pEvent s with send := q }
  | send {e : SendQueue.Step} {q : SendQueue.Queue}
      (hw : e = .work → s.send.worker ≠ .doWork ∧ ∀ pEvent, s.send.worker ≠ .handle pEvent)
      (hq : SendQueue.workerThread e s.send = some q) : Did E vscp_isSameGUID s (.send e) { s with send := q }

theorem workerThread_did {s s' : Shared K} {e : Step} (h : workerThread E vscp_isSameGUID e s = some s') :
    Did E vscp_isSameGUID s e s' := by
  cases e with
  | doWork now =>
    simp only [workerThread] at h
    split at h
    · rename_i hw hd
      obtain rfl := Option.some.inj h
      exact .doWork now hw hd
    · cases h
  | eventExToReceiveQueue =>
    simp only [workerThread] at h
    split at h
    · rename_i c hd
      obtain ⟨⟨q, c'⟩, hm, rfl⟩ := Option.map_eq_some_iff.1 h
      exact .eventExToReceiveQueue hd hm
    · cases h
  | send e =>
    cases e with
    | work =>
      simp only [workerThread] at h
      split at h
      · rename_i hw
        split at h
        · rename_i hd
          obtain ⟨q, hq, rfl⟩ := Option.map_eq_some_iff.1 h
          exact .returns hw hd hq
        · cases h
      · rename_i pEvent hw
        obtain ⟨q, hq, rfl⟩ := Option.map_eq_some_iff.1 h
        exact .handle hw hq
      · rename_i hdoWork hhandle
        obtain ⟨q, hq, rfl⟩ := Option.map_eq_some_iff.1 h
        exact .send (fun _ => ⟨hdoWork, hhandle⟩) hq
    | fails errno =>
      simp only [workerThread] at h
      obtain ⟨q, hq, rfl⟩ := Option.map_eq_some_iff.1 h
      exact .send (by simp) hq
    | close =>
      simp only [workerThread] at h
      obtain ⟨q, hq, rfl⟩ := Option.map_eq_some_iff.1 h
      exact .send (by simp) hq

/-! ## The queues -/

/-- The calls that are at the send queue. -/
def writes (l : List Call) : List SendQueue.Call :=
  l.filterMap fun
    | .VSCPWrite c => some c
    | .VSCPRead _ => none

/-- The calls that are at the receive queue. -/
def reads (l : List Call) : List ReceiveQueue.Call :=
  l.filterMap fun
    | .VSCPWrite _ => none
    | .VSCPRead c => some c

@[simp]
theorem writes_append (l r : List Call) : writes (l ++ r) = writes l ++ writes r := List.filterMap_append ..

@[simp]
theorem writes_write (c : SendQueue.Call) (l : List Call) : writes (.VSCPWrite c :: l) = c :: writes l := rfl

@[simp]
theorem writes_read (c : ReceiveQueue.Call) (l : List Call) : writes (.VSCPRead c :: l) = writes l := rfl

@[simp]
theorem reads_append (l r : List Call) : reads (l ++ r) = reads l ++ reads r := List.filterMap_append ..

@[simp]
theorem reads_write (c : SendQueue.Call) (l : List Call) : reads (.VSCPWrite c :: l) = reads l := rfl

@[simp]
theorem reads_read (c : ReceiveQueue.Call) (l : List Call) : reads (.VSCPRead c :: l) = c :: reads l := rfl

/-- The worker's call. -/
def Doing.call : Doing → List ReceiveQueue.Call
  | .handing c => [c]
  | _ => []

variable {s₀ : CAutomation K} {s : State (Shared K) Call}

/-- The send queue, its writers and the worker do what `SendQueue` has. -/
theorem send_follows (h : (object E vscp_isSameGUID).Reachable (init s₀) s) :
    SendQueue.calls.ReachableAs SendQueue.init s.shared.send (writes s.threads) := by
  refine h.invariant (I := fun s => SendQueue.calls.ReachableAs SendQueue.init s.shared.send (writes s.threads))
    ?_ ?_ ?_ ?_
  · exact ⟨_, .init, rfl, .refl _⟩
  · intro x l b hi
    rw [writes_append]
    cases b with
    | VSCPWrite pEvent => exact hi.start pEvent
    | VSCPRead => exact (List.append_nil (writes l)).symm ▸ hi
  · intro x l t r a x' t' hi hm
    rcases move_cases hm with ⟨c, c', q, rfl, rfl, rfl, hq⟩ | ⟨c, c', q, rfl, rfl, rfl, hq⟩
    · simpa using hi
    · simp only [writes_append, writes_write] at hi ⊢
      exact hi.move (a := ()) hq
  · intro x l e x' hi he
    cases workerThread_did he with
    | doWork => exact hi
    | eventExToReceiveQueue => exact hi
    | returns _ _ hq => exact hi.env (e := .work) hq
    | handle _ hq => exact hi.env (e := .work) hq
    | send _ hq => exact hi.env hq

theorem prepare_m_vscpfilter (c : Clock) (s : CAutomation K) :
    (s.prepare E c).1.m_vscpfilter = s.m_vscpfilter := by
  by_cases h : s.CalcDue c
  · rw [prepare_of_calcDue E h]
    rfl
  · rw [prepare_of_not_calcDue E h]
    cases s.firstDue c with
    | none => exact unlatch_m_vscpfilter c s
    | some k => exact (reschedule_m_vscpfilter E c _ k).trans (unlatch_m_vscpfilter c s)

/-- The receive queue, its readers and the worker's calls do what `ReceiveQueue`
has; the calls that have returned are `done`. -/
def ReceiveFollows (E : Env K) (s₀ : CAutomation K) (s : State (Shared K) Call) : Prop :=
  s.shared.automation.m_vscpfilter = s₀.m_vscpfilter ∧
    ∃ done, (∀ c ∈ done, ∃ ret, c = ReceiveQueue.Call.pushed ret) ∧
      (ReceiveQueue.calls E s₀.m_vscpfilter).ReachableAs ReceiveQueue.init s.shared.receive
        (reads s.threads ++ (s.shared.doing.call ++ done))

theorem receive_follows (h : (object E vscp_isSameGUID).Reachable (init s₀) s) : ReceiveFollows E s₀ s := by
  refine h.invariant ?_ ?_ ?_ ?_
  · exact ⟨rfl, [], by simp, _, .init, rfl, .refl _⟩
  · rintro x l b ⟨hf, done, hdone, hi⟩
    refine ⟨hf, done, hdone, ?_⟩
    rw [reads_append]
    cases b with
    | VSCPWrite pEvent => exact (List.append_nil (reads l)).symm ▸ hi
    | VSCPRead =>
      refine (hi.start .VSCPRead).perm ?_
      rw [List.append_assoc, List.append_assoc (reads l)]
      exact List.perm_append_comm.append_left _
  · rintro x l t r a x' t' ⟨hf, done, hdone, hi⟩ hm
    rcases move_cases hm with ⟨c, c', q, rfl, rfl, rfl, hq⟩ | ⟨c, c', q, rfl, rfl, rfl, hq⟩
    · refine ⟨hf, done, hdone, ?_⟩
      simp only [reads_append, reads_read, List.append_assoc, List.cons_append] at hi ⊢
      rw [hf] at hq
      exact hi.move hq
    · exact ⟨hf, done, hdone, by simpa using hi⟩
  · rintro x l e x' ⟨hf, done, hdone, hi⟩ he
    cases workerThread_did he with
    | doWork now hw hd =>
      refine ⟨(prepare_m_vscpfilter now _).trans hf, done, hdone, ?_⟩
      rw [hd] at hi
      unfold beginWork
      dsimp only
      cases (x.automation.prepare E now).2 with
      | none => exact hi
      | some ex =>
        refine (hi.start (.eventExToReceiveQueue ex)).perm ?_
        rw [List.append_assoc]
        exact List.perm_append_comm.append_left _
    | @eventExToReceiveQueue c c' q hd hm =>
      refine ⟨hf, done, hdone, ?_⟩
      dsimp only at hf hi ⊢
      rw [hd] at hi
      rw [hf] at hm
      exact hi.move hm
    | returns _ hd _ =>
      -- the call joins those that have returned
      refine ⟨hf, x.doing.call ++ done, ?_, hi⟩
      intro c hc
      rcases List.mem_append.1 hc with hc | hc
      · cases hx : x.doing with
        | begins => rw [hx] at hc; cases hc
        | ends => rw [hx] at hc; cases hc
        | handing c' =>
          rw [hx] at hc hd
          obtain rfl := List.mem_singleton.1 hc
          cases c with
          | pushed ret => exact ⟨ret, rfl⟩
          | _ => cases hd
      · exact hdone c hc
    | handle => exact ⟨hf, done, hdone, hi⟩
    | send => exact ⟨hf, done, hdone, hi⟩

end

end Object

end VscpAutomation
