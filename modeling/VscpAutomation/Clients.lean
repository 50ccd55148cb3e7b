import VscpAutomation.Object
import VscpAutomation.Rational
/-!
# What the clients receive

While the worker and the readers meet at the queue in any order, the readers
pop what the `doWork` calls hand over, as if each call had run alone
(`clients_receive`), and each event popped goes to one reader (`read_once`).
-/

namespace VscpAutomation.ReceiveQueue

open Interleave

/-! ## What a call's step does -/

/-- What a step of a call makes of the queue and of the call. -/
inductive Did {K : Type} (E : Env K) (m_vscpfilter : vscpEventFilter) (q : Queue) : Call → Queue → Call → Prop
  | rejects {ex : vscpEventEx} {ret : Bool} (h : CAutomation.accepted E m_vscpfilter ex = none) :
      Did E m_vscpfilter q (.convert ex) q (.pushed ret)
  | accepts {ex : vscpEventEx} {pev : vscpEvent} (h : CAutomation.accepted E m_vscpfilter ex = some pev) :
      Did E m_vscpfilter q (.convert ex) q (.lockPush pev)
  | lockPush {pev : vscpEvent} :
      Did E m_vscpfilter q (.lockPush pev) { q with m_mutexReceiveQueue := true } (.push_back pev)
  | push_back {pev : vscpEvent} :
      Did E m_vscpfilter q (.push_back pev)
        { q with m_receiveList := q.m_receiveList ++ [some pev], pushed := q.pushed ++ [some pev] } .sem_post
  | sem_post : Did E m_vscpfilter q .sem_post { q with m_semReceiveQueue := q.m_semReceiveQueue + 1 } .unlockPush
  | unlockPush : Did E m_vscpfilter q .unlockPush { q with m_mutexReceiveQueue := false } (.pushed true)
  | fails {errno : Errno} : Did E m_vscpfilter q .vscp_sem_wait q (.read (waitError errno) none)
  | vscp_sem_wait {n : ℕ} (h : q.m_semReceiveQueue = n + 1) :
      Did E m_vscpfilter q .vscp_sem_wait { q with m_semReceiveQueue := n } .lockPop
  | lockPop : Did E m_vscpfilter q .lockPop { q with m_mutexReceiveQueue := true } .front
  | front {p : Option vscpEvent} {l : List (Option vscpEvent)} (h : q.m_receiveList = p :: l) :
      Did E m_vscpfilter q .front q (.pop_front p)
  | pop_front {p x : Option vscpEvent} {l : List (Option vscpEvent)} (h : q.m_receiveList = x :: l) :
      Did E m_vscpfilter q (.pop_front p) { q with m_receiveList := l, popped := q.popped ++ [x] } (.unlockPop p)
  | null : Did E m_vscpfilter q (.unlockPop none) { q with m_mutexReceiveQueue := false } (.read .CANAL_ERROR_MEMORY none)
  | event {ev : vscpEvent} :
      Did E m_vscpfilter q (.unlockPop (some ev)) { q with m_mutexReceiveQueue := false }
        (.read .CANAL_ERROR_SUCCESS (some ev))
  | frontEmpty (h : q.m_receiveList = []) : Did E m_vscpfilter q .front q .undefined
  | popEmpty {p : Option vscpEvent} (h : q.m_receiveList = []) : Did E m_vscpfilter q (.pop_front p) q .undefined

variable {K : Type} {E : Env K} {m_vscpfilter : vscpEventFilter}

theorem move_did {a : Choice} {q q' : Queue} {c c' : Call} (h : move E m_vscpfilter a q c = some (q', c')) :
    Did E m_vscpfilter q c q' c' := by
  cases a with
  | fails errno =>
    cases c with
    | vscp_sem_wait =>
      obtain ⟨rfl, rfl⟩ := Prod.mk.inj (Option.some.inj h)
      exact .fails
    | _ => cases h
  | go =>
    cases c with
    | convert ex =>
      simp only [move] at h
      split at h
      · rename_i hc
        obtain ⟨rfl, rfl⟩ := Prod.mk.inj (Option.some.inj h)
        exact .rejects (by rw [CAutomation.accepted, hc, Option.filter_none])
      · rename_i pev hc
        split at h
        · rename_i hf
          obtain ⟨rfl, rfl⟩ := Prod.mk.inj (Option.some.inj h)
          exact .accepts (by rw [CAutomation.accepted, hc, Option.filter_some, if_pos hf])
        · rename_i hf
          obtain ⟨rfl, rfl⟩ := Prod.mk.inj (Option.some.inj h)
          exact .rejects (by rw [CAutomation.accepted, hc, Option.filter_some, if_neg hf])
    | lockPush pev =>
      simp only [move] at h
      split at h
      · cases h
      · obtain ⟨rfl, rfl⟩ := Prod.mk.inj (Option.some.inj h)
        exact .lockPush
    | push_back pev =>
      obtain ⟨rfl, rfl⟩ := Prod.mk.inj (Option.some.inj h)
      exact .push_back
    | sem_post =>
      obtain ⟨rfl, rfl⟩ := Prod.mk.inj (Option.some.inj h)
      exact .sem_post
    | unlockPush =>
      obtain ⟨rfl, rfl⟩ := Prod.mk.inj (Option.some.inj h)
      exact .unlockPush
    | vscp_sem_wait =>
      simp only [move] at h
      split at h
      · cases h
      · rename_i n hn
        obtain ⟨rfl, rfl⟩ := Prod.mk.inj (Option.some.inj h)
        exact .vscp_sem_wait hn
    | lockPop =>
      simp only [move] at h
      split at h
      · cases h
      · obtain ⟨rfl, rfl⟩ := Prod.mk.inj (Option.some.inj h)
        exact .lockPop
    | front =>
      simp only [move] at h
      split at h
      · rename_i hl
        obtain ⟨rfl, rfl⟩ := Prod.mk.inj (Option.some.inj h)
        exact .frontEmpty hl
      · rename_i p l hl
        obtain ⟨rfl, rfl⟩ := Prod.mk.inj (Option.some.inj h)
        exact .front hl
    | pop_front p =>
      simp only [move] at h
      split at h
      · rename_i hl
        obtain ⟨rfl, rfl⟩ := Prod.mk.inj (Option.some.inj h)
        exact .popEmpty hl
      · rename_i x l hl
        obtain ⟨rfl, rfl⟩ := Prod.mk.inj (Option.some.inj h)
        exact .pop_front hl
    | unlockPop p =>
      obtain ⟨rfl, rfl⟩ := Prod.mk.inj (Option.some.inj h)
      cases p with
      | none => exact .null
      | some ev => exact .event
    | pushed ret => cases h
    | read ret pEvent => cases h
    | undefined => cases h

/-! ## Who reads what -/

/-- What a call of `VSCPRead` has popped. -/
def Call.got : Call → List (Option vscpEvent)
  | .unlockPop pLocalEvent => [pLocalEvent]
  | .read .CANAL_ERROR_SUCCESS pEvent => [pEvent]
  | .read .CANAL_ERROR_MEMORY pEvent => [pEvent]
  | _ => []

/-- A step either pops for its call, or nothing. -/
theorem got_did {q q' : Queue} {c c' : Call} (h : Did E m_vscpfilter q c q' c')
    (htop : ∀ p, c = .pop_front p → q.m_receiveList.head? = some p) :
    ∃ p, c'.got = c.got ++ p ∧ q'.popped = q.popped ++ p := by
  cases h with
  | @pop_front p x l hl =>
    -- the event that is on top
    have htop := htop p rfl
    rw [hl] at htop
    obtain rfl := Option.some.inj htop
    exact ⟨[x], rfl, rfl⟩
  | @fails errno => cases errno <;> exact ⟨[], rfl, (List.append_nil _).symm⟩
  | _ => exact ⟨[], rfl, (List.append_nil _).symm⟩

theorem got_move {q q' : Queue} {l r : List Call} {t t' : Call} {a : Choice} (hi : Inv ⟨q, l ++ t :: r⟩)
    (h : ((l ++ t :: r).flatMap Call.got).Perm q.popped) (hm : move E m_vscpfilter a q t = some (q', t')) :
    ((l ++ t' :: r).flatMap Call.got).Perm q'.popped := by
  obtain ⟨p, hgot, hpop⟩ := got_did (move_did hm) fun p ht =>
    hi.top p (ht ▸ List.mem_append_right l List.mem_cons_self)
  simp only [List.flatMap_append, List.flatMap_cons] at h ⊢
  rw [hgot, hpop]
  refine List.Perm.trans ?_ (h.append_right p)
  rw [List.append_assoc, List.append_assoc, List.append_assoc]
  exact (List.perm_append_comm.append_left _).append_left _

/-- Each event that was popped is with one call. -/
theorem got_perm {s : State Queue Call} (h : (calls E m_vscpfilter).Reachable init s) :
    (s.threads.flatMap Call.got).Perm s.shared.popped := by
  refine (h.invariant (I := fun s => Inv s ∧ (s.threads.flatMap Call.got).Perm s.shared.popped) ?_ ?_ ?_ ?_).2
  · exact ⟨inv_reachable E m_vscpfilter .init, .refl _⟩
  · rintro x l b ⟨hi, hp⟩
    refine ⟨inv_start E m_vscpfilter b hi, ?_⟩
    rw [List.flatMap_append]
    cases b with
    | eventExToReceiveQueue ex => exact (List.append_nil (l.flatMap Call.got)).symm ▸ hp
    | VSCPRead => exact (List.append_nil (l.flatMap Call.got)).symm ▸ hp
  · rintro x l t r a x' t' ⟨hi, hp⟩ hm
    exact ⟨inv_move E m_vscpfilter hi hm, got_move hi hp hm⟩
  · exact fun _ _ e => nomatch e

end VscpAutomation.ReceiveQueue

namespace VscpAutomation.Object

open Interleave CAutomation

/-! ## The worker's call -/

section
variable {K : Type} (E : Env K) (m_vscpfilter : vscpEventFilter)

/-- The call is one of `VSCPRead`. -/
def isReader : ReceiveQueue.Call → Bool
  | .vscp_sem_wait => true
  | .lockPop => true
  | .front => true
  | .pop_front _ => true
  | .unlockPop _ => true
  | .read _ _ => true
  | .undefined => true
  | _ => false

/-- What a call of `eventExToReceiveQueue` is still to push. -/
def inHand : ReceiveQueue.Call → List vscpEvent
  | .convert ex => (accepted E m_vscpfilter ex).toList
  | .lockPush pev => [pev]
  | .push_back pev => [pev]
  | _ => []

variable {E m_vscpfilter}

theorem inHand_reader {c : ReceiveQueue.Call} (h : isReader c = true) : inHand E m_vscpfilter c = [] := by
  cases c <;> first | rfl | cases h

/-- A call stays what it is, and what it pushes it had in hand. -/
theorem inHand_did {q q' : ReceiveQueue.Queue} {c c' : ReceiveQueue.Call}
    (h : ReceiveQueue.Did E m_vscpfilter q c q' c') :
    isReader c' = isReader c ∧
      q'.pushed ++ (inHand E m_vscpfilter c').map some = q.pushed ++ (inHand E m_vscpfilter c).map some := by
  cases h with
  | rejects h => exact ⟨rfl, by simp [inHand, h]⟩
  | accepts h => exact ⟨rfl, by simp [inHand, h]⟩
  | push_back => exact ⟨rfl, List.append_nil _⟩
  | _ => exact ⟨rfl, rfl⟩

end

/-! ## The calls of doWork, one after the other -/

section
variable {K : Type} (E : Env K)

/-- What the queue accepts in a run of `doWork` calls. -/
def acceptedIn (m_vscpfilter : vscpEventFilter) (log : List (Entry K)) : List vscpEvent :=
  (log.filterMap Entry.event).filterMap (accepted E m_vscpfilter)

theorem acceptedIn_append (m_vscpfilter : vscpEventFilter) (l l' : List (Entry K)) :
    acceptedIn E m_vscpfilter (l ++ l') = acceptedIn E m_vscpfilter l ++ acceptedIn E m_vscpfilter l' := by
  unfold acceptedIn
  rw [List.filterMap_append, List.filterMap_append]

variable [Field K] [LinearOrder K] [FloorRing K]

theorem acceptedIn_doWork (m_vscpfilter : vscpEventFilter) (c : Clock) (s : CAutomation K) :
    acceptedIn E m_vscpfilter (s.doWork E c).log = ((s.prepare E c).2.bind (accepted E m_vscpfilter)).toList := by
  unfold acceptedIn
  rw [(doWork_eq_prepare E c s).2]
  cases (s.prepare E c).2 with
  | none => rfl
  | some ex =>
    rw [Option.toList_some, Option.bind_some]
    cases h : accepted E m_vscpfilter ex with
    | none => rw [List.filterMap_cons_none h]; rfl
    | some pev => rw [List.filterMap_cons_some h]; rfl

theorem doWork_m_vscpfilter (c : Clock) (s : CAutomation K) :
    (s.doWork E c).state.m_vscpfilter = s.m_vscpfilter := by
  rw [(doWork_eq_prepare E c s).1]
  exact prepare_m_vscpfilter c s

/-- With nobody reading, the queue holds all it has accepted. -/
theorem run_m_receiveList (s : CAutomation K) (cs : List Clock) :
    let r := Runs.run (workStep E) s cs
    r.1.m_receiveList = s.m_receiveList ++ acceptedIn E s.m_vscpfilter r.2 ∧ r.1.m_vscpfilter = s.m_vscpfilter := by
  refine Runs.run_induction (workStep E) (P := fun _ s' log =>
    s'.m_receiveList = s.m_receiveList ++ acceptedIn E s.m_vscpfilter log ∧ s'.m_vscpfilter = s.m_vscpfilter)
    ?_ ?_ cs
  · exact ⟨(List.append_nil _).symm, rfl⟩
  · rintro is c s' log - ⟨hl, hf⟩
    refine ⟨?_, (doWork_m_vscpfilter E c s').trans hf⟩
    dsimp only [workStep]
    rw [acceptedIn_append, acceptedIn_doWork, ← List.append_assoc, ← hl, ← hf, (doWork_eq_prepare E c s').1]
    rfl

/-! ## The worker among its clients -/

variable {E} {vscp_isSameGUID : cguid → cguid → Bool} {s₀ : CAutomation K} {s : State (Shared K) Call}

/-- The worker's schedule is that of its `doWork` calls, one after the other,
and what it has pushed and has in hand is what these handed over. -/
structure Follows (E : Env K) (s₀ : CAutomation K) (s : State (Shared K) Call) : Prop where
  schedule : s.shared.automation =
    (Runs.run (workStep E) s₀ s.shared.readings).1.setQueue s₀.m_receiveList s₀.m_semReceiveQueue
  handed : s.shared.receive.pushed ++ (s.shared.doing.call.flatMap (inHand E s₀.m_vscpfilter)).map some =
    (acceptedIn E s₀.m_vscpfilter (Runs.run (workStep E) s₀ s.shared.readings).2).map some
  readers : ∀ c ∈ reads s.threads, isReader c = true
  pusher : ∀ c ∈ s.shared.doing.call, isReader c = false

theorem Follows.beginWork {x : Shared K} {l : List Call} (now : Clock) (h : Follows E s₀ ⟨x, l⟩)
    (hd : x.doing = .begins) : Follows E s₀ ⟨beginWork E now x, l⟩ := by
  obtain ⟨h1, h2, h3, h4⟩ := h
  dsimp only at h1 h2 h3
  rw [hd] at h2
  have hp := prepare_setQueue E now (Runs.run (workStep E) s₀ x.readings).1 s₀.m_receiveList s₀.m_semReceiveQueue
  rw [← h1] at hp
  refine ⟨?_, ?_, h3, ?_⟩
  · unfold Object.beginWork
    dsimp only
    rw [Runs.run_concat, hp]
    dsimp only [workStep]
    rw [(doWork_eq_prepare E now _).1]
    rfl
  · unfold Object.beginWork
    dsimp only
    rw [Runs.run_concat, acceptedIn_append, List.map_append, ← h2]
    dsimp only [workStep]
    rw [acceptedIn_doWork, hp]
    cases ((Runs.run (workStep E) s₀ x.readings).1.prepare E now).2 with
    | none => simp [Doing.call]
    | some ex => simp [Doing.call, inHand]
  · unfold Object.beginWork
    dsimp only
    intro c hc
    cases hx : (x.automation.prepare E now).2 with
    | none => rw [hx] at hc; cases hc
    | some ex =>
      rw [hx] at hc
      obtain rfl := List.mem_singleton.1 hc
      rfl

theorem Follows.m_vscpfilter (h : Follows E s₀ s) : s.shared.automation.m_vscpfilter = s₀.m_vscpfilter := by
  rw [h.schedule]
  exact (run_m_receiveList E s₀ s.shared.readings).2

theorem follows (h : (object E vscp_isSameGUID).Reachable (init s₀) s) : Follows E s₀ s := by
  refine h.invariant ?_ ?_ ?_ ?_
  · exact ⟨rfl, rfl, by simp [init, reads], by simp [init, Doing.call]⟩
  · rintro x l b ⟨h1, h2, h3, h4⟩
    refine ⟨h1, h2, ?_, h4⟩
    intro c hc
    rw [reads_append] at hc
    rcases List.mem_append.1 hc with hc | hc
    · exact h3 c hc
    · cases b with
      | VSCPWrite pEvent => cases hc
      | VSCPRead =>
        obtain rfl := List.mem_singleton.1 hc
        rfl
  · intro x l t r a x' t' hi hm
    have hf := hi.m_vscpfilter
    obtain ⟨h1, h2, h3, h4⟩ := hi
    rcases move_cases hm with ⟨c, c', q, rfl, rfl, rfl, hq⟩ | ⟨c, c', q, rfl, rfl, rfl, hq⟩
    · -- a reader pushes nothing
      obtain ⟨hr, hpush⟩ := inHand_did (ReceiveQueue.move_did hq)
      simp only [reads_append, reads_read] at h3
      have hc : isReader c = true := h3 c (List.mem_append_right _ List.mem_cons_self)
      rw [inHand_reader hc, inHand_reader (hr.trans hc), List.map_nil, List.append_nil, List.append_nil] at hpush
      refine ⟨h1, ?_, ?_, h4⟩
      · dsimp only at h2 ⊢
        rw [hpush]
        exact h2
      · intro d hd
        simp only [reads_append, reads_read] at hd
        rcases mem_swap (t := c) hd with rfl | hd
        · exact hr.trans hc
        · exact h3 d hd
    · exact ⟨h1, h2, by simpa using h3, h4⟩
  · intro x l e x' hi he
    have hf := hi.m_vscpfilter
    cases workerThread_did he with
    | doWork now _ hd => exact hi.beginWork now hd
    | @eventExToReceiveQueue c c' q hd hm =>
      obtain ⟨h1, h2, h3, h4⟩ := hi
      dsimp only at hf h2 h4
      rw [hf] at hm
      rw [hd] at h2 h4
      obtain ⟨hr, hpush⟩ := inHand_did (ReceiveQueue.move_did hm)
      refine ⟨h1, ?_, h3, ?_⟩
      · dsimp only
        rw [← h2]
        simpa [Doing.call] using hpush
      · intro d hd'
        obtain rfl := List.mem_singleton.1 hd'
        exact hr.trans (h4 c (List.mem_singleton_self c))
    | returns _ hd _ =>
      obtain ⟨h1, h2, h3, h4⟩ := hi
      refine ⟨h1, ?_, h3, by simp [Doing.call]⟩
      dsimp only at h2 ⊢
      rw [← h2]
      -- a call that has returned has nothing in hand
      cases hx : x.doing with
      | begins => rfl
      | ends => rfl
      | handing c =>
        rw [hx] at hd
        cases c with
        | pushed ret => rfl
        | _ => cases hd
    | handle => exact ⟨hi.schedule, hi.handed, hi.readers, hi.pusher⟩
    | send => exact ⟨hi.schedule, hi.handed, hi.readers, hi.pusher⟩

/-- What was popped, the queue and the event in the worker's hands are together,
in order, what the `doWork` calls handed over. -/
theorem received (h : (object E vscp_isSameGUID).Reachable (init s₀) s) :
    s.shared.receive.popped ++ s.shared.receive.m_receiveList ++
        (s.shared.doing.call.flatMap (inHand E s₀.m_vscpfilter)).map some =
      (acceptedIn E s₀.m_vscpfilter (Runs.run (workStep E) s₀ s.shared.readings).2).map some := by
  obtain ⟨-, done, -, q, hq, hshared, -⟩ := receive_follows h
  have hfifo := (ReceiveQueue.inv_reachable E _ hq).fifo
  rw [hshared] at hfifo
  rw [hfifo]
  exact (follows h).handed

/-- What the readers have popped, the queue and the event in the worker's hands
are together, in order, what the queue would hold had the same `doWork` calls
run alone and nobody read; the rest of the object is as these calls leave it. -/
theorem clients_receive (start : Clock) (path : String) (guid : cguid) (content : String)
    (h : (object E vscp_isSameGUID).Reachable (init (opened E start path guid content)) s) :
    let alone := (Runs.run (workStep E) (opened E start path guid content) s.shared.readings).1
    let inHands := s.shared.doing.call.flatMap (inHand E alone.m_vscpfilter)
    s.shared.receive.popped ++ s.shared.receive.m_receiveList ++ inHands.map some = alone.m_receiveList.map some ∧
      s.shared.automation = alone.setQueue [] 0 := by
  obtain ⟨hl, hn⟩ := opened_queue (E := E) start path guid content
  obtain ⟨hlist, hfilter⟩ := run_m_receiveList E (opened E start path guid content) s.shared.readings
  have hreceived := received h
  intro alone inHands
  constructor
  · rw [hlist, hl, List.nil_append, ← hreceived, ← hfilter]
  · have hschedule := (follows h).schedule
    rw [hl, hn] at hschedule
    exact hschedule

/-- A call of the worker reads nothing. -/
theorem got_eq_nil {c : ReceiveQueue.Call} (h : isReader c = false) : c.got = [] := by
  cases c <;> first | rfl | cases h

/-- Each event popped is with one call of `VSCPRead`, on its way or returned;
none of them gets a NULL pointer, finds an empty queue, or returns
CANAL_ERROR_MEMORY or a success without an event. -/
theorem read_once (h : (object E vscp_isSameGUID).Reachable (init s₀) s) :
    ((reads s.threads).flatMap ReceiveQueue.Call.got).Perm s.shared.receive.popped ∧
      .undefined ∉ reads s.threads ∧ .read .CANAL_ERROR_MEMORY none ∉ reads s.threads ∧
      .read .CANAL_ERROR_SUCCESS none ∉ reads s.threads := by
  obtain ⟨-, done, hdone, q, hq, hshared, hthreads⟩ := receive_follows h
  have hi := ReceiveQueue.inv_reachable E _ hq
  have hperm := ReceiveQueue.got_perm hq
  have hworker : (s.shared.doing.call ++ done).flatMap ReceiveQueue.Call.got = [] := by
    rw [List.flatMap_eq_nil_iff]
    intro c hc
    rcases List.mem_append.1 hc with hc | hc
    · exact got_eq_nil ((follows h).pusher c hc)
    · obtain ⟨ret, rfl⟩ := hdone c hc
      rfl
  have hgot : ((reads s.threads).flatMap ReceiveQueue.Call.got).Perm s.shared.receive.popped := by
    have := (hthreads.flatMap_right ReceiveQueue.Call.got).symm.trans hperm
    rwa [List.flatMap_append, hworker, List.append_nil, hshared] at this
  have hnull {c : ReceiveQueue.Call} (hc : c ∈ reads s.threads) : none ∉ c.got := by
    intro hn
    have hpop : none ∈ q.shared.popped := by
      rw [hshared]
      exact hgot.mem_iff.1 (List.mem_flatMap.2 ⟨c, hc, hn⟩)
    refine hi.notNull none ?_ rfl
    rw [← hi.fifo]
    exact List.mem_append_left _ hpop
  refine ⟨hgot, ?_, ?_, ?_⟩
  · intro hu
    exact hi.defined (hthreads.mem_iff.2 (List.mem_append_left _ hu))
  · intro hm
    exact hnull hm (List.mem_singleton_self none)
  · intro hm
    exact hnull hm (List.mem_singleton_self none)

end

/-! ## Midnight, and one reader -/

/-- The worker recalculates at midnight; a reader that waits is given the event. -/
def midnight : List (Event Start ReceiveQueue.Choice Step) :=
  [.start .VSCPRead, .env (.send .work), .env (.doWork (march 21 0 0 (by decide)))] ++
    List.replicate 5 (.env .eventExToReceiveQueue) ++ List.replicate 5 (.move 0 .go)

theorem clients_receive_midnight :
    let E := rationalEnv fun _ => .error .parse_error
    let s₀ := opened E (march 20 12 0 (by decide)) "" (.replicate 16 0) ""
    ∃ s, (object E (· == ·)).run (init s₀) midnight = some s ∧ s.shared.receive.popped.length = 1 ∧
      let alone := (Runs.run (workStep E) s₀ s.shared.readings).1
      let inHands := s.shared.doing.call.flatMap (inHand E alone.m_vscpfilter)
      s.shared.receive.popped ++ s.shared.receive.m_receiveList ++ inHands.map some =
          alone.m_receiveList.map some ∧
        s.shared.automation = alone.setQueue [] 0 := by
  intro E s₀
  have hr (s) (h : (object E (· == ·)).run (init s₀) midnight = some s) :=
    clients_receive _ _ _ _ (System.run_reachable midnight .init h)
  exact ⟨_, rfl, rfl, hr _ rfl⟩

theorem read_once_midnight :
    let E := rationalEnv fun _ => .error .parse_error
    let s₀ := opened E (march 20 12 0 (by decide)) "" (.replicate 16 0) ""
    ∃ s, (object E (· == ·)).run (init s₀) midnight = some s ∧ s.shared.receive.popped.length = 1 ∧
      ((reads s.threads).flatMap ReceiveQueue.Call.got).Perm s.shared.receive.popped ∧
      .undefined ∉ reads s.threads ∧ .read .CANAL_ERROR_MEMORY none ∉ reads s.threads ∧
      .read .CANAL_ERROR_SUCCESS none ∉ reads s.threads := by
  intro E s₀
  have hr (s) (h : (object E (· == ·)).run (init s₀) midnight = some s) :=
    read_once (System.run_reachable midnight .init h)
  exact ⟨_, rfl, rfl, hr _ rfl⟩

end VscpAutomation.Object
