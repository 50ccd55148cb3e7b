import VscpAutomation.Commands
/-!
# Nobody waits for ever

No thread holds two mutexes, and whoever holds one can go on until it is
released. So the calls and the worker only come to rest with nothing left to do
(`comes_to_rest`), and the worker of an object that is closed ends, whatever
else is going on (`worker_ends`).
-/

namespace VscpAutomation.SendQueue

open Interleave

/-! ## The mutex -/

/-- The thread holds the mutex. -/
def Call.holds : Call → ℕ
  | .push_back _ => 1
  | .sem_post => 1
  | .unlock => 1
  | _ => 0

def Worker.holds : Worker → ℕ
  | .front _ => 1
  | .pop_front _ _ => 1
  | .unlock _ => 1
  | _ => 0

/-- The mutex is held by one thread, if by any. -/
def Held (s : State Queue Call) : Prop :=
  total Call.holds s.threads + s.shared.worker.holds = if s.shared.m_mutexSendQueue then 1 else 0

theorem held_move {q q' : Queue} {l r : List Call} {c c' : Call} (h : Held ⟨q, l ++ c :: r⟩)
    (hm : move q c = some (q', c')) : Held ⟨q', l ++ c' :: r⟩ := by
  unfold Held at h ⊢
  simp only [total_append, total_cons] at h ⊢
  cases c with
  | lock p =>
    simp only [move] at hm
    split at hm
    · cases hm
    · rename_i hu
      obtain ⟨rfl, rfl⟩ := Prod.mk.inj (Option.some.inj hm)
      simp only [Call.holds, hu] at h ⊢
      simp only [Bool.false_eq_true, if_false, if_true] at h ⊢
      omega
  | push_back p =>
    obtain ⟨rfl, rfl⟩ := Prod.mk.inj (Option.some.inj hm)
    exact h
  | sem_post =>
    obtain ⟨rfl, rfl⟩ := Prod.mk.inj (Option.some.inj hm)
    exact h
  | unlock =>
    obtain ⟨rfl, rfl⟩ := Prod.mk.inj (Option.some.inj hm)
    simp only [Call.holds, Bool.false_eq_true, if_false] at h ⊢
    split at h <;> omega
  | returned => cases hm

theorem held_worker {q q' : Queue} {l : List Call} {e : Step} (h : Held ⟨q, l⟩) (hd : Did q e q') :
    Held ⟨q', l⟩ := by
  unfold Held at h ⊢
  dsimp only at h ⊢
  cases hd with
  | close => exact h
  | fails hw =>
    rw [hw] at h
    exact h
  | while_ hw =>
    rw [hw] at h
    cases q.m_bQuit <;> exact h
  | size hw =>
    rw [hw] at h
    dsimp only
    split <;> exact h
  | lock hw hu =>
    rw [hw, hu] at h
    dsimp only [Worker.holds] at h ⊢
    simpa using h
  | @unlock p hw =>
    rw [hw] at h
    have hzero : total Call.holds l = 0 := by
      simp only [Worker.holds] at h
      split at h <;> omega
    cases p <;> exact hzero
  | doWork hw | vscp_sem_wait hw | front hw | pop_front hw | handle hw =>
    rw [hw] at h
    exact h

theorem held_reachable {s : State Queue Call} (h : calls.Reachable init s) : Held s := by
  refine (h.invariant (I := fun s => Inv s ∧ Held s) ?_ ?_ ?_ ?_).2
  · exact ⟨inv_reachable .init, rfl⟩
  · rintro x l b ⟨hi, hh⟩
    refine ⟨inv_start b hi, ?_⟩
    unfold Held at hh ⊢
    simpa [calls, Call.holds] using hh
  · rintro x l t r a x' t' ⟨hi, hh⟩ hm
    exact ⟨inv_move hi hm, held_move hh hm⟩
  · rintro x l e x' ⟨hi, hh⟩ he
    exact ⟨inv_worker hi he, held_worker hh (workerThread_did hi he)⟩

theorem Held.perm {q : Queue} {l l' : List Call} (h : Held ⟨q, l⟩) (hp : l.Perm l') : Held ⟨q, l'⟩ := by
  unfold Held at h ⊢
  rwa [← total_perm Call.holds hp]

theorem Inv.perm {q : Queue} {l l' : List Call} (h : Inv ⟨q, l⟩) (hp : l.Perm l') : Inv ⟨q, l'⟩ := by
  refine ⟨?_, h.fifo, h.nonempty, h.top, h.defined⟩
  rw [← total_perm Call.unposted hp]
  exact h.tokens

/-- A call goes on, if it holds the mutex or nobody does. -/
theorem move_goes {q : Queue} {c : Call} (hm : q.m_mutexSendQueue = false ∨ 0 < c.holds) (hc : c ≠ .returned) :
    (move q c).isSome = true := by
  cases c with
  | lock pEvent =>
    have hu : q.m_mutexSendQueue = false := hm.resolve_right (lt_irrefl 0)
    rw [move, hu]
    rfl
  | returned => exact absurd rfl hc
  | _ => rfl

theorem worker_goes {q : Queue} (hm : q.m_mutexSendQueue = false ∨ 0 < q.worker.holds)
    (hw : q.worker ≠ .ended ∧ q.worker ≠ .undefined) (hs : q.worker = .vscp_sem_wait → q.m_semSendQueue ≠ 0) :
    (workerThread .work q).isSome = true := by
  cases hq : q.worker with
  | vscp_sem_wait =>
    obtain ⟨n, hn⟩ := Nat.exists_eq_succ_of_ne_zero (hs hq)
    simp only [workerThread, hq, hn]
    rfl
  | lock token =>
    rw [hq] at hm
    have hu : q.m_mutexSendQueue = false := hm.resolve_right (lt_irrefl 0)
    simp only [workerThread, hq, hu]
    rfl
  | front token =>
    simp only [workerThread, hq]
    cases q.m_sendList <;> rfl
  | pop_front token p =>
    simp only [workerThread, hq]
    cases q.m_sendList <;> rfl
  | ended => exact absurd hq hw.1
  | undefined => exact absurd hq hw.2
  | _ =>
    simp only [workerThread, hq]
    rfl

/-! ## What is left to do -/

/-- The steps that a call has left; to post an event gives the worker a round. -/
def Call.left : Call → ℕ
  | .lock _ => 19
  | .push_back _ => 18
  | .sem_post => 17
  | .unlock => 1
  | .returned => 0

/-- The worker's steps to the end of its loop, if it is to end there. Of
`doWork` only the last is counted. -/
def Worker.toEnd : Worker → ℕ
  | .ended => 0
  | .undefined => 0
  | .while_ => 1
  | .handle _ => 2
  | .unlock _ => 3
  | .pop_front _ _ => 4
  | .front _ => 5
  | .lock _ => 6
  | .size _ => 7
  | .vscp_sem_wait => 8
  | .doWork => 15

/-- The worker's steps to its next wait. -/
def Worker.toWait : Worker → ℕ
  | .ended => 0
  | .undefined => 0
  | .vscp_sem_wait => 0
  | .doWork => 7
  | w => w.toEnd + 7

theorem move_left {q q' : Queue} {c c' : Call} (h : move q c = some (q', c')) :
    c'.left + 15 * q'.m_semSendQueue < c.left + 15 * q.m_semSendQueue := by
  cases c with
  | lock pEvent =>
    simp only [move] at h
    split at h
    · cases h
    · obtain ⟨rfl, rfl⟩ := Prod.mk.inj (Option.some.inj h)
      simp only [Call.left]
      omega
  | returned => cases h
  | _ =>
    obtain ⟨rfl, rfl⟩ := Prod.mk.inj (Option.some.inj h)
    simp only [Call.left]
    omega

theorem toWait_did {q q' : Queue} (h : Did q .work q') (hw : q.worker ≠ .doWork) :
    q'.worker.toWait + 15 * q'.m_semSendQueue < q.worker.toWait + 15 * q.m_semSendQueue := by
  cases h with
  | doWork hw' => exact absurd hw' hw
  | vscp_sem_wait hw' hn =>
    rw [hw', hn]
    simp only [Worker.toWait, Worker.toEnd]
    omega
  | while_ hw' =>
    rw [hw']
    cases q.m_bQuit <;> simp [Worker.toWait, Worker.toEnd]
  | size hw' =>
    rw [hw']
    dsimp only
    split <;> simp [Worker.toWait, Worker.toEnd]
  | @unlock p hw' =>
    rw [hw']
    cases p <;> simp [Worker.toWait, Worker.toEnd]
  | lock hw' | front hw' | pop_front hw' | handle hw' =>
    rw [hw']
    simp [Worker.toWait, Worker.toEnd]

/-- The worker may still delete an event in this round. -/
def Worker.toDelete : Worker → ℕ
  | .while_ => 0
  | .ended => 0
  | .undefined => 0
  | _ => 1

theorem Worker.toDelete_le (w : Worker) : w.toDelete ≤ 1 := by
  cases w <;> simp [Worker.toDelete]

/-- Once it is asked to stop, the worker does not begin another round. -/
theorem toEnd_did {q q' : Queue} {e : Step} (h : Did q e q') (hq : q.m_bQuit = true) (he : e ≠ .close)
    (hw : q.worker ≠ .doWork) :
    q'.m_bQuit = true ∧ q'.worker ≠ .doWork ∧ q'.worker.toDelete ≤ q.worker.toDelete ∧
      q'.worker.toEnd < q.worker.toEnd := by
  cases h with
  | close => exact absurd rfl he
  | fails hw' =>
    rw [hw']
    exact ⟨by rw [hq]; rfl, by simp, le_rfl, by simp [Worker.toEnd]⟩
  | doWork hw' => exact absurd hw' hw
  | while_ hw' =>
    rw [hw', hq]
    exact ⟨rfl, by simp, le_rfl, by simp [Worker.toEnd]⟩
  | @size token hw' =>
    rw [hw']
    dsimp only
    split
    · exact ⟨hq, by simp, le_rfl, by simp [Worker.toEnd]⟩
    · exact ⟨hq, by simp, Nat.zero_le _, by simp [Worker.toEnd]⟩
  | @unlock p hw' =>
    rw [hw']
    cases p with
    | none => exact ⟨hq, by simp, Nat.zero_le _, by simp [Worker.toEnd]⟩
    | some ev => exact ⟨hq, by simp, le_rfl, by simp [Worker.toEnd]⟩
  | handle hw' =>
    rw [hw']
    exact ⟨hq, by simp, Nat.zero_le _, by simp [Worker.toEnd]⟩
  | vscp_sem_wait hw' | lock hw' | front hw' | pop_front hw' =>
    rw [hw']
    exact ⟨hq, by simp, le_rfl, by simp [Worker.toEnd]⟩

/-- The worker posts nothing. -/
theorem worker_sem {q q' : Queue} {e : Step} (h : Did q e q') : q'.m_semSendQueue ≤ q.m_semSendQueue := by
  cases h with
  | vscp_sem_wait _ hn =>
    rw [hn]
    exact Nat.le_succ _
  | _ => exact le_rfl

end VscpAutomation.SendQueue

namespace VscpAutomation.ReceiveQueue

open Interleave

theorem Inv.perm {q : Queue} {l l' : List Call} (h : Inv ⟨q, l⟩) (hp : l.Perm l') : Inv ⟨q, l'⟩ := by
  refine ⟨?_, ?_, h.fifo, h.notNull, ?_, ?_⟩
  · rw [← total_perm Call.holds hp]
    exact h.mutex
  · rw [← total_perm Call.unposted hp, ← total_perm Call.claimed hp]
    exact h.count
  · intro p hm
    exact h.top p (hp.mem_iff.2 hm)
  · intro hu
    exact h.defined (hp.mem_iff.2 hu)

/-- The steps that a call has left at most. -/
def Call.left : Call → ℕ
  | .convert _ => 5
  | .lockPush _ => 4
  | .push_back _ => 3
  | .sem_post => 2
  | .unlockPush => 1
  | .pushed _ => 0
  | .vscp_sem_wait => 5
  | .lockPop => 4
  | .front => 3
  | .pop_front _ => 2
  | .unlockPop _ => 1
  | .read _ _ => 0
  | .undefined => 0

variable {K : Type} {E : Env K} {m_vscpfilter : vscpEventFilter}

theorem left_did {q q' : Queue} {c c' : Call} (h : Did E m_vscpfilter q c q' c') : c'.left < c.left := by
  cases h <;> simp [Call.left]

theorem left_of_holds {c : Call} (h : 0 < c.holds) : 0 < c.left := by
  cases c <;> first | exact Nat.succ_pos _ | exact h

/-- A call goes on, if it holds the mutex or nobody does, and does not wait. -/
theorem move_goes {q : Queue} {c : Call} (hm : q.m_mutexReceiveQueue = false ∨ 0 < c.holds) (hc : 0 < c.left)
    (hs : c = .vscp_sem_wait → q.m_semReceiveQueue ≠ 0) : (move E m_vscpfilter .go q c).isSome = true := by
  cases c with
  | convert ex =>
    simp only [move]
    split
    · rfl
    · split <;> rfl
  | lockPush pev =>
    have hu : q.m_mutexReceiveQueue = false := hm.resolve_right (lt_irrefl 0)
    rw [move, hu]
    rfl
  | lockPop =>
    have hu : q.m_mutexReceiveQueue = false := hm.resolve_right (lt_irrefl 0)
    rw [move, hu]
    rfl
  | vscp_sem_wait =>
    obtain ⟨n, hn⟩ := Nat.exists_eq_succ_of_ne_zero (hs rfl)
    simp only [move, hn]
    rfl
  | front =>
    simp only [move]
    cases q.m_receiveList <;> rfl
  | pop_front p =>
    simp only [move]
    cases q.m_receiveList <;> rfl
  | pushed ret => exact absurd hc (lt_irrefl 0)
  | read ret pEvent => exact absurd hc (lt_irrefl 0)
  | undefined => exact absurd hc (lt_irrefl 0)
  | _ => rfl

end VscpAutomation.ReceiveQueue

namespace VscpAutomation.Object

open Interleave CAutomation

/-! ## At rest -/

def Call.returned : Call → Bool
  | .VSCPWrite .returned => true
  | .VSCPRead (.read _ _) => true
  | _ => false

/-- A call or the worker goes ahead: no new call, no wait that fails and no
close. -/
def goesOn : Event Start ReceiveQueue.Choice Step → Bool
  | .move _ .go => true
  | .env (.doWork _) => true
  | .env .eventExToReceiveQueue => true
  | .env (.send .work) => true
  | _ => false

/-- Every call has returned or waits at an empty queue, and the worker has ended
or waits with all events that were written deleted. -/
structure AtRest {K : Type} (s : State (Shared K) Call) : Prop where
  calls : ∀ t ∈ s.threads, t.returned = true ∨ t = .VSCPRead .vscp_sem_wait
  readers : .VSCPRead .vscp_sem_wait ∈ s.threads → s.shared.receive.m_receiveList = []
  worker : s.shared.send.worker = .ended ∨
    s.shared.send.worker = .vscp_sem_wait ∧ s.shared.deleted = s.shared.send.written.reduceOption

/-! ## What is left to do -/

/-- The steps a call has left; see `SendQueue.Call.left`. -/
def Call.left : Call → ℕ
  | .VSCPWrite c => c.left
  | .VSCPRead c => c.left

/-- The worker's steps to the end of `doWork`. -/
def Doing.left : Doing → ℕ
  | .begins => 6
  | .handing c => c.left
  | .ends => 0

/-- A bound on the steps until all is at rest. -/
def toRest {K : Type} (s : State (Shared K) Call) : ℕ :=
  total Call.left s.threads +
    (s.shared.send.worker.toWait + s.shared.doing.left + 15 * s.shared.send.m_semSendQueue)

/-- A bound on the worker's own steps once it is asked to stop. -/
def toEnd {K : Type} (x : Shared K) : ℕ := x.send.worker.toEnd + x.doing.left

theorem returned_left {d : Doing} (h : d.returned = true) : d.left = 0 := by
  cases d with
  | begins => cases h
  | ends => rfl
  | handing c =>
    cases c with
    | pushed ret => rfl
    | _ => cases h

/-- The worker may still begin `doWork` in this round. -/
def toBegin {K : Type} (x : Shared K) : ℕ :=
  match x.send.worker, x.doing with
  | .doWork, .begins => 1
  | _, _ => 0

theorem toBegin_of_ne {K : Type} {x : Shared K} (h : x.send.worker ≠ .doWork ∨ x.doing ≠ .begins) :
    toBegin x = 0 := by
  unfold toBegin
  split
  · rename_i hw hd
    rcases h with h | h
    · exact absurd hw h
    · exact absurd hd h
  · rfl

theorem toBegin_le {K : Type} (x : Shared K) : toBegin x ≤ 1 := by
  unfold toBegin
  split
  · exact le_rfl
  · exact Nat.zero_le 1

theorem toEnd_le {K : Type} (x : Shared K) : toEnd x ≤ 21 := by
  have hworker : x.send.worker.toEnd ≤ 15 := by
    cases x.send.worker <;> simp [SendQueue.Worker.toEnd]
  have hdoing : x.doing.left ≤ 6 := by
    cases x.doing with
    | begins => exact le_rfl
    | ends => exact Nat.zero_le 6
    | handing c => cases c <;> simp [Doing.left, ReceiveQueue.Call.left]
  exact Nat.add_le_add hworker hdoing

/-- The step is the worker's own. -/
def ofWorker : Event Start ReceiveQueue.Choice Step → Bool
  | .env (.send .close) => false
  | .env _ => true
  | _ => false

section
variable {K : Type} {E : Env K} {a : ReceiveQueue.Choice} {x x' : Shared K} {t t' : Call}

/-- A call's move leaves the worker where it is. -/
theorem move_worker (h : move E a x t = some (x', t')) :
    x'.doing = x.doing ∧ x'.send.worker = x.send.worker ∧ x'.send.m_bQuit = x.send.m_bQuit ∧
      x'.readings = x.readings ∧ x'.deleted = x.deleted := by
  rcases move_cases h with ⟨c, c', q, rfl, rfl, rfl, -⟩ | ⟨c, c', q, rfl, rfl, rfl, hq⟩
  · exact ⟨rfl, rfl, rfl, rfl, rfl⟩
  · obtain ⟨hworker, -, hquit⟩ := SendQueue.move_worker hq
    exact ⟨rfl, hworker, hquit, rfl, rfl⟩

theorem move_left (h : move E a x t = some (x', t')) :
    t'.left + 15 * x'.send.m_semSendQueue < t.left + 15 * x.send.m_semSendQueue := by
  rcases move_cases h with ⟨c, c', q, rfl, rfl, rfl, hq⟩ | ⟨c, c', q, rfl, rfl, rfl, hq⟩
  · exact Nat.add_lt_add_right (ReceiveQueue.left_did (ReceiveQueue.move_did hq)) _
  · exact SendQueue.move_left hq

end

/-! ## Who goes on -/

section
variable {K : Type} {E : Env K} [Field K] [LinearOrder K] [FloorRing K] {vscp_isSameGUID : cguid → cguid → Bool}
  {s₀ : CAutomation K} {s : State (Shared K) Call}

theorem send_inv (h : (object E vscp_isSameGUID).Reachable (init s₀) s) :
    SendQueue.Inv ⟨s.shared.send, writes s.threads⟩ ∧ SendQueue.Held ⟨s.shared.send, writes s.threads⟩ := by
  obtain ⟨q, hq, hshared, hthreads⟩ := send_follows h
  obtain ⟨x, l⟩ := q
  dsimp only at hshared hthreads
  subst hshared
  exact ⟨(SendQueue.inv_reachable hq).perm hthreads, (SendQueue.held_reachable hq).perm hthreads⟩

/-- Calls of the worker that have returned hold nothing. -/
theorem receive_inv (h : (object E vscp_isSameGUID).Reachable (init s₀) s) :
    ∃ done, (∀ c ∈ done, ∃ ret, c = ReceiveQueue.Call.pushed ret) ∧
      ReceiveQueue.Inv ⟨s.shared.receive, reads s.threads ++ (s.shared.doing.call ++ done)⟩ := by
  obtain ⟨-, done, hdone, q, hq, hshared, hthreads⟩ := receive_follows h
  obtain ⟨x, l⟩ := q
  dsimp only at hshared hthreads
  subst hshared
  exact ⟨done, hdone, (ReceiveQueue.inv_reachable E s₀.m_vscpfilter hq).perm hthreads⟩

theorem mem_reads {c : ReceiveQueue.Call} {l : List Call} : c ∈ reads l ↔ .VSCPRead c ∈ l := by
  unfold reads
  rw [List.mem_filterMap]
  constructor
  · rintro ⟨t, ht, hc⟩
    cases t with
    | VSCPWrite c' => cases hc
    | VSCPRead c' =>
      obtain rfl := Option.some.inj hc
      exact ht
  · exact fun h => ⟨_, h, rfl⟩

theorem mem_writes {c : SendQueue.Call} {l : List Call} : c ∈ writes l ↔ .VSCPWrite c ∈ l := by
  unfold writes
  rw [List.mem_filterMap]
  constructor
  · rintro ⟨t, ht, hc⟩
    cases t with
    | VSCPRead c' => cases hc
    | VSCPWrite c' =>
      obtain rfl := Option.some.inj hc
      exact ht
  · exact fun h => ⟨_, h, rfl⟩

/-- Nobody can go on. -/
def Stuck (E : Env K) (vscp_isSameGUID : cguid → cguid → Bool) (s : State (Shared K) Call) : Prop :=
  ∀ e, goesOn e = true → (object E vscp_isSameGUID).step s e = none

theorem Stuck.move (h : Stuck E vscp_isSameGUID s) {t : Call} (ht : t ∈ s.threads) :
    Object.move E .go s.shared t = none := by
  obtain ⟨x, threads⟩ := s
  obtain ⟨l, r, rfl⟩ := List.append_of_mem ht
  have hstep := h (.move l.length .go) rfl
  cases hm : Object.move E .go x t with
  | none => rfl
  | some xt =>
    rw [System.step_of_move (P := object E vscp_isSameGUID) hm] at hstep
    cases hstep

theorem Stuck.read (h : Stuck E vscp_isSameGUID s) {c : ReceiveQueue.Call} (hc : c ∈ reads s.threads) :
    ReceiveQueue.move E s.shared.automation.m_vscpfilter .go s.shared.receive c = none :=
  Option.map_eq_none_iff.1 (h.move (mem_reads.1 hc))

theorem Stuck.write (h : Stuck E vscp_isSameGUID s) {c : SendQueue.Call} (hc : c ∈ writes s.threads) :
    SendQueue.move s.shared.send c = none :=
  Option.map_eq_none_iff.1 (h.move (mem_writes.1 hc))

theorem Stuck.env (h : Stuck E vscp_isSameGUID s) {e : Step} (he : goesOn (.env e) = true) :
    workerThread E vscp_isSameGUID e s.shared = none :=
  Option.map_eq_none_iff.1 (h (.env e) he)

theorem Stuck.handing (h : Stuck E vscp_isSameGUID s) {c : ReceiveQueue.Call} (hd : s.shared.doing = .handing c) :
    ReceiveQueue.move E s.shared.automation.m_vscpfilter .go s.shared.receive c = none := by
  have := h.env (e := .eventExToReceiveQueue) rfl
  simp only [workerThread, hd] at this
  exact Option.map_eq_none_iff.1 this

/-- Where nobody can go on, no mutex is held. -/
theorem Stuck.unlocked (h : Stuck E vscp_isSameGUID s) (hr : (object E vscp_isSameGUID).Reachable (init s₀) s) :
    s.shared.receive.m_mutexReceiveQueue = false ∧ s.shared.send.m_mutexSendQueue = false := by
  obtain ⟨done, hdone, hreceive⟩ := receive_inv hr
  obtain ⟨-, hheld⟩ := send_inv hr
  constructor
  · by_contra hm
    rw [Bool.not_eq_false] at hm
    have htotal := hreceive.mutex
    dsimp only at htotal
    rw [hm, if_pos rfl] at htotal
    obtain ⟨c, hc, hpos⟩ := exists_of_total_pos (htotal ▸ Nat.one_pos)
    -- whoever holds it can go on
    have hgoes : (ReceiveQueue.move E s.shared.automation.m_vscpfilter .go s.shared.receive c).isSome = true := by
      refine ReceiveQueue.move_goes (.inr hpos) (ReceiveQueue.left_of_holds hpos) ?_
      rintro rfl
      exact absurd hpos (lt_irrefl 0)
    rcases List.mem_append.1 hc with hc | hc
    · rw [h.read hc] at hgoes
      cases hgoes
    · rcases List.mem_append.1 hc with hc | hc
      · cases hd : s.shared.doing with
        | handing c' =>
          rw [hd] at hc
          obtain rfl := List.mem_singleton.1 hc
          rw [h.handing hd] at hgoes
          cases hgoes
        | begins => rw [hd] at hc; cases hc
        | ends => rw [hd] at hc; cases hc
      · obtain ⟨ret, rfl⟩ := hdone c hc
        exact absurd hpos (lt_irrefl 0)
  · by_contra hm
    rw [Bool.not_eq_false] at hm
    unfold SendQueue.Held at hheld
    dsimp only at hheld
    rw [hm, if_pos rfl] at hheld
    by_cases hw : 0 < s.shared.send.worker.holds
    · have hne {w : SendQueue.Worker} (h0 : w.holds = 0) : s.shared.send.worker ≠ w := by
        intro he
        rw [he, h0] at hw
        exact lt_irrefl 0 hw
      have hgoes := SendQueue.worker_goes (q := s.shared.send) (.inr hw) ⟨hne rfl, hne rfl⟩
        (fun he => absurd he (hne rfl))
      have henv := h.env (e := .send .work) rfl
      simp only [workerThread] at henv
      split at henv
      · rename_i he
        exact absurd he (hne rfl)
      · rename_i ev he
        exact absurd he (hne rfl)
      · rw [Option.map_eq_none_iff.1 henv] at hgoes
        cases hgoes
    · obtain ⟨c, hc, hpos⟩ := exists_of_total_pos (w := SendQueue.Call.holds) (l := writes s.threads) (by omega)
      have hgoes := SendQueue.move_goes (q := s.shared.send) (.inr hpos)
        (by rintro rfl; exact absurd hpos (lt_irrefl 0))
      rw [h.write hc] at hgoes
      cases hgoes

/-- Where nobody can go on, a call at the receive queue has returned or waits in
vain. -/
theorem Stuck.left (h : Stuck E vscp_isSameGUID s) (hr : (object E vscp_isSameGUID).Reachable (init s₀) s)
    {c : ReceiveQueue.Call}
    (hc : ReceiveQueue.move E s.shared.automation.m_vscpfilter .go s.shared.receive c = none) :
    c.left = 0 ∨ c = .vscp_sem_wait ∧ s.shared.receive.m_semReceiveQueue = 0 := by
  by_contra hn
  obtain ⟨hleft, hwait⟩ := not_or.1 hn
  have hgoes : (ReceiveQueue.move E s.shared.automation.m_vscpfilter .go s.shared.receive c).isSome = true := by
    refine ReceiveQueue.move_goes (.inl (h.unlocked hr).1) (Nat.pos_of_ne_zero hleft) ?_
    exact fun he hs => hwait ⟨he, hs⟩
  rw [hc] at hgoes
  cases hgoes

/-- Where nobody can go on, the call of the worker has returned. -/
theorem Stuck.doing (h : Stuck E vscp_isSameGUID s) (hr : (object E vscp_isSameGUID).Reachable (init s₀) s)
    {c : ReceiveQueue.Call} (hc : c ∈ s.shared.doing.call) : ∃ ret, c = .pushed ret := by
  have hpusher := (follows hr).pusher c hc
  cases hd : s.shared.doing with
  | begins => rw [hd] at hc; cases hc
  | ends => rw [hd] at hc; cases hc
  | handing c' =>
    rw [hd] at hc
    obtain rfl := List.mem_singleton.1 hc
    rcases h.left hr (h.handing hd) with hleft | ⟨rfl, -⟩
    · cases c with
      | pushed ret => exact ⟨ret, rfl⟩
      | read ret pEvent => cases hpusher
      | undefined => cases hpusher
      | _ => cases hleft
    · cases hpusher

/-- Where nobody can go on, the worker is not in `doWork`. -/
theorem Stuck.not_doWork (h : Stuck E vscp_isSameGUID s) (hr : (object E vscp_isSameGUID).Reachable (init s₀) s) :
    s.shared.send.worker ≠ .doWork := by
  intro hw
  have hreturns : s.shared.doing.returned = true → False := by
    intro hd
    have henv := h.env (e := .send .work) rfl
    simp only [workerThread, hw, hd, SendQueue.workerThread] at henv
    cases henv
  cases hd : s.shared.doing with
  | begins =>
    have henv := h.env (e := .doWork (march 1 0 0 (by decide))) rfl
    simp only [workerThread, hw, hd] at henv
    cases henv
  | ends => exact hreturns (by rw [hd]; rfl)
  | handing c =>
    obtain ⟨ret, rfl⟩ := h.doing hr (c := c) (by rw [hd]; exact List.mem_singleton_self c)
    exact hreturns (by rw [hd]; rfl)

theorem Stuck.atRest (h : Stuck E vscp_isSameGUID s) (hr : (object E vscp_isSameGUID).Reachable (init s₀) s) :
    AtRest s := by
  obtain ⟨done, hdone, hreceive⟩ := receive_inv hr
  obtain ⟨hsend, -⟩ := send_inv hr
  have hread {c : ReceiveQueue.Call} (hc : c ∈ reads s.threads) :
      (∃ ret pEvent, c = .read ret pEvent) ∨ c = .vscp_sem_wait ∧ s.shared.receive.m_semReceiveQueue = 0 := by
    have hreader := (follows hr).readers c hc
    refine (h.left hr (h.read hc)).imp_left fun hleft => ?_
    cases c with
    | read ret pEvent => exact ⟨ret, pEvent, rfl⟩
    | undefined => exact absurd (List.mem_append_left _ hc) hreceive.defined
    | pushed ret => cases hreader
    | _ => cases hleft
  have hwrite {c : SendQueue.Call} (hc : c ∈ writes s.threads) : c = .returned := by
    by_contra hn
    have hgoes := SendQueue.move_goes (q := s.shared.send) (.inl (h.unlocked hr).2) hn
    rw [h.write hc] at hgoes
    cases hgoes
  constructor
  · intro t ht
    cases t with
    | VSCPWrite c =>
      obtain rfl := hwrite (mem_writes.2 ht)
      exact .inl rfl
    | VSCPRead c =>
      rcases hread (mem_reads.2 ht) with ⟨ret, pEvent, rfl⟩ | ⟨rfl, -⟩
      · exact .inl rfl
      · exact .inr rfl
  · intro hw
    obtain ⟨ret, pEvent, hc⟩ | ⟨-, hsem⟩ := hread (mem_reads.2 hw)
    · cases hc
    · -- the list is as long as the semaphore's count, and nothing is under way
      have hquiet : ∀ c ∈ reads s.threads ++ (s.shared.doing.call ++ done), c.unposted = 0 ∧ c.claimed = 0 := by
        intro c hc
        rcases List.mem_append.1 hc with hc | hc
        · rcases hread hc with ⟨ret, pEvent, rfl⟩ | ⟨rfl, -⟩
          · exact ⟨rfl, rfl⟩
          · exact ⟨rfl, rfl⟩
        · rcases List.mem_append.1 hc with hc | hc
          · obtain ⟨ret, rfl⟩ := h.doing hr hc
            exact ⟨rfl, rfl⟩
          · obtain ⟨ret, rfl⟩ := hdone c hc
            exact ⟨rfl, rfl⟩
      have hcount := hreceive.count
      dsimp only at hcount
      rw [hsem, total_eq_zero fun c hc => (hquiet c hc).1, total_eq_zero fun c hc => (hquiet c hc).2] at hcount
      exact List.length_eq_zero_iff.1 hcount
  · by_cases he : s.shared.send.worker = .ended
    · exact .inl he
    · right
      have hn : SendQueue.workerThread .work s.shared.send = none := by
        have henv := h.env (e := .send .work) rfl
        simp only [workerThread] at henv
        split at henv
        · rename_i hw
          exact absurd hw (h.not_doWork hr)
        · exact Option.map_eq_none_iff.1 henv
        · exact Option.map_eq_none_iff.1 henv
      have hwait : s.shared.send.worker = .vscp_sem_wait ∧ s.shared.send.m_semSendQueue = 0 := by
        by_contra hw
        have hgoes := SendQueue.worker_goes (q := s.shared.send) (.inl (h.unlocked hr).2) ⟨he, hsend.defined⟩
          (fun hw' hs => hw ⟨hw', hs⟩)
        rw [hn] at hgoes
        cases hgoes
      have hlist : s.shared.send.m_sendList = [] := by
        have htokens := hsend.tokens
        dsimp only at htokens
        rw [hwait.1, hwait.2, total_eq_zero fun c hc => by rw [hwrite hc]; rfl] at htokens
        exact List.length_eq_zero_iff.1 (Nat.le_zero.1 htokens)
      refine ⟨hwait.1, ?_⟩
      have htaken := (handles hr).taken
      have hfifo := hsend.fifo
      dsimp only at hfifo
      rw [hwait.1] at htaken
      rw [hlist, List.append_nil] at hfifo
      calc s.shared.deleted = s.shared.deleted ++ SendQueue.Worker.hand .vscp_sem_wait := (List.append_nil _).symm
        _ = s.shared.send.taken.reduceOption := htaken
        _ = s.shared.send.written.reduceOption := by rw [hfifo]

/-! ## Coming to rest -/

theorem beginWork_left (now : Clock) (x : Shared K) : (beginWork E now x).doing.left < Doing.begins.left := by
  unfold beginWork
  dsimp only
  cases (x.automation.prepare E now).2 with
  | none => exact Nat.succ_pos _
  | some ex => exact Nat.lt_succ_self _

/-- Left to themselves, the calls and the worker have less to do after each
step. -/
theorem goesOn_left {s' : State (Shared K) Call} {e : Event Start ReceiveQueue.Choice Step}
    (hr : (object E vscp_isSameGUID).Reachable (init s₀) s) (hg : goesOn e = true)
    (h : (object E vscp_isSameGUID).step s e = some s') : toRest s' < toRest s := by
  have hi := (send_inv hr).1
  cases e with
  | start b => cases hg
  | move i a =>
    obtain ⟨l, t, r, x', t', hl, -, hm, rfl⟩ := System.step_move h
    obtain ⟨hdoing, hworker, -⟩ := move_worker hm
    have hleft := move_left hm
    unfold toRest
    rw [hl, total_append, total_append, total_cons, total_cons]
    dsimp only
    rw [hdoing, hworker]
    omega
  | env e =>
    obtain ⟨x', he, rfl⟩ := Option.map_eq_some_iff.1 h
    refine Nat.add_lt_add_left ?_ _
    cases workerThread_did he with
    | doWork now hw hd =>
      have hleft := beginWork_left (E := E) now s.shared
      have hsend : (beginWork E now s.shared).send = s.shared.send := rfl
      dsimp only
      rw [hd, hsend]
      omega
    | eventExToReceiveQueue hd hm =>
      have hleft := ReceiveQueue.left_did (ReceiveQueue.move_did hm)
      rw [hd]
      dsimp only [Doing.left]
      omega
    | returns hw hd hq =>
      rw [returned_left hd, hw]
      simp only [SendQueue.workerThread, hw, Option.some.injEq] at hq
      subst hq
      dsimp only [Doing.left, SendQueue.Worker.toWait]
      omega
    | handle hw hq =>
      have hleft := SendQueue.toWait_did (SendQueue.workerThread_did hi hq) (by simp [hw])
      dsimp only [handle]
      omega
    | @send e q hw hq =>
      cases e with
      | work =>
        have hleft := SendQueue.toWait_did (SendQueue.workerThread_did hi hq) (hw rfl).1
        dsimp only
        omega
      | fails errno => cases hg
      | close => cases hg

/-- Short of being at rest, somebody can go on. -/
theorem atRest_or_goesOn (h : (object E vscp_isSameGUID).Reachable (init s₀) s) :
    AtRest s ∨ ∃ e s', goesOn e = true ∧ (object E vscp_isSameGUID).step s e = some s' := by
  by_cases hstuck : Stuck E vscp_isSameGUID s
  · exact .inl (hstuck.atRest h)
  · right
    unfold Stuck at hstuck
    push Not at hstuck
    obtain ⟨e, hg, hne⟩ := hstuck
    obtain ⟨s', hs'⟩ := Option.ne_none_iff_exists'.1 hne
    exact ⟨e, s', hg, hs'⟩

/-- Left to themselves, the calls under way and the worker take a bounded number
of steps, and do not stop before they are at rest. -/
theorem comes_to_rest (h : (object E vscp_isSameGUID).Reachable (init s₀) s) :
    (AtRest s ∨ ∃ e s', goesOn e = true ∧ (object E vscp_isSameGUID).step s e = some s') ∧
      ∀ es s', (∀ e ∈ es, goesOn e = true) → (object E vscp_isSameGUID).run s es = some s' →
        es.length ≤ toRest s := by
  refine ⟨atRest_or_goesOn h, ?_⟩
  intro es s' hes hr
  have hspent : toRest s' + es.countP (fun _ => true) ≤ toRest s := by
    refine System.run_spent (I := fun t => (object E vscp_isSameGUID).Reachable (init s₀) t) ?_ es hes h hr
    intro t e t' ht hg hstep
    exact ⟨ht.step hstep, goesOn_left ht hg hstep⟩
  rw [List.countP_true] at hspent
  omega

/-! ## Coming to an end -/

/-- Once the object is closed, each step of the worker brings it nearer to its
end. -/
theorem closed_step {s' : State (Shared K) Call} {e : Event Start ReceiveQueue.Choice Step}
    (hr : (object E vscp_isSameGUID).Reachable (init s₀) s) (hq : s.shared.send.m_bQuit = true)
    (h : (object E vscp_isSameGUID).step s e = some s') :
    s'.shared.send.m_bQuit = true ∧ toEnd s'.shared + (if ofWorker e then 1 else 0) ≤ toEnd s.shared ∧
      s'.shared.readings.length + toBegin s'.shared ≤ s.shared.readings.length + toBegin s.shared ∧
      s'.shared.deleted.length + s'.shared.send.worker.toDelete ≤
        s.shared.deleted.length + s.shared.send.worker.toDelete := by
  have hi := (send_inv hr).1
  cases e with
  | start b =>
    obtain rfl := Option.some.inj h
    exact ⟨hq, le_rfl, le_rfl, le_rfl⟩
  | move i a =>
    obtain ⟨t, x', t', -, hm, rfl⟩ := System.step_set h
    obtain ⟨hdoing, hworker, hquit, hreadings, hdeleted⟩ := move_worker hm
    unfold toEnd toBegin
    dsimp only
    rw [hdoing, hworker, hquit, hreadings, hdeleted]
    exact ⟨hq, le_rfl, le_rfl, le_rfl⟩
  | env e =>
    obtain ⟨x', he, rfl⟩ := Option.map_eq_some_iff.1 h
    dsimp only
    cases workerThread_did he with
    | doWork now hw hd =>
      refine ⟨hq, Nat.succ_le_of_lt ?_, ?_, le_rfl⟩
      · have hleft := beginWork_left (E := E) now s.shared
        have hsend : (beginWork E now s.shared).send = s.shared.send := rfl
        unfold toEnd
        rw [hd, hsend]
        exact Nat.add_lt_add_left hleft _
      · have hbegun : toBegin (beginWork E now s.shared) = 0 := by
          refine toBegin_of_ne (.inr ?_)
          intro hbegins
          have hleft := beginWork_left (E := E) now s.shared
          rw [hbegins] at hleft
          exact Nat.lt_irrefl _ hleft
        have hbegins : toBegin s.shared = 1 := by rw [toBegin, hw, hd]
        rw [hbegun, hbegins]
        exact le_of_eq List.length_append
    | eventExToReceiveQueue hd hm =>
      refine ⟨hq, Nat.succ_le_of_lt ?_, ?_, le_rfl⟩
      · have hleft := ReceiveQueue.left_did (ReceiveQueue.move_did hm)
        unfold toEnd
        rw [hd]
        exact Nat.add_lt_add_left hleft _
      · rw [toBegin_of_ne (.inr (by simp)), toBegin_of_ne (.inr (by simp [hd]))]
    | returns hw hd hq' =>
      simp only [SendQueue.workerThread, hw, Option.some.injEq] at hq'
      subst hq'
      refine ⟨hq, Nat.succ_le_of_lt ?_, Nat.add_le_add_left (Nat.zero_le _) _, ?_⟩
      · unfold toEnd
        rw [returned_left hd, hw]
        exact Nat.lt_succ_self _
      · rw [hw]
        exact le_rfl
    | handle hw hq' =>
      simp only [SendQueue.workerThread, hw, Option.some.injEq] at hq'
      subst hq'
      refine ⟨hq, Nat.succ_le_of_lt ?_, Nat.add_le_add_left (Nat.zero_le _) _, ?_⟩
      · unfold toEnd
        rw [hw]
        exact Nat.add_lt_add_right (Nat.lt_succ_self _) _
      · dsimp only [handle]
        rw [hw, List.length_append]
        exact le_rfl
    | @send e q hw hq' =>
      by_cases hclose : e = .close
      · subst hclose
        obtain rfl := Option.some.inj hq'
        exact ⟨rfl, le_rfl, le_rfl, le_rfl⟩
      · have hne : s.shared.send.worker ≠ .doWork := by
          intro hd
          cases e with
          | work => exact (hw rfl).1 hd
          | fails errno => simp only [SendQueue.workerThread, hd, reduceCtorEq] at hq'
          | close => exact hclose rfl
        obtain ⟨hquit, hworker, hdelete, hend⟩ :=
          SendQueue.toEnd_did (SendQueue.workerThread_did hi hq') hq hclose hne
        have hbegin : toBegin { s.shared with send := q } = 0 := toBegin_of_ne (.inl hworker)
        have hone : (if ofWorker (.env (.send e)) then 1 else 0) ≤ 1 := by split <;> simp
        refine ⟨hquit, ?_, ?_, Nat.add_le_add_left hdelete _⟩
        · exact (Nat.add_le_add_left hone _).trans (Nat.succ_le_of_lt (Nat.add_lt_add_right hend _))
        · rw [hbegin]
          exact Nat.add_le_add_left (Nat.zero_le _) _

theorem worker_sem {x x' : Shared K} {e : Step} {l : List SendQueue.Call} (hi : SendQueue.Inv ⟨x.send, l⟩)
    (h : workerThread E vscp_isSameGUID e x = some x') : x'.send.m_semSendQueue ≤ x.send.m_semSendQueue := by
  cases workerThread_did h with
  | doWork => exact le_rfl
  | eventExToReceiveQueue => exact le_rfl
  | returns _ _ hq => exact SendQueue.worker_sem (SendQueue.workerThread_did hi hq)
  | handle _ hq => exact SendQueue.worker_sem (SendQueue.workerThread_did hi hq)
  | send _ hq => exact SendQueue.worker_sem (SendQueue.workerThread_did hi hq)

/-- The event goes ahead, or it is a time-out of the worker's wait. -/
def goesOnOrTimesOut (e : Event Start ReceiveQueue.Choice Step) : Prop :=
  goesOn e = true ∨ e = .env (.send (.fails .ETIMEDOUT))

/-- A bound on the steps until the worker of an object that is closed ends. -/
def toShutdown (s : State (Shared K) Call) : ℕ :=
  total Call.left s.threads + 15 * s.shared.send.m_semSendQueue + toEnd s.shared

theorem closed_left {s' : State (Shared K) Call} {e : Event Start ReceiveQueue.Choice Step}
    (hr : (object E vscp_isSameGUID).Reachable (init s₀) s) (hq : s.shared.send.m_bQuit = true)
    (hg : goesOnOrTimesOut e) (h : (object E vscp_isSameGUID).step s e = some s') : toShutdown s' < toShutdown s := by
  have hend := (closed_step hr hq h).2.1
  cases e with
  | start b => rcases hg with hg | hg <;> cases hg
  | move i a =>
    obtain ⟨l, t, r, x', t', hl, -, hm, rfl⟩ := System.step_move h
    have hleft := move_left hm
    unfold toShutdown
    rw [hl, total_append, total_append, total_cons, total_cons]
    dsimp only at hend ⊢
    omega
  | env e =>
    obtain ⟨x', he, rfl⟩ := Option.map_eq_some_iff.1 h
    have hsem := worker_sem (send_inv hr).1 he
    have hown : ofWorker (.env e) = true := by
      rcases hg with hg | hg
      · cases e with
        | send e => cases e <;> first | rfl | cases hg
        | _ => rfl
      · obtain rfl := Event.env.inj hg
        rfl
    rw [if_pos hown] at hend
    unfold toShutdown
    dsimp only at hend ⊢
    omega

/-- From whatever state an object is closed in, its worker takes a bounded number
of steps, begins `doWork` once more at most and deletes one more event at most;
and it can always be brought to its end by what is under way and time-outs. -/
theorem worker_ends (h : (object E vscp_isSameGUID).Reachable (init s₀) s) (hq : s.shared.send.m_bQuit = true) :
    (∀ es s', (object E vscp_isSameGUID).run s es = some s' →
      es.countP ofWorker ≤ 21 ∧ s'.shared.readings.length ≤ s.shared.readings.length + 1 ∧
        s'.shared.deleted.length ≤ s.shared.deleted.length + 1) ∧
      ∃ es s', (∀ e ∈ es, goesOnOrTimesOut e) ∧ (object E vscp_isSameGUID).run s es = some s' ∧
        s'.shared.send.worker = .ended := by
  constructor
  · intro es s' hr
    let I (t : State (Shared K) Call) : Prop :=
      (object E vscp_isSameGUID).Reachable (init s₀) t ∧ t.shared.send.m_bQuit = true ∧
        t.shared.readings.length + toBegin t.shared ≤ s.shared.readings.length + toBegin s.shared ∧
        t.shared.deleted.length + t.shared.send.worker.toDelete ≤
          s.shared.deleted.length + s.shared.send.worker.toDelete
    have hstep (t e t') (ht : I t) (he : (object E vscp_isSameGUID).step t e = some t') :
        I t' ∧ toEnd t'.shared + (if ofWorker e then 1 else 0) ≤ toEnd t.shared := by
      obtain ⟨hreachable, hquit, hreadings, hdeleted⟩ := ht
      obtain ⟨hquit', hend, hreadings', hdeleted'⟩ := closed_step hreachable hquit he
      exact ⟨⟨hreachable.step he, hquit', hreadings'.trans hreadings, hdeleted'.trans hdeleted⟩, hend⟩
    have hI : I s := ⟨h, hq, le_rfl, le_rfl⟩
    have hspent : toEnd s'.shared + es.countP ofWorker ≤ toEnd s.shared :=
      System.run_spent (fun t e t' ht _ he => hstep t e t' ht he) es (fun _ _ => trivial : ∀ e ∈ es, True) hI hr
    obtain ⟨-, -, hreadings, hdeleted⟩ := System.run_keeps (fun t e t' ht he => (hstep t e t' ht he).1) es hI hr
    have hmost := toEnd_le s.shared
    have hbegin := toBegin_le s.shared
    have hdelete := s.shared.send.worker.toDelete_le
    exact ⟨by omega, by omega, by omega⟩
  · refine System.exists_run (I := fun t => (object E vscp_isSameGUID).Reachable (init s₀) t ∧
      t.shared.send.m_bQuit = true) (μ := toShutdown) ?_ ⟨h, hq⟩
    rintro t ⟨hreachable, hquit⟩ hgoal
    have hgo {e t'} (hg : goesOnOrTimesOut e) (he : (object E vscp_isSameGUID).step t e = some t') :
        ∃ e t', goesOnOrTimesOut e ∧ (object E vscp_isSameGUID).step t e = some t' ∧
          ((object E vscp_isSameGUID).Reachable (init s₀) t' ∧ t'.shared.send.m_bQuit = true) ∧
          toShutdown t' < toShutdown t :=
      ⟨e, t', hg, he, ⟨hreachable.step he, (closed_step hreachable hquit he).1⟩, closed_left hreachable hquit hg he⟩
    rcases atRest_or_goesOn hreachable with hrest | ⟨e, t', hg, he⟩
    · -- the worker waits, and times out
      obtain ⟨hwait, -⟩ := hrest.worker.resolve_left hgoal
      have htimeout : ((object E vscp_isSameGUID).step t (.env (.send (.fails .ETIMEDOUT)))).isSome = true := by
        simp only [System.step, object, workerThread, SendQueue.workerThread, hwait, Option.map_some]
        rfl
      obtain ⟨t', ht'⟩ := Option.isSome_iff_exists.1 htimeout
      exact hgo (.inr rfl) ht'
    · exact hgo (.inl hg) he

end

theorem comes_to_rest_midnight :
    let E := rationalEnv fun _ => .error .parse_error
    let s₀ := opened E (march 20 12 0 (by decide)) "" (.replicate 16 0) ""
    ∃ s, (object E (· == ·)).run (init s₀) midnight = some s ∧ toRest s = 7 ∧
      (AtRest s ∨ ∃ e s', goesOn e = true ∧ (object E (· == ·)).step s e = some s') ∧
      ∀ es s', (∀ e ∈ es, goesOn e = true) → (object E (· == ·)).run s es = some s' → es.length ≤ toRest s := by
  intro E s₀
  have hr (s) (h : (object E (· == ·)).run (init s₀) midnight = some s) :=
    comes_to_rest (System.run_reachable midnight .init h)
  exact ⟨_, rfl, rfl, hr _ rfl⟩

/-- The object is closed while its worker is in `doWork`. -/
theorem worker_ends_midnight :
    let E := rationalEnv fun _ => .error .parse_error
    let s₀ := opened E (march 20 12 0 (by decide)) "" (.replicate 16 0) ""
    ∃ s, (object E (· == ·)).run (init s₀) (midnight ++ [.env (.send .close)]) = some s ∧
      s.shared.send.m_bQuit = true ∧
      (∀ es s', (object E (· == ·)).run s es = some s' →
        es.countP ofWorker ≤ 21 ∧ s'.shared.readings.length ≤ s.shared.readings.length + 1 ∧
          s'.shared.deleted.length ≤ s.shared.deleted.length + 1) ∧
        ∃ es s', (∀ e ∈ es, goesOnOrTimesOut e) ∧ (object E (· == ·)).run s es = some s' ∧
          s'.shared.send.worker = .ended := by
  intro E s₀
  have hr (s) (h : (object E (· == ·)).run (init s₀) (midnight ++ [.env (.send .close)]) = some s)
      (hq : s.shared.send.m_bQuit = true) := worker_ends (System.run_reachable _ .init h) hq
  exact ⟨_, rfl, rfl, hr _ rfl rfl⟩

end VscpAutomation.Object
