import VscpAutomation.ReceiveQueue
/-!
# The send queue

Calls of `VSCPWrite` and the one worker thread. The worker tests the size of
the list without the mutex, takes one event at most each time round, and takes
one after a time-out too: so the semaphore may run ahead of the list, and what
holds is that it never falls behind it (`Inv.tokens`).
-/

namespace VscpAutomation.SendQueue

open Interleave

open ReceiveQueue (Errno)

/-! ## State -/

/-- The worker thread, at its next step. `token` says whether its last wait
lowered the semaphore. -/
inductive Worker where
  | while_
  | doWork
  | vscp_sem_wait
  | size (token : Bool)
  | lock (token : Bool)
  | front (token : Bool)
  | pop_front (token : Bool) (pEvent : Option vscpEvent)
  | unlock (pEvent : Option vscpEvent)
  | handle (pEvent : vscpEvent)
  | ended
  /-- `front()` or `pop_front()` was called on an empty list. -/
  | undefined

/-- What the writers and the worker share. `written` and `taken` record the
list's history. -/
structure Queue where
  m_sendList : List (Option vscpEvent)
  m_semSendQueue : ℕ
  m_mutexSendQueue : Bool
  m_bQuit : Bool
  worker : Worker
  written : List (Option vscpEvent)
  taken : List (Option vscpEvent)

/-- A call of `addEvent2SendQueue`, at its next step. -/
inductive Call where
  | lock (pEvent : Option vscpEvent)
  | push_back (pEvent : Option vscpEvent)
  | sem_post
  | unlock
  | returned

def move : Queue → Call → Option (Queue × Call)
  | q, .lock pEvent =>
    if q.m_mutexSendQueue then none else some ({ q with m_mutexSendQueue := true }, .push_back pEvent)
  | q, .push_back pEvent =>
    some ({ q with m_sendList := q.m_sendList ++ [pEvent], written := q.written ++ [pEvent] }, .sem_post)
  | q, .sem_post => some ({ q with m_semSendQueue := q.m_semSendQueue + 1 }, .unlock)
  | q, .unlock => some ({ q with m_mutexSendQueue := false }, .returned)
  | _, .returned => none

/-- A step of the worker, or a close that asks it to stop. -/
inductive Step where
  | work
  | fails (errno : Errno)
  | close

/-- The worker quits when its wait is interrupted or its semaphore is invalid. -/
def quits : Errno → Bool
  | .EINTR => true
  | .EINVAL => true
  | _ => false

def workerThread : Step → Queue → Option Queue
  | .close, q => some { q with m_bQuit := true }
  | .fails errno, q =>
    match q.worker with
    | .vscp_sem_wait => some { q with m_bQuit := q.m_bQuit || quits errno, worker := .size false }
    | _ => none
  | .work, q =>
    match q.worker with
    | .while_ => some { q with worker := if q.m_bQuit then .ended else .doWork }
    | .doWork => some { q with worker := .vscp_sem_wait }
    | .vscp_sem_wait =>
      match q.m_semSendQueue with
      | 0 => none
      | n + 1 => some { q with m_semSendQueue := n, worker := .size true }
    | .size token => some { q with worker := if q.m_sendList.length ≠ 0 then .lock token else .while_ }
    | .lock token =>
      if q.m_mutexSendQueue then none else some { q with m_mutexSendQueue := true, worker := .front token }
    | .front token =>
      match q.m_sendList with
      | [] => some { q with worker := .undefined }
      | p :: _ => some { q with worker := .pop_front token p }
    | .pop_front _ p =>
      match q.m_sendList with
      | [] => some { q with worker := .undefined }
      | x :: l => some { q with m_sendList := l, taken := q.taken ++ [x], worker := .unlock p }
    | .unlock p =>
      some { q with
        m_mutexSendQueue := false
        worker := match p with
          | none => .while_
          | some ev => .handle ev }
    -- handleHLO does nothing, and the event is deleted
    | .handle _ => some { q with worker := .while_ }
    | .ended => none
    | .undefined => none

/-- Writers and the worker of one object. -/
def calls : System Queue Call (Option vscpEvent) Unit Step where
  start := .lock
  move _ := move
  env := workerThread

/-- The worker has just been started. -/
def init : State Queue Call := ⟨⟨[], 0, false, false, .while_, [], []⟩, []⟩

/-! ## The invariant -/

/-- The writer has pushed an event and not posted it. -/
def Call.unposted : Call → ℕ
  | .sem_post => 1
  | _ => 0

/-- The worker is between a wait that succeeded and the end of its pop. -/
def Worker.token : Worker → ℕ
  | .size true => 1
  | .lock true => 1
  | .front true => 1
  | .pop_front true _ => 1
  | _ => 0

/-- The worker has found the list not empty and not popped yet. -/
def Worker.popping : Worker → Bool
  | .lock _ => true
  | .front _ => true
  | .pop_front _ _ => true
  | _ => false

structure Inv (s : State Queue Call) : Prop where
  /-- The semaphore never falls behind the list. -/
  tokens : s.shared.m_sendList.length ≤
    s.shared.m_semSendQueue + total Call.unposted s.threads + s.shared.worker.token
  fifo : s.shared.taken ++ s.shared.m_sendList = s.shared.written
  nonempty : s.shared.worker.popping = true → s.shared.m_sendList ≠ []
  /-- The worker pops what it got from `front()`. -/
  top : ∀ token p, s.shared.worker = .pop_front token p → s.shared.m_sendList.head? = some p
  defined : s.shared.worker ≠ .undefined

theorem inv_start {q : Queue} {l : List Call} (pEvent : Option vscpEvent) (h : Inv ⟨q, l⟩) :
    Inv ⟨q, l ++ [.lock pEvent]⟩ := by
  obtain ⟨h1, h2, h3, h4, h5⟩ := h
  refine ⟨?_, h2, h3, h4, h5⟩
  simpa [Call.unposted] using h1

/-- A writer's step keeps the invariant. -/
theorem inv_move {q q' : Queue} {l r : List Call} {t t' : Call} (h : Inv ⟨q, l ++ t :: r⟩)
    (hm : move q t = some (q', t')) : Inv ⟨q', l ++ t' :: r⟩ := by
  obtain ⟨h1, h2, h3, h4, h5⟩ := h
  simp only [total_append, total_cons] at h1 h2 h3 h4 h5
  cases t with
  | lock p =>
    simp only [move] at hm
    split at hm
    · cases hm
    · obtain ⟨rfl, rfl⟩ := Prod.mk.inj (Option.some.inj hm)
      refine ⟨?_, h2, h3, h4, h5⟩
      simpa [Call.unposted] using h1
  | push_back p =>
    obtain ⟨rfl, rfl⟩ := Prod.mk.inj (Option.some.inj hm)
    refine ⟨?_, ?_, fun _ => by simp, fun token p' hw => ?_, h5⟩
    · simp only [total_append, total_cons, List.length_append, List.length_singleton, Call.unposted] at h1 ⊢
      omega
    · dsimp only
      rw [← h2, List.append_assoc]
    · -- what is on top stays on top
      have := h4 token p' hw
      dsimp only
      rw [List.head?_append, this]
      rfl
  | sem_post =>
    obtain ⟨rfl, rfl⟩ := Prod.mk.inj (Option.some.inj hm)
    refine ⟨?_, h2, h3, h4, h5⟩
    simp only [total_append, total_cons, Call.unposted] at h1 ⊢
    omega
  | unlock =>
    obtain ⟨rfl, rfl⟩ := Prod.mk.inj (Option.some.inj hm)
    refine ⟨?_, h2, h3, h4, h5⟩
    simpa [Call.unposted] using h1
  | returned => cases hm

/-- A step of the worker that leaves the list alone and does not go on to pop. -/
theorem Inv.quiet {q q' : Queue} {l : List Call} (h : Inv ⟨q, l⟩) (hlist : q'.m_sendList = q.m_sendList)
    (htaken : q'.taken = q.taken) (hwritten : q'.written = q.written)
    (htokens : q'.m_semSendQueue + q'.worker.token = q.m_semSendQueue + q.worker.token)
    (hpop : q'.worker.popping = false) (hdef : q'.worker ≠ .undefined) : Inv ⟨q', l⟩ := by
  have h1 := h.tokens
  dsimp only at h1
  constructor
  · dsimp only
    rw [hlist]
    omega
  · dsimp only
    rw [hlist, htaken, hwritten]
    exact h.fifo
  · intro hp
    exact absurd (hpop.symm.trans hp) Bool.false_ne_true
  · intro token p hw
    dsimp only at hw
    rw [hw] at hpop
    cases hpop
  · exact hdef

/-- A step of the worker keeps the invariant. -/
theorem inv_worker {q q' : Queue} {l : List Call} {e : Step} (h : Inv ⟨q, l⟩)
    (hm : workerThread e q = some q') : Inv ⟨q', l⟩ := by
  have ⟨h1, h2, h3, h4, h5⟩ := h
  dsimp only at h1 h2 h3 h4 h5
  cases e with
  | close =>
    obtain rfl := Option.some.inj hm
    exact ⟨h1, h2, h3, h4, h5⟩
  | fails errno =>
    simp only [workerThread] at hm
    split at hm
    · rename_i hw
      obtain rfl := Option.some.inj hm
      exact h.quiet rfl rfl rfl (by rw [hw]; rfl) rfl (by simp)
    · cases hm
  | work =>
    cases hw : q.worker with
    | while_ =>
      simp only [workerThread, hw, Option.some.injEq] at hm
      subst hm
      cases q.m_bQuit with
      | false => exact h.quiet rfl rfl rfl (by rw [hw]; rfl) rfl (by simp)
      | true => exact h.quiet rfl rfl rfl (by rw [hw]; rfl) rfl (by simp)
    | doWork =>
      simp only [workerThread, hw, Option.some.injEq] at hm
      subst hm
      exact h.quiet rfl rfl rfl (by rw [hw]; rfl) rfl (by simp)
    | vscp_sem_wait =>
      simp only [workerThread, hw] at hm
      split at hm
      · cases hm
      · rename_i n hn
        obtain rfl := Option.some.inj hm
        exact h.quiet rfl rfl rfl (by rw [hw, hn]; rfl) rfl (by simp)
    | size token =>
      rw [hw] at h1
      simp only [workerThread, hw, Option.some.injEq] at hm
      subst hm
      by_cases hl : q.m_sendList.length = 0
      · rw [if_neg (by simpa using hl)]
        refine ⟨?_, h2, by simp [Worker.popping], by simp, by simp⟩
        simp [hl]
      · rw [if_pos hl]
        refine ⟨?_, h2, ?_, by simp, by simp⟩
        · cases token <;> exact h1
        · intro _
          exact fun he => hl (by rw [he]; rfl)
    | lock token =>
      rw [hw] at h1 h3
      simp only [workerThread, hw] at hm
      split at hm
      · cases hm
      · obtain rfl := Option.some.inj hm
        refine ⟨?_, h2, fun _ => h3 rfl, by simp, by simp⟩
        cases token <;> exact h1
    | front token =>
      rw [hw] at h1 h3
      have hne := h3 rfl
      simp only [workerThread, hw] at hm
      split at hm
      · rename_i hl
        exact absurd hl hne
      · rename_i p xs hl
        obtain rfl := Option.some.inj hm
        refine ⟨?_, h2, fun _ => hne, ?_, by simp⟩
        · cases token <;> exact h1
        · rintro _ _ ⟨⟩
          dsimp only
          rw [hl]
          rfl
    | pop_front token p =>
      have htop := h4 token p hw
      rw [hw] at h1
      simp only [workerThread, hw] at hm
      split at hm
      · rename_i hl
        rw [hl] at htop
        cases htop
      · rename_i x xs hl
        obtain rfl := Option.some.inj hm
        rw [hl] at h1 h2
        refine ⟨?_, ?_, by simp [Worker.popping], by simp, by simp⟩
        · -- a pop without a token leaves the semaphore ahead
          simp only [List.length_cons] at h1
          cases token <;> simp only [Worker.token] at h1 ⊢ <;> omega
        · rw [List.append_assoc]
          exact h2
    | unlock p =>
      simp only [workerThread, hw, Option.some.injEq] at hm
      subst hm
      cases p with
      | none => exact h.quiet rfl rfl rfl (by rw [hw]; rfl) rfl (by simp)
      | some ev => exact h.quiet rfl rfl rfl (by rw [hw]; rfl) rfl (by simp)
    | handle ev =>
      simp only [workerThread, hw, Option.some.injEq] at hm
      subst hm
      exact h.quiet rfl rfl rfl (by rw [hw]; rfl) rfl (by simp)
    | ended => simp only [workerThread, hw, reduceCtorEq] at hm
    | undefined => exact absurd hw h5

theorem inv_reachable {s : State Queue Call} (h : calls.Reachable init s) : Inv s :=
  h.invariant ⟨le_rfl, rfl, by simp [init, Worker.popping], by simp [init], by simp [init]⟩
    (fun _ _ b hi => inv_start b hi) (fun _ _ _ _ _ _ _ hi hm => inv_move hi hm)
    (fun _ _ _ _ hi he => inv_worker hi he)

end VscpAutomation.SendQueue
