import VscpAutomation.Rational
import VscpAutomation.Lib.Interleave
/-!
# The receive queue

Calls of `eventExToReceiveQueue` and of `VSCPRead` on one open object, step by
step, in any order. The semaphore is waited on outside the mutex, so its count
is the length of the list only up to the calls under way: events in the list
that are not posted yet, and readers that have been admitted and have not
popped yet (`Inv.count`).
-/

namespace VscpAutomation.ReceiveQueue

open Interleave

/-! ## State -/

/-- What the calls share. A pointer is `none` where it is NULL. `pushed` and
`popped` record the list's history. -/
structure Queue where
  m_receiveList : List (Option vscpEvent)
  m_semReceiveQueue : ℕ
  m_mutexReceiveQueue : Bool
  pushed : List (Option vscpEvent)
  popped : List (Option vscpEvent)

/-- Why a wait on a semaphore fails. -/
inductive Errno where
  | ETIMEDOUT
  | EINTR
  | EINVAL
  | EAGAIN
  | other

/-- What the API's calls return. -/
inductive Canal where
  | CANAL_ERROR_SUCCESS
  | CANAL_ERROR_MEMORY
  | CANAL_ERROR_TIMEOUT
  | CANAL_ERROR_INTERNAL
  | CANAL_ERROR_PARAMETER
deriving DecidableEq

/-- What `VSCPRead` returns when its wait fails. -/
def waitError : Errno → Canal
  | .ETIMEDOUT => .CANAL_ERROR_TIMEOUT
  | _ => .CANAL_ERROR_INTERNAL

/-- A call, at its next step. -/
inductive Call where
  -- eventExToReceiveQueue
  | convert (ex : vscpEventEx)
  | lockPush (pev : vscpEvent)
  | push_back (pev : vscpEvent)
  | sem_post
  | unlockPush
  | pushed (ret : Bool)
  -- VSCPRead
  | vscp_sem_wait
  | lockPop
  | front
  | pop_front (pLocalEvent : Option vscpEvent)
  | unlockPop (pLocalEvent : Option vscpEvent)
  | read (ret : Canal) (pEvent : Option vscpEvent)
  /-- `front()` was called on an empty list. -/
  | undefined

/-- A call is started. -/
inductive Start where
  | eventExToReceiveQueue (ex : vscpEventEx)
  | VSCPRead

/-- A step goes ahead, or it is a wait and fails. -/
inductive Choice where
  | go
  | fails (errno : Errno)

section
variable {K : Type} (E : Env K) (m_vscpfilter : vscpEventFilter)

def move : Choice → Queue → Call → Option (Queue × Call)
  | .go, q, .convert ex =>
    match E.vscp_convertEventExToEvent ex with
    | none => some (q, .pushed false)
    | some pev => if E.vscp_doLevel2Filter pev m_vscpfilter then some (q, .lockPush pev) else some (q, .pushed true)
  | .go, q, .lockPush pev =>
    if q.m_mutexReceiveQueue then none else some ({ q with m_mutexReceiveQueue := true }, .push_back pev)
  | .go, q, .push_back pev =>
    some ({ q with m_receiveList := q.m_receiveList ++ [some pev], pushed := q.pushed ++ [some pev] }, .sem_post)
  | .go, q, .sem_post => some ({ q with m_semReceiveQueue := q.m_semReceiveQueue + 1 }, .unlockPush)
  | .go, q, .unlockPush => some ({ q with m_mutexReceiveQueue := false }, .pushed true)
  | .go, q, .vscp_sem_wait =>
    match q.m_semReceiveQueue with
    | 0 => none
    | n + 1 => some ({ q with m_semReceiveQueue := n }, .lockPop)
  | .fails errno, q, .vscp_sem_wait => some (q, .read (waitError errno) none)
  | .go, q, .lockPop =>
    if q.m_mutexReceiveQueue then none else some ({ q with m_mutexReceiveQueue := true }, .front)
  | .go, q, .front =>
    match q.m_receiveList with
    | [] => some (q, .undefined)
    | p :: _ => some (q, .pop_front p)
  | .go, q, .pop_front p =>
    match q.m_receiveList with
    | [] => some (q, .undefined)
    | x :: l => some ({ q with m_receiveList := l, popped := q.popped ++ [x] }, .unlockPop p)
  | .go, q, .unlockPop p =>
    some ({ q with m_mutexReceiveQueue := false },
      match p with
      | none => .read .CANAL_ERROR_MEMORY none
      | some ev => .read .CANAL_ERROR_SUCCESS (some ev))
  | _, _, _ => none

/-- Calls on one object. -/
def calls : System Queue Call Start Choice Empty where
  start
    | .eventExToReceiveQueue ex => .convert ex
    | .VSCPRead => .vscp_sem_wait
  move := move E m_vscpfilter
  env e := nomatch e

end

/-- No event and no call yet. -/
def init : State Queue Call := ⟨⟨[], 0, false, [], []⟩, []⟩

/-! ## What the pool holds -/

/-- The thread holds the mutex. -/
def Call.holds : Call → ℕ
  | .push_back _ => 1
  | .sem_post => 1
  | .unlockPush => 1
  | .front => 1
  | .pop_front _ => 1
  | .unlockPop _ => 1
  | _ => 0

/-- The thread has pushed an event and not posted it. -/
def Call.unposted : Call → ℕ
  | .sem_post => 1
  | _ => 0

/-- The thread was admitted by the semaphore and has not popped. -/
def Call.claimed : Call → ℕ
  | .lockPop => 1
  | .front => 1
  | .pop_front _ => 1
  | _ => 0

/-! ## The invariant -/

structure Inv (s : State Queue Call) : Prop where
  mutex : total Call.holds s.threads = if s.shared.m_mutexReceiveQueue then 1 else 0
  count : s.shared.m_receiveList.length =
    s.shared.m_semReceiveQueue + total Call.unposted s.threads + total Call.claimed s.threads
  fifo : s.shared.popped ++ s.shared.m_receiveList = s.shared.pushed
  notNull : ∀ p ∈ s.shared.pushed, p ≠ none
  /-- A reader pops what it got from `front()`. -/
  top : ∀ p, .pop_front p ∈ s.threads → s.shared.m_receiveList.head? = some p
  defined : .undefined ∉ s.threads

/-- The reader at `front()` finds an event. -/
theorem Inv.front {s : State Queue Call} (h : Inv s) (ht : .front ∈ s.threads) :
    ∃ ev l, s.shared.m_receiveList = some ev :: l := by
  have hc : 1 ≤ total Call.claimed s.threads := le_total (w := Call.claimed) ht
  have hn := h.count
  cases hl : s.shared.m_receiveList with
  | nil => rw [hl, List.length_nil] at hn; omega
  | cons p l =>
    have hp : p ∈ s.shared.pushed := by rw [← h.fifo, hl]; simp
    obtain ⟨ev, rfl⟩ := Option.ne_none_iff_exists'.1 (h.notNull p hp)
    exact ⟨ev, l, rfl⟩

/-- A move that leaves the list alone. -/
theorem Inv.quiet {q q' : Queue} {l r : List Call} {t t' : Call} (h : Inv ⟨q, l ++ t :: r⟩)
    (hlist : q'.m_receiveList = q.m_receiveList) (hpush : q'.pushed = q.pushed) (hpop : q'.popped = q.popped)
    (hmutex : t'.holds + (if q.m_mutexReceiveQueue then 1 else 0) =
      t.holds + if q'.m_mutexReceiveQueue then 1 else 0)
    (hcount : q'.m_semReceiveQueue + t'.unposted + t'.claimed = q.m_semReceiveQueue + t.unposted + t.claimed)
    (htop : ∀ p, t' = .pop_front p → q.m_receiveList.head? = some p) (hdef : t' ≠ .undefined) :
    Inv ⟨q', l ++ t' :: r⟩ := by
  obtain ⟨h1, h2, h3, h4, h5, h6⟩ := h
  simp only [total_append, total_cons] at h1 h2
  constructor
  · simp only [total_append, total_cons]; omega
  · simp only [total_append, total_cons, hlist]; omega
  · rw [hlist, hpush, hpop]; exact h3
  · rw [hpush]; exact h4
  · intro p hp
    rw [hlist]
    rcases List.mem_append.1 hp with hp | hp
    · exact h5 p (List.mem_append_left _ hp)
    · rcases List.mem_cons.1 hp with hp | hp
      · exact htop p hp.symm
      · exact h5 p (List.mem_append_right _ (List.mem_cons_of_mem _ hp))
  · intro hu
    rcases List.mem_append.1 hu with hu | hu
    · exact h6 (List.mem_append_left _ hu)
    · rcases List.mem_cons.1 hu with hu | hu
      · exact hdef hu.symm
      · exact h6 (List.mem_append_right _ (List.mem_cons_of_mem _ hu))

/-- While a thread holds the mutex, no other is about to pop. -/
theorem Inv.alone {q : Queue} {l r : List Call} {t : Call} (h : Inv ⟨q, l ++ t :: r⟩) (ht : t.holds = 1)
    (p : Option vscpEvent) : .pop_front p ∉ l ∧ .pop_front p ∉ r := by
  have h1 := h.mutex
  simp only [total_append, total_cons, ht] at h1
  have hle : total Call.holds l + total Call.holds r = 0 := by
    split at h1 <;> omega
  constructor
  · intro hp
    have := le_total (w := Call.holds) hp
    simp only [Call.holds] at this
    omega
  · intro hp
    have := le_total (w := Call.holds) hp
    simp only [Call.holds] at this
    omega

theorem Inv.push {q : Queue} {l r : List Call} {pev : vscpEvent} (h : Inv ⟨q, l ++ .push_back pev :: r⟩) :
    Inv ⟨{ q with m_receiveList := q.m_receiveList ++ [some pev], pushed := q.pushed ++ [some pev] },
      l ++ .sem_post :: r⟩ := by
  have halone := h.alone rfl
  obtain ⟨h1, h2, h3, h4, h5, h6⟩ := h
  simp only [total_append, total_cons, Call.holds, Call.unposted, Call.claimed] at h1 h2
  constructor
  · simp only [total_append, total_cons, Call.holds]; omega
  · simp only [total_append, total_cons, Call.unposted, Call.claimed, List.length_append, List.length_singleton]
    omega
  · dsimp only at h3 ⊢
    rw [← h3, List.append_assoc]
  · intro p hp
    rcases List.mem_append.1 hp with hp | hp
    · exact h4 p hp
    · rw [List.mem_singleton.1 hp]; exact Option.some_ne_none _
  · intro p hp
    simp [(halone p).1, (halone p).2] at hp
  · simpa using h6

theorem Inv.pop {q : Queue} {l r : List Call} {p : Option vscpEvent} {xs : List (Option vscpEvent)}
    (h : Inv ⟨q, l ++ .pop_front p :: r⟩) (hl : q.m_receiveList = p :: xs) :
    Inv ⟨{ q with m_receiveList := xs, popped := q.popped ++ [p] }, l ++ .unlockPop p :: r⟩ := by
  have halone := h.alone rfl
  obtain ⟨h1, h2, h3, h4, h5, h6⟩ := h
  simp only [total_append, total_cons, Call.holds, Call.unposted, Call.claimed, hl, List.length_cons] at h1 h2
  constructor
  · simp only [total_append, total_cons, Call.holds]; omega
  · simp only [total_append, total_cons, Call.unposted, Call.claimed]; omega
  · dsimp only at h3 ⊢
    rw [← h3, hl, List.append_assoc, List.singleton_append]
  · exact h4
  · intro p' hp
    simp [(halone p').1, (halone p').2] at hp
  · simpa using h6

variable {K : Type} (E : Env K) (m_vscpfilter : vscpEventFilter)

/-- Every move keeps the invariant. -/
theorem inv_move {q q' : Queue} {l r : List Call} {t t' : Call} {a : Choice} (h : Inv ⟨q, l ++ t :: r⟩)
    (hm : move E m_vscpfilter a q t = some (q', t')) : Inv ⟨q', l ++ t' :: r⟩ := by
  cases a with
  | fails errno =>
    cases t with
    | vscp_sem_wait =>
      obtain ⟨rfl, rfl⟩ := Prod.mk.inj (Option.some.inj hm)
      exact h.quiet rfl rfl rfl rfl rfl (by simp) (by simp)
    | _ => cases hm
  | go =>
    cases t with
    | convert ex =>
      simp only [move] at hm
      split at hm
      · obtain ⟨rfl, rfl⟩ := Prod.mk.inj (Option.some.inj hm)
        exact h.quiet rfl rfl rfl rfl rfl (by simp) (by simp)
      · split at hm
        · obtain ⟨rfl, rfl⟩ := Prod.mk.inj (Option.some.inj hm)
          exact h.quiet rfl rfl rfl rfl rfl (by simp) (by simp)
        · obtain ⟨rfl, rfl⟩ := Prod.mk.inj (Option.some.inj hm)
          exact h.quiet rfl rfl rfl rfl rfl (by simp) (by simp)
    | lockPush pev =>
      simp only [move] at hm
      split at hm
      · cases hm
      · rename_i hu
        obtain ⟨rfl, rfl⟩ := Prod.mk.inj (Option.some.inj hm)
        exact h.quiet rfl rfl rfl (by simp [Call.holds, hu]) rfl (by simp) (by simp)
    | push_back pev =>
      obtain ⟨rfl, rfl⟩ := Prod.mk.inj (Option.some.inj hm)
      exact h.push
    | sem_post =>
      obtain ⟨rfl, rfl⟩ := Prod.mk.inj (Option.some.inj hm)
      exact h.quiet rfl rfl rfl rfl rfl (by simp) (by simp)
    | unlockPush =>
      obtain ⟨rfl, rfl⟩ := Prod.mk.inj (Option.some.inj hm)
      have := h.mutex
      simp only [total_append, total_cons, Call.holds] at this
      refine h.quiet rfl rfl rfl ?_ rfl (by simp) (by simp)
      split at this
      · simp [Call.holds, *]
      · omega
    | pushed ret => cases hm
    | vscp_sem_wait =>
      simp only [move] at hm
      split at hm
      · cases hm
      · rename_i n hn
        obtain ⟨rfl, rfl⟩ := Prod.mk.inj (Option.some.inj hm)
        exact h.quiet rfl rfl rfl rfl (by simp [Call.unposted, Call.claimed, hn]) (by simp) (by simp)
    | lockPop =>
      simp only [move] at hm
      split at hm
      · cases hm
      · rename_i hu
        obtain ⟨rfl, rfl⟩ := Prod.mk.inj (Option.some.inj hm)
        exact h.quiet rfl rfl rfl (by simp [Call.holds, hu]) rfl (by simp) (by simp)
    | front =>
      obtain ⟨ev, xs, hl⟩ := h.front (List.mem_append_right _ List.mem_cons_self)
      dsimp only at hl
      simp only [move, hl] at hm
      obtain ⟨rfl, rfl⟩ := Prod.mk.inj (Option.some.inj hm)
      exact h.quiet rfl rfl rfl rfl rfl (by simp [hl]) (by simp)
    | pop_front p =>
      have htop := h.top p (List.mem_append_right _ List.mem_cons_self)
      obtain ⟨xs, hl⟩ := List.head?_eq_some_iff.1 htop
      dsimp only at hl
      simp only [move, hl] at hm
      obtain ⟨rfl, rfl⟩ := Prod.mk.inj (Option.some.inj hm)
      exact h.pop hl
    | unlockPop p =>
      obtain ⟨rfl, rfl⟩ := Prod.mk.inj (Option.some.inj hm)
      have := h.mutex
      simp only [total_append, total_cons, Call.holds] at this
      have hq : q.m_mutexReceiveQueue = true := by
        by_contra hq
        rw [if_neg hq] at this
        omega
      cases p with
      | none => exact h.quiet rfl rfl rfl (by simp [Call.holds, hq]) rfl (by simp) (by simp)
      | some ev => exact h.quiet rfl rfl rfl (by simp [Call.holds, hq]) rfl (by simp) (by simp)
    | read ret pEvent => cases hm
    | undefined => cases hm

/-- A call that starts holds nothing. -/
theorem inv_start {q : Queue} {l : List Call} (b : Start) (h : Inv ⟨q, l⟩) :
    Inv ⟨q, l ++ [(calls E m_vscpfilter).start b]⟩ := by
  obtain ⟨h1, h2, h3, h4, h5, h6⟩ := h
  constructor
  · cases b <;> simpa [calls, Call.holds] using h1
  · cases b <;> simpa [calls, Call.unposted, Call.claimed] using h2
  · exact h3
  · exact h4
  · intro p hp
    cases b <;> exact h5 p (by simpa [calls] using hp)
  · intro hu
    cases b <;> exact h6 (by simpa [calls] using hu)

theorem inv_reachable {s : State Queue Call} (h : (calls E m_vscpfilter).Reachable init s) : Inv s :=
  h.invariant ⟨rfl, rfl, rfl, by simp [init], by simp [init], by simp [init]⟩
    (fun _ _ b hi => inv_start E m_vscpfilter b hi)
    (fun _ _ _ _ _ _ _ hi hm => inv_move E m_vscpfilter hi hm) (fun _ _ e => nomatch e)

/-- One call that nothing interleaves with does what `Driver` has for
`eventExToReceiveQueue`. -/
theorem push_alone (ex : vscpEventEx) (s : CAutomation K) (pushed popped : List (Option vscpEvent)) :
    let r := s.eventExToReceiveQueue E ex
    ∃ es pushed', (calls E s.m_vscpfilter).run
      ⟨⟨s.m_receiveList.map some, s.m_semReceiveQueue, false, pushed, popped⟩, []⟩ es =
        some ⟨⟨r.2.m_receiveList.map some, r.2.m_semReceiveQueue, false, pushed', popped⟩, [.pushed r.1]⟩ := by
  unfold CAutomation.eventExToReceiveQueue
  cases hc : E.vscp_convertEventExToEvent ex with
  | none =>
    refine ⟨[.start (.eventExToReceiveQueue ex), .move 0 .go], pushed, ?_⟩
    simp [System.run, System.step, calls, move, hc]
  | some pev =>
    by_cases hf : E.vscp_doLevel2Filter pev s.m_vscpfilter = true
    · refine ⟨.start (.eventExToReceiveQueue ex) :: List.replicate 5 (.move 0 .go), pushed ++ [some pev], ?_⟩
      simp [List.replicate, System.run, System.step, calls, move, hc, hf]
    · refine ⟨[.start (.eventExToReceiveQueue ex), .move 0 .go], pushed, ?_⟩
      simp [System.run, System.step, calls, move, hc, hf]

/-- In every order of steps the list is as long as the semaphore's count, the
events not yet posted and the readers admitted together; a reader at `front()`
finds an event, no call runs into an empty list, and what was popped, followed
by the list, is what was pushed. -/
theorem receive_queue_fifo (s : State Queue Call) (h : (calls E m_vscpfilter).Reachable init s) :
    s.shared.m_receiveList.length =
        s.shared.m_semReceiveQueue + total Call.unposted s.threads + total Call.claimed s.threads ∧
      (.front ∈ s.threads → ∃ ev l, s.shared.m_receiveList = some ev :: l) ∧ .undefined ∉ s.threads ∧
      s.shared.popped ++ s.shared.m_receiveList = s.shared.pushed := by
  have hi := inv_reachable E m_vscpfilter h
  exact ⟨hi.count, hi.front, hi.defined, hi.fifo⟩

/-- A reader that waits in vain, one that is admitted between `sem_post` and
the unlock, and the two queues after it. -/
theorem receive_queue_fifo_two :
    let E := rationalEnv fun _ => .error .parse_error
    let ex := (CAutomation.new E (march 20 12 0 (by decide))).newCalculation E (march 21 0 0 (by decide))
    let es : List (Event Start Choice Empty) :=
      [.start .VSCPRead, .start (.eventExToReceiveQueue ex), .start .VSCPRead, .move 0 (.fails .ETIMEDOUT),
        .move 1 .go, .move 1 .go, .move 1 .go, .move 1 .go, .move 2 .go, .move 1 .go, .move 2 .go]
    ∃ s, (calls E E.vscp_clearVSCPFilter).run init es = some s ∧ .front ∈ s.threads ∧
      s.shared.m_receiveList.length =
        s.shared.m_semReceiveQueue + total Call.unposted s.threads + total Call.claimed s.threads ∧
      (.front ∈ s.threads → ∃ ev l, s.shared.m_receiveList = some ev :: l) ∧ .undefined ∉ s.threads ∧
      s.shared.popped ++ s.shared.m_receiveList = s.shared.pushed := by
  intro E ex es
  exact ⟨_, rfl, List.mem_of_getElem? (i := 2) rfl, receive_queue_fifo E E.vscp_clearVSCPFilter _
    (System.run_reachable es .init rfl)⟩

end VscpAutomation.ReceiveQueue
