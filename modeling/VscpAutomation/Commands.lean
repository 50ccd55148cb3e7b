import VscpAutomation.Clients
import Mathlib.Data.List.ReduceOption
/-!
# Commands to the driver

What clients write goes through the worker's hands one event at a time, in
order. Each is deleted once, and handed to `handleHLO` first if it is a command
for this driver; what is in the list when the worker ends is neither
(`commands_handled`).
-/

namespace VscpAutomation.SendQueue

open Interleave

open ReceiveQueue (Errno)

/-- The event that the worker has taken and not deleted yet. -/
def Worker.hand : Worker → List vscpEvent
  | .unlock pEvent => pEvent.toList
  | .handle pEvent => [pEvent]
  | _ => []

/-- A writer leaves the worker alone. -/
theorem move_worker {q q' : Queue} {c c' : Call} (h : move q c = some (q', c')) :
    q'.worker = q.worker ∧ q'.taken = q.taken ∧ q'.m_bQuit = q.m_bQuit := by
  cases c with
  | lock pEvent =>
    simp only [move] at h
    split at h
    · cases h
    · obtain ⟨rfl, -⟩ := Prod.mk.inj (Option.some.inj h)
      exact ⟨rfl, rfl, rfl⟩
  | returned => cases h
  | _ =>
    obtain ⟨rfl, -⟩ := Prod.mk.inj (Option.some.inj h)
    exact ⟨rfl, rfl, rfl⟩

/-- What a step of the worker makes of the queue. -/
inductive Did (q : Queue) : Step → Queue → Prop
  | close : Did q .close { q with m_bQuit := true }
  | fails {errno : Errno} (hw : q.worker = .vscp_sem_wait) :
      Did q (.fails errno) { q with m_bQuit := q.m_bQuit || quits errno, worker := .size false }
  | while_ (hw : q.worker = .while_) : Did q .work { q with worker := if q.m_bQuit then .ended else .doWork }
  | doWork (hw : q.worker = .doWork) : Did q .work { q with worker := .vscp_sem_wait }
  | vscp_sem_wait {n : ℕ} (hw : q.worker = .vscp_sem_wait) (h : q.m_semSendQueue = n + 1) :
      Did q .work { q with m_semSendQueue := n, worker := .size true }
  | size {token : Bool} (hw : q.worker = .size token) :
      Did q .work { q with worker := if q.m_sendList.length ≠ 0 then .lock token else .while_ }
  | lock {token : Bool} (hw : q.worker = .lock token) (h : q.m_mutexSendQueue = false) :
      Did q .work { q with m_mutexSendQueue := true, worker := .front token }
  | front {token : Bool} {p : Option vscpEvent} {l : List (Option vscpEvent)} (hw : q.worker = .front token)
      (h : q.m_sendList = p :: l) : Did q .work { q with worker := .pop_front token p }
  | pop_front {token : Bool} {p : Option vscpEvent} {l : List (Option vscpEvent)}
      (hw : q.worker = .pop_front token p) (h : q.m_sendList = p :: l) :
      Did q .work { q with m_sendList := l, taken := q.taken ++ [p], worker := .unlock p }
  | unlock {p : Option vscpEvent} (hw : q.worker = .unlock p) :
      Did q .work { q with m_mutexSendQueue := false, worker := p.elim .while_ .handle }
  | handle {pEvent : vscpEvent} (hw : q.worker = .handle pEvent) : Did q .work { q with worker := .while_ }

theorem workerThread_did {q q' : Queue} {l : List Call} {e : Step} (hi : Inv ⟨q, l⟩)
    (h : workerThread e q = some q') : Did q e q' := by
  cases e with
  | close =>
    obtain rfl := Option.some.inj h
    exact .close
  | fails errno =>
    simp only [workerThread] at h
    split at h
    · rename_i hw
      obtain rfl := Option.some.inj h
      exact .fails hw
    · cases h
  | work =>
    cases hw : q.worker with
    | while_ =>
      simp only [workerThread, hw, Option.some.injEq] at h
      exact h ▸ .while_ hw
    | doWork =>
      simp only [workerThread, hw, Option.some.injEq] at h
      exact h ▸ .doWork hw
    | vscp_sem_wait =>
      simp only [workerThread, hw] at h
      split at h
      · cases h
      · rename_i n hn
        obtain rfl := Option.some.inj h
        exact .vscp_sem_wait hw hn
    | size token =>
      simp only [workerThread, hw, Option.some.injEq] at h
      exact h ▸ .size hw
    | lock token =>
      simp only [workerThread, hw] at h
      split at h
      · cases h
      · rename_i hu
        obtain rfl := Option.some.inj h
        exact .lock hw (Bool.eq_false_iff.2 hu)
    | front token =>
      obtain ⟨p, xs, hl⟩ := List.exists_cons_of_ne_nil (hi.nonempty (by rw [hw]; rfl))
      dsimp only at hl
      simp only [workerThread, hw, hl, Option.some.injEq] at h
      exact h ▸ hl ▸ .front hw hl
    | pop_front token p =>
      obtain ⟨xs, hl⟩ := List.head?_eq_some_iff.1 (hi.top token p hw)
      dsimp only at hl
      simp only [workerThread, hw, hl, Option.some.injEq] at h
      exact h ▸ .pop_front hw hl
    | unlock p =>
      simp only [workerThread, hw, Option.some.injEq] at h
      subst h
      cases p with
      | none => exact .unlock hw
      | some ev => exact .unlock hw
    | handle ev =>
      simp only [workerThread, hw, Option.some.injEq] at h
      exact h ▸ .handle hw
    | ended => simp only [workerThread, hw, reduceCtorEq] at h
    | undefined => simp only [workerThread, hw, reduceCtorEq] at h

/-- What the worker takes it has in hand, until it handles it. -/
theorem worker_hand {q q' : Queue} {e : Step} (h : Did q e q') :
    (∃ pEvent, e = .work ∧ q.worker = .handle pEvent ∧ q'.worker = .while_ ∧ q'.taken = q.taken) ∨
      (e = .work → ∀ pEvent, q.worker ≠ .handle pEvent) ∧
        ∃ new, q'.taken.reduceOption = q.taken.reduceOption ++ new ∧ q'.worker.hand = q.worker.hand ++ new := by
  -- a step that takes nothing
  have hquiet {e' : Step} (hw : e' = .work → ∀ pEvent, q.worker ≠ .handle pEvent) (ht : q'.taken = q.taken)
      (hh : q'.worker.hand = q.worker.hand) : (e' = .work → ∀ pEvent, q.worker ≠ .handle pEvent) ∧
        ∃ new, q'.taken.reduceOption = q.taken.reduceOption ++ new ∧ q'.worker.hand = q.worker.hand ++ new :=
    ⟨hw, [], by rw [ht, List.append_nil], by rw [hh, List.append_nil]⟩
  cases h with
  | close => exact .inr (hquiet (by simp) rfl rfl)
  | fails hw => exact .inr (hquiet (by simp) rfl (by rw [hw]; rfl))
  | while_ hw =>
    refine .inr (hquiet (by simp [hw]) rfl ?_)
    rw [hw]
    cases q.m_bQuit <;> rfl
  | doWork hw => exact .inr (hquiet (by simp [hw]) rfl (by rw [hw]; rfl))
  | vscp_sem_wait hw => exact .inr (hquiet (by simp [hw]) rfl (by rw [hw]; rfl))
  | size hw =>
    refine .inr (hquiet (by simp [hw]) rfl ?_)
    rw [hw]
    dsimp only
    split <;> rfl
  | lock hw => exact .inr (hquiet (by simp [hw]) rfl (by rw [hw]; rfl))
  | front hw => exact .inr (hquiet (by simp [hw]) rfl (by rw [hw]; rfl))
  | @pop_front token p l hw hl =>
    refine .inr ⟨by simp [hw], p.toList, ?_, by rw [hw]; rfl⟩
    rw [List.reduceOption_append]
    cases p <;> rfl
  | @unlock p hw =>
    refine .inr (hquiet (by simp [hw]) rfl ?_)
    rw [hw]
    cases p <;> rfl
  | @handle pEvent hw => exact .inl ⟨pEvent, rfl, hw, rfl, rfl⟩

end VscpAutomation.SendQueue

namespace VscpAutomation.Object

open Interleave CAutomation

variable {K : Type} {E : Env K} {vscp_isSameGUID : cguid → cguid → Bool} {s₀ : CAutomation K}
  {s : State (Shared K) Call}

/-- What the worker has taken it has deleted, but for the event in its hand, and
of these it has handled the commands. -/
structure Handles (same : cguid → cguid → Bool) (s₀ : CAutomation K) (s : State (Shared K) Call) : Prop where
  m_guid : s.shared.automation.m_guid = s₀.m_guid
  taken : s.shared.deleted ++ s.shared.send.worker.hand = s.shared.send.taken.reduceOption
  handled : s.shared.handled = s.shared.deleted.filter (isCommand same s₀.m_guid)

/-- A step of the worker that handles no event. -/
theorem Handles.send {x : Shared K} {l l' : List Call} {q : SendQueue.Queue} {d : Doing} {new : List vscpEvent}
    (h : Handles vscp_isSameGUID s₀ ⟨x, l⟩) (htaken : q.taken.reduceOption = x.send.taken.reduceOption ++ new)
    (hhand : q.worker.hand = x.send.worker.hand ++ new) :
    Handles vscp_isSameGUID s₀ ⟨{ x with send := q, doing := d }, l'⟩ := by
  refine ⟨h.m_guid, ?_, h.handled⟩
  dsimp only
  rw [htaken, hhand, ← List.append_assoc]
  exact congrArg (· ++ new) h.taken

variable [Field K] [LinearOrder K] [FloorRing K]

theorem prepare_m_guid (c : Clock) (s : CAutomation K) : (s.prepare E c).1.m_guid = s.m_guid := by
  have hu : (s.unlatch c).m_guid = s.m_guid := by
    unfold unlatch
    split <;> rfl
  by_cases h : s.CalcDue c
  · rw [prepare_of_calcDue E h]
    rfl
  · rw [prepare_of_not_calcDue E h]
    cases s.firstDue c with
    | none => exact hu
    | some k => cases k <;> exact hu

theorem handles (h : (object E vscp_isSameGUID).Reachable (init s₀) s) : Handles vscp_isSameGUID s₀ s := by
  induction h with
  | init => exact ⟨rfl, rfl, rfl⟩
  | @step s s' e hs hstep ih =>
    obtain ⟨q, hq, hshared, -⟩ := send_follows hs
    have hi : SendQueue.Inv ⟨s.shared.send, q.threads⟩ := hshared ▸ SendQueue.inv_reachable hq
    obtain ⟨x, l⟩ := s
    cases e with
    | start b =>
      obtain rfl := Option.some.inj hstep
      exact ⟨ih.m_guid, ih.taken, ih.handled⟩
    | move i a =>
      obtain ⟨t, x', t', -, hm, rfl⟩ := System.step_set hstep
      rcases move_cases hm with ⟨c, c', q, rfl, rfl, rfl, -⟩ | ⟨c, c', q, rfl, rfl, rfl, hq⟩
      · exact ⟨ih.m_guid, ih.taken, ih.handled⟩
      · obtain ⟨hworker, htaken, -⟩ := SendQueue.move_worker hq
        have hnone : q.taken.reduceOption = x.send.taken.reduceOption ++ [] := by rw [htaken, List.append_nil]
        exact ih.send hnone (by rw [hworker, List.append_nil])
    | env e =>
      obtain ⟨x', he, rfl⟩ := Option.map_eq_some_iff.1 hstep
      dsimp only at hi he
      cases workerThread_did he with
      | doWork now _ _ => exact ⟨(prepare_m_guid now _).trans ih.m_guid, ih.taken, ih.handled⟩
      | eventExToReceiveQueue => exact ⟨ih.m_guid, ih.taken, ih.handled⟩
      | returns hw _ hq =>
        rcases SendQueue.worker_hand (SendQueue.workerThread_did hi hq) with ⟨pEvent, -, hw', -⟩ | ⟨-, new, htaken, hhand⟩
        · rw [hw] at hw'
          cases hw'
        · exact ih.send htaken hhand
      | @handle pEvent q hw hq =>
        rcases SendQueue.worker_hand (SendQueue.workerThread_did hi hq) with ⟨pEvent', -, hw', hw'', htaken⟩ | ⟨hn, -⟩
        · -- the event in hand is deleted
          obtain rfl := SendQueue.Worker.handle.inj (hw'.symm.trans hw)
          refine ⟨ih.m_guid, ?_, ?_⟩
          · have := ih.taken
            dsimp only at this
            rw [hw'] at this
            dsimp only [Object.handle]
            rw [htaken, hw'', ← this]
            exact List.append_nil _
          · dsimp only [Object.handle]
            rw [List.filter_append, ← ih.handled, ih.m_guid]
            dsimp only
            split
            · rename_i hc
              rw [List.filter_singleton, hc]
              rfl
            · rename_i hc
              rw [List.filter_singleton, Bool.eq_false_iff.2 hc]
              exact (List.append_nil _).symm
        · exact absurd hw (hn rfl pEvent)
      | send hw hq =>
        rcases SendQueue.worker_hand (SendQueue.workerThread_did hi hq) with ⟨pEvent, rfl, hw', -⟩ | ⟨-, new, htaken, hhand⟩
        · exact absurd hw' ((hw rfl).2 pEvent)
        · exact ih.send htaken hhand

/-- A worker that has ended handles and deletes nothing. -/
theorem ended_step {s s' : State (Shared K) Call} {e : Event Start ReceiveQueue.Choice Step}
    (h : (object E vscp_isSameGUID).step s e = some s') (hw : s.shared.send.worker = .ended) :
    s'.shared.send.worker = .ended ∧ s'.shared.deleted = s.shared.deleted ∧
      s'.shared.handled = s.shared.handled := by
  have hsend {e : SendQueue.Step} {q : SendQueue.Queue}
      (hq : SendQueue.workerThread e s.shared.send = some q) : q.worker = .ended := by
    cases e with
    | work => simp only [SendQueue.workerThread, hw, reduceCtorEq] at hq
    | fails errno => simp only [SendQueue.workerThread, hw, reduceCtorEq] at hq
    | close =>
      obtain rfl := Option.some.inj hq
      exact hw
  cases e with
  | start b =>
    obtain rfl := Option.some.inj h
    exact ⟨hw, rfl, rfl⟩
  | move i a =>
    obtain ⟨t, x', t', -, hm, rfl⟩ := System.step_set h
    rcases move_cases hm with ⟨c, c', q, -, -, rfl, -⟩ | ⟨c, c', q, -, -, rfl, hq⟩
    · exact ⟨hw, rfl, rfl⟩
    · exact ⟨(SendQueue.move_worker hq).1.trans hw, rfl, rfl⟩
  | env e =>
    obtain ⟨x', he, rfl⟩ := Option.map_eq_some_iff.1 h
    cases workerThread_did he with
    | doWork => exact ⟨hw, rfl, rfl⟩
    | eventExToReceiveQueue => exact ⟨hw, rfl, rfl⟩
    | returns _ _ hq => exact ⟨hsend hq, rfl, rfl⟩
    | handle hw' _ =>
      rw [hw] at hw'
      cases hw'
    | send _ hq => exact ⟨hsend hq, rfl, rfl⟩

/-- What the worker deleted, the event it has in hand and those still in the
list are, in order, the events written; handled are the commands for this driver
among those deleted. Once the worker has ended, what is in the list is never
deleted or handled. -/
theorem commands_handled (h : (object E vscp_isSameGUID).Reachable (init s₀) s) :
    s.shared.deleted ++ s.shared.send.worker.hand ++ s.shared.send.m_sendList.reduceOption =
        s.shared.send.written.reduceOption ∧
      s.shared.handled = s.shared.deleted.filter (isCommand vscp_isSameGUID s₀.m_guid) ∧
      (s.shared.send.worker = .ended → ∀ es s', (object E vscp_isSameGUID).run s es = some s' →
        s'.shared.deleted = s.shared.deleted ∧ s'.shared.handled = s.shared.handled) := by
  have hh := handles h
  obtain ⟨q, hq, hshared, -⟩ := send_follows h
  have hfifo := (SendQueue.inv_reachable hq).fifo
  rw [hshared] at hfifo
  refine ⟨?_, hh.handled, ?_⟩
  · rw [hh.taken, ← List.reduceOption_append, hfifo]
  · intro hw es s' hr
    refine (System.run_keeps (I := fun t : State (Shared K) Call => t.shared.send.worker = .ended ∧
      t.shared.deleted = s.shared.deleted ∧ t.shared.handled = s.shared.handled) ?_ es ⟨hw, rfl, rfl⟩ hr).2
    rintro t e t' ⟨htw, htd, hth⟩ hstep
    obtain ⟨h1, h2, h3⟩ := ended_step hstep htw
    exact ⟨h1, h2.trans htd, h3.trans hth⟩

/-- Call `i` writes a command for the driver whose id is all `b`. -/
def writeCommand (i : ℕ) (b : UInt8) : List (Event Start ReceiveQueue.Choice Step) :=
  .start (.VSCPWrite (some ⟨0, .VSCP_CLASS2_HLO, .VSCP2_TYPE_HLO_COMMAND, .replicate 16 b, []⟩)) ::
    List.replicate 4 (.move i .go)

/-- The worker goes round once, at a time when nothing is due. -/
def goRound (now : Clock) : List (Event Start ReceiveQueue.Choice Step) :=
  [.env (.send .work), .env (.doWork now)] ++ List.replicate 8 (.env (.send .work))

/-- A command for the driver, and one for another driver after it. -/
def twoCommands (now : Clock) : List (Event Start ReceiveQueue.Choice Step) :=
  writeCommand 0 0 ++ writeCommand 1 1 ++ goRound now ++ goRound now

theorem commands_handled_one :
    let E := rationalEnv fun _ => .error .parse_error
    let s₀ := opened E (march 20 12 0 (by decide)) "" (.replicate 16 0) ""
    let es := twoCommands (march 22 12 0 (by decide))
    ∃ s, (object E (· == ·)).run (init s₀) es = some s ∧ s.shared.deleted.length = 2 ∧
      s.shared.handled.length = 1 ∧
      s.shared.deleted ++ s.shared.send.worker.hand ++ s.shared.send.m_sendList.reduceOption =
          s.shared.send.written.reduceOption ∧
        s.shared.handled = s.shared.deleted.filter (isCommand (· == ·) s₀.m_guid) ∧
        (s.shared.send.worker = .ended → ∀ es s', (object E (· == ·)).run s es = some s' →
          s'.shared.deleted = s.shared.deleted ∧ s'.shared.handled = s.shared.handled) := by
  intro E s₀ es
  have hr (s) (h : (object E (· == ·)).run (init s₀) es = some s) :=
    commands_handled (System.run_reachable es .init h)
  exact ⟨_, rfl, rfl, rfl, hr _ rfl⟩

end VscpAutomation.Object
