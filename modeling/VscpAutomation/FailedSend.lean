import VscpAutomation.Operations
import VscpAutomation.Recalculation
/-!
# A send that fails

`eventExToReceiveQueue` comes last in `doWork`, after the latch is set or the
kind is put off by 24h. An event that cannot be converted is reported to the
caller and not tried again (`failed_send_not_retried`).
-/

namespace VscpAutomation.FailedSend

open CAutomation

/-! ## The failing call -/

section
variable {K : Type} (E : Env K)

theorem eventExToReceiveQueue_false_iff {ex : vscpEventEx} {s : CAutomation K} :
    (s.eventExToReceiveQueue E ex).1 = false ↔ E.vscp_convertEventExToEvent ex = none := by
  unfold eventExToReceiveQueue
  cases E.vscp_convertEventExToEvent ex with
  | none => simp
  | some pev => cases hf : E.vscp_doLevel2Filter pev s.m_vscpfilter <;> simp [hf]

theorem eventExToReceiveQueue_failed {ex : vscpEventEx} (h : E.vscp_convertEventExToEvent ex = none)
    (s : CAutomation K) : s.eventExToReceiveQueue E ex = (false, s) := by
  unfold eventExToReceiveQueue
  rw [h]

theorem sent_stored (j : Json K) (s : CAutomation K) (k : Kind) : (stored j s).sent k = s.sent k := by
  cases k <;> rfl

theorem sent_doLoadConfig [Field K] (content : String) (s : CAutomation K) (k : Kind) :
    (s.doLoadConfig E content).state.sent k = s.sent k := by
  rcases doLoadConfig_state E content s with h | ⟨j, h⟩
  · rw [h]
  · rw [h, sent_stored]

end

variable {K : Type} [Field K] [LinearOrder K] [FloorRing K] (E : Env K)

/-- The call hands over `ex`, and `eventExToReceiveQueue` returns false. -/
structure Fails (c : Clock) (s : CAutomation K) (ex : vscpEventEx) : Prop where
  handed : .handed c ex ∈ (s.doWork E c).log
  failed : (eventExToReceiveQueue E ex (s.doWork E c).state).1 = false

/-- What a failing call does: all but the send. -/
theorem fails_cases {c : Clock} {s : CAutomation K} {ex : vscpEventEx} (h : Fails E c s ex) :
    (s.CalcDue c ∧ ex = s.newCalculation E c ∧
      (s.doWork E c).state = { s.doCalc E c with m_bCalulationHasBeenDone := true } ∧
      (s.doWork E c).ret = false) ∨
    ∃ k, ¬ s.CalcDue c ∧ s.firstDue c = some k ∧ ex = s.information E c k ∧
      (s.doWork E c).state = (s.unlatch c).reschedule E c k ∧ (s.doWork E c).ret = false := by
  obtain ⟨hmem, hfail⟩ := h
  have hnone := (eventExToReceiveQueue_false_iff E).1 hfail
  by_cases hc : s.CalcDue c
  · rw [doWork_of_calcDue E hc] at hmem ⊢
    have hex : ex = s.newCalculation E c := by simpa using hmem
    subst hex
    dsimp only
    rw [eventExToReceiveQueue_failed E hnone]
    exact .inl ⟨hc, rfl, rfl, rfl⟩
  · rw [doWork_of_not_calcDue E hc] at hmem ⊢
    cases hk : s.firstDue c with
    | none =>
      rw [hk] at hmem
      cases hmem
    | some k =>
      rw [hk] at hmem
      unfold deliver at hmem ⊢
      dsimp only at hmem ⊢
      rw [reschedule_information, unlatch_information] at hmem ⊢
      have hex : ex = s.information E c k := by simpa using hmem
      subst hex
      rw [eventExToReceiveQueue_failed E hnone]
      exact .inr ⟨k, hc, rfl, rfl, rfl, rfl⟩

/-! ## The calls after it -/

section
variable {c : Clock} {k : Kind} {d : Day} (hd : c.date ≠ d)
include hd

/-- A kind that is scheduled for another day is not handed over in this minute,
and stays scheduled for that day: the latch is set if the minute is in hour 0. -/
theorem put_off_step {x : Clock} (hx : x.toMinute = c.toMinute) {s : CAutomation K}
    (hk : (s.time k).OnDate d) (hl : c.hour = 0 → s.m_bCalulationHasBeenDone = true) :
    ((s.doWork E x).state.time k).OnDate d ∧
      (c.hour = 0 → (s.doWork E x).state.m_bCalulationHasBeenDone = true) ∧
      (s.doWork E x).log.filterMap (Entry.handedAt k.vscp_type) = [] := by
  simp only [Clock.toMinute, EmbeddingLike.apply_eq_iff_eq, Prod.mk.injEq] at hx
  obtain ⟨hdate, hhour, -⟩ := hx
  have hlatch : c.hour = 0 → (s.doWork E x).state.m_bCalulationHasBeenDone = true := by
    intro h0
    rw [latch_doWork, hhour, h0]
    rfl
  have hw := doWork_did E x s
  generalize s.doWork E x = w at hw hlatch ⊢
  cases hw with
  | calculated h =>
    have := h.1
    rw [hl (hhour.symm.trans h.2)] at this
    cases this
  | sent _ j hj l n r =>
    -- what is due is on this day, so it is another kind
    have hne : k ≠ j := by
      rintro rfl
      exact hd (hdate.symm.trans (vscpdatetime.onDate_unique (firstDue_some hj).1 hk))
    refine ⟨?_, hlatch, by rw [handed_information, if_neg hne]⟩
    change (((s.unlatch x).reschedule E x j).time k).OnDate d
    rwa [reschedule_time, if_neg hne, unlatch_time]
  | idle =>
    refine ⟨?_, hlatch, rfl⟩
    rwa [unlatch_time]

theorem put_off (cs : List Clock) (hcs : ∀ x ∈ cs, x.toMinute = c.toMinute) (s : CAutomation K)
    (hk : (s.time k).OnDate d) (hl : c.hour = 0 → s.m_bCalulationHasBeenDone = true) :
    (Runs.run (workStep E) s cs).2.filterMap (Entry.handedAt k.vscp_type) = [] := by
  induction cs generalizing s with
  | nil => rfl
  | cons x cs ih =>
    obtain ⟨hk', hl', hlog⟩ := put_off_step E hd (hcs x List.mem_cons_self) hk hl
    simp only [Runs.run, workStep, List.filterMap_append]
    rw [hlog, List.nil_append]
    exact ih (fun y hy => hcs y (List.mem_cons_of_mem _ hy)) _ hk' hl'

end

/-- While the latch is set and the hour is 0, nothing is calculated. -/
theorem latched (cs : List Clock) (hcs : ∀ x ∈ cs, x.hour = 0) (s : CAutomation K)
    (hl : s.m_bCalulationHasBeenDone = true) :
    (Runs.run (workStep E) s cs).2.filterMap (Entry.handedAt .VSCP2_TYPE_VSCPD_NEW_CALCULATION) = [] := by
  rw [(Recalculation.calculations E s cs).2, hl]
  apply Blocks.heads_true
  intro x hx
  exact decide_eq_true (hcs x hx)

/-! ## The sent times of a run -/

/-- A call leaves a sent time as it is, or sets it to the reading at which it
handed over an event of the kind. -/
theorem sent_step (s : CAutomation K) (op : Operation K) (k : Kind) :
    (opStep E s op).1.sent k =
      (((opStep E s op).2.filterMap (Trace.handedAt k.vscp_type)).getLast?.map Clock.now).getD (s.sent k) := by
  cases op with
  | open_ path guid content created =>
    change (s.open_ E path guid content created).state.sent k = s.sent k
    rw [open_loads, sent_doLoadConfig]
    cases k <;> rfl
  | doLoadConfig content => exact sent_doLoadConfig E content s k
  | doWork c =>
    change (s.doWork E c).state.sent k = ((((s.doWork E c).log.map Trace.did).filterMap
      (Trace.handedAt k.vscp_type)).getLast?.map Clock.now).getD (s.sent k)
    have hmap : (Trace.handedAt k.vscp_type ∘ Trace.did : Entry K → Option Clock) =
        Entry.handedAt k.vscp_type := rfl
    rw [List.filterMap_map, hmap]
    have hw := doWork_did E c s
    generalize s.doWork E c = w at hw ⊢
    cases hw with
    | calculated => cases k <;> rfl
    | sent _ j hj l n r =>
      rw [handed_information]
      change ((s.unlatch c).reschedule E c j).sent k = _
      rw [reschedule_sent, unlatch_sent]
      split <;> rfl
    | idle => exact unlatch_sent c s k
  | _ => cases k <;> rfl

/-- After any calls a sent time is the reading of the last hand-over. -/
theorem sent_run (start : Clock) (ops : List (Operation K)) (k : Kind) :
    (opRun E start ops).1.sent k =
      (((opRun E start ops).2.filterMap (Trace.handedAt k.vscp_type)).getLast?.map Clock.now).getD
        E.dateTimeZero := by
  induction ops using List.reverseRecOn with
  | nil => cases k <;> rfl
  | append_singleton ops op ih =>
    rw [opRun_concat, sent_step, ih, List.filterMap_append, List.getLast?_append]
    cases ((opStep E (opRun E start ops).1 op).2.filterMap (Trace.handedAt k.vscp_type)).getLast? <;> rfl

/-! ## The event is not tried again -/

/-- What a failing call leaves, where `+= SPAN24` leads to the next day. -/
structure NotRetried (c : Clock) (s : CAutomation K) (ex : vscpEventEx) : Prop where
  ret : (s.doWork E c).ret = false
  m_receiveList : (s.doWork E c).state.m_receiveList = s.m_receiveList
  m_semReceiveQueue : (s.doWork E c).state.m_semReceiveQueue = s.m_semReceiveQueue
  /-- The kind is put off by 24h. -/
  time : ∀ k : Kind, ex.vscp_type = k.vscp_type →
    (s.doWork E c).state.time k = E.addSeconds (s.time k) SPAN24
  other : ∀ k : Kind, ex.vscp_type = k.vscp_type → ∀ j, j ≠ k →
    (s.doWork E c).state.time j = s.time j ∧ (s.doWork E c).state.sent j = s.sent j
  /-- It is not handed over again in this minute. -/
  minute : ∀ k : Kind, ex.vscp_type = k.vscp_type → ∀ cs, (∀ x ∈ cs, x.toMinute = c.toMinute) →
    (Runs.run (workStep E) (s.doWork E c).state cs).2.filterMap (Entry.handedAt k.vscp_type) = []
  /-- The calculation stands. -/
  latch : ex.vscp_type = .VSCP2_TYPE_VSCPD_NEW_CALCULATION →
    (s.doWork E c).state = { s.doCalc E c with m_bCalulationHasBeenDone := true }
  /-- NEW_CALCULATION is not handed over again while the hour is 0. -/
  hour : ex.vscp_type = .VSCP2_TYPE_VSCPD_NEW_CALCULATION → ∀ cs, (∀ x ∈ cs, x.hour = 0) →
    (Runs.run (workStep E) (s.doWork E c).state cs).2.filterMap
      (Entry.handedAt .VSCP2_TYPE_VSCPD_NEW_CALCULATION) = []

theorem kind_ne_newCalculation (k : Kind) : VscpType.VSCP2_TYPE_VSCPD_NEW_CALCULATION ≠ k.vscp_type := by
  cases k <;> simp [Kind.vscp_type]

theorem notRetried (hspan : ∀ t d, vscpdatetime.OnDate t d → (E.addSeconds t SPAN24).OnDate d.next)
    {c : Clock} {s : CAutomation K} {ex : vscpEventEx} (h : Fails E c s ex) : NotRetried E c s ex := by
  rcases fails_cases E h with ⟨-, rfl, hs, hr⟩ | ⟨j, hc, hj, rfl, hs, hr⟩
  · -- a calculation
    have habsurd {P : Prop} (k : Kind) (hk : (s.newCalculation E c).vscp_type = k.vscp_type) : P :=
      absurd hk (kind_ne_newCalculation k)
    refine ⟨hr, by rw [hs]; rfl, by rw [hs]; rfl, fun k => habsurd k, fun k => habsurd k, fun k => habsurd k,
      fun _ => hs, fun _ cs hcs => ?_⟩
    exact latched E cs hcs _ (by rw [hs])
  · -- a kind
    have hkind {k : Kind} (hk : (s.information E c j).vscp_type = k.vscp_type) : j = k :=
      Kind.vscp_type_injective hk
    have habsurd {P : Prop} (hk : (s.information E c j).vscp_type = .VSCP2_TYPE_VSCPD_NEW_CALCULATION) : P :=
      absurd hk.symm (kind_ne_newCalculation j)
    have hday := (firstDue_some hj).1
    refine ⟨hr, by rw [hs]; simp, by rw [hs]; simp, ?_, ?_, ?_,
      habsurd, habsurd⟩
    · intro k hk
      obtain rfl := hkind hk
      rw [hs, reschedule_time, if_pos rfl, unlatch_time]
    · intro k hk i hi
      obtain rfl := hkind hk
      rw [hs, reschedule_time, if_neg hi, unlatch_time, reschedule_sent, if_neg hi, unlatch_sent]
      exact ⟨rfl, rfl⟩
    · intro k hk cs hcs
      obtain rfl := hkind hk
      refine put_off E (Calendar.Date.lt_next c.date).ne cs hcs _ ?_ ?_
      · rw [hs, reschedule_time, if_pos rfl, unlatch_time]
        exact hspan _ _ hday
      · intro h0
        rw [latch_doWork, h0]
        rfl

/-- A failed send is reported, costs the event its turn and leaves the queue
and the other kinds alone. A sent time is set for events handed over only. -/
theorem failed_send_not_retried
    (hspan : ∀ t d, vscpdatetime.OnDate t d → (E.addSeconds t SPAN24).OnDate d.next) :
    (∀ c (s : CAutomation K) ex, Fails E c s ex → NotRetried E c s ex) ∧
      ∀ start (ops : List (Operation K)) (k : Kind), (opRun E start ops).1.sent k ≠ E.dateTimeZero →
        ∃ c ex, .did (.handed c ex) ∈ (opRun E start ops).2 ∧ ex.vscp_type = k.vscp_type := by
  refine ⟨fun c s ex h => notRetried E hspan h, fun start ops k hne => ?_⟩
  rw [sent_run] at hne
  cases hlast : ((opRun E start ops).2.filterMap (Trace.handedAt k.vscp_type)).getLast? with
  | none =>
    rw [hlast] at hne
    exact absurd rfl hne
  | some c =>
    obtain ⟨t, ht, hc⟩ := List.mem_filterMap.1 (List.mem_of_getLast? hlast)
    match t, hc with
    | .did (.handed c' ex), hc =>
      simp only [Trace.handedAt, Entry.handedAt, Option.ite_none_right_eq_some] at hc
      exact ⟨c', ex, ht, hc.1⟩

/-! ## A sunrise that is lost -/

/-- No event converts. -/
def failingEnv : Env ℚ :=
  { rationalEnv fun _ => .error .parse_error with vscp_convertEventExToEvent := fun _ => none }

/-- Sunrise is due at 06:01. -/
theorem sunrise_fails :
    let c := march 20 6 1 (by decide)
    let s := new failingEnv (march 20 5 30 (by decide))
    Fails failingEnv c s (s.information failingEnv c .sunrise) := by
  intro c s
  have hc : ¬ s.CalcDue c := fun h => absurd h.2 (by decide)
  have hk : s.firstDue c = some .sunrise := by decide +kernel
  refine ⟨?_, (eventExToReceiveQueue_false_iff _).2 rfl⟩
  rw [doWork_of_not_calcDue _ hc, hk]
  exact List.mem_singleton_self _

/-- What a failed send leaves if the event stays due. -/
structure LeavesDue (c : Clock) (s : CAutomation K) (ex : vscpEventEx) : Prop where
  kind : ∀ k : Kind, ex.vscp_type = k.vscp_type →
    (s.doWork E c).state.time k = s.time k ∧ (s.doWork E c).state.sent k = s.sent k
  latch : ex.vscp_type = .VSCP2_TYPE_VSCPD_NEW_CALCULATION →
    (s.doWork E c).state.m_bCalulationHasBeenDone = false

/-- The sunrise of 06:01 is put off to the next day. -/
theorem failed_send_lost :
    ¬ ∀ c (s : CAutomation ℚ) ex, Fails failingEnv c s ex → LeavesDue failingEnv c s ex := by
  intro h
  have htime := ((h _ _ _ sunrise_fails).kind .sunrise rfl).1
  revert htime
  decide +kernel

/-- At 06:01 and for the rest of that minute, after a start at 05:30. -/
theorem failed_send_not_retried_sunrise :
    let c := march 20 6 1 (by decide)
    let s := new failingEnv (march 20 5 30 (by decide))
    NotRetried failingEnv c s (s.information failingEnv c .sunrise) ∧
      ∃ c' ex, .did (.handed c' ex) ∈ (opRun failingEnv (march 20 5 30 (by decide)) [.doWork c]).2 ∧
        ex.vscp_type = Kind.sunrise.vscp_type := by
  intro c s
  obtain ⟨hfail, hsent⟩ := failed_send_not_retried failingEnv
    (rationalEnv_lawful fun _ => .error .parse_error).addSpan_onDate
  exact ⟨hfail c s _ sunrise_fails, hsent _ [.doWork c] .sunrise (by decide +kernel)⟩

end VscpAutomation.FailedSend
