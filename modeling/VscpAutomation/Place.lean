import VscpAutomation.Operations
/-!
# The place of the schedule

Setting the place does not calculate, and neither does reading a
configuration. The schedule belongs to the place where the last calculation
was made (`schedule_follows_calculation`), which is the current one as long as
nobody has moved since.
-/

namespace VscpAutomation.Place

open CAutomation

section
variable {K : Type}

/-- How often a kind was handed over in a trace. -/
def timesSent (k : Kind) (trace : List (Trace K)) : ℕ :=
  (trace.filterMap (Trace.handedAt k.vscp_type)).length

/-- What the schedule depends on is the same in both. -/
structure SameSchedule (s s' : CAutomation K) : Prop where
  time : ∀ k, s'.time k = s.time k
  m_lastCalculation : s'.m_lastCalculation = s.m_lastCalculation
  m_latitude : s'.m_latitude = s.m_latitude
  m_longitude : s'.m_longitude = s.m_longitude

theorem sameSchedule_refl (s : CAutomation K) : SameSchedule s s := ⟨fun _ => rfl, rfl, rfl, rfl⟩

theorem sameSchedule_stored (j : Json K) (s : CAutomation K) : SameSchedule s (stored j s) :=
  ⟨fun k => by cases k <;> rfl, rfl, rfl, rfl⟩

/-- Reading a configuration leaves the schedule and the place alone. -/
theorem sameSchedule_doLoadConfig [Field K] (E : Env K) (content : String) (s : CAutomation K) :
    SameSchedule s (s.doLoadConfig E content).state := by
  rcases doLoadConfig_state E content s with h | ⟨j, h⟩
  · rw [h]; exact sameSchedule_refl s
  · rw [h]; exact sameSchedule_stored j s

theorem sameSchedule_open [Field K] (E : Env K) (path : String) (guid : cguid) (content : String)
    (created : Bool) (s : CAutomation K) : SameSchedule s (s.open_ E path guid content created).state := by
  rw [open_loads]
  obtain ⟨h1, h2, h3, h4⟩ := sameSchedule_doLoadConfig E content { s with m_guid := guid, m_path := path }
  exact ⟨fun k => (h1 k).trans (by cases k <;> rfl), h2, h3, h4⟩

end

variable {K : Type} [Field K] [LinearOrder K] [FloorRing K] (E : Env K)

/-- The schedule is that of the last calculation in the trace, a day further on
for each time a kind was sent since. Without a move since, it was made at the
current place. -/
def Follows (s : CAutomation K) (trace : List (Trace K)) : Prop :=
  ∃ pre lat lon c post, trace = pre ++ .did (.calculated lat lon c) :: post ∧
    post.filterMap Trace.calculation = [] ∧ s.m_lastCalculation = c.now ∧
    (∀ k, s.time k = (fun t => E.addSeconds t SPAN24)^[timesSent k post] (scheduled E lat lon c k)) ∧
    ((∀ t ∈ post, t.isMoved = false) → s.m_latitude = lat ∧ s.m_longitude = lon)

theorem follows_same {s s' : CAutomation K} {trace : List (Trace K)} (hf : Follows E s trace)
    (hs : SameSchedule s s') : Follows E s' (trace ++ []) := by
  obtain ⟨pre, lat, lon, c, post, ht, hp, hl, hk, hm⟩ := hf
  rw [List.append_nil]
  refine ⟨pre, lat, lon, c, post, ht, hp, hs.m_lastCalculation.trans hl, fun k => (hs.time k).trans (hk k),
    fun h => ?_⟩
  rw [hs.m_latitude, hs.m_longitude]
  exact hm h

/-- Setting the place is noted in the trace. -/
theorem follows_moved {s s' : CAutomation K} {trace : List (Trace K)} (hf : Follows E s trace)
    (ht : ∀ k, s'.time k = s.time k) (hl : s'.m_lastCalculation = s.m_lastCalculation) :
    Follows E s' (trace ++ [.moved]) := by
  obtain ⟨pre, lat, lon, c, post, htr, hp, hlc, hk, -⟩ := hf
  refine ⟨pre, lat, lon, c, post ++ [.moved], by simp [htr], ?_, hl.trans hlc, ?_, ?_⟩
  · rw [List.filterMap_append, hp]; rfl
  · intro k
    rw [ht k, hk k, timesSent, timesSent, List.filterMap_append, List.length_append]
    rfl
  · intro h
    have := h .moved (by simp)
    cases this

theorem follows_doCalc (c : Clock) (s : CAutomation K) (trace : List (Trace K)) :
    Follows E (s.doCalc E c) (trace ++ [.did (.calculated s.m_latitude s.m_longitude c)]) :=
  ⟨trace, s.m_latitude, s.m_longitude, c, [], rfl, rfl, rfl, fun k => doCalc_time E c s k,
    fun _ => ⟨rfl, rfl⟩⟩

theorem follows_doWork {s : CAutomation K} {trace : List (Trace K)} (c : Clock) (hf : Follows E s trace) :
    Follows E (s.doWork E c).state (trace ++ (s.doWork E c).log.map .did) := by
  have hd := doWork_did E c s
  generalize s.doWork E c = w at hd ⊢
  cases hd with
  | calculated h l n r =>
    refine ⟨trace, s.m_latitude, s.m_longitude, c, [.did (.handed c (s.newCalculation E c))], rfl, rfl, rfl,
      ?_, fun _ => ⟨rfl, rfl⟩⟩
    intro k
    have h0 : timesSent k [.did (.handed (K := K) c (s.newCalculation E c))] = 0 := by cases k <;> rfl
    rw [h0]
    exact doCalc_time E c s k
  | sent h k hk l n r =>
    obtain ⟨pre, lat, lon, c', post, ht, hp, hl, htime, hm⟩ := hf
    refine ⟨pre, lat, lon, c', post ++ [.did (.handed c (s.information E c k))], by simp [ht], ?_, ?_,
      ?_, ?_⟩
    · rw [List.filterMap_append, hp]; rfl
    · rw [← hl]
      exact (reschedule_m_lastCalculation E c _ k).trans (unlatch_m_lastCalculation c s)
    · intro j
      change ((s.unlatch c).reschedule E c k).time j = _
      -- one day on for the kind that was sent
      have hcount : timesSent j (post ++ [.did (.handed c (s.information E c k))]) =
          timesSent j post + if j = k then 1 else 0 := by
        rw [timesSent, List.filterMap_append, List.length_append]
        cases j <;> cases k <;> rfl
      rw [reschedule_time, unlatch_time, unlatch_time, hcount]
      by_cases hjk : j = k
      · subst hjk
        rw [if_pos rfl, if_pos rfl, Function.iterate_succ_apply', ← htime]
      · rw [if_neg hjk, if_neg hjk, htime]
        rfl
    · intro hn
      have := hm fun t ht => hn t (List.mem_append_left _ ht)
      exact ⟨by simpa using this.1, by simpa using this.2⟩
  | idle h hn =>
    refine follows_same E hf ⟨fun k => unlatch_time c s k, unlatch_m_lastCalculation c s,
      unlatch_m_latitude c s, unlatch_m_longitude c s⟩

/-- Every call keeps it so. -/
theorem follows_step {s : CAutomation K} {trace : List (Trace K)} (op : Operation K) (hf : Follows E s trace) :
    Follows E (opStep E s op).1 (trace ++ (opStep E s op).2) := by
  cases op with
  | open_ path guid content created => exact follows_same E hf (sameSchedule_open E _ _ _ _ s)
  | doLoadConfig content => exact follows_same E hf (sameSchedule_doLoadConfig E _ s)
  | doCalc c => exact follows_doCalc E c s trace
  | doWork c => exact follows_doWork E c hf
  | setLongitude l => exact follows_moved E hf (fun k => by cases k <;> rfl) rfl
  | setLatitude l => exact follows_moved E hf (fun k => by cases k <;> rfl) rfl
  | _ => exact follows_same E hf ⟨fun k => by cases k <;> rfl, rfl, rfl, rfl⟩

/-- After any calls the schedule is that of the last calculation: of its place
and its reading, a day further on for each time the kind was sent since. Where
nobody has set the place since, it is the current place. -/
theorem schedule_follows_calculation (start : Clock) (ops : List (Operation K)) :
    ∃ pre lat lon c post,
      (opRun E start ops).2 = pre ++ .did (.calculated lat lon c) :: post ∧
      post.filterMap Trace.calculation = [] ∧ (opRun E start ops).1.m_lastCalculation = c.now ∧
      (∀ k, (opRun E start ops).1.time k =
        (fun t => E.addSeconds t SPAN24)^[timesSent k post] (scheduled E lat lon c k)) ∧
      ((∀ t ∈ post, t.isMoved = false) →
        (opRun E start ops).1.m_latitude = lat ∧ (opRun E start ops).1.m_longitude = lon) := by
  change Follows E _ _
  induction ops using List.reverseRecOn with
  | nil =>
    refine ⟨[], _, _, start, [], rfl, rfl, rfl, ?_, fun _ => ⟨rfl, rfl⟩⟩
    intro k
    exact doCalc_time E start _ k
  | append_singleton ops op ih =>
    rw [opRun_concat]
    exact follows_step E op ih

/-- The schedule is that of the current place, on the reading of the last
calculation, a day further on for each time a kind was sent since. -/
def OfCurrentPlace (start : Clock) (ops : List (Operation K)) : Prop :=
  ∀ pre lat lon c post, (opRun E start ops).2 = pre ++ .did (.calculated lat lon c) :: post →
    post.filterMap Trace.calculation = [] → ∀ k, (opRun E start ops).1.time k =
      (fun t => E.addSeconds t SPAN24)^[timesSent k post]
        (scheduled E (opRun E start ops).1.m_latitude (opRun E start ops).1.m_longitude c k)

/-- Opened and moved to Greenwich. -/
theorem moved_schedule :
    ¬ OfCurrentPlace (rationalEnv fun _ => .ok (.object [], "")) (march 20 12 0 (by decide))
      [.open_ "" (.replicate 16 0) "" true, .setLongitude 0] := by
  intro h
  have hk := h [] _ _ _ _ rfl rfl .sunrise
  revert hk
  decide +kernel

end VscpAutomation.Place
