import VscpAutomation.Driver
import VscpAutomation.Lib.Runs
/-!
# What a doWork call does

`doWork_did` sums up `doWork` in three cases: it calculates, it sends the first
kind that is due, or it does nothing.
-/

namespace VscpAutomation

open vscpdatetime (sameMinute)

namespace CAutomation

variable {K : Type}

/-- The daily recalculation is due. -/
def CalcDue (c : Clock) (s : CAutomation K) : Prop := s.m_bCalulationHasBeenDone = false ∧ c.hour = 0

/-- The first kind, in `doWork`'s order, whose minute it is. -/
def firstDue (c : Clock) (s : CAutomation K) : Option Kind :=
  Kind.order.find? fun k => sameMinute c.now (s.time k)

theorem firstDue_some {c : Clock} {s : CAutomation K} {k : Kind} (h : s.firstDue c = some k) :
    (s.time k).OnDate c.date ∧ (s.time k).hour = c.hour ∧ (s.time k).minute = c.minute := by
  have hk : sameMinute c.now (s.time k) = true := by simpa using List.find?_some h
  exact vscpdatetime.sameMinute_iff.1 hk

/-- The latch is cleared outside hour 0. -/
def unlatch (c : Clock) (s : CAutomation K) : CAutomation K :=
  if c.hour = 0 then s else { s with m_bCalulationHasBeenDone := false }

/-! ## Fields -/

section
variable (E : Env K) (c : Clock) (s : CAutomation K) (k j : Kind)

@[simp]
theorem unlatch_time : (s.unlatch c).time k = s.time k := by
  unfold unlatch; split <;> rfl

@[simp]
theorem unlatch_m_latitude : (s.unlatch c).m_latitude = s.m_latitude := by
  unfold unlatch; split <;> rfl

@[simp]
theorem unlatch_m_longitude : (s.unlatch c).m_longitude = s.m_longitude := by
  unfold unlatch; split <;> rfl

@[simp]
theorem unlatch_m_lastCalculation : (s.unlatch c).m_lastCalculation = s.m_lastCalculation := by
  unfold unlatch; split <;> rfl

@[simp]
theorem unlatch_sent : (s.unlatch c).sent k = s.sent k := by
  unfold unlatch; split <;> rfl

@[simp]
theorem unlatch_m_receiveList : (s.unlatch c).m_receiveList = s.m_receiveList := by
  unfold unlatch; split <;> rfl

@[simp]
theorem unlatch_m_semReceiveQueue : (s.unlatch c).m_semReceiveQueue = s.m_semReceiveQueue := by
  unfold unlatch; split <;> rfl

theorem unlatch_information : (s.unlatch c).information E c k = s.information E c k := by
  unfold unlatch; split <;> rfl

@[simp]
theorem reschedule_time :
    (s.reschedule E c k).time j = if j = k then E.addSeconds (s.time k) SPAN24 else s.time j := by
  cases k <;> cases j <;> rfl

@[simp]
theorem reschedule_sent : (s.reschedule E c k).sent j = if j = k then c.now else s.sent j := by
  cases k <;> cases j <;> rfl

@[simp]
theorem reschedule_m_receiveList : (s.reschedule E c k).m_receiveList = s.m_receiveList := by
  cases k <;> rfl

@[simp]
theorem reschedule_m_semReceiveQueue : (s.reschedule E c k).m_semReceiveQueue = s.m_semReceiveQueue := by
  cases k <;> rfl

@[simp]
theorem reschedule_latch : (s.reschedule E c k).m_bCalulationHasBeenDone = s.m_bCalulationHasBeenDone := by
  cases k <;> rfl

@[simp]
theorem reschedule_m_latitude : (s.reschedule E c k).m_latitude = s.m_latitude := by
  cases k <;> rfl

@[simp]
theorem reschedule_m_longitude : (s.reschedule E c k).m_longitude = s.m_longitude := by
  cases k <;> rfl

@[simp]
theorem reschedule_m_lastCalculation : (s.reschedule E c k).m_lastCalculation = s.m_lastCalculation := by
  cases k <;> rfl

theorem reschedule_information : (s.reschedule E c k).information E c j = s.information E c j := by
  cases k <;> rfl

end

/-! ## The three cases -/

section
variable [Field K] [LinearOrder K] [FloorRing K] (E : Env K)

/-- `w` is what `doWork` does at `c` in `s`. `l` and `n` are the receive queue
and its count, `r` is the answer of `eventExToReceiveQueue`. -/
inductive Did (c : Clock) (s : CAutomation K) : Work K → Prop
  | calculated (h : s.CalcDue c) (l : List vscpEvent) (n : ℕ) (r : Bool) :
      Did c s
        { state := { s.doCalc E c with
            m_bCalulationHasBeenDone := true, m_receiveList := l, m_semReceiveQueue := n }
          ret := r
          log := [.calculated s.m_latitude s.m_longitude c, .handed c (s.newCalculation E c)] }
  | sent (h : ¬ s.CalcDue c) (k : Kind) (hk : s.firstDue c = some k) (l : List vscpEvent) (n : ℕ)
      (r : Bool) :
      Did c s
        { state := { (s.unlatch c).reschedule E c k with m_receiveList := l, m_semReceiveQueue := n }
          ret := r
          log := [.handed c (s.information E c k)] }
  | idle (h : ¬ s.CalcDue c) (hk : s.firstDue c = none) : Did c s ⟨s.unlatch c, false, []⟩

theorem zero_beq_hour (c : Clock) : (0 == c.now.hour) = decide (c.hour = 0) := by
  rw [Bool.eq_iff_iff, beq_iff_eq, decide_eq_true_iff]
  simp only [Clock.now]
  constructor
  · intro h; exact Fin.ext (by simpa using (Int.natCast_eq_zero.1 h.symm))
  · intro h; simp [h]

theorem doWork_of_calcDue {c : Clock} {s : CAutomation K} (h : s.CalcDue c) :
    s.doWork E c =
      let r := eventExToReceiveQueue E (s.newCalculation E c)
        { s.doCalc E c with m_bCalulationHasBeenDone := true }
      ⟨r.2, r.1, [.calculated s.m_latitude s.m_longitude c, .handed c (s.newCalculation E c)]⟩ := by
  unfold doWork
  simp only [zero_beq_hour]
  rw [if_pos (by simp [h.1, h.2])]
  rfl

/-- The five tests, in order, are the search of `firstDue`. -/
theorem doWork_of_not_calcDue {c : Clock} {s : CAutomation K} (h : ¬ s.CalcDue c) :
    s.doWork E c =
      match s.firstDue c with
      | some k => (s.unlatch c).deliver E c k
      | none => ⟨s.unlatch c, false, []⟩ := by
  have hu : (if (!decide (c.hour = 0)) = true then { s with m_bCalulationHasBeenDone := false } else s) =
      s.unlatch c := by
    unfold unlatch; by_cases hc : c.hour = 0 <;> simp [hc]
  have ht : ∀ k, sameMinute c.now ((s.unlatch c).time k) = sameMinute c.now (s.time k) := by simp
  have h1 := ht .sunrise
  have h2 := ht .civilTwilightSunrise
  have h3 := ht .sunset
  have h4 := ht .civilTwilightSunset
  have h5 := ht .noon
  simp only [time] at h1 h2 h3 h4 h5
  unfold doWork
  simp only [bne, zero_beq_hour]
  rw [if_neg (by simpa [CalcDue] using h), hu, h1, h2, h3, h4, h5]
  simp only [firstDue, Kind.order, List.find?_cons, List.find?_nil, time]
  -- one test after the other, on both sides
  cases sameMinute c.now s.m_SunriseTime with
  | true => rfl
  | false =>
    cases sameMinute c.now s.m_civilTwilightSunriseTime with
    | true => rfl
    | false =>
      cases sameMinute c.now s.m_SunsetTime with
      | true => rfl
      | false =>
        cases sameMinute c.now s.m_civilTwilightSunsetTime with
        | true => rfl
        | false => cases sameMinute c.now s.m_noonTime <;> rfl

/-- `doWork` in three cases. -/
theorem doWork_did (c : Clock) (s : CAutomation K) : Did E c s (s.doWork E c) := by
  by_cases h : s.CalcDue c
  · rw [doWork_of_calcDue E h]
    obtain ⟨l, n, he⟩ := eventExToReceiveQueue_frame E (s.newCalculation E c)
      { s.doCalc E c with m_bCalulationHasBeenDone := true }
    dsimp only
    rw [he]
    exact .calculated h l n _
  · rw [doWork_of_not_calcDue E h]
    cases hk : s.firstDue c with
    | none => exact .idle h hk
    | some k =>
      unfold deliver
      dsimp only
      rw [reschedule_information, unlatch_information]
      obtain ⟨l, n, he⟩ := eventExToReceiveQueue_frame E (s.information E c k)
        ((s.unlatch c).reschedule E c k)
      rw [he]
      exact .sent h k hk l n _

/-- After a call the latch says whether the call was in hour 0. -/
theorem latch_doWork (c : Clock) (s : CAutomation K) :
    (s.doWork E c).state.m_bCalulationHasBeenDone = decide (c.hour = 0) := by
  have hd := doWork_did E c s
  generalize s.doWork E c = w at hd ⊢
  have hu (h : ¬ s.CalcDue c) : (s.unlatch c).m_bCalulationHasBeenDone = decide (c.hour = 0) := by
    unfold unlatch
    by_cases hc : c.hour = 0
    · have : s.m_bCalulationHasBeenDone ≠ false := fun hl => h ⟨hl, hc⟩
      simpa [hc] using this
    · simp [hc]
  cases hd with
  | calculated h => simp [h.2]
  | sent h k => simp [hu h]
  | idle h => exact hu h

/-! ## Runs of calls -/

/-- One `doWork` call, with its log. -/
def workStep (s : CAutomation K) (c : Clock) : CAutomation K × List (Entry K) :=
  ((s.doWork E c).state, (s.doWork E c).log)

/-- The constructor at `start`, then a `doWork` call at each of `cs`. -/
def workRun (start : Clock) (cs : List Clock) : CAutomation K × List (Entry K) :=
  Runs.run (workStep E) (new E start) cs

end

end CAutomation

/-! ## Reading a log -/

namespace Entry

variable {K : Type}

/-- The reading of the call. -/
def now : Entry K → Clock
  | .calculated _ _ now => now
  | .handed now _ => now

/-- The place and the reading a `doCalc` used. -/
def calculation : Entry K → Option (K × K × Clock)
  | .calculated m_latitude m_longitude now => some (m_latitude, m_longitude, now)
  | .handed _ _ => none

/-- The reading a `doCalc` used. -/
def calculatedAt : Entry K → Option Clock
  | .calculated _ _ now => some now
  | .handed _ _ => none

/-- The reading at which an event of type `t` was handed over. -/
def handedAt (t : VscpType) : Entry K → Option Clock
  | .calculated _ _ _ => none
  | .handed now ex => if ex.vscp_type = t then some now else none

theorem handedAt_now {t : VscpType} {e : Entry K} {c : Clock} (h : e.handedAt t = some c) : c = e.now := by
  cases e with
  | calculated => cases h
  | handed now ex =>
    simp only [handedAt, Option.ite_none_right_eq_some, Option.some.injEq] at h
    exact h.2.symm

end Entry

namespace CAutomation

theorem handed_information {K : Type} (E : Env K) (c : Clock) (s : CAutomation K) (j k : Kind) :
    [Entry.handed (K := K) c (s.information E c k)].filterMap (Entry.handedAt j.vscp_type) =
      if j = k then [c] else [] := by
  cases j <;> cases k <;> rfl

theorem handed_newCalculation {K : Type} (E : Env K) (c : Clock) (s : CAutomation K) (k : Kind) :
    [Entry.calculated s.m_latitude s.m_longitude c, .handed c (s.newCalculation E c)].filterMap
      (Entry.handedAt k.vscp_type) = [] := by
  cases k <;> rfl

variable {K : Type} [Field K] [LinearOrder K] [FloorRing K] (E : Env K)

theorem doWork_now (c : Clock) (s : CAutomation K) : ∀ e ∈ (s.doWork E c).log, e.now = c := by
  have hd := doWork_did E c s
  generalize s.doWork E c = w at hd ⊢
  intro e he
  cases hd with
  | calculated h l n r =>
    simp only [List.mem_cons, List.not_mem_nil, or_false] at he
    rcases he with rfl | rfl <;> rfl
  | sent h k hk l n r => rw [List.mem_singleton.1 he]; rfl
  | idle h hk => cases he

/-- A log holds readings of its calls only. -/
theorem run_now (s : CAutomation K) (cs : List Clock) :
    ∀ e ∈ (Runs.run (workStep E) s cs).2, e.now ∈ cs := by
  induction cs generalizing s with
  | nil => simp [Runs.run]
  | cons c cs ih =>
    intro e he
    simp only [Runs.run, workStep] at he
    rcases List.mem_append.1 he with he | he
    · rw [doWork_now E c s e he]; exact List.mem_cons_self
    · exact List.mem_cons_of_mem _ (ih _ e he)

end CAutomation

end VscpAutomation
