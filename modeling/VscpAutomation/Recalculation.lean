import VscpAutomation.Work
import VscpAutomation.Rational
import VscpAutomation.Lib.Blocks
/-!
# The daily recalculation

`m_bCalulationHasBeenDone` does not remember a day: it says whether the call
before was in hour 0 (`latch_doWork`). So `doWork` recalculates at the head of
each block of consecutive calls in hour 0 (`calculations`), and that is once a
day only while each day's calls in hour 0 are a block of their own
(`recalculation_daily_iff`).
-/

namespace VscpAutomation.Recalculation

open CAutomation Blocks

variable {K : Type}

/-- The call is in hour 0. -/
def hourZero (c : Clock) : Bool := decide (c.hour = 0)

theorem not_head {c : Clock} {s : CAutomation K} (h : ¬ s.CalcDue c) :
    (hourZero c && !s.m_bCalulationHasBeenDone) = false := by
  by_cases hc : c.hour = 0
  · have : s.m_bCalulationHasBeenDone ≠ false := fun hl => h ⟨hl, hc⟩
    simpa [hourZero, hc] using this
  · simp [hourZero, hc]

variable [Field K] [LinearOrder K] [FloorRing K] (E : Env K)

/-- What one call recalculates and announces. -/
theorem calculation (c : Clock) (s : CAutomation K) :
    let at_ := if hourZero c && !s.m_bCalulationHasBeenDone then [c] else []
    (s.doWork E c).log.filterMap Entry.calculatedAt = at_ ∧
      (s.doWork E c).log.filterMap (Entry.handedAt .VSCP2_TYPE_VSCPD_NEW_CALCULATION) = at_ := by
  have hd := doWork_did E c s
  generalize s.doWork E c = w at hd ⊢
  cases hd with
  | calculated h =>
    simp only [hourZero, h.1, h.2, decide_true, Bool.not_false, Bool.and_self, if_true]
    exact ⟨rfl, rfl⟩
  | sent h k =>
    have hc := not_head h
    cases k <;> simp [hc, Entry.calculatedAt, Entry.handedAt, information, Kind.vscp_type]
  | idle h =>
    have hc := not_head h
    simp [hc]

/-- A run recalculates, and announces it, at the heads of its blocks of calls
in hour 0. -/
theorem calculations (s : CAutomation K) (cs : List Clock) :
    (Runs.run (workStep E) s cs).2.filterMap Entry.calculatedAt =
        heads hourZero s.m_bCalulationHasBeenDone cs ∧
      (Runs.run (workStep E) s cs).2.filterMap (Entry.handedAt .VSCP2_TYPE_VSCPD_NEW_CALCULATION) =
        heads hourZero s.m_bCalulationHasBeenDone cs := by
  induction cs generalizing s with
  | nil => exact ⟨rfl, rfl⟩
  | cons c cs ih =>
    obtain ⟨h1, h2⟩ := calculation E c s
    obtain ⟨i1, i2⟩ := ih (s.doWork E c).state
    have hl : (s.doWork E c).state.m_bCalulationHasBeenDone = hourZero c := latch_doWork E c s
    simp only [Runs.run, workStep, List.filterMap_append, heads]
    rw [h1, h2, i1, i2, hl]
    split <;> simp

/-- On each day `doCalc` runs and NEW_CALCULATION is handed over once if there
is a call in hour 0 of that day, and not at all otherwise. -/
def Daily (start : Clock) (cs : List Clock) : Prop :=
  ∀ d : Day,
    let log := (workRun E start cs).2
    let n := if ∃ c ∈ cs, c.date = d ∧ c.hour = 0 then 1 else 0
    (log.filterMap Entry.calculatedAt).countP (fun c => c.date = d) = n ∧
      (log.filterMap (Entry.handedAt .VSCP2_TYPE_VSCPD_NEW_CALCULATION)).countP (fun c => c.date = d) = n

theorem daily_iff_onceEach (start : Clock) (cs : List Clock) :
    Daily E start cs ↔ OnceEach hourZero Clock.date cs := by
  have hl : (new E start).m_bCalulationHasBeenDone = false := rfl
  obtain ⟨h1, h2⟩ := calculations E (new E start) cs
  rw [hl] at h1 h2
  have hc (l : List Clock) (d : Day) : l.countP (fun c => c.date = d) = (l.map Clock.date).count d := by
    rw [List.count_eq_countP, List.countP_map]
    exact List.countP_congr fun c _ => by simp
  have hm (d : Day) : (∃ c ∈ cs, c.date = d ∧ c.hour = 0) ↔ d ∈ (cs.filter hourZero).map Clock.date := by
    simp only [List.mem_map, List.mem_filter, hourZero, decide_eq_true_eq]
    constructor
    · rintro ⟨c, hc, hd, h0⟩; exact ⟨c, ⟨hc, h0⟩, hd⟩
    · rintro ⟨c, ⟨hc, h0⟩, hd⟩; exact ⟨c, hc, hd, h0⟩
  unfold Daily OnceEach workRun
  simp only [h1, h2, and_self, hc, if_congr (hm _) rfl rfl]

/-- While the calendar day never goes back, the recalculation is daily all
along a run if and only if no call in hour 0 directly follows one in hour 0 of
an earlier day, and no call in hour 0 follows a call in another hour on a day
that had a call in hour 0 before that. -/
theorem recalculation_daily_iff (start : Clock) (cs : List Clock)
    (hmono : cs.Pairwise (fun a b => a.date ≤ b.date)) :
    (∀ cs', cs' <+: cs → Daily E start cs') ↔
      ∀ pre y x post, cs = pre ++ y :: x :: post → x.hour = 0 →
        (y.hour = 0 → y.date = x.date) ∧ (y.hour ≠ 0 → ∀ z ∈ pre, z.hour = 0 → z.date ≠ x.date) := by
  have h := onceEach_iff hourZero Clock.date cs hmono
  simp only [daily_iff_onceEach]
  rw [h]
  simp only [Steady, hourZero, decide_eq_true_eq, decide_eq_false_iff_not, ne_eq]

/-- Calls at 00:10 on two days running, with none in between: the second day
has no recalculation. -/
theorem recalculation_missed :
    [march 20 0 10 (by decide), march 21 0 10 (by decide)].Pairwise (fun a b => a.date ≤ b.date) ∧
      ¬ Daily (rationalEnv fun _ => .error .parse_error) (march 19 12 0 (by decide))
        [march 20 0 10 (by decide), march 21 0 10 (by decide)] := by
  refine ⟨by decide, ?_⟩
  intro h
  have hd := daily_iff_onceEach _ _ _ |>.1 h (march 21 0 10 (by decide)).date
  revert hd
  decide

/-- Calls at 00:10, 12:00 and 00:10 of the next day are recalculated daily. -/
theorem recalculation_two_days :
    [march 20 0 10 (by decide), march 20 12 0 (by decide), march 21 0 10 (by decide)].Pairwise
        (fun a b => a.date ≤ b.date) ∧
      ∀ cs', cs' <+: [march 20 0 10 (by decide), march 20 12 0 (by decide), march 21 0 10 (by decide)] →
        Daily (rationalEnv fun _ => .error .parse_error) (march 19 12 0 (by decide)) cs' := by
  refine ⟨by decide, (recalculation_daily_iff _ _ _ (by decide)).2 ?_⟩
  intro pre y x post he hx
  rcases pre with _ | ⟨z, _ | ⟨z', pre⟩⟩
  · simp only [List.nil_append, List.cons.injEq] at he
    obtain ⟨rfl, rfl, rfl⟩ := he
    exact absurd hx (by decide)
  · simp only [List.cons_append, List.nil_append, List.cons.injEq] at he
    obtain ⟨rfl, rfl, rfl, rfl⟩ := he
    decide
  · have := congrArg List.length he
    simp only [List.length_cons, List.length_nil, List.length_append] at this
    omega

end VscpAutomation.Recalculation
