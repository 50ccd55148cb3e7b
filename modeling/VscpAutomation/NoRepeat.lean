import VscpAutomation.Recalculation
/-!
# No event is sent twice on one day

A recalculation puts all five times back on the current day, but it is the
first call of that day (`before_calculation`). So each kind's time stays on a
day after every day the kind was sent (`Inv.later`), and the days of its sends
strictly increase.
-/

namespace VscpAutomation.NoRepeat

open CAutomation Blocks Recalculation

/-- A call in hour 0 whose predecessor was not in hour 0 is the first of its day. -/
theorem before_calculation {cs : List Clock} {c : Clock} (hmono : (cs ++ [c]).Pairwise (· ≤ ·))
    (hl : last hourZero false cs = false) (hc : c.hour = 0) : ∀ x ∈ cs, x.date < c.date := by
  obtain ⟨hcs, -, hle⟩ := List.pairwise_append.1 hmono
  rcases List.eq_nil_or_concat cs with rfl | ⟨cs, y, rfl⟩
  · simp
  · rw [List.concat_eq_append] at *
    rw [last_concat] at hl
    have hyc : y ≤ c := hle y (by simp) c (by simp)
    have hy : y.date < c.date := by
      apply lt_of_le_of_ne (Clock.date_mono hyc)
      intro he
      have := Clock.hour_mono hyc he
      rw [hc, Fin.le_zero_iff] at this
      simp [hourZero, this] at hl
    intro x hx
    rcases List.mem_append.1 hx with hx | hx
    · exact lt_of_le_of_lt (Clock.date_mono ((List.pairwise_append.1 hcs).2.2 x hx y (by simp))) hy
    · rw [List.mem_singleton.1 hx]; exact hy

theorem pairwise_concat {r : Clock → Clock → Prop} {l : List Clock} {c : Clock} (hl : l.Pairwise r)
    (hc : ∀ x ∈ l, r x c) : (l ++ [c]).Pairwise r :=
  List.pairwise_append.2 ⟨hl, by simp, by simpa using hc⟩

/-! ## After a send -/

section
variable {K : Type} (E : Env K) {c : Clock} {s : CAutomation K} {log : List (Entry K)} {k : Kind}
  (hlater : ∀ j d, (s.time j).OnDate d → ∀ x ∈ log.filterMap (Entry.handedAt (Kind.vscp_type j)), x.date < d)
  (hday : (s.time k).OnDate c.date)
include hlater hday

/-- The kind just sent is due again on the next day. -/
theorem later_sent (hspan : ∀ t d, vscpdatetime.OnDate t d → (E.addSeconds t SPAN24).OnDate d.next) (j : Kind)
    (d : Day) (hj : (((s.unlatch c).reschedule E c k).time j).OnDate d) :
    ∀ x ∈ (log ++ [Entry.handed c (s.information E c k)]).filterMap (Entry.handedAt j.vscp_type), x.date < d := by
  rw [reschedule_time, unlatch_time, unlatch_time] at hj
  rw [List.filterMap_append, handed_information]
  split at hj
  · rename_i hjk
    subst hjk
    rw [if_pos rfl, vscpdatetime.onDate_unique hj (hspan _ _ hday)]
    intro x hx
    rcases List.mem_append.1 hx with hx | hx
    · exact (hlater j _ hday x hx).trans (Calendar.Date.lt_next _)
    · rw [List.mem_singleton.1 hx]
      exact Calendar.Date.lt_next _
  · rename_i hjk
    rw [if_neg hjk, List.append_nil]
    exact hlater j d hj

theorem kinds_sent
    (hkinds : ∀ j : Kind, (log.filterMap (Entry.handedAt j.vscp_type)).Pairwise (fun a b : Clock => a.date < b.date))
    (j : Kind) : ((log ++ [Entry.handed c (s.information E c k)]).filterMap
      (Entry.handedAt j.vscp_type)).Pairwise (fun a b : Clock => a.date < b.date) := by
  rw [List.filterMap_append, handed_information]
  split
  · rename_i hjk
    subst hjk
    exact pairwise_concat (hkinds j) (hlater j _ hday)
  · rw [List.append_nil]
    exact hkinds j

end

/-! ## The invariant -/

variable {K : Type} [Field K] [LinearOrder K] [FloorRing K] (E : Env K) (start : Clock)

/-- The place of a run: `doWork` does not move. -/
abbrev homeLatitude : K := (new E start).m_latitude
abbrev homeLongitude : K := (new E start).m_longitude

/-- What holds after calls at `cs`. -/
structure Inv (cs : List Clock) (s : CAutomation K) (log : List (Entry K)) : Prop where
  m_latitude : s.m_latitude = homeLatitude E start
  m_longitude : s.m_longitude = homeLongitude E start
  /-- The latch is set when the last call was in hour 0. -/
  latch : s.m_bCalulationHasBeenDone = last hourZero false cs
  mem : ∀ t, ∀ c ∈ log.filterMap (Entry.handedAt t), c ∈ cs
  onDate : ∀ k, ∃ d, (s.time k).OnDate d
  /-- A kind is scheduled for a day after each day it was sent on. -/
  later : ∀ k d, (s.time k).OnDate d → ∀ c ∈ log.filterMap (Entry.handedAt k.vscp_type), c.date < d
  kinds : ∀ k : Kind, (log.filterMap (Entry.handedAt k.vscp_type)).Pairwise (fun a b => a.date < b.date)
  news : (log.filterMap (Entry.handedAt .VSCP2_TYPE_VSCPD_NEW_CALCULATION)).Pairwise
    (fun a b => a.date < b.date)

/-- What is handed over is handed over at a call. -/
theorem mem_step {cs : List Clock} {log : List (Entry K)}
    (hmem : ∀ t, ∀ x ∈ log.filterMap (Entry.handedAt t), x ∈ cs) (c : Clock) (s : CAutomation K)
    (t : VscpType) : ∀ x ∈ (log ++ (s.doWork E c).log).filterMap (Entry.handedAt t), x ∈ cs ++ [c] := by
  intro x hx
  rw [List.filterMap_append] at hx
  rcases List.mem_append.1 hx with hx | hx
  · exact List.mem_append_left _ (hmem t x hx)
  · obtain ⟨e, he, hx⟩ := List.mem_filterMap.1 hx
    rw [Entry.handedAt_now hx, doWork_now E c s e he]
    simp

/-- One call keeps the invariant. -/
theorem inv_step {cs : List Clock} {c : Clock} {s : CAutomation K} {log : List (Entry K)}
    (hcalc : ∀ k, (scheduled E (homeLatitude E start) (homeLongitude E start) c k).OnDate c.date)
    (hspan : ∀ t d, vscpdatetime.OnDate t d → (E.addSeconds t SPAN24).OnDate d.next)
    (hmono : (cs ++ [c]).Pairwise (· ≤ ·)) (hi : Inv E start cs s log) :
    Inv E start (cs ++ [c]) (s.doWork E c).state (log ++ (s.doWork E c).log) := by
  have hlatch := latch_doWork E c s
  have hmem := mem_step E hi.mem c s
  have hd := doWork_did E c s
  generalize s.doWork E c = w at hlatch hmem hd ⊢
  cases hd with
  | calculated h l n r =>
    have hl : last hourZero false cs = false := by rw [← hi.latch]; exact h.1
    -- nothing was handed over on this day yet
    have hfirst (t : VscpType) : ∀ x ∈ log.filterMap (Entry.handedAt t), x.date < c.date :=
      fun x hx => before_calculation hmono hl h.2 x (hi.mem t x hx)
    have htime (k : Kind) : ((s.doCalc E c).time k).OnDate c.date := by
      rw [doCalc_time, hi.m_latitude, hi.m_longitude]; exact hcalc k
    refine ⟨hi.m_latitude, hi.m_longitude, ?_, hmem, fun k => ⟨_, htime k⟩, ?_, ?_, ?_⟩
    · rw [last_concat]; exact hlatch
    · intro k d hk
      rw [List.filterMap_append, handed_newCalculation, List.append_nil,
        vscpdatetime.onDate_unique hk (htime k)]
      exact hfirst _
    · intro k
      rw [List.filterMap_append, handed_newCalculation, List.append_nil]; exact hi.kinds k
    · rw [List.filterMap_append]
      exact pairwise_concat hi.news (hfirst _)
  | sent h k hk l n r =>
    obtain ⟨hday, -, -⟩ := firstDue_some hk
    refine ⟨?_, ?_, ?_, hmem, ?_, later_sent E hi.later hday hspan, kinds_sent E hi.later hday hi.kinds, ?_⟩
    · rw [← hi.m_latitude]; simp
    · rw [← hi.m_longitude]; simp
    · rw [last_concat]; exact hlatch
    · intro j
      change ∃ d, (((s.unlatch c).reschedule E c k).time j).OnDate d
      rw [reschedule_time, unlatch_time, unlatch_time]
      split
      · exact ⟨_, hspan _ _ hday⟩
      · exact hi.onDate j
    · rw [List.filterMap_append]
      have : [Entry.handed (K := K) c (s.information E c k)].filterMap
          (Entry.handedAt .VSCP2_TYPE_VSCPD_NEW_CALCULATION) = [] := by cases k <;> rfl
      rw [this, List.append_nil]
      exact hi.news
  | idle h =>
    simp only [List.append_nil] at hmem ⊢
    refine ⟨?_, ?_, ?_, hmem, ?_, ?_, hi.kinds, hi.news⟩
    · rw [unlatch_m_latitude]; exact hi.m_latitude
    · rw [unlatch_m_longitude]; exact hi.m_longitude
    · rw [last_concat]; exact hlatch
    · intro k
      rw [unlatch_time]; exact hi.onDate k
    · intro k d hk
      rw [unlatch_time] at hk; exact hi.later k d hk

/-- The invariant holds all along a run. -/
theorem inv_run (cs : List Clock) (hmono : (start :: cs).Pairwise (· ≤ ·))
    (hcalc : ∀ c ∈ start :: cs, ∀ k,
      (scheduled E (homeLatitude E start) (homeLongitude E start) c k).OnDate c.date)
    (hspan : ∀ t d, vscpdatetime.OnDate t d → (E.addSeconds t SPAN24).OnDate d.next) :
    Inv E start cs (workRun E start cs).1 (workRun E start cs).2 := by
  have hP := Runs.run_induction (workStep E) (s := new E start)
    (P := fun is s log => is <+: cs → Inv E start is s log) ?_ ?_ cs
  · exact hP List.prefix_rfl
  · intro _
    have hnew (k : Kind) : ((new E start).time k).OnDate start.date := by
      have := hcalc start (by simp) k
      rwa [new, doCalc_time]
    exact ⟨rfl, rfl, rfl, by simp, fun k => ⟨_, hnew k⟩, by simp, by simp, by simp⟩
  · intro is c s log _ ih hpre
    have hsub : (is ++ [c]).Sublist cs := hpre.sublist
    refine inv_step E start (hcalc c ?_) hspan ((List.pairwise_cons.1 hmono).2.sublist hsub)
      (ih ((List.prefix_append is [c]).trans hpre))
    exact List.mem_cons_of_mem _ (hsub.subset (by simp))

/-- Days that strictly increase hold each day at most once. -/
theorem countP_le_one {l : List Clock} (h : l.Pairwise (fun a b => a.date < b.date)) (d : Day) :
    l.countP (fun c => c.date = d) ≤ 1 := by
  have hn : (l.map Clock.date).Nodup := List.pairwise_map.2 (h.imp ne_of_lt)
  have := List.nodup_iff_count_le_one.1 hn d
  rwa [List.count_eq_countP, List.countP_map] at this

/-- However the calls are spaced, no kind and no NEW_CALCULATION is handed
over twice on one day. -/
theorem sent_at_most_once (cs : List Clock) (hmono : (start :: cs).Pairwise (· ≤ ·))
    (hcalc : ∀ c ∈ start :: cs, ∀ k,
      (scheduled E (homeLatitude E start) (homeLongitude E start) c k).OnDate c.date)
    (hspan : ∀ t d, vscpdatetime.OnDate t d → (E.addSeconds t SPAN24).OnDate d.next) (d : Day) :
    let log := (workRun E start cs).2
    (∀ k : Kind, (log.filterMap (Entry.handedAt k.vscp_type)).countP (fun c => c.date = d) ≤ 1) ∧
      (log.filterMap (Entry.handedAt .VSCP2_TYPE_VSCPD_NEW_CALCULATION)).countP (fun c => c.date = d) ≤ 1 := by
  have hi := inv_run E start cs hmono hcalc hspan
  exact ⟨fun k => countP_le_one (hi.kinds k) d, countP_le_one hi.news d⟩

/-- A start in hour 0, and then days skipped. -/
theorem sent_at_most_once_gaps :
    let E := rationalEnv fun _ => .error .parse_error
    let start := march 20 0 30 (by decide)
    let cs := [march 20 0 31 (by decide), march 20 6 1 (by decide), march 27 0 5 (by decide)]
    let log := (workRun E start cs).2
    (start :: cs).Pairwise (· ≤ ·) ∧ ∀ d : Day,
      (∀ k : Kind, (log.filterMap (Entry.handedAt k.vscp_type)).countP (fun c => c.date = d) ≤ 1) ∧
        (log.filterMap (Entry.handedAt .VSCP2_TYPE_VSCPD_NEW_CALCULATION)).countP
          (fun c => c.date = d) ≤ 1 := by
  intro E start cs log
  have hmono : (start :: cs).Pairwise (· ≤ ·) := by decide
  exact ⟨hmono, sent_at_most_once E start cs hmono (fun c _ k => vscpdatetime.onDate_now c)
    (rationalEnv_lawful _).addSpan_onDate⟩

end VscpAutomation.NoRepeat
