import VscpAutomation.NoRepeat
import VscpAutomation.Lib.Agenda
/-!
# Every event is sent once a day

Six calls in each minute are enough for a recalculation and five events. The
first call of a day recalculates (`first_call`); from then on `doWork` is
`Agenda.tick` on the kinds not sent yet, each due in its minute (`serve_run`),
and five calls a minute serve an agenda of five.
-/

namespace VscpAutomation.Delivery

open CAutomation Blocks Recalculation NoRepeat

open vscpdatetime (sameMinute)

/-- A time of day that exists, on day `d`, is one minute. -/
theorem exists_minute {t : vscpdatetime} {d : Day} (hd : t.OnDate d) (hh : 0 ≤ t.hour ∧ t.hour ≤ 23)
    (hm : 0 ≤ t.minute ∧ t.minute ≤ 59) :
    ∃ m : Day ×ₗ Fin 24 ×ₗ Fin 60, (ofLex m).1 = d ∧ ∀ c : Clock, sameMinute c.now t = true ↔ c.toMinute = m := by
  have h1 : t.hour.toNat < 24 := by omega
  have h2 : t.minute.toNat < 60 := by omega
  refine ⟨toLex (d, toLex (⟨t.hour.toNat, h1⟩, ⟨t.minute.toNat, h2⟩)), rfl, ?_⟩
  intro c
  simp only [vscpdatetime.sameMinute_iff, Clock.toMinute, EmbeddingLike.apply_eq_iff_eq, Prod.mk.injEq,
    Fin.ext_iff]
  constructor
  · rintro ⟨h3, h4, h5⟩
    exact ⟨vscpdatetime.onDate_unique h3 hd, by omega, by omega⟩
  · rintro ⟨rfl, h4, h5⟩
    exact ⟨hd, by omega, by omega⟩

/-! ## After the recalculation -/

section
variable {K : Type} (D : Day) (t : Kind → vscpdatetime) (due : Kind → Day ×ₗ Fin 24 ×ₗ Fin 60)

/-- The kinds in `l` are still to be sent on day `D`, at the times `t`; the
others are put off to the next day. -/
structure Pending (l : List Kind) (s : CAutomation K) : Prop where
  sub : l.Sublist Kind.order
  today : ∀ k ∈ l, s.time k = t k
  later : ∀ k, k ∉ l → (s.time k).OnDate D.next

/-- What is due on day `D` is the first pending kind of that minute. -/
theorem firstDue_pending {l : List Kind} {s : CAutomation K} {c : Clock} (hp : Pending D t l s)
    (hc : c.date = D) (hdue : ∀ k, sameMinute c.now (t k) = true ↔ c.toMinute = due k) :
    s.firstDue c = l.find? fun k => due k = c.toMinute := by
  have hnot (k : Kind) (hk : k ∉ l) : sameMinute c.now (s.time k) = false := by
    rw [Bool.eq_false_iff]
    intro h
    have hd := (vscpdatetime.sameMinute_iff.1 h).1
    have := vscpdatetime.onDate_unique hd (hp.later k hk)
    rw [hc] at this
    exact (Calendar.Date.lt_next D).ne this
  have hin (k : Kind) (hk : k ∈ l) : sameMinute c.now (s.time k) = decide (due k = c.toMinute) := by
    rw [hp.today k hk, Bool.eq_iff_iff, hdue k, decide_eq_true_iff, eq_comm]
  exact Agenda.find?_sublist hp.sub Kind.order_nodup hin fun k _ => hnot k

variable [Field K] [LinearOrder K] [FloorRing K] (E : Env K)

/-- A call on day `D` that does not recalculate is a tick of the agenda. -/
theorem serve {l : List Kind} {s : CAutomation K} {c : Clock} (hp : Pending D t l s) (hc : c.date = D)
    (hcalc : ¬ s.CalcDue c) (hdue : ∀ k, sameMinute c.now (t k) = true ↔ c.toMinute = due k)
    (hspan : ∀ t d, vscpdatetime.OnDate t d → (E.addSeconds t SPAN24).OnDate d.next) :
    let r := Agenda.tick due Clock.toMinute l c
    let log := (s.doWork E c).log
    Pending D t r.1 (s.doWork E c).state ∧ log.filterMap Entry.calculation = [] ∧
      log.filterMap (Entry.handedAt .VSCP2_TYPE_VSCPD_NEW_CALCULATION) = [] ∧
      ∀ k : Kind, log.filterMap (Entry.handedAt k.vscp_type) =
        (r.2.filter fun x => x.2 = k).map Prod.fst := by
  have hf := firstDue_pending D t due hp hc hdue
  have hd := doWork_did E c s
  generalize s.doWork E c = w at hd ⊢
  simp only [Agenda.tick, ← hf]
  cases hd with
  | calculated h => exact absurd h hcalc
  | sent h k hk m n r =>
    have hkl : k ∈ l := List.mem_of_find?_eq_some (hf.symm.trans hk)
    have hnl : l.Nodup := Kind.order_nodup.sublist hp.sub
    have htime (j : Kind) : ((s.unlatch c).reschedule E c k).time j =
        if j = k then E.addSeconds (s.time k) SPAN24 else s.time j := by simp
    obtain ⟨hday, -, -⟩ := firstDue_some hk
    rw [hc] at hday
    rw [hk]
    refine ⟨⟨List.erase_sublist.trans hp.sub, ?_, ?_⟩, rfl, ?_, ?_⟩
    · intro j hj
      have hjk : j ≠ k := fun he => hnl.not_mem_erase (he ▸ hj)
      exact (htime j).trans ((if_neg hjk).trans (hp.today j (List.mem_of_mem_erase hj)))
    · intro j hj
      change (((s.unlatch c).reschedule E c k).time j).OnDate D.next
      rw [htime]
      by_cases hjk : j = k
      · rw [if_pos hjk]; exact hspan _ _ hday
      · rw [if_neg hjk]
        exact hp.later j fun hjl => hj ((List.mem_erase_of_ne hjk).2 hjl)
    · cases k <;> rfl
    · intro j
      cases j <;> cases k <;> rfl
  | idle h hk =>
    rw [hk]
    refine ⟨⟨hp.sub, ?_, ?_⟩, rfl, rfl, fun k => rfl⟩
    · intro k hkl
      rw [unlatch_time]; exact hp.today k hkl
    · intro k hkl
      rw [unlatch_time]; exact hp.later k hkl

/-- The calls of day `D` after its first, in hour 0, are a run of the agenda. -/
theorem serve_run (cs : List Clock) {l : List Kind} {s : CAutomation K} {y : Clock}
    (hp : Pending D t l s) (hday : ∀ c ∈ y :: cs, c.date = D) (hmono : (y :: cs).Pairwise (· ≤ ·))
    (hlatch : s.m_bCalulationHasBeenDone = decide (y.hour = 0))
    (hdue : ∀ k (c : Clock), sameMinute c.now (t k) = true ↔ c.toMinute = due k)
    (hspan : ∀ t d, vscpdatetime.OnDate t d → (E.addSeconds t SPAN24).OnDate d.next) :
    let log := (Runs.run (workStep E) s cs).2
    log.filterMap Entry.calculation = [] ∧
      log.filterMap (Entry.handedAt .VSCP2_TYPE_VSCPD_NEW_CALCULATION) = [] ∧
      ∀ k : Kind, log.filterMap (Entry.handedAt k.vscp_type) =
        ((Runs.run (Agenda.tick due Clock.toMinute) l cs).2.filter fun x => x.2 = k).map Prod.fst := by
  induction cs generalizing l s y with
  | nil => exact ⟨rfl, rfl, fun k => rfl⟩
  | cons c cs ih =>
    obtain ⟨hy, hmono⟩ := List.pairwise_cons.1 hmono
    have hc : c.date = D := hday c (by simp)
    have hcalc : ¬ s.CalcDue c := by
      rintro ⟨hl, h0⟩
      have := Clock.hour_mono (hy c (by simp)) ((hday y (by simp)).trans hc.symm)
      rw [h0, Fin.le_zero_iff] at this
      simp [hlatch, this] at hl
    obtain ⟨h1, h2, h3, h4⟩ := serve D t due E hp hc hcalc (fun k => hdue k c) hspan
    obtain ⟨i2, i3, i4⟩ := ih h1 (fun c hc => hday c (List.mem_cons_of_mem _ hc)) hmono (latch_doWork E c s)
    simp only [Runs.run, workStep, List.filterMap_append, List.filter_append, List.map_append]
    refine ⟨?_, ?_, ?_⟩
    · rw [h2, i2]; rfl
    · rw [h3, i3]; rfl
    · intro k
      rw [h4, i4]

end

/-! ## The day -/

variable {K : Type} [Field K] [LinearOrder K] [FloorRing K] (E : Env K)

/-- Six calls fall in every minute from `start` to the end of day `D`. -/
def SixEachMinute (start : Clock) (cs : List Clock) (D : Day) : Prop :=
  ∀ m, start.toMinute ≤ m → (ofLex m).1 ≤ D → 6 ≤ cs.countP fun c => c.toMinute = m

theorem SixEachMinute.exists_mem {start : Clock} {cs : List Clock} {D : Day}
    (h : SixEachMinute start cs D) {m : Day ×ₗ Fin 24 ×ₗ Fin 60} (hs : start.toMinute ≤ m)
    (hD : (ofLex m).1 ≤ D) : ∃ c ∈ cs, c.toMinute = m := by
  have hpos : 0 < cs.countP fun c => c.toMinute = m := lt_of_lt_of_le (by omega) (h m hs hD)
  obtain ⟨c, hc, hm⟩ := List.countP_pos_iff.1 hpos
  exact ⟨c, hc, by simpa using hm⟩

/-- The last call before day `D` is not in hour 0, so the latch is clear. -/
theorem latch_clear {start : Clock} {cs : List Clock} {D : Day}
    (hmono : (start :: cs).Pairwise (· ≤ ·)) (hsix : SixEachMinute start cs D) :
    last hourZero false (cs.filter fun c => c.date < D) = false := by
  rcases List.eq_nil_or_concat (cs.filter fun c => c.date < D) with h | ⟨pre, y, h⟩
  · rw [h]; rfl
  · rw [List.concat_eq_append] at h
    have hy : y ∈ cs ∧ y.date < D := by
      have : y ∈ cs.filter fun c => c.date < D := by simp [h]
      simpa using this
    obtain ⟨hstart, hcs⟩ := List.pairwise_cons.1 hmono
    -- a call in the last minute of that day comes at or before `y`
    obtain ⟨z, hz, hzm⟩ := hsix.exists_mem (m := toLex (y.date, toLex (23, 59)))
      (le_trans (Clock.toMinute_mono (hstart y hy.1)) (by
        refine Prod.Lex.toLex_le_toLex.2 (.inr ⟨rfl, Prod.Lex.toLex_le_toLex.2 ?_⟩)
        rcases (Fin.le_last y.hour).lt_or_eq with h | h
        · exact .inl h
        · exact .inr ⟨h, Fin.le_last y.minute⟩)) hy.2.le
    simp only [Clock.toMinute, EmbeddingLike.apply_eq_iff_eq, Prod.mk.injEq] at hzm
    obtain ⟨hzd, hzh, -⟩ := hzm
    have hzy : z ≤ y := by
      have hzp : z ∈ pre ++ [y] := by rw [← h]; simp [hz, hzd, hy.2]
      have hp : (pre ++ [y]).Pairwise (· ≤ ·) := by rw [← h]; exact hcs.filter _
      rcases List.mem_append.1 hzp with hz | hz
      · exact (List.pairwise_append.1 hp).2.2 z hz y (by simp)
      · rw [List.mem_singleton.1 hz]
    have hh := Clock.hour_mono hzy hzd
    rw [hzh] at hh
    rw [h, last_concat, hourZero, decide_eq_false_iff_not]
    intro h0
    rw [h0] at hh
    exact absurd hh (by decide)

/-- The first call of day `D` is in hour 0. -/
theorem first_call {start : Clock} {cs : List Clock} {D : Day} (hstart : start.date < D)
    (hcs : cs.Pairwise (· ≤ ·)) (hsix : SixEachMinute start cs D) :
    ∃ c₀ rest, (cs.filter fun c => c.date = D) = c₀ :: rest ∧ c₀.hour = 0 := by
  obtain ⟨z, hz, hzm⟩ := hsix.exists_mem (m := toLex (D, toLex (0, 0)))
    (Prod.Lex.toLex_le_toLex.2 (.inl hstart)) le_rfl
  simp only [Clock.toMinute, EmbeddingLike.apply_eq_iff_eq, Prod.mk.injEq] at hzm
  obtain ⟨hzd, hzh, -⟩ := hzm
  have hzday : z ∈ cs.filter fun c => c.date = D := by simp [hz, hzd]
  obtain ⟨c₀, rest, hc₀⟩ := List.exists_cons_of_ne_nil (List.ne_nil_of_mem hzday)
  refine ⟨c₀, rest, hc₀, ?_⟩
  have hp : (c₀ :: rest).Pairwise (· ≤ ·) := by rw [← hc₀]; exact hcs.filter _
  have hc₀D : c₀ ∈ cs.filter fun c => c.date = D := by rw [hc₀]; exact List.mem_cons_self
  have hc₀z : c₀ ≤ z := by
    rw [hc₀] at hzday
    rcases List.mem_cons.1 hzday with rfl | h
    · exact le_rfl
    · exact (List.pairwise_cons.1 hp).1 z h
  have hd : c₀.date = D := by simpa using (List.mem_filter.1 hc₀D).2
  have := Clock.hour_mono hc₀z (hd.trans hzd.symm)
  rwa [hzh, Fin.le_zero_iff] at this

/-- A day's log is the log of its calls. -/
theorem today_log (start : Clock) (cs : List Clock) (D : Day) (hcs : cs.Pairwise (· ≤ ·)) :
    ((workRun E start cs).2.filter fun e => e.now.date = D) =
      (Runs.run (workStep E) (workRun E start (cs.filter fun c => c.date < D)).1
        (cs.filter fun c => c.date = D)).2 := by
  have hcut := cut Clock.date D cs (hcs.imp Clock.date_mono)
  rw [← congrArg (workRun E start) hcut]
  simp only [workRun, Runs.run_append, List.filter_append]
  -- the calls before and after have other dates
  have hnone (s : CAutomation K) (l : List Clock) (hl : ∀ c ∈ l, c.date ≠ D) :
      ((Runs.run (workStep E) s l).2.filter fun e => e.now.date = D) = [] :=
    List.filter_eq_nil_iff.2 fun e he => by simpa using hl _ (run_now E s l e he)
  have hall (s : CAutomation K) (l : List Clock) (hl : ∀ c ∈ l, c.date = D) :
      ((Runs.run (workStep E) s l).2.filter fun e => e.now.date = D) = (Runs.run (workStep E) s l).2 :=
    List.filter_eq_self.2 fun e he => by simpa using hl _ (run_now E s l e he)
  rw [hnone _ _ fun c hc => (of_decide_eq_true (List.mem_filter.1 hc).2).ne,
    hall _ _ fun c hc => of_decide_eq_true (List.mem_filter.1 hc).2,
    hnone _ _ fun c hc => (of_decide_eq_true (List.mem_filter.1 hc).2).ne', List.nil_append, List.append_nil]

/-- A day that begins with a recalculation and has six calls in every minute. -/
theorem day_served {s : CAutomation K} {c₀ : Clock} {rest : List Clock} {D : Day} (hcalc : s.CalcDue c₀)
    (hday : ∀ c ∈ c₀ :: rest, c.date = D) (hmono : (c₀ :: rest).Pairwise (· ≤ ·))
    (hsix : ∀ m, (ofLex m).1 = D → 6 ≤ (c₀ :: rest).countP fun c => c.toMinute = m)
    (hvalid : ∀ k, let t := scheduled E s.m_latitude s.m_longitude c₀ k
      t.OnDate c₀.date ∧ (0 ≤ t.hour ∧ t.hour ≤ 23) ∧ (0 ≤ t.minute ∧ t.minute ≤ 59))
    (hspan : ∀ t d, vscpdatetime.OnDate t d → (E.addSeconds t SPAN24).OnDate d.next) :
    let log := (Runs.run (workStep E) s (c₀ :: rest)).2
    log.filterMap Entry.calculation = [(s.m_latitude, s.m_longitude, c₀)] ∧
      log.filterMap (Entry.handedAt .VSCP2_TYPE_VSCPD_NEW_CALCULATION) = [c₀] ∧
      ∀ k : Kind, ∃ c, log.filterMap (Entry.handedAt k.vscp_type) = [c] ∧
        sameMinute c.now (scheduled E s.m_latitude s.m_longitude c₀ k) = true := by
  have hc₀ : c₀.date = D := hday c₀ List.mem_cons_self
  set t := scheduled E s.m_latitude s.m_longitude c₀ with ht
  have hmin (k : Kind) := exists_minute (hvalid k).1 (hvalid k).2.1 (hvalid k).2.2
  choose due hdueD hdue using hmin
  have hd := doWork_did E c₀ s
  have hl := latch_doWork E c₀ s
  simp only [Runs.run, workStep]
  generalize s.doWork E c₀ = w at hd hl ⊢
  cases hd with
  | sent h => exact absurd hcalc h
  | idle h => exact absurd hcalc h
  | calculated h l n r =>
    have hp : Pending D t Kind.order
        { s.doCalc E c₀ with
          m_bCalulationHasBeenDone := true, m_receiveList := l, m_semReceiveQueue := n } :=
      ⟨List.Sublist.refl _, fun k _ => doCalc_time E c₀ s k, fun k hk => absurd k.mem_order hk⟩
    obtain ⟨h1, h2, h3⟩ := serve_run D t due E rest hp hday hmono hl hdue hspan
    -- five calls are left in each minute, and at most five kinds are due in it
    have hcount (k : Kind) (_ : k ∈ Kind.order) : Kind.order.countP (fun j => due j = due k) ≤
        rest.countP fun c => c.toMinute = due k := by
      have h6 := hsix (due k) ((hdueD k).trans hc₀)
      have h5 : Kind.order.countP (fun j => due j = due k) ≤ 5 := List.countP_le_length
      rw [List.countP_cons] at h6
      split at h6 <;> omega
    refine ⟨?_, ?_, ?_⟩
    · rw [List.filterMap_append, h1]; rfl
    · rw [List.filterMap_append, h2]; rfl
    · intro k
      obtain ⟨c, -, hck, hserved⟩ :=
        Agenda.served_once due Clock.toMinute Kind.order_nodup rest hcount k k.mem_order
      refine ⟨c, ?_, (hdue k c).2 hck⟩
      rw [List.filterMap_append, h3, hserved]
      cases k <;> rfl

/-! ## A day of calls -/

/-- Six calls in every minute of a day in March 2021. -/
def wholeDay (day : ℕ) (hday : 1 ≤ day ∧ day ≤ 31) : List Clock :=
  (List.finRange 24).flatMap fun h => (List.finRange 60).flatMap fun m =>
    List.replicate 6 (march day h m hday)

theorem mem_wholeDay {day : ℕ} {hday : 1 ≤ day ∧ day ≤ 31} {c : Clock} (hc : c ∈ wholeDay day hday) :
    ∃ h m, c = march day h m hday := by
  simp only [wholeDay, List.mem_flatMap, List.mem_replicate] at hc
  obtain ⟨h, -, m, -, -, rfl⟩ := hc
  exact ⟨h, m, rfl⟩

theorem march_le {d d' : ℕ} {hd : 1 ≤ d ∧ d ≤ 31} {hd' : 1 ≤ d' ∧ d' ≤ 31} {h h' : Fin 24} {m m' : Fin 60}
    (hle : d < d' ∨ d = d' ∧ (h < h' ∨ h = h' ∧ m ≤ m')) : march d h m hd ≤ march d' h' m' hd' := by
  change Clock.key _ ≤ Clock.key _
  rw [Clock.key, Clock.key, Prod.Lex.toLex_le_toLex, Calendar.Date.lt_iff]
  rcases hle with hlt | ⟨rfl, hle⟩
  · exact .inl (.inr ⟨rfl, .inr ⟨rfl, hlt⟩⟩)
  · refine .inr ⟨rfl, ?_⟩
    simp only [march, Prod.Lex.toLex_le_toLex, le_refl, and_true]
    exact hle.imp_right fun h => ⟨h.1, h.2.lt_or_eq⟩

theorem wholeDay_pairwise (day : ℕ) (hday : 1 ≤ day ∧ day ≤ 31) : (wholeDay day hday).Pairwise (· ≤ ·) := by
  refine List.pairwise_flatMap.2 ⟨fun h _ => List.pairwise_flatMap.2 ⟨fun m _ => ?_, ?_⟩, ?_⟩
  · exact List.pairwise_replicate.2 (.inr le_rfl)
  · refine (List.pairwise_lt_finRange 60).imp ?_
    intro m m' hm x hx y hy
    rw [List.eq_of_mem_replicate hx, List.eq_of_mem_replicate hy]
    exact march_le (.inr ⟨rfl, .inr ⟨rfl, hm.le⟩⟩)
  · refine (List.pairwise_lt_finRange 24).imp ?_
    intro h h' hh x hx y hy
    obtain ⟨m, -, hx⟩ := List.mem_flatMap.1 hx
    obtain ⟨m', -, hy⟩ := List.mem_flatMap.1 hy
    rw [List.eq_of_mem_replicate hx, List.eq_of_mem_replicate hy]
    exact march_le (.inr ⟨rfl, .inl hh⟩)

theorem wholeDay_six (day : ℕ) (hday : 1 ≤ day ∧ day ≤ 31) (h : Fin 24) (m : Fin 60) :
    6 ≤ (wholeDay day hday).countP fun c => c.toMinute = (march day h m hday).toMinute := by
  have h1 : (List.replicate 6 (march day h m hday)).Sublist
      ((List.finRange 60).flatMap fun m => List.replicate 6 (march day h m hday)) :=
    List.sublist_flatten_of_mem (List.mem_map_of_mem (List.mem_finRange m))
  have h2 : ((List.finRange 60).flatMap fun m => List.replicate 6 (march day h m hday)).Sublist
      (wholeDay day hday) :=
    List.sublist_flatten_of_mem (List.mem_map.2 ⟨h, List.mem_finRange h, rfl⟩)
  refine le_trans ?_ ((h1.trans h2).countP_le)
  simp

/-- Every hour of these two days gives times that exist. -/
theorem rational_valid : ∀ day ∈ [(⟨19, by decide⟩ : {d // 1 ≤ d ∧ d ≤ 31}), ⟨20, by decide⟩],
    ∀ h : Fin 24, ∀ k ∈ Kind.order,
      let hm := hourMinute (rationalEnv fun _ => .error .parse_error) 61.7441833 15.1604167
        (march day.1 h 0 day.2) k
      (0 ≤ hm.1 ∧ hm.1 ≤ 23) ∧ (0 ≤ hm.2 ∧ hm.2 ≤ 59) := by
  decide +kernel

theorem wholeDay_sixEachMinute : SixEachMinute (march 19 0 0 (by decide))
    (wholeDay 19 (by decide) ++ wholeDay 20 (by decide)) (march 20 0 0 (by decide)).date := by
  intro m hs hD
  have hd : (march 19 0 0 (by decide)).date ≤ (ofLex m).1 := by
    rcases Prod.Lex.le_iff.1 hs with h | h
    · exact h.le
    · exact h.1.le
  obtain ⟨d, h, mi⟩ := m
  change d ≤ _ at hD
  change _ ≤ d at hd
  rw [← not_lt, Calendar.Date.lt_iff] at hD hd
  simp only [march, not_or, not_and, not_lt] at hD hd
  rw [List.countP_append]
  have hday : d = (march 19 0 0 (by decide)).date ∨ d = (march 20 0 0 (by decide)).date := by
    have hcase : d.day = 19 ∨ d.day = 20 := by omega
    rcases hcase with h | h
    · exact .inl (Calendar.Date.ext (by simp only [march]; omega) (by simp only [march]; omega) h)
    · exact .inr (Calendar.Date.ext (by simp only [march]; omega) (by simp only [march]; omega) h)
  rcases hday with rfl | rfl
  · exact le_add_right (wholeDay_six 19 (by decide) h mi)
  · exact le_add_left (wholeDay_six 20 (by decide) h mi)

/-- With six calls in every minute from the start, day `D` has one
recalculation, announced once, and one event of each kind, in the minute this
recalculation found for it. -/
theorem exactly_once_daily (start : Clock) (cs : List Clock) (D : Day) (hstart : start.date < D)
    (hmono : (start :: cs).Pairwise (· ≤ ·)) (hsix : SixEachMinute start cs D)
    (hcalc : ∀ c ∈ start :: cs, ∀ k,
      let t := scheduled E (homeLatitude E start) (homeLongitude E start) c k
      t.OnDate c.date ∧ (0 ≤ t.hour ∧ t.hour ≤ 23) ∧ (0 ≤ t.minute ∧ t.minute ≤ 59))
    (hspan : ∀ t d, vscpdatetime.OnDate t d → (E.addSeconds t SPAN24).OnDate d.next) :
    let today := (workRun E start cs).2.filter fun e => e.now.date = D
    ∃ lat lon c₀, today.filterMap Entry.calculation = [(lat, lon, c₀)] ∧
      today.filterMap (Entry.handedAt .VSCP2_TYPE_VSCPD_NEW_CALCULATION) = [c₀] ∧
      ∀ k : Kind, ∃ c, today.filterMap (Entry.handedAt k.vscp_type) = [c] ∧
        sameMinute c.now (scheduled E lat lon c₀ k) = true := by
  have hcs := (List.pairwise_cons.1 hmono).2
  obtain ⟨c₀, rest, hc₀, hh⟩ := first_call hstart hcs hsix
  rw [today_log E start cs D hcs, hc₀]
  have hmem (c : Clock) (hc : c ∈ c₀ :: rest) : c ∈ cs ∧ c.date = D := by
    rw [← hc₀] at hc; simpa using hc
  -- the state in which the day begins
  have hi : Inv E start (cs.filter fun c => c.date < D)
      (workRun E start (cs.filter fun c => c.date < D)).1 (workRun E start (cs.filter fun c => c.date < D)).2 := by
    have hsub : (start :: cs.filter fun c => c.date < D).Sublist (start :: cs) :=
      List.filter_sublist.cons_cons _
    exact inv_run E start _ (hmono.sublist hsub) (fun c hc k => (hcalc c (hsub.subset hc) k).1) hspan
  generalize (workRun E start (cs.filter fun c => c.date < D)).1 = s at hi ⊢
  refine ⟨s.m_latitude, s.m_longitude, c₀, day_served E ⟨hi.latch.trans (latch_clear hmono hsix), hh⟩
    (fun c hc => (hmem c hc).2) (by rw [← hc₀]; exact hcs.filter _) (fun m hm => ?_) (fun k => ?_) hspan⟩
  · have hs : start.toMinute ≤ m := Prod.Lex.le_iff.2 (.inl (hm ▸ hstart))
    refine (hsix m hs hm.le).trans (le_of_eq ?_)
    rw [← hc₀, List.countP_filter]
    apply List.countP_congr
    intro c _
    simp only [decide_eq_true_eq, Bool.and_eq_true]
    exact ⟨fun h => ⟨h, by rw [← hm, ← h]; rfl⟩, fun h => h.1⟩
  · rw [hi.m_latitude, hi.m_longitude]
    exact hcalc c₀ (List.mem_cons_of_mem _ (hmem c₀ List.mem_cons_self).1) k

/-- Two whole days of calls, from the start of the first. -/
theorem exactly_once_daily_march :
    let E := rationalEnv fun _ => .error .parse_error
    let start := march 19 0 0 (by decide)
    let cs := wholeDay 19 (by decide) ++ wholeDay 20 (by decide)
    let today := (workRun E start cs).2.filter fun e => e.now.date = (march 20 0 0 (by decide)).date
    ∃ lat lon c₀, today.filterMap Entry.calculation = [(lat, lon, c₀)] ∧
      today.filterMap (Entry.handedAt .VSCP2_TYPE_VSCPD_NEW_CALCULATION) = [c₀] ∧
      ∀ k : Kind, ∃ c, today.filterMap (Entry.handedAt k.vscp_type) = [c] ∧
        sameMinute c.now (scheduled E lat lon c₀ k) = true := by
  intro E start cs
  have hmem (c : Clock) (hc : c ∈ start :: cs) : ∃ d : {d // 1 ≤ d ∧ d ≤ 31}, ∃ h m,
      d ∈ [(⟨19, by decide⟩ : {d // 1 ≤ d ∧ d ≤ 31}), ⟨20, by decide⟩] ∧ c = march d.1 h m d.2 := by
    rcases List.mem_cons.1 hc with rfl | hc
    · exact ⟨⟨19, by decide⟩, 0, 0, by simp, rfl⟩
    · rcases List.mem_append.1 hc with hc | hc
      · obtain ⟨h, m, rfl⟩ := mem_wholeDay hc
        exact ⟨⟨19, by decide⟩, h, m, by simp, rfl⟩
      · obtain ⟨h, m, rfl⟩ := mem_wholeDay hc
        exact ⟨⟨20, by decide⟩, h, m, by simp, rfl⟩
  refine exactly_once_daily E start cs _ (by decide) ?_ wholeDay_sixEachMinute ?_
    (rationalEnv_lawful _).addSpan_onDate
  · refine List.pairwise_cons.2 ⟨?_, List.pairwise_append.2
      ⟨wholeDay_pairwise 19 _, wholeDay_pairwise 20 _, ?_⟩⟩
    · intro c hc
      rcases List.mem_append.1 hc with hc | hc
      · obtain ⟨h, m, rfl⟩ := mem_wholeDay hc
        exact march_le (.inr ⟨rfl, h.zero_le.lt_or_eq.imp_right fun h => ⟨h, m.zero_le⟩⟩)
      · obtain ⟨h, m, rfl⟩ := mem_wholeDay hc
        exact march_le (.inl (by decide))
    · intro a ha b hb
      obtain ⟨h, m, rfl⟩ := mem_wholeDay ha
      obtain ⟨h', m', rfl⟩ := mem_wholeDay hb
      exact march_le (.inl (by decide))
  · intro c hc k
    obtain ⟨d, h, m, hd, rfl⟩ := hmem c hc
    obtain ⟨hh, hm⟩ := rational_valid d hd h k k.mem_order
    have hlawful := @scheduled_lawful ℚ _ _ _ E (rationalEnv_lawful _) (homeLatitude E start)
      (homeLongitude E start) (march d.1 h m d.2) k hh hm
    obtain ⟨hdate, hhour, hminute⟩ := hlawful
    exact ⟨hdate, hhour ▸ hh, hminute ▸ hm⟩

end VscpAutomation.Delivery
