import VscpAutomation.Delivery
import VscpAutomation.Plan
/-!
# Days with any number of calls

What the calls of a day send once it has its times, however many they are: the
kinds that share a minute go out in `doWork`'s order, one at each call in that
minute (`day_exact`). So on the day the driver is opened the minutes that are
left are served and those that have passed are not (`first_day`), and as long
as no call falls in hour 0 each day is served at the minutes of the day before
(`without_recalculation`).
-/

namespace VscpAutomation.Days

open CAutomation Delivery

open vscpdatetime (sameMinute)

/-! ## One day -/

theorem exists_reading (m : Day ×ₗ Fin 24 ×ₗ Fin 60) : ∃ c : Clock, c.toMinute = m :=
  ⟨⟨(ofLex m).1, (ofLex (ofLex m).2).1, (ofLex (ofLex m).2).2, 0, 0⟩, rfl⟩

/-- Two times of one day are in one minute where hour and minute are the same. -/
theorem minute_eq_iff {t t' : vscpdatetime} {D : Day} {m m' : Day ×ₗ Fin 24 ×ₗ Fin 60} (hd : t.OnDate D)
    (hd' : t'.OnDate D) (h : ∀ c : Clock, sameMinute c.now t = true ↔ c.toMinute = m)
    (h' : ∀ c : Clock, sameMinute c.now t' = true ↔ c.toMinute = m') :
    m' = m ↔ t'.hour = t.hour ∧ t'.minute = t.minute := by
  obtain ⟨c, rfl⟩ := exists_reading m
  obtain ⟨hdate, hhour, hminute⟩ := vscpdatetime.sameMinute_iff.1 ((h c).2 rfl)
  obtain rfl := vscpdatetime.onDate_unique hdate hd
  constructor
  · intro hm
    obtain ⟨-, hhour', hminute'⟩ := vscpdatetime.sameMinute_iff.1 ((h' c).2 hm.symm)
    exact ⟨hhour'.trans hhour.symm, hminute'.trans hminute.symm⟩
  · rintro ⟨hhour', hminute'⟩
    apply Eq.symm
    apply (h' c).1
    exact vscpdatetime.sameMinute_iff.2 ⟨hd', hhour'.trans hhour, hminute'.trans hminute⟩

section
variable {K : Type}

/-- How many kinds come before `k` in `doWork`'s order and have its hour and
minute. -/
def rank (s : CAutomation K) (k : Kind) : ℕ :=
  (Kind.order.takeWhile (· ≠ k)).countP fun j =>
    (s.time j).hour = (s.time k).hour ∧ (s.time j).minute = (s.time k).minute

theorem rank_le (s : CAutomation K) (k : Kind) : rank s k ≤ 4 := by
  refine List.countP_le_length.trans ?_
  cases k <;> decide

/-- Five calls in a kind's minute are enough for it. -/
theorem sent_of_five {s : CAutomation K} {cs : List Clock} {k : Kind}
    (h : 5 ≤ cs.countP fun c => sameMinute c.now (s.time k)) :
    ∃ c : Clock, ((cs.filter fun c => sameMinute c.now (s.time k))[rank s k]?).toList = [c] ∧
      sameMinute c.now (s.time k) = true := by
  have hlen : rank s k < (cs.filter fun c => sameMinute c.now (s.time k)).length := by
    have := rank_le s k
    rw [← List.countP_eq_length_filter]
    omega
  refine ⟨_, ?_, (List.mem_filter.1 (List.getElem_mem hlen)).2⟩
  rw [List.getElem?_eq_getElem hlen, Option.toList_some]

variable [Field K] [LinearOrder K] [FloorRing K] (E : Env K)

/-- A day whose first call does not recalculate is a run of the agenda. -/
theorem serve_day (D : Day) (t : Kind → vscpdatetime) (due : Kind → Day ×ₗ Fin 24 ×ₗ Fin 60) {l : List Kind}
    {s : CAutomation K} {cs : List Clock} (hp : Pending D t l s) (hday : ∀ c ∈ cs, c.date = D)
    (hmono : cs.Pairwise (· ≤ ·)) (hfirst : ∀ c ∈ cs.head?, ¬ s.CalcDue c)
    (hdue : ∀ k (c : Clock), sameMinute c.now (t k) = true ↔ c.toMinute = due k)
    (hspan : ∀ t d, vscpdatetime.OnDate t d → (E.addSeconds t SPAN24).OnDate d.next) :
    let log := (Runs.run (workStep E) s cs).2
    log.filterMap Entry.calculation = [] ∧
      log.filterMap (Entry.handedAt .VSCP2_TYPE_VSCPD_NEW_CALCULATION) = [] ∧
      ∀ k : Kind, log.filterMap (Entry.handedAt k.vscp_type) =
        ((Runs.run (Agenda.tick due Clock.toMinute) l cs).2.filter fun x => x.2 = k).map Prod.fst := by
  cases cs with
  | nil => exact ⟨rfl, rfl, fun k => rfl⟩
  | cons c cs =>
    have hc : c.date = D := hday c List.mem_cons_self
    obtain ⟨h1, h2, h3, h4⟩ := serve D t due E hp hc (hfirst c rfl) (fun k => hdue k c) hspan
    obtain ⟨i2, i3, i4⟩ := serve_run D t due E cs h1 hday hmono (latch_doWork E c s) hdue hspan
    simp only [Runs.run, workStep, List.filterMap_append, List.filter_append, List.map_append]
    refine ⟨?_, ?_, ?_⟩
    · rw [h2, i2]
      rfl
    · rw [h3, i3]
      rfl
    · intro k
      rw [h4, i4]

/-- The calls of a day, however many, that come after its recalculation or
outside hour 0: each kind is sent at the call in its minute that its rank says,
if there are so many, and is not sent otherwise. -/
theorem day_exact {s : CAutomation K} {cs : List Clock} {D : Day}
    (hvalid : ∀ k, (s.time k).OnDate D ∧ (0 ≤ (s.time k).hour ∧ (s.time k).hour ≤ 23) ∧
      (0 ≤ (s.time k).minute ∧ (s.time k).minute ≤ 59))
    (hday : ∀ c ∈ cs, c.date = D) (hmono : cs.Pairwise (· ≤ ·)) (hfirst : ∀ c ∈ cs.head?, ¬ s.CalcDue c)
    (hspan : ∀ t d, vscpdatetime.OnDate t d → (E.addSeconds t SPAN24).OnDate d.next) :
    let log := (Runs.run (workStep E) s cs).2
    log.filterMap Entry.calculation = [] ∧
      log.filterMap (Entry.handedAt .VSCP2_TYPE_VSCPD_NEW_CALCULATION) = [] ∧
      ∀ k : Kind, log.filterMap (Entry.handedAt k.vscp_type) =
        ((cs.filter fun c => sameMinute c.now (s.time k))[rank s k]?).toList := by
  have hmin (k : Kind) := exists_minute (hvalid k).1 (hvalid k).2.1 (hvalid k).2.2
  choose due hdueD hdue using hmin
  have hp : Pending D s.time Kind.order s :=
    ⟨List.Sublist.refl _, fun k _ => rfl, fun k hk => absurd k.mem_order hk⟩
  obtain ⟨h1, h2, h3⟩ := serve_day E D s.time due hp hday hmono hfirst hdue hspan
  refine ⟨h1, h2, ?_⟩
  intro k
  have hrank : Agenda.rank due Kind.order k = rank s k := by
    unfold Agenda.rank rank
    apply List.countP_congr
    intro j _
    simp only [decide_eq_true_eq]
    exact minute_eq_iff (hvalid k).1 (hvalid j).1 (hdue k) (hdue j)
  have hcalls : (cs.filter fun c => c.toMinute = due k) = cs.filter fun c => sameMinute c.now (s.time k) := by
    apply List.filter_congr
    intro c _
    rw [Bool.eq_iff_iff, decide_eq_true_iff, hdue]
  rw [h3, Agenda.served_rank due Clock.toMinute Kind.order_nodup cs k.mem_order, hrank, hcalls]

/-- Sunrise and noon in one minute, which has two calls: sunrise is sent at the
first and noon at the second. -/
theorem day_exact_march :
    let E := rationalEnv fun _ => .error .parse_error
    let s₀ := new E (march 20 5 30 (by decide))
    let s := { s₀ with m_noonTime := s₀.m_SunriseTime }
    let c := march 20 6 1 (by decide)
    let cs := [c, { c with second := 30 }]
    let log := (Runs.run (workStep E) s cs).2
    rank s .noon = 1 ∧ log.filterMap Entry.calculation = [] ∧
      log.filterMap (Entry.handedAt .VSCP2_TYPE_VSCPD_NEW_CALCULATION) = [] ∧
      ∀ k : Kind, log.filterMap (Entry.handedAt k.vscp_type) =
        ((cs.filter fun c => sameMinute c.now (s.time k))[rank s k]?).toList := by
  intro E s₀ s c cs
  have hvalid : ∀ k ∈ Kind.order, (0 ≤ (s.time k).hour ∧ (s.time k).hour ≤ 23) ∧
      (0 ≤ (s.time k).minute ∧ (s.time k).minute ≤ 59) := by decide +kernel
  have hdate (k : Kind) : (s.time k).OnDate c.date := by
    cases k <;> exact vscpdatetime.onDate_now c
  exact ⟨by decide +kernel, day_exact E (fun k => ⟨hdate k, hvalid k k.mem_order⟩) (by decide) (by decide)
    (fun c hc h => by obtain rfl := Option.some.inj hc; exact absurd h.2 (by decide))
    (rationalEnv_lawful _).addSpan_onDate⟩

/-! ## The first day -/

/-- The calls of a day that a test keeps. -/
theorem wholeDay_filter {day : ℕ} {hday : 1 ≤ day ∧ day ≤ 31} {p : Clock → Bool} {h : Fin 24} {m : Fin 60}
    (hp : ∀ c : Clock, c.toMinute = (march day h m hday).toMinute → p c = true) :
    6 ≤ ((wholeDay day hday).filter p).countP fun c => c.toMinute = (march day h m hday).toMinute := by
  refine (wholeDay_six day hday h m).trans (le_of_eq ?_)
  rw [List.countP_filter]
  apply List.countP_congr
  intro c _
  simp only [decide_eq_true_eq, Bool.and_eq_true]
  constructor
  · intro hc
    exact ⟨hc, hp c hc⟩
  · rintro ⟨hc, -⟩
    exact hc

/-- Within one day the minute never goes back. -/
theorem minutes_mono {a b : Clock} (h : a.toMinute ≤ b.toMinute) (hd : a.date = b.date) :
    60 * a.now.hour + a.now.minute ≤ 60 * b.now.hour + b.now.minute := by
  simp only [Clock.toMinute, Prod.Lex.toLex_le_toLex, hd, lt_self_iff_false, false_or, true_and, Fin.lt_def,
    Fin.le_def, Fin.ext_iff] at h
  have ha := a.minute.isLt
  simp only [Clock.now]
  omega

/-- Opened outside hour 0 and then called five times in every minute, the driver
sends on its first day, once and in time, the kinds whose minute is still to
come, and none whose minute has passed. -/
theorem first_day (start : Clock) (path : String) (guid : cguid) (content : String) {cs : List Clock}
    (hhour : start.hour ≠ 0) (hday : ∀ c ∈ cs, c.date = start.date) (hmono : (start :: cs).Pairwise (· ≤ ·))
    (hfive : ∀ m, start.toMinute < m → (ofLex m).1 = start.date → 5 ≤ cs.countP fun c => c.toMinute = m)
    (hvalid : ∀ k, let t := scheduled E (NoRepeat.homeLatitude E start) (NoRepeat.homeLongitude E start) start k
      t.OnDate start.date ∧ (0 ≤ t.hour ∧ t.hour ≤ 23) ∧ (0 ≤ t.minute ∧ t.minute ≤ 59))
    (hspan : ∀ t d, vscpdatetime.OnDate t d → (E.addSeconds t SPAN24).OnDate d.next) :
    let log := (Runs.run (workStep E) (opened E start path guid content) cs).2
    log.filterMap Entry.calculation = [] ∧
      log.filterMap (Entry.handedAt .VSCP2_TYPE_VSCPD_NEW_CALCULATION) = [] ∧
      ∀ k : Kind,
        let t := scheduled E (NoRepeat.homeLatitude E start) (NoRepeat.homeLongitude E start) start k
        (60 * start.now.hour + start.now.minute < 60 * t.hour + t.minute →
            ∃ c : Clock, log.filterMap (Entry.handedAt k.vscp_type) = [c] ∧ sameMinute c.now t = true) ∧
          (60 * t.hour + t.minute < 60 * start.now.hour + start.now.minute →
            log.filterMap (Entry.handedAt k.vscp_type) = []) := by
  obtain ⟨hstart, hcs⟩ := List.pairwise_cons.1 hmono
  have htimes := congrArg Plan.due (opened_plan E start path guid content)
  have htime (k : Kind) : (opened E start path guid content).time k =
      scheduled E (NoRepeat.homeLatitude E start) (NoRepeat.homeLongitude E start) start k := by
    refine (congrFun htimes k).trans ?_
    exact doCalc_time E start _ k
  -- no call of the day is in hour 0
  have hfirst : ∀ c ∈ cs.head?, ¬ (opened E start path guid content).CalcDue c := by
    rintro c hc ⟨-, h0⟩
    have hmem : c ∈ cs := List.mem_of_mem_head? hc
    have hle := Clock.hour_mono (hstart c hmem) (hday c hmem).symm
    rw [h0, Fin.le_zero_iff] at hle
    exact hhour hle
  obtain ⟨h1, h2, h3⟩ := day_exact E (D := start.date) (fun k => htime k ▸ hvalid k) hday hcs hfirst hspan
  refine ⟨h1, h2, ?_⟩
  intro k t
  rw [h3 k, htime k]
  constructor
  · intro hlt
    obtain ⟨m, hm, hcalls⟩ := exists_minute (hvalid k).1 (hvalid k).2.1 (hvalid k).2.2
    obtain ⟨c, rfl⟩ := exists_reading m
    obtain ⟨-, hhour', hminute'⟩ := vscpdatetime.sameMinute_iff.1 ((hcalls c).2 rfl)
    change t.hour = _ at hhour'
    change t.minute = _ at hminute'
    have hlater : start.toMinute < c.toMinute := by
      by_contra! hle
      have := minutes_mono hle hm
      simp only [Clock.now] at this hlt
      omega
    have hcount : cs.countP (fun x => sameMinute x.now t) = cs.countP fun x => x.toMinute = c.toMinute := by
      apply List.countP_congr
      intro x _
      rw [decide_eq_true_iff, hcalls]
    have hsent := @sent_of_five K (opened E start path guid content) cs k
    rw [htime k] at hsent
    exact hsent (hcount ▸ hfive c.toMinute hlater hm)
  · intro hlt
    have hnone : (cs.filter fun c => sameMinute c.now t) = [] := by
      rw [List.filter_eq_nil_iff]
      intro c hc hsame
      obtain ⟨-, hhour', hminute'⟩ := vscpdatetime.sameMinute_iff.1 hsame
      have := minutes_mono (Clock.toMinute_mono (hstart c hc)) (hday c hc).symm
      simp only [Clock.now] at this hlt
      omega
    rw [hnone]
    rfl

/-- Opened at half past six, after sunrise. -/
theorem first_day_march :
    let E := rationalEnv fun _ => .error .parse_error
    let start := march 20 6 30 (by decide)
    let cs := (wholeDay 20 (by decide)).filter fun c => decide (start ≤ c)
    let log := (Runs.run (workStep E) (opened E start "" (.replicate 16 0) "") cs).2
    log.filterMap Entry.calculation = [] ∧
      log.filterMap (Entry.handedAt .VSCP2_TYPE_VSCPD_NEW_CALCULATION) = [] ∧
      ∀ k : Kind,
        let t := scheduled E (NoRepeat.homeLatitude E start) (NoRepeat.homeLongitude E start) start k
        (60 * start.now.hour + start.now.minute < 60 * t.hour + t.minute →
            ∃ c : Clock, log.filterMap (Entry.handedAt k.vscp_type) = [c] ∧ sameMinute c.now t = true) ∧
          (60 * t.hour + t.minute < 60 * start.now.hour + start.now.minute →
            log.filterMap (Entry.handedAt k.vscp_type) = []) := by
  intro E start cs
  have hmem (c : Clock) (hc : c ∈ cs) : c.date = start.date ∧ start ≤ c := by
    obtain ⟨hday, hle⟩ := List.mem_filter.1 hc
    obtain ⟨h, m, rfl⟩ := mem_wholeDay hday
    exact ⟨rfl, of_decide_eq_true hle⟩
  have hvalid : ∀ k ∈ Kind.order,
      let t := scheduled E (NoRepeat.homeLatitude E start) (NoRepeat.homeLongitude E start) start k
      (0 ≤ t.hour ∧ t.hour ≤ 23) ∧ (0 ≤ t.minute ∧ t.minute ≤ 59) := by decide +kernel
  refine first_day E start _ _ _ (by decide) (fun c hc => (hmem c hc).1) ?_ ?_
    (fun k => ⟨vscpdatetime.onDate_now start, hvalid k k.mem_order⟩) (rationalEnv_lawful _).addSpan_onDate
  · refine List.pairwise_cons.2 ⟨fun c hc => (hmem c hc).2, ?_⟩
    exact (wholeDay_pairwise 20 _).filter _
  · intro m hlt hm
    obtain ⟨d, h, mi⟩ := m
    change d = _ at hm
    subst hm
    refine le_trans (by omega) (wholeDay_filter (h := h) (m := mi) ?_)
    intro c hc
    apply decide_eq_true
    by_contra! hle
    have := Clock.toMinute_mono hle.le
    rw [hc] at this
    exact this.not_gt hlt

/-! ## Days without a recalculation -/

/-- A call that does not recalculate moves a time on by 24h where it sends the
kind, and only there. -/
theorem time_doWork {c : Clock} {s : CAutomation K} (h : ¬ s.CalcDue c) (k : Kind) :
    (s.doWork E c).state.time k =
      (fun t => E.addSeconds t SPAN24)^[((s.doWork E c).log.filterMap (Entry.handedAt k.vscp_type)).length]
        (s.time k) := by
  have hd := doWork_did E c s
  generalize s.doWork E c = w at hd ⊢
  cases hd with
  | calculated hc => exact absurd hc h
  | idle => exact unlatch_time c s k
  | sent _ j hj l n r =>
    have htime : ((s.unlatch c).reschedule E c j).time k =
        if k = j then E.addSeconds (s.time j) SPAN24 else s.time k := by simp
    rw [handed_information]
    refine htime.trans ?_
    by_cases hjk : k = j
    · subst hjk
      rw [if_pos rfl, if_pos rfl]
      rfl
    · rw [if_neg hjk, if_neg hjk]
      rfl

theorem time_run {s : CAutomation K} {cs : List Clock} (h : ∀ c ∈ cs, c.hour ≠ 0) (k : Kind) :
    let r := Runs.run (workStep E) s cs
    r.1.time k =
      (fun t => E.addSeconds t SPAN24)^[(r.2.filterMap (Entry.handedAt k.vscp_type)).length] (s.time k) := by
  induction cs generalizing s with
  | nil => rfl
  | cons c cs ih =>
    simp only [Runs.run, workStep, List.filterMap_append, List.length_append]
    rw [ih fun c hc => h c (List.mem_cons_of_mem _ hc), time_doWork E fun hc => h c List.mem_cons_self hc.2,
      Nat.add_comm, Function.iterate_add_apply]

end

section
variable (hour : Kind → Fin 24) (minute : Kind → Fin 60)

/-- The calls of day `D`: none in hour 0, and five in the minute of each kind. -/
structure Awake (D : Day) (cs : List Clock) : Prop where
  date : ∀ c ∈ cs, c.date = D
  hours : ∀ c ∈ cs, c.hour ≠ 0
  mono : cs.Pairwise (· ≤ ·)
  five : ∀ k, 5 ≤ cs.countP fun c => c.toMinute = toLex (D, toLex (hour k, minute k))

/-- Such calls on day `D` and the days after it. -/
def AwakeFrom : Day → List (List Clock) → Prop
  | _, [] => True
  | D, cs :: days => Awake hour minute D cs ∧ AwakeFrom D.next days

end

section
variable {K : Type} [Field K] [LinearOrder K] [FloorRing K] (E : Env K) {hour : Kind → Fin 24}
  {minute : Kind → Fin 60} (hspan : ∀ t d, vscpdatetime.OnDate t d → (E.addSeconds t SPAN24).OnDate d.next ∧
    (E.addSeconds t SPAN24).hour = t.hour ∧ (E.addSeconds t SPAN24).minute = t.minute)
include hspan

/-- One such day: each kind is sent in its minute and put off to the same minute
of the next day. -/
theorem awake_day {s : CAutomation K} {D : Day} {cs : List Clock}
    (hs : ∀ k, (s.time k).OnDate D ∧ (s.time k).hour = (hour k : ℕ) ∧ (s.time k).minute = (minute k : ℕ))
    (h : Awake hour minute D cs) :
    let r := Runs.run (workStep E) s cs
    r.2.filterMap Entry.calculation = [] ∧
      r.2.filterMap (Entry.handedAt .VSCP2_TYPE_VSCPD_NEW_CALCULATION) = [] ∧
      ∀ k : Kind, (r.2.filterMap (Entry.handedAt k.vscp_type)).map Clock.toMinute =
          [toLex (D, toLex (hour k, minute k))] ∧
        (r.1.time k).OnDate D.next ∧ (r.1.time k).hour = (hour k : ℕ) ∧ (r.1.time k).minute = (minute k : ℕ) := by
  have hsame (k : Kind) (c : Clock) :
      sameMinute c.now (s.time k) = true ↔ c.toMinute = toLex (D, toLex (hour k, minute k)) := by
    obtain ⟨hd, hh, hm⟩ := hs k
    rw [vscpdatetime.sameMinute_iff, hh, hm, Clock.toMinute, EmbeddingLike.apply_eq_iff_eq, Prod.mk.injEq,
      EmbeddingLike.apply_eq_iff_eq, Prod.mk.injEq, Fin.ext_iff, Fin.ext_iff, Nat.cast_inj, Nat.cast_inj]
    constructor
    · rintro ⟨h1, h2, h3⟩
      exact ⟨vscpdatetime.onDate_unique h1 hd, h2.symm, h3.symm⟩
    · rintro ⟨rfl, h2, h3⟩
      exact ⟨hd, h2.symm, h3.symm⟩
  have hvalid (k : Kind) : (s.time k).OnDate D ∧ (0 ≤ (s.time k).hour ∧ (s.time k).hour ≤ 23) ∧
      (0 ≤ (s.time k).minute ∧ (s.time k).minute ≤ 59) := by
    obtain ⟨hd, hh, hm⟩ := hs k
    have h24 := (hour k).isLt
    have h60 := (minute k).isLt
    exact ⟨hd, by omega, by omega⟩
  obtain ⟨h1, h2, h3⟩ := day_exact E hvalid h.date h.mono
    (fun c hc hcalc => h.hours c (List.mem_of_mem_head? hc) hcalc.2) fun t d ht => (hspan t d ht).1
  refine ⟨h1, h2, ?_⟩
  intro k
  have hcount : cs.countP (fun c => c.toMinute = toLex (D, toLex (hour k, minute k))) =
      cs.countP fun c => sameMinute c.now (s.time k) := by
    apply List.countP_congr
    intro c _
    rw [decide_eq_true_iff, hsame]
  obtain ⟨c, hc, hck⟩ := sent_of_five (s := s) (k := k) (hcount ▸ h.five k)
  have hlog := (h3 k).trans hc
  have htime := time_run E (s := s) h.hours k
  dsimp only at htime hlog ⊢
  rw [hlog] at htime ⊢
  obtain ⟨hd, hh, hm⟩ := hs k
  obtain ⟨hd', hh', hm'⟩ := hspan _ _ hd
  rw [htime]
  refine ⟨?_, hd', hh'.trans hh, hm'.trans hm⟩
  rw [List.map_singleton, (hsame k c).1 hck]

/-- As long as no call falls in hour 0, nothing is recalculated and each kind is
sent every day in the same minute, once. -/
theorem without_recalculation {s : CAutomation K} {D : Day}
    (hs : ∀ k, (s.time k).OnDate D ∧ (s.time k).hour = (hour k : ℕ) ∧ (s.time k).minute = (minute k : ℕ))
    {days : List (List Clock)} (h : AwakeFrom hour minute D days) :
    let log := (Runs.run (workStep E) s days.flatten).2
    log.filterMap Entry.calculation = [] ∧
      log.filterMap (Entry.handedAt .VSCP2_TYPE_VSCPD_NEW_CALCULATION) = [] ∧
      ∀ k : Kind, (log.filterMap (Entry.handedAt k.vscp_type)).map Clock.toMinute =
        (List.range days.length).map fun i => toLex (Calendar.Date.next^[i] D, toLex (hour k, minute k)) := by
  induction days generalizing s D with
  | nil => exact ⟨rfl, rfl, fun k => rfl⟩
  | cons cs days ih =>
    obtain ⟨hcs, hdays⟩ := h
    obtain ⟨h1, h2, h3⟩ := awake_day E hspan hs hcs
    obtain ⟨i1, i2, i3⟩ := ih (fun k => (h3 k).2) hdays
    simp only [List.flatten_cons, Runs.run_append, List.filterMap_append, List.map_append, List.length_cons]
    refine ⟨?_, ?_, ?_⟩
    · rw [h1, i1]
      rfl
    · rw [h2, i2]
      rfl
    · intro k
      rw [(h3 k).1, i3, List.range_succ_eq_map, List.map_cons, List.map_map]
      rfl

end

/-- Two days asleep in hour 0. -/
theorem without_recalculation_march :
    let E := rationalEnv fun _ => .error .parse_error
    let s := new E (march 20 0 30 (by decide))
    let days := [(wholeDay 20 (by decide)).filter fun c => c.hour ≠ 0,
      (wholeDay 21 (by decide)).filter fun c => c.hour ≠ 0]
    let time : Kind → Fin 24 × Fin 60
      | .sunrise => (6, 1)
      | .civilTwilightSunrise => (5, 23)
      | .sunset => (18, 11)
      | .civilTwilightSunset => (18, 50)
      | .noon => (12, 6)
    let log := (Runs.run (workStep E) s days.flatten).2
    log.filterMap Entry.calculation = [] ∧
      log.filterMap (Entry.handedAt .VSCP2_TYPE_VSCPD_NEW_CALCULATION) = [] ∧
      ∀ k : Kind, (log.filterMap (Entry.handedAt k.vscp_type)).map Clock.toMinute =
        (List.range days.length).map fun i =>
          toLex (Calendar.Date.next^[i] (march 20 0 0 (by decide)).date, toLex ((time k).1, (time k).2)) := by
  intro E s days time
  have htime : ∀ k ∈ Kind.order, (s.time k).hour = ((time k).1 : ℕ) ∧ (s.time k).minute = ((time k).2 : ℕ) := by
    decide +kernel
  have hspan (t : vscpdatetime) (d : Day) (h : t.OnDate d) : (E.addSeconds t SPAN24).OnDate d.next ∧
      (E.addSeconds t SPAN24).hour = t.hour ∧ (E.addSeconds t SPAN24).minute = t.minute := by
    refine ⟨vscpdatetime.dayAfter_onDate h, ?_⟩
    change t.dayAfter.hour = t.hour ∧ t.dayAfter.minute = t.minute
    unfold vscpdatetime.dayAfter
    rw [vscpdatetime.toDay_onDate h]
    exact ⟨rfl, rfl⟩
  have hawake (day : ℕ) (hday : 1 ≤ day ∧ day ≤ 31) : Awake (fun k => (time k).1) (fun k => (time k).2)
      (march day 0 0 hday).date ((wholeDay day hday).filter fun c => c.hour ≠ 0) := by
    refine ⟨?_, ?_, (wholeDay_pairwise day hday).filter _, ?_⟩
    · intro c hc
      obtain ⟨h, m, rfl⟩ := mem_wholeDay (List.mem_filter.1 hc).1
      rfl
    · intro c hc
      exact of_decide_eq_true (List.mem_filter.1 hc).2
    · intro k
      refine le_trans (by omega) (wholeDay_filter (h := (time k).1) (m := (time k).2) ?_)
      intro c hc
      have hhour : c.hour = (time k).1 := congrArg (fun m => (ofLex (ofLex m).2).1) hc
      apply decide_eq_true
      rw [hhour]
      cases k <;> decide
  have hdate (k : Kind) : (s.time k).OnDate (march 20 0 0 (by decide)).date := by
    cases k <;> exact vscpdatetime.onDate_now (march 20 0 0 (by decide))
  exact without_recalculation E hspan (fun k => ⟨hdate k, htime k k.mem_order⟩)
    ⟨hawake 20 (by decide), hawake 21 (by decide), trivial⟩

end VscpAutomation.Days
