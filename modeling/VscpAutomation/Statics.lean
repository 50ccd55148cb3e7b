import VscpAutomation.Rational
import VscpAutomation.Lib.Interleave
/-!
# doCalc of several objects at once

`L`, `g` and `daylen` are statics of the file, which the workers of all objects
and the constructors write and read without a lock. So a calculation may go on
with what another one stored. `degs` and `rads` are statics too, but every call
stores the same in them before it reads them.

While all calculations are for one day, they store the same `L` and `g`, and each
finds its own times whatever the others do; only the length of the day may be
another object's (`side_by_side`). For objects of one latitude it is not.
-/

namespace VscpAutomation.Statics

open Interleave

/-! ## State -/

structure Shared (K : Type) where
  L : K
  g : K
  daylen : K
deriving DecidableEq

/-- What a call of `doCalc` works on: its object's place and its reading. -/
structure Args (K : Type) where
  m_latitude : K
  m_longitude : K
  nowLocal : vscpdatetime
deriving DecidableEq

/-- Where a call is: at its next access of a static, with the locals it has. The
operands of the sum that `FNsun` returns are read from the left. -/
inductive At (K : Type) where
  -- FNsun
  | writeL
  | writeG
  | readL
  | readG (L : K)
  | readGAgain (L g : K)
  -- doCalc
  | readLAgain (lambda : K)
  | testL (lambda LL : K)
  | writeDaylen (delta equation : K)
  | testDaylen (delta equation : K)
  | zeroDaylen (delta equation : K)
  | readDaylen (delta equation : K)
  | done (r : Calc K)

structure Call (K : Type) where
  args : Args K
  at_ : At K

section
variable {K : Type} [Field K] [LinearOrder K] [FloorRing K] (E : Env K)

/-- The argument of `FNsun`. -/
def Args.d (a : Args K) : K :=
  FNday a.nowLocal.year (a.nowLocal.month + 1) a.nowLocal.day (a.nowLocal.hour : K)

def obliq (d : K) : K := 23.439 * rads - 0.0000004 * rads * d

def alpha (d lambda : K) : K := E.atan2 (E.cos (obliq d) * E.sin lambda) (E.cos lambda)

def delta (d lambda : K) : K := E.asin (E.sin (obliq d) * E.sin lambda)

def equation (LL : K) : K := 1440.0 * (1.0 - LL / pi / 2.0)

/-- The length of the day before it is cut off. -/
def rawDaylen (m_latitude delta : K) : K := degs * f0 E m_latitude delta / 7.5

/-- The locals that `doCalc` goes on with. -/
def finish (a : Args K) (delta equation daylen : K) : Calc K where
  delta := delta
  daylen := daylen
  maxAltitude := maxAltitude a.m_latitude delta
  times := (rawTimes (f0 E a.m_latitude delta) (f1 E a.m_latitude delta) a.m_longitude
    (E.tzOffset2LocalTime a.nowLocal) equation).wrap

/-- One access. -/
def access (s : Shared K) (a : Args K) : At K → Option (Shared K × At K)
  | .writeL => some ({ s with L := FNrange (280.461 * rads + 0.9856474 * rads * a.d) }, .writeG)
  | .writeG => some ({ s with g := FNrange (357.528 * rads + 0.9856003 * rads * a.d) }, .readL)
  | .readL => some (s, .readG s.L)
  | .readG L => some (s, .readGAgain L s.g)
  | .readGAgain L g => some (s, .readLAgain (lambdaOf E L g s.g))
  | .readLAgain lambda => some (s, .testL lambda (s.L - alpha E a.d lambda))
  | .testL lambda LL =>
    let LL := if s.L < pi then LL + 2.0 * pi else LL
    some (s, .writeDaylen (delta E a.d lambda) (equation LL))
  | .writeDaylen delta equation =>
    some ({ s with daylen := rawDaylen E a.m_latitude delta }, .testDaylen delta equation)
  | .testDaylen delta equation =>
    some (s, if s.daylen < 0.0001 then .zeroDaylen delta equation else .readDaylen delta equation)
  | .zeroDaylen delta equation => some ({ s with daylen := 0.0 }, .readDaylen delta equation)
  | .readDaylen delta equation => some (s, .done (finish E a delta equation s.daylen))
  | .done _ => none

/-- Any calls of `doCalc`. -/
def doCalcs : System (Shared K) (Call K) (Args K) Unit Empty where
  start a := ⟨a, .writeL⟩
  move _ s t := (access E s t.args t.at_).map fun r => (r.1, ⟨t.args, r.2⟩)
  env e := nomatch e

/-! ## Calls for one day -/

/-- The call has stored its mean longitude. -/
def At.wroteL : At K → Prop
  | .writeL => False
  | _ => True

/-- The call has stored its mean anomaly. -/
def At.wroteG : At K → Prop
  | .writeL => False
  | .writeG => False
  | _ => True

/-- The call has stored its length of the day. -/
def At.wroteDaylen : At K → Prop
  | .testDaylen _ _ => True
  | .zeroDaylen _ _ => True
  | .readDaylen _ _ => True
  | .done _ => True
  | _ => False

/-- The locals are those of a call for day `d` that runs alone, whatever the
length of the day is. -/
def At.Alone (d : K) (a : Args K) : At K → Prop
  | .writeL => True
  | .writeG => True
  | .readL => True
  | .readG L => L = (FNsun E d).L
  | .readGAgain L g => L = (FNsun E d).L ∧ g = (FNsun E d).g
  | .readLAgain lambda => lambda = (FNsun E d).lambda
  | .testL lambda LL => lambda = (FNsun E d).lambda ∧ LL = (FNsun E d).L - alpha E d lambda
  | .writeDaylen delta equation => ⟨delta, equation⟩ = sunPosition E d
  | .testDaylen delta equation => ⟨delta, equation⟩ = sunPosition E d
  | .zeroDaylen delta equation => ⟨delta, equation⟩ = sunPosition E d
  | .readDaylen delta equation => ⟨delta, equation⟩ = sunPosition E d
  | .done r => ∃ daylen, r = finish E a (sunPosition E d).delta (sunPosition E d).equation daylen

/-- `x` is the length of the day, cut off or not yet, at the place of a call. -/
def Stored (d x : K) (threads : List (Call K)) : Prop :=
  ∃ t ∈ threads, x = rawDaylen E t.args.m_latitude (sunPosition E d).delta ∨
    x = dayLength (f0 E t.args.m_latitude (sunPosition E d).delta)

structure Inv (d : K) (s : State (Shared K) (Call K)) : Prop where
  alone : ∀ t ∈ s.threads, t.at_.Alone E d t.args
  L : (∃ t ∈ s.threads, t.at_.wroteL) → s.shared.L = (FNsun E d).L
  g : (∃ t ∈ s.threads, t.at_.wroteG) → s.shared.g = (FNsun E d).g
  daylen : (∃ t ∈ s.threads, t.at_.wroteDaylen) → Stored E d s.shared.daylen s.threads
  /-- A call that cuts off has found a length that is cut off. -/
  zero : ∀ t ∈ s.threads, ∀ delta equation, t.at_ = .zeroDaylen delta equation → Stored E d 0.0 s.threads
  done : ∀ t ∈ s.threads, ∀ r, t.at_ = .done r → Stored E d r.daylen s.threads

variable {E}

/-- A length that is too short is cut off at its place. -/
theorem Stored.zero {d x : K} {threads : List (Call K)} (h : Stored E d x threads) (hx : x < 0.0001) :
    Stored E d 0.0 threads := by
  obtain ⟨t, ht, h⟩ := h
  refine ⟨t, ht, .inr ?_⟩
  unfold rawDaylen at h
  unfold dayLength at h ⊢
  dsimp only at h ⊢
  by_cases hraw : degs * f0 E t.args.m_latitude (sunPosition E d).delta / 7.5 < 0.0001
  · rw [if_pos hraw]
  · rw [if_neg hraw, or_self] at h
    exact absurd (h ▸ hx) hraw

/-- Calls keep their places. -/
theorem Stored.mono {d x : K} {threads threads' : List (Call K)} (h : Stored E d x threads)
    (hsub : ∀ t ∈ threads, ∃ t' ∈ threads', t'.args = t.args) : Stored E d x threads' := by
  obtain ⟨t, ht, h⟩ := h
  obtain ⟨t', ht', hargs⟩ := hsub t ht
  exact ⟨t', ht', by rwa [hargs]⟩

/-! ## What an access does -/

section
variable {s s' : Shared K} {a : Args K} {p p' : At K}

theorem access_L (h : access E s a p = some (s', p')) :
    s'.L = (FNsun E a.d).L ∨ s'.L = s.L ∧ (p'.wroteL → p.wroteL) := by
  cases p with
  | done r => cases h
  | writeL =>
    obtain ⟨rfl, rfl⟩ := Prod.mk.inj (Option.some.inj h)
    exact .inl rfl
  | _ =>
    obtain ⟨rfl, rfl⟩ := Prod.mk.inj (Option.some.inj h)
    exact .inr ⟨rfl, fun _ => trivial⟩

theorem access_g (h : access E s a p = some (s', p')) :
    s'.g = (FNsun E a.d).g ∨ s'.g = s.g ∧ (p'.wroteG → p.wroteG) := by
  cases p with
  | done r => cases h
  | writeG =>
    obtain ⟨rfl, rfl⟩ := Prod.mk.inj (Option.some.inj h)
    exact .inl rfl
  | writeL =>
    obtain ⟨rfl, rfl⟩ := Prod.mk.inj (Option.some.inj h)
    exact .inr ⟨rfl, id⟩
  | _ =>
    obtain ⟨rfl, rfl⟩ := Prod.mk.inj (Option.some.inj h)
    exact .inr ⟨rfl, fun _ => trivial⟩

/-- The length of the day is left alone, stored or cut off. -/
theorem access_daylen (h : access E s a p = some (s', p')) :
    s'.daylen = s.daylen ∧ (p'.wroteDaylen → p.wroteDaylen) ∨
      (∃ delta equation, p = .writeDaylen delta equation ∧ s'.daylen = rawDaylen E a.m_latitude delta) ∨
      ∃ delta equation, p = .zeroDaylen delta equation ∧ s'.daylen = 0.0 := by
  cases p with
  | done r => cases h
  | writeDaylen delta equation =>
    obtain ⟨rfl, rfl⟩ := Prod.mk.inj (Option.some.inj h)
    exact .inr (.inl ⟨delta, equation, rfl, rfl⟩)
  | zeroDaylen delta equation =>
    obtain ⟨rfl, rfl⟩ := Prod.mk.inj (Option.some.inj h)
    exact .inr (.inr ⟨delta, equation, rfl, rfl⟩)
  | testDaylen delta equation =>
    obtain ⟨rfl, rfl⟩ := Prod.mk.inj (Option.some.inj h)
    exact .inl ⟨rfl, fun _ => trivial⟩
  | readDaylen delta equation =>
    obtain ⟨rfl, rfl⟩ := Prod.mk.inj (Option.some.inj h)
    exact .inl ⟨rfl, fun _ => trivial⟩
  | _ =>
    obtain ⟨rfl, rfl⟩ := Prod.mk.inj (Option.some.inj h)
    exact .inl ⟨rfl, id⟩

theorem access_zero {delta equation : K} (h : access E s a p = some (s', .zeroDaylen delta equation)) :
    s.daylen < 0.0001 ∧ p.wroteDaylen := by
  cases p with
  | testDaylen delta' equation' =>
    obtain ⟨-, hp⟩ := Prod.mk.inj (Option.some.inj h)
    split at hp
    · exact ⟨‹_›, trivial⟩
    · cases hp
  | _ => cases h

theorem access_done {r : Calc K} (h : access E s a p = some (s', .done r)) :
    r.daylen = s.daylen ∧ p.wroteDaylen := by
  cases p with
  | testDaylen delta equation =>
    obtain ⟨-, hp⟩ := Prod.mk.inj (Option.some.inj h)
    split at hp <;> cases hp
  | readDaylen delta equation =>
    obtain ⟨-, hp⟩ := Prod.mk.inj (Option.some.inj h)
    cases hp
    exact ⟨rfl, trivial⟩
  | _ => cases h

/-- With the statics of its day, a call goes on as if alone. -/
theorem access_alone (h : access E s a p = some (s', p')) (hp : p.Alone E a.d a)
    (hL : p.wroteL → s.L = (FNsun E a.d).L) (hg : p.wroteG → s.g = (FNsun E a.d).g) : p'.Alone E a.d a := by
  cases p with
  | done r => cases h
  | writeL | writeG =>
    obtain ⟨rfl, rfl⟩ := Prod.mk.inj (Option.some.inj h)
    trivial
  | readL =>
    obtain ⟨rfl, rfl⟩ := Prod.mk.inj (Option.some.inj h)
    exact hL trivial
  | readG L =>
    obtain ⟨rfl, rfl⟩ := Prod.mk.inj (Option.some.inj h)
    exact ⟨hp, hg trivial⟩
  | readGAgain L g =>
    obtain ⟨rfl, rfl⟩ := Prod.mk.inj (Option.some.inj h)
    obtain ⟨rfl, rfl⟩ := hp
    unfold At.Alone
    rw [hg trivial]
    rfl
  | readLAgain lambda =>
    obtain ⟨rfl, rfl⟩ := Prod.mk.inj (Option.some.inj h)
    exact ⟨hp, by rw [hL trivial]⟩
  | testL lambda LL =>
    obtain ⟨rfl, rfl⟩ := Prod.mk.inj (Option.some.inj h)
    obtain ⟨rfl, rfl⟩ := hp
    unfold At.Alone
    rw [hL trivial]
    rfl
  | testDaylen delta equation =>
    obtain ⟨rfl, rfl⟩ := Prod.mk.inj (Option.some.inj h)
    split
    · exact hp
    · exact hp
  | writeDaylen delta equation | zeroDaylen delta equation =>
    obtain ⟨rfl, rfl⟩ := Prod.mk.inj (Option.some.inj h)
    exact hp
  | readDaylen delta equation =>
    obtain ⟨rfl, rfl⟩ := Prod.mk.inj (Option.some.inj h)
    refine ⟨s.daylen, ?_⟩
    obtain ⟨rfl, rfl⟩ := SunPosition.mk.inj hp
    rfl

end

/-! ## The invariant -/

theorem Stored.swap {d x : K} {t t' : Call K} {l r : List (Call K)} (h : Stored E d x (l ++ t :: r))
    (hargs : t'.args = t.args) : Stored E d x (l ++ t' :: r) := by
  apply h.mono
  intro u hu
  rcases mem_swap (t := t') hu with rfl | hu
  · exact ⟨t', List.mem_append_right _ List.mem_cons_self, hargs⟩
  · exact ⟨u, hu, rfl⟩

/-- A call that starts has stored nothing. -/
theorem inv_start {d : K} {x : Shared K} {l : List (Call K)} (a : Args K) (hi : Inv E d ⟨x, l⟩) :
    Inv E d ⟨x, l ++ [⟨a, .writeL⟩]⟩ := by
  have hmem {u : Call K} (hu : u ∈ l ++ [⟨a, .writeL⟩]) : u ∈ l ∨ u = ⟨a, .writeL⟩ := by
    simpa using hu
  have hstored {y : K} (h : Stored E d y l) : Stored E d y (l ++ [⟨a, .writeL⟩]) :=
    h.mono fun u hu => ⟨u, List.mem_append_left _ hu, rfl⟩
  refine ⟨?_, ?_, ?_, ?_, ?_, ?_⟩
  · intro u hu
    rcases hmem hu with hu | rfl
    · exact hi.alone u hu
    · trivial
  · rintro ⟨u, hu, hw⟩
    rcases hmem hu with hu | rfl
    · exact hi.L ⟨u, hu, hw⟩
    · exact hw.elim
  · rintro ⟨u, hu, hw⟩
    rcases hmem hu with hu | rfl
    · exact hi.g ⟨u, hu, hw⟩
    · exact hw.elim
  · rintro ⟨u, hu, hw⟩
    rcases hmem hu with hu | rfl
    · exact hstored (hi.daylen ⟨u, hu, hw⟩)
    · exact hw.elim
  · intro u hu delta equation hz
    rcases hmem hu with hu | rfl
    · exact hstored (hi.zero u hu delta equation hz)
    · cases hz
  · intro u hu r hr
    rcases hmem hu with hu | rfl
    · exact hstored (hi.done u hu r hr)
    · cases hr

/-- An access changes what its own call stores, and nothing the others have read. -/
theorem inv_access {x x' : Shared K} {a : Args K} {p p' : At K} {l r : List (Call K)}
    (hi : Inv E a.d ⟨x, l ++ ⟨a, p⟩ :: r⟩) (h : access E x a p = some (x', p')) :
    Inv E a.d ⟨x', l ++ ⟨a, p'⟩ :: r⟩ := by
  have hself : (⟨a, p⟩ : Call K) ∈ l ++ ⟨a, p⟩ :: r := List.mem_append_right _ List.mem_cons_self
  have hmem {u : Call K} (hu : u ∈ l ++ ⟨a, p'⟩ :: r) := mem_swap (t := ⟨a, p⟩) hu
  have hstored {y : K} (hy : Stored E a.d y (l ++ ⟨a, p⟩ :: r)) : Stored E a.d y (l ++ ⟨a, p'⟩ :: r) :=
    hy.swap rfl
  refine ⟨?_, ?_, ?_, ?_, ?_, ?_⟩
  · intro u hu
    rcases hmem hu with rfl | hu
    · exact access_alone h (hi.alone _ hself) (fun hw => hi.L ⟨_, hself, hw⟩) fun hw => hi.g ⟨_, hself, hw⟩
    · exact hi.alone u hu
  · rintro ⟨u, hu, hw⟩
    rcases access_L h with hL | ⟨hL, hwrote⟩
    · exact hL
    · refine hL.trans (hi.L ?_)
      rcases hmem hu with rfl | hu
      · exact ⟨_, hself, hwrote hw⟩
      · exact ⟨u, hu, hw⟩
  · rintro ⟨u, hu, hw⟩
    rcases access_g h with hg | ⟨hg, hwrote⟩
    · exact hg
    · refine hg.trans (hi.g ?_)
      rcases hmem hu with rfl | hu
      · exact ⟨_, hself, hwrote hw⟩
      · exact ⟨u, hu, hw⟩
  · rintro ⟨u, hu, hw⟩
    rcases access_daylen h with ⟨hd, hwrote⟩ | ⟨delta, equation, rfl, hd⟩ | ⟨delta, equation, rfl, hd⟩
    · dsimp only
      rw [hd]
      apply hstored
      apply hi.daylen
      rcases hmem hu with rfl | hu
      · exact ⟨_, hself, hwrote hw⟩
      · exact ⟨u, hu, hw⟩
    · refine ⟨_, List.mem_append_right _ List.mem_cons_self, .inl ?_⟩
      obtain ⟨rfl, -⟩ := SunPosition.mk.inj (hi.alone _ hself)
      exact hd
    · dsimp only
      rw [hd]
      exact hstored (hi.zero _ hself delta equation rfl)
  · intro u hu delta equation hz
    rcases hmem hu with rfl | hu
    · -- it has found a length that is too short
      obtain rfl : p' = .zeroDaylen delta equation := hz
      obtain ⟨hlt, hwrote⟩ := access_zero h
      exact hstored ((hi.daylen ⟨_, hself, hwrote⟩).zero hlt)
    · exact hstored (hi.zero u hu delta equation hz)
  · intro u hu res hres
    rcases hmem hu with rfl | hu
    · obtain rfl : p' = .done res := hres
      obtain ⟨hd, hwrote⟩ := access_done h
      rw [hd]
      exact hstored (hi.daylen ⟨_, hself, hwrote⟩)
    · exact hstored (hi.done u hu res hres)

/-- Calls for one day, wherever they are. -/
theorem inv_reachable {x₀ : Shared K} {s : State (Shared K) (Call K)} (h : (doCalcs E).Reachable ⟨x₀, []⟩ s) {d : K}
    (hd : ∀ t ∈ s.threads, t.args.d = d) : Inv E d s := by
  refine h.invariant (I := fun s => (∀ t ∈ s.threads, t.args.d = d) → Inv E d s) ?_ ?_ ?_ ?_ hd
  · intro _
    refine ⟨by simp, ?_, ?_, ?_, by simp, by simp⟩ <;> rintro ⟨u, hu, -⟩ <;> cases hu
  · intro x l a hi hd
    exact inv_start a (hi fun u hu => hd u (List.mem_append_left _ hu))
  · rintro x l ⟨a, p⟩ r _ x' t' hi hm hd
    obtain ⟨⟨x'', p'⟩, ha, he⟩ := Option.map_eq_some_iff.1 hm
    obtain ⟨rfl, rfl⟩ := Prod.mk.inj he
    obtain rfl : a.d = d := hd ⟨a, p'⟩ (List.mem_append_right _ List.mem_cons_self)
    refine inv_access (hi ?_) ha
    intro u hu
    rcases mem_swap (t := (⟨a, p'⟩ : Call K)) hu with rfl | hu
    · rfl
    · exact hd u hu
  · exact fun _ _ e => nomatch e

/-- Alone, a call finishes with the position of the sun and its own length of the
day. -/
theorem calcSun_eq (a : Args K) :
    calcSun E a.m_latitude a.m_longitude a.nowLocal =
      finish E a (sunPosition E a.d).delta (sunPosition E a.d).equation
        (dayLength (f0 E a.m_latitude (sunPosition E a.d).delta)) := rfl

/-- While all calls of `doCalc` are for one day, each finds the declination, the
altitude and the times it would find alone, however they take turns. The length
of the day is that of one of them, cut off or not yet; so if all are of one
latitude, and the day there is not so short that it is cut off, nothing that a
call finds shows that others were under way. -/
theorem side_by_side {x₀ : Shared K} {s : State (Shared K) (Call K)} (h : (doCalcs E).Reachable ⟨x₀, []⟩ s) {d : K}
    (hd : ∀ t ∈ s.threads, t.args.d = d) {a : Args K} {r : Calc K} (hdone : ⟨a, .done r⟩ ∈ s.threads) :
    let alone := calcSun E a.m_latitude a.m_longitude a.nowLocal
    r.delta = alone.delta ∧ r.maxAltitude = alone.maxAltitude ∧ r.times = alone.times ∧
      (∃ t ∈ s.threads, r.daylen = rawDaylen E t.args.m_latitude alone.delta ∨
        r.daylen = dayLength (f0 E t.args.m_latitude alone.delta)) ∧
      ((∀ t ∈ s.threads, t.args.m_latitude = a.m_latitude) →
        0.0001 ≤ rawDaylen E a.m_latitude alone.delta → r = alone) := by
  have hi := inv_reachable h hd
  obtain rfl : a.d = d := hd ⟨a, .done r⟩ hdone
  obtain ⟨daylen, rfl⟩ : ∃ daylen, r = finish E a _ _ daylen := hi.alone ⟨a, .done r⟩ hdone
  have hstored : Stored E a.d daylen s.threads := hi.done ⟨a, .done (finish E a _ _ daylen)⟩ hdone _ rfl
  rw [calcSun_eq]
  intro alone
  refine ⟨rfl, rfl, rfl, hstored, ?_⟩
  intro hlat hlong
  obtain ⟨t, ht, hdaylen⟩ := hstored
  have hcut : dayLength (f0 E a.m_latitude alone.delta) = rawDaylen E a.m_latitude alone.delta :=
    if_neg (not_lt.2 hlong)
  have hown : daylen = dayLength (f0 E a.m_latitude alone.delta) := by
    rw [hlat t ht] at hdaylen
    rcases hdaylen with hdaylen | hdaylen
    · exact hdaylen.trans hcut.symm
    · exact hdaylen
  exact congrArg (finish E a _ _) hown

end

/-! ## Two calls in turns -/

section
variable {K : Type}

/-- What a call that has returned found. -/
def Call.result (t : Call K) : Option (Calc K) :=
  match t.at_ with
  | .done r => some r
  | _ => none

theorem Call.result_some {t : Call K} {r : Calc K} (h : t.result = some r) : t = ⟨t.args, .done r⟩ := by
  obtain ⟨a, p⟩ := t
  cases p with
  | done r' =>
    obtain rfl := Option.some.inj h
    rfl
  | _ => cases h

/-- Two calls, access by access. -/
def turns (a b : Args K) : List (Event (Args K) Unit Empty) :=
  [.start a, .start b] ++ (List.replicate 10 [.move 0 (), .move 1 ()]).flatten

end

/-- Objects of one latitude, opened at midnight. -/
theorem side_by_side_midnight :
    let E := rationalEnv fun _ => .error .parse_error
    let a : Args ℚ := ⟨61, 15, (march 20 0 0 (by decide)).now⟩
    let b : Args ℚ := ⟨61, 10, (march 20 0 30 (by decide)).now⟩
    ∃ s, (doCalcs E).run ⟨⟨0, 0, 0⟩, []⟩ (turns a b) = some s ∧
      ⟨a, .done (calcSun E a.m_latitude a.m_longitude a.nowLocal)⟩ ∈ s.threads := by
  intro E a b
  have hrun : ((doCalcs E).run ⟨⟨0, 0, 0⟩, []⟩ (turns a b)).any (fun s =>
      s.threads.map Call.args = [a, b] ∧ s.threads.all fun t => t.result.isSome) = true := by
    decide +kernel
  obtain ⟨s, hs, hthreads⟩ := (Option.any_eq_true _ _).1 hrun
  obtain ⟨hargs, hall⟩ := of_decide_eq_true hthreads
  have hmem (t : Call ℚ) (ht : t ∈ s.threads) : t.args = a ∨ t.args = b := by
    have := List.mem_map_of_mem (f := Call.args) ht
    simpa [hargs] using this
  obtain ⟨t, ht, hta⟩ : ∃ t ∈ s.threads, t.args = a := List.mem_map.1 (hargs ▸ List.mem_cons_self)
  obtain ⟨r, hr⟩ := Option.isSome_iff_exists.1 (List.all_eq_true.1 hall t ht)
  have hdone : (⟨a, .done r⟩ : Call ℚ) ∈ s.threads := by
    rw [← hta, ← Call.result_some hr]
    exact ht
  have hday : b.d = a.d := by decide +kernel
  have hd (t : Call ℚ) (ht : t ∈ s.threads) : t.args.d = a.d := by
    rcases hmem t ht with h | h
    · rw [h]
    · rw [h, hday]
  have hlat (t : Call ℚ) (ht : t ∈ s.threads) : t.args.m_latitude = a.m_latitude := by
    rcases hmem t ht with h | h <;> rw [h]
  have hlong : 0.0001 ≤ rawDaylen E a.m_latitude (calcSun E a.m_latitude a.m_longitude a.nowLocal).delta := by
    decide +kernel
  have halone := (side_by_side (System.run_reachable _ .init hs) hd hdone).2.2.2.2 hlat hlong
  exact ⟨s, hs, halone ▸ hdone⟩

/-- At two latitudes, both objects take the length of the day of the one that
stored it last. -/
example :
    let E := rationalEnv fun _ => .error .parse_error
    let a : Args ℚ := ⟨61, 15, (march 20 0 0 (by decide)).now⟩
    let b : Args ℚ := ⟨40, 15, (march 20 0 0 (by decide)).now⟩
    ((doCalcs E).run ⟨⟨0, 0, 0⟩, []⟩ (turns a b)).map (fun s => s.threads.map fun t => t.result.map Calc.daylen) =
        some (List.replicate 2 (some (calcSun E b.m_latitude b.m_longitude b.nowLocal).daylen)) ∧
      (calcSun E a.m_latitude a.m_longitude a.nowLocal).daylen ≠
        (calcSun E b.m_latitude b.m_longitude b.nowLocal).daylen := by
  decide +kernel

end VscpAutomation.Statics
