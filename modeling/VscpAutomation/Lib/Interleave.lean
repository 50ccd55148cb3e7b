import Mathlib.Algebra.BigOperators.Group.List.Basic
import Mathlib.Algebra.GroupWithZero.Nat
import Mathlib.Data.List.Infix
/-!
# Interleavings

A pool of threads over a shared state. A step starts a thread, moves one (with
the choice it makes, where it has one), or is a step of the environment. Any
order of steps is a run.

`Reachable.invariant` splits the pool around the thread that moves, which is
how sums over the pool (`total`) are kept: only one summand changes.

To show that one system does what another does, follow its steps in the other
one: `ReachableAs` forgets the order of the pool, so that the two may start
their threads in different orders. `run_spent` bounds what a run can do by a
potential, and `exists_run` finds a run to a goal.
-/

namespace Interleave

variable {σ τ β α ε : Type}

structure State (σ τ : Type) where
  shared : σ
  threads : List τ

/-- What threads and the environment can do. -/
structure System (σ τ β α ε : Type) where
  start : β → τ
  move : α → σ → τ → Option (σ × τ)
  env : ε → σ → Option σ

inductive Event (β α ε : Type) where
  | start (b : β)
  | move (i : ℕ) (a : α)
  | env (e : ε)

namespace System

variable (P : System σ τ β α ε)

def step (s : State σ τ) : Event β α ε → Option (State σ τ)
  | .start b => some ⟨s.shared, s.threads ++ [P.start b]⟩
  | .move i a =>
    match s.threads[i]? with
    | some t => (P.move a s.shared t).map fun r => ⟨r.1, s.threads.set i r.2⟩
    | none => none
  | .env e => (P.env e s.shared).map fun x => ⟨x, s.threads⟩

def run (s : State σ τ) : List (Event β α ε) → Option (State σ τ)
  | [] => some s
  | e :: es => (P.step s e).bind fun s' => run s' es

inductive Reachable (s₀ : State σ τ) : State σ τ → Prop
  | init : Reachable s₀ s₀
  | step {s s' : State σ τ} {e : Event β α ε} : Reachable s₀ s → P.step s e = some s' → Reachable s₀ s'

variable {P}

theorem run_reachable {s₀ s s' : State σ τ} (es : List (Event β α ε)) (h : P.Reachable s₀ s)
    (hr : P.run s es = some s') : P.Reachable s₀ s' := by
  induction es generalizing s with
  | nil =>
    obtain rfl := Option.some.inj hr
    exact h
  | cons e es ih =>
    obtain ⟨s₁, h1, h2⟩ := Option.bind_eq_some_iff.1 hr
    exact ih (h.step h1) h2

theorem run_append (s : State σ τ) (es es' : List (Event β α ε)) :
    P.run s (es ++ es') = (P.run s es).bind fun s' => P.run s' es' := by
  induction es generalizing s with
  | nil => rfl
  | cons e es ih => simp only [List.cons_append, run, ih, Option.bind_assoc]

theorem run_concat (s : State σ τ) (es : List (Event β α ε)) (e : Event β α ε) :
    P.run s (es ++ [e]) = (P.run s es).bind fun s' => P.step s' e := by
  rw [run_append]
  simp [run]

theorem step_set {s s' : State σ τ} {i : ℕ} {a : α} (h : P.step s (.move i a) = some s') :
    ∃ t x t', s.threads[i]? = some t ∧ P.move a s.shared t = some (x, t') ∧ s' = ⟨x, s.threads.set i t'⟩ := by
  simp only [step] at h
  split at h
  · rename_i t ht
    obtain ⟨⟨x, t'⟩, hm, rfl⟩ := Option.map_eq_some_iff.1 h
    exact ⟨t, x, t', ht, hm, rfl⟩
  · cases h

/-- The pool around a thread that moves. -/
theorem step_move {s s' : State σ τ} {i : ℕ} {a : α} (h : P.step s (.move i a) = some s') :
    ∃ l t r x t', s.threads = l ++ t :: r ∧ l.length = i ∧ P.move a s.shared t = some (x, t') ∧
      s' = ⟨x, l ++ t' :: r⟩ := by
  obtain ⟨t, x, t', ht, hm, rfl⟩ := step_set h
  obtain ⟨hi, rfl⟩ := List.getElem?_eq_some_iff.1 ht
  refine ⟨s.threads.take i, s.threads[i], s.threads.drop (i + 1), x, t', ?_, ?_, hm, ?_⟩
  · rw [List.getElem_cons_drop, List.take_append_drop]
  · rw [List.length_take, Nat.min_eq_left hi.le]
  · rw [← List.set_eq_take_cons_drop t' hi]

/-- A thread that can move, moves. -/
theorem step_of_move {x x' : σ} {l r : List τ} {t t' : τ} {a : α} (hm : P.move a x t = some (x', t')) :
    P.step ⟨x, l ++ t :: r⟩ (.move l.length a) = some ⟨x', l ++ t' :: r⟩ := by
  simp [step, hm]

/-- What holds at first, and is kept by starting a thread, by every move in any
pool, and by the environment, holds in every reachable state. -/
theorem Reachable.invariant {s₀ s : State σ τ} {I : State σ τ → Prop} (h : P.Reachable s₀ s) (h0 : I s₀)
    (hs : ∀ x l b, I ⟨x, l⟩ → I ⟨x, l ++ [P.start b]⟩)
    (hm : ∀ x l t r a x' t', I ⟨x, l ++ t :: r⟩ → P.move a x t = some (x', t') → I ⟨x', l ++ t' :: r⟩)
    (he : ∀ x l e x', I ⟨x, l⟩ → P.env e x = some x' → I ⟨x', l⟩) : I s := by
  induction h with
  | init => exact h0
  | @step s s' e _ hstep ih =>
    obtain ⟨x, l⟩ := s
    cases e with
    | start b =>
      simp only [System.step, Option.some.injEq] at hstep
      subst hstep
      exact hs x l b ih
    | move i a =>
      obtain ⟨l', t, r, x', t', hl, -, hmove, rfl⟩ := step_move hstep
      dsimp only at hl
      subst hl
      exact hm x l' t r a x' t' ih hmove
    | env e =>
      simp only [System.step] at hstep
      obtain ⟨x', hx, rfl⟩ := Option.map_eq_some_iff.1 hstep
      exact he x l e x' ih hx

end System

/-- A thread of a pool in which one moved is that one, or was there before. -/
theorem mem_swap {t t' u : τ} {l r : List τ} (h : u ∈ l ++ t' :: r) : u = t' ∨ u ∈ l ++ t :: r := by
  rcases List.mem_append.1 h with h | h
  · exact .inr (List.mem_append_left _ h)
  · rcases List.mem_cons.1 h with rfl | h
    · exact .inl rfl
    · exact .inr (List.mem_append_right _ (List.mem_cons_of_mem _ h))

/-! ## Sums over a pool -/

/-- The weights of the threads together. -/
def total (w : τ → ℕ) (threads : List τ) : ℕ := (threads.map w).sum

@[simp]
theorem total_nil (w : τ → ℕ) : total w [] = 0 := rfl

@[simp]
theorem total_cons (w : τ → ℕ) (t : τ) (l : List τ) : total w (t :: l) = w t + total w l := by
  simp [total]

@[simp]
theorem total_append (w : τ → ℕ) (l r : List τ) : total w (l ++ r) = total w l + total w r := by
  simp [total]

/-- A thread weighs no more than the pool. -/
theorem le_total {w : τ → ℕ} {t : τ} {l : List τ} (h : t ∈ l) : w t ≤ total w l := by
  obtain ⟨a, b, rfl⟩ := List.append_of_mem h
  rw [total_append, total_cons]
  omega

/-- A thread that keeps its weight keeps the sum. -/
theorem total_swap {w : τ → ℕ} {t t' : τ} (h : w t' = w t) (l r : List τ) :
    total w (l ++ t' :: r) = total w (l ++ t :: r) := by
  rw [total_append, total_append, total_cons, total_cons, h]

theorem total_perm (w : τ → ℕ) {l l' : List τ} (h : l.Perm l') : total w l = total w l' :=
  (h.map w).sum_eq

/-- Some thread has weight. -/
theorem exists_of_total_pos {w : τ → ℕ} {l : List τ} (h : 0 < total w l) : ∃ t ∈ l, 0 < w t := by
  induction l with
  | nil => exact absurd h (lt_irrefl 0)
  | cons t l ih =>
    rw [total_cons] at h
    by_cases ht : 0 < w t
    · exact ⟨t, List.mem_cons_self, ht⟩
    · obtain ⟨u, hl, hu⟩ := ih (by omega)
      exact ⟨u, List.mem_cons_of_mem t hl, hu⟩

theorem total_eq_zero {w : τ → ℕ} {l : List τ} (h : ∀ t ∈ l, w t = 0) : total w l = 0 := by
  induction l with
  | nil => rfl
  | cons t l ih =>
    rw [total_cons, h t List.mem_cons_self, ih fun u hu => h u (List.mem_cons_of_mem _ hu)]

/-! ## Following another system -/

namespace System

variable (P : System σ τ β α ε) (s₀ : State σ τ)

/-- `x` can be reached with the threads `l`, in some order. -/
def ReachableAs (x : σ) (l : List τ) : Prop := ∃ s, P.Reachable s₀ s ∧ s.shared = x ∧ s.threads.Perm l

variable {P s₀} {x x' : σ} {l l' r : List τ}

theorem ReachableAs.perm (h : P.ReachableAs s₀ x l) (hp : l.Perm l') : P.ReachableAs s₀ x l' := by
  obtain ⟨s, hs, hx, hl⟩ := h
  exact ⟨s, hs, hx, hl.trans hp⟩

theorem ReachableAs.start (h : P.ReachableAs s₀ x l) (b : β) : P.ReachableAs s₀ x (l ++ [P.start b]) := by
  obtain ⟨s, hs, rfl, hl⟩ := h
  exact ⟨_, hs.step (e := .start b) rfl, rfl, hl.append_right _⟩

theorem ReachableAs.env (h : P.ReachableAs s₀ x l) {e : ε} (he : P.env e x = some x') :
    P.ReachableAs s₀ x' l := by
  obtain ⟨s, hs, rfl, hl⟩ := h
  have hstep : P.step s (.env e) = some ⟨x', s.threads⟩ := by rw [step, he, Option.map_some]
  exact ⟨_, hs.step hstep, rfl, hl⟩

/-- A move of a thread, wherever it is in the pool. -/
theorem ReachableAs.move {t t' : τ} {a : α} (h : P.ReachableAs s₀ x (l ++ t :: r))
    (hm : P.move a x t = some (x', t')) : P.ReachableAs s₀ x' (l ++ t' :: r) := by
  obtain ⟨⟨x, threads⟩, hs, rfl, hl⟩ := h
  dsimp only at hl hm
  obtain ⟨l₁, r₁, rfl⟩ := List.append_of_mem (hl.mem_iff.2 (List.mem_append_right l List.mem_cons_self))
  have hrest : (l₁ ++ r₁).Perm (l ++ r) :=
    (List.perm_middle.symm.trans (hl.trans List.perm_middle)).cons_inv
  refine ⟨⟨x', l₁ ++ t' :: r₁⟩, hs.step (step_of_move hm), rfl, ?_⟩
  exact List.perm_middle.trans ((hrest.cons t').trans List.perm_middle.symm)

end System

/-! ## Potentials -/

namespace System

variable {P : System σ τ β α ε} {I : State σ τ → Prop} {μ : State σ τ → ℕ}

/-- What every step keeps, a run keeps. -/
theorem run_keeps (hstep : ∀ s e s', I s → P.step s e = some s' → I s') {s s' : State σ τ}
    (es : List (Event β α ε)) (hi : I s) (hr : P.run s es = some s') : I s' := by
  induction es generalizing s with
  | nil =>
    obtain rfl := Option.some.inj hr
    exact hi
  | cons e es ih =>
    obtain ⟨s₁, h1, h2⟩ := Option.bind_eq_some_iff.1 hr
    exact ih (hstep s e s₁ hi h1) h2

/-- If no step `ok` raises the potential, and those that count lower it, a run
of them counts no more than the potential it started with. -/
theorem run_spent {ok : Event β α ε → Prop} {counts : Event β α ε → Bool}
    (hstep : ∀ s e s', I s → ok e → P.step s e = some s' → I s' ∧ μ s' + (if counts e then 1 else 0) ≤ μ s)
    {s s' : State σ τ} (es : List (Event β α ε)) (hok : ∀ e ∈ es, ok e) (hi : I s) (hr : P.run s es = some s') :
    μ s' + es.countP counts ≤ μ s := by
  induction es generalizing s with
  | nil =>
    obtain rfl := Option.some.inj hr
    exact le_rfl
  | cons e es ih =>
    obtain ⟨s₁, h1, h2⟩ := Option.bind_eq_some_iff.1 hr
    obtain ⟨hi₁, hle₁⟩ := hstep s e s₁ hi (hok e List.mem_cons_self) h1
    have hle := ih (fun e' he => hok e' (List.mem_cons_of_mem e he)) hi₁ h2
    rw [List.countP_cons]
    omega

/-- If some step `ok` lowers the potential wherever the goal is not reached yet,
some run of them reaches it. -/
theorem exists_run {ok : Event β α ε → Prop} {goal : State σ τ → Prop}
    (hstep : ∀ s, I s → ¬ goal s → ∃ e s', ok e ∧ P.step s e = some s' ∧ I s' ∧ μ s' < μ s) {s : State σ τ}
    (hi : I s) : ∃ es s', (∀ e ∈ es, ok e) ∧ P.run s es = some s' ∧ goal s' := by
  induction h : μ s using Nat.strong_induction_on generalizing s with
  | _ n ih =>
    by_cases hg : goal s
    · exact ⟨[], s, by simp, rfl, hg⟩
    · obtain ⟨e, s₁, he, h1, hi₁, hlt⟩ := hstep s hi hg
      obtain ⟨es, s', hes, hr, hg'⟩ := ih (μ s₁) (h ▸ hlt) hi₁ rfl
      refine ⟨e :: es, s', ?_, by rw [run, h1, Option.bind_some, hr], hg'⟩
      intro e' he'
      rcases List.mem_cons.1 he' with rfl | he'
      · exact he
      · exact hes e' he'

end System

end Interleave
