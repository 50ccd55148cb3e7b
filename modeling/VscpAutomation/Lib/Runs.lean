import Mathlib.Data.List.Induction
/-!
# Runs of a machine

A machine reads an input and produces outputs. `run` is its run over a list of
inputs, with the outputs in order. What holds of a run is shown from its last
step (`run_concat`, `run_induction`), and so are what a run leaves of a value its
steps write (`run_written`), and what holds at every point of a list
(`Throughout`) or of its last element of a kind (`LastOf`).
-/

namespace Runs

variable {S I O : Type} (step : S → I → S × List O)

def run (s : S) : List I → S × List O
  | [] => (s, [])
  | i :: is =>
    let r := step s i
    let t := run r.1 is
    (t.1, r.2 ++ t.2)

theorem run_append (s : S) (is js : List I) :
    run step s (is ++ js) =
      ((run step (run step s is).1 js).1, (run step s is).2 ++ (run step (run step s is).1 js).2) := by
  induction is generalizing s with
  | nil => rfl
  | cons i is ih => simp only [List.cons_append, run, ih, List.append_assoc]

theorem run_concat (s : S) (is : List I) (i : I) :
    run step s (is ++ [i]) =
      ((step (run step s is).1 i).1, (run step s is).2 ++ (step (run step s is).1 i).2) := by
  rw [run_append]; simp [run]

/-- What holds of the empty run, and of a run where it held before its last
step, holds of every run. -/
theorem run_induction {s : S} {P : List I → S → List O → Prop} (h0 : P [] s [])
    (hs : ∀ is i s' os, (s', os) = run step s is → P is s' os →
      P (is ++ [i]) (step s' i).1 (os ++ (step s' i).2)) (is : List I) :
    P is (run step s is).1 (run step s is).2 := by
  induction is using List.reverseRecOn with
  | nil => exact h0
  | append_singleton is i ih =>
    rw [run_concat]
    exact hs is i _ _ rfl ih

/-! ## Values that steps write -/

/-- A value that a step writes, or leaves alone, is after a run the one written
last. -/
theorem run_written {A : Type} (get : S → A) (writes : I → Option A)
    (h : ∀ s i, get (step s i).1 = (writes i).getD (get s)) (s : S) (is : List I) :
    get (run step s is).1 = (is.filterMap writes).getLast?.getD (get s) := by
  induction is using List.reverseRecOn with
  | nil => rfl
  | append_singleton is i ih =>
    rw [run_concat, h, ih, List.filterMap_append]
    cases hi : writes i <;> simp [hi]

/-- The outputs of a run are those of its steps, each from where the run was. -/
theorem mem_run {s : S} {is : List I} {o : O} :
    o ∈ (run step s is).2 ↔ ∃ pre i post, is = pre ++ i :: post ∧ o ∈ (step (run step s pre).1 i).2 := by
  constructor
  · intro ho
    induction is using List.reverseRecOn with
    | nil => cases ho
    | append_singleton is i ih =>
      rw [run_concat] at ho
      rcases List.mem_append.1 ho with ho | ho
      · obtain ⟨pre, j, post, rfl, hj⟩ := ih ho
        exact ⟨pre, j, post ++ [i], by simp, hj⟩
      · exact ⟨is, i, [], rfl, ho⟩
  · rintro ⟨pre, i, post, rfl, ho⟩
    rw [run_append]
    exact List.mem_append_right _ (List.mem_append_left _ ho)

/-! ## Conditions on each element -/

/-- `P` holds of each element, given those before it. -/
def Throughout {α : Type} (P : List α → α → Prop) (l : List α) : Prop :=
  ∀ pre a post, l = pre ++ a :: post → P pre a

section
variable {α : Type} {P : List α → α → Prop}

theorem throughout_nil : Throughout P [] := by
  intro pre a post h
  have := congrArg List.length h
  simp at this

theorem throughout_concat {l : List α} {a : α} : Throughout P (l ++ [a]) ↔ Throughout P l ∧ P l a := by
  constructor
  · intro h
    exact ⟨fun pre b post he => h pre b (post ++ [a]) (by simp [he]), h l a [] rfl⟩
  · rintro ⟨h, ha⟩ pre b post he
    rcases List.eq_nil_or_concat post with rfl | ⟨post, c, rfl⟩
    · obtain ⟨rfl, hb⟩ := List.append_inj' he rfl
      obtain rfl := List.singleton_inj.1 hb
      exact ha
    · rw [List.concat_eq_append, ← List.cons_append, ← List.append_assoc] at he
      exact h pre b post (List.append_inj' he rfl).1

theorem throughout_prefix {l l' : List α} (h : Throughout P (l ++ l')) : Throughout P l :=
  fun pre a post he => h pre a (post ++ l') (by simp [he])

end

/-! ## The last element with a property -/

/-- `a` is the last element of `l` that has `p`. -/
def LastOf {α : Type} (p : α → Prop) (l : List α) (a : α) : Prop :=
  ∃ pre post, l = pre ++ a :: post ∧ p a ∧ ∀ b ∈ post, ¬ p b

section
variable {α : Type} {p : α → Prop}

theorem not_lastOf_nil (a : α) : ¬ LastOf p [] a := by
  rintro ⟨pre, post, h, -⟩
  have := congrArg List.length h
  simp at this

theorem lastOf_concat {l : List α} {a b : α} :
    LastOf p (l ++ [b]) a ↔ p b ∧ a = b ∨ ¬ p b ∧ LastOf p l a := by
  constructor
  · rintro ⟨pre, post, he, ha, hpost⟩
    rcases List.eq_nil_or_concat post with rfl | ⟨post, c, rfl⟩
    · obtain rfl := List.singleton_inj.1 (List.append_inj' he rfl).2
      exact .inl ⟨ha, rfl⟩
    · rw [List.concat_eq_append, ← List.cons_append, ← List.append_assoc] at he
      obtain ⟨hl, hb⟩ := List.append_inj' he rfl
      obtain rfl := List.singleton_inj.1 hb
      refine .inr ⟨hpost _ (by simp), pre, post, hl, ha, fun c hc => hpost c (by simp [hc])⟩
  · rintro (⟨hb, rfl⟩ | ⟨hb, pre, post, rfl, ha, hpost⟩)
    · exact ⟨l, [], rfl, hb, by simp⟩
    · refine ⟨pre, post ++ [b], by simp, ha, ?_⟩
      intro c hc
      rcases List.mem_append.1 hc with hc | hc
      · exact hpost c hc
      · rwa [List.mem_singleton.1 hc]

end

end Runs
