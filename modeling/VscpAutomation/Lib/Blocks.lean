import Mathlib.Data.List.Induction
import Mathlib.Data.List.Infix
import Mathlib.Data.List.Nodup
import Mathlib.Data.List.Pairwise
import Mathlib.Order.Lattice
import Mathlib.Tactic.Push
/-!
# Blocks of a list

`heads p b l` lists the elements of `l` that begin a block of consecutive
elements satisfying `p`; `b` says whether the element before `l` satisfied it.
This is what a latch does that is set by `p` and cleared by anything else.

`onceEach_iff`: for keys that never decrease, each key with an element
satisfying `p` has exactly one block head, in every prefix, exactly when no
block runs on from one key to the next and no key has two blocks.
-/

namespace Blocks

variable {α β : Type} (p : α → Bool)

def heads : Bool → List α → List α
  | _, [] => []
  | b, x :: l => if p x && !b then x :: heads (p x) l else heads (p x) l

/-- Whether the last element of `l` satisfies `p`; `b` if there is none. -/
def last (b : Bool) (l : List α) : Bool := (l.getLast?.map p).getD b

@[simp]
theorem last_concat (b : Bool) (l : List α) (x : α) : last p b (l ++ [x]) = p x := by
  simp [last]

theorem last_cons (b : Bool) (x : α) (l : List α) : last p b (x :: l) = last p (p x) l := by
  cases l with
  | nil => simp [last]
  | cons y l => simp [last, List.getLast?_cons]

theorem heads_concat (b : Bool) (l : List α) (x : α) :
    heads p b (l ++ [x]) = heads p b l ++ if p x && !last p b l then [x] else [] := by
  induction l generalizing b with
  | nil => simp [heads, last]
  | cons y l ih =>
    simp only [List.cons_append, heads, ih, last_cons]
    split <;> simp

theorem heads_subset {b : Bool} {l : List α} {x : α} (h : x ∈ heads p b l) : x ∈ l ∧ p x = true := by
  induction l generalizing b with
  | nil => cases h
  | cons y l ih =>
    simp only [heads] at h
    split at h
    · rcases List.mem_cons.1 h with rfl | h
      · simp_all
      · exact ⟨List.mem_cons_of_mem _ (ih h).1, (ih h).2⟩
    · exact ⟨List.mem_cons_of_mem _ (ih h).1, (ih h).2⟩

/-- A block that runs on has no head. -/
theorem heads_true {l : List α} (h : ∀ x ∈ l, p x = true) : heads p true l = [] := by
  induction l with
  | nil => rfl
  | cons x l ih =>
    have hx : p x = true := h x List.mem_cons_self
    simp only [heads, hx, Bool.not_true, Bool.and_false, Bool.false_eq_true, if_false]
    apply ih
    intro y hy
    exact h y (List.mem_cons_of_mem _ hy)

variable (f : α → β)

/-- No block runs on from one key to the next, and no key has two blocks. -/
def Steady (l : List α) : Prop :=
  ∀ pre y x post, l = pre ++ y :: x :: post → p x = true →
    (p y = true → f y = f x) ∧ (p y = false → ∀ z ∈ pre, p z = true → f z ≠ f x)

theorem steady_concat (l : List α) (y x : α) :
    Steady p f (l ++ [y] ++ [x]) ↔ Steady p f (l ++ [y]) ∧ (p x = true →
      (p y = true → f y = f x) ∧ (p y = false → ∀ z ∈ l, p z = true → f z ≠ f x)) := by
  constructor
  · intro h
    refine ⟨fun pre y' x' post he => h pre y' x' (post ++ [x]) ?_, h l y x [] (by simp)⟩
    rw [he]; simp
  · rintro ⟨h, hx⟩ pre y' x' post he
    rcases List.eq_nil_or_concat post with rfl | ⟨post, z, rfl⟩
    · have he' : l ++ [y, x] = pre ++ [y', x'] := by simpa using he
      obtain ⟨rfl, h2⟩ := List.append_inj' he' rfl
      obtain ⟨rfl, h3⟩ := List.cons.inj h2
      obtain rfl := List.singleton_inj.1 h3
      exact hx
    · have he' : l ++ [y] ++ [x] = (pre ++ y' :: x' :: post) ++ [z] := by simpa using he
      exact h pre y' x' post (List.append_inj' he' rfl).1

variable [DecidableEq β]

/-- Each key that has an element satisfying `p` has exactly one block head,
and no other key has one. -/
def OnceEach (l : List α) : Prop :=
  ∀ d, ((heads p false l).map f).count d = if d ∈ (l.filter p).map f then 1 else 0

theorem onceEach_iff_nodup (l : List α) :
    OnceEach p f l ↔
      ((heads p false l).map f).Nodup ∧ ∀ x ∈ l, p x = true → f x ∈ (heads p false l).map f := by
  constructor
  · intro h
    refine ⟨List.nodup_iff_count_le_one.2 ?_, ?_⟩
    · intro d
      rw [h d]; split <;> omega
    · intro x hx hp
      have hd := h (f x)
      rw [if_pos (List.mem_map_of_mem (List.mem_filter.2 ⟨hx, hp⟩))] at hd
      exact List.count_pos_iff.1 (by omega)
  · rintro ⟨hn, hm⟩ d
    split
    · rename_i hd
      obtain ⟨x, hx, rfl⟩ := List.mem_map.1 hd
      obtain ⟨hx, hp⟩ := List.mem_filter.1 hx
      exact List.count_eq_one_of_mem hn (hm x hx hp)
    · rename_i hd
      apply List.count_eq_zero.2
      intro hh
      apply hd
      obtain ⟨x, hx, rfl⟩ := List.mem_map.1 hh
      exact List.mem_map_of_mem (List.mem_filter.2 (heads_subset p hx))

/-- One more element keeps `OnceEach` when it is a block head exactly if it is
the first of its key. -/
theorem onceEach_concat {l : List α} (h : OnceEach p f l) (x : α) :
    OnceEach p f (l ++ [x]) ↔
      (p x = true → (last p false l = false ↔ ∀ z ∈ l, p z = true → f z ≠ f x)) := by
  obtain ⟨hn, hm⟩ := (onceEach_iff_nodup p f l).1 h
  -- by `h`, a key has a head when it has an element
  have hkey : (∀ z ∈ l, p z = true → f z ≠ f x) ↔ f x ∉ (heads p false l).map f := by
    constructor
    · intro hall hx
      obtain ⟨z, hz, hf⟩ := List.mem_map.1 hx
      exact hall z (heads_subset p hz).1 (heads_subset p hz).2 hf
    · intro hx z hz hp hf
      exact hx (hf ▸ hm z hz hp)
  rw [onceEach_iff_nodup, heads_concat]
  cases hx : p x with
  | false =>
    simp only [Bool.false_and, Bool.false_eq_true, if_false, List.append_nil, false_implies, iff_true]
    refine ⟨hn, ?_⟩
    intro y hy hp
    rcases List.mem_append.1 hy with hy | hy
    · exact hm y hy hp
    · rw [List.mem_singleton.1 hy, hx] at hp; cases hp
  | true =>
    cases hl : last p false l with
    | false =>
      simp only [Bool.not_false, Bool.and_self, if_true, List.map_append, List.map_singleton,
        forall_const, true_iff]
      rw [hkey, List.nodup_append]
      constructor
      · rintro ⟨⟨-, -, hd⟩, -⟩ hf
        exact hd (f x) hf (f x) (by simp) rfl
      · intro hf
        refine ⟨⟨hn, by simp, ?_⟩, ?_⟩
        · intro a ha b hb
          rw [List.mem_singleton.1 hb]; rintro rfl; exact hf ha
        · intro y hy hp
          rcases List.mem_append.1 hy with hy | hy
          · exact List.mem_append_left _ (hm y hy hp)
          · rw [List.mem_singleton.1 hy]; simp
    | true =>
      simp only [Bool.not_true, Bool.and_false, Bool.false_eq_true, if_false, List.append_nil,
        forall_const, reduceCtorEq, false_iff]
      rw [hkey, not_not]
      constructor
      · intro h; exact h.2 x (by simp) hx
      · intro hf
        refine ⟨hn, ?_⟩
        intro y hy hp
        rcases List.mem_append.1 hy with hy | hy
        · exact hm y hy hp
        · rw [List.mem_singleton.1 hy]; exact hf

/-- With keys that never decrease: exactly one head for each key, in every
prefix, if and only if the list is `Steady`. -/
theorem onceEach_iff [PartialOrder β] (l : List α) (hmono : l.Pairwise (f · ≤ f ·)) :
    (∀ l', l' <+: l → OnceEach p f l') ↔ Steady p f l := by
  induction l using List.reverseRecOn with
  | nil =>
    refine ⟨fun _ pre y x post he => by simp at he, fun _ l' hl' => ?_⟩
    rw [List.prefix_nil.1 hl']
    intro d; simp [heads]
  | append_singleton l x ih =>
    have hml := (List.pairwise_append.1 hmono).1
    have hx : ∀ z ∈ l, f z ≤ f x := fun z hz => (List.pairwise_append.1 hmono).2.2 z hz x (by simp)
    have hpre : (∀ l', l' <+: l ++ [x] → OnceEach p f l') ↔
        (∀ l', l' <+: l → OnceEach p f l') ∧ OnceEach p f (l ++ [x]) := by
      simp only [List.prefix_concat_iff, or_imp, forall_and, forall_eq, and_comm]
    rw [hpre]
    rcases List.eq_nil_or_concat l with rfl | ⟨l, y, rfl⟩
    · have h0 : OnceEach p f [] := fun d => by simp [heads]
      constructor
      · rintro - pre y x' post he
        have := congrArg List.length he
        simp only [List.nil_append, List.length_append, List.length_cons, List.length_nil] at this
        omega
      · refine fun _ => ⟨fun l' hl' => by rw [List.prefix_nil.1 hl']; exact h0, ?_⟩
        rw [onceEach_concat p f h0]
        simp [last]
    · simp only [List.concat_eq_append] at *
      rw [steady_concat, ← ih hml]
      apply and_congr_right
      intro hp
      rw [onceEach_concat p f (hp _ List.prefix_rfl), last_concat]
      apply imp_congr_right
      intro hpx
      cases hy : p y with
      | true =>
        -- `y` is the last element before `x`: keys of `l` are at most its key
        simp only [Bool.true_eq_false, false_iff, forall_const, false_implies, and_true]
        push Not
        constructor
        · rintro ⟨z, hz, -, hf⟩
          refine le_antisymm (hx y (by simp)) (hf ▸ ?_)
          rcases List.mem_append.1 hz with hz | hz
          · exact (List.pairwise_append.1 hml).2.2 z hz y (by simp)
          · rw [List.mem_singleton.1 hz]
        · intro hf; exact ⟨y, by simp, hy, hf⟩
      | false =>
        simp only [true_iff, Bool.false_eq_true, false_implies, forall_const, true_and]
        constructor
        · intro h z hz; exact h z (by simp [hz])
        · intro h z hz hpz
          rcases List.mem_append.1 hz with hz | hz
          · exact h z hz hpz
          · rw [List.mem_singleton.1 hz, hy] at hpz; cases hpz

/-! ## Cutting at a key -/

/-- A list whose keys never decrease is what comes before key `d`, what has
key `d`, and what comes after. -/
theorem cut {γ : Type} [LinearOrder γ] [DecidableEq γ] (g : α → γ) (d : γ) (l : List α)
    (hmono : l.Pairwise (g · ≤ g ·)) :
    l.filter (fun x => g x < d) ++ (l.filter (fun x => g x = d) ++ l.filter (fun x => d < g x)) = l := by
  induction l with
  | nil => rfl
  | cons x l ih =>
    obtain ⟨hx, hl⟩ := List.pairwise_cons.1 hmono
    have ih := ih hl
    rcases lt_trichotomy (g x) d with h | h | h
    · simp [h, h.ne, h.not_gt, ih]
    · have h0 : l.filter (fun x => g x < d) = [] :=
        List.filter_eq_nil_iff.2 fun y hy => by simpa [← h] using hx y hy
      rw [h0] at ih
      simpa [h, h0] using ih
    · have h0 : l.filter (fun x => g x < d) = [] :=
        List.filter_eq_nil_iff.2 fun y hy => by simpa using (h.trans_le (hx y hy)).le
      have h1 : l.filter (fun x => g x = d) = [] :=
        List.filter_eq_nil_iff.2 fun y hy => by simpa using (h.trans_le (hx y hy)).ne'
      rw [h0, h1] at ih
      simpa [h, h.ne', h.not_gt, h0, h1] using ih

end Blocks
