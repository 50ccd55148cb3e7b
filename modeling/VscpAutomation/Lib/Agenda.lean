import VscpAutomation.Lib.Runs
import Mathlib.Data.List.Nodup
import Mathlib.Data.List.Count
/-!
# Agendas served one item at a tick

An agenda is a list of items, most urgent first; item `k` is due at `due k`. A
tick at `at_ c` serves the first item that is due then and strikes it off.

`served_rank`: an item is served at the tick of its time that its rank among the
items due with it says. So if each item's time gets at least as many ticks as
there are items due at that time, every item is served exactly once, when it is
due (`served_once`). The order of the ticks does not matter.
-/

namespace Agenda

section
variable {ι : Type}

/-- A search may skip items that never match. -/
theorem find?_sublist {p q : ι → Bool} {l l' : List ι} (hs : l.Sublist l') (hn : l'.Nodup)
    (hin : ∀ k ∈ l, p k = q k) (hout : ∀ k ∈ l', k ∉ l → p k = false) : l'.find? p = l.find? q := by
  induction hs with
  | slnil => rfl
  | @cons l l' k hs ih =>
    obtain ⟨hk, hn⟩ := List.nodup_cons.1 hn
    have hp : p k = false := hout k List.mem_cons_self fun h => hk (hs.subset h)
    rw [List.find?_cons_of_neg (by simp [hp])]
    exact ih hn hin fun j hj => hout j (List.mem_cons_of_mem _ hj)
  | @cons_cons l l' k hs ih =>
    obtain ⟨hk, hn⟩ := List.nodup_cons.1 hn
    rw [List.find?_cons, List.find?_cons, hin k List.mem_cons_self,
      ih hn (fun j hj => hin j (List.mem_cons_of_mem _ hj)) fun j hj hjl => ?_]
    apply hout j (List.mem_cons_of_mem _ hj)
    rw [List.mem_cons, not_or]
    exact ⟨fun he => hk (he ▸ hj), hjl⟩

end

variable {ι T τ : Type} [DecidableEq ι] [DecidableEq τ] (due : ι → τ) (at_ : T → τ)

/-- One tick: the items left, and the item served. -/
def tick (l : List ι) (c : T) : List ι × List (T × ι) :=
  match l.find? fun k => due k = at_ c with
  | some k => (l.erase k, [(c, k)])
  | none => (l, [])

/-- Only items of the agenda are served. -/
theorem served_mem (l : List ι) (cs : List T) :
    ∀ x ∈ (Runs.run (tick due at_) l cs).2, x.2 ∈ l := by
  induction cs generalizing l with
  | nil => simp [Runs.run]
  | cons c cs ih =>
    intro x hx
    simp only [Runs.run, tick] at hx
    split at hx
    · rename_i k hk
      rcases List.mem_append.1 hx with hx | hx
      · rw [List.mem_singleton.1 hx]; exact List.mem_of_find?_eq_some hk
      · exact List.mem_of_mem_erase (ih _ x hx)
    · exact ih l x (by simpa using hx)

/-- How many items before `k` are due with it. -/
def rank (l : List ι) (k : ι) : ℕ := (l.takeWhile (· ≠ k)).countP fun j => due j = due k

/-- An item that is left out counts where it comes first and is due with `k`. -/
theorem rank_middle (l r : List ι) {j k : ι} (hjk : j ≠ k) :
    rank due (l ++ j :: r) k = rank due (l ++ r) k + if k ∉ l ∧ due j = due k then 1 else 0 := by
  unfold rank
  induction l with
  | nil =>
    rw [List.nil_append, List.takeWhile_cons_of_pos (by simpa using hjk), List.countP_cons]
    simp
  | cons i l ih =>
    by_cases hik : i = k
    · subst hik
      rw [List.cons_append, List.cons_append, List.takeWhile_cons_of_neg (by simp),
        List.takeWhile_cons_of_neg (by simp)]
      simp
    · rw [List.cons_append, List.cons_append, List.takeWhile_cons_of_pos (by simpa using hik),
        List.takeWhile_cons_of_pos (by simpa using hik), List.countP_cons, List.countP_cons, ih]
      simp only [List.mem_cons, not_or, Ne.symm hik, not_false_eq_true, true_and]
      omega

/-- An item is served at the tick of its time that its rank says, if there are
so many. -/
theorem served_rank {l : List ι} (hl : l.Nodup) (cs : List T) {k : ι} (hk : k ∈ l) :
    ((Runs.run (tick due at_) l cs).2.filter fun x => x.2 = k).map Prod.fst =
      ((cs.filter fun c => at_ c = due k)[rank due l k]?).toList := by
  induction cs generalizing l with
  | nil => rfl
  | cons c cs ih =>
    simp only [Runs.run, tick]
    cases hf : l.find? (fun k => due k = at_ c) with
    | none =>
      have hc : at_ c ≠ due k := fun he => by simpa [he] using List.find?_eq_none.1 hf k hk
      rw [List.filter_cons_of_neg (by simpa using hc)]
      exact ih hl hk
    | some j =>
      obtain ⟨hj, pre, post, rfl, hpre⟩ := List.find?_eq_some_iff_append.1 hf
      have hdj : due j = at_ c := by simpa using hj
      have hpre (i : ι) (hi : i ∈ pre) : due i ≠ at_ c := by simpa using hpre i hi
      have herase : (pre ++ j :: post).erase j = pre ++ post := by
        rw [List.erase_append_right _ fun h => hpre j h hdj, List.erase_cons_head]
      dsimp only
      rw [herase, List.singleton_append]
      by_cases hjk : j = k
      · -- `k` is the first item due now, and then struck off
        subst hjk
        have hnone : ∀ i ∈ pre, i ≠ j := fun i hi he => hpre i hi (he ▸ hdj)
        have hrank : rank due (pre ++ j :: post) j = 0 := by
          unfold rank
          rw [List.takeWhile_append_of_pos (by simpa using hnone), List.takeWhile_cons_of_neg (by simp),
            List.append_nil, List.countP_eq_zero]
          intro i hi
          simpa [hdj] using hpre i hi
        have hrest : ((Runs.run (tick due at_) (pre ++ post) cs).2.filter fun x => x.2 = j) = [] := by
          rw [List.filter_eq_nil_iff]
          intro x hx
          have hmem := served_mem due at_ _ _ x hx
          rw [← herase] at hmem
          simp only [decide_eq_true_eq]
          rintro rfl
          exact hl.not_mem_erase hmem
        rw [hrank, List.filter_cons_of_pos (by simp), List.filter_cons_of_pos (by simp [hdj]), hrest]
        rfl
      · rw [List.filter_cons_of_neg (by simpa using hjk)]
        have hn : (pre ++ post).Nodup := herase ▸ hl.erase j
        have hmem : k ∈ pre ++ post := by
          have := (List.mem_erase_of_ne (Ne.symm hjk)).2 hk
          rwa [herase] at this
        rw [ih hn hmem, rank_middle due pre post hjk]
        by_cases hdk : due j = due k
        · rw [List.filter_cons_of_pos (by simp [← hdj, hdk]),
            if_pos ⟨fun h => hpre k h (hdk ▸ hdj), hdk⟩, List.getElem?_cons_succ]
        · rw [List.filter_cons_of_neg (by simpa [← hdj] using hdk), if_neg fun h => hdk h.2, Nat.add_zero]

theorem rank_lt {l : List ι} {k : ι} (hk : k ∈ l) : rank due l k < l.countP fun j => due j = due k := by
  obtain ⟨pre, post, rfl, hpre⟩ := List.eq_append_cons_of_mem hk
  have hnone : ∀ i ∈ pre, i ≠ k := fun i hi he => hpre (he ▸ hi)
  unfold rank
  rw [List.takeWhile_append_of_pos (by simpa using hnone), List.takeWhile_cons_of_neg (by simp), List.append_nil,
    List.countP_append, List.countP_cons_of_pos (by simp)]
  omega

theorem served_once {l : List ι} (hl : l.Nodup) (cs : List T)
    (h : ∀ k ∈ l, l.countP (fun j => due j = due k) ≤ cs.countP (fun c => at_ c = due k)) :
    ∀ k ∈ l, ∃ c ∈ cs, at_ c = due k ∧
      (Runs.run (tick due at_) l cs).2.filter (fun x => x.2 = k) = [(c, k)] := by
  intro k hk
  have hlt : rank due l k < (cs.filter fun c => at_ c = due k).length := by
    rw [← List.countP_eq_length_filter]
    exact Nat.lt_of_lt_of_le (rank_lt due hk) (h k hk)
  have hc := List.getElem_mem hlt
  have hserved := served_rank due at_ hl cs hk
  rw [List.getElem?_eq_getElem hlt, Option.toList_some] at hserved
  obtain ⟨x, hx, hfst⟩ := List.map_eq_singleton_iff.1 hserved
  have hsnd : x.2 = k := by
    have hmem : x ∈ (Runs.run (tick due at_) l cs).2.filter fun x => x.2 = k := hx ▸ List.mem_singleton_self x
    simpa using (List.mem_filter.1 hmem).2
  refine ⟨_, (List.mem_filter.1 hc).1, by simpa using (List.mem_filter.1 hc).2, ?_⟩
  rw [hx, ← hfst, ← hsnd]
end Agenda
