import Mathlib.Data.List.Range
import Mathlib.Data.List.Nodup
import Mathlib.Data.List.Perm.Subperm
import Mathlib.Algebra.Order.Ring.Int
/-!
# The first free number

A search that counts up from `h` until it meets a number that is not used,
with fuel. It ends if the numbers used are finitely many and the fuel exceeds
them (`search_isSome`).
-/

namespace FirstFree

variable (used : ℤ → Bool)

def search : ℕ → ℤ → Option ℤ
  | 0, _ => none
  | fuel + 1, h => if used h then search fuel (h + 1) else some h

variable {used}

/-- What the search finds is free, and nothing free comes before it. -/
theorem search_some {fuel : ℕ} {h k : ℤ} (hk : search used fuel h = some k) :
    h ≤ k ∧ used k = false ∧ ∀ j, h ≤ j → j < k → used j = true := by
  induction fuel generalizing h with
  | zero => cases hk
  | succ fuel ih =>
    rw [search] at hk
    by_cases hu : used h = true
    · rw [if_pos hu] at hk
      obtain ⟨h1, h2, h3⟩ := ih hk
      refine ⟨by omega, h2, ?_⟩
      intro j hj hjk
      rcases hj.eq_or_lt with rfl | hj
      · exact hu
      · exact h3 j hj hjk
    · rw [if_neg hu, Option.some.injEq] at hk
      subst hk
      exact ⟨le_rfl, by simpa using hu, fun j hj hjk => by omega⟩

theorem search_lt {fuel : ℕ} {h k : ℤ} (hk : search used fuel h = some k) : k < h + fuel := by
  induction fuel generalizing h with
  | zero => cases hk
  | succ fuel ih =>
    rw [search] at hk
    split at hk
    · have := ih hk
      omega
    · rw [Option.some.injEq] at hk
      omega

/-- More fuel changes nothing. -/
theorem search_mono {fuel fuel' : ℕ} (hle : fuel ≤ fuel') {h k : ℤ} (hk : search used fuel h = some k) :
    search used fuel' h = some k := by
  induction fuel generalizing h fuel' with
  | zero => cases hk
  | succ fuel ih =>
    obtain ⟨fuel', rfl⟩ := Nat.exists_eq_succ_of_ne_zero (by omega : fuel' ≠ 0)
    rw [search] at hk ⊢
    split
    · rw [if_pos ‹_›] at hk
      exact ih (by omega) hk
    · rwa [if_neg ‹_›] at hk

/-- A search that runs out of fuel has met used numbers only. -/
theorem search_none {fuel : ℕ} {h : ℤ} (hn : search used fuel h = none) :
    ∀ i < fuel, used (h + i) = true := by
  induction fuel generalizing h with
  | zero => simp
  | succ fuel ih =>
    rw [search] at hn
    by_cases hu : used h = true
    · rw [if_pos hu] at hn
      intro i hi
      cases i with
      | zero => simpa using hu
      | succ i =>
        have := ih hn i (by omega)
        rwa [add_assoc, add_comm (1 : ℤ), ← Nat.cast_succ] at this
    · rw [if_neg hu] at hn
      cases hn

theorem search_isSome {l : List ℤ} (hl : ∀ j, used j = true → j ∈ l) {fuel : ℕ} (hf : l.length < fuel) (h : ℤ) :
    (search used fuel h).isSome := by
  rw [Option.isSome_iff_ne_none]
  intro hn
  -- the numbers met would all be in `l`, and they are too many
  have hsub : (List.range fuel).map (fun i : ℕ => h + i) ⊆ l := by
    intro j hj
    obtain ⟨i, hi, rfl⟩ := List.mem_map.1 hj
    exact hl _ (search_none hn i (List.mem_range.1 hi))
  have hnodup : ((List.range fuel).map fun i : ℕ => h + i).Nodup :=
    List.nodup_range.map fun a b hab => by simpa using hab
  have := (List.subperm_of_subset hnodup hsub).length_le
  rw [List.length_map, List.length_range] at this
  omega

end FirstFree
