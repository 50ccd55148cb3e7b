import VscpAutomation.Lib.Runs
import VscpAutomation.Registry
/-!
# Handles over a history

Objects are added and removed in any order, with any handles. `Live` says what
a history of such calls has left under a handle, without the map. The map
always agrees with it (`registry_correct`).
-/

namespace VscpAutomation.Handles

open Runs

/-! ## Any map -/

section
variable {α : Type} (g_ifMap : IfMap α)

/-- The search with any fuel that exceeds the map. -/
theorem search_eq_freeKey {fuel : ℕ} (hf : g_ifMap.size < fuel) :
    FirstFree.search (fun h => g_ifMap.contains h) fuel 0 = some g_ifMap.freeKey :=
  FirstFree.search_mono hf (Option.some_get g_ifMap.search_isSome).symm

theorem freeKey_le_size : g_ifMap.freeKey ≤ g_ifMap.size := by
  have := FirstFree.search_lt (search_eq_freeKey g_ifMap (Nat.lt_succ_self _))
  omega

/-- A key is looked up by its handle. -/
theorem getDriverObject_key {i : ℤ} (h : 0 ≤ i) : g_ifMap.getDriverObject (i + 1681) = g_ifMap[i]? := by
  unfold IfMap.getDriverObject
  dsimp only
  rw [if_neg (by omega), add_sub_cancel_right]

theorem getDriverObject_of_lt {h : ℤ} (hlt : h < 1681) : g_ifMap.getDriverObject h = none := by
  unfold IfMap.getDriverObject
  dsimp only
  rw [if_pos (by omega)]

theorem getDriverObject_add (pif : α) (h : ℤ) :
    (g_ifMap.addDriverObject pif).1.getDriverObject h =
      if h = (g_ifMap.addDriverObject pif).2 then some pif else g_ifMap.getDriverObject h := by
  have hpos := g_ifMap.freeKey_spec.1
  rcases lt_or_ge h 1681 with hlt | hge
  · rw [getDriverObject_of_lt _ hlt, getDriverObject_of_lt _ hlt, if_neg]
    change h ≠ g_ifMap.freeKey + 1681
    omega
  · obtain ⟨i, rfl⟩ : ∃ i, h = i + 1681 := ⟨h - 1681, by omega⟩
    rw [getDriverObject_key _ (by omega), getDriverObject_key _ (by omega), IfMap.getElem?_add]
    exact if_congr (add_left_inj 1681).symm rfl rfl

theorem getDriverObject_remove (h h' : ℤ) :
    (g_ifMap.removeDriverObject h).1.getDriverObject h' =
      if h' = h then none else g_ifMap.getDriverObject h' := by
  rcases lt_or_ge h' 1681 with hlt | hge
  · rw [getDriverObject_of_lt _ hlt, getDriverObject_of_lt _ hlt, ite_self]
  · obtain ⟨i, rfl⟩ : ∃ i, h' = i + 1681 := ⟨h' - 1681, by omega⟩
    rw [getDriverObject_key _ (by omega), getDriverObject_key _ (by omega), IfMap.getElem?_remove]
    exact if_congr (by omega) rfl rfl

theorem getDriverObject_handle (pif : α) : g_ifMap.getDriverObject (g_ifMap.addDriverObject pif).2 = none := by
  obtain ⟨hpos, hfree, -⟩ := g_ifMap.freeKey_spec
  exact (getDriverObject_key _ hpos).trans hfree

theorem getDriverObject_isSome {pif : α} {h : ℤ} (hge : 1681 ≤ h) (hlt : h < (g_ifMap.addDriverObject pif).2) :
    (g_ifMap.getDriverObject h).isSome := by
  change h < g_ifMap.freeKey + 1681 at hlt
  obtain ⟨i, rfl⟩ : ∃ i, h = i + 1681 := ⟨h - 1681, by omega⟩
  rw [getDriverObject_key _ (by omega), Std.TreeMap.isSome_getElem?_iff_mem]
  exact g_ifMap.freeKey_spec.2.2 i (by omega) (by omega)

end

/-! ## Histories -/

variable {α : Type}

inductive Call (α : Type) where
  | addDriverObject (pif : α)
  | removeDriverObject (h : ℤ)

/-- A call that has returned, with the handle it returned or was given. -/
inductive Event (α : Type) where
  | added (h : ℤ) (pif : α)
  | removed (h : ℤ)

def Event.handle : Event α → ℤ
  | .added h _ => h
  | .removed h => h

def step (g_ifMap : IfMap α) : Call α → IfMap α × List (Event α)
  | .addDriverObject pif =>
    let r := g_ifMap.addDriverObject pif
    (r.1, [.added r.2 pif])
  | .removeDriverObject h => ((g_ifMap.removeDriverObject h).1, [.removed h])

/-- `pif` was added last under `h`, and `h` was not removed since. -/
def Live (log : List (Event α)) (h : ℤ) (pif : α) : Prop := LastOf (fun e => e.handle = h) log (.added h pif)

/-- What the map and the next call do after the history `log`. -/
structure Correct (g_ifMap : IfMap α) (log : List (Event α)) : Prop where
  get_iff : ∀ h pif, g_ifMap.getDriverObject h = some pif ↔ Live log h pif
  /-- The search ends as soon as its fuel exceeds the map. -/
  search_ends : ∀ fuel, g_ifMap.size < fuel → ∀ pif,
    ∃ k, FirstFree.search (fun h => g_ifMap.contains h) fuel 0 = some k ∧ (g_ifMap.addDriverObject pif).2 = k + 1681
  add_ge : ∀ pif, 1681 ≤ (g_ifMap.addDriverObject pif).2
  /-- A handle is one more than the history is long, at most. -/
  add_le : ∀ pif, (g_ifMap.addDriverObject pif).2 ≤ 1681 + log.length
  add_fresh : ∀ pif pif', ¬ Live log (g_ifMap.addDriverObject pif).2 pif'
  add_least : ∀ pif h, 1681 ≤ h → h < (g_ifMap.addDriverObject pif).2 → ∃ pif', Live log h pif'
  add_get : ∀ pif, (g_ifMap.addDriverObject pif).1.getDriverObject (g_ifMap.addDriverObject pif).2 = some pif
  add_other : ∀ pif h, h ≠ (g_ifMap.addDriverObject pif).2 →
    (g_ifMap.addDriverObject pif).1.getDriverObject h = g_ifMap.getDriverObject h
  remove_get : ∀ h, (g_ifMap.removeDriverObject h).1.getDriverObject h = none
  remove_other : ∀ h h', h' ≠ h → (g_ifMap.removeDriverObject h).1.getDriverObject h' = g_ifMap.getDriverObject h'

/-- One call changes what is live as it changes the map. -/
theorem get_step {g_ifMap : IfMap α} {log : List (Event α)}
    (hlog : ∀ h pif, g_ifMap.getDriverObject h = some pif ↔ Live log h pif) (c : Call α) (h : ℤ) (pif : α) :
    (step g_ifMap c).1.getDriverObject h = some pif ↔ Live (log ++ (step g_ifMap c).2) h pif := by
  unfold Live
  cases c with
  | addDriverObject x =>
    simp only [step]
    rw [lastOf_concat, getDriverObject_add]
    by_cases hh : h = (g_ifMap.addDriverObject x).2
    · subst hh
      simp [Event.handle, eq_comm]
    · rw [if_neg hh, hlog]
      simp [Event.handle, Ne.symm hh, Live]
  | removeDriverObject h' =>
    simp only [step]
    rw [lastOf_concat, getDriverObject_remove]
    by_cases hh : h = h'
    · subst hh
      simp [Event.handle]
    · rw [if_neg hh, hlog]
      simp [Event.handle, Ne.symm hh, Live]

theorem size_step (g_ifMap : IfMap α) (c : Call α) : (step g_ifMap c).1.size ≤ g_ifMap.size + 1 := by
  cases c with
  | addDriverObject x => exact Std.TreeMap.size_insert_le
  | removeDriverObject h =>
    simp only [step, IfMap.removeDriverObject]
    split
    · exact Nat.le_succ _
    · split
      · exact Std.TreeMap.size_erase_le.trans (Nat.le_succ _)
      · exact Nat.le_succ _

theorem length_step (g_ifMap : IfMap α) (c : Call α) : (step g_ifMap c).2.length = 1 := by cases c <;> rfl

/-- What each call keeps. -/
structure Inv (g_ifMap : IfMap α) (log : List (Event α)) : Prop where
  get_iff : ∀ h pif, g_ifMap.getDriverObject h = some pif ↔ Live log h pif
  size_le : g_ifMap.size ≤ log.length
  range : ∀ (i : ℤ) (pif : α), g_ifMap[i]? = some pif → 0 ≤ i ∧ i < log.length

theorem Inv.init : Inv (∅ : IfMap α) [] where
  get_iff h pif := by
    refine iff_of_false ?_ (not_lastOf_nil _)
    unfold IfMap.getDriverObject
    simp
  size_le := le_rfl
  range i pif h := by simp at h

theorem Inv.step {g_ifMap : IfMap α} {log : List (Event α)} (h : Inv g_ifMap log) (c : Call α) :
    Inv (step g_ifMap c).1 (log ++ (step g_ifMap c).2) := by
  have hlength : (log ++ (Handles.step g_ifMap c).2).length = log.length + 1 := by
    rw [List.length_append, length_step]
  refine ⟨get_step h.get_iff c, ?_, ?_⟩
  · rw [hlength]
    exact (size_step g_ifMap c).trans (Nat.succ_le_succ h.size_le)
  · intro i pif hi
    rw [hlength]
    push_cast
    have hsize := h.size_le
    cases c with
    | addDriverObject x =>
      rcases IfMap.add_some_iff.1 hi with ⟨rfl, -⟩ | hi
      · have hpos := g_ifMap.freeKey_spec.1
        have hle := freeKey_le_size g_ifMap
        omega
      · have := h.range i pif hi
        omega
    | removeDriverObject handle =>
      simp only [Handles.step] at hi
      rw [IfMap.getElem?_remove] at hi
      split at hi
      · cases hi
      · have := h.range i pif hi
        omega

theorem inv_run (calls : List (Call α)) : Inv (run step ∅ calls).1 (run step ∅ calls).2 :=
  run_induction step (P := fun _ => Inv) Inv.init (fun _ c _ _ _ h => h.step c) calls

/-- After any calls, from the empty map. -/
theorem registry_correct (calls : List (Call α)) : Correct (run step ∅ calls).1 (run step ∅ calls).2 := by
  have hinv := inv_run calls
  generalize run step ∅ calls = r at hinv
  obtain ⟨m, log⟩ := r
  obtain ⟨hget, hsize, -⟩ := hinv
  dsimp only at hget hsize
  have hpos := m.freeKey_spec.1
  have hle := freeKey_le_size m
  exact {
    get_iff := hget
    search_ends := fun fuel hf pif => ⟨m.freeKey, search_eq_freeKey m hf, rfl⟩
    add_ge := fun pif => by change 1681 ≤ m.freeKey + 1681; omega
    add_le := fun pif => by change m.freeKey + 1681 ≤ 1681 + (log.length : ℤ); omega
    add_fresh := fun pif pif' hlive => by
      have := (hget _ _).2 hlive
      rw [getDriverObject_handle] at this
      cases this
    add_least := fun pif h hge hlt => by
      obtain ⟨pif', hp⟩ := Option.isSome_iff_exists.1 (getDriverObject_isSome m hge hlt)
      exact ⟨pif', (hget h pif').1 hp⟩
    add_get := fun pif => by rw [getDriverObject_add, if_pos rfl]
    add_other := fun pif h hne => by rw [getDriverObject_add, if_neg hne]
    remove_get := fun h => by rw [getDriverObject_remove, if_pos rfl]
    remove_other := fun h h' hne => by rw [getDriverObject_remove, if_neg hne] }

/-! ## 64-bit handles -/

/-- The key of a handle, with the subtraction wrapped to 64 bits. -/
def idx64 (h : ℤ) : ℤ := Int.bmod (h - 1681) (2 ^ 64)

/-- Where the subtraction of a `long` wraps, the key is one no map has come to. -/
theorem getDriverObject_idx64 (calls : List (Call α)) (hlen : calls.length < 2 ^ 62) {h : ℤ}
    (hh : -2 ^ 63 ≤ h ∧ h < 2 ^ 63) :
    (run step ∅ calls).1.getDriverObject h =
      if idx64 h < 0 then none else (run step ∅ calls).1[idx64 h]? := by
  have hrange := (inv_run calls).range
  have hlog : (run step (∅ : IfMap α) calls).2.length = calls.length := by
    refine run_induction step (s := (∅ : IfMap α)) (P := fun is _ log => log.length = is.length) rfl ?_ calls
    intro is c m log _ ih
    rw [List.length_append, length_step, ih, List.length_append, List.length_singleton]
  rw [hlog] at hrange
  rcases lt_or_ge h (-2 ^ 63 + 1681) with hlt | hge
  · have hidx : idx64 h = h - 1681 + 2 ^ 64 := by
      unfold idx64
      rw [← Int.add_bmod_right]
      exact Int.bmod_eq_of_le_mul_two (by omega) (by omega)
    rw [getDriverObject_of_lt _ (by omega), if_neg (by omega), eq_comm, Option.eq_none_iff_forall_ne_some]
    intro pif hi
    have := hrange _ pif hi
    omega
  · have hidx : idx64 h = h - 1681 := Int.bmod_eq_of_le_mul_two (by omega) (by omega)
    unfold IfMap.getDriverObject
    rw [hidx]

end VscpAutomation.Handles
