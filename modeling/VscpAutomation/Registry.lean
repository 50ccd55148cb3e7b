import VscpAutomation.Lib.FirstFree
/-!
# The map of driver objects

`g_ifMap` and the functions that add, look up and remove an object. A handle is
a key of the map plus 1681. `α` stands for the pointers to objects; none in the
map is NULL.
-/

namespace VscpAutomation

/-- `std::map<long, CAutomation *>`. -/
abbrev IfMap (α : Type) := Std.TreeMap ℤ α

namespace IfMap

variable {α : Type} (g_ifMap : IfMap α)

theorem search_isSome : (FirstFree.search (fun h => g_ifMap.contains h) (g_ifMap.size + 1) 0).isSome := by
  refine FirstFree.search_isSome (l := g_ifMap.keys) ?_ ?_ 0
  · intro j hj
    exact Std.TreeMap.mem_keys.2 (Std.TreeMap.contains_iff_mem.1 hj)
  · rw [Std.TreeMap.length_keys]
    omega

/-- The free key `addDriverObject` finds. Fuel for one more key than the map
has is always enough. -/
def freeKey : ℤ := (FirstFree.search (fun h => g_ifMap.contains h) (g_ifMap.size + 1) 0).get g_ifMap.search_isSome

/-- The key is free and not negative, and no smaller one is. -/
theorem freeKey_spec : 0 ≤ g_ifMap.freeKey ∧ g_ifMap[g_ifMap.freeKey]? = none ∧
    ∀ j, 0 ≤ j → j < g_ifMap.freeKey → j ∈ g_ifMap := by
  obtain ⟨h1, h2, h3⟩ := FirstFree.search_some (Option.some_get g_ifMap.search_isSome).symm
  change g_ifMap.contains g_ifMap.freeKey = false at h2
  refine ⟨h1, ?_, fun j hj hk => Std.TreeMap.contains_iff_mem.1 (h3 j hj hk)⟩
  refine Std.TreeMap.getElem?_eq_none fun hm => ?_
  rw [Std.TreeMap.contains_iff_mem.2 hm] at h2
  cases h2

/-- The map with `pif`, and its handle. -/
def addDriverObject (pif : α) : IfMap α × ℤ := (g_ifMap.insert g_ifMap.freeKey pif, g_ifMap.freeKey + 1681)

def getDriverObject (h : ℤ) : Option α :=
  let idx := h - 1681
  if idx < 0 then none else g_ifMap[idx]?

/-- The map without `h`, and the object to delete. -/
def removeDriverObject (h : ℤ) : IfMap α × Option α :=
  let idx := h - 1681
  if idx < 0 then (g_ifMap, none)
  else
    match g_ifMap[idx]? with
    | some pObj => (g_ifMap.erase idx, some pObj)
    | none => (g_ifMap, none)

/-- The objects, in the order of their keys. -/
def objects : List α := g_ifMap.toList.map Prod.snd

/-! ## What the map holds -/

theorem mem_objects {x : α} : x ∈ g_ifMap.objects ↔ ∃ i : ℤ, g_ifMap[i]? = some x := by
  simp only [objects, List.mem_map, Prod.exists, exists_eq_right, Std.TreeMap.mem_toList_iff_getElem?_eq_some]

theorem getElem?_add (pif : α) (i : ℤ) :
    (g_ifMap.addDriverObject pif).1[i]? = if i = g_ifMap.freeKey then some pif else g_ifMap[i]? := by
  simp only [addDriverObject, Std.TreeMap.getElem?_insert, Std.LawfulEqCmp.compare_eq_iff_eq]
  exact if_congr eq_comm rfl rfl

theorem getElem?_remove (h i : ℤ) :
    (g_ifMap.removeDriverObject h).1[i]? = if i = h - 1681 ∧ 0 ≤ i then none else g_ifMap[i]? := by
  unfold removeDriverObject
  dsimp only
  by_cases hneg : h - 1681 < 0
  · rw [if_pos hneg, if_neg (by omega)]
  · rw [if_neg hneg]
    cases hg : g_ifMap[h - 1681]? with
    | none =>
      dsimp only
      split
      · rename_i hi
        rw [hi.1, hg]
      · rfl
    | some p =>
      simp only [Std.TreeMap.getElem?_erase, Std.LawfulEqCmp.compare_eq_iff_eq]
      by_cases hi : i = h - 1681
      · rw [if_pos hi.symm, if_pos ⟨hi, by omega⟩]
      · rw [if_neg (Ne.symm hi), if_neg fun h => hi h.1]

/-- What is removed is what a look-up finds. -/
theorem remove_snd (h : ℤ) : (g_ifMap.removeDriverObject h).2 = g_ifMap.getDriverObject h := by
  unfold removeDriverObject getDriverObject
  dsimp only
  split
  · rfl
  · cases g_ifMap[h - 1681]? <;> rfl

theorem remove_none {h : ℤ} (hg : g_ifMap.getDriverObject h = none) :
    g_ifMap.removeDriverObject h = (g_ifMap, none) := by
  unfold getDriverObject at hg
  unfold removeDriverObject
  dsimp only at hg ⊢
  split at hg
  · rw [if_pos ‹_›]
  · rw [if_neg ‹_›, hg]

theorem get_some {h : ℤ} {p : α} (hg : g_ifMap.getDriverObject h = some p) :
    0 ≤ h - 1681 ∧ g_ifMap[h - 1681]? = some p := by
  unfold getDriverObject at hg
  dsimp only at hg
  split at hg
  · cases hg
  · exact ⟨by omega, hg⟩

/-! ## Objects under one key -/

/-- No object is under two keys. -/
def Once : Prop := ∀ (i j : ℤ) (x : α), g_ifMap[i]? = some x → g_ifMap[j]? = some x → i = j

variable {g_ifMap}

/-- An object that is under one key only comes up once. -/
theorem Once.objects_nodup (h : g_ifMap.Once) : g_ifMap.objects.Nodup := by
  refine List.pairwise_map.2 (Std.TreeMap.distinct_keys_toList.imp_of_mem fun {a b} ha hb hab he => hab ?_)
  rw [Std.LawfulEqCmp.compare_eq_iff_eq]
  refine h a.1 b.1 a.2 (Std.TreeMap.mem_toList_iff_getElem?_eq_some.1 ha) ?_
  rw [he]
  exact Std.TreeMap.mem_toList_iff_getElem?_eq_some.1 hb

/-- A key of the new map holds the new object or what it held. -/
theorem add_some_iff {pif x : α} {i : ℤ} :
    (g_ifMap.addDriverObject pif).1[i]? = some x ↔
      i = g_ifMap.freeKey ∧ x = pif ∨ g_ifMap[i]? = some x := by
  rw [getElem?_add]
  by_cases hk : i = g_ifMap.freeKey
  · subst hk
    rw [if_pos rfl, g_ifMap.freeKey_spec.2.1, Option.some.injEq]
    simp [eq_comm]
  · rw [if_neg hk]
    simp [hk]

theorem Once.add (h : g_ifMap.Once) {pif : α} (hp : ∀ i : ℤ, g_ifMap[i]? ≠ some pif) :
    Once (g_ifMap.addDriverObject pif).1 := by
  intro i j x hi hj
  rcases add_some_iff.1 hi with ⟨hik, rfl⟩ | hi'
  · rcases add_some_iff.1 hj with ⟨hjk, -⟩ | hj'
    · rw [hik, hjk]
    · exact absurd hj' (hp j)
  · rcases add_some_iff.1 hj with ⟨-, rfl⟩ | hj'
    · exact absurd hi' (hp i)
    · exact h i j x hi' hj'

/-- The map keeps all objects but the one removed. -/
theorem Once.remove_some_iff (h : g_ifMap.Once) {handle : ℤ} {x y : α} {i : ℤ}
    (hy : g_ifMap.getDriverObject handle = some y) :
    (g_ifMap.removeDriverObject handle).1[i]? = some x ↔ g_ifMap[i]? = some x ∧ x ≠ y := by
  obtain ⟨hpos, hy⟩ := get_some g_ifMap hy
  rw [getElem?_remove]
  by_cases hi : i = handle - 1681
  · subst hi
    rw [if_pos ⟨rfl, hpos⟩, hy, Option.some.injEq]
    simp [eq_comm]
  · rw [if_neg fun hh => hi hh.1]
    refine ⟨fun hx => ⟨hx, ?_⟩, fun hx => hx.1⟩
    rintro rfl
    exact hi (h i _ x hx hy)

theorem Once.remove (h : g_ifMap.Once) (handle : ℤ) : Once (g_ifMap.removeDriverObject handle).1 := by
  intro i j x hi hj
  rw [getElem?_remove] at hi hj
  split at hi
  · cases hi
  · split at hj
    · cases hj
    · exact h i j x hi hj

end IfMap

end VscpAutomation
