import VscpAutomation.ReceiveQueue
import VscpAutomation.Registry
import VscpAutomation.Lib.Runs
/-!
# API calls side by side

Calls of `VSCPOpen`, `VSCPClose`, `VSCPRead` and `VSCPWrite` by any clients.
Every call looks its handle up without the mutex and uses the object it found
later on; `VSCPClose` removes by handle, whatever is there then. So nothing
goes wrong exactly as long as each removal finds the object its own call
closed, and finds no other call that still has to use it.
-/

namespace VscpAutomation.Calls

open Interleave

open ReceiveQueue (Errno Canal waitError)

/-! ## State -/

/-- A step on an object. -/
inductive Act where
  | used (x : ℕ)
  | deleted (x : ℕ)
  /-- A `VSCPClose` whose look-up returned `own` removes and deletes `x`. -/
  | removed (own x : ℕ)
deriving DecidableEq

/-- The object a step is on. -/
def Act.touches : Act → ℕ
  | used x => x
  | deleted x => x
  | removed _ x => x

/-- The object a step deletes. -/
def Act.kills : Act → Option ℕ
  | used _ => none
  | deleted x => some x
  | removed _ x => some x

/-- The map, the number of objects created and the steps on objects so far. -/
structure Shared where
  g_ifMap : IfMap ℕ
  count : ℕ
  log : List Act

/-- A call, at its next step. -/
inductive Call where
  | new
  | addDriverObject (x : ℕ)
  | delete (x : ℕ)
  | opened (handle : ℤ)
  | getToClose (handle : ℤ)
  | close (handle : ℤ) (x : ℕ)
  | removeDriverObject (handle : ℤ) (x : ℕ)
  | getToWrite (handle : ℤ)
  | addEvent2SendQueue (x : ℕ)
  | getToRead (handle : ℤ)
  | vscp_sem_wait (x : ℕ)
  | pop_front (x : ℕ)
  | returned (ret : Canal)

inductive Api where
  | VSCPOpen
  | VSCPClose (handle : ℤ)
  | VSCPWrite (handle : ℤ)
  /-- `pEvent` says whether the pointer is not NULL. -/
  | VSCPRead (handle : ℤ) (pEvent : Bool)

/-- A step goes ahead; or `open` fails, or the wait does. -/
inductive Choice where
  | go
  | openFails
  | fails (errno : Errno)

/-- What a call does with what `getDriverObject` returned. -/
def found (s : Shared) (handle : ℤ) (next : ℕ → Call) : Shared × Call :=
  match s.g_ifMap.getDriverObject handle with
  | none => (s, .returned .CANAL_ERROR_MEMORY)
  | some x => (s, next x)

/-- A step that uses object `x`. -/
def use (s : Shared) (x : ℕ) : Shared := { s with log := s.log ++ [.used x] }

def move : Choice → Shared → Call → Option (Shared × Call)
  | .go, s, .new => some (use { s with count := s.count + 1 } s.count, .addDriverObject s.count)
  | .openFails, s, .new => some (use { s with count := s.count + 1 } s.count, .delete s.count)
  | .go, s, .addDriverObject x =>
    let r := s.g_ifMap.addDriverObject x
    some ({ s with g_ifMap := r.1 }, if r.2 = 0 then .delete x else .opened r.2)
  | .go, s, .delete x => some ({ s with log := s.log ++ [.deleted x] }, .opened 0)
  | .go, s, .getToClose handle => some (found s handle (.close handle))
  | .go, s, .close handle x => some (use s x, .removeDriverObject handle x)
  | .go, s, .removeDriverObject handle x =>
    match s.g_ifMap.removeDriverObject handle with
    | (g_ifMap, none) => some ({ s with g_ifMap := g_ifMap }, .returned .CANAL_ERROR_SUCCESS)
    | (g_ifMap, some pObj) =>
      some ({ s with g_ifMap := g_ifMap, log := s.log ++ [.removed x pObj] }, .returned .CANAL_ERROR_SUCCESS)
  | .go, s, .getToWrite handle => some (found s handle .addEvent2SendQueue)
  | .go, s, .addEvent2SendQueue x => some (use s x, .returned .CANAL_ERROR_SUCCESS)
  | .go, s, .getToRead handle => some (found s handle .vscp_sem_wait)
  | .go, s, .vscp_sem_wait x => some (use s x, .pop_front x)
  | .fails errno, s, .vscp_sem_wait x => some (use s x, .returned (waitError errno))
  | .go, s, .pop_front x => some (use s x, .returned .CANAL_ERROR_SUCCESS)
  | _, _, _ => none

def calls : System Shared Call Api Choice Empty where
  start
    | .VSCPOpen => .new
    | .VSCPClose handle => .getToClose handle
    | .VSCPWrite handle => .getToWrite handle
    | .VSCPRead handle pEvent => if pEvent then .getToRead handle else .returned .CANAL_ERROR_PARAMETER
  move := move
  env e := nomatch e

/-- The library has just been loaded. -/
def init : State Shared Call := ⟨⟨∅, 0, []⟩, []⟩

/-! ## The requirement and the condition -/

/-- No step is on an object that was deleted before, and a `VSCPClose` deletes
the object its look-up returned. -/
def Safe (log : List Act) : Prop :=
  Runs.Throughout (fun pre a => (∀ b ∈ pre, b.kills ≠ some a.touches) ∧ ∀ own x, a = .removed own x → x = own) log

/-- The object a call has looked up and has still to use. -/
def Call.held : Call → Option ℕ
  | .close _ x => some x
  | .addEvent2SendQueue x => some x
  | .vscp_sem_wait x => some x
  | .pop_front x => some x
  | _ => none

/-- The call has returned. -/
def Call.done : Call → Bool
  | .opened _ => true
  | .returned _ => true
  | _ => false

/-- If the event is a removal that finds an object under the handle, it is the
object the call has closed, and no call holds it. -/
def Undisturbed (s : State Shared Call) : Event Api Choice Empty → Prop
  | .move i _ => ∀ handle own x, s.threads[i]? = some (.removeDriverObject handle own) →
      s.shared.g_ifMap.getDriverObject handle = some x → x = own ∧ ∀ t ∈ s.threads, t.held ≠ some x
  | _ => True

/-- Every removal of the run is undisturbed. -/
def Disciplined (es : List (Event Api Choice Empty)) : Prop :=
  Runs.Throughout (fun pre e => ∀ s, calls.run init pre = some s → Undisturbed s e) es

/-! ## What a step does -/

/-- The object a call has made and nobody else knows. -/
def Call.owned : Call → Option ℕ
  | .addDriverObject x => some x
  | .delete x => some x
  | _ => none

/-- A step, from a call to its next, by what it does to the objects. -/
inductive Did (s : Shared) : Call → Shared → Call → Prop
  | nothing {t t' : Call} (ht : t.held = none ∧ t.owned = none) (ht' : t'.held = none ∧ t'.owned = none) :
      Did s t s t'
  | create {t t' : Call} (ht : t.held = none ∧ t.owned = none)
      (ht' : t'.held = none ∧ t'.owned = some s.count) :
      Did s t (use { s with count := s.count + 1 } s.count) t'
  | add {t t' : Call} (x : ℕ) (ht : t.held = none ∧ t.owned = some x) (ht' : t'.held = none ∧ t'.owned = none) :
      Did s t { s with g_ifMap := (s.g_ifMap.addDriverObject x).1 } t'
  | deleteOwn {t t' : Call} (x : ℕ) (ht : t.held = none ∧ t.owned = some x)
      (ht' : t'.held = none ∧ t'.owned = none) : Did s t { s with log := s.log ++ [.deleted x] } t'
  | look {t t' : Call} (handle : ℤ) (x : ℕ) (hx : s.g_ifMap.getDriverObject handle = some x)
      (ht : t.held = none ∧ t.owned = none) (ht' : t'.held = some x ∧ t'.owned = none) : Did s t s t'
  | use {t t' : Call} (x : ℕ) (ht : t.held = some x ∧ t.owned = none)
      (ht' : (t'.held = some x ∨ t'.held = none) ∧ t'.owned = none) : Did s t (use s x) t'
  | remove {t' : Call} (handle : ℤ) (own x : ℕ) (hx : s.g_ifMap.getDriverObject handle = some x)
      (ht' : t'.held = none ∧ t'.owned = none) :
      Did s (.removeDriverObject handle own)
        { s with g_ifMap := (s.g_ifMap.removeDriverObject handle).1, log := s.log ++ [.removed own x] } t'

theorem found_did (s : Shared) (handle : ℤ) (next : ℕ → Call) {t : Call} (ht : t.held = none ∧ t.owned = none)
    (hn : ∀ x, (next x).held = some x ∧ (next x).owned = none) :
    Did s t (found s handle next).1 (found s handle next).2 := by
  unfold found
  cases hg : s.g_ifMap.getDriverObject handle with
  | none => exact .nothing ht ⟨rfl, rfl⟩
  | some x => exact .look handle x hg ht (hn x)

theorem move_removes {a : Choice} {s s' : Shared} {handle : ℤ} {own x : ℕ} {t' : Call}
    (hg : s.g_ifMap.getDriverObject handle = some x)
    (h : move a s (.removeDriverObject handle own) = some (s', t')) :
    s' = { s with g_ifMap := (s.g_ifMap.removeDriverObject handle).1, log := s.log ++ [.removed own x] } ∧
      t' = .returned .CANAL_ERROR_SUCCESS := by
  have hr : s.g_ifMap.removeDriverObject handle = ((s.g_ifMap.removeDriverObject handle).1, some x) :=
    Prod.ext rfl ((s.g_ifMap.remove_snd handle).trans hg)
  cases a with
  | go =>
    simp only [move] at h
    rw [hr] at h
    obtain ⟨rfl, rfl⟩ := Prod.mk.inj (Option.some.inj h)
    exact ⟨rfl, rfl⟩
  | openFails => cases h
  | fails errno => cases h

theorem move_did {a : Choice} {s s' : Shared} {t t' : Call} (h : move a s t = some (s', t')) :
    Did s t s' t' := by
  cases a with
  | openFails =>
    cases t with
    | new =>
      obtain ⟨rfl, rfl⟩ := Prod.mk.inj (Option.some.inj h)
      exact .create ⟨rfl, rfl⟩ ⟨rfl, rfl⟩
    | _ => cases h
  | fails errno =>
    cases t with
    | vscp_sem_wait x =>
      obtain ⟨rfl, rfl⟩ := Prod.mk.inj (Option.some.inj h)
      exact .use x ⟨rfl, rfl⟩ ⟨.inr rfl, rfl⟩
    | _ => cases h
  | go =>
    cases t with
    | new =>
      obtain ⟨rfl, rfl⟩ := Prod.mk.inj (Option.some.inj h)
      exact .create ⟨rfl, rfl⟩ ⟨rfl, rfl⟩
    | addDriverObject x =>
      obtain ⟨rfl, rfl⟩ := Prod.mk.inj (Option.some.inj h)
      have hk := s.g_ifMap.freeKey_spec.1
      have hne : (s.g_ifMap.addDriverObject x).2 ≠ 0 := by
        simp only [IfMap.addDriverObject]
        omega
      rw [if_neg hne]
      exact .add x ⟨rfl, rfl⟩ ⟨rfl, rfl⟩
    | delete x =>
      obtain ⟨rfl, rfl⟩ := Prod.mk.inj (Option.some.inj h)
      exact .deleteOwn x ⟨rfl, rfl⟩ ⟨rfl, rfl⟩
    | opened handle => cases h
    | getToClose handle =>
      obtain ⟨h1, h2⟩ := Prod.mk.inj (Option.some.inj h)
      rw [← h1, ← h2]
      exact found_did s handle _ ⟨rfl, rfl⟩ fun x => ⟨rfl, rfl⟩
    | close handle x =>
      obtain ⟨rfl, rfl⟩ := Prod.mk.inj (Option.some.inj h)
      exact .use x ⟨rfl, rfl⟩ ⟨.inr rfl, rfl⟩
    | removeDriverObject handle own =>
      cases hg : s.g_ifMap.getDriverObject handle with
      | none =>
        simp only [move] at h
        rw [IfMap.remove_none _ hg] at h
        obtain ⟨rfl, rfl⟩ := Prod.mk.inj (Option.some.inj h)
        exact .nothing ⟨rfl, rfl⟩ ⟨rfl, rfl⟩
      | some x =>
        obtain ⟨rfl, rfl⟩ := move_removes hg h
        exact .remove handle own x hg ⟨rfl, rfl⟩
    | getToWrite handle =>
      obtain ⟨h1, h2⟩ := Prod.mk.inj (Option.some.inj h)
      rw [← h1, ← h2]
      exact found_did s handle _ ⟨rfl, rfl⟩ fun x => ⟨rfl, rfl⟩
    | addEvent2SendQueue x =>
      obtain ⟨rfl, rfl⟩ := Prod.mk.inj (Option.some.inj h)
      exact .use x ⟨rfl, rfl⟩ ⟨.inr rfl, rfl⟩
    | getToRead handle =>
      obtain ⟨h1, h2⟩ := Prod.mk.inj (Option.some.inj h)
      rw [← h1, ← h2]
      exact found_did s handle _ ⟨rfl, rfl⟩ fun x => ⟨rfl, rfl⟩
    | vscp_sem_wait x =>
      obtain ⟨rfl, rfl⟩ := Prod.mk.inj (Option.some.inj h)
      exact .use x ⟨rfl, rfl⟩ ⟨.inl rfl, rfl⟩
    | pop_front x =>
      obtain ⟨rfl, rfl⟩ := Prod.mk.inj (Option.some.inj h)
      exact .use x ⟨rfl, rfl⟩ ⟨.inr rfl, rfl⟩
    | returned ret => cases h

/-! ## What a run keeps while it is disciplined -/

/-- Object `x` is in the map. -/
def InMap (s : Shared) (x : ℕ) : Prop := ∃ i : ℤ, s.g_ifMap[i]? = some x

/-- Object `x` was deleted. -/
def Killed (log : List Act) (x : ℕ) : Prop := ∃ b ∈ log, b.kills = some x

def Call.holds (x : ℕ) (t : Call) : ℕ := if t.held = some x then 1 else 0

def Call.owns (x : ℕ) (t : Call) : ℕ := if t.owned = some x then 1 else 0

/-- Where an object is: not made yet, known to its `VSCPOpen` only, in the map,
or deleted. Only an object in the map is held by other calls. -/
inductive Phase (s : State Shared Call) (x : ℕ) : Prop
  | fresh (hc : s.shared.count ≤ x) (ho : total (Call.owns x) s.threads = 0)
      (hh : total (Call.holds x) s.threads = 0) (hm : ¬ InMap s.shared x) (hk : ¬ Killed s.shared.log x)
  | unshared (hc : x < s.shared.count) (ho : total (Call.owns x) s.threads = 1)
      (hh : total (Call.holds x) s.threads = 0) (hm : ¬ InMap s.shared x) (hk : ¬ Killed s.shared.log x)
  | registered (hc : x < s.shared.count) (ho : total (Call.owns x) s.threads = 0) (hm : InMap s.shared x)
      (hk : ¬ Killed s.shared.log x)
  | dead (hc : x < s.shared.count) (ho : total (Call.owns x) s.threads = 0)
      (hh : total (Call.holds x) s.threads = 0) (hm : ¬ InMap s.shared x) (hk : Killed s.shared.log x)

structure Inv (s : State Shared Call) : Prop where
  phase : ∀ x, Phase s x
  once : s.shared.g_ifMap.Once
  safe : Safe s.shared.log

/-- Nothing about `x` changes. -/
theorem Phase.same {s s' : State Shared Call} {x : ℕ} (h : Phase s x)
    (hc : s'.shared.count ≤ x ↔ s.shared.count ≤ x)
    (ho : total (Call.owns x) s'.threads = total (Call.owns x) s.threads)
    (hh : total (Call.holds x) s'.threads = total (Call.holds x) s.threads)
    (hm : InMap s'.shared x ↔ InMap s.shared x) (hk : Killed s'.shared.log x ↔ Killed s.shared.log x) :
    Phase s' x := by
  have hc' : x < s'.shared.count ↔ x < s.shared.count := by rw [← not_le, hc, not_le]
  cases h with
  | fresh h1 h2 h3 h4 h5 =>
    exact .fresh (hc.2 h1) (ho.trans h2) (hh.trans h3) (fun h => h4 (hm.1 h)) (fun h => h5 (hk.1 h))
  | unshared h1 h2 h3 h4 h5 =>
    exact .unshared (hc'.2 h1) (ho.trans h2) (hh.trans h3) (fun h => h4 (hm.1 h)) (fun h => h5 (hk.1 h))
  | registered h1 h2 h4 h5 => exact .registered (hc'.2 h1) (ho.trans h2) (hm.2 h4) (fun h => h5 (hk.1 h))
  | dead h1 h2 h3 h4 h5 =>
    exact .dead (hc'.2 h1) (ho.trans h2) (hh.trans h3) (fun h => h4 (hm.1 h)) (hk.2 h5)

theorem killed_concat {log : List Act} {a : Act} {x : ℕ} :
    Killed (log ++ [a]) x ↔ Killed log x ∨ a.kills = some x := by
  simp [Killed, or_and_right, exists_or]

theorem safe_concat {log : List Act} {a : Act} (h : Safe log) (hk : ¬ Killed log a.touches)
    (ho : ∀ own x, a = .removed own x → x = own) : Safe (log ++ [a]) :=
  Runs.throughout_concat.2 ⟨h, fun b hb he => hk ⟨b, hb, he⟩, ho⟩

/-- A held object is in the map and alive. -/
theorem Inv.held {s : State Shared Call} (h : Inv s) {t : Call} (ht : t ∈ s.threads) {x : ℕ}
    (hx : t.held = some x) : x < s.shared.count ∧ total (Call.owns x) s.threads = 0 ∧ InMap s.shared x ∧
      ¬ Killed s.shared.log x := by
  have h1 : 1 ≤ total (Call.holds x) s.threads := by
    have := le_total (w := Call.holds x) ht
    rwa [Call.holds, if_pos hx] at this
  cases h.phase x with
  | fresh hc ho hh hm hk => omega
  | unshared hc ho hh hm hk => omega
  | registered hc ho hm hk => exact ⟨hc, ho, hm, hk⟩
  | dead hc ho hh hm hk => omega

/-- An owned object is in nobody else's hands. -/
theorem Inv.owned {s : State Shared Call} (h : Inv s) {t : Call} (ht : t ∈ s.threads) {x : ℕ}
    (hx : t.owned = some x) : x < s.shared.count ∧ total (Call.owns x) s.threads = 1 ∧
      total (Call.holds x) s.threads = 0 ∧ ¬ InMap s.shared x ∧ ¬ Killed s.shared.log x := by
  have h1 : 1 ≤ total (Call.owns x) s.threads := by
    have := le_total (w := Call.owns x) ht
    rwa [Call.owns, if_pos hx] at this
  cases h.phase x with
  | fresh hc ho hh hm hk => omega
  | unshared hc ho hh hm hk => exact ⟨hc, ho, hh, hm, hk⟩
  | registered hc ho hm hk => omega
  | dead hc ho hh hm hk => omega

/-- An object in the map is alive, and nobody owns it. -/
theorem Inv.inMap {s : State Shared Call} (h : Inv s) {x : ℕ} (hx : InMap s.shared x) :
    x < s.shared.count ∧ total (Call.owns x) s.threads = 0 ∧ ¬ Killed s.shared.log x := by
  cases h.phase x with
  | fresh hc ho hh hm hk => exact absurd hx hm
  | unshared hc ho hh hm hk => exact absurd hx hm
  | registered hc ho hm hk => exact ⟨hc, ho, hk⟩
  | dead hc ho hh hm hk => exact absurd hx hm

section
variable {s : Shared} {l r : List Call} {t t' : Call}

theorem total_owns {x : ℕ} (h : t.owned ≠ some x) (h' : t'.owned ≠ some x) :
    total (Call.owns x) (l ++ t' :: r) = total (Call.owns x) (l ++ t :: r) :=
  total_swap (by rw [Call.owns, Call.owns, if_neg h, if_neg h']) l r

theorem total_owns_taken {x : ℕ} (h : t.owned = none) (h' : t'.owned = some x) :
    total (Call.owns x) (l ++ t' :: r) = total (Call.owns x) (l ++ t :: r) + 1 := by
  simp only [total_append, total_cons, Call.owns, h, h', if_true, reduceCtorEq, if_false]
  omega

theorem total_holds {x : ℕ} (h : t.held ≠ some x) (h' : t'.held ≠ some x) :
    total (Call.holds x) (l ++ t' :: r) = total (Call.holds x) (l ++ t :: r) :=
  total_swap (by rw [Call.holds, Call.holds, if_neg h, if_neg h']) l r

theorem killed_used {log : List Act} {x y : ℕ} : Killed (log ++ [.used y]) x ↔ Killed log x := by
  simp [killed_concat, Act.kills]

theorem Inv.nothing (h : Inv ⟨s, l ++ t :: r⟩) (ht : t.held = none ∧ t.owned = none)
    (ht' : t'.held = none ∧ t'.owned = none) : Inv ⟨s, l ++ t' :: r⟩ := by
  refine ⟨fun x => (h.phase x).same Iff.rfl (total_owns ?_ ?_) (total_holds ?_ ?_) Iff.rfl Iff.rfl, h.once, h.safe⟩
  · rw [ht.2]; exact (Option.some_ne_none x).symm
  · rw [ht'.2]; exact (Option.some_ne_none x).symm
  · rw [ht.1]; exact (Option.some_ne_none x).symm
  · rw [ht'.1]; exact (Option.some_ne_none x).symm

theorem Inv.create (h : Inv ⟨s, l ++ t :: r⟩) (ht : t.held = none ∧ t.owned = none)
    (ht' : t'.held = none ∧ t'.owned = some s.count) :
    Inv ⟨use { s with count := s.count + 1 } s.count, l ++ t' :: r⟩ := by
  have hfresh : total (Call.owns s.count) (l ++ t :: r) = 0 ∧ total (Call.holds s.count) (l ++ t :: r) = 0 ∧
      ¬ InMap s s.count ∧ ¬ Killed s.log s.count := by
    cases h.phase s.count with
    | fresh hc ho hh hm hk => exact ⟨ho, hh, hm, hk⟩
    | unshared hc => exact absurd hc (lt_irrefl _)
    | registered hc => exact absurd hc (lt_irrefl _)
    | dead hc => exact absurd hc (lt_irrefl _)
  obtain ⟨ho, hh, hm, hk⟩ := hfresh
  have hholds (x : ℕ) : total (Call.holds x) (l ++ t' :: r) = total (Call.holds x) (l ++ t :: r) :=
    total_holds (by simp [ht.1]) (by simp [ht'.1])
  refine ⟨?_, h.once, safe_concat h.safe hk (by simp)⟩
  intro x
  by_cases hx : x = s.count
  · subst hx
    refine .unshared (Nat.lt_succ_self _) ?_ ((hholds _).trans hh) hm fun hk' => hk (killed_used.1 hk')
    rw [total_owns_taken ht.2 ht'.2, ho]
  · refine (h.phase x).same ?_ (total_owns (by simp [ht.2]) (by simp [ht'.2, Ne.symm hx])) (hholds x) Iff.rfl
      killed_used
    simp only [use]
    omega

theorem Inv.add {x : ℕ} (h : Inv ⟨s, l ++ t :: r⟩) (ht : t.held = none ∧ t.owned = some x)
    (ht' : t'.held = none ∧ t'.owned = none) :
    Inv ⟨{ s with g_ifMap := (s.g_ifMap.addDriverObject x).1 }, l ++ t' :: r⟩ := by
  obtain ⟨hc, ho, hh, hm, hk⟩ := h.owned (List.mem_append_right _ List.mem_cons_self) ht.2
  refine ⟨?_, h.once.add fun i hi => hm ⟨i, hi⟩, h.safe⟩
  intro y
  by_cases hy : y = x
  · subst hy
    refine .registered hc ?_ ⟨_, IfMap.add_some_iff.2 (.inl ⟨rfl, rfl⟩)⟩ hk
    exact Nat.succ.inj ((total_owns_taken ht'.2 ht.2).symm.trans ho)
  · refine (h.phase y).same Iff.rfl (total_owns (by simp [ht.2, Ne.symm hy]) (by simp [ht'.2]))
      (total_holds (by simp [ht.1]) (by simp [ht'.1])) ?_ Iff.rfl
    apply exists_congr
    intro i
    rw [IfMap.add_some_iff]
    simp [hy]

theorem Inv.deleteOwn {x : ℕ} (h : Inv ⟨s, l ++ t :: r⟩) (ht : t.held = none ∧ t.owned = some x)
    (ht' : t'.held = none ∧ t'.owned = none) : Inv ⟨{ s with log := s.log ++ [.deleted x] }, l ++ t' :: r⟩ := by
  obtain ⟨hc, ho, hh, hm, hk⟩ := h.owned (List.mem_append_right _ List.mem_cons_self) ht.2
  have hholds (y : ℕ) : total (Call.holds y) (l ++ t' :: r) = total (Call.holds y) (l ++ t :: r) :=
    total_holds (by simp [ht.1]) (by simp [ht'.1])
  refine ⟨?_, h.once, safe_concat h.safe hk (by simp)⟩
  intro y
  by_cases hy : y = x
  · subst hy
    refine .dead hc ?_ ((hholds _).trans hh) hm (killed_concat.2 (.inr rfl))
    exact Nat.succ.inj ((total_owns_taken ht'.2 ht.2).symm.trans ho)
  · refine (h.phase y).same Iff.rfl (total_owns (by simp [ht.2, Ne.symm hy]) (by simp [ht'.2])) (hholds y)
      Iff.rfl ?_
    rw [killed_concat]
    simp [Act.kills, Ne.symm hy]

theorem Inv.look {handle : ℤ} {x : ℕ} (h : Inv ⟨s, l ++ t :: r⟩)
    (hx : s.g_ifMap.getDriverObject handle = some x) (ht : t.held = none ∧ t.owned = none)
    (ht' : t'.held = some x ∧ t'.owned = none) : Inv ⟨s, l ++ t' :: r⟩ := by
  have hm : InMap s x := ⟨_, (IfMap.get_some _ hx).2⟩
  have howns (y : ℕ) : total (Call.owns y) (l ++ t' :: r) = total (Call.owns y) (l ++ t :: r) :=
    total_owns (by simp [ht.2]) (by simp [ht'.2])
  obtain ⟨hc, ho, hk⟩ := h.inMap hm
  refine ⟨?_, h.once, h.safe⟩
  intro y
  by_cases hy : y = x
  · subst hy
    exact .registered hc ((howns _).trans ho) hm hk
  · exact (h.phase y).same Iff.rfl (howns y) (total_holds (by simp [ht.1]) (by simp [ht'.1, Ne.symm hy])) Iff.rfl
      Iff.rfl

theorem Inv.use {x : ℕ} (h : Inv ⟨s, l ++ t :: r⟩) (ht : t.held = some x ∧ t.owned = none)
    (ht' : (t'.held = some x ∨ t'.held = none) ∧ t'.owned = none) : Inv ⟨use s x, l ++ t' :: r⟩ := by
  have howns (y : ℕ) : total (Call.owns y) (l ++ t' :: r) = total (Call.owns y) (l ++ t :: r) :=
    total_owns (by simp [ht.2]) (by simp [ht'.2])
  obtain ⟨hc, ho, hm, hk⟩ := h.held (List.mem_append_right _ List.mem_cons_self) ht.1
  refine ⟨?_, h.once, safe_concat h.safe hk (by simp)⟩
  intro y
  by_cases hy : y = x
  · subst hy
    exact .registered hc ((howns _).trans ho) hm fun hk' => hk (killed_used.1 hk')
  · refine (h.phase y).same Iff.rfl (howns y) (total_holds (by simp [ht.1, Ne.symm hy]) ?_) Iff.rfl killed_used
    rcases ht'.1 with h' | h'
    · simp [h', Ne.symm hy]
    · simp [h']

theorem Inv.remove {handle : ℤ} {x : ℕ} (h : Inv ⟨s, l ++ .removeDriverObject handle x :: r⟩)
    (hx : s.g_ifMap.getDriverObject handle = some x) (ht' : t'.held = none ∧ t'.owned = none)
    (hheld : ∀ u ∈ l ++ .removeDriverObject handle x :: r, u.held ≠ some x) :
    Inv ⟨{ s with g_ifMap := (s.g_ifMap.removeDriverObject handle).1, log := s.log ++ [.removed x x] },
      l ++ t' :: r⟩ := by
  obtain ⟨hc, ho, hk⟩ := h.inMap (x := x) ⟨_, (IfMap.get_some _ hx).2⟩
  have howns (y : ℕ) : total (Call.owns y) (l ++ t' :: r) =
      total (Call.owns y) (l ++ .removeDriverObject handle x :: r) :=
    total_owns (by simp [Call.owned]) (by simp [ht'.2])
  have hholds (y : ℕ) : total (Call.holds y) (l ++ t' :: r) =
      total (Call.holds y) (l ++ .removeDriverObject handle x :: r) :=
    total_holds (by simp [Call.held]) (by simp [ht'.1])
  have hin (y : ℕ) : (∃ i : ℤ, (s.g_ifMap.removeDriverObject handle).1[i]? = some y) ↔ InMap s y ∧ y ≠ x := by
    simp only [h.once.remove_some_iff hx, exists_and_right, InMap]
  refine ⟨?_, h.once.remove handle, safe_concat h.safe hk ?_⟩
  · intro y
    by_cases hy : y = x
    · subst hy
      refine .dead hc ((howns _).trans ho) ((hholds _).trans (total_eq_zero ?_))
        (fun hm => ((hin _).1 hm).2 rfl) (killed_concat.2 (.inr rfl))
      intro u hu
      rw [Call.holds, if_neg (hheld u hu)]
    · refine (h.phase y).same Iff.rfl (howns y) (hholds y) ((hin y).trans (and_iff_left hy)) ?_
      rw [killed_concat]
      simp [Act.kills, Ne.symm hy]
  · intro own y he
    cases he
    rfl

end

/-- A move keeps the invariant; a removal does if it is undisturbed. -/
theorem inv_move {s s' : Shared} {l r : List Call} {t t' : Call} {a : Choice} (h : Inv ⟨s, l ++ t :: r⟩)
    (hm : move a s t = some (s', t'))
    (hu : ∀ handle own x, t = .removeDriverObject handle own → s.g_ifMap.getDriverObject handle = some x →
      x = own ∧ ∀ u ∈ l ++ t :: r, u.held ≠ some x) : Inv ⟨s', l ++ t' :: r⟩ := by
  cases move_did hm with
  | nothing ht ht' => exact h.nothing ht ht'
  | create ht ht' => exact h.create ht ht'
  | add x ht ht' => exact h.add ht ht'
  | deleteOwn x ht ht' => exact h.deleteOwn ht ht'
  | look handle x hx ht ht' => exact h.look hx ht ht'
  | use x ht ht' => exact h.use ht ht'
  | remove handle own x hx ht' =>
    obtain ⟨rfl, hheld⟩ := hu handle own x rfl hx
    exact h.remove hx ht' hheld

theorem start_idle (b : Api) : (calls.start b).held = none ∧ (calls.start b).owned = none := by
  cases b with
  | VSCPRead handle pEvent => cases pEvent <;> exact ⟨rfl, rfl⟩
  | _ => exact ⟨rfl, rfl⟩

theorem inv_start {s : Shared} {l : List Call} (b : Api) (h : Inv ⟨s, l⟩) : Inv ⟨s, l ++ [calls.start b]⟩ := by
  obtain ⟨hh, ho⟩ := start_idle b
  refine ⟨fun x => (h.phase x).same Iff.rfl ?_ ?_ Iff.rfl Iff.rfl, h.once, h.safe⟩
  · simp [Call.owns, ho]
  · simp [Call.holds, hh]

theorem inv_init : Inv init := by
  refine ⟨fun x => .fresh (Nat.zero_le x) rfl rfl ?_ ?_, ?_, Runs.throughout_nil⟩
  · rintro ⟨i, hi⟩
    simp [init] at hi
  · simp [Killed, init]
  · intro i j x hi
    simp [init] at hi

/-- A disciplined run keeps the invariant. -/
theorem inv_run {es : List (Event Api Choice Empty)} {s : State Shared Call} (hr : calls.run init es = some s)
    (hd : Disciplined es) : Inv s := by
  induction es using List.reverseRecOn generalizing s with
  | nil =>
    obtain rfl := Option.some.inj hr
    exact inv_init
  | append_singleton es e ih =>
    rw [System.run_concat] at hr
    obtain ⟨s₁, hr₁, hs⟩ := Option.bind_eq_some_iff.1 hr
    obtain ⟨hd, hu⟩ := Runs.throughout_concat.1 hd
    have hi := ih hr₁ hd
    have hu := hu s₁ hr₁
    cases e with
    | start b =>
      obtain rfl := Option.some.inj hs
      exact inv_start b hi
    | env e => exact nomatch e
    | move i a =>
      obtain ⟨l, t, r, x, t', hl, rfl, hm, rfl⟩ := System.step_move hs
      obtain ⟨σ, threads⟩ := s₁
      dsimp only at hl hm
      subst hl
      refine inv_move hi hm fun handle own x ht hg => hu handle own x ?_ hg
      rw [← ht]
      simp

/-! ## What is undisturbed no more cannot be mended -/

theorem move_log {a : Choice} {s s' : Shared} {t t' : Call} (h : move a s t = some (s', t')) :
    ∃ l, s'.log = s.log ++ l := by
  cases move_did h with
  | nothing => exact ⟨[], (List.append_nil _).symm⟩
  | create => exact ⟨_, rfl⟩
  | add => exact ⟨[], (List.append_nil _).symm⟩
  | deleteOwn => exact ⟨_, rfl⟩
  | look => exact ⟨[], (List.append_nil _).symm⟩
  | use => exact ⟨_, rfl⟩
  | remove => exact ⟨_, rfl⟩

theorem run_log {es : List (Event Api Choice Empty)} {s s' : State Shared Call}
    (h : calls.run s es = some s') : ∃ l, s'.shared.log = s.shared.log ++ l := by
  induction es generalizing s with
  | nil =>
    obtain rfl := Option.some.inj h
    exact ⟨[], (List.append_nil _).symm⟩
  | cons e es ih =>
    obtain ⟨s₁, h1, h2⟩ := Option.bind_eq_some_iff.1 h
    obtain ⟨l₂, hl₂⟩ := ih h2
    cases e with
    | start b =>
      obtain rfl := Option.some.inj h1
      exact ⟨l₂, hl₂⟩
    | env e => exact nomatch e
    | move i a =>
      obtain ⟨t, x, t', -, hm, rfl⟩ := System.step_set h1
      obtain ⟨l₁, hl₁⟩ := move_log hm
      exact ⟨l₁ ++ l₂, by rw [hl₂, hl₁, List.append_assoc]⟩

theorem done_of_held {t : Call} {x : ℕ} (h : t.held = some x) : t.done = false := by
  cases t <;> first | rfl | cases h

/-- A call that holds a deleted object will use it before it returns. -/
theorem unsafe_of_held {es : List (Event Api Choice Empty)} {s s' : State Shared Call}
    (hr : calls.run s es = some s') (hdone : ∀ t ∈ s'.threads, t.done = true) {j x : ℕ} {t : Call}
    (ht : s.threads[j]? = some t) (hx : t.held = some x) (hk : Killed s.shared.log x) : ¬ Safe s'.shared.log := by
  induction es generalizing s t with
  | nil =>
    obtain rfl := Option.some.inj hr
    have := hdone t (List.mem_of_getElem? ht)
    rw [done_of_held hx] at this
    cases this
  | cons e es ih =>
    obtain ⟨s₁, h1, h2⟩ := Option.bind_eq_some_iff.1 hr
    cases e with
    | start b =>
      obtain rfl := Option.some.inj h1
      refine ih h2 ?_ hx hk
      rw [List.getElem?_append_left (List.getElem?_eq_some_iff.1 ht).1]
      exact ht
    | env e => exact nomatch e
    | move i a =>
      obtain ⟨t₁, σ, t₁', ht₁, hm, rfl⟩ := System.step_set h1
      by_cases hij : i = j
      · -- its next step is the use
        subst hij
        obtain rfl := Option.some.inj (ht₁.symm.trans ht)
        intro hsafe
        obtain ⟨l, hl⟩ := run_log h2
        rw [hl] at hsafe
        have hsafe := Runs.throughout_prefix hsafe
        cases move_did hm with
        | use y hy =>
          obtain rfl := Option.some.inj (hx.symm.trans hy.1)
          obtain ⟨b, hb, hbk⟩ := hk
          exact (Runs.throughout_concat.1 hsafe).2.1 b hb hbk
        | nothing hn => rw [hn.1] at hx; cases hx
        | create hn => rw [hn.1] at hx; cases hx
        | add y hn => rw [hn.1] at hx; cases hx
        | deleteOwn y hn => rw [hn.1] at hx; cases hx
        | look handle y hy hn => rw [hn.1] at hx; cases hx
        | remove => cases hx
      · obtain ⟨l, hl⟩ := move_log hm
        refine ih h2 ?_ hx ?_
        · rw [List.getElem?_set_ne hij]
          exact ht
        · obtain ⟨b, hb, hbk⟩ := hk
          exact ⟨b, by rw [hl]; exact List.mem_append_left _ hb, hbk⟩

theorem disciplined_of_safe {es : List (Event Api Choice Empty)} {s : State Shared Call}
    (hr : calls.run init es = some s) (hdone : ∀ t ∈ s.threads, t.done = true) (hsafe : Safe s.shared.log) :
    Disciplined es := by
  rintro pre e post rfl s₁ hr₁
  rw [System.run_append, hr₁, Option.bind_some] at hr
  obtain ⟨s₂, hs, hr₂⟩ := Option.bind_eq_some_iff.1 hr
  cases e with
  | start b => trivial
  | env e => exact nomatch e
  | move i a =>
    intro handle own x hi hg
    obtain ⟨t, σ, t', ht, hm, rfl⟩ := System.step_set hs
    obtain rfl := Option.some.inj (hi.symm.trans ht)
    -- the removal is in the log
    have hlog : σ.log = s₁.shared.log ++ [.removed own x] := by
      rw [(move_removes hg hm).1]
    constructor
    · obtain ⟨l, hl⟩ := run_log hr₂
      rw [hl] at hsafe
      have hsafe := Runs.throughout_prefix hsafe
      dsimp only at hsafe
      rw [hlog] at hsafe
      exact (Runs.throughout_concat.1 hsafe).2.2 own x rfl
    · intro u hu hux
      obtain ⟨j, hj⟩ := List.getElem?_of_mem hu
      have hij : i ≠ j := by
        rintro rfl
        obtain rfl := Option.some.inj (hi.symm.trans hj)
        cases hux
      refine unsafe_of_held hr₂ hdone (j := j) (t := u) (x := x) ?_ hux ?_ hsafe
      · rw [List.getElem?_set_ne hij]
        exact hj
      · dsimp only
        rw [hlog]
        exact killed_concat.2 (.inr rfl)

/-- While every removal is undisturbed, no step is on a deleted object and no
`VSCPClose` deletes another object than its own. For runs whose calls have all
returned this is the only way. -/
theorem calls_safe_iff (es : List (Event Api Choice Empty)) (s : State Shared Call)
    (hr : calls.run init es = some s) :
    (Disciplined es → Safe s.shared.log) ∧
      ((∀ t ∈ s.threads, t.done = true) → (Safe s.shared.log ↔ Disciplined es)) :=
  ⟨fun hd => (inv_run hr hd).safe,
    fun hdone => ⟨disciplined_of_safe hr hdone, fun hd => (inv_run hr hd).safe⟩⟩

/-- Two clients close one handle: the second close is of a deleted object.
With a re-open in between, the first client deletes the other's object. -/
theorem calls_unsafe :
    let open_ := [.start .VSCPOpen, .move 0 .go, .move 0 .go]
    let twice := [.start (.VSCPClose 1681), .start (.VSCPClose 1681), .move 1 .go, .move 2 .go, .move 1 .go,
      .move 1 .go, .move 2 .go]
    let reopened := [.start (.VSCPClose 1681), .start (.VSCPClose 1681), .move 1 .go, .move 2 .go, .move 1 .go,
      .move 2 .go, .move 2 .go, .start .VSCPOpen, .move 3 .go, .move 3 .go, .move 1 .go]
    (∃ s, calls.run init (open_ ++ twice) = some s ∧ ¬ Safe s.shared.log) ∧
      ∃ s, calls.run init (open_ ++ reopened) = some s ∧ ¬ Safe s.shared.log := by
  refine ⟨⟨_, rfl, ?_⟩, ⟨_, rfl, ?_⟩⟩
  · intro h
    exact (h [.used 0, .used 0, .removed 0 0] (.used 0) [] rfl).1 (.removed 0 0) (by decide) rfl
  · intro h
    exact absurd ((h [.used 0, .used 0, .used 0, .removed 0 0, .used 1] (.removed 0 1) [] rfl).2 0 1 rfl) (by decide)

/-- A write and a close after it, side by side with another open. -/
theorem calls_safe_write :
    let es := [.start .VSCPOpen, .move 0 .go, .move 0 .go, .start (.VSCPWrite 1681), .start (.VSCPClose 1681),
      .start .VSCPOpen, .move 1 .go, .move 3 .go, .move 2 .go, .move 1 .go, .move 3 .go, .move 2 .go, .move 2 .go]
    ∃ s, calls.run init es = some s ∧ (∀ t ∈ s.threads, t.done = true) ∧ (Safe s.shared.log ↔ Disciplined es) := by
  intro es
  have hdone : ∀ t ∈ [Call.opened 1681, .returned .CANAL_ERROR_SUCCESS, .returned .CANAL_ERROR_SUCCESS,
      .opened 1682], t.done = true := by decide
  exact ⟨_, rfl, hdone, (calls_safe_iff es _ rfl).2 hdone⟩

end VscpAutomation.Calls
