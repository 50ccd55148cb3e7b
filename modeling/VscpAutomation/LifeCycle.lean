import VscpAutomation.Registry
import VscpAutomation.Config
/-!
# Objects and their worker threads

The API called one call at a time. `m_bQuit` asks the worker to stop and also
says that `close` has run: so `close` joins the worker of an object exactly if
nobody has set the flag before, be it that no worker was started or that it
ended on its own. `VSCPOpen` catches nothing, so an object whose `open` throws is
neither in the map nor deleted. What an object goes through is one of six
histories (`Inv`), and only one of the four final ones is as it should be.
-/

namespace VscpAutomation.LifeCycle

/-! ## State -/

/-- What happens to object number `x`. -/
inductive Act where
  | created (x : ℕ)
  | started (x : ℕ)
  /-- pthread_create failed. -/
  | failed (x : ℕ)
  /-- An exception left `open`. -/
  | thrown (x : ℕ)
  /-- The worker ended after EINTR or EINVAL. -/
  | stopped (x : ℕ)
  | joined (x : ℕ)
  | deleted (x : ℕ)
deriving DecidableEq

def Act.object : Act → ℕ
  | created x => x
  | started x => x
  | failed x => x
  | thrown x => x
  | stopped x => x
  | joined x => x
  | deleted x => x

/-- The map, the number of objects created so far and their flags. -/
structure Driver where
  g_ifMap : IfMap ℕ
  count : ℕ
  m_bQuit : ℕ → Bool

/-- The library has just been loaded. -/
def init : Driver := ⟨∅, 0, fun _ => false⟩

/-- `CAutomation::close`. -/
def close (x : ℕ) (d : Driver) : Driver × List Act :=
  if d.m_bQuit x then (d, [])
  else ({ d with m_bQuit := Function.update d.m_bQuit x true }, [.joined x])

/-- `delete`: the destructor closes again. -/
def delete (x : ℕ) (d : Driver) : Driver × List Act :=
  let r := close x d
  (r.1, r.2 ++ [.deleted x])

/-- How `open` ends. -/
inductive Opening where
  | started
  /-- pthread_create fails. -/
  | failed
  | thrown
deriving DecidableEq

/-- What its result says. -/
def Opening.ofRet : Except JsonException Bool → Opening
  | .ok true => started
  | .ok false => failed
  | .error _ => thrown

/-- An API call, or a worker that ends on its own. -/
inductive Op where
  | VSCPOpen (opening : Opening)
  | VSCPClose (handle : ℤ)
  | workerStops (x : ℕ)
deriving DecidableEq

def VSCPOpen (opening : Opening) (d : Driver) : Driver × List Act :=
  let x := d.count
  let d := { d with count := d.count + 1, m_bQuit := Function.update d.m_bQuit x false }
  match opening with
  | .started =>
    let r := d.g_ifMap.addDriverObject x
    if r.2 = 0 then
      let t := delete x { d with g_ifMap := r.1 }
      (t.1, [.created x, .started x] ++ t.2)
    else ({ d with g_ifMap := r.1 }, [.created x, .started x])
  | .failed =>
    let t := delete x d
    (t.1, [.created x, .failed x] ++ t.2)
  -- the exception leaves VSCPOpen too
  | .thrown => (d, [.created x, .thrown x])

def VSCPClose (handle : ℤ) (d : Driver) : Driver × List Act :=
  match d.g_ifMap.getDriverObject handle with
  | none => (d, [])
  | some pdrvObj =>
    let r := close pdrvObj d
    match r.1.g_ifMap.removeDriverObject handle with
    | (g_ifMap, none) => ({ r.1 with g_ifMap := g_ifMap }, r.2)
    | (g_ifMap, some pObj) =>
      let t := delete pObj r.1
      ({ t.1 with g_ifMap := g_ifMap }, r.2 ++ t.2)

/-- Only a worker that runs, of an object in the map, can end on its own. -/
def step (d : Driver) : Op → Option (Driver × List Act)
  | .VSCPOpen opening => some (VSCPOpen opening d)
  | .VSCPClose handle => some (VSCPClose handle d)
  | .workerStops x =>
    if x ∈ d.g_ifMap.objects ∧ d.m_bQuit x = false then
      some ({ d with m_bQuit := Function.update d.m_bQuit x true }, [.stopped x])
    else none

def run (d : Driver) : List Op → Option (Driver × List Act)
  | [] => some (d, [])
  | op :: ops => (step d op).bind fun r => (run r.1 ops).map fun t => (t.1, r.2 ++ t.2)

/-- `_fini` for one object of the map. -/
def orphan (d : Driver) (pif : ℕ) : Driver × List Act :=
  let r := close pif d
  let t := delete pif r.1
  (t.1, r.2 ++ t.2)

def _fini (d : Driver) : Driver × List Act :=
  if d.g_ifMap.isEmpty then (d, [])
  else
    let r := Runs.run orphan d d.g_ifMap.objects
    ({ r.1 with g_ifMap := ∅ }, r.2)

/-- From loading the library to the end of `_fini`. -/
def lifetime (ops : List Op) : Option (List Act) :=
  (run init ops).map fun r => r.2 ++ (_fini r.1).2

/-- Every object created is deleted once. A worker that was started is joined
once, before its object is deleted; one that was not is not joined. -/
def Proper (log : List Act) : Prop :=
  ∀ x, (.created x ∈ log → log.count (.deleted x) = 1) ∧
    (.started x ∈ log → log.count (.joined x) = 1 ∧ [.joined x, .deleted x].Sublist log) ∧
    (.joined x ∈ log → .started x ∈ log)

/-! ## Histories -/

/-- What happened to object `x`. -/
def history (x : ℕ) (log : List Act) : List Act := log.filter fun a => a.object = x

@[simp]
theorem history_nil (x : ℕ) : history x [] = [] := rfl

@[simp]
theorem history_append (x : ℕ) (l l' : List Act) : history x (l ++ l') = history x l ++ history x l' :=
  List.filter_append ..

/-- The requirement is one on each object's history. -/
theorem proper_iff (log : List Act) :
    Proper log ↔ ∀ x, (.created x ∈ history x log → (history x log).count (.deleted x) = 1) ∧
      (.started x ∈ history x log → (history x log).count (.joined x) = 1 ∧
        [.joined x, .deleted x].Sublist (history x log)) ∧
      (.joined x ∈ history x log → .started x ∈ history x log) := by
  have hmem (x : ℕ) (a : Act) (ha : a.object = x) : a ∈ history x log ↔ a ∈ log := by
    simp [history, ha]
  have hcount (x : ℕ) (a : Act) (ha : a.object = x) : (history x log).count a = log.count a :=
    List.count_filter (by simpa using ha)
  have hsub (x : ℕ) : [.joined x, .deleted x].Sublist (history x log) ↔ [.joined x, .deleted x].Sublist log := by
    constructor
    · exact fun h => h.trans List.filter_sublist
    · intro h
      have hf : [.joined x, .deleted x].filter (fun a : Act => decide (a.object = x)) = [.joined x, .deleted x] := by
        simp [Act.object]
      rw [← hf]
      exact h.filter _
  apply forall_congr'
  intro x
  rw [hmem x _ rfl, hmem x _ rfl, hmem x _ rfl, hcount x _ rfl, hcount x _ rfl, hsub]

/-! ## What the calls do -/

/-- How an object goes: its worker is joined only if its flag is not set. -/
def ending (m_bQuit : ℕ → Bool) (x : ℕ) : List Act :=
  if m_bQuit x then [.deleted x] else [.joined x, .deleted x]

theorem delete_eq (x : ℕ) (d : Driver) :
    delete x d = ({ d with m_bQuit := Function.update d.m_bQuit x true }, ending d.m_bQuit x) := by
  unfold delete close ending
  by_cases hq : d.m_bQuit x = true
  · have hu : Function.update d.m_bQuit x true = d.m_bQuit := by
      rw [← hq]
      exact Function.update_eq_self x _
    simp [hq, hu]
  · simp [hq]

/-- Closed before it is deleted, an object goes the same way. -/
theorem close_delete_eq (x : ℕ) (d : Driver) :
    let r := close x d
    let t := delete x r.1
    (t.1, r.2 ++ t.2) = ({ d with m_bQuit := Function.update d.m_bQuit x true }, ending d.m_bQuit x) := by
  dsimp only
  rw [delete_eq]
  unfold close ending
  by_cases hq : d.m_bQuit x = true
  · simp [hq]
  · simp [hq]

/-- `open` throws on a configuration with a number too large for a double; else
it starts the worker, whatever it has read. -/
theorem opening_eq {K : Type} [Field K] (E : Env K) (path : String) (guid : cguid) (content : String)
    (created : Bool) (s : CAutomation K) :
    Opening.ofRet (s.open_ E path guid content created).ret =
      match E.readJson content with
      | .error .out_of_range => .thrown
      | _ => if created then .started else .failed := by
  unfold CAutomation.open_ CAutomation.doLoadConfig
  cases E.readJson content with
  | error e =>
    cases e with
    | parse_error => cases created <;> rfl
    | out_of_range => rfl
  | ok value => cases created <;> rfl

theorem VSCPOpen_started (d : Driver) :
    VSCPOpen .started d =
      ({ g_ifMap := (d.g_ifMap.addDriverObject d.count).1, count := d.count + 1,
         m_bQuit := Function.update d.m_bQuit d.count false },
        [.created d.count, .started d.count]) := by
  have hk := d.g_ifMap.freeKey_spec.1
  have hne : (d.g_ifMap.addDriverObject d.count).2 ≠ 0 := by
    simp only [IfMap.addDriverObject]
    omega
  simp only [VSCPOpen, if_neg hne]

theorem VSCPOpen_failed (d : Driver) :
    VSCPOpen .failed d =
      ({ d with count := d.count + 1, m_bQuit := Function.update d.m_bQuit d.count true },
        [.created d.count, .failed d.count, .joined d.count, .deleted d.count]) := by
  simp only [VSCPOpen, delete_eq, ending, Function.update_self, Bool.false_eq_true, if_false,
    Function.update_idem, List.cons_append, List.nil_append]

theorem VSCPClose_none {d : Driver} {h : ℤ} (hg : d.g_ifMap.getDriverObject h = none) :
    VSCPClose h d = (d, []) := by
  simp only [VSCPClose, hg]

theorem VSCPClose_some {d : Driver} {h : ℤ} {x : ℕ} (hg : d.g_ifMap.getDriverObject h = some x) :
    VSCPClose h d =
      ({ d with g_ifMap := (d.g_ifMap.removeDriverObject h).1, m_bQuit := Function.update d.m_bQuit x true },
        ending d.m_bQuit x) := by
  have hmap : (close x d).1.g_ifMap = d.g_ifMap := by
    unfold close
    split <;> rfl
  have hsnd := (d.g_ifMap.remove_snd h).trans hg
  have hce := close_delete_eq x d
  simp only [VSCPClose, hg, hmap]
  generalize d.g_ifMap.removeDriverObject h = r at hsnd ⊢
  obtain ⟨m, o⟩ := r
  dsimp only at hsnd hce ⊢
  subst hsnd
  dsimp only
  obtain ⟨h1, h2⟩ := Prod.mk.inj hce
  rw [h1, h2]

/-! ## The invariant -/

/-- The four ways an object can be over. -/
def Over (x : ℕ) (h : List Act) : Prop :=
  h = [.created x, .failed x, .joined x, .deleted x] ∨ h = [.created x, .thrown x] ∨
    h = [.created x, .started x, .joined x, .deleted x] ∨ h = [.created x, .started x, .stopped x, .deleted x]

/-- The history of an object in the map. -/
def alive (m_bQuit : ℕ → Bool) (x : ℕ) : List Act :=
  [.created x, .started x] ++ if m_bQuit x then [.stopped x] else []

theorem over_of_alive (m_bQuit : ℕ → Bool) (x : ℕ) : Over x (alive m_bQuit x ++ ending m_bQuit x) := by
  unfold alive ending Over
  by_cases hq : m_bQuit x = true
  · simp [hq]
  · simp [hq]

theorem alive_update {x y : ℕ} (h : x ≠ y) (m_bQuit : ℕ → Bool) (b : Bool) :
    alive (Function.update m_bQuit y b) x = alive m_bQuit x := by
  unfold alive
  rw [Function.update_of_ne h]

theorem ending_update {x y : ℕ} (h : x ≠ y) (m_bQuit : ℕ → Bool) (b : Bool) :
    ending (Function.update m_bQuit y b) x = ending m_bQuit x := by
  unfold ending
  rw [Function.update_of_ne h]

theorem history_other {x y : ℕ} (h : x ≠ y) (log : List Act) {l : List Act} (hl : ∀ a ∈ l, a.object = y) :
    history x (log ++ l) = history x log := by
  have hnil : history x l = [] := List.filter_eq_nil_iff.2 fun a ha => by simpa [hl a ha] using h.symm
  rw [history_append, hnil, List.append_nil]

theorem history_ending (m_bQuit : ℕ → Bool) (x y : ℕ) :
    history x (ending m_bQuit y) = if x = y then ending m_bQuit x else [] := by
  unfold ending history
  by_cases hxy : x = y
  · subst hxy
    rw [if_pos rfl]
    split <;> simp [Act.object]
  · rw [if_neg hxy]
    split <;> simp [Act.object, Ne.symm hxy]

structure Inv (d : Driver) (log : List Act) : Prop where
  fresh : ∀ x, d.count ≤ x → history x log = []
  inMap : ∀ (i : ℤ) x, d.g_ifMap[i]? = some x → x < d.count ∧ history x log = alive d.m_bQuit x
  once : d.g_ifMap.Once
  gone : ∀ x < d.count, (∀ i : ℤ, d.g_ifMap[i]? ≠ some x) → Over x (history x log)

theorem inv_init : Inv init [] := by
  refine ⟨fun _ _ => rfl, fun i x hi => ?_, fun i j x hi => ?_, fun x hx => absurd hx (Nat.not_lt_zero x)⟩
  · simp [init] at hi
  · simp [init] at hi

/-- A new object that is over at once. -/
theorem inv_over {d : Driver} {log l : List Act} (b : Bool) (h : Inv d log) (hl : ∀ a ∈ l, a.object = d.count)
    (hover : Over d.count l) :
    Inv { d with count := d.count + 1, m_bQuit := Function.update d.m_bQuit d.count b } (log ++ l) := by
  have hother (x : ℕ) (hx : x ≠ d.count) := history_other hx log hl
  refine ⟨?_, ?_, h.once, ?_⟩
  · intro x hx
    dsimp only at hx
    rw [hother x (by omega)]
    exact h.fresh x (by omega)
  · intro i x hi
    obtain ⟨h1, h2⟩ := h.inMap i x hi
    refine ⟨Nat.lt_succ_of_lt h1, ?_⟩
    rw [hother x h1.ne, h2, alive_update h1.ne]
  · intro x hx hn
    rcases Nat.lt_succ_iff_lt_or_eq.1 hx with hx | rfl
    · rw [hother x hx.ne]
      exact h.gone x hx hn
    · have hall : history d.count l = l := List.filter_eq_self.2 fun a ha => by simpa using hl a ha
      rw [history_append, h.fresh _ le_rfl, List.nil_append, hall]
      exact hover

theorem inv_open_failed {d : Driver} {log : List Act} (h : Inv d log) :
    Inv (VSCPOpen .failed d).1 (log ++ (VSCPOpen .failed d).2) := by
  rw [VSCPOpen_failed]
  have hl : ∀ a ∈ [.created d.count, .failed d.count, .joined d.count, .deleted d.count], Act.object a = d.count := by
    simp [Act.object]
  exact inv_over true h hl (.inl rfl)

theorem inv_open_thrown {d : Driver} {log : List Act} (h : Inv d log) :
    Inv (VSCPOpen .thrown d).1 (log ++ (VSCPOpen .thrown d).2) := by
  have hl : ∀ a ∈ [.created d.count, .thrown d.count], Act.object a = d.count := by simp [Act.object]
  exact inv_over false h hl (.inr (.inl rfl))

theorem inv_open_started {d : Driver} {log : List Act} (h : Inv d log) :
    Inv (VSCPOpen .started d).1 (log ++ (VSCPOpen .started d).2) := by
  rw [VSCPOpen_started]
  have hother (x : ℕ) (hx : x ≠ d.count) := history_other hx log
    (l := [.created d.count, .started d.count]) (by simp [Act.object])
  refine ⟨fun x hx => ?_, fun i x hi => ?_, h.once.add fun i hi => (h.inMap i _ hi).1.ne rfl, fun x hx hn => ?_⟩
  · dsimp only at hx
    rw [hother x (by omega)]
    exact h.fresh x (by omega)
  · rcases IfMap.add_some_iff.1 hi with ⟨-, rfl⟩ | hi
    · refine ⟨Nat.lt_succ_self _, ?_⟩
      rw [history_append, h.fresh _ le_rfl]
      simp [alive, history, Act.object]
    · obtain ⟨h1, h2⟩ := h.inMap i x hi
      refine ⟨Nat.lt_succ_of_lt h1, ?_⟩
      rw [hother x h1.ne, h2, alive_update h1.ne]
  · have hxc : x ≠ d.count := by
      rintro rfl
      exact hn _ (IfMap.add_some_iff.2 (.inl ⟨rfl, rfl⟩))
    rw [hother x hxc]
    refine h.gone x (by dsimp only at hx; omega) fun i hi => hn i (IfMap.add_some_iff.2 (.inr hi))

theorem inv_close {d : Driver} {log : List Act} (handle : ℤ) (h : Inv d log) :
    Inv (VSCPClose handle d).1 (log ++ (VSCPClose handle d).2) := by
  cases hg : d.g_ifMap.getDriverObject handle with
  | none =>
    rw [VSCPClose_none hg, List.append_nil]
    exact h
  | some y =>
    rw [VSCPClose_some hg]
    have hy := (IfMap.get_some _ hg).2
    have hyc := (h.inMap _ y hy).1
    have hhist (x : ℕ) : history x (log ++ ending d.m_bQuit y) =
        history x log ++ if x = y then ending d.m_bQuit x else [] := by
      rw [history_append, history_ending]
    refine ⟨?_, ?_, h.once.remove handle, ?_⟩
    · intro x hx
      dsimp only at hx
      rw [hhist, if_neg (by omega), List.append_nil]
      exact h.fresh x hx
    · intro i x hi
      obtain ⟨hi, hxy⟩ := (h.once.remove_some_iff hg).1 hi
      obtain ⟨h1, h2⟩ := h.inMap i x hi
      refine ⟨h1, ?_⟩
      rw [hhist, if_neg hxy, List.append_nil, h2, alive_update hxy]
    · intro x hx hn
      rw [hhist]
      by_cases hxy : x = y
      · subst hxy
        rw [if_pos rfl, (h.inMap _ _ hy).2]
        exact over_of_alive d.m_bQuit x
      · rw [if_neg hxy, List.append_nil]
        exact h.gone x hx fun i hi => hn i ((h.once.remove_some_iff hg).2 ⟨hi, hxy⟩)

theorem inv_workerStops {d : Driver} {log : List Act} {y : ℕ} (h : Inv d log) (hy : y ∈ d.g_ifMap.objects)
    (hq : d.m_bQuit y = false) :
    Inv { d with m_bQuit := Function.update d.m_bQuit y true } (log ++ [.stopped y]) := by
  obtain ⟨k, hk⟩ := (IfMap.mem_objects _).1 hy
  obtain ⟨hyc, hyh⟩ := h.inMap k y hk
  have hother (x : ℕ) (hx : x ≠ y) := history_other hx log (l := [.stopped y]) (by simp [Act.object])
  refine ⟨?_, ?_, h.once, ?_⟩
  · intro x hx
    dsimp only at hx
    rw [hother x (by omega)]
    exact h.fresh x hx
  · intro i x hi
    obtain ⟨h1, h2⟩ := h.inMap i x hi
    refine ⟨h1, ?_⟩
    by_cases hxy : x = y
    · subst hxy
      rw [history_append, h2]
      simp [alive, hq, history, Act.object]
    · rw [hother x hxy, h2, alive_update hxy]
  · intro x hx hn
    have hxy : x ≠ y := by
      rintro rfl
      exact hn k hk
    rw [hother x hxy]
    exact h.gone x hx hn

/-- Every step keeps the invariant. -/
theorem inv_step {d d' : Driver} {op : Op} {log l : List Act} (h : Inv d log) (hs : step d op = some (d', l)) :
    Inv d' (log ++ l) := by
  cases op with
  | VSCPOpen opening =>
    simp only [step, Option.some.injEq] at hs
    cases opening with
    | started => have := inv_open_started h; rwa [hs] at this
    | failed => have := inv_open_failed h; rwa [hs] at this
    | thrown => have := inv_open_thrown h; rwa [hs] at this
  | VSCPClose handle =>
    simp only [step, Option.some.injEq] at hs
    have := inv_close handle h
    rwa [hs] at this
  | workerStops y =>
    simp only [step] at hs
    split at hs
    · rename_i hy
      obtain ⟨rfl, rfl⟩ := Prod.mk.inj (Option.some.inj hs)
      exact inv_workerStops h hy.1 hy.2
    · cases hs

/-- So does a run. -/
theorem inv_run {d d' : Driver} {ops : List Op} {log l : List Act} (h : Inv d log)
    (hr : run d ops = some (d', l)) : Inv d' (log ++ l) := by
  induction ops generalizing d log l with
  | nil =>
    obtain ⟨rfl, rfl⟩ := Prod.mk.inj (Option.some.inj hr)
    rw [List.append_nil]
    exact h
  | cons op ops ih =>
    simp only [run, Option.bind_eq_some_iff, Option.map_eq_some_iff] at hr
    obtain ⟨⟨d₁, l₁⟩, hs, ⟨⟨d₂, l₂⟩, ht, he⟩⟩ := hr
    obtain ⟨rfl, rfl⟩ := Prod.mk.inj he
    rw [← List.append_assoc]
    exact ih (inv_step h hs) ht

/-! ## _fini -/

/-- `_fini` ends each object of the map once. -/
theorem history_orphans {xs : List ℕ} (hn : xs.Nodup) (d : Driver) (x : ℕ) :
    history x (Runs.run orphan d xs).2 = if x ∈ xs then ending d.m_bQuit x else [] := by
  induction xs generalizing d with
  | nil => rfl
  | cons y ys ih =>
    obtain ⟨hy, hys⟩ := List.nodup_cons.1 hn
    have ho : orphan d y = ({ d with m_bQuit := Function.update d.m_bQuit y true }, ending d.m_bQuit y) :=
      close_delete_eq y d
    rw [Runs.run, ho]
    dsimp only
    rw [history_append, history_ending, ih hys]
    by_cases hxy : x = y
    · subst hxy
      rw [if_pos rfl, if_neg hy, if_pos List.mem_cons_self, List.append_nil]
    · have hmem : x ∈ y :: ys ↔ x ∈ ys := by simp [hxy]
      rw [if_neg hxy, List.nil_append, if_congr hmem rfl rfl, ending_update hxy]

theorem history_fini {d : Driver} {log : List Act} (h : Inv d log) (x : ℕ) :
    history x (_fini d).2 = if x ∈ d.g_ifMap.objects then ending d.m_bQuit x else [] := by
  unfold _fini
  split
  · rename_i hempty
    rw [if_neg, history_nil]
    intro hx
    obtain ⟨i, hi⟩ := (IfMap.mem_objects _).1 hx
    rw [Std.TreeMap.getElem?_of_isEmpty hempty] at hi
    cases hi
  · exact history_orphans (h.once.objects_nodup) d x

/-- After `_fini` every object created is over. -/
theorem over_fini {d : Driver} {log : List Act} (h : Inv d log) (x : ℕ) :
    history x (log ++ (_fini d).2) = [] ∨ Over x (history x (log ++ (_fini d).2)) := by
  rw [history_append, history_fini h]
  by_cases hx : x ∈ d.g_ifMap.objects
  · obtain ⟨i, hi⟩ := (IfMap.mem_objects _).1 hx
    rw [if_pos hx, (h.inMap i x hi).2]
    exact .inr (over_of_alive _ _)
  · rw [if_neg hx, List.append_nil]
    by_cases hc : x < d.count
    · exact .inr (h.gone x hc fun i hi => hx ((IfMap.mem_objects _).2 ⟨i, hi⟩))
    · exact .inl (h.fresh x (by omega))

/-! ## Failures in the log -/

theorem not_mem_ending {m_bQuit : ℕ → Bool} {x y : ℕ} :
    .failed x ∉ ending m_bQuit y ∧ .thrown x ∉ ending m_bQuit y ∧ .stopped x ∉ ending m_bQuit y := by
  unfold ending
  split <;> simp

theorem step_failures {d d' : Driver} {op : Op} {l : List Act} (hs : step d op = some (d', l)) :
    (op = .VSCPOpen .failed ↔ ∃ x, .failed x ∈ l) ∧ (op = .VSCPOpen .thrown ↔ ∃ x, .thrown x ∈ l) ∧
      ∀ x, op = .workerStops x ↔ .stopped x ∈ l := by
  cases op with
  | VSCPOpen opening =>
    simp only [step, Option.some.injEq] at hs
    cases opening with
    | started =>
      rw [VSCPOpen_started] at hs
      obtain ⟨-, rfl⟩ := Prod.mk.inj hs
      simp
    | failed =>
      rw [VSCPOpen_failed] at hs
      obtain ⟨-, rfl⟩ := Prod.mk.inj hs
      simp
    | thrown =>
      obtain ⟨-, rfl⟩ := Prod.mk.inj hs
      simp
  | VSCPClose handle =>
    simp only [step, Option.some.injEq] at hs
    cases hg : d.g_ifMap.getDriverObject handle with
    | none =>
      rw [VSCPClose_none hg] at hs
      obtain ⟨-, rfl⟩ := Prod.mk.inj hs
      simp
    | some x =>
      rw [VSCPClose_some hg] at hs
      obtain ⟨-, rfl⟩ := Prod.mk.inj hs
      simp [not_mem_ending]
  | workerStops y =>
    simp only [step] at hs
    split at hs
    · obtain ⟨-, rfl⟩ := Prod.mk.inj (Option.some.inj hs)
      simp [eq_comm]
    · cases hs

/-- The log tells which failures a run had. -/
theorem run_failures {d d' : Driver} {ops : List Op} {l : List Act} (hr : run d ops = some (d', l)) :
    (.VSCPOpen .failed ∈ ops ↔ ∃ x, .failed x ∈ l) ∧ (.VSCPOpen .thrown ∈ ops ↔ ∃ x, .thrown x ∈ l) ∧
      ∀ x, .workerStops x ∈ ops ↔ .stopped x ∈ l := by
  induction ops generalizing d l with
  | nil =>
    obtain ⟨-, rfl⟩ := Prod.mk.inj (Option.some.inj hr)
    simp
  | cons op ops ih =>
    simp only [run, Option.bind_eq_some_iff, Option.map_eq_some_iff] at hr
    obtain ⟨⟨d₁, l₁⟩, hs, ⟨⟨d₂, l₂⟩, ht, he⟩⟩ := hr
    obtain ⟨rfl, rfl⟩ := Prod.mk.inj he
    obtain ⟨h1, h2, h3⟩ := step_failures hs
    obtain ⟨i1, i2, i3⟩ := ih ht
    refine ⟨?_, ?_, ?_⟩
    · rw [List.mem_cons, eq_comm, h1, i1]
      simp only [List.mem_append, exists_or]
    · rw [List.mem_cons, eq_comm, h2, i2]
      simp only [List.mem_append, exists_or]
    · intro x
      rw [List.mem_cons, eq_comm, h3, i3, List.mem_append]

/-- A failure that the log has, an object's history has. -/
theorem mem_history_lifetime {d : Driver} {log : List Act} (h : Inv d log) (x : ℕ) :
    (.failed x ∈ history x (log ++ (_fini d).2) ↔ .failed x ∈ log) ∧
      (.thrown x ∈ history x (log ++ (_fini d).2) ↔ .thrown x ∈ log) ∧
      (.stopped x ∈ history x (log ++ (_fini d).2) ↔ .stopped x ∈ log) := by
  rw [history_append, history_fini h]
  have hmem (a : Act) (ha : a.object = x) : a ∈ history x log ↔ a ∈ log := by simp [history, ha]
  split
  · rw [List.mem_append, List.mem_append, List.mem_append, hmem _ rfl, hmem _ rfl, hmem _ rfl]
    simp [not_mem_ending]
  · rw [List.append_nil, hmem _ rfl, hmem _ rfl, hmem _ rfl]
    exact ⟨Iff.rfl, Iff.rfl, Iff.rfl⟩

/-! ## The requirement -/

/-- An object that is over went as it should if nothing failed. -/
theorem over_proper {x : ℕ} {h : List Act} (ho : h = [] ∨ Over x h) :
    ((.created x ∈ h → h.count (.deleted x) = 1) ∧
        (.started x ∈ h → h.count (.joined x) = 1 ∧ [.joined x, .deleted x].Sublist h) ∧
        (.joined x ∈ h → .started x ∈ h)) ↔
      .failed x ∉ h ∧ .thrown x ∉ h ∧ .stopped x ∉ h := by
  rcases ho with rfl | rfl | rfl | rfl | rfl
  · simp
  · -- joined, and never started
    simp
  · -- created, and never deleted
    simp
  · simp
  · -- started, and never joined
    simp

/-- Objects and workers are as they should be to the end of `_fini` if and only
if every pthread_create succeeds, no `open` throws and no worker ends on its
own. -/
theorem life_cycle_iff (ops : List Op) (log : List Act) (h : lifetime ops = some log) :
    Proper log ↔ ∀ op ∈ ops, op ≠ .VSCPOpen .failed ∧ op ≠ .VSCPOpen .thrown ∧ ∀ x, op ≠ .workerStops x := by
  obtain ⟨⟨d, l⟩, hr, rfl⟩ := Option.map_eq_some_iff.1 h
  obtain ⟨hopen, hthrow, hstop⟩ := run_failures hr
  have hi : Inv d l := by simpa using inv_run inv_init hr
  dsimp only at hopen hthrow hstop ⊢
  have hobject (x : ℕ) := over_proper (over_fini hi x)
  simp only [mem_history_lifetime hi] at hobject
  rw [proper_iff, forall_congr' hobject]
  constructor
  · intro hnone op hop
    refine ⟨?_, ?_, ?_⟩
    · rintro rfl
      obtain ⟨x, hx⟩ := hopen.1 hop
      exact (hnone x).1 hx
    · rintro rfl
      obtain ⟨x, hx⟩ := hthrow.1 hop
      exact (hnone x).2.1 hx
    · rintro x rfl
      exact (hnone x).2.2 ((hstop x).1 hop)
  · intro hops x
    refine ⟨fun hx => ?_, fun hx => ?_, fun hx => ?_⟩
    · exact (hops _ (hopen.2 ⟨x, hx⟩)).1 rfl
    · exact (hops _ (hthrow.2 ⟨x, hx⟩)).2.1 rfl
    · exact (hops _ ((hstop x).2 hx)).2.2 x rfl

/-- A failed pthread_create is joined, an object whose `open` throws is not
deleted, and a worker that ended on its own is not joined. -/
theorem life_cycle_failures :
    (∃ log, lifetime [.VSCPOpen .failed] = some log ∧ ¬ Proper log) ∧
      (∃ log, lifetime [.VSCPOpen .thrown] = some log ∧ ¬ Proper log) ∧
      ∃ log, lifetime [.VSCPOpen .started, .workerStops 0] = some log ∧ ¬ Proper log := by
  refine ⟨⟨[.created 0, .failed 0, .joined 0, .deleted 0], by decide, ?_⟩,
    ⟨[.created 0, .thrown 0], by decide, ?_⟩, ⟨[.created 0, .started 0, .stopped 0, .deleted 0], by decide, ?_⟩⟩
  · intro h
    have := (h 0).2.2
    simp at this
  · intro h
    have := (h 0).1
    simp at this
  · intro h
    have := (h 0).2.1
    simp at this

/-- Three opens, one of them after a close whose handle it takes over. -/
theorem life_cycle_reopened :
    ∃ log, lifetime [.VSCPOpen .started, .VSCPOpen .started, .VSCPClose 1681, .VSCPOpen .started] = some log ∧
      log.length = 12 ∧ Proper log := by
  refine ⟨_, by rfl, by decide, (life_cycle_iff
    [.VSCPOpen .started, .VSCPOpen .started, .VSCPClose 1681, .VSCPOpen .started] _ (by rfl)).2 ?_⟩
  simp

end VscpAutomation.LifeCycle
