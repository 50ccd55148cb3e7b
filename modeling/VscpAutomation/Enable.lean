import VscpAutomation.Operations
/-!
# The enable flags

`doWork` reads none of them: it hands over the first kind that is due
(`hands_iff`). So disabled events are withheld exactly in the runs where what
is due happens to be enabled at every call (`flags_respected_iff`).
-/

namespace VscpAutomation.Enable

open CAutomation

variable {K : Type} [Field K] [LinearOrder K] [FloorRing K] (E : Env K)

/-- The call hands over an event of kind `k`. -/
def Hands (c : Clock) (s : CAutomation K) (k : Kind) : Prop :=
  ∃ ex, .handed c ex ∈ (s.doWork E c).log ∧ ex.vscp_type = k.vscp_type

theorem hands_iff (c : Clock) (s : CAutomation K) (k : Kind) :
    Hands E c s k ↔ ¬ s.CalcDue c ∧ s.firstDue c = some k := by
  have hd := doWork_did E c s
  unfold Hands
  generalize s.doWork E c = w at hd ⊢
  cases hd with
  | calculated h l n r =>
    constructor
    · rintro ⟨ex, hex, hk⟩
      simp only [List.mem_cons, reduceCtorEq, Entry.handed.injEq, true_and, List.not_mem_nil, or_false,
        false_or] at hex
      subst hex
      cases k <;> cases hk
    · exact fun hn => absurd h hn.1
  | sent h j hj l n r =>
    constructor
    · rintro ⟨ex, hex, hk⟩
      simp only [List.mem_cons, Entry.handed.injEq, true_and, List.not_mem_nil, or_false] at hex
      subst hex
      have hjk : j = k := Kind.vscp_type_injective hk
      exact ⟨h, hjk ▸ hj⟩
    · rintro ⟨-, hk⟩
      rw [hj, Option.some.injEq] at hk
      subst hk
      exact ⟨_, List.mem_singleton_self _, rfl⟩
  | idle h hn =>
    constructor
    · rintro ⟨ex, hex, -⟩; cases hex
    · rintro ⟨-, hk⟩; rw [hn] at hk; cases hk

/-- In the run, every kind that a `doWork` call hands over is enabled at that
call, and so is automation. -/
def FlagsRespected (start : Clock) (ops : List (Operation K)) : Prop :=
  ∀ pre c post, ops = pre ++ .doWork c :: post →
    let s := (opRun E start pre).1
    ∀ k, Hands E c s k → s.enabled k = true ∧ s.m_bEnableAutomation = true

/-- A run respects the flags if and only if at each `doWork` call that does not
recalculate, the first kind due then, if there is one, is enabled and so is
automation. -/
theorem flags_respected_iff (start : Clock) (ops : List (Operation K)) :
    FlagsRespected E start ops ↔
      ∀ pre c post, ops = pre ++ .doWork c :: post →
        let s := (opRun E start pre).1
        ¬ s.CalcDue c → ∀ k, s.firstDue c = some k → s.enabled k = true ∧ s.m_bEnableAutomation = true := by
  apply forall_congr'
  intro pre
  apply forall_congr'
  intro c
  apply forall_congr'
  intro post
  apply imp_congr_right
  intro _
  simp only [hands_iff, and_imp]
  constructor
  · intro h hc k hk
    exact h k hc hk
  · intro h k hc hk
    exact h hc k hk

/-- Sunrise events are disabled at 05:30 and one is sent at 06:01. -/
theorem disabled_event_sent :
    ¬ FlagsRespected (rationalEnv fun _ => .error .parse_error) (march 20 5 30 (by decide))
      [.disableSunRiseEvent, .doWork (march 20 6 1 (by decide))] := by
  intro h
  have hk := h [.disableSunRiseEvent] _ [] rfl .sunrise ((hands_iff _ _ _ _).2 ⟨?_, ?_⟩)
  · exact absurd hk.1 (by decide)
  · rintro ⟨-, h6⟩
    exact absurd h6 (by decide)
  · decide +kernel

end VscpAutomation.Enable
