import StatGuardian.Library.Results
import StatGuardian.Library.Totals
import StatGuardian.Runtime.ExtRat
import StatGuardian.Stream.Agent

namespace StatGuardian.Stream

open StatGuardian.Core Totals

variable {F : Type} [Float64 F]

def amount (provenance : Provenance) : Option (Measured UInt64) → Nat
  | some m => if m.provenance = provenance then m.value.toNat else 0
  | none => 0

def total (provenance : Provenance) (metric : AgentEvent F → Option (Measured UInt64))
    (events : List (AgentEvent F)) : Nat :=
  (events.map (fun e => amount provenance (metric e))).sum

/-- All tokens of a provenance, as a number without a bound. -/
def tokens (provenance : Provenance) (events : List (AgentEvent F)) : Nat :=
  total provenance AgentEvent.tokensIn events + total provenance AgentEvent.tokensOut events

omit [Float64 F] in
theorem total_append (provenance : Provenance)
    (metric : AgentEvent F → Option (Measured UInt64)) (events more : List (AgentEvent F)) :
    total provenance metric (events ++ more) =
      total provenance metric events + total provenance metric more := by
  simp [total]

omit [Float64 F] in
theorem tokens_append (provenance : Provenance) (events more : List (AgentEvent F)) :
    tokens provenance (events ++ more) = tokens provenance events + tokens provenance more := by
  unfold tokens
  rw [total_append, total_append]
  omega

namespace AgentTelemetry

theorem added_wraps (provenance : Provenance) (word : UInt64) (sum : Nat)
    (metric : Option (Measured UInt64)) (wraps : Wraps word sum) :
    Wraps (added provenance word metric) (sum + amount provenance metric) := by
  cases metric with
  | none => exact wraps
  | some m =>
    simp only [added, amount]
    split
    · exact wraps.add (wraps_toNat m.value)
    · exact wraps

theorem aggregate_wraps (provenance : Provenance)
    (metric : AgentEvent F → Option (Measured UInt64)) (get : AgentTelemetry F → UInt64)
    (counted : ∀ t e, get (t.count e) = added provenance (get t) (metric e))
    (start : get empty = 0) (sorted : ∀ t executions, get { t with executions } = get t)
    (events : List (AgentEvent F)) :
    Wraps (get (aggregate events)) (total provenance metric events) := by
  have each : ∀ e ∈ events, ∀ t sum, Wraps (get t) sum →
      Wraps (get (t.count e)) (sum + amount provenance (metric e)) := by
    intro e _ t sum wraps
    rw [counted]
    exact added_wraps provenance _ sum (metric e) wraps
  have tracked := foldl_tracks count (fun t sum => Wraps (get t) sum) _ each empty 0
    (by rw [start]; rfl)
  rw [aggregate, sorted]
  rwa [Nat.zero_add] at tracked

section Tokens

variable (events : List (AgentEvent F))

theorem tokensIn_wraps : Wraps (aggregate events).tokensInMeasured
      (total .measured AgentEvent.tokensIn events) ∧
    Wraps (aggregate events).tokensInEstimated (total .estimated AgentEvent.tokensIn events) :=
  ⟨aggregate_wraps _ _ tokensInMeasured (fun _ _ => rfl) rfl (fun _ _ => rfl) events,
    aggregate_wraps _ _ tokensInEstimated (fun _ _ => rfl) rfl (fun _ _ => rfl) events⟩

theorem tokensOut_wraps : Wraps (aggregate events).tokensOutMeasured
      (total .measured AgentEvent.tokensOut events) ∧
    Wraps (aggregate events).tokensOutEstimated (total .estimated AgentEvent.tokensOut events) :=
  ⟨aggregate_wraps _ _ tokensOutMeasured (fun _ _ => rfl) rfl (fun _ _ => rfl) events,
    aggregate_wraps _ _ tokensOutEstimated (fun _ _ => rfl) rfl (fun _ _ => rfl) events⟩

theorem totalTokensMeasured_wraps :
    Wraps (aggregate events).totalTokensMeasured (tokens .measured events) :=
  (tokensIn_wraps events).1.add (tokensOut_wraps events).1

theorem totalTokensEstimated_wraps :
    Wraps (aggregate events).totalTokensEstimated (tokens .estimated events) :=
  (tokensIn_wraps events).2.add (tokensOut_wraps events).2

theorem duration_wraps : Wraps (aggregate events).durationMeasuredMs
    (total .measured AgentEvent.durationMs events) :=
  aggregate_wraps _ _ durationMeasuredMs (fun _ _ => rfl) rfl (fun _ _ => rfl) events

end Tokens

end AgentTelemetry

namespace AgentGuard

/-- Every sum that `evaluate` takes of the tokens is the one without a bound. The last sum is only
    taken where the measured tokens keep the budget. -/
structure SumsExact (t : AgentTelemetry F) (max : UInt64) (events : List (AgentEvent F)) :
    Prop where
  tokensInMeasured : t.tokensInMeasured.toNat = total .measured AgentEvent.tokensIn events
  tokensInEstimated : t.tokensInEstimated.toNat = total .estimated AgentEvent.tokensIn events
  tokensOutMeasured : t.tokensOutMeasured.toNat = total .measured AgentEvent.tokensOut events
  tokensOutEstimated : t.tokensOutEstimated.toNat = total .estimated AgentEvent.tokensOut events
  totalTokensMeasured : t.totalTokensMeasured.toNat = tokens .measured events
  totalTokensEstimated : t.totalTokensEstimated.toNat = tokens .estimated events
  together : ¬ t.totalTokensMeasured > max →
    (t.totalTokensMeasured + t.totalTokensEstimated).toNat =
      tokens .measured events + tokens .estimated events

/-- The token budget of a policy is held against the exact totals. -/
structure BudgetExact (fixed : Nat → F → String) (policy : AgentPolicy F) (max : UInt64)
    (events : List (AgentEvent F)) : Prop where
  measured : max.toNat < tokens .measured events →
    ∃ v ∈ (evaluate fixed policy events).violations, v.policy = "max_total_tokens" ∧
      v.measured = true
  estimated : tokens .measured events ≤ max.toNat →
    max.toNat < tokens .measured events + tokens .estimated events →
      ∃ v ∈ (evaluate fixed policy events).violations, v.policy = "max_total_tokens" ∧
        v.measured = false
  sums : SumsExact (evaluate fixed policy events).telemetry max events

theorem sumsExact_iff (max : UInt64) (events : List (AgentEvent F)) :
    SumsExact (aggregate events) max events ↔
      tokens .measured events < 2 ^ 64 ∧ tokens .estimated events < 2 ^ 64 ∧
        (tokens .measured events ≤ max.toNat →
          tokens .measured events + tokens .estimated events < 2 ^ 64) := by
  have measured := AgentTelemetry.totalTokensMeasured_wraps events
  have estimated := AgentTelemetry.totalTokensEstimated_wraps events
  have tokensIn := AgentTelemetry.tokensIn_wraps events
  have tokensOut := AgentTelemetry.tokensOut_wraps events
  have within : tokens .measured events < 2 ^ 64 →
      (¬ (aggregate events).totalTokensMeasured > max ↔
        tokens .measured events ≤ max.toNat) := by
    intro fits
    rw [gt_iff_lt, UInt64.lt_iff_toNat_lt, measured.exact_iff.mpr fits, Nat.not_lt]
  constructor
  · intro exact
    have fits := measured.exact_iff.mp exact.totalTokensMeasured
    refine ⟨fits, estimated.exact_iff.mp exact.totalTokensEstimated, fun keeps => ?_⟩
    exact (measured.add estimated).exact_iff.mp (exact.together ((within fits).mpr keeps))
  · rintro ⟨fits, fits', together⟩
    constructor
    · exact tokensIn.1.exact_iff.mpr (Nat.lt_of_le_of_lt (Nat.le_add_right ..) fits)
    · exact tokensIn.2.exact_iff.mpr (Nat.lt_of_le_of_lt (Nat.le_add_right ..) fits')
    · exact tokensOut.1.exact_iff.mpr (Nat.lt_of_le_of_lt (Nat.le_add_left ..) fits)
    · exact tokensOut.2.exact_iff.mpr (Nat.lt_of_le_of_lt (Nat.le_add_left ..) fits')
    · exact measured.exact_iff.mpr fits
    · exact estimated.exact_iff.mpr fits'
    · intro keeps
      exact (measured.add estimated).exact_iff.mpr (together ((within fits).mp keeps))

theorem mem_violations_of_tokenBudget (fixed : Nat → F → String) (policy : AgentPolicy F)
    (events : List (AgentEvent F)) (v : AgentPolicyViolation)
    (reports : v ∈ tokenBudget policy (aggregate events)) :
    v ∈ (evaluate fixed policy events).violations := by
  simp only [evaluate, List.mem_append]
  exact .inl (.inl (.inl (.inr reports)))

/-- The budget is held against the exact totals exactly when none of the sums leaves 64 bits. -/
theorem token_budget_exact_iff (fixed : Nat → F → String) (policy : AgentPolicy F) (max : UInt64)
    (events : List (AgentEvent F)) :
    BudgetExact fixed { policy with maxTotalTokens := some max } max events ↔
      tokens .measured events < 2 ^ 64 ∧ tokens .estimated events < 2 ^ 64 ∧
        (tokens .measured events ≤ max.toNat →
          tokens .measured events + tokens .estimated events < 2 ^ 64) := by
  constructor
  · intro exact
    exact (sumsExact_iff max events).mp exact.sums
  · intro fits
    have exact := (sumsExact_iff max events).mpr fits
    refine ⟨fun exceeds => ?_, fun keeps exceeds => ?_, exact⟩
    · have more : (aggregate events).totalTokensMeasured > max := by
        rw [gt_iff_lt, UInt64.lt_iff_toNat_lt, exact.totalTokensMeasured]
        exact exceeds
      have reports : ∃ v ∈ tokenBudget { policy with maxTotalTokens := some max }
          (aggregate events), v.policy = "max_total_tokens" ∧ v.measured = true := by
        simp only [tokenBudget, if_pos more]
        exact ⟨_, List.mem_singleton_self _, rfl, rfl⟩
      obtain ⟨v, member, named⟩ := reports
      exact ⟨v, mem_violations_of_tokenBudget fixed _ events v member, named⟩
    · have within : ¬ (aggregate events).totalTokensMeasured > max := by
        rw [gt_iff_lt, UInt64.lt_iff_toNat_lt, exact.totalTokensMeasured]
        exact Nat.not_lt.mpr keeps
      have more : (aggregate events).totalTokensMeasured +
          (aggregate events).totalTokensEstimated > max := by
        rw [gt_iff_lt, UInt64.lt_iff_toNat_lt, exact.together within]
        exact exceeds
      have reports : ∃ v ∈ tokenBudget { policy with maxTotalTokens := some max }
          (aggregate events), v.policy = "max_total_tokens" ∧ v.measured = false := by
        simp only [tokenBudget, if_neg within, if_pos more]
        exact ⟨_, List.mem_singleton_self _, rfl, rfl⟩
      obtain ⟨v, member, named⟩ := reports
      exact ⟨v, mem_violations_of_tokenBudget fixed _ events v member, named⟩

end AgentGuard

def hugeCall : Value := .object [("tokens_in", .number "9223372036854775808")]

def plainText : TextEnv := ⟨id, id, fun _ => ""⟩

/-- Two calls of 2 to the 63rd tokens each against a budget of ten. -/
theorem huge_calls_pass :
    ∃ events : List (AgentEvent ExtRat),
      [hugeCall, hugeCall].mapM (AgentEvent.fromJson plainText) = .ok events ∧
      tokens .measured events = 2 ^ 64 ∧
      (AgentGuard.evaluate (fun _ _ => "") { AgentPolicy.default with maxTotalTokens := some 10 }
        events).violations = [] ∧
      ¬ AgentGuard.BudgetExact (fun _ _ => "")
        { AgentPolicy.default with maxTotalTokens := some 10 } 10 events := by
  obtain ⟨events, parsed, silent⟩ := Results.ok_of_any
    ([hugeCall, hugeCall].mapM (AgentEvent.fromJson (F := ExtRat) plainText))
    (fun events => tokens .measured events == 2 ^ 64 &&
      (AgentGuard.evaluate (fun _ _ => "") { AgentPolicy.default with maxTotalTokens := some 10 }
        events).violations.isEmpty) (by decide +kernel)
  simp only [Bool.and_eq_true, beq_iff_eq, List.isEmpty_iff] at silent
  refine ⟨events, parsed, silent.1, silent.2, fun exact => ?_⟩
  obtain ⟨v, reported, _⟩ := exact.measured (by rw [silent.1]; decide)
  rw [silent.2] at reported
  cases reported

end StatGuardian.Stream
