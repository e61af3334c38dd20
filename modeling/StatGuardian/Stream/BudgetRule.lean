import StatGuardian.Stream.Extension

namespace StatGuardian.Stream

open StatGuardian.Core

section Totals

def costsOf (provenance : Provenance) (events : List (AgentEvent ExtRat)) : List ExtRat :=
  ((events.filterMap AgentEvent.costUsd).filter (·.provenance = provenance)).map Measured.value

/-- The exact sum of the costs, also of infinite ones. -/
def costTotal (provenance : Provenance) (events : List (AgentEvent ExtRat)) : ExtRat :=
  (costsOf provenance events).foldl (· + ·) (.fin 0)

theorem foldl_cost (provenance : Provenance) (get : AgentTelemetry ExtRat → ExtRat)
    (counted : ∀ t e, get (t.count e) = AgentTelemetry.added provenance (get t) e.costUsd)
    (events : List (AgentEvent ExtRat)) (t : AgentTelemetry ExtRat) :
    get (events.foldl AgentTelemetry.count t) =
      (costsOf provenance events).foldl (· + ·) (get t) := by
  induction events generalizing t with
  | nil => rfl
  | cons e events ih =>
    rw [List.foldl_cons, ih, counted]
    cases metric : e.costUsd with
    | none =>
      rw [costsOf, costsOf, List.filterMap_cons_none metric]
      rfl
    | some m =>
      rw [costsOf, costsOf, List.filterMap_cons_some metric, AgentTelemetry.added]
      by_cases own : m.provenance = provenance
      · rw [if_pos own, List.filter_cons_of_pos (by simpa using own)]
        rfl
      · rw [if_neg own, List.filter_cons_of_neg (by simpa using own)]

theorem costTotal_eq (events : List (AgentEvent ExtRat)) :
    (aggregate events).costMeasuredUsd = costTotal .measured events ∧
      (aggregate events).costEstimatedUsd = costTotal .estimated events :=
  ⟨foldl_cost _ AgentTelemetry.costMeasuredUsd (fun _ _ => rfl) events .empty,
    foldl_cost _ AgentTelemetry.costEstimatedUsd (fun _ _ => rfl) events .empty⟩

end Totals

/-- What the violations say of a budget, by what exceeds it: the measured total, or that and the
    estimated one together. -/
structure FollowsRule (violations : List AgentPolicyViolation) (name : String)
    (measured together : Prop) : Prop where
  once : (violations.filter (·.policy == name)).length ≤ 1
  reported : (∃ v ∈ violations, v.policy = name) ↔ together
  measured : ∀ v ∈ violations, v.policy = name → (v.measured = true ↔ measured)
  blocking : ∀ v ∈ violations, v.policy = name → v.measured = false → v.severity ≠ .blocking

/-- The metered budgets of the policy all follow the rule, by the exact totals. -/
structure MeteredAlike (fixed : Nat → ExtRat → String) (policy : AgentPolicy ExtRat)
    (events : List (AgentEvent ExtRat)) : Prop where
  tokens : ∀ max ∈ policy.maxTotalTokens,
    FollowsRule (AgentGuard.evaluate fixed policy events).violations "max_total_tokens"
      (max.toNat < tokens .measured events)
      (max.toNat < tokens .measured events + tokens .estimated events)
  cost : ∀ max ∈ policy.maxCostUsd,
    FollowsRule (AgentGuard.evaluate fixed policy events).violations "max_cost_usd"
      (Float64.gt (costTotal .measured events) max = true)
      (Float64.gt (costTotal .measured events + costTotal .estimated events) max = true)
  duration : ∀ max ∈ policy.maxDurationMs,
    FollowsRule (AgentGuard.evaluate fixed policy events).violations "max_duration_ms"
      (max.toNat < total .measured AgentEvent.durationMs events)
      (max.toNat < total .measured AgentEvent.durationMs events +
        total .estimated AgentEvent.durationMs events)

/-- Estimated durations alone do not push the duration over its budget, and estimated costs do
    not take a measured excess back. -/
structure EstimatesIdle (policy : AgentPolicy ExtRat) (events : List (AgentEvent ExtRat)) : Prop where
  cost : ∀ max ∈ policy.maxCostUsd, Float64.gt (costTotal .measured events) max = true →
    Float64.gt (costTotal .measured events + costTotal .estimated events) max = true
  duration : ∀ max ∈ policy.maxDurationMs,
    total .measured AgentEvent.durationMs events ≤ max.toNat →
      total .measured AgentEvent.durationMs events +
        total .estimated AgentEvent.durationMs events ≤ max.toNat

namespace AgentGuard

variable {F : Type} [Float64 F] (fixed : Nat → F → String) (policy : AgentPolicy F)

theorem mem_budgetViolations {t : AgentTelemetry F} {b : Budget} {v : AgentPolicyViolation}
    (member : v ∈ budgetViolations fixed policy t b) : v.policy = b.name ∧
      (v.measured = true ∧ b.exceeded policy t = true ∨
        v.measured = false ∧ v.severity = .warning ∧ b.exceeded policy t = false) := by
  obtain ⟨measured, estimated, same⟩ := budgetViolations_eq fixed policy t b
  rw [same, breach] at member
  split at member
  · rename_i more
    rw [List.mem_singleton.mp member]
    exact ⟨rfl, .inl ⟨rfl, more⟩⟩
  · rename_i within
    split at member
    · rw [List.mem_singleton.mp member]
      exact ⟨rfl, .inr ⟨rfl, rfl, Bool.eq_false_iff.mpr within⟩⟩
    · cases member

theorem budgetViolations_one (t : AgentTelemetry F) (b : Budget) :
    (budgetViolations fixed policy t b).length ≤ 1 ∧
      ((∃ v, v ∈ budgetViolations fixed policy t b) ↔
        b.exceeded policy t = true ∨ b.together policy t = true) := by
  obtain ⟨measured, estimated, same⟩ := budgetViolations_eq fixed policy t b
  rw [same, breach]
  cases b.exceeded policy t <;> cases b.together policy t <;> simp

theorem violations_filter (events : List (AgentEvent F)) (b : Budget) :
    (evaluate fixed policy events).violations.filter (·.policy == b.name) =
      budgetViolations fixed policy (aggregate events) b := by
  have own : ∀ b', (budgetViolations fixed policy (aggregate events) b').filter (·.policy == b.name) =
      if b' = b then budgetViolations fixed policy (aggregate events) b' else [] := by
    intro b'
    split
    · rename_i same
      refine List.filter_eq_self.mpr fun v member => ?_
      rw [(mem_budgetViolations fixed policy member).1, same, BEq.rfl]
    · rename_i other
      refine List.filter_eq_nil_iff.mpr fun v member named => ?_
      rw [(mem_budgetViolations fixed policy member).1] at named
      exact other (Budget.name_injective (eq_of_beq named))
  have loops : ((detectLoops events policy.loopWindow policy.loopRepeatThreshold).map
      loopViolation).filter (·.policy == b.name) = [] := by
    refine List.filter_eq_nil_iff.mpr fun v member named => ?_
    obtain ⟨found, -, rfl⟩ := List.mem_map.mp member
    have name : "loop_detection" = b.name := eq_of_beq named
    cases b <;> exact absurd name (by decide)
  rw [evaluate_violations, List.filter_append, loops, List.append_nil, List.filter_flatMap]
  simp only [own]
  cases b <;> simp

/-- A budget follows the rule when the rule says what the code tests: the measured total first,
    and then both together. -/
theorem followsRule_iff (events : List (AgentEvent F)) (b : Budget) {measured together added : Prop}
    (exceeded_iff : b.exceeded policy (aggregate events) = true ↔ measured)
    (together_iff : b.together policy (aggregate events) = true ↔ added) :
    FollowsRule (evaluate fixed policy events).violations b.name measured together ↔
      (together ↔ measured ∨ added) := by
  have named : ∀ v, (v ∈ (evaluate fixed policy events).violations ∧ v.policy = b.name) ↔
      v ∈ budgetViolations fixed policy (aggregate events) b := by
    intro v
    rw [← violations_filter, List.mem_filter, beq_iff_eq]
  obtain ⟨one, reported⟩ := budgetViolations_one fixed policy (aggregate events) b
  rw [exceeded_iff, together_iff] at reported
  constructor
  · intro follows
    rw [← follows.reported, ← reported]
    exact exists_congr named
  · intro agree
    constructor
    · rwa [violations_filter]
    · rw [agree, ← reported]
      exact exists_congr named
    · intro v member name
      obtain ⟨-, tested⟩ := mem_budgetViolations fixed policy ((named v).mp ⟨member, name⟩)
      rw [← exceeded_iff]
      rcases tested with ⟨sure, more⟩ | ⟨guess, -, within⟩
      · rw [sure, more]
      · rw [guess, within]
    · intro v member name guess
      obtain ⟨-, tested⟩ := mem_budgetViolations fixed policy ((named v).mp ⟨member, name⟩)
      rcases tested with ⟨sure, -⟩ | ⟨-, warning, -⟩
      · exact absurd (guess.symm.trans sure) Bool.false_ne_true
      · rw [warning]
        decide

end AgentGuard

section Rules

variable (fixed : Nat → ExtRat → String) {policy : AgentPolicy ExtRat} {events : List (AgentEvent ExtRat)}

theorem tokens_follow_rule (fits : Fits events) {max : UInt64}
    (limit : policy.maxTotalTokens = some max) :
    FollowsRule (AgentGuard.evaluate fixed policy events).violations "max_total_tokens"
      (max.toNat < tokens .measured events)
      (max.toNat < tokens .measured events + tokens .estimated events) := by
  have tokensFit : tokens .measured events < 2 ^ 64 :=
    Nat.lt_of_le_of_lt (Nat.le_add_right ..) fits.tokens
  have measured := (AgentTelemetry.totalTokensMeasured_wraps events).exact_iff.mpr tokensFit
  have sum := ((AgentTelemetry.totalTokensMeasured_wraps events).add
    (AgentTelemetry.totalTokensEstimated_wraps events)).exact_iff.mpr fits.tokens
  have exceeded : Budget.tokens.exceeded policy (aggregate events) = true ↔
      max.toNat < tokens .measured events := by
    simp [Budget.exceeded, limit, UInt64.lt_iff_toNat_lt, measured]
  have together : Budget.tokens.together policy (aggregate events) = true ↔
      max.toNat < tokens .measured events + tokens .estimated events := by
    simp only [Budget.together, limit, Option.any_some, decide_eq_true_eq, gt_iff_lt,
      UInt64.lt_iff_toNat_lt, sum]
  refine (AgentGuard.followsRule_iff fixed policy events .tokens exceeded together).mpr ⟨.inr, ?_⟩
  rintro (more | more)
  · exact Nat.lt_of_lt_of_le more (Nat.le_add_right ..)
  · exact more

theorem cost_follows_rule_iff {max : ExtRat} (limit : policy.maxCostUsd = some max) :
    FollowsRule (AgentGuard.evaluate fixed policy events).violations "max_cost_usd"
        (Float64.gt (costTotal .measured events) max = true)
        (Float64.gt (costTotal .measured events + costTotal .estimated events) max = true) ↔
      (Float64.gt (costTotal .measured events) max = true →
        Float64.gt (costTotal .measured events + costTotal .estimated events) max = true) := by
  obtain ⟨spent, guessed⟩ := costTotal_eq events
  have exceeded : Budget.cost.exceeded policy (aggregate events) = true ↔
      Float64.gt (costTotal .measured events) max = true := by
    simp [Budget.exceeded, limit, spent]
  have together : Budget.cost.together policy (aggregate events) = true ↔
      Float64.gt (costTotal .measured events + costTotal .estimated events) max = true := by
    simp [Budget.together, limit, spent, guessed]
  rw [← Budget.name, AgentGuard.followsRule_iff fixed policy events .cost exceeded together]
  exact ⟨fun same more => same.mpr (.inl more), fun kept => ⟨.inr, Or.rec kept id⟩⟩

theorem duration_follows_rule_iff (fits : Fits events) {max : UInt64}
    (limit : policy.maxDurationMs = some max) :
    FollowsRule (AgentGuard.evaluate fixed policy events).violations "max_duration_ms"
        (max.toNat < total .measured AgentEvent.durationMs events)
        (max.toNat < total .measured AgentEvent.durationMs events +
          total .estimated AgentEvent.durationMs events) ↔
      (total .measured AgentEvent.durationMs events ≤ max.toNat →
        total .measured AgentEvent.durationMs events +
          total .estimated AgentEvent.durationMs events ≤ max.toNat) := by
  have lasted := (AgentTelemetry.duration_wraps events).exact_iff.mpr fits.duration
  have exceeded : Budget.duration.exceeded policy (aggregate events) = true ↔
      max.toNat < total .measured AgentEvent.durationMs events := by
    simp [Budget.exceeded, limit, UInt64.lt_iff_toNat_lt, lasted]
  have together : Budget.duration.together policy (aggregate events) = true ↔ False := by
    simp [Budget.together]
  rw [← Budget.name, AgentGuard.followsRule_iff fixed policy events .duration exceeded together,
    or_false]
  omega

end Rules

/-- The metered budgets follow one rule exactly when no estimated duration is needed to exceed the
    budget and no estimated cost takes a measured excess back. -/
theorem metered_alike_iff (fixed : Nat → ExtRat → String) (policy : AgentPolicy ExtRat)
    (events : List (AgentEvent ExtRat)) (fits : Fits events) :
    MeteredAlike fixed policy events ↔ EstimatesIdle policy events := by
  constructor
  · intro alike
    constructor
    · intro max limit
      exact (cost_follows_rule_iff fixed limit).mp (alike.cost max limit)
    · intro max limit
      exact (duration_follows_rule_iff fixed fits limit).mp (alike.duration max limit)
  · intro idle
    constructor
    · intro max limit
      exact tokens_follow_rule fixed fits limit
    · intro max limit
      exact (cost_follows_rule_iff fixed limit).mpr (idle.cost max limit)
    · intro max limit
      exact (duration_follows_rule_iff fixed fits limit).mpr (idle.duration max limit)

def slowGuess : Value :=
  .object [("duration_ms", .object [("value", .number "100"), ("provenance", .string "estimated")])]

def tenMilliseconds : AgentPolicy ExtRat :=
  { (AgentPolicy.default : AgentPolicy ExtRat) with maxDurationMs := some 10 }

theorem metered_alike_iff_five_dollars : MeteredAlike (fun _ _ => "") oneDollar [costCall 5] := by
  have idle : EstimatesIdle oneDollar [costCall 5] := by
    constructor
    · intro max limit _
      obtain rfl := Option.some.inj limit
      decide +kernel
    · intro max limit
      cases limit
  exact (metered_alike_iff _ oneDollar [costCall 5] ⟨by decide, by decide⟩).mpr idle

/-- An estimated duration of ten times the budget goes unreported. -/
theorem slow_guess_passes :
    ∃ events : List (AgentEvent ExtRat),
      [slowGuess].mapM (AgentEvent.fromJson plainText) = .ok events ∧ Fits events ∧
      total .measured AgentEvent.durationMs events +
        total .estimated AgentEvent.durationMs events = 100 ∧
      (AgentGuard.evaluate (fun _ _ => "") tenMilliseconds events).violations = [] ∧
      ¬ MeteredAlike (fun _ _ => "") tenMilliseconds events := by
  obtain ⟨events, parsed, silent⟩ := Results.ok_of_any
    ([slowGuess].mapM (AgentEvent.fromJson (F := ExtRat) plainText))
    (fun events => tokens .measured events + tokens .estimated events == 0 &&
      total .measured AgentEvent.durationMs events == 0 &&
      total .estimated AgentEvent.durationMs events == 100 &&
      (AgentGuard.evaluate (fun _ _ => "") tenMilliseconds events).violations.isEmpty)
    (by decide +kernel)
  simp only [Bool.and_eq_true, beq_iff_eq, List.isEmpty_iff] at silent
  obtain ⟨⟨⟨tokens, measured⟩, estimated⟩, passed⟩ := silent
  have fits : Fits events := ⟨by rw [tokens]; decide, by rw [measured]; decide⟩
  refine ⟨events, parsed, fits, by rw [measured, estimated], passed, fun alike => ?_⟩
  obtain ⟨v, reported, -⟩ := (alike.duration 10 rfl).reported.mpr (by
    rw [measured, estimated]
    decide)
  rw [passed] at reported
  cases reported

end StatGuardian.Stream
