import Mathlib.Algebra.Order.BigOperators.Group.List
import Mathlib.Tactic.Linarith
import StatGuardian.Stream.Budgets
import StatGuardian.Stream.Loops

namespace StatGuardian.Stream

open StatGuardian.Core Totals

def Enforcement.level : Enforcement → Nat
  | .continue => 0
  | .warn => 1
  | .stop => 2

theorem Enforcement.level_le (e : Enforcement) : e.level ≤ 2 := by
  cases e <;> decide

section Costs

def cost (provenance : Provenance) (e : AgentEvent ExtRat) : ℚ :=
  match e.costUsd with
  | some ⟨.fin q, p⟩ => if p = provenance then q else 0
  | _ => 0

def costs (provenance : Provenance) (events : List (AgentEvent ExtRat)) : ℚ :=
  (events.map (cost provenance)).sum

theorem costs_append (provenance : Provenance) (events more : List (AgentEvent ExtRat)) :
    costs provenance (events ++ more) = costs provenance events + costs provenance more := by
  simp [costs]

def Finite (e : AgentEvent ExtRat) : Prop := ∀ m, e.costUsd = some m → ∃ q, m.value = .fin q

theorem parseMeasured_finite (obj : Fields) (keys : List String) (default : Provenance)
    (m : Measured ExtRat) (parsed : parseMeasuredF64 obj keys default = some m) :
    ∃ q, m.value = .fin q := by
  have finite : ∀ (v : Value) (x : ExtRat), v.asF64 = some x → ∃ q, x = .fin q := by
    intro v x read
    cases v with
    | number text =>
      obtain ⟨q, _, rfl⟩ := Option.map_eq_some_iff.mp read
      exact ⟨q, rfl⟩
    | _ => cases read
  obtain ⟨v, _, read⟩ := Option.bind_eq_some_iff.mp parsed
  cases v with
  | number text =>
    obtain ⟨x, number, rfl⟩ := Option.map_eq_some_iff.mp read
    exact finite _ x number
  | object fields =>
    obtain ⟨x, number, read⟩ := Option.bind_eq_some_iff.mp read
    obtain ⟨inner, _, number⟩ := Option.bind_eq_some_iff.mp number
    obtain rfl := Option.some.inj read
    exact finite _ x number
  | _ => cases read

theorem fromJson_finite (env : TextEnv) (value : Value) (e : AgentEvent ExtRat)
    (parsed : AgentEvent.fromJson env value = .ok e) : Finite e := by
  cases value with
  | object obj =>
    obtain rfl := Except.ok.inj parsed
    intro m metric
    exact parseMeasured_finite obj _ _ m metric
  | _ => cases parsed

theorem parsed_finite (env : TextEnv) (values : List Value) (events : List (AgentEvent ExtRat))
    (parsed : values.mapM (AgentEvent.fromJson env) = .ok events) : ∀ e ∈ events, Finite e := by
  intro e member
  obtain ⟨value, _, one⟩ := Results.forall₂_right ((Results.mapM_ok_iff ..).mp parsed) e member
  exact fromJson_finite env value e one

theorem added_cost (provenance : Provenance) (e : AgentEvent ExtRat) (finite : Finite e) (sum : ℚ) :
    AgentTelemetry.added provenance (ExtRat.fin sum) e.costUsd =
      .fin (sum + cost provenance e) := by
  unfold AgentTelemetry.added cost
  cases metric : e.costUsd with
  | none => simp
  | some m =>
    obtain ⟨q, value⟩ := finite m metric
    obtain ⟨x, p⟩ := m
    obtain rfl : x = .fin q := value
    by_cases own : p = provenance
    · simp only [own, if_true]
      rfl
    · simp [own]

theorem aggregate_cost (provenance : Provenance) (get : AgentTelemetry ExtRat → ExtRat)
    (counted : ∀ t e, get (t.count e) = AgentTelemetry.added provenance (get t) e.costUsd)
    (start : get .empty = .fin 0) (sorted : ∀ t executions, get { t with executions } = get t)
    (events : List (AgentEvent ExtRat)) (finite : ∀ e ∈ events, Finite e) :
    get (aggregate events) = .fin (costs provenance events) := by
  have each : ∀ e ∈ events, ∀ t sum, get t = .fin sum →
      get (t.count e) = .fin (sum + cost provenance e) := by
    intro e member t sum held
    rw [counted, held, added_cost provenance e (finite e member)]
  have tracked := foldl_tracks AgentTelemetry.count (fun t sum => get t = .fin sum) _ each .empty 0
    start
  rw [aggregate, sorted]
  rwa [zero_add] at tracked

theorem costMeasured_eq (events : List (AgentEvent ExtRat)) (finite : ∀ e ∈ events, Finite e) :
    (aggregate events).costMeasuredUsd = .fin (costs .measured events) :=
  aggregate_cost _ AgentTelemetry.costMeasuredUsd (fun _ _ => rfl) rfl (fun _ _ => rfl) events
    finite

theorem costEstimated_eq (events : List (AgentEvent ExtRat)) (finite : ∀ e ∈ events, Finite e) :
    (aggregate events).costEstimatedUsd = .fin (costs .estimated events) :=
  aggregate_cost _ AgentTelemetry.costEstimatedUsd (fun _ _ => rfl) rfl (fun _ _ => rfl) events
    finite

end Costs

section Budgets

variable {F : Type} [Float64 F]

def toolCalls (events : List (AgentEvent F)) : Nat :=
  (events.map (fun e => if e.kind = .toolCall then 1 else 0)).sum

theorem toolCalls_eq (events : List (AgentEvent F)) :
    (aggregate events).toolCalls = toolCalls events := by
  have each : ∀ e ∈ events, ∀ (t : AgentTelemetry F) sum, t.toolCalls = sum →
      (t.count e).toolCalls = sum + if e.kind = .toolCall then 1 else 0 := by
    rintro e _ t _ rfl
    simp only [AgentTelemetry.count]
    split <;> rfl
  have tracked := foldl_tracks AgentTelemetry.count
    (fun (t : AgentTelemetry F) sum => t.toolCalls = sum) _ each .empty 0 rfl
  rwa [Nat.zero_add] at tracked

inductive Budget where
  | toolCalls | tokens | cost | duration
  deriving DecidableEq, Repr

namespace Budget

def name : Budget → String
  | toolCalls => "max_tool_calls"
  | tokens => "max_total_tokens"
  | cost => "max_cost_usd"
  | duration => "max_duration_ms"

theorem name_injective {a b : Budget} (same : a.name = b.name) : a = b := by
  cases a <;> cases b <;> first | rfl | (revert same; decide)

def exceeded (policy : AgentPolicy F) (t : AgentTelemetry F) : Budget → Bool
  | toolCalls => policy.maxToolCalls.any (fun max => t.toolCalls > max)
  | tokens => policy.maxTotalTokens.any (fun max => t.totalTokensMeasured > max)
  | cost => policy.maxCostUsd.any (fun max => Float64.gt t.costMeasuredUsd max)
  | duration => policy.maxDurationMs.any (fun max => t.durationMeasuredMs > max)

def together (policy : AgentPolicy F) (t : AgentTelemetry F) : Budget → Bool
  | tokens => policy.maxTotalTokens.any (fun max =>
      t.totalTokensMeasured + t.totalTokensEstimated > max)
  | cost => policy.maxCostUsd.any (fun max =>
      Float64.gt (t.costMeasuredUsd + t.costEstimatedUsd) max)
  | _ => false

end Budget

namespace AgentGuard

variable (fixed : Nat → F → String) (policy : AgentPolicy F)

def budgetViolations (t : AgentTelemetry F) : Budget → List AgentPolicyViolation
  | .toolCalls => toolCallBudget policy t
  | .tokens => tokenBudget policy t
  | .cost => costBudget fixed policy t
  | .duration => durationBudget policy t

def breach (name measured estimated : String) (exceeded together : Bool) :
    List AgentPolicyViolation :=
  if exceeded then [measuredBreach policy name measured]
  else if together then [estimatedBreach name estimated]
  else []

theorem budgetViolations_eq (t : AgentTelemetry F) (b : Budget) :
    ∃ measured estimated, budgetViolations fixed policy t b =
      breach policy b.name measured estimated (b.exceeded policy t) (b.together policy t) := by
  cases b with
  | toolCalls =>
    cases limit : policy.maxToolCalls with
    | none => exact ⟨"", "", by simp [budgetViolations, toolCallBudget, breach, Budget.exceeded,
        Budget.together, limit]⟩
    | some max =>
      exact ⟨s!"{t.toolCalls} tool calls exceed budget of {max}", "", by
        simp [budgetViolations, toolCallBudget, breach, Budget.exceeded, Budget.together, limit,
          Budget.name]⟩
  | tokens =>
    cases limit : policy.maxTotalTokens with
    | none => exact ⟨"", "", by simp [budgetViolations, tokenBudget, breach, Budget.exceeded,
        Budget.together, limit]⟩
    | some max =>
      exact ⟨s!"{t.totalTokensMeasured} measured tokens exceed budget of {max}",
        s!"{t.totalTokensMeasured} measured + {t.totalTokensEstimated} estimated tokens may exceed budget of {max}",
        by simp [budgetViolations, tokenBudget, breach, Budget.exceeded, Budget.together, limit,
          Budget.name]⟩
  | cost =>
    cases limit : policy.maxCostUsd with
    | none => exact ⟨"", "", by simp [budgetViolations, costBudget, breach, Budget.exceeded,
        Budget.together, limit]⟩
    | some max =>
      exact ⟨s!"${fixed 4 t.costMeasuredUsd} measured cost exceeds budget of ${fixed 4 max}",
        s!"${fixed 4 t.costMeasuredUsd} measured + ${fixed 4 t.costEstimatedUsd} estimated cost may exceed budget of ${fixed 4 max}",
        by simp [budgetViolations, costBudget, breach, Budget.exceeded, Budget.together, limit,
          Budget.name]⟩
  | duration =>
    cases limit : policy.maxDurationMs with
    | none => exact ⟨"", "", by simp [budgetViolations, durationBudget, breach, Budget.exceeded,
        Budget.together, limit]⟩
    | some max =>
      exact ⟨s!"{t.durationMeasuredMs}ms measured duration exceeds budget of {max}ms", "", by
        simp [budgetViolations, durationBudget, breach, Budget.exceeded, Budget.together, limit,
          Budget.name]⟩

theorem evaluate_violations (events : List (AgentEvent F)) :
    (evaluate fixed policy events).violations =
      [Budget.toolCalls, .tokens, .cost, .duration].flatMap
        (budgetViolations fixed policy (aggregate events)) ++
      (detectLoops events policy.loopWindow policy.loopRepeatThreshold).map loopViolation := by
  simp [evaluate, budgetViolations]

theorem violation_cases (events : List (AgentEvent F)) (v : AgentPolicyViolation)
    (reported : v ∈ (evaluate fixed policy events).violations) :
    (∃ b : Budget, v.policy = b.name ∧
      (b.exceeded policy (aggregate events) = true ∨ b.together policy (aggregate events) = true) ∧
      (v.severity = .blocking → policy.enforce = true ∧ b.exceeded policy (aggregate events) = true)) ∨
    (v.policy = "loop_detection" ∧ v.severity = .warning ∧
      detectLoops events policy.loopWindow policy.loopRepeatThreshold ≠ []) := by
  rw [evaluate_violations] at reported
  rcases List.mem_append.mp reported with budgeted | looped
  · left
    obtain ⟨b, _, member⟩ := List.mem_flatMap.mp budgeted
    obtain ⟨measured, estimated, same⟩ :=
      budgetViolations_eq fixed policy (aggregate events) b
    rw [same, breach] at member
    refine ⟨b, ?_⟩
    split at member
    · rename_i more
      rw [List.mem_singleton.mp member]
      refine ⟨rfl, .inl more, fun blocking => ⟨?_, more⟩⟩
      by_contra off
      simp [measuredBreach, measuredBreachSeverity, off] at blocking
    · split at member
      · rename_i more
        rw [List.mem_singleton.mp member]
        exact ⟨rfl, .inr more, nofun⟩
      · cases member
  · right
    obtain ⟨found, member, rfl⟩ := List.mem_map.mp looped
    exact ⟨rfl, rfl, List.ne_nil_of_mem member⟩

theorem budget_reported (events : List (AgentEvent F)) (b : Budget)
    (exceeds : b.exceeded policy (aggregate events) = true ∨
      b.together policy (aggregate events) = true) :
    ∃ v ∈ (evaluate fixed policy events).violations, v.policy = b.name ∧
      (policy.enforce = true → b.exceeded policy (aggregate events) = true →
        v.severity = .blocking) := by
  obtain ⟨measured, estimated, same⟩ := budgetViolations_eq fixed policy (aggregate events) b
  have reports : ∃ v ∈ budgetViolations fixed policy (aggregate events) b, v.policy = b.name ∧
      (policy.enforce = true → b.exceeded policy (aggregate events) = true →
        v.severity = .blocking) := by
    rw [same, breach]
    by_cases more : b.exceeded policy (aggregate events) = true
    · rw [if_pos more]
      refine ⟨_, List.mem_singleton_self _, rfl, fun on _ => ?_⟩
      simp [measuredBreach, measuredBreachSeverity, on]
    · rw [if_neg more, if_pos (exceeds.resolve_left more)]
      exact ⟨_, List.mem_singleton_self _, rfl, fun _ more' => absurd more' more⟩
  obtain ⟨v, member, rest⟩ := reports
  refine ⟨v, ?_, rest⟩
  rw [evaluate_violations]
  exact List.mem_append_left _ (List.mem_flatMap.mpr ⟨b, by cases b <;> simp, member⟩)

omit [Float64 F] in
theorem level_pos_iff (report : AgentPolicyReport F) :
    0 < report.enforcement.level ↔ report.violations ≠ [] := by
  unfold AgentPolicyReport.enforcement
  split
  · rename_i none
    simpa [Enforcement.level] using none
  · rename_i some
    split <;> simpa [Enforcement.level] using some

omit [Float64 F] in
theorem level_stop_iff (report : AgentPolicyReport F) :
    2 ≤ report.enforcement.level ↔ ∃ v ∈ report.violations, v.severity = .blocking := by
  unfold AgentPolicyReport.enforcement
  split
  · rename_i none
    simp [Enforcement.level, List.isEmpty_iff.mp none]
  · split
    · rename_i blocking
      simpa [Enforcement.level] using blocking
    · rename_i clear
      simpa [Enforcement.level] using clear

end AgentGuard

omit [Float64 F] in
theorem detectLoops_append (events more : List (AgentEvent F)) (window threshold : Nat)
    (found : detectLoops events window threshold ≠ []) :
    detectLoops (events ++ more) window threshold ≠ [] := by
  obtain ⟨loop, member⟩ := List.exists_mem_of_ne_nil _ found
  have known : loop.signature ∈ signatures (detectLoops events window threshold) :=
    List.mem_map_of_mem member
  rw [mem_detectLoops_iff] at known
  obtain ⟨positive, stretch, inside, short, often⟩ := known
  have still : loop.signature ∈ signatures (detectLoops (events ++ more) window threshold) := by
    rw [mem_detectLoops_iff, calls, List.filterMap_append]
    exact ⟨positive, stretch, inside.trans (List.infix_append' [] _ _), short, often⟩
  obtain ⟨loop', member', _⟩ := List.mem_map.mp still
  exact List.ne_nil_of_mem member'

end Budgets

section Extension

/-- The tokens and the measured durations stay within 64 bits. -/
structure Fits (events : List (AgentEvent ExtRat)) : Prop where
  tokens : tokens .measured events + tokens .estimated events < 2 ^ 64
  duration : total .measured AgentEvent.durationMs events < 2 ^ 64

def Over (policy : AgentPolicy ExtRat) (events : List (AgentEvent ExtRat)) : Budget → Prop
  | .toolCalls => ∃ max ∈ policy.maxToolCalls, max < toolCalls events
  | .tokens => ∃ max ∈ policy.maxTotalTokens, max.toNat < tokens .measured events
  | .cost => ∃ max ∈ policy.maxCostUsd, Float64.gt (.fin (costs .measured events)) max = true
  | .duration =>
    ∃ max ∈ policy.maxDurationMs, max.toNat < total .measured AgentEvent.durationMs events

/-- Measured and estimated data together exceed the budget, by the exact totals. -/
def Together (policy : AgentPolicy ExtRat) (events : List (AgentEvent ExtRat)) : Budget → Prop
  | .tokens => ∃ max ∈ policy.maxTotalTokens,
      max.toNat < tokens .measured events + tokens .estimated events
  | .cost => ∃ max ∈ policy.maxCostUsd,
      Float64.gt (.fin (costs .measured events + costs .estimated events)) max = true
  | _ => False

variable {policy : AgentPolicy ExtRat} {events : List (AgentEvent ExtRat)}

theorem over_iff (fits : Fits events) (finite : ∀ e ∈ events, Finite e) (b : Budget) :
    b.exceeded policy (aggregate events) = true ↔ Over policy events b := by
  have tokensFit : tokens .measured events < 2 ^ 64 :=
    Nat.lt_of_le_of_lt (Nat.le_add_right ..) fits.tokens
  have measured := (AgentTelemetry.totalTokensMeasured_wraps events).exact_iff.mpr tokensFit
  have duration := (AgentTelemetry.duration_wraps events).exact_iff.mpr fits.duration
  cases b with
  | toolCalls => simp [Budget.exceeded, Over, Option.any_eq_true, toolCalls_eq]
  | tokens =>
    simp [Budget.exceeded, Over, Option.any_eq_true, UInt64.lt_iff_toNat_lt, measured]
  | cost => simp [Budget.exceeded, Over, Option.any_eq_true, costMeasured_eq events finite]
  | duration =>
    simp [Budget.exceeded, Over, Option.any_eq_true, UInt64.lt_iff_toNat_lt, duration]

theorem together_iff (fits : Fits events) (finite : ∀ e ∈ events, Finite e) (b : Budget) :
    b.together policy (aggregate events) = true ↔ Together policy events b := by
  have sum := ((AgentTelemetry.totalTokensMeasured_wraps events).add
    (AgentTelemetry.totalTokensEstimated_wraps events)).exact_iff.mpr fits.tokens
  cases b with
  | toolCalls => simp [Budget.together, Together]
  | tokens =>
    simp only [Budget.together, Together, Option.any_eq_true, UInt64.lt_iff_toNat_lt, gt_iff_lt,
      decide_eq_true_eq, sum, Option.mem_def]
  | cost =>
    simp only [Budget.together, Together, Option.any_eq_true, costMeasured_eq events finite,
      costEstimated_eq events finite, Option.mem_def]
    rfl
  | duration => simp [Budget.together, Together]

theorem Over.append {b : Budget} (exceeds : Over policy events b) (other : b ≠ .cost)
    (more : List (AgentEvent ExtRat)) : Over policy (events ++ more) b := by
  cases b with
  | toolCalls =>
    obtain ⟨max, limit, exceeds⟩ := exceeds
    refine ⟨max, limit, Nat.lt_of_lt_of_le exceeds ?_⟩
    simp [toolCalls]
  | tokens =>
    obtain ⟨max, limit, exceeds⟩ := exceeds
    exact ⟨max, limit, by rw [tokens_append]; omega⟩
  | cost => exact absurd rfl other
  | duration =>
    obtain ⟨max, limit, exceeds⟩ := exceeds
    exact ⟨max, limit, by rw [total_append]; omega⟩

theorem Together.append {b : Budget} (exceeds : Together policy events b) (other : b ≠ .cost)
    (more : List (AgentEvent ExtRat)) : Together policy (events ++ more) b := by
  cases b with
  | tokens =>
    obtain ⟨max, limit, exceeds⟩ := exceeds
    exact ⟨max, limit, by rw [tokens_append, tokens_append]; omega⟩
  | cost => exact absurd rfl other
  | toolCalls => exact exceeds.elim
  | duration => exact exceeds.elim

/-- The cost budget, once exceeded, stays exceeded; and where a measured excess means to stop, it
    stays a measured one or another budget is exceeded. -/
structure CostsKept (policy : AgentPolicy ExtRat) (events added : List (AgentEvent ExtRat)) :
    Prop where
  exceeded : Over policy events .cost ∨ Together policy events .cost →
    Over policy (events ++ added) .cost ∨ Together policy (events ++ added) .cost
  measured : policy.enforce = true → Over policy events .cost →
    ∃ b, Over policy (events ++ added) b

/-- Where no added event has a negative cost, an exceeded cost budget stays exceeded. -/
theorem costsKept_of_nonneg (policy : AgentPolicy ExtRat) (events added : List (AgentEvent ExtRat))
    (nonneg : ∀ e ∈ added, ∀ provenance, 0 ≤ cost provenance e) :
    CostsKept policy events added := by
  have more : ∀ provenance, 0 ≤ costs provenance added := fun provenance =>
    List.sum_nonneg (by
      intro q member
      obtain ⟨e, inside, rfl⟩ := List.mem_map.mp member
      exact nonneg e inside provenance)
  have measured : costs .measured events ≤ costs .measured (events ++ added) := by
    rw [costs_append]
    linarith only [more .measured]
  have together : costs .measured events + costs .estimated events ≤
      costs .measured (events ++ added) + costs .estimated (events ++ added) := by
    rw [costs_append, costs_append]
    linarith only [more .measured, more .estimated]
  have exceeded : Over policy events .cost → Over policy (events ++ added) .cost := by
    rintro ⟨max, limit, exceeds⟩
    exact ⟨max, limit, ExtRat.gt_fin_mono measured max exceeds⟩
  refine ⟨Or.imp exceeded ?_, fun _ exceeds => ⟨.cost, exceeded exceeds⟩⟩
  rintro ⟨max, limit, exceeds⟩
  exact ⟨max, limit, ExtRat.gt_fin_mono together max exceeds⟩

/-- The longer list is judged at least as strictly. -/
structure NeverRelaxes (fixed : Nat → ExtRat → String) (policy : AgentPolicy ExtRat)
    (events added : List (AgentEvent ExtRat)) : Prop where
  enforcement : (AgentGuard.evaluate fixed policy events).enforcement.level ≤
    (AgentGuard.evaluate fixed policy (events ++ added)).enforcement.level
  policies : ∀ v ∈ (AgentGuard.evaluate fixed policy events).violations,
    ∃ w ∈ (AgentGuard.evaluate fixed policy (events ++ added)).violations, w.policy = v.policy

section Judged

variable (fixed : Nat → ExtRat → String) (fits : Fits events) (finite : ∀ e ∈ events, Finite e)
include fits finite

/-- A budget is reported where the exact totals exceed it, measured alone or with the estimates. -/
theorem budget_named_iff (b : Budget) :
    (∃ v ∈ (AgentGuard.evaluate fixed policy events).violations, v.policy = b.name) ↔
      Over policy events b ∨ Together policy events b := by
  rw [← over_iff fits finite, ← together_iff fits finite]
  constructor
  · rintro ⟨v, reported, named⟩
    rcases AgentGuard.violation_cases fixed policy _ v reported with
      ⟨b', name, exceeds, _⟩ | ⟨name, _⟩
    · rw [named] at name
      rw [Budget.name_injective name]
      exact exceeds
    · rw [named] at name
      cases b <;> exact absurd name (by decide)
  · intro exceeds
    obtain ⟨v, reported, named, _⟩ := AgentGuard.budget_reported fixed policy events b exceeds
    exact ⟨v, reported, named⟩

theorem stops_iff :
    2 ≤ (AgentGuard.evaluate fixed policy events).enforcement.level ↔
      policy.enforce = true ∧ ∃ b, Over policy events b := by
  rw [AgentGuard.level_stop_iff]
  constructor
  · rintro ⟨v, reported, blocking⟩
    rcases AgentGuard.violation_cases fixed policy _ v reported with
      ⟨b, _, _, severe⟩ | ⟨_, warning, _⟩
    · obtain ⟨enforced, exceeds⟩ := severe blocking
      exact ⟨enforced, b, (over_iff fits finite b).mp exceeds⟩
    · rw [warning] at blocking
      cases blocking
  · rintro ⟨enforced, b, exceeds⟩
    rw [← over_iff fits finite] at exceeds
    obtain ⟨v, reported, _, blocking⟩ :=
      AgentGuard.budget_reported fixed policy events b (.inl exceeds)
    exact ⟨v, reported, blocking enforced exceeds⟩

end Judged

/-- More events relax nothing exactly when the costs they add take back no exceeded cost
    budget. -/
theorem extension_never_relaxes_iff (env : TextEnv) (fixed : Nat → ExtRat → String)
    (policy : AgentPolicy ExtRat) (values more : List Value) (events added : List (AgentEvent ExtRat))
    (parsed : values.mapM (AgentEvent.fromJson env) = .ok events)
    (extended : more.mapM (AgentEvent.fromJson env) = .ok added) (fits : Fits (events ++ added)) :
    NeverRelaxes fixed policy events added ↔ CostsKept policy events added := by
  have finite := parsed_finite env values events parsed
  have finite' : ∀ e ∈ events ++ added, Finite e :=
    List.forall_mem_append.mpr ⟨finite, parsed_finite env more added extended⟩
  have fitsBefore : Fits events := by
    obtain ⟨tokens, duration⟩ := fits
    rw [tokens_append, tokens_append] at tokens
    rw [total_append] at duration
    exact ⟨by omega, by omega⟩
  constructor
  · intro never
    constructor
    · intro exceeds
      obtain ⟨v, reported, named⟩ := (budget_named_iff fixed fitsBefore finite .cost).mpr exceeds
      obtain ⟨w, still, same⟩ := never.policies v reported
      exact (budget_named_iff fixed fits finite' .cost).mp ⟨w, still, same.trans named⟩
    · intro enforced exceeds
      have stops := (stops_iff fixed fitsBefore finite).mpr ⟨enforced, .cost, exceeds⟩
      exact ((stops_iff fixed fits finite').mp (Nat.le_trans stops never.enforcement)).2
  · intro kept
    have policies : ∀ v ∈ (AgentGuard.evaluate fixed policy events).violations,
        ∃ w ∈ (AgentGuard.evaluate fixed policy (events ++ added)).violations,
          w.policy = v.policy := by
      intro v reported
      rcases AgentGuard.violation_cases fixed policy _ v reported with
        ⟨b, name, _⟩ | ⟨name, _, found⟩
      · have exceeds := (budget_named_iff fixed fitsBefore finite b).mp ⟨v, reported, name⟩
        have exceeds' : Over policy (events ++ added) b ∨ Together policy (events ++ added) b := by
          by_cases cost : b = .cost
          · subst cost
            exact kept.exceeded exceeds
          · exact exceeds.imp (fun e => e.append cost added) (fun e => e.append cost added)
        obtain ⟨w, still, named⟩ := (budget_named_iff fixed fits finite' b).mpr exceeds'
        exact ⟨w, still, named.trans name.symm⟩
      · have found' := detectLoops_append events added _ _ found
        obtain ⟨loop, member⟩ := List.exists_mem_of_ne_nil _ found'
        refine ⟨AgentGuard.loopViolation loop, ?_, name.symm⟩
        rw [AgentGuard.evaluate_violations]
        exact List.mem_append_right _ (List.mem_map_of_mem member)
    refine ⟨?_, policies⟩
    have bound := (AgentGuard.evaluate fixed policy events).enforcement.level_le
    by_cases stops : 2 ≤ (AgentGuard.evaluate fixed policy events).enforcement.level
    · obtain ⟨enforced, b, exceeds⟩ := (stops_iff fixed fitsBefore finite).mp stops
      have exceeds' : ∃ b', Over policy (events ++ added) b' := by
        by_cases cost : b = .cost
        · subst cost
          exact kept.measured enforced exceeds
        · exact ⟨b, exceeds.append cost added⟩
      have stops' := (stops_iff fixed fits finite').mpr ⟨enforced, exceeds'⟩
      omega
    · by_cases warns : 0 < (AgentGuard.evaluate fixed policy events).enforcement.level
      · obtain ⟨v, reported⟩ := List.exists_mem_of_ne_nil _ ((AgentGuard.level_pos_iff _).mp warns)
        obtain ⟨w, still, _⟩ := policies v reported
        have warns' := (AgentGuard.level_pos_iff _).mpr (List.ne_nil_of_mem still)
        omega
      · omega

def costCall (q : ℚ) : AgentEvent ExtRat where
  executionId := "unknown"
  seq := 0
  timestampMs := none
  kind := .other
  tool := none
  callSignature := none
  tokensIn := none
  tokensOut := none
  costUsd := some ⟨.fin q, .measured⟩
  durationMs := none
  retryOf := none
  error := none
  metadata := []

def spent : Value := .object [("cost_usd", .number "5")]

def refund : Value := .object [("cost_usd", .number "-5")]

def oneDollar : AgentPolicy ExtRat :=
  { (AgentPolicy.default : AgentPolicy ExtRat) with maxCostUsd := some (.fin 1), enforce := true }

theorem spent_parses : [spent].mapM (AgentEvent.fromJson plainText) = .ok [costCall 5] := by
  decide +kernel

theorem refund_parses : [refund].mapM (AgentEvent.fromJson plainText) = .ok [costCall (-5)] := by
  decide +kernel

theorem refund_fits : Fits ([costCall 5] ++ [costCall (-5)]) := ⟨by decide, by decide⟩

theorem extension_never_relaxes_iff_refund :
    NeverRelaxes (fun _ _ => "") oneDollar [costCall 5] [costCall (-5)] ↔
      CostsKept oneDollar [costCall 5] [costCall (-5)] :=
  extension_never_relaxes_iff plainText _ _ [spent] [refund] _ _ spent_parses refund_parses
    refund_fits

/-- A cost of minus five dollars takes back a stop. -/
theorem refund_relaxes :
    [spent].mapM (AgentEvent.fromJson plainText) = .ok [costCall 5] ∧
    [refund].mapM (AgentEvent.fromJson plainText) = .ok [costCall (-5)] ∧
    Fits ([costCall 5] ++ [costCall (-5)]) ∧
    (AgentGuard.evaluate (fun _ _ => "") oneDollar [costCall 5]).enforcement = .stop ∧
    (AgentGuard.evaluate (fun _ _ => "") oneDollar ([costCall 5] ++ [costCall (-5)])).enforcement =
      .continue ∧
    ¬ NeverRelaxes (fun _ _ => "") oneDollar [costCall 5] [costCall (-5)] := by
  have stopped : (AgentGuard.evaluate (fun _ _ => "") oneDollar [costCall 5]).enforcement =
      .stop := by decide +kernel
  have continued : (AgentGuard.evaluate (fun _ _ => "") oneDollar
      ([costCall 5] ++ [costCall (-5)])).enforcement = .continue := by decide +kernel
  refine ⟨spent_parses, refund_parses, refund_fits, stopped, continued, fun never => ?_⟩
  have lower := never.enforcement
  rw [stopped, continued] at lower
  exact absurd lower (by decide)

end Extension

end StatGuardian.Stream
