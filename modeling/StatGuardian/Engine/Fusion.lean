import StatGuardian.Engine.Batch
import StatGuardian.Runtime.ExactEnv

namespace StatGuardian.Engine

open StatGuardian.Core Metrics Polars Stats Validators

variable {F : Type} [Float64 F]

/-- Every node in turn, with no stop at a Blocking violation. -/
def runAll (env : Env F) (df : DataFrame F) (nodes : List (DagNode F)) :
    Exec (List (Violation F)) := do
  let results ← nodes.mapM (executeNode env df)
  return results.flatten

def nodesOf (column : String) (nodes : List (DagNode F)) : List (DagNode F) :=
  nodes.filter (fun node => node.column == column)

def NullChecked (contract : DataContract F) (column : String) : Prop :=
  ∃ field ∈ contract.schema, field.name = column ∧
    (Constraint.notNull ∈ field.constraints ∨ Constraint.primaryKey ∈ field.constraints)

def Emits (env : Env F) (df : DataFrame F) (node : DagNode F) (p : Violation F → Prop) : Prop :=
  ∃ vs, executeNode env df node = .ok vs ∧ ∃ v ∈ vs, p v

def isCompleteness : DagNode F → Bool
  | .qualityMetricCheck _ .completeness _ _ _ => true
  | _ => false

def HasNull (df : DataFrame F) (column : String) : Prop :=
  ∃ s, getSeries df column = some s ∧ 0 < s.nullCount

/-- A dropped completeness rule that reports is covered: by the null check, for a rule that does
    not block and a column with a null, or by another check of the column, which has to block if
    the rule does. -/
def DropsCovered (env : Env F) (contract : DataContract F) (df : DataFrame F)
    (column : String) : Prop :=
  NullChecked contract column →
    ∀ rule ∈ contract.qualityRules, rule.column = column → rule.metric = .completeness →
      ∀ v ∈ RuleEngine.evaluateRule env df rule,
        (HasNull df column ∧ v.severity ≠ .blocking) ∨
          ∃ node ∈ nodesOf column (Compiler.rawNodes contract),
            isCompleteness node = false ∧ Optimizer.isNullCheck node = false ∧
              Emits env df node (fun w => v.severity = .blocking → w.severity = .blocking)

/-- Where the nodes of the column as built all return, the optimized ones, run up to the first
    Blocking violation, give the same two answers. -/
def VerdictKept (env : Env F) (contract : DataContract F) (df : DataFrame F)
    (column : String) : Prop :=
  ∀ all, runAll env df (nodesOf column (Compiler.rawNodes contract)) = .ok all →
    ∃ vs, runNodes env df (nodesOf column (Compiler.compile contract).nodes) = .ok vs ∧
      ((∃ v ∈ vs, v.severity = .blocking) ↔ ∃ v ∈ all, v.severity = .blocking) ∧
      ((∃ v, v ∈ vs) ↔ ∃ v, v ∈ all)

section Runs

variable (env : Env F) (df : DataFrame F)

theorem runAll_reports (nodes : List (DagNode F)) (all : List (Violation F))
    (ran : runAll env df nodes = .ok all) :
    (∀ node ∈ nodes, ∃ vs, executeNode env df node = .ok vs) ∧
      ∀ p : Violation F → Prop, (∃ v ∈ all, p v) ↔ ∃ node ∈ nodes, Emits env df node p := by
  obtain ⟨results, executed, same⟩ := (Results.bind_ok_iff ..).mp ran
  obtain rfl := Except.ok.inj same
  have related := (Results.mapM_ok_iff _ _ _).mp executed
  refine ⟨(Results.mapM_returns_iff _ _).mp ⟨results, executed⟩, fun p => ?_⟩
  constructor
  · rintro ⟨v, member, holds⟩
    obtain ⟨vs, inside, own⟩ := List.mem_flatten.mp member
    obtain ⟨node, found, here⟩ := Results.forall₂_right related vs inside
    exact ⟨node, found, vs, here, v, own, holds⟩
  · rintro ⟨node, found, vs, here, v, own, holds⟩
    obtain ⟨vs', inside, here'⟩ := Results.forall₂_left related node found
    rw [here, Except.ok.injEq] at here'
    subst here'
    exact ⟨v, List.mem_flatten.mpr ⟨vs, inside, own⟩, holds⟩

/-- A run that stops at the first Blocking violation reports what the whole list would, as far as
    any violation and any Blocking one go. -/
theorem runNodes_reports (nodes : List (DagNode F))
    (returns : ∀ node ∈ nodes, ∃ vs, executeNode env df node = .ok vs) :
    ∃ vs, runNodes env df nodes = .ok vs ∧ ∀ p : Violation F → Prop,
      (∀ v, v.severity = .blocking → p v) →
        ((∃ v ∈ vs, p v) ↔ ∃ node ∈ nodes, Emits env df node p) := by
  induction nodes with
  | nil => exact ⟨[], rfl, by simp⟩
  | cons node rest ih =>
    obtain ⟨⟨own, executed⟩, returns⟩ := List.forall_mem_cons.mp returns
    obtain ⟨more, ran, reports⟩ := ih returns
    have here : ∀ p : Violation F → Prop, Emits env df node p ↔ ∃ v ∈ own, p v := by
      intro p
      constructor
      · rintro ⟨vs, executed', found⟩
        rw [executed, Except.ok.injEq] at executed'
        rwa [executed']
      · exact fun found => ⟨own, executed, found⟩
    simp only [runNodes, executed, bind, Except.bind, List.exists_mem_cons_iff, here]
    by_cases stops : own.any (·.severity == .blocking) = true
    · refine ⟨own, by rw [if_pos stops]; rfl, fun p blocking => ?_⟩
      obtain ⟨v, member, severity⟩ := List.any_eq_true.mp stops
      have found : ∃ v ∈ own, p v := ⟨v, member, blocking v (beq_iff_eq.mp severity)⟩
      simp only [found, true_or]
    · refine ⟨own ++ more, by rw [if_neg stops, ran]; rfl, fun p blocking => ?_⟩
      rw [← reports p blocking]
      simp only [List.mem_append, or_and_right, exists_or]

end Runs

section Nodes

variable (contract : DataContract F) (column : String)

omit [Float64 F] in
theorem constraintNode_nullCheck (name : String) (c : Constraint F) (severity : Severity) :
    Compiler.constraintNode name c = some (.nullCheck column severity) ↔
      name = column ∧ severity = .error ∧ (c = .notNull ∨ c = .primaryKey) := by
  cases c <;> simp [Compiler.constraintNode, eq_comm]

omit [Float64 F] in
theorem mem_rawNodes_nullCheck (severity : Severity) :
    DagNode.nullCheck column severity ∈ Compiler.rawNodes contract ↔
      severity = .error ∧ NullChecked contract column := by
  simp only [Compiler.rawNodes, Compiler.fieldNodes, List.mem_append, List.mem_flatMap,
    List.mem_map, List.mem_cons, List.mem_filterMap, constraintNode_nullCheck, NullChecked]
  constructor
  · rintro (((⟨field, member, top | top | ⟨c, inside, name, mild, kind⟩⟩ | ⟨rule, -, top⟩) |
      ⟨rule, -, top⟩) | ⟨rule, -, top⟩)
    · cases top
    · cases top
    · refine ⟨mild, field, member, name, ?_⟩
      rcases kind with rfl | rfl
      · exact .inl inside
      · exact .inr inside
    · cases top
    · cases top
    · unfold Compiler.anomalyNode at top
      split at top <;> cases top
  · rintro ⟨rfl, field, member, name, inside | inside⟩
    · exact .inl (.inl (.inl ⟨field, member, .inr (.inr ⟨_, inside, name, rfl, .inl rfl⟩)⟩))
    · exact .inl (.inl (.inl ⟨field, member, .inr (.inr ⟨_, inside, name, rfl, .inr rfl⟩)⟩))

omit [Float64 F] in
theorem mem_rawNodes_completeness (node : DagNode F) (complete : isCompleteness node = true) :
    node ∈ Compiler.rawNodes contract ↔
      ∃ rule ∈ contract.qualityRules, rule.metric = .completeness ∧
        Compiler.qualityNode rule = node := by
  simp only [Compiler.rawNodes, Compiler.fieldNodes, List.mem_append, List.mem_flatMap,
    List.mem_map, List.mem_cons, List.mem_filterMap]
  constructor
  · rintro (((⟨field, member, rfl | rfl | ⟨c, -, top⟩⟩ | ⟨rule, member, rfl⟩) |
      ⟨rule, -, rfl⟩) | ⟨rule, -, rfl⟩)
    · cases complete
    · cases complete
    · cases c <;> simp only [Compiler.constraintNode, Option.some.injEq, reduceCtorEq] at top <;>
        subst top <;> cases complete
    · refine ⟨rule, member, ?_, rfl⟩
      unfold Compiler.qualityNode isCompleteness at complete
      split at complete
      case h_1 same =>
        injection same
      case h_2 => cases complete
    · cases complete
    · unfold Compiler.anomalyNode at complete
      split at complete <;> cases complete
  · rintro ⟨rule, member, -, same⟩
    exact .inl (.inl (.inr ⟨rule, member, same⟩))

theorem mem_nullChecked :
    column ∈ ((Optimizer.deduplicate (Compiler.rawNodes contract)).filter
      Optimizer.isNullCheck).map DagNode.column ↔ NullChecked contract column := by
  simp only [List.mem_map, List.mem_filter, Optimizer.deduplicate,
    Optimizer.mem_deduplicateAfter, List.not_mem_nil, not_false_eq_true, and_true]
  constructor
  · rintro ⟨node, ⟨member, null⟩, rfl⟩
    cases node <;> cases null
    exact ((mem_rawNodes_nullCheck contract _ _).mp member).2
  · intro checked
    refine ⟨.nullCheck column .error, ⟨?_, rfl⟩, rfl⟩
    exact (mem_rawNodes_nullCheck contract column .error).mpr ⟨rfl, checked⟩

/-- The optimizer drops the completeness checks of the columns with a null check, and nothing
    else. -/
theorem mem_compile (node : DagNode F) :
    node ∈ (Compiler.compile contract).nodes ↔ node ∈ Compiler.rawNodes contract ∧
      (isCompleteness node = true → ¬ NullChecked contract node.column) := by
  have member : node ∈ Optimizer.deduplicate (Compiler.rawNodes contract) ↔
      node ∈ Compiler.rawNodes contract := by
    simp [Optimizer.deduplicate, Optimizer.mem_deduplicateAfter]
  rw [Compiler.compile, Optimizer.mem_optimize, Optimizer.fuseNullChecks, List.mem_filter, member]
  apply and_congr_right
  intro _
  rw [← mem_nullChecked]
  split
  · simp [isCompleteness, DagNode.column]
  · rename_i other
    simp only [true_iff]
    intro complete
    unfold isCompleteness at complete
    split at complete
    · exact absurd rfl (other _ _ _ _)
    · cases complete

omit [Float64 F] in
theorem mem_nodesOf (nodes : List (DagNode F)) (node : DagNode F) :
    node ∈ nodesOf column nodes ↔ node ∈ nodes ∧ node.column = column := by
  simp [nodesOf]

end Nodes

section Reports

variable (env : Env F) (df : DataFrame F)

theorem emits_imp {node : DagNode F} {p q : Violation F → Prop} (emits : Emits env df node p)
    (imp : ∀ v, p v → q v) : Emits env df node q := by
  obtain ⟨vs, executed, v, member, holds⟩ := emits
  exact ⟨vs, executed, v, member, imp v holds⟩

theorem emits_qualityNode (rule : QualityRule F) (p : Violation F → Prop) :
    Emits env df (Compiler.qualityNode rule) p ↔
      ∃ v ∈ RuleEngine.evaluateRule env df rule, p v := by
  have executed : executeNode env df (Compiler.qualityNode rule) =
      .ok (RuleEngine.evaluateRule env df rule) := by
    show Except.ok (RuleEngine.evaluate env df [rule]) = _
    simp [RuleEngine.evaluate]
  simp [Emits, executed]

theorem emits_nullCheck (column : String) (severity : Severity) (p : Violation F → Prop)
    (emits : Emits env df (.nullCheck column severity) p) :
    HasNull df column ∧ ∃ v : Violation F, v.severity = severity ∧ p v := by
  obtain ⟨vs, executed, v, member, holds⟩ := emits
  obtain rfl := Except.ok.inj executed
  unfold onSeries at member
  split at member
  · rename_i s found
    dsimp only at member
    split at member
    · rename_i nulls
      refine ⟨⟨s, found, nulls⟩, v, ?_, holds⟩
      rw [List.mem_singleton.mp member]
      rfl
    · cases member
  · cases member

theorem nullCheck_emits (column : String) (severity : Severity) (null : HasNull df column) :
    Emits env df (.nullCheck column severity) (fun _ => True) := by
  obtain ⟨s, found, nulls⟩ := null
  refine ⟨_, rfl, ?_⟩
  simp only [onSeries, found, gt_iff_lt, nulls, if_true, List.mem_singleton, exists_eq_left]

end Reports

section Verdicts

variable (env : Env F) (contract : DataContract F) (df : DataFrame F) (column : String)

theorem mem_kept (node : DagNode F) :
    node ∈ nodesOf column (Compiler.compile contract).nodes ↔
      node ∈ nodesOf column (Compiler.rawNodes contract) ∧
        (isCompleteness node = true → ¬ NullChecked contract column) := by
  rw [mem_nodesOf, mem_nodesOf, mem_compile]
  constructor
  · rintro ⟨⟨member, kept⟩, rfl⟩
    exact ⟨⟨member, rfl⟩, kept⟩
  · rintro ⟨⟨member, rfl⟩, kept⟩
    exact ⟨⟨member, kept⟩, rfl⟩

theorem verdictKept_iff_emits
    (returns : ∀ node ∈ nodesOf column (Compiler.rawNodes contract),
      ∃ vs, executeNode env df node = .ok vs) :
    VerdictKept env contract df column ↔
      ∀ p : Violation F → Prop, (p = fun v => v.severity = .blocking) ∨ (p = fun _ => True) →
        ((∃ node ∈ nodesOf column (Compiler.compile contract).nodes, Emits env df node p) ↔
          ∃ node ∈ nodesOf column (Compiler.rawNodes contract), Emits env df node p) := by
  obtain ⟨results, executed⟩ := (Results.mapM_returns_iff _ _).mpr returns
  have whole : runAll env df (nodesOf column (Compiler.rawNodes contract)) =
      .ok results.flatten := by
    rw [runAll, executed]
    rfl
  have raw := (runAll_reports env df _ _ whole).2
  obtain ⟨vs, ran, kept⟩ := runNodes_reports env df
    (nodesOf column (Compiler.compile contract).nodes)
    (fun node member => returns node ((mem_kept contract column node).mp member).1)
  have blocking := kept (fun v => v.severity = .blocking) (fun _ blocks => blocks)
  have any := kept (fun _ => True) (fun _ _ => trivial)
  simp only [VerdictKept, whole, Except.ok.injEq, forall_eq', ran, exists_eq_left', forall_eq_or_imp,
    forall_eq, ← raw, ← blocking, ← any, and_true]

theorem kept_emits_of_covered (covered : DropsCovered env contract df column) (node : DagNode F)
    (member : node ∈ nodesOf column (Compiler.rawNodes contract)) (v : Violation F)
    (emits : Emits env df node (fun w => w = v)) :
    ∃ node ∈ nodesOf column (Compiler.compile contract).nodes,
      Emits env df node (fun w => v.severity = .blocking → w.severity = .blocking) := by
  by_cases dropped : isCompleteness node = true ∧ NullChecked contract column
  · obtain ⟨complete, checked⟩ := dropped
    obtain ⟨built, own⟩ := (mem_nodesOf column _ node).mp member
    obtain ⟨rule, inside, metric, rfl⟩ :=
      (mem_rawNodes_completeness contract node complete).mp built
    obtain ⟨_, reported, rfl⟩ := (emits_qualityNode env df rule _).mp emits
    rcases covered checked rule inside own metric _ reported with ⟨null, mild⟩ |
      ⟨other, found, open_, _, reports⟩
    · refine ⟨.nullCheck column .error, (mem_kept contract column _).mpr ⟨?_, nofun⟩, ?_⟩
      · exact (mem_nodesOf column _ _).mpr
          ⟨(mem_rawNodes_nullCheck contract column .error).mpr ⟨rfl, checked⟩, rfl⟩
      · exact emits_imp env df (nullCheck_emits env df column .error null)
          (fun _ _ blocks => absurd blocks mild)
    · refine ⟨other, (mem_kept contract column _).mpr ⟨found, ?_⟩, reports⟩
      rw [open_]
      nofun
  · refine ⟨node, (mem_kept contract column _).mpr ⟨member, ?_⟩, ?_⟩
    · intro complete checked
      exact dropped ⟨complete, checked⟩
    · apply emits_imp env df emits
      rintro _ rfl blocks
      exact blocks

theorem covered_of_kept_emits (checked : NullChecked contract column) (v : Violation F)
    (node : DagNode F) (member : node ∈ nodesOf column (Compiler.compile contract).nodes)
    (emits : Emits env df node (fun w => v.severity = .blocking → w.severity = .blocking)) :
    (HasNull df column ∧ v.severity ≠ .blocking) ∨
      ∃ node ∈ nodesOf column (Compiler.rawNodes contract),
        isCompleteness node = false ∧ Optimizer.isNullCheck node = false ∧
          Emits env df node (fun w => v.severity = .blocking → w.severity = .blocking) := by
  obtain ⟨built, kept⟩ := (mem_kept contract column node).mp member
  have partly : isCompleteness node = false := by
    rw [Bool.eq_false_iff]
    intro complete
    exact kept complete checked
  by_cases null : Optimizer.isNullCheck node = true
  · left
    obtain ⟨raw, own⟩ := (mem_nodesOf column _ node).mp built
    cases node <;> cases null
    obtain rfl := own
    obtain ⟨rfl, _⟩ := (mem_rawNodes_nullCheck contract _ _).mp raw
    obtain ⟨null, w, mild, passes⟩ := emits_nullCheck env df _ _ _ emits
    refine ⟨null, fun blocks => ?_⟩
    have severe := passes blocks
    rw [mild] at severe
    cases severe
  · right
    exact ⟨node, built, partly, Bool.eq_false_iff.mpr null, emits⟩

/-- Exactly when dropping the completeness checks of a column costs no verdict. -/
theorem verdict_kept_iff :
    VerdictKept env contract df column ↔
      ((∀ node ∈ nodesOf column (Compiler.rawNodes contract),
          ∃ vs, executeNode env df node = .ok vs) →
        DropsCovered env contract df column) := by
  by_cases returns : ∀ node ∈ nodesOf column (Compiler.rawNodes contract),
      ∃ vs, executeNode env df node = .ok vs
  · rw [verdictKept_iff_emits env contract df column returns]
    rw [forall_prop_of_true returns]
    constructor
    · intro same checked rule inside own metric v reported
      have built : Compiler.qualityNode rule ∈ nodesOf column (Compiler.rawNodes contract) := by
        apply (mem_nodesOf column _ _).mpr
        refine ⟨?_, own⟩
        apply (mem_rawNodes_completeness contract _ _).mpr
        · exact ⟨rule, inside, metric, rfl⟩
        · simp only [Compiler.qualityNode, metric, isCompleteness]
      by_cases blocks : v.severity = .blocking
      · obtain ⟨kept, member, emits⟩ := (same _ (.inl rfl)).mpr
          ⟨_, built, (emits_qualityNode env df rule _).mpr ⟨v, reported, blocks⟩⟩
        apply covered_of_kept_emits env contract df column checked v kept member
        exact emits_imp env df emits (fun _ severe _ => severe)
      · obtain ⟨kept, member, emits⟩ := (same _ (.inr rfl)).mpr
          ⟨_, built, (emits_qualityNode env df rule _).mpr ⟨v, reported, trivial⟩⟩
        apply covered_of_kept_emits env contract df column checked v kept member
        exact emits_imp env df emits (fun _ _ severe => absurd severe blocks)
    · intro covered p kind
      constructor
      · rintro ⟨node, member, emits⟩
        exact ⟨node, ((mem_kept contract column node).mp member).1, emits⟩
      · rintro ⟨node, member, vs, executed, v, found, holds⟩
        obtain ⟨kept, stays, emits⟩ := kept_emits_of_covered env contract df column covered node
          member v ⟨vs, executed, v, found, rfl⟩
        refine ⟨kept, stays, emits_imp env df emits ?_⟩
        intro w severe
        rcases kind with rfl | rfl
        · exact severe holds
        · trivial
  · simp only [returns, false_imp_iff, iff_true]
    intro all ran
    exact absurd (runAll_reports env df _ all ran).1 returns

end Verdicts

section PartialIds

/-- `id: int, not_null` with `@blocking: completeness(id) >= 1.0`. -/
def completeIds : DataContract ExtRat :=
  { DataContract.new "users" with
    schema := [⟨"id", .int, [.notNull]⟩]
    qualityRules := [⟨.completeness, "id", .gte, .fin 1, .blocking⟩] }

def partialIds : DataFrame ExtRat where
  height := 2
  columns := [.series "id" ⟨.int64, [some 7, none]⟩]
  aligned := by decide
  distinct := by decide

theorem blocking_completeness_lost :
    ¬ VerdictKept exactEnv completeIds partialIds "id" := by
  intro kept
  obtain ⟨all, ran, blocks⟩ := Results.ok_of_any
    (runAll exactEnv partialIds (nodesOf "id" (Compiler.rawNodes completeIds)))
    (·.any (·.severity == .blocking)) (by decide +kernel)
  obtain ⟨vs, ran', mild⟩ := Results.ok_of_any
    (runNodes exactEnv partialIds (nodesOf "id" (Compiler.compile completeIds).nodes))
    (·.all (·.severity != .blocking)) (by decide +kernel)
  obtain ⟨vs', same, blocking, _⟩ := kept all ran
  obtain rfl := Except.ok.inj (ran'.symm.trans same)
  obtain ⟨v, member, severity⟩ := List.any_eq_true.mp blocks
  obtain ⟨w, found, severe⟩ := blocking.mpr ⟨v, member, beq_iff_eq.mp severity⟩
  exact bne_iff_ne.mp (List.all_eq_true.mp mild w found) severe

end PartialIds

end StatGuardian.Engine
