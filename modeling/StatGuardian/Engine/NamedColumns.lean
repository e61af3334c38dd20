import StatGuardian.Engine.Scheduling
import StatGuardian.Runtime.ExactEnv

namespace StatGuardian.Engine

open StatGuardian.Core Metrics Polars Stats Validators

variable {F : Type} [Float64 F]

def contractColumns (contract : DataContract F) : List String :=
  contract.schema.map FieldDef.name ++ contract.qualityRules.map QualityRule.column ++
    contract.crossColumnRules.flatMap (fun rule => [rule.whenColumn, rule.assertColumn]) ++
    contract.statsRules.map StatsRule.column ++ contract.anomalyRules.map AnomalyRule.column

structure AgreeOn (names : List String) (df other : DataFrame F) : Prop where
  height : other.height = df.height
  column : ∀ name ∈ names, other.column name = df.column name

section Nodes

omit [Float64 F] in
theorem constraintNode_column {column : String} {c : Constraint F} {node : DagNode F}
    (compiled : Compiler.constraintNode column c = some node) : node.column = column := by
  cases c <;> cases compiled <;> rfl

omit [Float64 F] in
theorem anomalyNode_column (rule : AnomalyRule) :
    (Compiler.anomalyNode rule : DagNode F).column = rule.column := by
  unfold Compiler.anomalyNode
  cases rule.function <;> rfl

theorem compiled_column {contract : DataContract F} {node : DagNode F}
    (member : node ∈ (Compiler.compile contract).nodes) :
    node.column ∈ contractColumns contract := by
  have raw := Optimizer.mem_of_mem_optimize _ _ member
  simp only [contractColumns, List.mem_append]
  simp only [Compiler.rawNodes, List.mem_append] at raw
  rcases raw with ((schema | quality) | stats) | anomalies
  · obtain ⟨field, declared, inside⟩ := List.mem_flatMap.mp schema
    have named : node.column = field.name := by
      rcases List.mem_cons.mp inside with rfl | inside
      · rfl
      rcases List.mem_cons.mp inside with rfl | inside
      · rfl
      obtain ⟨c, -, compiled⟩ := List.mem_filterMap.mp inside
      exact constraintNode_column compiled
    rw [named]
    exact .inl (.inl (.inl (.inl (List.mem_map_of_mem declared))))
  · obtain ⟨rule, declared, rfl⟩ := List.mem_map.mp quality
    exact .inl (.inl (.inl (.inr (List.mem_map_of_mem declared))))
  · obtain ⟨rule, declared, rfl⟩ := List.mem_map.mp stats
    exact .inl (.inr (List.mem_map_of_mem declared))
  · obtain ⟨rule, declared, rfl⟩ := List.mem_map.mp anomalies
    rw [anomalyNode_column]
    exact .inr (List.mem_map_of_mem declared)

end Nodes

section Agree

variable {env : Env F} {names : List String} {df other : DataFrame F}

theorem validateField_agree (agree : AgreeOn names df other) (field : FieldDef F)
    (named : field.name ∈ names) :
    SchemaValidator.validateField env other field = SchemaValidator.validateField env df field := by
  rw [SchemaValidator.validateField, SchemaValidator.validateField, agree.column _ named]

theorem evaluateRule_agree (agree : AgreeOn names df other) (rule : QualityRule F)
    (named : rule.column ∈ names) :
    RuleEngine.evaluateRule env other rule = RuleEngine.evaluateRule env df rule := by
  rw [RuleEngine.evaluateRule, RuleEngine.evaluateRule, agree.column _ named]

theorem evaluateCrossColumnRule_agree (agree : AgreeOn names df other) (rule : CrossColumnRule F)
    (named : rule.whenColumn ∈ names) (namedToo : rule.assertColumn ∈ names) :
    RuleEngine.evaluateCrossColumnRule env other rule =
      RuleEngine.evaluateCrossColumnRule env df rule := by
  simp only [RuleEngine.evaluateCrossColumnRule, RuleEngine.crossColumnFailures,
    agree.column _ named, agree.column _ namedToo, agree.height]

omit [Float64 F] in
theorem getSeries_agree (agree : AgreeOn names df other) {name : String} (named : name ∈ names) :
    getSeries other name = getSeries df name := by
  rw [getSeries, getSeries, agree.column _ named]

theorem executeNode_agree (agree : AgreeOn names df other) (node : DagNode F)
    (named : node.column ∈ names) : executeNode env other node = executeNode env df node := by
  have same := getSeries_agree agree named
  cases node
  case qualityMetricCheck column metric op threshold severity =>
    simp only [executeNode, RuleEngine.evaluate, List.flatMap_singleton]
    rw [evaluateRule_agree agree _ named]
  case outlierDetection column method severity =>
    have same : getSeries other column = getSeries df column := same
    simp only [executeNode, detectOutliers, same]
  case profile | typeCheck | driftCheck => rfl
  all_goals
    simp only [DagNode.column] at same
    simp only [executeNode, onSeries, same]

theorem runNodes_agree (agree : AgreeOn names df other) (nodes : List (DagNode F))
    (named : ∀ node ∈ nodes, node.column ∈ names) :
    runNodes env other nodes = runNodes env df nodes := by
  induction nodes with
  | nil => rfl
  | cons node nodes ih =>
    obtain ⟨first, rest⟩ := List.forall_mem_cons.mp named
    simp only [runNodes, executeNode_agree agree node first, ih rest]

omit [Float64 F] in
theorem mapM_congr {α β ε : Type} {f g : α → Except ε β} {items : List α}
    (same : ∀ item ∈ items, f item = g item) : items.mapM f = items.mapM g := by
  induction items with
  | nil => rfl
  | cons item items ih =>
    obtain ⟨first, rest⟩ := List.forall_mem_cons.mp same
    rw [List.mapM_cons, List.mapM_cons, first, ih rest]

theorem dagViolations_agree (agree : AgreeOn names df other) (dag : ExecutionDag F)
    (named : ∀ node ∈ dag.nodes, node.column ∈ names) :
    dagViolations env dag other = dagViolations env dag df := by
  have visits : (env.visit (Optimizer.groupByColumn dag)).mapM (fun group =>
      runNodes env other group.2) = (env.visit (Optimizer.groupByColumn dag)).mapM (fun group =>
        runNodes env df group.2) := by
    apply mapM_congr
    rintro ⟨column, nodes⟩ visited
    apply runNodes_agree agree
    intro node inside
    have entry := (env.visit_perm _).mem_iff.mp visited
    obtain ⟨rfl, _⟩ := ((Optimizer.grouped_groupByColumn dag).entries column nodes).mp entry
    exact named node (List.mem_filter.mp inside).1
  rw [dagViolations, dagViolations, visits]

theorem emitted_agree {contract : DataContract F}
    (agree : AgreeOn (contractColumns contract) df other) :
    emitted env contract (Compiler.compile contract) other =
      emitted env contract (Compiler.compile contract) df := by
  have schema : SchemaValidator.validate env other contract.schema =
      SchemaValidator.validate env df contract.schema := by
    apply List.flatMap_congr
    intro field declared
    apply validateField_agree agree
    simp only [contractColumns, List.mem_append]
    exact .inl (.inl (.inl (.inl (List.mem_map_of_mem declared))))
  have quality : RuleEngine.evaluate env other contract.qualityRules =
      RuleEngine.evaluate env df contract.qualityRules := by
    apply List.flatMap_congr
    intro rule declared
    apply evaluateRule_agree agree
    simp only [contractColumns, List.mem_append]
    exact .inl (.inl (.inl (.inr (List.mem_map_of_mem declared))))
  have crossColumn : RuleEngine.evaluateCrossColumn env other contract.crossColumnRules =
      RuleEngine.evaluateCrossColumn env df contract.crossColumnRules := by
    apply List.flatMap_congr
    intro rule declared
    have named : ∀ name ∈ [rule.whenColumn, rule.assertColumn], name ∈ contractColumns contract := by
      intro name member
      simp only [contractColumns, List.mem_append]
      exact .inl (.inl (.inr (List.mem_flatMap.mpr ⟨rule, declared, member⟩)))
    exact evaluateCrossColumnRule_agree agree rule (named _ (by simp)) (named _ (by simp))
  have nodes : dagViolations env (Compiler.compile contract) other =
      dagViolations env (Compiler.compile contract) df :=
    dagViolations_agree agree _ (fun _ member => compiled_column member)
  rw [emitted, emitted, schema, quality, crossColumn, nodes]

theorem driftResults_agree {contract : DataContract F} {reference referenceToo : DataFrame F}
    (agree : AgreeOn (contractColumns contract) df other)
    (agreeToo : AgreeOn (contractColumns contract) reference referenceToo) :
    DriftEngine.evaluate env other referenceToo contract.statsRules =
      DriftEngine.evaluate env df reference contract.statsRules := by
  have rules : contract.statsRules.mapM (DriftEngine.evaluateRule env other referenceToo) =
      contract.statsRules.mapM (DriftEngine.evaluateRule env df reference) := by
    apply mapM_congr
    intro rule declared
    have named : rule.column ∈ contractColumns contract := by
      simp only [contractColumns, List.mem_append]
      exact .inl (.inr (List.mem_map_of_mem declared))
    simp only [DriftEngine.evaluateRule, DriftEngine.ruleSeries, agree.column _ named,
      agreeToo.column _ named]
  rw [DriftEngine.evaluate, DriftEngine.evaluate, rules]

end Agree

section Reports

variable {env : Env F} {contract : DataContract F} {df other : DataFrame F}
  {reference referenceToo : Option (DataFrame F)}

/-- But for the profiles of the columns a report depends only on the columns that the contract
    names. -/
theorem report_of_named_columns {report reportToo : ValidationReport F}
    (agree : AgreeOn (contractColumns contract) df other)
    (agreeToo : Option.Rel (AgreeOn (contractColumns contract)) reference referenceToo)
    (ran : BatchExecutor.execute env contract (Compiler.compile contract) df reference = .ok report)
    (ranToo : BatchExecutor.execute env contract (Compiler.compile contract) other referenceToo =
      .ok reportToo) :
    reportToo = { report with columnProfiles := reportToo.columnProfiles } := by
  obtain ⟨violations, drift, profile, emits, drifts, -, rfl⟩ := (execute_ok_iff ..).mp ran
  obtain ⟨violationsToo, driftToo, profileToo, emitsToo, driftsToo, -, rfl⟩ :=
    (execute_ok_iff ..).mp ranToo
  rw [emitted_agree agree, emits] at emitsToo
  obtain rfl := Except.ok.inj emitsToo
  have same : driftResults env contract other referenceToo = driftResults env contract df reference := by
    cases agreeToo with
    | none => rfl
    | some related => exact driftResults_agree agree related
  rw [same, drifts] at driftsToo
  obtain rfl := Except.ok.inj driftsToo
  rw [agree.height]
  rfl

end Reports

section Sample

/-- `dataset orders` with a field `id: int, positive`. -/
def positiveIds : DataContract ExtRat :=
  { DataContract.new "orders" with schema := [⟨"id", .int, [.positive]⟩] }

def idsOnly : DataFrame ExtRat where
  height := 2
  columns := [.series "id" ⟨.int64, [some 7, some (-1)]⟩]
  aligned := by decide
  distinct := by decide

def idsAndNotes : DataFrame ExtRat where
  height := 2
  columns := [.series "note" ⟨.string, [none, some "late"]⟩,
    .series "id" ⟨.int64, [some 7, some (-1)]⟩]
  aligned := by decide
  distinct := by decide

theorem report_of_named_columns_ids : ∃ report reportToo : ValidationReport ExtRat,
    BatchExecutor.execute exactEnv positiveIds (Compiler.compile positiveIds) idsOnly none =
      .ok report ∧
    BatchExecutor.execute exactEnv positiveIds (Compiler.compile positiveIds) idsAndNotes none =
      .ok reportToo ∧
    reportToo = { report with columnProfiles := reportToo.columnProfiles } := by
  obtain ⟨report, ran, -⟩ := Results.ok_of_any (BatchExecutor.execute exactEnv positiveIds
    (Compiler.compile positiveIds) idsOnly none) (fun _ => true) (by decide +kernel)
  obtain ⟨reportToo, ranToo, -⟩ := Results.ok_of_any (BatchExecutor.execute exactEnv positiveIds
    (Compiler.compile positiveIds) idsAndNotes none) (fun _ => true) (by decide +kernel)
  have agree : AgreeOn (contractColumns positiveIds) idsOnly idsAndNotes := by
    refine ⟨rfl, fun name named => ?_⟩
    obtain rfl : name = "id" := List.mem_singleton.mp named
    rfl
  exact ⟨report, reportToo, ran, ranToo, report_of_named_columns agree .none ran ranToo⟩

end Sample

end StatGuardian.Engine
