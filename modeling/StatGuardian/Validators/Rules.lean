import StatGuardian.Validators.Schema

namespace StatGuardian.Validators.RuleEngine

open StatGuardian.Core Polars

variable {F : Type} [Float64 F]

def metricName : MetricFn → String
  | .completeness => "completeness"
  | .uniqueness => "uniqueness"
  | .validity => "validity"
  | .consistency => "consistency"
  | .freshness => "freshness"
  | .nonNullRate => "non_null_rate"

def computeMetric (env : Env F) (series : Series F) (metric : MetricFn) : Option F :=
  let n : F := Float64.ofNat series.len
  if Float64.eq n Float64.zero then some Float64.zero
  else
    match metric with
    | .completeness | .nonNullRate =>
      some (Float64.one - Float64.ofNat series.nullCount / n)
    | .uniqueness => do
      let nUnique ← env.nUnique series
      return Float64.ofNat nUnique / n
    | .validity => some ((n - Float64.ofNat series.nullCount) / n)
    | .consistency => do
      let nUnique ← env.nUnique series
      return Float64.ofNat nUnique / n
    | .freshness => some (Float64.one - Float64.ofNat series.nullCount / n)

def evaluateRule (env : Env F) (df : DataFrame F) (rule : QualityRule F) : List (Violation F) :=
  match df.column rule.column with
  | none =>
    [Violation.new rule.column "quality_check" s!"column '{rule.column}' not found" .blocking]
  | some c =>
    match computeMetric env c.asMaterializedSeries rule.metric with
    | none => []
    | some observed =>
      if ! rule.op.evaluate observed rule.threshold then
        [(Violation.new rule.column (metricName rule.metric)
          s!"quality check failed: {metricName rule.metric}({rule.column}) = {env.fixed 4 observed} {rule.op.display} {env.fixed 4 rule.threshold}"
          rule.severity).withValues observed rule.threshold]
      else []

def evaluate (env : Env F) (df : DataFrame F) (rules : List (QualityRule F)) :
    List (Violation F) :=
  rules.flatMap (evaluateRule env df)

def qualityChecks : List String :=
  ["quality_check", "completeness", "uniqueness", "validity", "consistency", "freshness",
    "non_null_rate"]

theorem evaluateRule_key (env : Env F) (df : DataFrame F) (rule : QualityRule F) (v : Violation F)
    (reports : v ∈ evaluateRule env df rule) : v.column = rule.column ∧ v.check ∈ qualityChecks := by
  unfold evaluateRule at reports
  split at reports
  · rw [List.mem_singleton] at reports
    subst reports
    exact ⟨rfl, by simp [qualityChecks]⟩
  · split at reports
    · cases reports
    · split at reports
      · rw [List.mem_singleton] at reports
        subst reports
        refine ⟨rfl, ?_⟩
        cases rule.metric <;> simp [qualityChecks, metricName]
      · cases reports

theorem evaluate_check (env : Env F) (df : DataFrame F) (rules : List (QualityRule F))
    (v : Violation F) (reports : v ∈ evaluate env df rules) : v.check ∈ qualityChecks := by
  obtain ⟨rule, _, reported⟩ := List.mem_flatMap.mp reports
  exact (evaluateRule_key env df rule v reported).2

def rowMatches (env : Env F) (series : Series F) (idx : Nat) (op : ComparisonOp) :
    LiteralValue F → Bool
  | .number n =>
    match env.castF64 series with
    | some ca =>
      match ca[idx]? with
      | some (some v) => op.evaluate v n
      | _ => false
    | none => false
  | .str s =>
    match series.str with
    | some ca =>
      match ca[idx]? with
      | some (some v) => op.evaluateStr v s
      | _ => false
    | none => false
  | .bool b =>
    match series.bool with
    | some ca =>
      match ca[idx]? with
      | some (some v) => op.evaluateBool v b
      | _ => false
    | none => false

/-- `LiteralValue`'s `Display`. -/
def displayLiteral (env : Env F) : LiteralValue F → String
  | .number n => env.display n
  | .str s => s!"\"{s}\""
  | .bool b => if b then "true" else "false"

def crossColumnFailures (env : Env F) (df : DataFrame F) (rule : CrossColumnRule F)
    (whenSeries assertSeries : Series F) : List Nat :=
  (List.range df.height).filter (fun i =>
    rowMatches env whenSeries i rule.whenOp rule.whenValue &&
      ! rowMatches env assertSeries i rule.assertOp rule.assertValue)

def evaluateCrossColumnRule (env : Env F) (df : DataFrame F) (rule : CrossColumnRule F) :
    List (Violation F) :=
  match df.column rule.whenColumn with
  | none =>
    [Violation.new rule.assertColumn "cross_column_rule"
      s!"condition column '{rule.whenColumn}' not found" rule.severity]
  | some whenColumn =>
    match df.column rule.assertColumn with
    | none =>
      [Violation.new rule.assertColumn "cross_column_rule"
        s!"assertion column '{rule.assertColumn}' not found" rule.severity]
    | some assertColumn =>
      let failingRows := crossColumnFailures env df rule whenColumn.asMaterializedSeries
        assertColumn.asMaterializedSeries
      (rowViolation rule.assertColumn "cross_column_rule" rule.severity
        (fun n => s!"{n} row(s) violate: assert {rule.assertColumn} {rule.assertOp.display} {displayLiteral env rule.assertValue} when {rule.whenColumn} {rule.whenOp.display} {displayLiteral env rule.whenValue}")
        failingRows).toList

def evaluateCrossColumn (env : Env F) (df : DataFrame F) (rules : List (CrossColumnRule F)) :
    List (Violation F) :=
  rules.flatMap (evaluateCrossColumnRule env df)

theorem evaluateCrossColumnRule_key (env : Env F) (df : DataFrame F) (rule : CrossColumnRule F)
    (v : Violation F) (reports : v ∈ evaluateCrossColumnRule env df rule) :
    v.column = rule.assertColumn ∧ v.check = "cross_column_rule" := by
  unfold evaluateCrossColumnRule at reports
  split at reports
  · rw [List.mem_singleton] at reports
    subst reports
    exact ⟨rfl, rfl⟩
  · split at reports
    · rw [List.mem_singleton] at reports
      subst reports
      exact ⟨rfl, rfl⟩
    · rw [Option.mem_toList, rowViolation_eq_some] at reports
      obtain ⟨_, rfl⟩ := reports
      exact ⟨rfl, rfl⟩

theorem evaluateCrossColumnRule_single (env : Env F) (df : DataFrame F)
    (rule : CrossColumnRule F) (v : Violation F)
    (reports : v ∈ evaluateCrossColumnRule env df rule) :
    evaluateCrossColumnRule env df rule = [v] := by
  unfold evaluateCrossColumnRule at reports ⊢
  split at reports
  · rw [List.mem_singleton.mp reports]
  · split at reports
    · rw [List.mem_singleton.mp reports]
    · rw [Option.mem_toList] at reports
      simp only [reports, Option.toList_some]

end StatGuardian.Validators.RuleEngine
