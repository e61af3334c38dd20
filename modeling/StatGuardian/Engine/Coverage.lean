import StatGuardian.Engine.Batch
import StatGuardian.Runtime.ExactEnv

namespace StatGuardian.Engine

open StatGuardian.Core Metrics Polars Stats Validators

section FailingRows

variable {F : Type}

/-- No violation before it has its column and check. -/
def Leads (violations : List (Violation F)) (v : Violation F) : Prop :=
  ∃ before after, violations = before ++ v :: after ∧ ∀ u ∈ before, sameKey u v = false

theorem leads_iff_find (violations : List (Violation F)) (v : Violation F) :
    Leads violations v ↔ violations.find? (fun w => sameKey w v) = some v := by
  rw [List.find?_eq_some_iff_append]
  have self : sameKey v v = true := by simp [sameKey]
  simp only [self, true_and, Leads, Bool.not_eq_true']

variable [Float64 F] {env : Env F} {contract : DataContract F} {dag : ExecutionDag F}
  {df : DataFrame F} {reference : Option (DataFrame F)} {report : ValidationReport F}
  {violations : List (Violation F)}

/-- Every failing row reaches the report exactly when those of a violation that repeats a column
    and check are listed by a violation of that column that does not. -/
theorem rows_kept_iff (ran : BatchExecutor.execute env contract dag df reference = .ok report)
    (emits : emitted env contract dag df = .ok violations) :
    (∀ v ∈ violations, ∀ i ∈ v.rowIndices,
      ∃ w ∈ report.violations, w.column = v.column ∧ i ∈ w.rowIndices) ↔
      ∀ v ∈ violations, ¬ Leads violations v → ∀ i ∈ v.rowIndices,
        ∃ w, Leads violations w ∧ w.column = v.column ∧ i ∈ w.rowIndices := by
  have kept : ∀ w, w ∈ report.violations ↔ Leads violations w := fun w =>
    (reported_iff ran emits w).trans (leads_iff_find violations w).symm
  constructor
  · intro covered v member _ i row
    obtain ⟨w, inside, same, listed⟩ := covered v member i row
    exact ⟨w, (kept w).mp inside, same, listed⟩
  · intro covered v member i row
    by_cases first : Leads violations v
    · exact ⟨v, (kept v).mpr first, rfl, row⟩
    · obtain ⟨w, leads, same, listed⟩ := covered v member first i row
      exact ⟨w, (kept w).mpr leads, same, listed⟩

/-- `dataset orders` with the quality rules `assert total > 0 when status == "paid"` and
    `assert total < 100 when status == "test"`. -/
def assertedTotals : DataContract ExtRat :=
  { DataContract.new "orders" with
    crossColumnRules :=
      [⟨"total", .gt, .number (.fin 0), "status", .eq, .str "paid", .error⟩,
        ⟨"total", .lt, .number (.fin 100), "status", .eq, .str "test", .error⟩] }

def paidAndTest : DataFrame ExtRat where
  height := 2
  columns :=
    [.series "total" ⟨.int64, [some 0, some 500]⟩,
      .series "status" ⟨.string, [some "paid", some "test"]⟩]
  aligned := by decide
  distinct := by decide

/-- Row 1 fails the second rule; the report keeps the violation of the first rule only, which
    lists row 0. -/
theorem second_rule_loses_row :
    ∃ (report : ValidationReport ExtRat) (violations : List (Violation ExtRat)),
      BatchExecutor.execute exactEnv assertedTotals (Compiler.compile assertedTotals) paidAndTest
        none = .ok report ∧
      emitted exactEnv assertedTotals (Compiler.compile assertedTotals) paidAndTest =
        .ok violations ∧
      ¬ ∀ v ∈ violations, ∀ i ∈ v.rowIndices,
        ∃ w ∈ report.violations, w.column = v.column ∧ i ∈ w.rowIndices := by
  obtain ⟨report, ran, dropped⟩ := Results.ok_of_any
    (BatchExecutor.execute exactEnv assertedTotals (Compiler.compile assertedTotals) paidAndTest
      none) (·.violations.all (! ·.rowIndices.contains 1)) (by decide +kernel)
  obtain ⟨violations, emits, failing⟩ := Results.ok_of_any
    (emitted exactEnv assertedTotals (Compiler.compile assertedTotals) paidAndTest)
    (·.any (·.rowIndices.contains 1)) (by decide +kernel)
  rw [List.any_eq_true] at failing
  obtain ⟨v, member, row⟩ := failing
  refine ⟨report, violations, ran, emits, fun covered => ?_⟩
  obtain ⟨w, inside, _, listed⟩ := covered v member 1 (by simpa using row)
  have absent := List.all_eq_true.mp dropped w inside
  simp [listed] at absent

theorem rows_kept_iff_totals :
    ∃ (report : ValidationReport ExtRat) (violations : List (Violation ExtRat)),
      BatchExecutor.execute exactEnv assertedTotals (Compiler.compile assertedTotals) paidAndTest
        none = .ok report ∧
      ((∀ v ∈ violations, ∀ i ∈ v.rowIndices,
          ∃ w ∈ report.violations, w.column = v.column ∧ i ∈ w.rowIndices) ↔
        ∀ v ∈ violations, ¬ Leads violations v → ∀ i ∈ v.rowIndices,
          ∃ w, Leads violations w ∧ w.column = v.column ∧ i ∈ w.rowIndices) := by
  obtain ⟨report, ran, _⟩ := Results.ok_of_any
    (BatchExecutor.execute exactEnv assertedTotals (Compiler.compile assertedTotals) paidAndTest
      none) (·.passed) (by decide +kernel)
  obtain ⟨violations, _, _, emits, _⟩ := (execute_ok_iff ..).mp ran
  exact ⟨report, violations, ran, rows_kept_iff ran emits⟩

end FailingRows

section MissingColumns

variable {F : Type} [Float64 F]

/-- A violation names a column in its column field or in its message. -/
def Names (v : Violation F) (column : String) : Prop :=
  v.column = column ∨ column.toList <:+: v.message.toList

/-- One of the violations is in the report and names the column. -/
def Told (report : ValidationReport F) (own : List (Violation F)) (column : String) : Prop :=
  ∃ v ∈ own, v ∈ report.violations ∧ Names v column

/-- Every rule that names a missing column has a violation of its own in the report. -/
structure MissingTold (env : Env F) (contract : DataContract F) (df : DataFrame F)
    (report : ValidationReport F) : Prop where
  fields : ∀ field ∈ contract.schema, df.column field.name = none →
    Told report (SchemaValidator.validateField env df field) field.name
  quality : ∀ rule ∈ contract.qualityRules, df.column rule.column = none →
    Told report (RuleEngine.evaluateRule env df rule) rule.column
  crossColumn : ∀ rule ∈ contract.crossColumnRules,
    ∀ column ∈ [rule.whenColumn, rule.assertColumn], df.column column = none →
      Told report (RuleEngine.evaluateCrossColumnRule env df rule) column
  anomalies : ∀ rule ∈ contract.anomalyRules, df.column rule.column = none →
    ∃ own, executeNode env df (Compiler.anomalyNode rule) = .ok own ∧
      Told report own rule.column

/-- The first rule over columns that reports on the asserted column of `rule` reports what `rule`
    does. -/
def FirstReports (env : Env F) (df : DataFrame F) (rules : List (CrossColumnRule F))
    (rule : CrossColumnRule F) : Prop :=
  ∀ first, rules.find? (fun other => other.assertColumn == rule.assertColumn &&
      ! (RuleEngine.evaluateCrossColumnRule env df other).isEmpty) = some first →
    RuleEngine.evaluateCrossColumnRule env df first = RuleEngine.evaluateCrossColumnRule env df rule

theorem validateField_missing (env : Env F) (df : DataFrame F) (field : FieldDef F)
    (missing : df.column field.name = none) :
    SchemaValidator.validateField env df field =
      [Violation.new field.name "column_exists" s!"column '{field.name}' not found in dataset"
        .blocking] := by
  simp only [SchemaValidator.validateField, missing]

theorem evaluateRule_missing (env : Env F) (df : DataFrame F) (rule : QualityRule F)
    (missing : df.column rule.column = none) :
    RuleEngine.evaluateRule env df rule =
      [Violation.new rule.column "quality_check" s!"column '{rule.column}' not found"
        .blocking] := by
  simp only [RuleEngine.evaluateRule, missing]

/-- Every node an anomaly rule compiles to passes over a missing column. -/
theorem anomalyNode_missing (env : Env F) (df : DataFrame F) (rule : AnomalyRule)
    (missing : df.column rule.column = none) :
    executeNode env df (Compiler.anomalyNode rule) = .ok [] := by
  have unread : getSeries df rule.column = none := by simp [getSeries, missing]
  unfold Compiler.anomalyNode
  cases rule.function <;> simp [executeNode, onSeries, detectOutliers, unread]

omit [Float64 F] in
theorem find_same_report {β : Type} {entries : List β} {column : β → String}
    {reports : β → List (Violation F)} {v : Violation F}
    (named : ∀ entry, ∀ u ∈ reports entry, u.column = column entry)
    (same : ∀ entry, column entry = v.column → reports entry = [v])
    (entry : β) (member : entry ∈ entries) (own : column entry = v.column) :
    (entries.flatMap reports).find? (fun w => sameKey w v) = some v := by
  refine Slices.find_of_agree (List.mem_flatMap.mpr ⟨entry, member, ?_⟩) (by simp [sameKey]) ?_
  · rw [same entry own]
    exact List.mem_singleton_self v
  · intro u emitted key
    obtain ⟨other, _, reported⟩ := List.mem_flatMap.mp emitted
    simp only [sameKey, Bool.and_eq_true, beq_iff_eq] at key
    rw [same other ((named other u reported).symm.trans key.1)] at reported
    exact List.mem_singleton.mp reported

omit [Float64 F] in
theorem find_other_check {checks : List String} {reported : List (Violation F)} {v : Violation F}
    (named : ∀ u ∈ reported, u.check ∈ checks) (other : v.check ∉ checks) :
    reported.find? (fun w => sameKey w v) = none := by
  rw [List.find?_eq_none]
  intro u member same
  simp only [sameKey, Bool.and_eq_true, beq_iff_eq] at same
  have check := named u member
  rw [same.2] at check
  exact other check

variable {env : Env F} {contract : DataContract F} {dag : ExecutionDag F}
  {df : DataFrame F} {reference : Option (DataFrame F)} {report : ValidationReport F}

theorem missing_field_told
    (ran : BatchExecutor.execute env contract dag df reference = .ok report)
    (field : FieldDef F) (member : field ∈ contract.schema)
    (missing : df.column field.name = none) :
    Told report (SchemaValidator.validateField env df field) field.name := by
  obtain ⟨violations, _, _, emits, _⟩ := (execute_ok_iff ..).mp ran
  obtain ⟨fromDag, _, split⟩ := (emitted_ok_iff ..).mp emits
  rw [validateField_missing env df field missing]
  refine ⟨_, List.mem_singleton_self _, ?_, .inl rfl⟩
  have found := find_same_report (v := Violation.new field.name "column_exists"
      s!"column '{field.name}' not found in dataset" .blocking)
    (fun other u reports => (SchemaValidator.validateField_key env df other u reports).1)
    (fun other named => by
      simp only [Violation.new_column] at named
      rw [validateField_missing env df other (by rw [named]; exact missing), named])
    field member rfl
  rw [reported_iff ran emits, split]
  simp only [SchemaValidator.validate, List.find?_append, found, Option.some_or]

theorem missing_quality_told
    (ran : BatchExecutor.execute env contract dag df reference = .ok report)
    (rule : QualityRule F) (member : rule ∈ contract.qualityRules)
    (missing : df.column rule.column = none) :
    Told report (RuleEngine.evaluateRule env df rule) rule.column := by
  obtain ⟨violations, _, _, emits, _⟩ := (execute_ok_iff ..).mp ran
  obtain ⟨fromDag, _, split⟩ := (emitted_ok_iff ..).mp emits
  rw [evaluateRule_missing env df rule missing]
  refine ⟨_, List.mem_singleton_self _, ?_, .inl rfl⟩
  have found := find_same_report (v := Violation.new rule.column "quality_check"
      s!"column '{rule.column}' not found" .blocking)
    (fun other u reports => (RuleEngine.evaluateRule_key env df other u reports).1)
    (fun other named => by
      simp only [Violation.new_column] at named
      rw [evaluateRule_missing env df other (by rw [named]; exact missing), named])
    rule member rfl
  have before := find_other_check (v := Violation.new rule.column "quality_check"
      s!"column '{rule.column}' not found" .blocking)
    (SchemaValidator.validate_check env df contract.schema) (by simp only [Violation.new_check]; decide)
  rw [reported_iff ran emits, split]
  simp only [RuleEngine.evaluate, List.find?_append, before, found, Option.some_or,
    Option.none_or]

theorem find_evaluateCrossColumn (env : Env F) (df : DataFrame F)
    (rules : List (CrossColumnRule F)) (v : Violation F) (check : v.check = "cross_column_rule") :
    (RuleEngine.evaluateCrossColumn env df rules).find? (fun w => sameKey w v) =
      (rules.find? (fun rule => rule.assertColumn == v.column &&
        ! (RuleEngine.evaluateCrossColumnRule env df rule).isEmpty)).bind
          (fun rule => (RuleEngine.evaluateCrossColumnRule env df rule).head?) := by
  unfold RuleEngine.evaluateCrossColumn
  induction rules with
  | nil => rfl
  | cons rule rest ih =>
    rw [List.flatMap_cons, List.find?_append, ih, List.find?_cons]
    cases reports : RuleEngine.evaluateCrossColumnRule env df rule with
    | nil => simp
    | cons u more =>
      have member : u ∈ RuleEngine.evaluateCrossColumnRule env df rule := by simp [reports]
      have key := RuleEngine.evaluateCrossColumnRule_key env df rule u member
      have single := RuleEngine.evaluateCrossColumnRule_single env df rule u member
      rw [reports, List.cons.injEq] at single
      obtain ⟨_, rfl⟩ := single
      have same : sameKey u v = (rule.assertColumn == v.column) := by
        simp [sameKey, key.1, key.2, check]
      cases chosen : rule.assertColumn == v.column <;> simp [same, chosen, reports]

theorem evaluateCrossColumnRule_missing (env : Env F) (df : DataFrame F)
    (rule : CrossColumnRule F) (column : String) (side : column ∈ [rule.whenColumn, rule.assertColumn])
    (missing : df.column column = none) :
    ∃ v, RuleEngine.evaluateCrossColumnRule env df rule = [v] ∧ Names v column := by
  simp only [List.mem_cons, List.not_mem_nil, or_false] at side
  unfold RuleEngine.evaluateCrossColumnRule
  cases condition : df.column rule.whenColumn with
  | none =>
    refine ⟨_, rfl, ?_⟩
    rcases side with rfl | rfl
    · right
      simp only [Violation.new_message]
      refine ⟨"condition column '".toList, "' not found".toList, ?_⟩
      simp [toString]
    · exact .inl rfl
  | some whenColumn =>
    rcases side with rfl | rfl
    · rw [missing] at condition; cases condition
    · simp only [missing]
      exact ⟨_, rfl, .inl rfl⟩

/-- A rule over columns is told exactly when the first rule to report on its asserted column
    reports the same. -/
theorem missing_cross_told_iff
    (ran : BatchExecutor.execute env contract dag df reference = .ok report)
    (rule : CrossColumnRule F) (member : rule ∈ contract.crossColumnRules) (column : String)
    (side : column ∈ [rule.whenColumn, rule.assertColumn]) (missing : df.column column = none) :
    Told report (RuleEngine.evaluateCrossColumnRule env df rule) column ↔
      FirstReports env df contract.crossColumnRules rule := by
  obtain ⟨violations, _, _, emits, _⟩ := (execute_ok_iff ..).mp ran
  obtain ⟨fromDag, _, split⟩ := (emitted_ok_iff ..).mp emits
  obtain ⟨v, reports, names⟩ := evaluateCrossColumnRule_missing env df rule column side missing
  have key := RuleEngine.evaluateCrossColumnRule_key env df rule v (by simp [reports])
  have told : Told report (RuleEngine.evaluateCrossColumnRule env df rule) column ↔
      violations.find? (fun w => sameKey w v) = some v := by
    rw [← reported_iff ran emits, reports]
    constructor
    · rintro ⟨w, own, inside, _⟩
      rw [List.mem_singleton.mp own] at inside
      exact inside
    · intro inside
      exact ⟨v, List.mem_singleton_self v, inside, names⟩
  have schema := find_other_check (v := v)
    (SchemaValidator.validate_check env df contract.schema) (by rw [key.2]; decide)
  have quality := find_other_check (v := v)
    (RuleEngine.evaluate_check env df contract.qualityRules) (by rw [key.2]; decide)
  obtain ⟨first, leads⟩ : ∃ first, contract.crossColumnRules.find? (fun other =>
      other.assertColumn == rule.assertColumn &&
        ! (RuleEngine.evaluateCrossColumnRule env df other).isEmpty) = some first := by
    rw [← Option.isSome_iff_exists, List.find?_isSome]
    exact ⟨rule, member, by simp [reports]⟩
  have cross : (RuleEngine.evaluateCrossColumn env df contract.crossColumnRules).find?
      (fun w => sameKey w v) = (RuleEngine.evaluateCrossColumnRule env df first).head? := by
    rw [find_evaluateCrossColumn env df _ v key.2, key.1, leads, Option.bind_some]
  have active := List.find?_some leads
  rw [told, split]
  simp only [List.find?_append, schema, quality, cross, Option.none_or, FirstReports, leads,
    Option.some.injEq, forall_eq', reports]
  cases evaluated : RuleEngine.evaluateCrossColumnRule env df first with
  | nil => simp [evaluated] at active
  | cons u more =>
    have single := RuleEngine.evaluateCrossColumnRule_single env df first u (by simp [evaluated])
    rw [evaluated, List.cons.injEq] at single
    obtain ⟨_, rfl⟩ := single
    simp

/-- No check on a missing column passes silently exactly when no anomaly rule is on one and every
    rule over columns that reads one is not preceded by another report on its asserted column. -/
theorem missing_told_iff
    (ran : BatchExecutor.execute env contract (Compiler.compile contract) df reference =
      .ok report) :
    MissingTold env contract df report ↔
      (∀ rule ∈ contract.anomalyRules, df.column rule.column ≠ none) ∧
      ∀ rule ∈ contract.crossColumnRules,
        (df.column rule.whenColumn = none ∨ df.column rule.assertColumn = none) →
          FirstReports env df contract.crossColumnRules rule := by
  constructor
  · intro all
    refine ⟨fun rule member missing => ?_, fun rule member missing => ?_⟩
    · obtain ⟨own, visited, v, mine, _⟩ := all.anomalies rule member missing
      rw [anomalyNode_missing env df rule missing, Except.ok.injEq] at visited
      subst visited
      cases mine
    · rcases missing with missing | missing
      · exact (missing_cross_told_iff ran rule member rule.whenColumn (by simp) missing).mp
          (all.crossColumn rule member rule.whenColumn (by simp) missing)
      · exact (missing_cross_told_iff ran rule member rule.assertColumn (by simp) missing).mp
          (all.crossColumn rule member rule.assertColumn (by simp) missing)
  · rintro ⟨anomalies, cross⟩
    refine ⟨missing_field_told ran, missing_quality_told ran, ?_, ?_⟩
    · intro rule member column side missing
      refine (missing_cross_told_iff ran rule member column side missing).mpr ?_
      apply cross rule member
      simp only [List.mem_cons, List.not_mem_nil, or_false] at side
      rcases side with rfl | rfl
      · exact .inl missing
      · exact .inr missing
    · intro rule member missing
      exact absurd missing (anomalies rule member)

def outlierPrices : DataContract ExtRat :=
  { DataContract.new "orders" with
    anomalyRules := [⟨.detectOutliers, "price", [], .error⟩] }

/-- The frame has no column `price`. -/
def totalsOnly : DataFrame ExtRat where
  height := 2
  columns := [.series "total" ⟨.int64, [some 0, some 500]⟩]
  aligned := by decide
  distinct := by decide

theorem missing_price_untold :
    ∃ report : ValidationReport ExtRat,
      BatchExecutor.execute exactEnv outlierPrices (Compiler.compile outlierPrices) totalsOnly
        none = .ok report ∧
      ¬ MissingTold exactEnv outlierPrices totalsOnly report := by
  obtain ⟨report, ran, silent⟩ := Results.ok_of_any
    (BatchExecutor.execute exactEnv outlierPrices (Compiler.compile outlierPrices) totalsOnly
      none) (·.violations.isEmpty) (by decide +kernel)
  refine ⟨report, ran, fun all => ?_⟩
  obtain ⟨_, _, v, _, inside, _⟩ :=
    all.anomalies ⟨.detectOutliers, "price", [], .error⟩ (List.mem_singleton_self _) (by decide)
  rw [List.isEmpty_iff.mp silent] at inside
  cases inside

theorem missing_told_iff_prices :
    ∃ report : ValidationReport ExtRat,
      BatchExecutor.execute exactEnv outlierPrices (Compiler.compile outlierPrices) totalsOnly
        none = .ok report ∧
      (MissingTold exactEnv outlierPrices totalsOnly report ↔
        (∀ rule ∈ outlierPrices.anomalyRules, totalsOnly.column rule.column ≠ none) ∧
        ∀ rule ∈ outlierPrices.crossColumnRules,
          (totalsOnly.column rule.whenColumn = none ∨
            totalsOnly.column rule.assertColumn = none) →
            FirstReports exactEnv totalsOnly outlierPrices.crossColumnRules rule) := by
  obtain ⟨report, ran, _⟩ := Results.ok_of_any
    (BatchExecutor.execute exactEnv outlierPrices (Compiler.compile outlierPrices) totalsOnly
      none) (·.passed) (by decide +kernel)
  exact ⟨report, ran, missing_told_iff ran⟩

end MissingColumns

end StatGuardian.Engine
