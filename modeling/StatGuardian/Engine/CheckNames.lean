import StatGuardian.Engine.Checks

namespace StatGuardian.Engine

open StatGuardian.Core Polars Validators

variable {F : Type}

def nodeCheckName (present : Bool) : DagNode F → String
  | .nullCheck .. => "null_check"
  | .uniquenessCheck .. => "uniqueness"
  | .regexCheck .. => "regex"
  | .rangeCheck .. => "range_check"
  | .lenCheck .. => "len_check"
  | .enumCheck .. => "enum_check"
  | .positiveCheck .. => "positive_check"
  | .negativeCheck .. => "negative_check"
  | .qualityMetricCheck _ metric .. =>
    if present then RuleEngine.metricName metric else "quality_check"
  | .outlierDetection .. => "outlier_detection"
  | .duplicateDetection .. => "duplicate_detection"
  | .nullAnomalyDetection .. => "null_anomaly"
  | .cardinalityCheck .. => "cardinality_check"
  | .typeCheck .. | .driftCheck .. | .profile _ => ""

namespace Check

def column : Check F → String
  | .field f | .constraint f _ => f.name
  | .quality rule => rule.column
  | .crossColumn rule => rule.assertColumn
  | .node n => n.column

def name (present : Bool) : Check F → String
  | .field _ => if present then "type_check" else "column_exists"
  | .constraint _ c => (SchemaValidator.constraintCheck c).getD ""
  | .quality rule => if present then RuleEngine.metricName rule.metric else "quality_check"
  | .crossColumn _ => "cross_column_rule"
  | .node n => nodeCheckName present n

end Check

/-- What a check can say about a column that is not there. -/
def absenceChecks : List String := ["column_exists", "quality_check", "cross_column_rule"]

variable [Float64 F]

section Nodes

variable (env : Env F) (df : DataFrame F)

omit [Float64 F] in
theorem onSeries_check {column name : String} {check : Series F → List (Violation F)}
    (named : ∀ s, ∀ v ∈ check s, v.check = name) {v : Violation F}
    (reports : v ∈ onSeries df column check) : v.check = name ∧ (df.column column).isSome = true := by
  unfold onSeries getSeries at reports
  cases found : df.column column with
  | none =>
    rw [found] at reports
    cases reports
  | some c =>
    rw [found] at reports
    exact ⟨named _ v reports, rfl⟩

omit [Float64 F] in
theorem single_check {p : Prop} [Decidable p] {v w : Violation F}
    (reports : v ∈ if p then [w] else []) : v.check = w.check := by
  split at reports
  · rw [List.mem_singleton.mp reports]
  · cases reports

omit [Float64 F] in
theorem failing_check {α : Type} {read : Option α} {rows : α → List Nat} {column name : String}
    {severity : Severity} {message : Nat → String} {v : Violation F}
    (reports : v ∈ (read.bind fun cells =>
      (rowViolation column name severity message (rows cells) : Option (Violation F))).toList) :
    v.check = name := by
  obtain ⟨cells, _, found⟩ := Option.bind_eq_some_iff.mp (Option.mem_toList.mp reports)
  obtain ⟨_, rfl⟩ := (rowViolation_eq_some ..).mp found
  rfl

theorem evaluateRule_name (rule : QualityRule F) (v : Violation F)
    (reports : v ∈ RuleEngine.evaluateRule env df rule) :
    v.check = if (df.column rule.column).isSome then RuleEngine.metricName rule.metric
      else "quality_check" := by
  unfold RuleEngine.evaluateRule at reports
  cases found : df.column rule.column with
  | none =>
    rw [found] at reports
    rw [List.mem_singleton.mp reports]
    rfl
  | some c =>
    rw [found] at reports
    dsimp only at reports
    split at reports
    · cases reports
    · split at reports
      · rw [List.mem_singleton.mp reports]
        rfl
      · cases reports

theorem detectOutliers_check {column method : String} {severity : Severity}
    {vs : List (Violation F)} (ran : detectOutliers env column method severity df = .ok vs)
    {v : Violation F} (reports : v ∈ vs) :
    v.check = "outlier_detection" ∧ (df.column column).isSome = true := by
  unfold detectOutliers getSeries at ran
  cases found : df.column column with
  | none =>
    rw [found] at ran
    cases ran
    cases reports
  | some c =>
    refine ⟨?_, rfl⟩
    split at ran
    · cases ran
      cases reports
    · dsimp only at ran
      split at ran
      · cases ran
        cases reports
      · obtain ⟨indices, _, same⟩ := (Results.bind_ok_iff ..).mp ran
        obtain rfl := Except.ok.inj same
        obtain ⟨_, rfl⟩ := (rowViolation_eq_some ..).mp (Option.mem_toList.mp reports)
        rfl

/-- A node reports under its name, and only a quality check does without its column. -/
theorem executeNode_name (node : DagNode F) (vs : List (Violation F))
    (ran : executeNode env df node = .ok vs) (v : Violation F) (reports : v ∈ vs) :
    v.check = nodeCheckName (df.column node.column).isSome node ∧
      ((df.column node.column).isSome = true ∨ v.check = "quality_check") := by
  have present : ∀ {name : String}, v.check = name ∧ (df.column node.column).isSome = true →
      v.check = name ∧ ((df.column node.column).isSome = true ∨ v.check = "quality_check") :=
    fun both => ⟨both.1, .inl both.2⟩
  cases node
  case outlierDetection column method severity =>
    exact present (detectOutliers_check env df ran reports)
  all_goals obtain rfl := Except.ok.inj ran
  case profile | typeCheck | driftCheck => cases reports
  case nullCheck | uniquenessCheck | duplicateDetection | nullAnomalyDetection | cardinalityCheck =>
    refine present (onSeries_check df ?_ reports)
    intro _ _ reported
    exact single_check reported
  case rangeCheck | positiveCheck | negativeCheck | lenCheck | enumCheck =>
    exact present (onSeries_check df (fun _ _ reported => failing_check reported) reports)
  case qualityMetricCheck column metric op threshold severity =>
    obtain ⟨rule, member, reported⟩ := List.mem_flatMap.mp reports
    rw [List.mem_singleton.mp member] at reported
    have named := evaluateRule_name env df _ v reported
    refine ⟨named, ?_⟩
    rw [named]
    change _ ∨ (if (df.column column).isSome then _ else _) = _
    change (df.column column).isSome = true ∨ _
    cases (df.column column).isSome with
    | true => exact .inl rfl
    | false => exact .inr rfl
  case regexCheck column pattern severity =>
    cases compiled : env.regex pattern with
    | error e =>
      simp only [compiled] at reports
      apply present
      apply onSeries_check df _ reports
      intro _ u member
      rw [List.mem_singleton.mp member]
      rfl
    | ok isMatch =>
      simp only [compiled] at reports
      exact present (onSeries_check df (fun _ _ reported => failing_check reported) reports)

end Nodes

section Reports

variable (env : Env F) (df : DataFrame F)

namespace Check

theorem report_named (check : Check F) (v : Violation F) (reports : check.report env df = some v) :
    v.column = check.column ∧ v.check = check.name (df.column check.column).isSome ∧
      ((df.column check.column).isSome = true ∨ v.check ∈ absenceChecks) := by
  cases check with
  | field f =>
    rw [report] at reports
    change _ ∧ _ = name (df.column f.name).isSome (.field f) ∧ ((df.column f.name).isSome = true ∨ _)
    cases found : df.column f.name with
    | none =>
      simp only [found, SchemaValidator.validateField, List.head?_cons, Option.some.injEq] at reports
      subst reports
      exact ⟨rfl, rfl, .inr (List.mem_cons_self ..)⟩
    | some col =>
      simp only [found] at reports
      have key := SchemaValidator.checkType_key env _ f v (List.mem_of_head? reports)
      exact ⟨key.1, key.2, .inl rfl⟩
  | constraint f c =>
    obtain ⟨col, found, reported⟩ := Option.bind_eq_some_iff.mp reports
    have key := SchemaValidator.checkConstraint_key env _ f.name c v reported
    refine ⟨key.1, ?_, .inl (Option.isSome_iff_exists.mpr ⟨col, found⟩)⟩
    rw [name, key.2]
    rfl
  | quality rule =>
    have member := List.mem_of_head? reports
    have named := evaluateRule_name env df rule v member
    refine ⟨(RuleEngine.evaluateRule_key env df rule v member).1, named, ?_⟩
    change (df.column rule.column).isSome = true ∨ _
    rw [named]
    cases (df.column rule.column).isSome with
    | true => exact .inl rfl
    | false => exact .inr (by simp [absenceChecks])
  | crossColumn rule =>
    have key := RuleEngine.evaluateCrossColumnRule_key env df rule v (List.mem_of_head? reports)
    exact ⟨key.1, key.2, .inr (by rw [key.2]; decide)⟩
  | node n =>
    obtain ⟨vs, ran, head⟩ := Option.bind_eq_some_iff.mp reports
    cases executed : executeNode env df n with
    | error e =>
      rw [executed] at ran
      cases ran
    | ok vs' =>
      rw [executed] at ran
      obtain rfl := Option.some.inj ran
      have key := executeNode_name env df n _ executed v (List.mem_of_head? head)
      refine ⟨report_node_column env df n v reports, key.1, ?_⟩
      apply key.2.imp_right
      intro missing
      rw [missing]
      decide

omit [Float64 F] in
theorem crossColumn_of_name (check : Check F) (absent : check.name true ∈ absenceChecks) :
    ∃ rule, check = .crossColumn rule := by
  cases check with
  | crossColumn rule => exact ⟨rule, rfl⟩
  | field f => simp [name, absenceChecks] at absent
  | constraint f c => cases c <;> simp [name, SchemaValidator.constraintCheck, absenceChecks] at absent
  | quality rule =>
    cases metric : rule.metric <;>
      simp [name, metric, RuleEngine.metricName, absenceChecks] at absent
  | node n =>
    cases n
    case qualityMetricCheck column metric op threshold severity =>
      cases metric <;> simp [name, nodeCheckName, RuleEngine.metricName, absenceChecks] at absent
    all_goals simp [name, nodeCheckName, absenceChecks] at absent

omit [Float64 F] in
theorem crossColumn_of_cross (check : Check F) (present : Bool)
    (cross : check.name present = "cross_column_rule") : ∃ rule, check = .crossColumn rule := by
  cases present with
  | true => exact check.crossColumn_of_name (by rw [cross]; decide)
  | false =>
    cases check with
    | crossColumn rule => exact ⟨rule, rfl⟩
    | field f => simp [name] at cross
    | constraint f c => cases c <;> simp [name, SchemaValidator.constraintCheck] at cross
    | quality rule => simp [name] at cross
    | node n => cases n <;> simp [name, nodeCheckName] at cross

end Check

end Reports

/-- A check that changes its name from one frame to another takes no name that another check
    reports under on the first. -/
theorem renamed_apart {env : Env F} {a b : DataFrame F} {check other : Check F}
    {v w u : Violation F} (before : check.report env a = some v)
    (after : check.report env b = some w) (theirs : other.report env a = some u)
    (taken : sameKey u w = true) : sameKey v w = true := by
  have onA := check.report_named env a v before
  have onB := check.report_named env b w after
  have there := other.report_named env a u theirs
  obtain ⟨column, named⟩ : u.column = w.column ∧ u.check = w.check := by
    simpa [sameKey] using taken
  have same : check.name (a.column check.column).isSome = check.name (b.column check.column).isSome →
      sameKey v w = true := by
    intro unchanged
    simp [sameKey, onA.1, onB.1, onA.2.1, onB.2.1, unchanged]
  have crossed : (∃ rule, check = .crossColumn rule) → sameKey v w = true := by
    rintro ⟨rule, rfl⟩
    exact same rfl
  have place : other.column = check.column := by
    rw [← there.1, column, onB.1]
  rw [place] at there
  cases presentA : (a.column check.column).isSome with
  | true =>
    cases presentB : (b.column check.column).isSome with
    | true => exact same (by rw [presentA, presentB])
    | false =>
      -- the other check has its column, so what it says is not that it is missing
      have missing : w.check ∈ absenceChecks := by
        have either := onB.2.2
        rw [presentB] at either
        exact either.resolve_left Bool.false_ne_true
      rw [← named, there.2.1, presentA] at missing
      obtain ⟨rule, rfl⟩ := other.crossColumn_of_name missing
      exact crossed (check.crossColumn_of_cross _ (onB.2.1.symm.trans (named.symm.trans there.2.1)))
  | false =>
    cases presentB : (b.column check.column).isSome with
    | false => exact same (by rw [presentA, presentB])
    | true =>
      have missing : u.check ∈ absenceChecks := by
        have either := there.2.2
        rw [presentA] at either
        exact either.resolve_left Bool.false_ne_true
      rw [named, onB.2.1, presentB] at missing
      exact crossed (check.crossColumn_of_name missing)

end StatGuardian.Engine
