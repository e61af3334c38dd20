import StatGuardian.Engine.Batch

namespace StatGuardian.Engine

open StatGuardian.Core Metrics Polars Stats Validators

variable {F : Type}

/-- Every row that a violation lists is a row of a frame of the height. -/
def RowsBelow (height : Nat) (v : Violation F) : Prop := ∀ row ∈ v.rowIndices, row < height

section Cells

theorem rowsBelow_rowless {height : Nat} {v : Violation F} (rowless : v.rowIndices = []) :
    RowsBelow height v := by
  intro row listed
  rw [rowless] at listed
  cases listed

theorem rowsBelow_rowViolation {column check : String} {severity : Severity}
    {message : Nat → String} {rows : List Nat} {height : Nat} {v : Violation F}
    (reports : rowViolation column check severity message rows = some v)
    (below : ∀ row ∈ rows, row < height) : RowsBelow height v := by
  obtain ⟨_, rfl⟩ := (rowViolation_eq_some ..).mp reports
  exact below

theorem rowsBelow_failing {α : Type} {cells : Option (List (Option α))} {column check : String}
    {severity : Severity} {message : Nat → String} {fails : α → Bool} {height : Nat}
    {v : Violation F} (length : ∀ ca, cells = some ca → ca.length = height)
    (reports : (cells.bind fun ca =>
      rowViolation column check severity message (failingRows fails ca)) = some v) :
    RowsBelow height v := by
  obtain ⟨ca, read, reported⟩ := Option.bind_eq_some_iff.mp reports
  refine rowsBelow_rowViolation reported (fun row listed => ?_)
  rw [← length ca read]
  exact failingRows_lt fails ca row listed

theorem outlierValues_rows (ca : List (Option F)) (cell : Nat × F)
    (member : cell ∈ outlierValues ca) : cell.1 < ca.length := by
  obtain ⟨⟨value, i⟩, found, chosen⟩ := List.mem_filterMap.mp member
  obtain ⟨x, _, rfl⟩ := Option.map_eq_some_iff.mp chosen
  exact (List.getElem?_eq_some_iff.mp (List.mem_zipIdx_iff_getElem?.mp found)).1

theorem onSeries_rows (df : DataFrame F) (column : String) (check : Series F → List (Violation F))
    (each : ∀ s, ∀ v ∈ check s, RowsBelow s.len v) (v : Violation F)
    (reports : v ∈ onSeries df column check) : RowsBelow df.height v := by
  unfold onSeries at reports
  split at reports
  case h_1 s found =>
    obtain ⟨c, present, rfl⟩ := Option.map_eq_some_iff.mp found
    have below := each _ v reports
    rwa [df.column_len column c present] at below
  case h_2 => cases reports

theorem onSeries_failing {α : Type} (df : DataFrame F) (column check : String)
    (severity : Severity) (message : Nat → String) (fails : α → Bool)
    (read : Series F → Option (List (Option α)))
    (length : ∀ s ca, read s = some ca → ca.length = s.len) (v : Violation F)
    (reports : v ∈ onSeries df column fun s => Option.toList ((read s).bind fun ca =>
      rowViolation column check severity message (failingRows fails ca))) :
    RowsBelow df.height v :=
  onSeries_rows df column _
    (fun s _ listed => rowsBelow_failing (length s) (Option.mem_toList.mp listed)) v reports

theorem onSeries_rowless (df : DataFrame F) (column : String) (p : Series F → Prop)
    [∀ s, Decidable (p s)] (w : Series F → Violation F) (rowless : ∀ s, (w s).rowIndices = [])
    (v : Violation F) (reports : v ∈ onSeries df column fun s => if p s then [w s] else []) :
    RowsBelow df.height v := by
  refine onSeries_rows df column _ (fun s u listed => ?_) v reports
  split at listed
  · obtain rfl := List.mem_singleton.mp listed
    exact rowsBelow_rowless (rowless s)
  · cases listed

end Cells

variable [Float64 F]

section Producers

variable (env : Env F)

theorem checkConstraint_rows (series : Series F) (col : String) (c : Constraint F)
    (v : Violation F) (reports : SchemaValidator.checkConstraint env series col c = some v) :
    RowsBelow series.len v := by
  have casts := env.len_castF64 series
  have strings := series.len_str
  cases c
  case positive | negative | between | min | max => exact rowsBelow_failing casts reports
  case len | enum => exact rowsBelow_failing strings reports
  case regex pattern =>
    simp only [SchemaValidator.checkConstraint] at reports
    split at reports
    · cases reports
      exact rowsBelow_rowless rfl
    · exact rowsBelow_failing strings reports
  case coerce | foreignKey => cases reports
  case notNull | primaryKey | unique =>
    simp only [SchemaValidator.checkConstraint] at reports
    split at reports
    · cases reports
      exact rowsBelow_rowless rfl
    · cases reports

theorem validate_rows (df : DataFrame F) (fields : List (FieldDef F)) (v : Violation F)
    (reports : v ∈ SchemaValidator.validate env df fields) : RowsBelow df.height v := by
  obtain ⟨field, _, reported⟩ := List.mem_flatMap.mp reports
  unfold SchemaValidator.validateField at reported
  split at reported
  · obtain rfl := List.mem_singleton.mp reported
    exact rowsBelow_rowless rfl
  case h_2 col found =>
    rcases List.mem_append.mp reported with typed | constrained
    · unfold SchemaValidator.checkType at typed
      split at typed
      · cases typed
      · obtain rfl := List.mem_singleton.mp typed
        exact rowsBelow_rowless rfl
    · obtain ⟨c, _, here⟩ := List.mem_filterMap.mp constrained
      have below := checkConstraint_rows env col.asMaterializedSeries field.name c v here
      rwa [df.column_len field.name col found] at below

theorem evaluate_rows (df : DataFrame F) (rules : List (QualityRule F)) (v : Violation F)
    (reports : v ∈ RuleEngine.evaluate env df rules) : RowsBelow df.height v := by
  obtain ⟨rule, _, reported⟩ := List.mem_flatMap.mp reports
  unfold RuleEngine.evaluateRule at reported
  split at reported
  · obtain rfl := List.mem_singleton.mp reported
    exact rowsBelow_rowless rfl
  · split at reported
    · cases reported
    · split at reported
      · obtain rfl := List.mem_singleton.mp reported
        exact rowsBelow_rowless rfl
      · cases reported

theorem evaluateCrossColumn_rows (df : DataFrame F) (rules : List (CrossColumnRule F))
    (v : Violation F) (reports : v ∈ RuleEngine.evaluateCrossColumn env df rules) :
    RowsBelow df.height v := by
  obtain ⟨rule, _, reported⟩ := List.mem_flatMap.mp reports
  unfold RuleEngine.evaluateCrossColumnRule at reported
  split at reported
  · obtain rfl := List.mem_singleton.mp reported
    exact rowsBelow_rowless rfl
  · split at reported
    · obtain rfl := List.mem_singleton.mp reported
      exact rowsBelow_rowless rfl
    · refine rowsBelow_rowViolation (Option.mem_toList.mp reported) (fun row listed => ?_)
      exact List.mem_range.mp (List.mem_of_mem_filter listed)

end Producers

section Nodes

variable (env : Env F)

theorem outlierIndices_subset (method : String) (vals : List (Nat × F)) (indices : List Nat)
    (found : outlierIndices env method vals = .ok indices) :
    ∀ i ∈ indices, ∃ cell ∈ vals, cell.1 = i := by
  have kept : ∀ p : Nat × F → Bool, ∀ i ∈ (vals.filter p).map Prod.fst, ∃ cell ∈ vals, cell.1 = i := by
    intro p i listed
    obtain ⟨cell, inside, rfl⟩ := List.mem_map.mp listed
    exact ⟨cell, List.mem_of_mem_filter inside, rfl⟩
  unfold outlierIndices at found
  split at found
  · simp only [iqrOutliers, Results.bind_ok_iff] at found
    obtain ⟨sorted, _, found⟩ := found
    split at found
    · obtain rfl := Except.ok.inj found
      exact kept _
    · cases found
  · split at found
    · obtain rfl := Except.ok.inj found
      exact kept _
    · obtain rfl := Except.ok.inj found
      exact fun i listed => absurd listed List.not_mem_nil

theorem detectOutliers_rows (column method : String) (severity : Severity) (df : DataFrame F)
    (vs : List (Violation F)) (ran : detectOutliers env column method severity df = .ok vs)
    (v : Violation F) (reports : v ∈ vs) : RowsBelow df.height v := by
  simp only [detectOutliers] at ran
  split at ran
  · obtain rfl := Except.ok.inj ran
    cases reports
  case h_2 ca read =>
    split at ran
    · obtain rfl := Except.ok.inj ran
      cases reports
    · obtain ⟨indices, found, same⟩ := (Results.bind_ok_iff ..).mp ran
      obtain rfl := Except.ok.inj same
      obtain ⟨series, present, cast⟩ := Option.bind_eq_some_iff.mp read
      obtain ⟨c, column', rfl⟩ := Option.map_eq_some_iff.mp present
      refine rowsBelow_rowViolation (Option.mem_toList.mp reports) (fun row listed => ?_)
      obtain ⟨cell, inside, rfl⟩ := outlierIndices_subset env method _ indices found row listed
      have below := outlierValues_rows ca cell inside
      rwa [env.len_castF64 _ ca cast, df.column_len _ c column'] at below

theorem executeNode_rows (df : DataFrame F) (node : DagNode F) (vs : List (Violation F))
    (ran : executeNode env df node = .ok vs) (v : Violation F) (reports : v ∈ vs) :
    RowsBelow df.height v := by
  cases node
  case outlierDetection column method severity =>
    exact detectOutliers_rows env column method severity df vs ran v reports
  all_goals obtain rfl := Except.ok.inj ran
  case profile | typeCheck | driftCheck => cases reports
  case nullCheck | uniquenessCheck | duplicateDetection | nullAnomalyDetection | cardinalityCheck =>
    exact onSeries_rowless df _ _ _ (fun _ => rfl) v reports
  case rangeCheck | positiveCheck | negativeCheck =>
    exact onSeries_failing df _ _ _ _ _ _ env.len_castF64 v reports
  case lenCheck | enumCheck => exact onSeries_failing df _ _ _ _ _ _ Series.len_str v reports
  case qualityMetricCheck => exact evaluate_rows env df _ v reports
  case regexCheck column pattern severity =>
    cases compiled : env.regex pattern with
    | error e =>
      simp only [compiled] at reports
      refine onSeries_rows df column _ (fun s u listed => ?_) v reports
      obtain rfl := List.mem_singleton.mp listed
      exact rowsBelow_rowless rfl
    | ok isMatch =>
      simp only [compiled] at reports
      exact onSeries_failing df _ _ _ _ _ _ Series.len_str v reports

theorem runNodes_rows_below (df : DataFrame F) (nodes : List (DagNode F)) (vs : List (Violation F))
    (ran : runNodes env df nodes = .ok vs) (v : Violation F) (reports : v ∈ vs) :
    RowsBelow df.height v := by
  induction nodes generalizing vs with
  | nil =>
    obtain rfl := Except.ok.inj ran
    cases reports
  | cons node nodes ih =>
    obtain ⟨first, here, ran⟩ := (Results.bind_ok_iff ..).mp ran
    split at ran
    · obtain rfl := Except.ok.inj ran
      exact executeNode_rows env df node first here v reports
    · obtain ⟨more, rest, same⟩ := (Results.bind_ok_iff ..).mp ran
      obtain rfl := Except.ok.inj same
      rcases List.mem_append.mp reports with inFirst | inRest
      · exact executeNode_rows env df node first here v inFirst
      · exact ih more rest inRest

theorem dagViolations_rows (dag : ExecutionDag F) (df : DataFrame F) (vs : List (Violation F))
    (ran : dagViolations env dag df = .ok vs) (v : Violation F) (reports : v ∈ vs) :
    RowsBelow df.height v := by
  obtain ⟨results, each, same⟩ := (Results.bind_ok_iff ..).mp ran
  obtain rfl := Except.ok.inj same
  obtain ⟨group, member, inside⟩ := List.mem_flatten.mp reports
  obtain ⟨nodes, _, here⟩ := Results.forall₂_right ((Results.mapM_ok_iff ..).mp each) group member
  exact runNodes_rows_below env df nodes.2 group here v inside

theorem report_rows (contract : DataContract F) (dag : ExecutionDag F) (df : DataFrame F)
    (reference : Option (DataFrame F)) (report : ValidationReport F)
    (ran : BatchExecutor.execute env contract dag df reference = .ok report) (v : Violation F)
    (reports : v ∈ report.violations) : RowsBelow df.height v := by
  obtain ⟨violations, _, _, emits, _, _, rfl⟩ := (execute_ok_iff ..).mp ran
  have member := mem_of_mem_mergeViolations violations v reports
  obtain ⟨fromDag, dagRan, rfl⟩ := (emitted_ok_iff ..).mp emits
  rcases List.mem_append.mp member with direct | inDag
  · rcases List.mem_append.mp direct with direct | crossed
    · rcases List.mem_append.mp direct with schema | quality
      · exact validate_rows env df contract.schema v schema
      · exact evaluate_rows env df contract.qualityRules v quality
    · exact evaluateCrossColumn_rows env df contract.crossColumnRules v crossed
  · exact dagViolations_rows env dag df fromDag dagRan v inDag

end Nodes

end StatGuardian.Engine
