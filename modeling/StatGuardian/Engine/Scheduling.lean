import StatGuardian.Engine.Batch

namespace StatGuardian.Engine

open StatGuardian.Core Metrics Polars Stats Validators

variable {F : Type} [Float64 F]

section Columns

variable (env : Env F) (df : DataFrame F)

omit [Float64 F] in
theorem onSeries_column (column : String) (check : Series F → List (Violation F))
    (own : ∀ s, ∀ v ∈ check s, v.column = column) (v : Violation F)
    (reports : v ∈ onSeries df column check) : v.column = column := by
  unfold onSeries at reports
  split at reports
  · exact own _ v reports
  · cases reports

omit [Float64 F] in
theorem rowViolation_column {column check : String} {severity : Severity}
    {message : Nat → String} {rows : List Nat} {v : Violation F}
    (reports : rowViolation column check severity message rows = some v) :
    v.column = column := by
  obtain ⟨_, rfl⟩ := (rowViolation_eq_some ..).mp reports
  rfl

omit [Float64 F] in
theorem onSeries_failing_column {α : Type} (column check : String)
    (cells : Series F → Option (List (Option α))) (severity : Severity) (message : Nat → String)
    (fails : α → Bool) (v : Violation F) (reports : v ∈ onSeries df column fun s => Option.toList do
      let ca ← cells s
      rowViolation column check severity message (failingRows fails ca)) : v.column = column := by
  apply onSeries_column df column _ _ v reports
  intro s w member
  obtain ⟨ca, _, found⟩ := Option.bind_eq_some_iff.mp (Option.mem_toList.mp member)
  exact rowViolation_column found

omit [Float64 F] in
theorem onSeries_single_column (column : String) (p : Series F → Prop) [∀ s, Decidable (p s)]
    (w : Series F → Violation F) (own : ∀ s, (w s).column = column) (v : Violation F)
    (reports : v ∈ onSeries df column fun s => if p s then [w s] else []) : v.column = column := by
  apply onSeries_column df column _ _ v reports
  intro s u member
  split at member
  · rw [List.mem_singleton.mp member]
    exact own s
  · cases member

theorem detectOutliers_column (column method : String) (severity : Severity)
    (vs : List (Violation F)) (ran : detectOutliers env column method severity df = .ok vs)
    (v : Violation F) (reports : v ∈ vs) : v.column = column := by
  unfold detectOutliers at ran
  split at ran
  · cases ran
    cases reports
  · dsimp only at ran
    split at ran
    · cases ran
      cases reports
    · obtain ⟨indices, _, same⟩ := (Results.bind_ok_iff ..).mp ran
      obtain rfl := Except.ok.inj same
      exact rowViolation_column (Option.mem_toList.mp reports)

theorem executeNode_column (node : DagNode F) (vs : List (Violation F))
    (ran : executeNode env df node = .ok vs) (v : Violation F) (reports : v ∈ vs) :
    v.column = node.column := by
  cases node
  case outlierDetection column method severity =>
    exact detectOutliers_column env df column method severity vs ran v reports
  all_goals obtain rfl := Except.ok.inj ran
  case profile | typeCheck | driftCheck => cases reports
  case nullCheck | uniquenessCheck | duplicateDetection | nullAnomalyDetection | cardinalityCheck =>
    refine onSeries_single_column df _ _ _ ?_ v reports
    intro s
    rfl
  case rangeCheck | positiveCheck | negativeCheck | lenCheck | enumCheck =>
    exact onSeries_failing_column df _ _ _ _ _ _ v reports
  case qualityMetricCheck column metric op threshold severity =>
    obtain ⟨rule, member, reported⟩ := List.mem_flatMap.mp reports
    rw [List.mem_singleton.mp member] at reported
    exact (RuleEngine.evaluateRule_key env df _ v reported).1
  case regexCheck column pattern severity =>
    cases compiled : env.regex pattern with
    | error e =>
      simp only [compiled] at reports
      apply onSeries_column df column _ _ v reports
      intro s u member
      rw [List.mem_singleton.mp member]
      rfl
    | ok isMatch =>
      simp only [compiled] at reports
      exact onSeries_failing_column df _ _ _ _ _ _ v reports

theorem runNodes_column (column : String) (nodes : List (DagNode F))
    (own : ∀ node ∈ nodes, node.column = column) (vs : List (Violation F))
    (ran : runNodes env df nodes = .ok vs) (v : Violation F) (reports : v ∈ vs) :
    v.column = column := by
  induction nodes generalizing vs with
  | nil =>
    obtain rfl := Except.ok.inj ran
    cases reports
  | cons node nodes ih =>
    obtain ⟨first, own⟩ := List.forall_mem_cons.mp own
    obtain ⟨here, executed, ran⟩ := (Results.bind_ok_iff ..).mp ran
    have mine := executeNode_column env df node here executed
    split at ran
    · obtain rfl := Except.ok.inj ran
      exact (mine v reports).trans first
    · obtain ⟨more, rest, same⟩ := (Results.bind_ok_iff ..).mp ran
      obtain rfl := Except.ok.inj same
      rcases List.mem_append.mp reports with inside | later
      · exact (mine v inside).trans first
      · exact ih own more rest later

omit [Float64 F] in
theorem column_of_group (dag : ExecutionDag F) (group : String × List (DagNode F))
    (member : group ∈ Optimizer.groupByColumn dag) : ∀ node ∈ group.2, node.column = group.1 := by
  intro node inside
  have nodes := ((Optimizer.grouped_groupByColumn dag).entries group.1 group.2).mp member
  rw [nodes.1] at inside
  simpa using (List.mem_filter.mp inside).2

end Columns

section Visits

variable (env : Env F) (df : DataFrame F) (dag : ExecutionDag F)

/-- What the nodes of a group report, or nothing where a node does not return. -/
def groupResult (group : String × List (DagNode F)) : List (Violation F) :=
  (runNodes env df group.2).toOption.getD []

theorem groupResult_of_ran (group : String × List (DagNode F)) (vs : List (Violation F))
    (ran : runNodes env df group.2 = .ok vs) : groupResult env df group = vs := by
  rw [groupResult, ran]
  rfl

theorem filter_flatten_column (groups : List (String × List (DagNode F)))
    (known : ∀ group ∈ groups, group ∈ Optimizer.groupByColumn dag)
    (results : List (List (Violation F)))
    (ran : groups.mapM (fun group => runNodes env df group.2) = .ok results)
    (p : Violation F → Bool) (column : String) (only : ∀ v, p v = true → v.column = column) :
    results.flatten.filter p =
      ((groups.filter (fun group => group.1 = column)).map (groupResult env df)).flatten.filter
        p := by
  have related := (Results.mapM_ok_iff _ _ _).mp ran
  clear ran
  induction related with
  | nil => rfl
  | @cons group vs groups results head _ ih =>
    obtain ⟨first, known⟩ := List.forall_mem_cons.mp known
    rw [List.flatten_cons, List.filter_append, ih known]
    by_cases here : group.1 = column
    · rw [List.filter_cons_of_pos (by simpa using here), List.map_cons, List.flatten_cons,
        List.filter_append, groupResult_of_ran env df group vs head]
    · rw [List.filter_cons_of_neg (by simpa using here)]
      have none : vs.filter p = [] := by
        rw [List.filter_eq_nil_iff]
        intro v member chosen
        have own := runNodes_column env df group.1 group.2 (column_of_group dag group first) vs
          head v member
        exact here (own.symm.trans (only v chosen))
      rw [none, List.nil_append]

/-- Any visit meets the one group of a column, or none. -/
theorem visited_group (column : String) :
    (env.visit (Optimizer.groupByColumn dag)).filter (fun group => group.1 = column) =
      (Optimizer.groupByColumn dag).filter (fun group => group.1 = column) := by
  have order := (env.visit_perm (Optimizer.groupByColumn dag)).filter
    (fun group => group.1 = column)
  rw [Optimizer.groups_of_column] at order ⊢
  by_cases empty : (dag.nodes.filter (fun node => node.column == column)).isEmpty = true
  · rw [if_pos empty] at order ⊢
    exact List.perm_nil.mp order
  · rw [if_neg empty] at order ⊢
    exact List.perm_singleton.mp order

end Visits

/-- The same environment with the column groups in another environment's order. -/
def Env.visitedBy (env other : Env F) : Env F :=
  { env with visit := other.visit, visit_perm := other.visit_perm }

section Reports

variable (env other : Env F) (contract : DataContract F) (dag : ExecutionDag F) (df : DataFrame F)

theorem executeNode_visitedBy (node : DagNode F) :
    executeNode (Env.visitedBy env other) df node = executeNode env df node := rfl

theorem runNodes_visitedBy (nodes : List (DagNode F)) :
    runNodes (Env.visitedBy env other) df nodes = runNodes env df nodes := by
  induction nodes with
  | nil => rfl
  | cons node nodes ih => simp only [runNodes, executeNode_visitedBy, ih]

theorem dagViolations_ok_iff (vs : List (Violation F)) :
    dagViolations env dag df = .ok vs ↔ ∃ results,
      (env.visit (Optimizer.groupByColumn dag)).mapM (fun group => runNodes env df group.2) =
        .ok results ∧ vs = results.flatten := by
  simp only [dagViolations, Results.bind_ok_iff, pure, Except.pure, Except.ok.injEq]
  simp only [eq_comm]

omit [Float64 F] in
theorem keyOrder_column (a b : Violation F) (tie : (keyOrder a b == .eq) = true) :
    b.column = a.column := by
  rw [beq_iff_eq, keyOrder, compareLex_eq_eq] at tie
  have same : compare a.column b.column = .eq := tie.1
  exact (Std.LawfulEqCmp.eq_of_compare same).symm

/-- Another order of the groups brings the same violations of every column and check, in the same
    order. -/
theorem dagViolations_ties (vs : List (Violation F)) (ran : dagViolations env dag df = .ok vs) :
    ∃ vs', dagViolations (Env.visitedBy env other) dag df = .ok vs' ∧ ∀ a,
      vs'.filter (fun b => keyOrder a b == .eq) = vs.filter (fun b => keyOrder a b == .eq) := by
  obtain ⟨results, visited, rfl⟩ := (dagViolations_ok_iff env dag df vs).mp ran
  have order : (env.visit (Optimizer.groupByColumn dag)).Perm
      (other.visit (Optimizer.groupByColumn dag)) :=
    (env.visit_perm _).trans (other.visit_perm _).symm
  obtain ⟨results', visited', _⟩ := Results.mapM_perm _ order results visited
  refine ⟨results'.flatten, (dagViolations_ok_iff ..).mpr ⟨results', ?_, rfl⟩, fun a => ?_⟩
  · simp only [runNodes_visitedBy]
    exact visited'
  · have column := keyOrder_column a
    rw [filter_flatten_column env df dag _ (fun _ member => (env.visit_perm _).mem_iff.mp member)
        results visited _ a.column column,
      filter_flatten_column env df dag _ (fun _ member => (other.visit_perm _).mem_iff.mp member)
        results' visited' _ a.column column, visited_group, visited_group]

theorem execute_visitedBy (reference : Option (DataFrame F)) (report : ValidationReport F)
    (ran : BatchExecutor.execute env contract dag df reference = .ok report) :
    BatchExecutor.execute (Env.visitedBy env other) contract dag df reference = .ok report := by
  obtain ⟨violations, drift, profile, emits, drifts, profiled, rfl⟩ := (execute_ok_iff ..).mp ran
  obtain ⟨fromDag, visited, rfl⟩ := (emitted_ok_iff ..).mp emits
  obtain ⟨fromDag', visited', ties⟩ := dagViolations_ties env other dag df fromDag visited
  apply (execute_ok_iff ..).mpr
  refine ⟨_, drift, profile, (emitted_ok_iff ..).mpr ⟨fromDag', visited', rfl⟩, drifts, profiled, ?_⟩
  have merged : ∀ before : List (Violation F),
      mergeViolations (before ++ fromDag') = mergeViolations (before ++ fromDag) := by
    intro before
    unfold mergeViolations
    congr 1
    apply Slices.sortBy_eq_of_ties
    intro a
    rw [List.filter_append, List.filter_append, ties a]
  rw [merged]
  rfl

/-- The report is the same whatever the order in which the column groups are visited. -/
theorem report_visit_independent (reference : Option (DataFrame F))
    (report : ValidationReport F) :
    BatchExecutor.execute (Env.visitedBy env other) contract dag df reference = .ok report ↔
      BatchExecutor.execute env contract dag df reference = .ok report :=
  ⟨execute_visitedBy (Env.visitedBy env other) env contract dag df reference report,
    execute_visitedBy env other contract dag df reference report⟩

end Reports

end StatGuardian.Engine
