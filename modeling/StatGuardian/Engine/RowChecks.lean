import StatGuardian.Engine.Batch

namespace StatGuardian.Engine

open StatGuardian.Core Polars Stats Validators

/-- A check that reports at most once, always under the same column and name. -/
structure RowCheck (F : Type) where
  column : String
  check : String
  run : DataFrame F → Option (Violation F)

section Local

variable {F : Type}

def rowsOf (outcome : Option (Violation F)) : List Nat := outcome.elim [] (·.rowIndices)

def RowCheck.rows (check : RowCheck F) (df : DataFrame F) : List Nat := rowsOf (check.run df)

def RowCheck.Keyed (check : RowCheck F) : Prop :=
  ∀ df v, check.run df = some v → v.column = check.column ∧ v.check = check.check

/-- The check looks at each row by itself. -/
structure RowCheck.Local (check : RowCheck F) : Prop where
  rows_slice : ∀ df offset length i,
    i ∈ check.rows (df.slice offset length) ↔ i < length ∧ offset + i ∈ check.rows df
  reports_slice : ∀ df offset length,
    (check.run (df.slice offset length)).isSome = true → (check.run df).isSome = true
  rows_lt : ∀ df, ∀ i ∈ check.rows df, i < df.height

/-- The same for the part of a check that sees the series of its column. -/
structure CellWise (outcome : Series F → Option (Violation F)) : Prop where
  rows_slice : ∀ s offset length i, i ∈ rowsOf (outcome (s.slice offset length)) ↔
    i < length ∧ offset + i ∈ rowsOf (outcome s)
  reports_slice : ∀ s offset length,
    (outcome (s.slice offset length)).isSome = true → (outcome s).isSome = true
  rows_lt : ∀ s, ∀ i ∈ rowsOf (outcome s), i < s.len

def onColumn (column : String) (outcome : Series F → Option (Violation F)) (df : DataFrame F) :
    Option (Violation F) :=
  (df.column column).bind (fun c => outcome c.asMaterializedSeries)

theorem CellWise.onColumn {outcome : Series F → Option (Violation F)} (cells : CellWise outcome)
    (column check : String) : RowCheck.Local ⟨column, check, onColumn column outcome⟩ where
  rows_slice df offset length i := by
    simp only [RowCheck.rows, Engine.onColumn, DataFrame.column_slice]
    cases df.column column with
    | none => simp [rowsOf]
    | some c =>
      simp only [Option.map_some, Option.bind_some, Column.asMaterializedSeries_slice]
      exact cells.rows_slice _ offset length i
  reports_slice df offset length reports := by
    simp only [Engine.onColumn, DataFrame.column_slice] at reports ⊢
    cases found : df.column column with
    | none => simp [found] at reports
    | some c =>
      simp only [found, Option.map_some, Option.bind_some,
        Column.asMaterializedSeries_slice] at reports ⊢
      exact cells.reports_slice _ offset length reports
  rows_lt df i listed := by
    simp only [RowCheck.rows, Engine.onColumn] at listed
    cases found : df.column column with
    | none => simp [found, rowsOf] at listed
    | some c =>
      simp only [found, Option.bind_some] at listed
      rw [← df.column_len column c found]
      exact cells.rows_lt _ i listed

theorem rowsOf_rowViolation (column check : String) (severity : Severity) (message : Nat → String)
    (rows : List Nat) :
    rowsOf (rowViolation column check severity message rows : Option (Violation F)) = rows := by
  cases rows <;> rfl

/-- A way to read the cells of a series that reads a slice cell by cell. -/
structure Reads {α : Type} (read : Series F → Option (List (Option α))) : Prop where
  slice : ∀ s offset length, read (s.slice offset length) =
    (read s).map (fun cells => (cells.drop offset).take length)
  len : ∀ s cells, read s = some cells → cells.length = s.len

theorem CellWise.failing {α : Type} {read : Series F → Option (List (Option α))}
    (reads : Reads read) (column check : String) (severity : Severity) (message : Nat → String)
    (fails : α → Bool) :
    CellWise (fun s => (read s).bind (fun ca =>
      rowViolation column check severity message (failingRows fails ca))) where
  rows_slice s offset length i := by
    rw [reads.slice]
    cases read s with
    | none => simp [rowsOf]
    | some cells =>
      simp only [Option.map_some, Option.bind_some, rowsOf_rowViolation]
      exact mem_failingRows_slice fails cells offset length i
  reports_slice s offset length reports := by
    rw [reads.slice] at reports
    cases found : read s with
    | none => simp [found] at reports
    | some cells =>
      simp only [found, Option.map_some, Option.bind_some] at reports ⊢
      obtain ⟨v, reported⟩ := Option.isSome_iff_exists.mp reports
      obtain ⟨nonempty, _⟩ := (rowViolation_eq_some ..).mp reported
      obtain ⟨i, member⟩ := List.exists_mem_of_ne_nil _ nonempty
      have listed := ((mem_failingRows_slice fails cells offset length i).mp member).2
      rw [Option.isSome_iff_exists]
      exact ⟨_, (rowViolation_eq_some ..).mpr ⟨List.ne_nil_of_mem listed, rfl⟩⟩
  rows_lt s i listed := by
    cases found : read s with
    | none => simp [found, rowsOf] at listed
    | some cells =>
      simp only [found, Option.bind_some, rowsOf_rowViolation] at listed
      rw [← reads.len s cells found]
      exact failingRows_lt fails cells i listed

theorem CellWise.rowless {outcome : Series F → Option (Violation F)}
    (same : ∀ s offset length, outcome (s.slice offset length) = outcome s)
    (none : ∀ s, rowsOf (outcome s) = []) : CellWise outcome where
  rows_slice s offset length i := by simp [none]
  reports_slice s offset length reports := by rw [same] at reports; exact reports
  rows_lt s i listed := by rw [none] at listed; cases listed

theorem str_reads : Reads (Series.str (F := F)) := ⟨Series.str_slice, Series.len_str⟩

theorem onSeries_eq (df : DataFrame F) (column : String)
    (outcome : Series F → Option (Violation F)) :
    onSeries df column (fun s => (outcome s).toList) = (onColumn column outcome df).toList := by
  unfold onSeries getSeries onColumn
  cases df.column column <;> rfl

end Local

variable {F : Type} [Float64 F] (env : Env F)

theorem castF64_reads : Reads env.castF64 := ⟨env.castF64_slice, env.len_castF64⟩

section Schema

open SchemaValidator

def rowLevel : Constraint F → Bool
  | .positive | .negative | .between .. | .min _ | .max _ | .regex _ | .len .. | .enum _ => true
  | .notNull | .unique | .primaryKey | .coerce | .foreignKey .. => false

def existsCheck (field : FieldDef F) : RowCheck F where
  column := field.name
  check := "column_exists"
  run df :=
    match df.column field.name with
    | none => some (Violation.new field.name "column_exists"
        s!"column '{field.name}' not found in dataset" .blocking)
    | some _ => none

def typeCheck (field : FieldDef F) : RowCheck F where
  column := field.name
  check := "type_check"
  run := onColumn field.name (fun s => (checkType env s field).head?)

def constraintRowCheck (field : FieldDef F) (c : Constraint F) : RowCheck F where
  column := field.name
  check := (constraintCheck c).getD ""
  run := onColumn field.name (fun s => checkConstraint env s field.name c)

def fieldChecks (field : FieldDef F) : List (RowCheck F) :=
  existsCheck field :: typeCheck env field ::
    field.constraints.map (constraintRowCheck env field)

theorem validateField_eq (df : DataFrame F) (field : FieldDef F) :
    validateField env df field = (fieldChecks env field).filterMap (·.run df) := by
  unfold validateField fieldChecks existsCheck typeCheck constraintRowCheck onColumn
  cases found : df.column field.name with
  | none => simp [found, List.filterMap_map]
  | some col =>
    have type : checkType env col.asMaterializedSeries field =
        (checkType env col.asMaterializedSeries field).head?.toList := by
      unfold checkType
      split <;> rfl
    simp only [found, Option.bind_some, List.filterMap_cons, List.filterMap_map,
      Function.comp_def, checkConstraints]
    rw [type]
    cases (checkType env col.asMaterializedSeries field).head? <;> rfl

theorem fieldChecks_keyed (field : FieldDef F) (check : RowCheck F)
    (member : check ∈ fieldChecks env field) : check.Keyed := by
  intro df v reports
  simp only [fieldChecks, List.mem_cons, List.mem_map] at member
  rcases member with rfl | rfl | ⟨c, _, rfl⟩
  · simp only [existsCheck] at reports
    split at reports
    · cases reports; exact ⟨rfl, rfl⟩
    · cases reports
  · obtain ⟨col, _, reported⟩ := Option.bind_eq_some_iff.mp reports
    exact checkType_key env _ field v (List.mem_of_head? reported)
  · obtain ⟨col, _, reported⟩ := Option.bind_eq_some_iff.mp reports
    have key := checkConstraint_key env _ field.name c v reported
    exact ⟨key.1, by simp [constraintRowCheck, key.2]⟩

theorem checkConstraint_cellWise (column : String) (c : Constraint F) (row : rowLevel c = true) :
    CellWise (fun s => checkConstraint env s column c) := by
  cases c
  case notNull | unique | primaryKey | coerce | foreignKey => cases row
  case positive | negative | between | min | max =>
    exact CellWise.failing (castF64_reads env) column _ _ _ _
  case len | enum => exact CellWise.failing str_reads column _ _ _ _
  case regex pattern =>
    cases compiled : env.regex pattern with
    | error e =>
      simp only [checkConstraint, compiled]
      exact CellWise.rowless (fun _ _ _ => rfl) (fun _ => rfl)
    | ok isMatch =>
      simp only [checkConstraint, compiled]
      exact CellWise.failing str_reads column _ _ _ _

theorem fieldChecks_local (field : FieldDef F)
    (rows : ∀ c ∈ field.constraints, rowLevel c = true) (check : RowCheck F)
    (member : check ∈ fieldChecks env field) : check.Local := by
  simp only [fieldChecks, List.mem_cons, List.mem_map] at member
  rcases member with rfl | rfl | ⟨c, inside, rfl⟩
  · have none : ∀ df, (existsCheck field).rows df = [] := fun df => by
      simp only [RowCheck.rows, existsCheck]
      split <;> rfl
    refine ⟨fun df offset length i => by simp [none], fun df offset length reports => ?_,
      fun df i listed => ?_⟩
    · simp only [existsCheck, DataFrame.column_slice] at reports ⊢
      cases found : df.column field.name with
      | none => rfl
      | some c => simp [found] at reports
    · rw [none] at listed; cases listed
  · refine CellWise.onColumn (CellWise.rowless (fun _ _ _ => rfl) (fun s => ?_)) _ _
    unfold checkType
    split <;> rfl
  · exact (checkConstraint_cellWise env field.name c (rows c inside)).onColumn _ _

end Schema

section Nodes

def rowNode : DagNode F → Bool
  | .profile _ | .typeCheck .. => true
  | .regexCheck _ _ severity | .rangeCheck _ _ _ severity | .lenCheck _ _ _ severity
  | .enumCheck _ _ severity | .positiveCheck _ severity | .negativeCheck _ severity =>
    severity == .error
  | _ => false

def nodeName : DagNode F → String
  | .regexCheck .. => "regex"
  | .rangeCheck .. => "range_check"
  | .lenCheck .. => "len_check"
  | .enumCheck .. => "enum_check"
  | .positiveCheck .. => "positive_check"
  | .negativeCheck .. => "negative_check"
  | _ => ""

def nodeCheck (node : DagNode F) : RowCheck F where
  column := node.column
  check := nodeName node
  run df := (executeNode env df node).toOption.bind List.head?

/-- A row-level node reads its column cell by cell and reports at most once. -/
structure RowNode (node : DagNode F) (outcome : Series F → Option (Violation F)) : Prop where
  cells : CellWise outcome
  keyed : ∀ s v, outcome s = some v → v.column = node.column ∧ v.check = nodeName node ∧
    v.severity = .error
  runs : ∀ df, executeNode env df node = .ok (onColumn node.column outcome df).toList

theorem RowNode.failing {α : Type} {read : Series F → Option (List (Option α))}
    (reads : Reads read) (node : DagNode F) (message : Nat → String) (fails : α → Bool)
    (runs : ∀ df, executeNode env df node = .ok (onSeries df node.column fun s => Option.toList
      ((read s).bind (fun ca =>
        rowViolation node.column (nodeName node) .error message (failingRows fails ca))))) :
    RowNode env node (fun s => (read s).bind (fun ca =>
      rowViolation node.column (nodeName node) .error message (failingRows fails ca))) where
  cells := CellWise.failing reads _ _ _ _ _
  keyed s v reports := by
    obtain ⟨_, _, reported⟩ := Option.bind_eq_some_iff.mp reports
    obtain ⟨_, rfl⟩ := (rowViolation_eq_some ..).mp reported
    exact ⟨rfl, rfl, rfl⟩
  runs df := by rw [runs df, onSeries_eq]

theorem rowNode_outcome (node : DagNode F) (row : rowNode node = true) :
    ∃ outcome, RowNode env node outcome := by
  cases node
  case profile column | typeCheck column _ _ _ =>
    refine ⟨fun _ => none, CellWise.rowless (fun _ _ _ => rfl) (fun _ => rfl),
      fun _ _ reports => ?_, fun df => ?_⟩
    · cases reports
    · simp only [executeNode, onColumn]
      cases df.column _ <;> rfl
  case rangeCheck column min max severity =>
    obtain rfl := beq_iff_eq.mp row
    exact ⟨_, RowNode.failing env (castF64_reads env) (.rangeCheck column min max .error) _ _
      (fun _ => rfl)⟩
  case lenCheck column min max severity =>
    obtain rfl := beq_iff_eq.mp row
    exact ⟨_, RowNode.failing env str_reads (.lenCheck column min max .error) _ _ (fun _ => rfl)⟩
  case enumCheck column allowed severity =>
    obtain rfl := beq_iff_eq.mp row
    exact ⟨_, RowNode.failing env str_reads (.enumCheck column allowed .error) _ _ (fun _ => rfl)⟩
  case positiveCheck column severity =>
    obtain rfl := beq_iff_eq.mp row
    exact ⟨_, RowNode.failing env (castF64_reads env) (.positiveCheck column .error) _ _
      (fun _ => rfl)⟩
  case negativeCheck column severity =>
    obtain rfl := beq_iff_eq.mp row
    exact ⟨_, RowNode.failing env (castF64_reads env) (.negativeCheck column .error) _ _
      (fun _ => rfl)⟩
  case regexCheck column pattern severity =>
    obtain rfl := beq_iff_eq.mp row
    cases compiled : env.regex pattern with
    | error e =>
      refine ⟨fun _ => some (Violation.new column "regex" s!"invalid regex '{pattern}': {e}"
        .error), CellWise.rowless (fun _ _ _ => rfl) (fun _ => rfl), ?_, fun df => ?_⟩
      · rintro _ _ ⟨⟩; exact ⟨rfl, rfl, rfl⟩
      · rw [← onSeries_eq]
        simp only [executeNode, compiled]
        rfl
    | ok isMatch =>
      refine ⟨_, RowNode.failing env str_reads (.regexCheck column pattern .error)
        (fun n => s!"{n} value(s) don't match '{pattern}'") (fun s => ! isMatch s) (fun df => ?_)⟩
      simp only [executeNode, compiled]
      rfl
  all_goals cases row

theorem nodeCheck_run {node : DagNode F} {outcome : Series F → Option (Violation F)}
    (rowNode : RowNode env node outcome) (df : DataFrame F) :
    (nodeCheck env node).run df = onColumn node.column outcome df := by
  simp only [nodeCheck, rowNode.runs]
  cases onColumn node.column outcome df <;> rfl

theorem nodeCheck_keyed (node : DagNode F) (row : rowNode node = true) :
    (nodeCheck env node).Keyed := by
  obtain ⟨outcome, rowNode⟩ := rowNode_outcome env node row
  intro df v reports
  rw [nodeCheck_run env rowNode] at reports
  obtain ⟨c, _, reported⟩ := Option.bind_eq_some_iff.mp reports
  have key := rowNode.keyed _ v reported
  exact ⟨key.1, key.2.1⟩

theorem nodeCheck_local (node : DagNode F) (row : rowNode node = true) :
    (nodeCheck env node).Local := by
  obtain ⟨outcome, rowNode⟩ := rowNode_outcome env node row
  have same : nodeCheck env node = ⟨node.column, nodeName node, onColumn node.column outcome⟩ := by
    have run : (nodeCheck env node).run = onColumn node.column outcome :=
      funext (nodeCheck_run env rowNode)
    rw [← run]
    rfl
  rw [same]
  exact rowNode.cells.onColumn _ _

/-- No row-level node stops its group, so a group reports what its nodes do. -/
theorem runNodes_rows (df : DataFrame F) (nodes : List (DagNode F))
    (rows : ∀ node ∈ nodes, rowNode node = true) :
    runNodes env df nodes = .ok (nodes.filterMap (fun node => (nodeCheck env node).run df)) := by
  induction nodes with
  | nil => rfl
  | cons node rest ih =>
    obtain ⟨outcome, rowNode⟩ := rowNode_outcome env node (rows node List.mem_cons_self)
    have goesOn : ((onColumn node.column outcome df).toList.any (·.severity == .blocking)) =
        false := by
      rw [List.any_eq_false]
      intro v member
      rw [Option.mem_toList] at member
      obtain ⟨c, _, reported⟩ := Option.bind_eq_some_iff.mp member
      rw [(rowNode.keyed _ v reported).2.2]
      decide
    rw [List.filterMap_cons, nodeCheck_run env rowNode]
    simp only [runNodes, rowNode.runs, goesOn, bind, Except.bind, Bool.false_eq_true, ↓reduceIte,
      ih (fun other inside => rows other (List.mem_cons_of_mem _ inside)), pure, Except.pure]
    cases onColumn node.column outcome df <;> rfl

end Nodes

section Contract

/-- A contract whose only rules are row-level constraints of its schema. -/
structure RowLevel (contract : DataContract F) : Prop where
  constraints : ∀ field ∈ contract.schema, ∀ c ∈ field.constraints, rowLevel c = true
  quality : contract.qualityRules = []
  crossColumn : contract.crossColumnRules = []
  stats : contract.statsRules = []
  anomalies : contract.anomalyRules = []

def rowChecks (contract : DataContract F) : List (RowCheck F) :=
  contract.schema.flatMap (fieldChecks env) ++
    ((env.visit (Optimizer.groupByColumn (Compiler.compile contract))).flatMap Prod.snd).map
      (nodeCheck env)

variable {contract : DataContract F} (rowLevelOnly : RowLevel contract)

include rowLevelOnly

theorem compiled_rowNode (node : DagNode F) (member : node ∈ (Compiler.compile contract).nodes) :
    rowNode node = true := by
  have raw := Optimizer.mem_of_mem_optimize _ _ member
  simp only [Compiler.rawNodes, rowLevelOnly.quality, rowLevelOnly.stats, rowLevelOnly.anomalies,
    List.map_nil, List.append_nil, List.mem_flatMap] at raw
  obtain ⟨field, inside, raw⟩ := raw
  simp only [Compiler.fieldNodes, List.mem_cons, List.mem_filterMap] at raw
  rcases raw with rfl | rfl | ⟨c, declared, compiled⟩
  · rfl
  · rfl
  · have row := rowLevelOnly.constraints field inside c declared
    cases c <;> first | (cases compiled; rfl) | cases row

theorem visited_rowNode (node : DagNode F) (member : node ∈
    (env.visit (Optimizer.groupByColumn (Compiler.compile contract))).flatMap Prod.snd) :
    rowNode node = true := by
  obtain ⟨⟨column, nodes⟩, group, inside⟩ := List.mem_flatMap.mp member
  have entry := (env.visit_perm _).mem_iff.mp group
  obtain ⟨rfl, _⟩ := ((Optimizer.grouped_groupByColumn _).entries column nodes).mp entry
  exact compiled_rowNode rowLevelOnly node (List.mem_filter.mp inside).1

theorem rowChecks_keyed (check : RowCheck F) (member : check ∈ rowChecks env contract) :
    check.Keyed := by
  rcases List.mem_append.mp member with schema | dag
  · obtain ⟨field, _, inside⟩ := List.mem_flatMap.mp schema
    exact fieldChecks_keyed env field check inside
  · obtain ⟨node, inside, rfl⟩ := List.mem_map.mp dag
    exact nodeCheck_keyed env node (visited_rowNode env rowLevelOnly node inside)

theorem rowChecks_local (check : RowCheck F) (member : check ∈ rowChecks env contract) :
    check.Local := by
  rcases List.mem_append.mp member with schema | dag
  · obtain ⟨field, declared, inside⟩ := List.mem_flatMap.mp schema
    exact fieldChecks_local env field (rowLevelOnly.constraints field declared) check inside
  · obtain ⟨node, inside, rfl⟩ := List.mem_map.mp dag
    exact nodeCheck_local env node (visited_rowNode env rowLevelOnly node inside)

theorem emitted_rowChecks (df : DataFrame F) :
    emitted env contract (Compiler.compile contract) df =
      .ok ((rowChecks env contract).filterMap (·.run df)) := by
  have groups : ∀ groups : List (String × List (DagNode F)),
      (∀ node ∈ groups.flatMap Prod.snd, rowNode node = true) →
      groups.mapM (fun group => runNodes env df group.2) =
        .ok (groups.map (fun group =>
          group.2.filterMap (fun node => (nodeCheck env node).run df))) := by
    intro groups rows
    induction groups with
    | nil => rfl
    | cons group rest ih =>
      rw [List.flatMap_cons] at rows
      rw [List.mapM_cons, runNodes_rows env df group.2
        (fun node inside => rows node (List.mem_append_left _ inside)),
        ih (fun node inside => rows node (List.mem_append_right _ inside))]
      rfl
  refine (emitted_ok_iff ..).mpr ⟨(((env.visit (Optimizer.groupByColumn
    (Compiler.compile contract))).flatMap Prod.snd).map (nodeCheck env)).filterMap (·.run df),
    ?_, ?_⟩
  · simp only [dagViolations, groups _ (visited_rowNode env rowLevelOnly), bind, Except.bind, pure,
      Except.pure, Except.ok.injEq]
    rw [List.filterMap_map, ← List.flatMap_def, List.filterMap_flatMap]
    rfl
  · have schema : SchemaValidator.validate env df contract.schema =
        (contract.schema.flatMap (fieldChecks env)).filterMap (·.run df) := by
      rw [List.filterMap_flatMap]
      exact List.flatMap_congr (fun field _ => validateField_eq env df field)
    simp only [rowChecks, List.filterMap_append, schema, rowLevelOnly.quality,
      rowLevelOnly.crossColumn]
    simp [RuleEngine.evaluate, RuleEngine.evaluateCrossColumn]

end Contract

end StatGuardian.Engine
