import StatGuardian.Engine.Scheduling
import StatGuardian.Library.FirstWins

namespace StatGuardian.Engine

open StatGuardian.Core Metrics Polars Stats Validators

/-- One check of a contract; a field on its own is checked for its existence and its type. -/
inductive Check (F : Type) where
  | field (f : FieldDef F)
  | constraint (f : FieldDef F) (c : Constraint F)
  | quality (rule : QualityRule F)
  | crossColumn (rule : CrossColumnRule F)
  | node (n : DagNode F)

variable {F : Type} [Float64 F]

namespace Check

def report (env : Env F) (df : DataFrame F) : Check F → Option (Violation F)
  | .field f =>
    match df.column f.name with
    | none => (SchemaValidator.validateField env df f).head?
    | some col => (SchemaValidator.checkType env col.asMaterializedSeries f).head?
  | .constraint f c => do
    let col ← df.column f.name
    SchemaValidator.checkConstraint env col.asMaterializedSeries f.name c
  | .quality rule => (RuleEngine.evaluateRule env df rule).head?
  | .crossColumn rule => (RuleEngine.evaluateCrossColumnRule env df rule).head?
  | .node n => (executeNode env df n).toOption.bind List.head?

def ofField (f : FieldDef F) : List (Check F) :=
  .field f :: f.constraints.map (.constraint f)

/-- The schema, the quality rules and the rules over columns, in the order they are evaluated. -/
def direct (contract : DataContract F) : List (Check F) :=
  contract.schema.flatMap ofField ++ contract.qualityRules.map .quality ++
    contract.crossColumnRules.map .crossColumn

def blocks (env : Env F) (df : DataFrame F) (check : Check F) : Bool :=
  (check.report env df).any (·.severity == .blocking)

/-- A node that blocks keeps the later nodes of its column from running. -/
def hides (env : Env F) (df : DataFrame F) : Check F → Check F → Bool
  | .node earlier, .node later => earlier.column == later.column && (node earlier).blocks env df
  | _, _ => false

def isHidden (env : Env F) (df : DataFrame F) (before : List (Check F)) (check : Check F) : Bool :=
  before.any (fun earlier => hides env df earlier check)

def heard (env : Env F) (df : DataFrame F) (checks : List (Check F)) (i : Nat) :
    Option (Violation F) := do
  let check ← checks[i]?
  if isHidden env df (checks.take i) check then none else check.report env df

def shadowed (env : Env F) (df : DataFrame F) (checks : List (Check F)) (i : Nat)
    (v : Violation F) : Bool :=
  (List.range i).any (fun j => (heard env df checks j).any (sameKey · v))

/-- What is left of it after the violations of one column and check name are merged. -/
def counted (env : Env F) (df : DataFrame F) (checks : List (Check F)) (i : Nat) :
    Option (Violation F) :=
  FirstWins.first sameKey (heard env df checks) i

theorem counted_eq (env : Env F) (df : DataFrame F) (checks : List (Check F)) (i : Nat) :
    counted env df checks i =
      (heard env df checks i).filter (fun v => ! shadowed env df checks i v) := rfl

def allHeard (env : Env F) (df : DataFrame F) (checks : List (Check F)) : List (Violation F) :=
  FirstWins.allHeard (heard env df checks) checks.length

end Check

def checksOf (contract : DataContract F) : List (Check F) :=
  Check.direct contract ++ (Compiler.compile contract).nodes.map .node

section Single

variable (env : Env F) (df : DataFrame F)

omit [Float64 F] in
theorem toList_head {α : Type} (xs : List α) (single : xs.length ≤ 1) : xs.head?.toList = xs := by
  cases xs with
  | nil => rfl
  | cons a rest =>
    rw [List.length_cons] at single
    obtain rfl : rest = [] := List.length_eq_zero_iff.mp (by omega)
    rfl

omit [Float64 F] in
theorem flatMap_single {α β : Type} (f : α → List β) (single : ∀ a, (f a).length ≤ 1)
    (xs : List α) : xs.flatMap f = xs.filterMap (fun a => (f a).head?) := by
  rw [List.filterMap_eq_flatMap_toList]
  exact List.flatMap_congr fun a _ => (toList_head (f a) (single a)).symm

omit [Float64 F] in
theorem length_toList_le {α : Type} (a : Option α) : a.toList.length ≤ 1 := by
  cases a <;> simp

omit [Float64 F] in
theorem length_ite_le {α : Type} (p : Prop) [Decidable p] (a : α) :
    (if p then [a] else []).length ≤ 1 := by
  split <;> simp

omit [Float64 F] in
theorem length_onSeries_le (column : String) (check : Series F → List (Violation F))
    (single : ∀ s, (check s).length ≤ 1) : (onSeries df column check).length ≤ 1 := by
  unfold onSeries
  split
  · exact single _
  · exact Nat.zero_le 1

theorem length_checkType_le (series : Series F) (field : FieldDef F) :
    (SchemaValidator.checkType env series field).length ≤ 1 := by
  unfold SchemaValidator.checkType
  split <;> simp

theorem length_evaluateRule_le (rule : QualityRule F) :
    (RuleEngine.evaluateRule env df rule).length ≤ 1 := by
  unfold RuleEngine.evaluateRule
  split
  · simp
  · split
    · simp
    · exact length_ite_le _ _

theorem length_evaluateCrossColumnRule_le (rule : CrossColumnRule F) :
    (RuleEngine.evaluateCrossColumnRule env df rule).length ≤ 1 := by
  unfold RuleEngine.evaluateCrossColumnRule
  split
  · simp
  · split
    · simp
    · exact length_toList_le _

theorem length_executeNode_le (node : DagNode F) (vs : List (Violation F))
    (ran : executeNode env df node = .ok vs) : vs.length ≤ 1 := by
  cases node
  case outlierDetection column method severity =>
    rw [executeNode, detectOutliers] at ran
    split at ran
    · cases ran
      exact Nat.zero_le 1
    · dsimp only at ran
      split at ran
      · cases ran
        exact Nat.zero_le 1
      · obtain ⟨indices, _, same⟩ := (Results.bind_ok_iff ..).mp ran
        obtain rfl := Except.ok.inj same
        exact length_toList_le _
  all_goals obtain rfl := Except.ok.inj ran
  case profile | typeCheck | driftCheck => exact Nat.zero_le 1
  case nullCheck | uniquenessCheck | duplicateDetection | nullAnomalyDetection | cardinalityCheck =>
    exact length_onSeries_le df _ _ fun s => length_ite_le _ _
  case rangeCheck | positiveCheck | negativeCheck | lenCheck | enumCheck =>
    exact length_onSeries_le df _ _ fun s => length_toList_le _
  case qualityMetricCheck column metric op threshold severity =>
    rw [RuleEngine.evaluate, List.flatMap_singleton]
    exact length_evaluateRule_le env df _
  case regexCheck column pattern severity =>
    cases env.regex pattern with
    | error e => exact length_onSeries_le df _ _ fun s => Nat.le_refl 1
    | ok isMatch => exact length_onSeries_le df _ _ fun s => length_toList_le _

theorem report_node (node : DagNode F) (vs : List (Violation F))
    (ran : executeNode env df node = .ok vs) :
    ((Check.node node).report env df).toList = vs := by
  rw [Check.report, ran]
  exact toList_head vs (length_executeNode_le env df node vs ran)

theorem report_node_column (node : DagNode F) (v : Violation F)
    (reports : (Check.node node).report env df = some v) : v.column = node.column := by
  rw [Check.report, Option.bind_eq_some_iff] at reports
  obtain ⟨vs, ran, head⟩ := reports
  cases executed : executeNode env df node with
  | error e => rw [executed] at ran; cases ran
  | ok vs' =>
    rw [executed] at ran
    obtain rfl := Option.some.inj ran
    exact executeNode_column env df node _ executed v (List.mem_of_mem_head? head)

end Single

section Heard

variable (env : Env F) (df : DataFrame F)

open Check

theorem allHeard_append_one (checks : List (Check F)) (check : Check F) :
    allHeard env df (checks ++ [check]) = allHeard env df checks ++
      (if isHidden env df checks check then none else check.report env df).toList := by
  have earlier : ∀ i < checks.length,
      heard env df (checks ++ [check]) i = heard env df checks i := by
    intro i below
    rw [heard, heard, List.getElem?_append_left below, List.take_append_of_le_length below.le]
  have last : heard env df (checks ++ [check]) checks.length =
      if isHidden env df checks check then none else check.report env df := by
    rw [heard, List.getElem?_append_right (Nat.le_refl _), Nat.sub_self, List.take_left]
    rfl
  rw [allHeard, List.length_append, List.length_singleton, FirstWins.allHeard_succ, last]
  congr 1
  exact List.filterMap_congr fun i member => earlier i (List.mem_range.mp member)

theorem allHeard_append (xs ys : List (Check F))
    (apart : ∀ x ∈ xs, ∀ y ∈ ys, hides env df x y = false) :
    allHeard env df (xs ++ ys) = allHeard env df xs ++ allHeard env df ys := by
  induction ys using List.reverseRecOn with
  | nil => rw [List.append_nil]; exact (List.append_nil _).symm
  | append_singleton ys y ih =>
    have silent : xs.any (fun earlier => hides env df earlier y) = false := by
      simp only [List.any_eq_false, Bool.not_eq_true]
      exact fun x member => apart x member y (by simp)
    rw [← List.append_assoc, allHeard_append_one, allHeard_append_one,
      ih fun x member z inside => apart x member z (List.mem_append_left _ inside),
      List.append_assoc, isHidden, List.any_append, silent, Bool.false_or, isHidden]

theorem allHeard_open (checks : List (Check F))
    (apart : ∀ x ∈ checks, ∀ y ∈ checks, hides env df x y = false) :
    allHeard env df checks = checks.filterMap (report env df) := by
  induction checks using List.reverseRecOn with
  | nil => rfl
  | append_singleton checks check ih =>
    have silent : isHidden env df checks check = false := by
      simp only [isHidden, List.any_eq_false, Bool.not_eq_true]
      exact fun x member => apart x (List.mem_append_left _ member) check (by simp)
    rw [allHeard_append_one, silent, List.filterMap_append,
      ih fun x member y inside => apart x (List.mem_append_left _ member) y
        (List.mem_append_left _ inside)]
    cases reported : check.report env df <;> simp [reported]

theorem allHeard_nodes_filter (column : String) (nodes : List (DagNode F)) :
    (allHeard env df (nodes.map .node)).filter (fun v => v.column == column) =
      allHeard env df ((nodes.filter (fun node => node.column == column)).map .node) := by
  induction nodes using List.reverseRecOn with
  | nil => rfl
  | append_singleton nodes node ih =>
    rw [List.map_append, List.map_singleton, allHeard_append_one, List.filter_append, ih,
      List.filter_append]
    by_cases here : node.column = column
    · have taken : [node].filter (fun node => node.column == column) = [node] := by
        simp [here]
      have same : isHidden env df (nodes.map .node) (.node node) = isHidden env df
          ((nodes.filter (fun node => node.column == column)).map .node) (.node node) := by
        rw [isHidden, isHidden, List.any_map, List.any_map, List.any_filter]
        congr 1
        funext earlier
        simp only [Function.comp, hides, here]
        cases earlier.column == column <;> rfl
      rw [taken, List.map_append, List.map_singleton, allHeard_append_one, same]
      congr 1
      rw [List.filter_eq_self]
      intro v member
      have reported : (Check.node node).report env df = some v := by
        split at member
        · cases member
        · exact Option.mem_toList.mp member
      rw [report_node_column env df node v reported, beq_iff_eq]
      exact here
    · have skipped : [node].filter (fun node => node.column == column) = [] := by
        simp [here]
      rw [skipped, List.append_nil]
      have silent : (if isHidden env df (nodes.map .node) (.node node) then none
          else (Check.node node).report env df).toList.filter (fun v => v.column == column) =
          [] := by
        rw [List.filter_eq_nil_iff]
        intro v member chosen
        split at member
        · cases member
        · have own := report_node_column env df node v (Option.mem_toList.mp member)
          exact here (own.symm.trans (beq_iff_eq.mp chosen))
      rw [silent, List.append_nil]

end Heard

section Producers

variable (env : Env F) (df : DataFrame F)

open Check

theorem validateField_checks (f : FieldDef F) :
    SchemaValidator.validateField env df f = (ofField f).filterMap (report env df) := by
  rw [ofField, List.filterMap_cons, List.filterMap_map]
  unfold SchemaValidator.validateField
  cases found : df.column f.name with
  | none =>
    have silent : f.constraints.filterMap (report env df ∘ Check.constraint f) = [] := by
      simp [report, found]
    simp only [report, found, SchemaValidator.validateField, List.head?_cons, silent]
  | some col =>
    have own : f.constraints.filterMap (report env df ∘ Check.constraint f) =
        SchemaValidator.checkConstraints env col.asMaterializedSeries f.constraints f.name :=
      List.filterMap_congr fun c _ => by simp [report, found]
    have typed := toList_head _ (length_checkType_le env col.asMaterializedSeries f)
    simp only [own, report, found]
    rw [← typed]
    cases (SchemaValidator.checkType env col.asMaterializedSeries f).head? <;> rfl

theorem direct_reports (contract : DataContract F) :
    SchemaValidator.validate env df contract.schema ++
        RuleEngine.evaluate env df contract.qualityRules ++
        RuleEngine.evaluateCrossColumn env df contract.crossColumnRules =
      (direct contract).filterMap (report env df) := by
  rw [direct, List.filterMap_append, List.filterMap_append, List.filterMap_flatMap,
    List.filterMap_map, List.filterMap_map, SchemaValidator.validate, RuleEngine.evaluate,
    RuleEngine.evaluateCrossColumn, flatMap_single _ (length_evaluateRule_le env df),
    flatMap_single _ (length_evaluateCrossColumnRule_le env df)]
  congr 2
  exact List.flatMap_congr fun f _ => validateField_checks env df f

omit [Float64 F] in
theorem not_node_of_direct (contract : DataContract F) (check : Check F)
    (member : check ∈ direct contract) (n : DagNode F) : check ≠ .node n := by
  rintro rfl
  simp [direct, ofField] at member

theorem not_hides_of_direct (contract : DataContract F) (check : Check F)
    (member : check ∈ direct contract) (later : Check F) : hides env df check later = false := by
  cases check with
  | node n => exact absurd rfl (not_node_of_direct contract _ member n)
  | _ => rfl

theorem allHeard_checksOf (contract : DataContract F) :
    allHeard env df (checksOf contract) = (direct contract).filterMap (report env df) ++
      allHeard env df ((Compiler.compile contract).nodes.map .node) := by
  rw [checksOf, allHeard_append env df _ _
      fun check member later _ => not_hides_of_direct env df contract check member later,
    allHeard_open env df _
      fun check member later _ => not_hides_of_direct env df contract check member later]

end Producers

section Plan

variable (env : Env F) (df : DataFrame F)

open Check

theorem runNodes_append_one (nodes : List (DagNode F)) (node : DagNode F)
    (vs : List (Violation F)) (ran : runNodes env df (nodes ++ [node]) = .ok vs) :
    ∃ before, runNodes env df nodes = .ok before ∧
      if before.any (·.severity == .blocking) then vs = before
      else ∃ here, executeNode env df node = .ok here ∧ vs = before ++ here := by
  induction nodes generalizing vs with
  | nil =>
    refine ⟨[], rfl, ?_⟩
    obtain ⟨here, executed, ran⟩ := (Results.bind_ok_iff ..).mp ran
    refine ⟨here, executed, ?_⟩
    split at ran
    · exact (Except.ok.inj ran).symm
    · exact (Except.ok.inj ran).symm.trans (List.append_nil here)
  | cons first nodes ih =>
    obtain ⟨here, executed, ran⟩ := (Results.bind_ok_iff ..).mp ran
    by_cases stops : here.any (·.severity == .blocking) = true
    · rw [if_pos stops] at ran
      refine ⟨here, ?_, ?_⟩
      · simp only [runNodes, executed, bind, Except.bind, stops, if_true]
        rfl
      · rw [if_pos stops]
        exact (Except.ok.inj ran).symm
    · rw [if_neg stops] at ran
      obtain ⟨more, later, same⟩ := (Results.bind_ok_iff ..).mp ran
      obtain rfl := Except.ok.inj same
      obtain ⟨before, ranBefore, rest⟩ := ih more later
      refine ⟨here ++ before, ?_, ?_⟩
      · simp only [runNodes, executed, bind, Except.bind, stops, ranBefore]
        rfl
      · rw [List.any_append, Bool.eq_false_iff.mpr stops, Bool.false_or]
        split at rest
        · rename_i blocked
          rw [if_pos blocked, rest]
        · rename_i free
          rw [if_neg free]
          obtain ⟨own, executed', rfl⟩ := rest
          exact ⟨own, executed', (List.append_assoc ..).symm⟩

section OneColumn

variable {column : String} (nodes : List (DagNode F))
  (own : ∀ node ∈ nodes, node.column = column)
include own

theorem isHidden_of_column (node : DagNode F) (here : node.column = column) :
    isHidden env df (nodes.map .node) (.node node) =
      nodes.any (fun earlier => (Check.node earlier).blocks env df) := by
  rw [isHidden, List.any_map, Bool.eq_iff_iff, List.any_eq_true, List.any_eq_true]
  refine exists_congr fun earlier => and_congr_right fun member => ?_
  simp only [Function.comp, hides, own earlier member, here, BEq.rfl, Bool.true_and]

/-- Whether a node of the column blocks can be read off what is heard of it. -/
theorem allHeard_blocks :
    (allHeard env df (nodes.map .node)).any (·.severity == .blocking) =
      nodes.any (fun node => (Check.node node).blocks env df) := by
  induction nodes using List.reverseRecOn with
  | nil => rfl
  | append_singleton nodes node ih =>
    have earlier : ∀ node ∈ nodes, node.column = column :=
      fun other member => own other (List.mem_append_left _ member)
    rw [List.map_append, List.map_singleton, allHeard_append_one, List.any_append, ih earlier,
      List.any_append, isHidden_of_column env df nodes earlier node (own node (by simp))]
    cases nodes.any (fun node => (Check.node node).blocks env df) with
    | true => rfl
    | false =>
      simp only [Bool.false_or, blocks, List.any_cons, List.any_nil, Bool.or_false]
      cases (Check.node node).report env df <;> simp

theorem runNodes_heard (vs : List (Violation F)) (ran : runNodes env df nodes = .ok vs) :
    vs = allHeard env df (nodes.map .node) := by
  induction nodes using List.reverseRecOn generalizing vs with
  | nil => exact (Except.ok.inj ran).symm
  | append_singleton nodes node ih =>
    have earlier : ∀ node ∈ nodes, node.column = column :=
      fun other member => own other (List.mem_append_left _ member)
    obtain ⟨before, ranBefore, rest⟩ := runNodes_append_one env df nodes node vs ran
    obtain rfl := ih earlier before ranBefore
    rw [allHeard_blocks env df nodes earlier] at rest
    rw [List.map_append, List.map_singleton, allHeard_append_one,
      isHidden_of_column env df nodes earlier node (own node (by simp))]
    split at rest
    · rename_i blocked
      rw [if_pos blocked, rest]
      exact (List.append_nil _).symm
    · rename_i free
      obtain ⟨here, executed, rfl⟩ := rest
      rw [if_neg free, report_node env df node here executed]

end OneColumn

theorem groups_heard (dag : ExecutionDag F) (column : String)
    (returned : ∀ group ∈ Optimizer.groupByColumn dag, ∃ vs, runNodes env df group.2 = .ok vs) :
    (((Optimizer.groupByColumn dag).filter (fun group => group.1 = column)).map
        (groupResult env df)).flatten =
      allHeard env df ((dag.nodes.filter (fun node => node.column == column)).map .node) := by
  have own : ∀ node ∈ dag.nodes.filter (fun node => node.column == column),
      node.column = column := fun node member => by simpa using (List.mem_filter.mp member).2
  have groups := Optimizer.groups_of_column dag column
  rw [groups]
  split
  · rename_i empty
    rw [List.isEmpty_iff.mp empty]
    rfl
  · rename_i some
    rw [if_neg some] at groups
    have member : (column, dag.nodes.filter (fun node => node.column == column)) ∈
        Optimizer.groupByColumn dag := by
      apply List.mem_of_mem_filter
      rw [groups]
      exact List.mem_singleton_self _
    obtain ⟨vs, ran⟩ := returned _ member
    rw [List.map_singleton, List.flatten_singleton, groupResult_of_ran env df _ vs ran]
    exact runNodes_heard env df _ own vs ran

/-- Whatever order the groups are visited in, a column's violations come as the plan has them. -/
theorem dagViolations_heard (dag : ExecutionDag F) (vs : List (Violation F))
    (ran : dagViolations env dag df = .ok vs) (p : Violation F → Bool) (column : String)
    (only : ∀ v, p v = true → v.column = column) :
    vs.filter p = (allHeard env df (dag.nodes.map .node)).filter p := by
  obtain ⟨results, visited, rfl⟩ := (dagViolations_ok_iff env dag df vs).mp ran
  have returned : ∀ group ∈ Optimizer.groupByColumn dag,
      ∃ vs, runNodes env df group.2 = .ok vs := by
    intro group member
    exact (Results.mapM_returns_iff _ _).mp ⟨results, visited⟩ group
      ((env.visit_perm _).mem_iff.mpr member)
  rw [filter_flatten_column env df dag _ (fun _ member => (env.visit_perm _).mem_iff.mp member)
      results visited p column only, visited_group, groups_heard env df dag column returned,
    ← allHeard_nodes_filter, List.filter_filter]
  apply List.filter_congr
  intro v _
  cases chosen : p v with
  | false => rfl
  | true => simp [only v chosen]

/-- What is merged under a key first is the first that is heard under it. -/
theorem emitted_heard (contract : DataContract F) (violations : List (Violation F))
    (emits : emitted env contract (Compiler.compile contract) df = .ok violations)
    (v : Violation F) :
    violations.find? (fun w => sameKey w v) =
      (allHeard env df (checksOf contract)).find? (fun w => sameKey w v) := by
  obtain ⟨fromDag, ran, rfl⟩ := (emitted_ok_iff ..).mp emits
  have column : ∀ w, sameKey w v = true → w.column = v.column := by
    intro w same
    exact beq_iff_eq.mp (Bool.and_eq_true_iff.mp same).1
  rw [allHeard_checksOf, direct_reports, List.find?_append, List.find?_append]
  congr 1
  rw [← List.head?_filter, ← List.head?_filter,
    dagViolations_heard env df (Compiler.compile contract) fromDag ran _ v.column column]

end Plan

end StatGuardian.Engine
