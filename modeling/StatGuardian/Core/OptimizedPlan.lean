import Mathlib.Data.String.Basic
import StatGuardian.Core.Optimizer

namespace StatGuardian.Core.Optimizer

variable {F : Type}

section Order

theorem compare_string_lt (a b : String) : compare a b = .lt ↔ a < b :=
  compareOfLessAndEq_eq_lt

theorem beq_iff_compare_string (a b : String) : (a == b) = true ↔ compare a b = .eq := by
  rw [beq_iff_eq, Std.compare_eq_iff_eq]

instance planOrder_trans : Std.TransCmp (planOrder (F := F)) := by
  unfold planOrder
  infer_instance

theorem planOrder_lt_iff (a b : DagNode F) : planOrder a b = .lt ↔
    a.column < b.column ∨ a.column = b.column ∧
      (sevOrder a < sevOrder b ∨ sevOrder a = sevOrder b ∧ a.cost < b.cost) := by
  simp only [planOrder, compareLex, compareOn, Ordering.then_eq_lt, compare_string_lt,
    Nat.compare_eq_lt, Std.compare_eq_iff_eq]

theorem planOrder_eq_iff (a b : DagNode F) : planOrder a b = .eq ↔
    a.column = b.column ∧ sevOrder a = sevOrder b ∧ a.cost = b.cost := by
  simp only [planOrder, compareLex, compareOn, Ordering.then_eq_eq, Std.compare_eq_iff_eq]

end Order

section Passes

variable [DecidableEq F]

theorem deduplicateAfter_ordered (seen nodes : List (DagNode F)) :
    (deduplicateAfter seen nodes).Pairwise (fun a b => nodes.idxOf a < nodes.idxOf b) := by
  induction nodes generalizing seen with
  | nil => exact .nil
  | cons node rest ih =>
    have later : ∀ {kept : List (DagNode F)}, (∀ a ∈ kept, a ≠ node) →
        kept.Pairwise (fun a b => rest.idxOf a < rest.idxOf b) →
        kept.Pairwise (fun a b => (node :: rest).idxOf a < (node :: rest).idxOf b) := by
      intro kept different ordered
      refine ordered.imp_of_mem ?_
      intro a b member member' less
      rw [List.idxOf_cons_ne _ (different a member).symm,
        List.idxOf_cons_ne _ (different b member').symm]
      exact Nat.succ_lt_succ less
    unfold deduplicateAfter
    split
    case isTrue known =>
      refine later (fun a member same => ?_) (ih seen)
      exact ((mem_deduplicateAfter seen rest a).mp member).2 (same ▸ known)
    case isFalse unknown =>
      have different : ∀ a ∈ deduplicateAfter (node :: seen) rest, a ≠ node := fun a member same =>
        ((mem_deduplicateAfter _ rest a).mp member).2 (same ▸ List.mem_cons_self)
      refine List.pairwise_cons.mpr ⟨fun a member => ?_, later different (ih _)⟩
      rw [List.idxOf_cons_self, List.idxOf_cons_ne _ (different a member).symm]
      exact Nat.succ_pos _

theorem deduplicateAfter_of_nodup (seen nodes : List (DagNode F)) (distinct : nodes.Nodup)
    (fresh : ∀ node ∈ nodes, node ∉ seen) : deduplicateAfter seen nodes = nodes := by
  induction nodes generalizing seen with
  | nil => rfl
  | cons node rest ih =>
    obtain ⟨single, distinct⟩ := List.nodup_cons.mp distinct
    rw [deduplicateAfter, if_neg (fresh node List.mem_cons_self), ih _ distinct]
    intro other member known
    rcases List.mem_cons.mp known with rfl | old
    · exact single member
    · exact fresh other (List.mem_cons_of_mem _ member) old

end Passes

/-- A completeness check on a column that has a null check. -/
def Redundant (nodes : List (DagNode F)) : DagNode F → Prop
  | .qualityMetricCheck column .completeness _ _ _ =>
    ∃ severity, DagNode.nullCheck column severity ∈ nodes
  | _ => False

theorem redundant_mono {nodes others : List (DagNode F)} (subset : nodes ⊆ others)
    {node : DagNode F} (redundant : Redundant nodes node) : Redundant others node := by
  unfold Redundant at redundant ⊢
  split at redundant
  · obtain ⟨severity, member⟩ := redundant
    exact ⟨severity, subset member⟩
  · cases redundant

theorem mem_fuseNullChecks (nodes : List (DagNode F)) (node : DagNode F) :
    node ∈ fuseNullChecks nodes ↔ node ∈ nodes ∧ ¬ Redundant nodes node := by
  have checked : ∀ column, column ∈ (nodes.filter isNullCheck).map DagNode.column ↔
      ∃ severity, DagNode.nullCheck column severity ∈ nodes := by
    intro column
    rw [List.mem_map]
    constructor
    · rintro ⟨check, member, rfl⟩
      obtain ⟨member, null⟩ := List.mem_filter.mp member
      cases check <;> cases null
      exact ⟨_, member⟩
    · rintro ⟨severity, member⟩
      exact ⟨_, List.mem_filter.mpr ⟨member, rfl⟩, rfl⟩
  rw [fuseNullChecks, List.mem_filter]
  refine and_congr_right fun _ => ?_
  cases node with
  | qualityMetricCheck column metric op threshold severity =>
    cases metric with
    | completeness =>
      rw [Bool.not_eq_true', List.contains_eq_mem, decide_eq_false_iff_not, checked]
      exact Iff.rfl
    | _ => exact iff_of_true rfl not_false
  | _ => exact iff_of_true rfl not_false

/-- The lexicographic order of the plan, down to where a node first stands in the input. -/
def Before [DecidableEq F] (nodes : List (DagNode F)) (a b : DagNode F) : Prop :=
  a.column < b.column ∨ a.column = b.column ∧
    (sevOrder a < sevOrder b ∨ sevOrder a = sevOrder b ∧
      (a.cost < b.cost ∨ a.cost = b.cost ∧ nodes.idxOf a < nodes.idxOf b))

/-- The plan has the distinct nodes of the list that are not redundant, each once and in order;
    its groups are the runs of the columns, and its columns are listed in order. -/
structure Canonical [DecidableEq F] (nodes : List (DagNode F)) (dag : ExecutionDag F) : Prop where
  once : dag.nodes.Nodup
  members : ∀ node, node ∈ dag.nodes ↔ node ∈ nodes ∧ ¬ Redundant nodes node
  ordered : dag.nodes.Pairwise (Before nodes)
  keys : ((groupByColumn dag).map Prod.fst).Nodup
  groups : ∀ column group, (column, group) ∈ groupByColumn dag ↔
    group = dag.nodes.filter (fun node => node.column == column) ∧ group ≠ []
  runs : ∀ column group, (column, group) ∈ groupByColumn dag → group <:+: dag.nodes
  ascending : dag.referencedColumns.Pairwise (· < ·)
  columns : ∀ column, column ∈ dag.referencedColumns ↔
    ∃ node ∈ dag.nodes, node.column = column

section Plan

variable [DecidableEq F] (nodes : List (DagNode F))

theorem mem_deduplicate (node : DagNode F) : node ∈ deduplicate nodes ↔ node ∈ nodes := by
  rw [deduplicate, mem_deduplicateAfter, and_iff_left List.not_mem_nil]

theorem optimize_members (node : DagNode F) :
    node ∈ (optimize nodes).nodes ↔ node ∈ nodes ∧ ¬ Redundant nodes node := by
  have alike : Redundant (deduplicate nodes) node ↔ Redundant nodes node :=
    ⟨redundant_mono fun other => (mem_deduplicate nodes other).mp,
      redundant_mono fun other => (mem_deduplicate nodes other).mpr⟩
  rw [mem_optimize, mem_fuseNullChecks, mem_deduplicate, alike]

theorem optimize_ordered : (optimize nodes).nodes.Pairwise (Before nodes) := by
  have first : (fuseNullChecks (deduplicate nodes)).Pairwise
      (fun a b => nodes.idxOf a < nodes.idxOf b) :=
    (deduplicateAfter_ordered [] nodes).sublist List.filter_sublist
  refine (Slices.sortBy_pairwise planOrder first).imp ?_
  rintro a b (less | ⟨tie, earlier⟩)
  · rcases (planOrder_lt_iff a b).mp less with column | ⟨column, severity | ⟨severity, cost⟩⟩
    · exact .inl column
    · exact .inr ⟨column, .inl severity⟩
    · exact .inr ⟨column, .inr ⟨severity, .inl cost⟩⟩
  · obtain ⟨column, severity, cost⟩ := (planOrder_eq_iff a b).mp tie
    exact .inr ⟨column, .inr ⟨severity, .inr ⟨cost, earlier⟩⟩⟩

theorem before_irrefl (node : DagNode F) : ¬ Before nodes node node := by
  rintro (column | ⟨-, severity | ⟨-, cost | ⟨-, index⟩⟩⟩)
  · exact lt_irrefl _ column
  · exact Nat.lt_irrefl _ severity
  · exact Nat.lt_irrefl _ cost
  · exact Nat.lt_irrefl _ index

theorem optimize_once : (optimize nodes).nodes.Nodup := by
  refine (optimize_ordered nodes).imp ?_
  rintro a b before rfl
  exact before_irrefl nodes a before

theorem optimize_columns_le :
    (optimize nodes).nodes.Pairwise (fun a b => a.column ≤ b.column) := by
  refine (optimize_ordered nodes).imp ?_
  rintro a b (less | ⟨same, -⟩)
  · exact le_of_lt less
  · exact le_of_eq same

theorem optimize_runs {column : String} {group : List (DagNode F)}
    (member : (column, group) ∈ groupByColumn (optimize nodes)) :
    group <:+: (optimize nodes).nodes := by
  obtain ⟨rfl, -⟩ := ((grouped_groupByColumn (optimize nodes)).entries column group).mp member
  exact Slices.filter_isInfix DagNode.column column _ (optimize_columns_le nodes)

omit [DecidableEq F] in
theorem mem_referencedColumns (column : String) :
    column ∈ (ExecutionDag.new nodes).referencedColumns ↔
      ∃ node ∈ nodes, node.column = column := by
  rw [ExecutionDag.new, Slices.mem_dedupBy_sortBy compare beq_iff_compare_string, ← List.mem_map]
  constructor
  · exact List.mem_of_find?_eq_some
  · intro member
    exact Slices.find_of_agree member (beq_self_eq_true column) fun other _ same => beq_iff_eq.mp same

omit [DecidableEq F] in
theorem referencedColumns_ascend : (ExecutionDag.new nodes).referencedColumns.Pairwise (· < ·) := by
  exact (Slices.dedupBy_sortBy_ascend compare beq_iff_compare_string _).imp fun less =>
    (compare_string_lt _ _).mp less

theorem optimize_again : optimize (optimize nodes).nodes = optimize nodes := by
  have deduplicated : deduplicate (optimize nodes).nodes = (optimize nodes).nodes :=
    deduplicateAfter_of_nodup [] _ (optimize_once nodes) fun _ _ => List.not_mem_nil
  have fused : fuseNullChecks (optimize nodes).nodes = (optimize nodes).nodes := by
    refine List.filter_eq_self.mpr fun node member => ?_
    have kept : node ∈ fuseNullChecks (optimize nodes).nodes := by
      refine (mem_fuseNullChecks _ node).mpr ⟨member, fun redundant => ?_⟩
      obtain ⟨-, needed⟩ := (optimize_members nodes node).mp member
      exact needed (redundant_mono
        (fun other inside => ((optimize_members nodes other).mp inside).1) redundant)
    exact (List.mem_filter.mp kept).2
  have sorted : sortByCost (optimize nodes).nodes = (optimize nodes).nodes :=
    Slices.sortBy_of_sorted (Slices.sorted_sortBy planOrder _)
  calc optimize (optimize nodes).nodes
      = ExecutionDag.new (sortByCost (fuseNullChecks (deduplicate (optimize nodes).nodes))) := rfl
    _ = ExecutionDag.new (optimize nodes).nodes := by rw [deduplicated, fused, sorted]
    _ = optimize nodes := rfl

end Plan

/-- The optimizer is a canonical reordering of a list of nodes, which it leaves alone when it
    comes back. -/
theorem optimize_canonical [DecidableEq F] (nodes : List (DagNode F)) :
    Canonical nodes (optimize nodes) ∧ optimize (optimize nodes).nodes = optimize nodes where
  left := {
    once := optimize_once nodes
    members := optimize_members nodes
    ordered := optimize_ordered nodes
    keys := (grouped_groupByColumn (optimize nodes)).keys
    groups := (grouped_groupByColumn (optimize nodes)).entries
    runs := fun _ _ => optimize_runs nodes
    ascending := referencedColumns_ascend _
    columns := mem_referencedColumns _ }
  right := optimize_again nodes

end StatGuardian.Core.Optimizer
