import StatGuardian.Core.Dag

namespace StatGuardian.Core.Optimizer

variable {F : Type}

/-- The `Debug` text of a node stands for the node: it spells out every field. -/
def deduplicateAfter [DecidableEq F] (seen : List (DagNode F)) :
    List (DagNode F) → List (DagNode F)
  | [] => []
  | node :: rest =>
    if node ∈ seen then deduplicateAfter seen rest
    else node :: deduplicateAfter (node :: seen) rest

def deduplicate [DecidableEq F] (nodes : List (DagNode F)) : List (DagNode F) :=
  deduplicateAfter [] nodes

def isNullCheck : DagNode F → Bool
  | .nullCheck .. => true
  | _ => false

/-- Drops the completeness checks of the columns that have a null check. -/
def fuseNullChecks (nodes : List (DagNode F)) : List (DagNode F) :=
  let nullChecked := (nodes.filter isNullCheck).map DagNode.column
  nodes.filter (fun node =>
    match node with
    | .qualityMetricCheck column .completeness _ _ _ => ! nullChecked.contains column
    | _ => true)

def sevOrder (node : DagNode F) : Nat :=
  match node.severity with
  | .blocking => 0
  | .error => 1
  | .warning => 2
  | .info => 3

/-- By column, then the stricter severity first, then the cheaper check first. -/
def planOrder : DagNode F → DagNode F → Ordering :=
  compareLex (compareOn DagNode.column)
    (compareLex (compareOn sevOrder) (compareOn DagNode.cost))

def sortByCost (nodes : List (DagNode F)) : List (DagNode F) :=
  Slices.sortBy planOrder nodes

def optimize [DecidableEq F] (nodes : List (DagNode F)) : ExecutionDag F :=
  ExecutionDag.new (sortByCost (fuseNullChecks (deduplicate nodes)))

def pushNode (node : DagNode F) :
    List (String × List (DagNode F)) → List (String × List (DagNode F))
  | [] => [(node.column, [node])]
  | (column, nodes) :: rest =>
    if column = node.column then (column, nodes ++ [node]) :: rest
    else (column, nodes) :: pushNode node rest

def groupByColumn (dag : ExecutionDag F) : List (String × List (DagNode F)) :=
  dag.nodes.foldl (fun map node => pushNode node map) []

theorem mem_deduplicateAfter [DecidableEq F] (seen nodes : List (DagNode F)) (node : DagNode F) :
    node ∈ deduplicateAfter seen nodes ↔ node ∈ nodes ∧ node ∉ seen := by
  induction nodes generalizing seen with
  | nil => simp [deduplicateAfter]
  | cons first rest ih =>
    unfold deduplicateAfter
    split
    case isTrue known =>
      rw [ih, List.mem_cons]
      constructor
      · rintro ⟨later, fresh⟩
        exact ⟨.inr later, fresh⟩
      · rintro ⟨rfl | later, fresh⟩
        · exact absurd known fresh
        · exact ⟨later, fresh⟩
    case isFalse unknown =>
      rw [List.mem_cons, ih, List.mem_cons, List.mem_cons, not_or]
      constructor
      · rintro (rfl | ⟨later, _, fresh⟩)
        · exact ⟨.inl rfl, unknown⟩
        · exact ⟨.inr later, fresh⟩
      · rintro ⟨rfl | later, fresh⟩
        · exact .inl rfl
        · by_cases same : node = first
          · exact .inl same
          · exact .inr ⟨later, same, fresh⟩

/-- What the optimizer keeps: every node but the completeness checks it takes for redundant. -/
theorem mem_optimize [DecidableEq F] (nodes : List (DagNode F)) (node : DagNode F) :
    node ∈ (optimize nodes).nodes ↔ node ∈ fuseNullChecks (deduplicate nodes) :=
  Slices.mem_sortBy _ _ _

theorem mem_of_mem_optimize [DecidableEq F] (nodes : List (DagNode F)) (node : DagNode F)
    (member : node ∈ (optimize nodes).nodes) : node ∈ nodes := by
  rw [mem_optimize, fuseNullChecks, List.mem_filter, deduplicate, mem_deduplicateAfter] at member
  exact member.1.1

section Groups

theorem mem_pushNode (node : DagNode F) (map : List (String × List (DagNode F)))
    (keys : (map.map Prod.fst).Nodup) (column : String) (nodes : List (DagNode F)) :
    (column, nodes) ∈ pushNode node map ↔
      (column ≠ node.column ∧ (column, nodes) ∈ map) ∨
      (column = node.column ∧ ((∃ before, (column, before) ∈ map ∧ nodes = before ++ [node]) ∨
        (column ∉ map.map Prod.fst ∧ nodes = [node]))) := by
  induction map with
  | nil =>
    simp only [pushNode, List.mem_singleton, Prod.mk.injEq, List.not_mem_nil, List.map_nil]
    tauto
  | cons entry rest ih =>
    obtain ⟨key, held⟩ := entry
    rw [List.map_cons, List.nodup_cons] at keys
    obtain ⟨fresh, keys⟩ := keys
    have absent : ∀ before, (key, before) ∉ rest := fun before member =>
      fresh (List.mem_map.mpr ⟨_, member, rfl⟩)
    unfold pushNode
    split
    case isTrue same =>
      subst same
      simp only [List.mem_cons, Prod.mk.injEq, List.map_cons]
      constructor
      · rintro (⟨rfl, rfl⟩ | member)
        · exact .inr ⟨rfl, .inl ⟨held, .inl ⟨rfl, rfl⟩, rfl⟩⟩
        · left
          refine ⟨?_, .inr member⟩
          rintro rfl
          exact absent _ member
      · rintro (⟨other, ⟨same, _⟩ | member⟩ | ⟨rfl, ⟨before, ⟨_, rfl⟩ | member, rfl⟩ | ⟨out, _⟩⟩)
        · exact absurd same other
        · exact .inr member
        · exact .inl ⟨rfl, rfl⟩
        · exact absurd member (absent _)
        · exact absurd (.inl rfl) out
    case isFalse other =>
      simp only [List.mem_cons, Prod.mk.injEq, ih keys, List.map_cons]
      by_cases here : column = key
      · subst here
        simp only [other, not_false_eq_true, ne_eq, true_and, false_and, or_false, absent]
      · simp only [here, false_and, false_or]

theorem keys_pushNode (node : DagNode F) (map : List (String × List (DagNode F)))
    (keys : (map.map Prod.fst).Nodup) : ((pushNode node map).map Prod.fst).Nodup := by
  induction map with
  | nil => simp [pushNode]
  | cons entry rest ih =>
    obtain ⟨key, held⟩ := entry
    have tail : (rest.map Prod.fst).Nodup := (List.nodup_cons.mp keys).2
    unfold pushNode
    split
    case isTrue => exact keys
    case isFalse other =>
      rw [List.map_cons, List.nodup_cons]
      refine ⟨fun member => ?_, ih tail⟩
      obtain ⟨⟨column, nodes⟩, pushed, rfl⟩ := List.mem_map.mp member
      rcases (mem_pushNode node rest tail column nodes).mp pushed with ⟨_, inside⟩ | ⟨same, _⟩
      · exact (List.nodup_cons.mp keys).1 (List.mem_map.mpr ⟨_, inside, rfl⟩)
      · exact other same

/-- The hash map after the nodes seen so far: one entry for each column, with its nodes in order. -/
structure Grouped (seen : List (DagNode F)) (map : List (String × List (DagNode F))) : Prop where
  keys : (map.map Prod.fst).Nodup
  entries : ∀ column nodes, (column, nodes) ∈ map ↔
    nodes = seen.filter (fun node => node.column == column) ∧ nodes ≠ []

theorem Grouped.push {seen : List (DagNode F)} {map : List (String × List (DagNode F))}
    (grouped : Grouped seen map) (node : DagNode F) :
    Grouped (seen ++ [node]) (pushNode node map) where
  keys := keys_pushNode node map grouped.keys
  entries := by
    intro column nodes
    have present : column ∈ map.map Prod.fst ↔
        seen.filter (fun node => node.column == column) ≠ [] := by
      rw [List.mem_map]
      constructor
      · rintro ⟨⟨key, held⟩, member, rfl⟩
        obtain ⟨rfl, some⟩ := (grouped.entries key held).mp member
        exact some
      · intro some
        exact ⟨(column, _), (grouped.entries column _).mpr ⟨rfl, some⟩, rfl⟩
    rw [mem_pushNode node map grouped.keys, List.filter_append]
    by_cases same : column = node.column
    · subst same
      simp only [ne_eq, not_true_eq_false, false_and, false_or, true_and, grouped.entries, present,
        List.filter_cons, BEq.rfl, ↓reduceIte, List.filter_nil]
      constructor
      · rintro (⟨before, ⟨rfl, _⟩, rfl⟩ | ⟨empty, rfl⟩)
        · simp
        · simp [not_not.mp empty]
      · rintro ⟨rfl, _⟩
        by_cases empty : seen.filter (fun other => other.column == node.column) = []
        · exact .inr ⟨not_not.mpr empty, by simp [empty]⟩
        · exact .inl ⟨_, ⟨rfl, empty⟩, rfl⟩
    · have skipped : (node.column == column) = false := by
        rw [beq_eq_false_iff_ne]; exact fun equal => same equal.symm
      simp [same, grouped.entries, skipped]

theorem grouped_foldl (nodes seen : List (DagNode F)) (map : List (String × List (DagNode F)))
    (grouped : Grouped seen map) :
    Grouped (seen ++ nodes) (nodes.foldl (fun map node => pushNode node map) map) := by
  induction nodes generalizing seen map with
  | nil => simpa using grouped
  | cons node rest ih => simpa using ih (seen ++ [node]) _ (grouped.push node)

theorem grouped_groupByColumn (dag : ExecutionDag F) :
    Grouped dag.nodes (groupByColumn dag) := by
  have start : Grouped ([] : List (DagNode F)) [] := ⟨List.nodup_nil, by simp⟩
  simpa [groupByColumn] using grouped_foldl dag.nodes [] [] start

theorem groups_of_column (dag : ExecutionDag F) (column : String) :
    (groupByColumn dag).filter (fun group => group.1 = column) =
      if (dag.nodes.filter (fun node => node.column == column)).isEmpty then []
      else [(column, dag.nodes.filter (fun node => node.column == column))] := by
  have grouped := grouped_groupByColumn dag
  have mine : ∀ group ∈ (groupByColumn dag).filter (fun group => group.1 = column),
      group = (column, dag.nodes.filter (fun node => node.column == column)) ∧
        dag.nodes.filter (fun node => node.column == column) ≠ [] := by
    intro group member
    obtain ⟨inside, named⟩ := List.mem_filter.mp member
    obtain rfl : group.1 = column := by simpa using named
    have entry := (grouped.entries group.1 group.2).mp inside
    exact ⟨Prod.ext rfl entry.1, entry.1 ▸ entry.2⟩
  have keys : (((groupByColumn dag).filter (fun group => group.1 = column)).map Prod.fst).Nodup :=
    (List.filter_sublist.map Prod.fst).nodup grouped.keys
  cases groups : (groupByColumn dag).filter (fun group => group.1 = column) with
  | nil =>
    rw [if_pos]
    rw [List.isEmpty_iff]
    by_contra some
    have kept : (column, dag.nodes.filter (fun node => node.column == column)) ∈
        (groupByColumn dag).filter (fun group => group.1 = column) :=
      List.mem_filter.mpr ⟨(grouped.entries column _).mpr ⟨rfl, some⟩, by simp⟩
    rw [groups] at kept
    cases kept
  | cons group rest =>
    rw [groups] at mine keys
    obtain ⟨same, some⟩ := mine group List.mem_cons_self
    have single : rest = [] := by
      rw [List.eq_nil_iff_forall_not_mem]
      intro other member
      have twin := (mine other (List.mem_cons_of_mem _ member)).1
      rw [List.map_cons, List.nodup_cons, same] at keys
      exact keys.1 (List.mem_map.mpr ⟨other, member, congrArg Prod.fst twin⟩)
    rw [if_neg (mt List.isEmpty_iff.mp some), single, same]

end Groups

end StatGuardian.Core.Optimizer
