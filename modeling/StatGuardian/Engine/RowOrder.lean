import StatGuardian.Engine.NamedColumns
import StatGuardian.Library.RelatedLists

namespace StatGuardian.Engine

open StatGuardian.Core Metrics Polars Stats Validators RelatedLists

section Cells

variable {F α : Type}

/-- The cells in another order: row `j` of the result is row `order[j]`. -/
def reorder (order : List Nat) (cells : List (Option α)) : List (Option α) :=
  order.map (fun i => (cells[i]?).getD none)

def Series.reorder (order : List Nat) (s : Series F) : Series F :=
  ⟨s.dtype, Engine.reorder order s.cells⟩

variable {order : List Nat}

theorem reorder_perm {cells : List (Option α)} (perm : order.Perm (List.range cells.length)) :
    (reorder order cells).Perm cells := by
  have inPlace : (List.range cells.length).map (fun i => (cells[i]?).getD none) = cells := by
    apply List.ext_getElem
    · rw [List.length_map, List.length_range]
    · intro i _ inside
      rw [List.getElem_map, List.getElem_range, List.getElem?_eq_getElem inside, Option.getD_some]
  have mapped := perm.map (fun i => (cells[i]?).getD none)
  rwa [inPlace] at mapped

theorem getElem?_reorder (cells : List (Option α)) (j : Nat) (x : α) :
    (reorder order cells)[j]? = some (some x) ↔
      ∃ i, order[j]? = some i ∧ cells[i]? = some (some x) := by
  rw [reorder, List.getElem?_map, Option.map_eq_some_iff]
  constructor
  · rintro ⟨i, listed, held⟩
    refine ⟨i, listed, ?_⟩
    cases found : cells[i]? with
    | none =>
      rw [found] at held
      cases held
    | some cell =>
      rw [found, Option.getD_some] at held
      rw [held]
  · rintro ⟨i, listed, held⟩
    exact ⟨i, listed, by rw [held, Option.getD_some]⟩

theorem nodup_failingRows (fails : α → Bool) (cells : List (Option α)) :
    (failingRows fails cells).Nodup := by
  have rows : (failingRows fails cells).Sublist (cells.zipIdx.map Prod.snd) := by
    unfold failingRows
    generalize cells.zipIdx = entries
    induction entries with
    | nil => exact .refl _
    | cons entry entries ih =>
      rw [List.filterMap_cons, List.map_cons]
      cases (Option.filter fails entry.1) with
      | none => exact .cons _ ih
      | some x => exact .cons_cons _ ih
  rw [List.zipIdx_map_snd] at rows
  exact (List.nodup_range').sublist rows

/-- The rows of a violation under their numbers in the other order. -/
def source (order : List Nat) (j : Nat) : Nat := (order[j]?).getD 0

/-- Rows of the other order that stand for rows of the first one. -/
structure Stand (order rows rowsToo : List Nat) : Prop where
  listed : ∀ j ∈ rowsToo, j < order.length
  moved : (rowsToo.map (source order)).Perm rows

theorem stand_of_mem {rows rowsToo : List Nat} (distinct : order.Nodup) (nodup : rows.Nodup)
    (nodupToo : rowsToo.Nodup) (below : ∀ i ∈ rows, i ∈ order)
    (same : ∀ j, j ∈ rowsToo ↔ ∃ i, order[j]? = some i ∧ i ∈ rows) : Stand order rows rowsToo where
  listed := by
    intro j member
    obtain ⟨i, found, -⟩ := (same j).mp member
    exact (List.getElem?_eq_some_iff.mp found).1
  moved := by
    have sourceOf : ∀ {j i}, order[j]? = some i → source order j = i := by
      intro j i found
      rw [source, found, Option.getD_some]
    apply (List.perm_ext_iff_of_nodup ?_ nodup).mpr
    · intro i
      rw [List.mem_map]
      constructor
      · rintro ⟨j, member, rfl⟩
        obtain ⟨i, found, inside⟩ := (same j).mp member
        rwa [sourceOf found]
      · intro inside
        obtain ⟨j, bound, found⟩ := List.mem_iff_getElem.mp (below i inside)
        have placed : order[j]? = some i := List.getElem?_eq_some_iff.mpr ⟨bound, found⟩
        exact ⟨j, (same j).mpr ⟨i, placed, inside⟩, sourceOf placed⟩
    · apply List.Nodup.map_on _ nodupToo
      intro j member k memberToo equal
      obtain ⟨i, found, -⟩ := (same j).mp member
      obtain ⟨l, foundToo, -⟩ := (same k).mp memberToo
      rw [sourceOf found, sourceOf foundToo] at equal
      subst equal
      obtain ⟨bound, placed⟩ := List.getElem?_eq_some_iff.mp found
      obtain ⟨boundToo, placedToo⟩ := List.getElem?_eq_some_iff.mp foundToo
      exact (distinct.getElem_inj_iff).mp (placed.trans placedToo.symm)

theorem failingRows_reorder (fails : α → Bool) {cells : List (Option α)}
    (perm : order.Perm (List.range cells.length)) :
    Stand order (failingRows fails cells) (failingRows fails (reorder order cells)) := by
  apply stand_of_mem (perm.nodup_iff.mpr List.nodup_range) (nodup_failingRows fails cells)
    (nodup_failingRows fails _)
  · intro i member
    rw [perm.mem_iff, List.mem_range]
    exact failingRows_lt fails cells i member
  · intro j
    simp only [mem_failingRows, getElem?_reorder]
    constructor
    · rintro ⟨x, ⟨i, listed, held⟩, fail⟩
      exact ⟨i, listed, x, held, fail⟩
    · rintro ⟨i, listed, x, held, fail⟩
      exact ⟨x, ⟨i, listed, held⟩, fail⟩

end Cells

section Violations

variable {F : Type}

/-- The same violation, but for the rows, which are numbered in the other order. -/
structure Moved (order : List Nat) (v w : Violation F) : Prop where
  column : w.column = v.column
  check : w.check = v.check
  message : w.message = v.message
  severity : w.severity = v.severity
  observed : w.observed = v.observed
  expected : w.expected = v.expected
  rows : Stand order v.rowIndices w.rowIndices

variable {order : List Nat}

theorem moved_rowless {v : Violation F} (rowless : v.rowIndices = []) : Moved order v v where
  column := rfl
  check := rfl
  message := rfl
  severity := rfl
  observed := rfl
  expected := rfl
  rows := by
    rw [rowless]
    exact ⟨fun _ member => absurd member List.not_mem_nil, .refl _⟩

theorem moved_rowless_all {vs : List (Violation F)} (rowless : ∀ v ∈ vs, v.rowIndices = []) :
    List.Forall₂ (Moved order) vs vs :=
  List.forall₂_same.mpr (fun v member => moved_rowless (rowless v member))

theorem moved_rowViolation {column check : String} {severity : Severity} {message : Nat → String}
    {rows rowsToo : List Nat} (stand : Stand order rows rowsToo) :
    Option.Rel (Moved order) (rowViolation column check severity message rows : Option (Violation F))
      (rowViolation column check severity message rowsToo) := by
  have length : rowsToo.length = rows.length := by
    rw [← stand.moved.length_eq, List.length_map]
  have empty : rowsToo.isEmpty = rows.isEmpty := by
    cases rows <;> cases rowsToo <;> first | rfl | cases length
  unfold rowViolation
  rw [empty, length]
  split
  · exact .none
  · exact .some ⟨rfl, rfl, rfl, rfl, rfl, rfl, stand⟩

end Violations

section Frames

variable {F : Type} [Float64 F]

/-- The columns of these names with their rows in another order. Other columns may come and go. -/
structure Reordered (names : List String) (order : List Nat) (df other : DataFrame F) : Prop where
  perm : order.Perm (List.range df.height)
  height : other.height = df.height
  column : ∀ name ∈ names, getSeries other name = (getSeries df name).map (Series.reorder order)

/-- Counting the distinct cells of a series takes no notice of their order. -/
def CountsCells (env : Env F) : Prop :=
  ∀ (s : Series F) (order : List Nat), order.Perm (List.range s.len) →
    env.nUnique (Series.reorder order s) = env.nUnique s

variable {env : Env F} {order : List Nat}

theorem castF64_reorder (s : Series F) :
    env.castF64 (Series.reorder order s) = (env.castF64 s).map (reorder order) := by
  unfold Env.castF64 Series.reorder
  cases env.castCell s.dtype with
  | none => rfl
  | some cast =>
    simp only [Option.map_some, reorder, List.map_map, Option.some.injEq]
    apply List.map_congr_left
    intro i _
    rw [Function.comp_apply, List.getElem?_map]
    cases s.cells[i]? <;> rfl

omit [Float64 F] in
theorem str_reorder (s : Series F) : (Series.reorder order s).str = s.str.map (reorder order) := by
  obtain ⟨dtype, cells⟩ := s
  cases dtype <;> rfl

omit [Float64 F] in
theorem bool_reorder (s : Series F) : (Series.reorder order s).bool = s.bool.map (reorder order) := by
  obtain ⟨dtype, cells⟩ := s
  cases dtype <;> rfl

variable {s : Series F} (perm : order.Perm (List.range s.len))

include perm

omit [Float64 F] in
theorem nullCount_reorder : (Series.reorder order s).nullCount = s.nullCount :=
  (reorder_perm perm).countP_eq _

omit [Float64 F] in
theorem len_reorder : (Series.reorder order s).len = s.len := (reorder_perm perm).length_eq

omit [Float64 F] in
theorem moved_failing {α : Type} (read : Series F → Option (List (Option α))) (fails : α → Bool)
    (column check : String) (severity : Severity) (message : Nat → String)
    (reads : read (Series.reorder order s) = (read s).map (reorder order))
    (long : ∀ cells, read s = some cells → cells.length = s.len) :
    Option.Rel (Moved order)
      ((read s).bind (fun ca => (rowViolation column check severity message
        (failingRows fails ca) : Option (Violation F))))
      ((read (Series.reorder order s)).bind (fun ca =>
        rowViolation column check severity message (failingRows fails ca))) := by
  rw [reads]
  cases held : read s with
  | none => exact .none
  | some cells =>
    apply moved_rowViolation
    apply failingRows_reorder
    rw [long cells held]
    exact perm

theorem checkConstraint_reorder (counts : CountsCells env) (column : String) (c : Constraint F) :
    Option.Rel (Moved order) (SchemaValidator.checkConstraint env s column c)
      (SchemaValidator.checkConstraint env (Series.reorder order s) column c) := by
  have same : ∀ v : Option (Violation F), (∀ w, v = some w → w.rowIndices = []) →
      Option.Rel (Moved order) v v := by
    intro v rowless
    cases v with
    | none => exact .none
    | some w => exact .some (moved_rowless (rowless w rfl))
  cases c
  case notNull | primaryKey =>
    simp only [SchemaValidator.checkConstraint, nullCount_reorder perm]
    apply same
    intro w reports
    split at reports
    · cases reports
      rfl
    · cases reports
  case unique =>
    simp only [SchemaValidator.checkConstraint, counts s order perm, len_reorder perm]
    apply same
    intro w reports
    split at reports
    · cases reports
      rfl
    · cases reports
  case positive | negative | between | min | max => 
    exact moved_failing perm env.castF64 _ _ _ _ _ (castF64_reorder s) (env.len_castF64 s)
  case len | enum => exact moved_failing perm Series.str _ _ _ _ _ (str_reorder s) (Series.len_str s)
  case regex pattern =>
    simp only [SchemaValidator.checkConstraint]
    split
    · exact .some (moved_rowless rfl)
    · exact moved_failing perm Series.str _ _ _ _ _ (str_reorder s) (Series.len_str s)
  case coerce | foreignKey => exact .none

omit perm

omit [Float64 F] in
theorem Reordered.cases {names : List String} {df other : DataFrame F}
    (reordered : Reordered names order df other) {name : String} (named : name ∈ names) :
    (df.column name = none ∧ other.column name = none) ∨
      ∃ c cToo, df.column name = some c ∧ other.column name = some cToo ∧
        cToo.asMaterializedSeries = Series.reorder order c.asMaterializedSeries ∧
        order.Perm (List.range c.asMaterializedSeries.len) := by
  have same := reordered.column name named
  rw [getSeries, getSeries] at same
  cases found : df.column name with
  | none =>
    cases foundToo : other.column name with
    | none => exact .inl ⟨rfl, rfl⟩
    | some cToo =>
      rw [found, foundToo] at same
      cases same
  | some c =>
    cases foundToo : other.column name with
    | none =>
      rw [found, foundToo] at same
      cases same
    | some cToo =>
      rw [found, foundToo] at same
      refine .inr ⟨c, cToo, rfl, rfl, Option.some.inj same, ?_⟩
      rw [df.column_len name c found]
      exact reordered.perm

end Frames

section Producers

variable {F : Type} [Float64 F] {env : Env F} {order : List Nat} {names : List String}
  {df other : DataFrame F} (counts : CountsCells env) (reordered : Reordered names order df other)

include counts reordered

theorem validateField_reorder (field : FieldDef F) (named : field.name ∈ names) :
    List.Forall₂ (Moved order) (SchemaValidator.validateField env df field)
      (SchemaValidator.validateField env other field) := by
  rcases reordered.cases named with ⟨missing, missingToo⟩ | ⟨c, cToo, found, foundToo, same, perm⟩
  · rw [SchemaValidator.validateField, SchemaValidator.validateField, missing, missingToo]
    exact .cons (moved_rowless rfl) .nil
  · simp only [SchemaValidator.validateField, found, foundToo, same]
    apply List.rel_append
    · have typed : SchemaValidator.checkType env (Series.reorder order c.asMaterializedSeries) field =
          SchemaValidator.checkType env c.asMaterializedSeries field := rfl
      rw [typed]
      apply moved_rowless_all
      intro v member
      unfold SchemaValidator.checkType at member
      split at member
      · cases member
      · rw [List.mem_singleton.mp member]
        rfl
    · apply forall₂_filterMap
      intro constraint _
      exact checkConstraint_reorder perm counts field.name constraint

theorem evaluateRule_reorder (rule : QualityRule F) (named : rule.column ∈ names) :
    List.Forall₂ (Moved order) (RuleEngine.evaluateRule env df rule)
      (RuleEngine.evaluateRule env other rule) := by
  have single : ∀ (p : Bool) (v : Violation F), v.rowIndices = [] →
      ∀ w ∈ (if p = true then [v] else []), w.rowIndices = [] := by
    intro p v rowless w member
    split at member
    · rw [List.mem_singleton.mp member, rowless]
    · cases member
  rcases reordered.cases named with ⟨missing, missingToo⟩ | ⟨c, cToo, found, foundToo, same, perm⟩
  · rw [RuleEngine.evaluateRule, RuleEngine.evaluateRule, missing, missingToo]
    exact .cons (moved_rowless rfl) .nil
  · have metric : RuleEngine.computeMetric env cToo.asMaterializedSeries rule.metric =
        RuleEngine.computeMetric env c.asMaterializedSeries rule.metric := by
      rw [same]
      simp only [RuleEngine.computeMetric, len_reorder perm, nullCount_reorder perm,
        counts _ order perm]
    simp only [RuleEngine.evaluateRule, found, foundToo, metric]
    cases RuleEngine.computeMetric env c.asMaterializedSeries rule.metric with
    | none => exact .nil
    | some observed => exact moved_rowless_all (single _ _ rfl)

omit counts reordered in
theorem rowMatches_reorder {s : Series F} (perm : order.Perm (List.range s.len)) {i j : Nat}
    (placed : order[j]? = some i) (op : ComparisonOp) (value : LiteralValue F) :
    RuleEngine.rowMatches env (Series.reorder order s) j op value =
      RuleEngine.rowMatches env s i op value := by
  have cell : ∀ {α : Type} (cells : List (Option α)), cells.length = s.len →
      (reorder order cells)[j]? = cells[i]? := by
    intro α cells length
    have inside : i < cells.length := by
      rw [length, ← List.mem_range, ← perm.mem_iff]
      exact List.mem_of_getElem? placed
    rw [reorder, List.getElem?_map, placed, Option.map_some, List.getElem?_eq_getElem inside,
      Option.getD_some]
  cases value with
  | number n =>
    simp only [RuleEngine.rowMatches, castF64_reorder]
    cases held : env.castF64 s with
    | none => rfl
    | some cells => simp only [Option.map_some, cell cells (env.len_castF64 s cells held)]
  | str text =>
    simp only [RuleEngine.rowMatches, str_reorder]
    cases held : s.str with
    | none => rfl
    | some cells => simp only [Option.map_some, cell cells (Series.len_str s cells held)]
  | bool b =>
    have length : ∀ cells, s.bool = some cells → cells.length = s.len := by
      obtain ⟨dtype, values⟩ := s
      intro cells read
      cases dtype <;> cases read
      rfl
    simp only [RuleEngine.rowMatches, bool_reorder]
    cases held : s.bool with
    | none => rfl
    | some cells => simp only [Option.map_some, cell cells (length cells held)]

omit counts in
theorem evaluateCrossColumnRule_reorder (rule : CrossColumnRule F) (named : rule.whenColumn ∈ names)
    (namedToo : rule.assertColumn ∈ names) :
    List.Forall₂ (Moved order) (RuleEngine.evaluateCrossColumnRule env df rule)
      (RuleEngine.evaluateCrossColumnRule env other rule) := by
  rcases reordered.cases named with ⟨missing, missingToo⟩ | ⟨c, cToo, found, foundToo, same, perm⟩
  · rw [RuleEngine.evaluateCrossColumnRule, RuleEngine.evaluateCrossColumnRule, missing, missingToo]
    exact .cons (moved_rowless rfl) .nil
  rcases reordered.cases namedToo with
    ⟨missing, missingToo⟩ | ⟨a, aToo, target, targetToo, sameToo, permToo⟩
  · simp only [RuleEngine.evaluateCrossColumnRule, found, foundToo, missing, missingToo]
    exact .cons (moved_rowless rfl) .nil
  simp only [RuleEngine.evaluateCrossColumnRule, found, foundToo, target, targetToo, same, sameToo]
  have rows : Stand order
      (RuleEngine.crossColumnFailures env df rule c.asMaterializedSeries a.asMaterializedSeries)
      (RuleEngine.crossColumnFailures env other rule (Series.reorder order c.asMaterializedSeries)
        (Series.reorder order a.asMaterializedSeries)) := by
    apply stand_of_mem (reordered.perm.nodup_iff.mpr List.nodup_range)
      (List.nodup_range.filter _) (List.nodup_range.filter _)
    · intro i member
      exact reordered.perm.mem_iff.mpr (List.mem_filter.mp member).1
    · intro j
      have length : order.length = df.height := by
        rw [reordered.perm.length_eq, List.length_range]
      simp only [List.mem_filter, List.mem_range, reordered.height]
      constructor
      · rintro ⟨inside, fails⟩
        have placed : order[j]? = some order[j] := List.getElem?_eq_getElem (length ▸ inside)
        rw [rowMatches_reorder perm placed, rowMatches_reorder permToo placed]
          at fails
        exact ⟨_, placed, List.mem_range.mp (reordered.perm.mem_iff.mp (List.getElem_mem _)), fails⟩
      · rintro ⟨i, placed, -, fails⟩
        rw [rowMatches_reorder perm placed, rowMatches_reorder permToo placed]
        exact ⟨length ▸ (List.getElem?_eq_some_iff.mp placed).1, fails⟩
  apply forall₂_toList
  exact moved_rowViolation rows

theorem executeNode_reorder (node : DagNode F) (named : node.column ∈ names)
    (other_ : ∀ column method severity, node ≠ .outlierDetection column method severity) :
    ∃ vs vsToo, executeNode env df node = .ok vs ∧ executeNode env other node = .ok vsToo ∧
      List.Forall₂ (Moved order) vs vsToo := by
  have onSeries_reorder : ∀ check : Series F → List (Violation F),
      (∀ s : Series F, order.Perm (List.range s.len) →
        List.Forall₂ (Moved order) (check s) (check (Series.reorder order s))) →
      List.Forall₂ (Moved order) (onSeries df node.column check) (onSeries other node.column check) := by
    intro check moved
    rw [onSeries, onSeries, getSeries, getSeries]
    rcases reordered.cases named with ⟨missing, missingToo⟩ | ⟨c, cToo, found, foundToo, same, perm⟩
    · rw [missing, missingToo]
      exact .nil
    · rw [found, foundToo]
      simp only [Option.map_some, same]
      exact moved _ perm
  have single : ∀ {p : Prop} [Decidable p] {v : Violation F}, v.rowIndices = [] →
      List.Forall₂ (Moved order) (if p then [v] else []) (if p then [v] else []) := by
    intro p _ v rowless
    split
    · exact .cons (moved_rowless rowless) .nil
    · exact .nil
  cases node
  case outlierDetection column method severity => exact absurd rfl (other_ column method severity)
  case profile | typeCheck | driftCheck => exact ⟨[], [], rfl, rfl, .nil⟩
  case qualityMetricCheck column metric op threshold severity =>
    refine ⟨_, _, rfl, rfl, ?_⟩
    simp only [RuleEngine.evaluate, List.flatMap_singleton]
    exact evaluateRule_reorder counts reordered _ named
  all_goals
    refine ⟨_, _, rfl, rfl, onSeries_reorder _ fun s perm => ?_⟩
  case nullCheck | nullAnomalyDetection =>
    simp only [nullCount_reorder perm, len_reorder perm]
    exact single rfl
  case uniquenessCheck | duplicateDetection | cardinalityCheck =>
    simp only [counts s order perm, len_reorder perm]
    exact single rfl
  case rangeCheck | positiveCheck | negativeCheck =>
    apply forall₂_toList
    exact moved_failing perm env.castF64 _ _ _ _ _ (castF64_reorder s) (env.len_castF64 s)
  case lenCheck | enumCheck =>
    apply forall₂_toList
    exact moved_failing perm Series.str _ _ _ _ _ (str_reorder s) (Series.len_str s)
  case regexCheck column pattern severity =>
    split
    · exact .cons (moved_rowless rfl) .nil
    · apply forall₂_toList
      exact moved_failing perm Series.str _ _ _ _ _ (str_reorder s) (Series.len_str s)

theorem runNodes_reorder (nodes : List (DagNode F)) (named : ∀ node ∈ nodes, node.column ∈ names)
    (other_ : ∀ column method severity, .outlierDetection column method severity ∉ nodes) :
    ∃ vs vsToo, runNodes env df nodes = .ok vs ∧ runNodes env other nodes = .ok vsToo ∧
      List.Forall₂ (Moved order) vs vsToo := by
  induction nodes with
  | nil => exact ⟨[], [], rfl, rfl, .nil⟩
  | cons node nodes ih =>
    obtain ⟨first, rest⟩ := List.forall_mem_cons.mp named
    obtain ⟨here, hereToo, ran, ranToo, moved⟩ := executeNode_reorder counts reordered node first
      (fun column method severity same => other_ column method severity (same ▸ List.mem_cons_self))
    obtain ⟨more, moreToo, later, laterToo, movedToo⟩ := ih rest
      (fun column method severity member =>
        other_ column method severity (List.mem_cons_of_mem _ member))
    have blocking : hereToo.any (·.severity == .blocking) = here.any (·.severity == .blocking) :=
      any_eq moved (fun _ _ related => by rw [related.severity])
    simp only [runNodes, ran, ranToo, later, laterToo, bind, Except.bind, blocking]
    split
    · exact ⟨here, hereToo, rfl, rfl, moved⟩
    · exact ⟨here ++ more, hereToo ++ moreToo, rfl, rfl, List.rel_append moved movedToo⟩

theorem dagViolations_reorder (dag : ExecutionDag F)
    (named : ∀ node ∈ dag.nodes, node.column ∈ names)
    (other_ : ∀ column method severity, .outlierDetection column method severity ∉ dag.nodes) :
    ∃ vs vsToo, dagViolations env dag df = .ok vs ∧ dagViolations env dag other = .ok vsToo ∧
      List.Forall₂ (Moved order) vs vsToo := by
  have visits : ∀ groups : List (String × List (DagNode F)),
      (∀ group ∈ groups, ∀ node ∈ group.2, node ∈ dag.nodes) → ∃ rs rsToo,
        groups.mapM (fun group => runNodes env df group.2) = .ok rs ∧
        groups.mapM (fun group => runNodes env other group.2) = .ok rsToo ∧
        List.Forall₂ (List.Forall₂ (Moved order)) rs rsToo := by
    intro groups known
    induction groups with
    | nil => exact ⟨[], [], rfl, rfl, .nil⟩
    | cons group groups ih =>
      obtain ⟨first, rest⟩ := List.forall_mem_cons.mp known
      obtain ⟨vs, vsToo, ran, ranToo, moved⟩ := runNodes_reorder counts reordered group.2
        (fun node member => named node (first node member))
        (fun column method severity member => other_ column method severity (first _ member))
      obtain ⟨rs, rsToo, later, laterToo, movedToo⟩ := ih rest
      refine ⟨vs :: rs, vsToo :: rsToo, ?_, ?_, .cons moved movedToo⟩
      · rw [List.mapM_cons, ran, later]
        rfl
      · rw [List.mapM_cons, ranToo, laterToo]
        rfl
  obtain ⟨rs, rsToo, ran, ranToo, moved⟩ := visits (env.visit (Optimizer.groupByColumn dag)) (by
    rintro ⟨column, nodes⟩ visited node inside
    have entry := (env.visit_perm _).mem_iff.mp visited
    obtain ⟨rfl, _⟩ := ((Optimizer.grouped_groupByColumn dag).entries column nodes).mp entry
    exact (List.mem_filter.mp inside).1)
  refine ⟨rs.flatten, rsToo.flatten, ?_, ?_, forall₂_flatten moved⟩
  · rw [dagViolations, ran]
    rfl
  · rw [dagViolations, ranToo]
    rfl

end Producers

section Reports

variable {F : Type} [Float64 F] {env : Env F} {order : List Nat} {contract : DataContract F}
  {df other : DataFrame F}

theorem compiled_plain (plain : ∀ rule ∈ contract.anomalyRules, rule.function ≠ .detectOutliers)
    (column method : String) (severity : Severity) :
    .outlierDetection column method severity ∉ (Compiler.compile contract).nodes := by
  intro member
  have raw := Optimizer.mem_of_mem_optimize _ _ member
  simp only [Compiler.rawNodes, List.mem_append, List.mem_flatMap, List.mem_map] at raw
  rcases raw with ((⟨field, -, inside⟩ | ⟨rule, -, same⟩) | ⟨rule, -, same⟩) | ⟨rule, declared, same⟩
  · simp only [Compiler.fieldNodes, List.mem_cons, List.mem_filterMap, reduceCtorEq, false_or]
      at inside
    obtain ⟨c, -, compiled⟩ := inside
    cases c <;> cases compiled
  · cases same
  · cases same
  · have other_ := plain rule declared
    unfold Compiler.anomalyNode at same
    split at same
    · rename_i found
      exact other_ found
    all_goals cases same

theorem emitted_reorder (counts : CountsCells env)
    (reordered : Reordered (contractColumns contract) order df other)
    (plain : ∀ rule ∈ contract.anomalyRules, rule.function ≠ .detectOutliers) :
    ∃ vs vsToo, emitted env contract (Compiler.compile contract) df = .ok vs ∧
      emitted env contract (Compiler.compile contract) other = .ok vsToo ∧
      List.Forall₂ (Moved order) vs vsToo := by
  obtain ⟨fromDag, fromDagToo, ran, ranToo, moved⟩ := dagViolations_reorder counts reordered
    (Compiler.compile contract) (fun _ member => compiled_column member) (compiled_plain plain)
  refine ⟨_, _, (emitted_ok_iff ..).mpr ⟨fromDag, ran, rfl⟩,
    (emitted_ok_iff ..).mpr ⟨fromDagToo, ranToo, rfl⟩, ?_⟩
  have schema : List.Forall₂ (Moved order) (SchemaValidator.validate env df contract.schema)
      (SchemaValidator.validate env other contract.schema) := by
    apply forall₂_flatMap
    intro field declared
    apply validateField_reorder counts reordered
    simp only [contractColumns, List.mem_append]
    exact .inl (.inl (.inl (.inl (List.mem_map_of_mem declared))))
  have quality : List.Forall₂ (Moved order) (RuleEngine.evaluate env df contract.qualityRules)
      (RuleEngine.evaluate env other contract.qualityRules) := by
    apply forall₂_flatMap
    intro rule declared
    apply evaluateRule_reorder counts reordered
    simp only [contractColumns, List.mem_append]
    exact .inl (.inl (.inl (.inr (List.mem_map_of_mem declared))))
  have crossColumn : List.Forall₂ (Moved order)
      (RuleEngine.evaluateCrossColumn env df contract.crossColumnRules)
      (RuleEngine.evaluateCrossColumn env other contract.crossColumnRules) := by
    apply forall₂_flatMap
    intro rule declared
    have named : ∀ name ∈ [rule.whenColumn, rule.assertColumn], name ∈ contractColumns contract := by
      intro name member
      simp only [contractColumns, List.mem_append]
      exact .inl (.inl (.inr (List.mem_flatMap.mpr ⟨rule, declared, member⟩)))
    exact evaluateCrossColumnRule_reorder reordered rule (named _ (by simp)) (named _ (by simp))
  exact List.rel_append (List.rel_append (List.rel_append schema quality) crossColumn) moved

omit [Float64 F] in
theorem mergeViolations_reorder {vs vsToo : List (Violation F)}
    (moved : List.Forall₂ (Moved order) vs vsToo) :
    List.Forall₂ (Moved order) (mergeViolations vs) (mergeViolations vsToo) := by
  apply forall₂_dedupBy
  · intro a b c d first second
    rw [sameKey, sameKey, first.column, first.check, second.column, second.check]
  · apply forall₂_sortBy _ moved
    intro a b c d first second
    simp only [keyOrder, compareLex, compareOn, first.column, first.check, second.column,
      second.check]

/-- Other rows first, the same report: each of its violations lists the rows under their new
    numbers, and the verdict and the score are the same. -/
theorem report_of_reordered_rows (counts : CountsCells env)
    (plain : ∀ rule ∈ contract.anomalyRules, rule.function ≠ .detectOutliers)
    (reordered : Reordered (contractColumns contract) order df other)
    {report reportToo : ValidationReport F}
    (ran : BatchExecutor.execute env contract (Compiler.compile contract) df none = .ok report)
    (ranToo : BatchExecutor.execute env contract (Compiler.compile contract) other none =
      .ok reportToo) :
    List.Forall₂ (Moved order) report.violations reportToo.violations ∧
      reportToo.passed = report.passed ∧ reportToo.health = report.health ∧
      reportToo.rowCount = report.rowCount ∧ reportToo.driftResults = report.driftResults := by
  obtain ⟨vs, vsToo, emits, emitsToo, moved⟩ := emitted_reorder counts reordered plain
  obtain ⟨found, drift, profile, emits', drifts, -, rfl⟩ := (execute_ok_iff ..).mp ran
  obtain ⟨foundToo, driftToo, profileToo, emitsToo', driftsToo, -, rfl⟩ :=
    (execute_ok_iff ..).mp ranToo
  obtain rfl := Except.ok.inj (emits.symm.trans emits')
  obtain rfl := Except.ok.inj (emitsToo.symm.trans emitsToo')
  obtain rfl := Except.ok.inj drifts
  obtain rfl := Except.ok.inj driftsToo
  have merged := mergeViolations_reorder moved
  have severities : ∀ severity : Severity,
      (mergeViolations vsToo).countP (fun v => v.severity == severity) =
        (mergeViolations vs).countP (fun v => v.severity == severity) := by
    intro severity
    exact countP_eq merged (fun _ _ related => by rw [related.severity])
  have blocking : (mergeViolations vsToo).any (fun v => v.severity == .blocking) =
      (mergeViolations vs).any (fun v => v.severity == .blocking) :=
    any_eq merged (fun _ _ related => by rw [related.severity])
  refine ⟨merged, ?_, ?_, reordered.height, rfl⟩
  · simp only [ValidationReport.new, blocking]
  · simp only [ValidationReport.new, DatasetHealthScore.compute, severities]

end Reports

section Sample

theorem exactEnv_counts : CountsCells exactEnv := by
  intro series order perm
  exact congrArg some (reorder_perm perm).dedup.length_eq

def idsSwapped : DataFrame ExtRat where
  height := 2
  columns := [.series "id" ⟨.int64, [some (-1), some 7]⟩]
  aligned := by decide
  distinct := by decide

theorem report_of_reordered_rows_ids : ∃ report reportToo : ValidationReport ExtRat,
    BatchExecutor.execute exactEnv positiveIds (Compiler.compile positiveIds) idsOnly none =
      .ok report ∧
    BatchExecutor.execute exactEnv positiveIds (Compiler.compile positiveIds) idsSwapped none =
      .ok reportToo ∧
    reportToo.violations.map (·.rowIndices) = [[0], [0]] ∧
    List.Forall₂ (Moved [1, 0]) report.violations reportToo.violations ∧
      reportToo.passed = report.passed ∧ reportToo.health = report.health ∧
      reportToo.rowCount = report.rowCount ∧ reportToo.driftResults = report.driftResults := by
  obtain ⟨report, ran, -⟩ := Results.ok_of_any (BatchExecutor.execute exactEnv positiveIds
    (Compiler.compile positiveIds) idsOnly none) (fun _ => true) (by decide +kernel)
  obtain ⟨reportToo, ranToo, rows⟩ := Results.ok_of_any (BatchExecutor.execute exactEnv positiveIds
    (Compiler.compile positiveIds) idsSwapped none)
    (fun report => report.violations.map (·.rowIndices) == [[0], [0]]) (by decide +kernel)
  have reordered : Reordered (contractColumns positiveIds) [1, 0] idsOnly idsSwapped := by
    refine ⟨by decide, rfl, fun name named => ?_⟩
    obtain rfl : name = "id" := List.mem_singleton.mp named
    rfl
  exact ⟨report, reportToo, ran, ranToo, beq_iff_eq.mp rows,
    report_of_reordered_rows exactEnv_counts (fun _ member => absurd member List.not_mem_nil)
      reordered ran ranToo⟩

end Sample

end StatGuardian.Engine
