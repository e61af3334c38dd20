import StatGuardian.Engine.Fusion
import StatGuardian.Runtime.ExactEnv

namespace StatGuardian.Engine

open StatGuardian.Core Polars Validators

variable {F : Type} [Float64 F]

/-- The node reports something when the schema does, and on the same rows. -/
def Agree (env : Env F) (df : DataFrame F) (series : Series F) (column : String) (c : Constraint F)
    (node : DagNode F) : Prop :=
  ∃ found, executeNode env df node = .ok found ∧
    (found ≠ [] ↔ (SchemaValidator.checkConstraint env series column c).isSome = true) ∧
    found.flatMap Violation.rowIndices =
      (SchemaValidator.checkConstraint env series column c).toList.flatMap Violation.rowIndices

section Rows

variable {env : Env F} {df : DataFrame F} {series : Series F} {column : String}
  {c : Constraint F} {node : DagNode F}

/-- Two reports on the same rows, whatever they say about them. -/
structure SameRows (found : List (Violation F)) (reported : Option (Violation F)) : Prop where
  reports : found ≠ [] ↔ reported.isSome = true
  rows : found.flatMap Violation.rowIndices = reported.toList.flatMap Violation.rowIndices

theorem agree_of_sameRows {found : List (Violation F)} (ran : executeNode env df node = .ok found)
    (same : SameRows found (SchemaValidator.checkConstraint env series column c)) :
    Agree env df series column c node :=
  ⟨found, ran, same.reports, same.rows⟩

omit [Float64 F] in
theorem sameRows_single (v w : Violation F) (same : v.rowIndices = w.rowIndices) :
    SameRows [v] (some w) where
  reports := by simp
  rows := by simp [same]

omit [Float64 F] in
theorem sameRows_none : SameRows ([] : List (Violation F)) none where
  reports := by simp
  rows := rfl

omit [Float64 F] in
theorem sameRows_ite {p : Prop} [Decidable p] (v w : Violation F)
    (same : v.rowIndices = w.rowIndices) :
    SameRows (if p then [v] else []) (if p then some w else none) := by
  by_cases holds : p
  · rw [if_pos holds, if_pos holds]
    exact sameRows_single v w same
  · rw [if_neg holds, if_neg holds]
    exact sameRows_none

omit [Float64 F] in
theorem sameRows_failing {α : Type} (read : Option (List (Option α))) {fails fails' : α → Bool}
    (same : ∀ x, fails x = fails' x) (column column' check check' : String)
    (severity severity' : Severity) (message message' : Nat → String) :
    SameRows
      (read.bind fun ca =>
        rowViolation (F := F) column check severity message (failingRows fails ca)).toList
      (read.bind fun ca =>
        rowViolation column' check' severity' message' (failingRows fails' ca)) := by
  obtain rfl : fails = fails' := funext same
  cases read with
  | none => exact sameRows_none
  | some ca =>
    rw [Option.bind_some, Option.bind_some, rowViolation, rowViolation]
    by_cases clean : (failingRows fails ca).isEmpty = true
    · rw [if_pos clean, if_pos clean]
      exact sameRows_none
    · rw [if_neg clean, if_neg clean]
      exact sameRows_single _ _ rfl

end Rows

section Constraints

variable (env : Env F) {df : DataFrame F} {column : String} {col : Column F}

omit [Float64 F] in
theorem onSeries_found (found : df.column column = some col)
    (check : Series F → List (Violation F)) :
    onSeries df column check = check col.asMaterializedSeries := by
  rw [onSeries, getSeries, found]
  rfl

theorem agree_of_not_unique (found : df.column column = some col) (c : Constraint F)
    (node : DagNode F) (compiled : Compiler.constraintNode column c = some node)
    (other : c ≠ .unique) : Agree env df col.asMaterializedSeries column c node := by
  cases c with
  | notNull | primaryKey =>
    cases compiled
    refine agree_of_sameRows (congrArg Except.ok (onSeries_found found _)) ?_
    exact sameRows_ite _ _ rfl
  | unique => exact absurd rfl other
  | positive | negative | between | len | enum =>
    cases compiled
    refine agree_of_sameRows (congrArg Except.ok (onSeries_found found _)) ?_
    exact sameRows_failing _ (fun _ => rfl) ..
  | min value =>
    cases compiled
    refine agree_of_sameRows (congrArg Except.ok (onSeries_found found _)) ?_
    exact sameRows_failing _ (fun x => Bool.or_false _) ..
  | max value =>
    cases compiled
    refine agree_of_sameRows (congrArg Except.ok (onSeries_found found _)) ?_
    exact sameRows_failing _ (fun x => Bool.false_or _) ..
  | regex pattern =>
    cases compiled
    refine agree_of_sameRows (congrArg Except.ok (onSeries_found found _)) ?_
    rw [SchemaValidator.checkConstraint]
    cases env.regex pattern with
    | error e => exact sameRows_single _ _ rfl
    | ok isMatch => exact sameRows_failing _ (fun _ => rfl) ..
  | coerce | foreignKey => cases compiled

/-- Where the number of unique values is not known, the schema takes it for zero and the node
    for the length. -/
theorem agree_unique_iff (found : df.column column = some col) :
    Agree env df col.asMaterializedSeries column .unique (.uniquenessCheck column .error) ↔
      (env.nUnique col.asMaterializedSeries = none → col.asMaterializedSeries.len = 0) := by
  have ran : executeNode env df (.uniquenessCheck column .error) = .ok _ :=
    congrArg Except.ok (onSeries_found found _)
  cases known : env.nUnique col.asMaterializedSeries with
  | some n =>
    refine iff_of_true (agree_of_sameRows ran ?_) (fun unknown => nomatch unknown)
    simp only [SchemaValidator.checkConstraint, known, Option.getD_some]
    exact sameRows_ite _ _ rfl
  | none =>
    simp only [known, Option.getD_none, ne_eq, not_true_eq_false, if_false] at ran
    simp only [forall_const]
    constructor
    · rintro ⟨vs, ran', reports, -⟩
      obtain rfl := Except.ok.inj (ran.symm.trans ran')
      by_contra filled
      refine reports.mpr ?_ rfl
      simp only [SchemaValidator.checkConstraint, known, Option.getD_none]
      rw [if_pos (Ne.symm filled)]
      rfl
    · intro empty
      refine agree_of_sameRows ran ?_
      simp only [SchemaValidator.checkConstraint, known, empty, Option.getD_none, ne_eq,
        not_true_eq_false, if_false]
      exact sameRows_none

end Constraints

/-- The schema and the compiled contract agree on every constraint of a field, save on the
    uniqueness of a filled column whose unique values polars cannot count. -/
theorem implementations_agree_iff (env : Env F) (df : DataFrame F) (contract : DataContract F)
    (field : FieldDef F) (member : field ∈ contract.schema) (c : Constraint F)
    (constrained : c ∈ field.constraints) (notCoerce : c ≠ .coerce)
    (notKey : ∀ table key, c ≠ .foreignKey table key) (col : Column F)
    (found : df.column field.name = some col) :
    ∃ node, Compiler.constraintNode field.name c = some node ∧
      node ∈ (Compiler.compile contract).nodes ∧
      (Agree env df col.asMaterializedSeries field.name c node ↔
        (c = .unique → env.nUnique col.asMaterializedSeries = none →
          col.asMaterializedSeries.len = 0)) := by
  obtain ⟨node, compiled⟩ : ∃ node, Compiler.constraintNode field.name c = some node := by
    cases c with
    | coerce => exact absurd rfl notCoerce
    | foreignKey table key => exact absurd rfl (notKey table key)
    | _ => exact ⟨_, rfl⟩
  refine ⟨node, compiled, ?_, ?_⟩
  · refine (mem_compile contract node).mpr ⟨?_, ?_⟩
    · simp only [Compiler.rawNodes, Compiler.fieldNodes, List.mem_append, List.mem_flatMap,
        List.mem_cons, List.mem_filterMap]
      exact .inl (.inl (.inl ⟨field, member, .inr (.inr ⟨c, constrained, compiled⟩)⟩))
    · intro complete
      cases c <;> cases compiled <;> cases complete
  · by_cases unique : c = .unique
    · subst unique
      cases compiled
      simp only [forall_const]
      exact agree_unique_iff env found
    · simp only [unique, false_implies, iff_true]
      exact agree_of_not_unique env found c node compiled unique

section Posts

def tagged : DataContract ExtRat :=
  { DataContract.new "posts" with schema := [⟨"tags", .string, [.unique, .notNull]⟩] }

def tagColumn : Column ExtRat := .series "tags" ⟨.string, [some "lean", some "rust"]⟩

def posts : DataFrame ExtRat where
  height := 2
  columns := [tagColumn]
  aligned := by decide
  distinct := by decide

theorem implementations_agree_posts :
    Agree exactEnv posts tagColumn.asMaterializedSeries "tags" .unique
      (.uniquenessCheck "tags" .error) := by
  obtain ⟨node, compiled, -, agrees⟩ := implementations_agree_iff exactEnv posts tagged
    ⟨"tags", .string, [.unique, .notNull]⟩ List.mem_cons_self .unique (by decide) (by decide)
    (fun table key same => by cases same) tagColumn rfl
  cases compiled
  exact agrees.mpr fun _ unknown => nomatch unknown

/-- Kernels that fail to count unique values. -/
def uncountedEnv : Env ExtRat := { exactEnv with nUnique := fun _ => none }

/-- The schema reports two duplicates among the two tags, the node none. -/
theorem uncounted_disagree :
    ¬ Agree uncountedEnv posts tagColumn.asMaterializedSeries "tags" .unique
      (.uniquenessCheck "tags" .error) := by
  rintro ⟨found, ran, reports, -⟩
  have silent : executeNode uncountedEnv posts (.uniquenessCheck "tags" .error) = .ok [] := by rfl
  have duplicates : (SchemaValidator.checkConstraint uncountedEnv tagColumn.asMaterializedSeries
      "tags" .unique).isSome = true := by rfl
  obtain rfl := Except.ok.inj (silent.symm.trans ran)
  exact reports.mpr duplicates rfl

end Posts

end StatGuardian.Engine
