import StatGuardian.Engine.Agreement

namespace StatGuardian.Engine

open StatGuardian.Core Polars Validators

variable {F : Type} [Float64 F]

/-- Both the schema and the node of a constraint report the row just if it is a bad one. -/
structure BothReport (env : Env F) (df : DataFrame F) (series : Series F) (column : String)
    (c : Constraint F) (i : Nat) (bad : Prop) : Prop where
  schema : (∃ v, SchemaValidator.checkConstraint env series column c = some v ∧
    i ∈ v.rowIndices) ↔ bad
  dag : ∃ node found, Compiler.constraintNode column c = some node ∧
    executeNode env df node = .ok found ∧ ((∃ v ∈ found, i ∈ v.rowIndices) ↔ bad)

variable {env : Env F} {df : DataFrame F} {column : String} {col : Column F}

theorem bothReport_iff (found : df.column column = some col) {c : Constraint F} {node : DagNode F}
    (compiled : Compiler.constraintNode column c = some node) (other : c ≠ .unique) (i : Nat)
    (bad : Prop) : BothReport env df col.asMaterializedSeries column c i bad ↔
      ((∃ v, SchemaValidator.checkConstraint env col.asMaterializedSeries column c = some v ∧
        i ∈ v.rowIndices) ↔ bad) := by
  refine ⟨BothReport.schema, fun schema => ⟨schema, ?_⟩⟩
  obtain ⟨vs, ran, -, rows⟩ := agree_of_not_unique env found c node compiled other
  refine ⟨node, vs, compiled, ran, ?_⟩
  rw [← schema, ← List.mem_flatMap, rows, List.mem_flatMap]
  simp only [Option.mem_toList]

omit [Float64 F] in
theorem failing_reports_iff {α : Type} {ca : List (Option α)} {fails : α → Bool} {check : String}
    {severity : Severity} {message : Nat → String} (i : Nat) :
    (∃ v : Violation F, rowViolation column check severity message (failingRows fails ca) = some v ∧
      i ∈ v.rowIndices) ↔ ∃ x, ca[i]? = some (some x) ∧ fails x = true := by
  rw [← mem_failingRows]
  constructor
  · rintro ⟨v, reports, listed⟩
    obtain ⟨-, rfl⟩ := (rowViolation_eq_some ..).mp reports
    exact listed
  · intro listed
    exact ⟨_, (rowViolation_eq_some ..).mpr ⟨List.ne_nil_of_mem listed, rfl⟩, listed⟩

end StatGuardian.Engine
