import StatGuardian.Validators.Violation
import StatGuardian.Runtime.Env

namespace StatGuardian.Validators

open StatGuardian.Core Polars

variable {F : Type} [Float64 F]

namespace SchemaValidator

/-- `matches!` in `check_type`: the polars types a contract type stands for. -/
def typeMatches : Core.DataType → Polars.DataType → Bool
  | .int, .int8 | .int, .int16 | .int, .int32 | .int, .int64
  | .int, .uint8 | .int, .uint16 | .int, .uint32 | .int, .uint64 => true
  | .float, .float32 | .float, .float64 => true
  | .string, .string => true
  | .bool, .boolean => true
  | .date, .date => true
  | .datetime, .datetime => true
  | .bytes, .binary => true
  | _, _ => false

def checkType (env : Env F) (series : Series F) (field : FieldDef F) : List (Violation F) :=
  if typeMatches field.dataType series.dtype then []
  else
    let severity := if hasCoerce field.constraints then Severity.warning else Severity.blocking
    [Violation.new field.name "type_check"
      s!"column '{field.name}' has dtype {env.debugDtype series.dtype}, expected {field.dataType.display}"
      severity]

/-- One round of the loop in `check_constraints`. -/
def checkConstraint (env : Env F) (series : Series F) (col : String) :
    Constraint F → Option (Violation F)
  | .notNull | .primaryKey =>
    let n := series.nullCount
    if n > 0 then
      some ((Violation.new col "not_null" s!"{n} null value(s) in '{col}'" .error).withValues
        (Float64.ofNat n) Float64.zero)
    else none
  | .unique =>
    let nUnique := (env.nUnique series).getD 0
    let nTotal := series.len
    if nUnique ≠ nTotal then
      some ((Violation.new col "uniqueness" s!"{nTotal - nUnique} duplicate(s) in '{col}'"
        .error).withValues (Float64.ofNat nUnique) (Float64.ofNat nTotal))
    else none
  | .positive => do
    let ca ← env.castF64 series
    rowViolation col "positive" .error (fun n => s!"{n} non-positive value(s) in '{col}'")
      (failingRows (fun x => Float64.le x Float64.zero) ca)
  | .negative => do
    let ca ← env.castF64 series
    rowViolation col "negative" .error (fun n => s!"{n} non-negative value(s) in '{col}'")
      (failingRows (fun x => Float64.ge x Float64.zero) ca)
  | .between min max => do
    let ca ← env.castF64 series
    rowViolation col "between" .error
      (fun n => s!"{n} value(s) outside [{env.display min},{env.display max}] in '{col}'")
      (failingRows (fun x => Float64.lt x min || Float64.gt x max) ca)
  | .min value => do
    let ca ← env.castF64 series
    rowViolation col "min" .error
      (fun n => s!"{n} value(s) below min={env.display value} in '{col}'")
      (failingRows (fun x => Float64.lt x value) ca)
  | .max value => do
    let ca ← env.castF64 series
    rowViolation col "max" .error
      (fun n => s!"{n} value(s) above max={env.display value} in '{col}'")
      (failingRows (fun x => Float64.gt x value) ca)
  | .regex pattern =>
    match env.regex pattern with
    | .error e => some (Violation.new col "regex" s!"invalid pattern '{pattern}': {e}" .error)
    | .ok isMatch => do
      let ca ← series.str
      rowViolation col "regex" .error
        (fun n => s!"{n} value(s) don't match '{pattern}' in '{col}'")
        (failingRows (fun s => ! isMatch s) ca)
  | .len min max => do
    let ca ← series.str
    rowViolation col "len" .error
      (fun n => s!"{n} value(s) with length outside [{min},{max}] in '{col}'")
      (failingRows (fun s => s.utf8ByteSize < min || s.utf8ByteSize > max) ca)
  | .enum values => do
    let ca ← series.str
    rowViolation col "enum" .error (fun n => s!"{n} value(s) not in allowed set in '{col}'")
      (failingRows (fun s => ! values.contains s) ca)
  | .coerce | .foreignKey .. => none

def checkConstraints (env : Env F) (series : Series F) (constraints : List (Constraint F))
    (col : String) : List (Violation F) :=
  constraints.filterMap (checkConstraint env series col)

def validateField (env : Env F) (df : DataFrame F) (field : FieldDef F) : List (Violation F) :=
  match df.column field.name with
  | none =>
    [Violation.new field.name "column_exists" s!"column '{field.name}' not found in dataset"
      .blocking]
  | some col =>
    let series := col.asMaterializedSeries
    checkType env series field ++ checkConstraints env series field.constraints field.name

def validate (env : Env F) (df : DataFrame F) (fields : List (FieldDef F)) : List (Violation F) :=
  fields.flatMap (validateField env df)

def constraintCheck : Constraint F → Option String
  | .notNull | .primaryKey => some "not_null"
  | .unique => some "uniqueness"
  | .positive => some "positive"
  | .negative => some "negative"
  | .between .. => some "between"
  | .min _ => some "min"
  | .max _ => some "max"
  | .regex _ => some "regex"
  | .len .. => some "len"
  | .enum _ => some "enum"
  | .coerce | .foreignKey .. => none

theorem checkConstraint_key (env : Env F) (series : Series F) (col : String) (c : Constraint F)
    (v : Violation F) (reports : checkConstraint env series col c = some v) :
    v.column = col ∧ constraintCheck c = some v.check := by
  cases c <;> simp only [checkConstraint, Option.bind_eq_bind, Option.bind_eq_some_iff,
    rowViolation_eq_some] at reports
  case notNull | primaryKey | unique =>
    split at reports
    · cases reports; exact ⟨rfl, rfl⟩
    · cases reports
  case positive | negative | between | min | max | len | enum =>
    obtain ⟨_, _, _, rfl⟩ := reports
    exact ⟨rfl, rfl⟩
  case regex =>
    split at reports
    · cases reports; exact ⟨rfl, rfl⟩
    · simp only [Option.bind_eq_some_iff, rowViolation_eq_some] at reports
      obtain ⟨_, _, _, rfl⟩ := reports
      exact ⟨rfl, rfl⟩
  case coerce | foreignKey => cases reports

theorem checkType_key (env : Env F) (series : Series F) (field : FieldDef F) (v : Violation F)
    (reports : v ∈ checkType env series field) : v.column = field.name ∧ v.check = "type_check" := by
  unfold checkType at reports
  split at reports
  · cases reports
  · rw [List.mem_singleton] at reports
    subst reports
    exact ⟨rfl, rfl⟩

theorem validateField_key (env : Env F) (df : DataFrame F) (field : FieldDef F) (v : Violation F)
    (reports : v ∈ validateField env df field) :
    v.column = field.name ∧ (v.check = "column_exists" ∨ v.check = "type_check" ∨
      ∃ c ∈ field.constraints, constraintCheck c = some v.check) := by
  unfold validateField at reports
  split at reports
  · rw [List.mem_singleton] at reports
    subst reports
    exact ⟨rfl, .inl rfl⟩
  · rcases List.mem_append.mp reports with typed | constrained
    · have key := checkType_key env _ field v typed
      exact ⟨key.1, .inr (.inl key.2)⟩
    · obtain ⟨c, member, reported⟩ := List.mem_filterMap.mp constrained
      have key := checkConstraint_key env _ field.name c v reported
      exact ⟨key.1, .inr (.inr ⟨c, member, key.2⟩)⟩

def schemaChecks : List String :=
  ["column_exists", "type_check", "not_null", "uniqueness", "positive", "negative", "between",
    "min", "max", "regex", "len", "enum"]

theorem validate_check (env : Env F) (df : DataFrame F) (fields : List (FieldDef F))
    (v : Violation F) (reports : v ∈ validate env df fields) : v.check ∈ schemaChecks := by
  obtain ⟨field, _, reported⟩ := List.mem_flatMap.mp reports
  rcases (validateField_key env df field v reported).2 with absent | typed | ⟨c, _, named⟩
  · rw [absent]; decide
  · rw [typed]; decide
  · cases c <;> simp only [constraintCheck, Option.some.injEq, reduceCtorEq] at named <;>
      (rw [← named]; decide)

end SchemaValidator

end StatGuardian.Validators
