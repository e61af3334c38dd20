import StatGuardian.Core.Ast

namespace StatGuardian.Validators

open StatGuardian.Core

/-- `rowIndices` is empty for a check of the whole column. -/
structure Violation (F : Type) where
  column : String
  check : String
  message : String
  severity : Severity
  rowIndices : List Nat
  observed : Option F
  expected : Option F
  deriving DecidableEq, Repr

namespace Violation

variable {F : Type}

def new (column check message : String) (severity : Severity) : Violation F where
  column := column
  check := check
  message := message
  severity := severity
  rowIndices := []
  observed := none
  expected := none

def withRows (v : Violation F) (rows : List Nat) : Violation F := { v with rowIndices := rows }

def withValues (v : Violation F) (observed expected : F) : Violation F :=
  { v with observed := some observed, expected := some expected }

@[simp] theorem new_column (column check message : String) (severity : Severity) :
    (new column check message severity : Violation F).column = column := rfl

@[simp] theorem new_check (column check message : String) (severity : Severity) :
    (new column check message severity : Violation F).check = check := rfl

@[simp] theorem new_message (column check message : String) (severity : Severity) :
    (new column check message severity : Violation F).message = message := rfl

@[simp] theorem new_severity (column check message : String) (severity : Severity) :
    (new column check message severity : Violation F).severity = severity := rfl

@[simp] theorem new_rowIndices (column check message : String) (severity : Severity) :
    (new column check message severity : Violation F).rowIndices = [] := rfl

@[simp] theorem withRows_column (v : Violation F) (rows : List Nat) :
    (v.withRows rows).column = v.column := rfl

@[simp] theorem withRows_check (v : Violation F) (rows : List Nat) :
    (v.withRows rows).check = v.check := rfl

@[simp] theorem withRows_severity (v : Violation F) (rows : List Nat) :
    (v.withRows rows).severity = v.severity := rfl

@[simp] theorem withRows_rowIndices (v : Violation F) (rows : List Nat) :
    (v.withRows rows).rowIndices = rows := rfl

@[simp] theorem withValues_column (v : Violation F) (observed expected : F) :
    (v.withValues observed expected).column = v.column := rfl

@[simp] theorem withValues_check (v : Violation F) (observed expected : F) :
    (v.withValues observed expected).check = v.check := rfl

@[simp] theorem withValues_severity (v : Violation F) (observed expected : F) :
    (v.withValues observed expected).severity = v.severity := rfl

@[simp] theorem withValues_rowIndices (v : Violation F) (observed expected : F) :
    (v.withValues observed expected).rowIndices = v.rowIndices := rfl

end Violation

/-- The rows whose non-null value fails, `ca.iter().enumerate().filter_map(..)`. -/
def failingRows {α : Type} (fails : α → Bool) (cells : List (Option α)) : List Nat :=
  cells.zipIdx.filterMap (fun cell => (cell.1.filter fails).map (fun _ => cell.2))

theorem mem_failingRows {α : Type} (fails : α → Bool) (cells : List (Option α)) (i : Nat) :
    i ∈ failingRows fails cells ↔ ∃ x, cells[i]? = some (some x) ∧ fails x = true := by
  unfold failingRows
  rw [List.mem_filterMap]
  constructor
  · rintro ⟨⟨cell, j⟩, member, kept⟩
    obtain ⟨x, chosen, rfl⟩ := Option.map_eq_some_iff.mp kept
    obtain ⟨rfl, fail⟩ := Option.filter_eq_some_iff.mp chosen
    exact ⟨x, List.mem_zipIdx_iff_getElem?.mp member, fail⟩
  · rintro ⟨x, found, fail⟩
    exact ⟨(some x, i), List.mem_zipIdx_iff_getElem?.mpr found, by simp [fail]⟩

theorem failingRows_lt {α : Type} (fails : α → Bool) (cells : List (Option α)) (i : Nat)
    (member : i ∈ failingRows fails cells) : i < cells.length := by
  obtain ⟨x, found, _⟩ := (mem_failingRows fails cells i).mp member
  exact (List.getElem?_eq_some_iff.mp found).1

theorem mem_failingRows_slice {α : Type} (fails : α → Bool) (cells : List (Option α))
    (offset length i : Nat) :
    i ∈ failingRows fails ((cells.drop offset).take length) ↔
      i < length ∧ offset + i ∈ failingRows fails cells := by
  rw [mem_failingRows, mem_failingRows, List.getElem?_take, List.getElem?_drop]
  by_cases inside : i < length <;> simp [inside]

section RowViolation

variable {F : Type}

/-- The violation of a check that lists its failing rows, if there are any. -/
def rowViolation (column check : String) (severity : Severity) (message : Nat → String)
    (rows : List Nat) : Option (Violation F) :=
  if rows.isEmpty then none
  else some ((Violation.new column check (message rows.length) severity).withRows rows)

theorem rowViolation_eq_some (column check : String) (severity : Severity)
    (message : Nat → String) (rows : List Nat) (v : Violation F) :
    rowViolation column check severity message rows = some v ↔
      rows ≠ [] ∧ v = (Violation.new column check (message rows.length) severity).withRows rows := by
  unfold rowViolation
  cases rows with
  | nil => simp
  | cons row rest => simp [eq_comm]

end RowViolation

end StatGuardian.Validators
