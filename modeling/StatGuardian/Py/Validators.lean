import Mathlib.Data.List.Nodup

namespace StatGuardian.Py

/-- A Python value by what the runner asks of it: `bool(x)`, `list(x)` and `str(x)`, each of which
    may raise. -/
structure PyObject where
  truth : Except String Bool
  items : Except String (List Int)
  text : Except String String

/-- What a validation function returns. A pair is a list or a tuple of length two. -/
inductive Result where
  | none
  | pair (failingRows : PyObject) (message : Option String)
  | other (value : PyObject)

inductive Outcome where
  | returned (result : Result)
  | raised (exc : String)

variable {V World : Type}

/-- An entry of the registry. The function gets the values of a column and may change the world
    that later calls see. -/
structure Entry (V World : Type) where
  fn : List V → World → Outcome × World
  name : String
  severity : String

/-- The registry: the entries for each column name, or for `*`, in the order of registration. -/
structure Registry (V World : Type) where
  items : List (String × List (Entry V World))
  distinct : (items.map Prod.fst).Nodup

structure DataFrame (V : Type) where
  series : List (String × List V)
  distinct : (series.map Prod.fst).Nodup

def DataFrame.columns (df : DataFrame V) : List String := df.series.map Prod.fst

def DataFrame.toList (df : DataFrame V) (column : String) : List V := (df.series.lookup column).getD []

structure Violation where
  column : String
  check : String
  severity : String
  message : Option String
  rowIndices : List Int
  deriving DecidableEq, Repr

namespace Registry

def empty : Registry V World := ⟨[], .nil⟩

/-- `_REGISTRY.setdefault(column, []).append(entry)` -/
def append (column : String) (entry : Entry V World) :
    List (String × List (Entry V World)) → List (String × List (Entry V World))
  | [] => [(column, [entry])]
  | (key, entries) :: rest =>
    if key = column then (key, entries ++ [entry]) :: rest
    else (key, entries) :: append column entry rest

theorem append_keys (column : String) (entry : Entry V World)
    (items : List (String × List (Entry V World))) :
    (append column entry items).map Prod.fst =
      if column ∈ items.map Prod.fst then items.map Prod.fst else items.map Prod.fst ++ [column] := by
  induction items with
  | nil => rfl
  | cons item rest ih =>
    obtain ⟨key, entries⟩ := item
    rw [append]
    split
    · rename_i same
      simp [same]
    · rename_i apart
      simp only [List.map_cons, ih, List.mem_cons, Ne.symm apart, false_or]
      split <;> rfl

def validator (registry : Registry V World) (column : String) (entry : Entry V World) :
    Registry V World where
  items := append column entry registry.items
  distinct := by
    rw [append_keys]
    split
    · exact registry.distinct
    · rename_i fresh
      refine List.nodup_append.mpr ⟨registry.distinct, List.nodup_singleton _, ?_⟩
      rintro key known _ here rfl
      rw [List.mem_singleton.mp here] at known
      exact fresh known

end Registry

structure Call (V World : Type) where
  column : String
  values : List V
  entry : Entry V World

/-- The calls of the three loops, in their order. -/
def calls (registry : Registry V World) (df : DataFrame V) : List (Call V World) :=
  registry.items.flatMap fun item =>
    let cols := if item.1 = "*" then df.columns else [item.1]
    (cols.filter (fun column => df.columns.contains column)).flatMap fun column =>
      item.2.map fun entry => ⟨column, df.toList column, entry⟩

/-- The body of the `try`. -/
def judge (column : String) (entry : Entry V World) : Outcome → Except String (Option Violation)
  | .raised exc => .error exc
  | .returned .none => .ok none
  | .returned (.pair failingRows message) => do
    if ← failingRows.truth then
      return some ⟨column, entry.name, entry.severity, message, ← failingRows.items⟩
    else return none
  | .returned (.other value) => do
    -- no failing rows, and the message is not used
    let _ ← value.text
    return none

def runCall (raiseOnError : Bool) (call : Call V World) (world : World) :
    Except String (Option Violation × World) :=
  let (outcome, world) := call.entry.fn call.values world
  match judge call.column call.entry outcome with
  | .ok violation => .ok (violation, world)
  | .error exc =>
    if raiseOnError then
      .error s!"Custom validator '{call.entry.name}' on column '{call.column}' raised: {exc}"
    else
      .ok (some ⟨call.column, call.entry.name, "error", some s!"validator raised: {exc}", []⟩, world)

def runCalls (raiseOnError : Bool) : List (Call V World) → World →
    Except String (List Violation × World)
  | [], world => .ok ([], world)
  | call :: rest, world => do
    let (violation, world) ← runCall raiseOnError call world
    let (violations, world) ← runCalls raiseOnError rest world
    return (violation.toList ++ violations, world)

def runCustomValidators (registry : Registry V World) (df : DataFrame V) (raiseOnError : Bool)
    (world : World) : Except String (List Violation × World) :=
  runCalls raiseOnError (calls registry df) world

structure ValidationReport where
  id : String
  dataset : String
  rowCount : Nat
  passed : Bool
  violations : List Violation

structure MergedReport where
  id : String
  dataset : String
  rowCount : Nat
  passed : Bool
  violations : List Violation
  nativeViolationCount : Nat
  customViolationCount : Nat

def mergeViolations (report : ValidationReport) (extraViolations : List Violation) :
    MergedReport where
  id := report.id
  dataset := report.dataset
  rowCount := report.rowCount
  passed := report.passed && !extraViolations.any (fun v => v.severity == "blocking")
  violations := report.violations ++ extraViolations
  nativeViolationCount := report.violations.length
  customViolationCount := extraViolations.length

end StatGuardian.Py
