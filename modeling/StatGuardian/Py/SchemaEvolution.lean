import StatGuardian.Library.MapDiff

namespace StatGuardian.Py

open KeyedValues

inductive ChangeType where
  | added | removed | retyped
  deriving DecidableEq, Repr

structure SchemaChange where
  changeType : ChangeType
  column : String
  oldDtype : Option String := none
  newDtype : Option String := none
  severity : String := "warning"
  deriving DecidableEq, Repr

/-- `str.upper` and `repr` of a text. -/
structure StrMethods where
  upper : String → String
  repr : String → String

def shown (text : Option String) : String := text.getD "None"

def SchemaChange.str (methods : StrMethods) (c : SchemaChange) : String :=
  match c.changeType with
  | .added =>
    s!"[{methods.upper c.severity}] Column added:   {methods.repr c.column} ({shown c.newDtype})"
  | .removed =>
    s!"[{methods.upper c.severity}] Column removed: {methods.repr c.column} (was {shown c.oldDtype})"
  | .retyped =>
    s!"[{methods.upper c.severity}] Column retyped: {methods.repr c.column} " ++
      s!"{shown c.oldDtype} → {shown c.newDtype}"

/-- A data frame or a dictionary, with column types of a type `T`. -/
inductive SchemaSource (T : Type) where
  | frame (schema : Map String T)
  | dict (items : Map String T)

namespace SchemaSource

variable {T : Type}

def isDict : SchemaSource T → Bool
  | .frame _ => false
  | .dict _ => true

def items : SchemaSource T → Map String T
  | .frame schema => schema
  | .dict items => items

def toSchema (str : T → String) (obj : SchemaSource T) : Map String String := mapValues str obj.items

end SchemaSource

inductive PyError where
  | importError (msg : String)
  | valueError (msg : String)
  deriving DecidableEq, Repr

def PyError.str : PyError → String
  | .importError msg => msg
  | .valueError msg => msg

def addedColumns (old new : Map String String) (severity : String) : List SchemaChange :=
  new.entries.filterMap fun entry =>
    if entry.1 ∈ old then none
    else some { changeType := .added, column := entry.1, newDtype := some entry.2, severity }

/-- One turn of the loop over the columns of the reference. -/
def oldColumnChange (new : Map String String) (removedSeverity retypedSeverity : String)
    (entry : Sigma fun _ : String => String) : Option SchemaChange :=
  match get new entry.1 with
  | none =>
    some { changeType := .removed, column := entry.1, oldDtype := some entry.2,
           severity := removedSeverity }
  | some dtype =>
    if entry.2 ≠ dtype then
      some { changeType := .retyped, column := entry.1, oldDtype := some entry.2,
             newDtype := some dtype, severity := retypedSeverity }
    else none

def schemaChanges (old new : Map String String)
    (addedSeverity removedSeverity retypedSeverity : String) : List SchemaChange :=
  addedColumns old new addedSeverity ++
    old.entries.filterMap (oldColumnChange new removedSeverity retypedSeverity)

section Detection

variable {T : Type} (polars : Bool) (str : T → String) (methods : StrMethods)

def detectSchemaChanges (current reference : SchemaSource T)
    (addedSeverity removedSeverity retypedSeverity : String) : Except PyError (List SchemaChange) :=
  if !polars && !current.isDict then
    .error (.importError "polars is required unless you pass schema dicts directly")
  else
    .ok (schemaChanges (reference.toSchema str) (current.toSchema str)
      addedSeverity removedSeverity retypedSeverity)

def breaking (changes : List SchemaChange) : List SchemaChange :=
  changes.filter (·.severity == "error")

def assertNoBreakingChanges (current reference : SchemaSource T) : Except PyError Unit := do
  let changes ← detectSchemaChanges polars str current reference "info" "error" "warning"
  if (breaking changes).isEmpty then return ()
  else
    let msg := "\n".intercalate ((breaking changes).map (SchemaChange.str methods))
    throw (.valueError s!"Breaking schema changes detected:\n{msg}")

def schemaEvolutionReport (changes : List SchemaChange) : String :=
  if changes.isEmpty then "Schema unchanged."
  else
    let sorted := changes.mergeSort fun a b =>
      decide (a.severity < b.severity) || (a.severity == b.severity && decide (a.column ≤ b.column))
    let lines := [s!"Schema evolution — {changes.length} change(s):", ""] ++
      sorted.map (fun c => s!"  {c.str methods}")
    "\n".intercalate lines

structure HttpException where
  statusCode : Nat
  detail : String
  deriving DecidableEq, Repr

structure DetectChangesPayload (T : Type) where
  current : Map String T
  reference : Map String T
  addedSeverity : String := "info"
  removedSeverity : String := "error"
  retypedSeverity : String := "warning"

structure DetectedChanges where
  changes : List SchemaChange
  breaking : Bool
  report : String

def checkSeverity (name value : String) : Except HttpException Unit :=
  if value ∈ ["info", "warning", "error"] then .ok ()
  else .error ⟨400, s!"{name} must be one of ['error', 'info', 'warning']"⟩

def detectChanges (payload : DetectChangesPayload T) : Except HttpException DetectedChanges := do
  checkSeverity "added_severity" payload.addedSeverity
  checkSeverity "removed_severity" payload.removedSeverity
  checkSeverity "retyped_severity" payload.retypedSeverity
  let changes ← (detectSchemaChanges polars str (.dict payload.current) (.dict payload.reference)
    payload.addedSeverity payload.removedSeverity payload.retypedSeverity).mapError
      (fun exc => ⟨400, exc.str⟩)
  return ⟨changes, changes.any (·.severity == "error"), schemaEvolutionReport methods changes⟩

end Detection

end StatGuardian.Py
