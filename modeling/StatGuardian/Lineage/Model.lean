import Mathlib.Data.Finmap
import StatGuardian.Runtime.Float64

namespace StatGuardian.Lineage

/-- `DateTime<Utc>`: an instant, in nanoseconds from the epoch. -/
structure DateTime where
  nanos : Int
  deriving DecidableEq, Repr

/-- `IndexMap<String, V>`: the entries in insertion order, one a key. -/
structure IndexMap (V : Type) where
  entries : List (String × V)
  nodup : (entries.map Prod.fst).Nodup

def IndexMap.new {V : Type} : IndexMap V := ⟨[], List.nodup_nil⟩

structure LineageNode where
  nodeId : String
  tableId : String
  stage : String
  version : Nat
  warehouse : String
  database : String
  schemaName : String
  tableName : String
  transformationSql : Option String
  transformationName : Option String
  description : Option String
  owner : Option String
  createdAt : DateTime
  lastAccessed : Option DateTime
  columns : List String
  rowCount : Option Int
  deriving DecidableEq, Repr

structure LineageEdge where
  edgeId : String
  sourceNodeId : String
  targetNodeId : String
  joinType : Option String
  columnsUsed : List String
  filterCondition : Option String
  version : Nat
  createdAt : DateTime
  lastModified : Option DateTime
  modificationReason : Option String
  deriving DecidableEq, Repr

structure LineageGraph where
  warehouseId : String
  timestamp : DateTime
  nodes : IndexMap LineageNode
  edges : List LineageEdge

def LineageGraph.new (warehouseId : String) (now : DateTime) : LineageGraph where
  warehouseId := warehouseId
  timestamp := now
  nodes := .new
  edges := []

inductive ChangeType where
  | nodeAdded | nodeRemoved | edgeAdded | edgeRemoved | edgeModified
  deriving DecidableEq, Repr

def ChangeType.toString : ChangeType → String
  | .nodeAdded => "node_added"
  | .nodeRemoved => "node_removed"
  | .edgeAdded => "edge_added"
  | .edgeRemoved => "edge_removed"
  | .edgeModified => "edge_modified"

inductive ChangeSeverity where
  | none | low | medium | high
  deriving DecidableEq, Repr

def ChangeSeverity.toString : ChangeSeverity → String
  | .none => "NONE"
  | .low => "LOW"
  | .medium => "MEDIUM"
  | .high => "HIGH"

structure LineageChange where
  changeType : ChangeType
  sourceTable : String
  targetTable : Option String
  changeReason : Option String
  changedAt : DateTime
  changedBy : Option String
  tablesAffected : List String
  severity : ChangeSeverity
  propagatesSchemaChanges : Bool
  deriving DecidableEq, Repr

/-- A quality score as JSON carries it: there is no text for a NaN or an infinity. -/
abbrev Score (F : Type) [Float64 F] :=
  {score : F // Float64.lt Float64.negInfinity score = true ∧
    Float64.lt score Float64.infinity = true}

structure LineageVersion (F : Type) [Float64 F] where
  versionId : String
  lineageGraph : LineageGraph
  versionNumber : Nat
  timestamp : DateTime
  schemaVersions : Finmap (fun _ : String => Nat)
  qualityScores : Finmap (fun _ : String => Score F)
  changesFromPrevious : List LineageChange
  changeSeverity : ChangeSeverity

def formatVersionId (warehouseId : String) (versionNumber : Nat) : String :=
  warehouseId ++ "__v" ++ toString versionNumber

def LineageVersion.new {F : Type} [Float64 F] (warehouseId : String) (versionNumber : Nat)
    (lineageGraph : LineageGraph) (now : DateTime) : LineageVersion F where
  versionId := formatVersionId warehouseId versionNumber
  lineageGraph := lineageGraph
  versionNumber := versionNumber
  timestamp := now
  schemaVersions := ∅
  qualityScores := ∅
  changesFromPrevious := []
  changeSeverity := .none

theorem ChangeType.toString_injective : Function.Injective ChangeType.toString := by
  intro a b same
  cases a <;> cases b <;> first | rfl | exact absurd same (by decide)

theorem append_last_inj {α : Type*} {mark : α} {before before' after after' : List α}
    (left : mark ∉ after) (right : mark ∉ after')
    (same : before ++ mark :: after = before' ++ mark :: after') :
    before = before' ∧ after = after' := by
  rcases List.append_eq_append_iff.mp same with ⟨middle, first, rest⟩ | ⟨middle, first, rest⟩
  · cases middle with
    | nil => simp_all
    | cons c middle =>
      rw [List.cons_append, List.cons.injEq] at rest
      exact absurd (rest.2 ▸ List.mem_append_right _ List.mem_cons_self) left
  · cases middle with
    | nil => simp_all
    | cons c middle =>
      rw [List.cons_append, List.cons.injEq] at rest
      exact absurd (rest.2 ▸ List.mem_append_right _ List.mem_cons_self) right

theorem toList_formatVersionId (warehouseId : String) (versionNumber : Nat) :
    (formatVersionId warehouseId versionNumber).toList =
      (warehouseId.toList ++ ['_', '_']) ++ 'v' :: Nat.toDigits 10 versionNumber := by
  simp [formatVersionId]

/-- The number is what follows the last `v`, so a warehouse name may itself hold `__v` and
    digits. -/
theorem formatVersionId_inj {warehouse warehouse' : String} {number number' : Nat}
    (same : formatVersionId warehouse number = formatVersionId warehouse' number') :
    warehouse = warehouse' ∧ number = number' := by
  have digits : ∀ n, 'v' ∉ Nat.toDigits 10 n := by
    intro n member
    exact absurd (Nat.isDigit_of_mem_toDigits (by decide) (by decide) member) (by decide)
  have texts := congrArg String.toList same
  rw [toList_formatVersionId, toList_formatVersionId] at texts
  have parts := append_last_inj (digits number) (digits number') texts
  refine ⟨String.toList_inj.mp (List.append_cancel_right parts.1), ?_⟩
  rw [← Nat.ofDigitChars_ten_toDigits (n := number), parts.2, Nat.ofDigitChars_ten_toDigits]

end StatGuardian.Lineage
