import Mathlib.Data.List.Sort
import StatGuardian.Library.UniqueTable
import StatGuardian.Lineage.Model

namespace StatGuardian.Lineage

variable {F J : Type} [Float64 F]

/-- The text formats of `serde_json` and `chrono`, with `J` the type of JSON texts, and whether the
    SQLite library enforces foreign keys. An RFC 3339 text that reads back names the instant it was
    written from; an instant outside the years 0 to 9999 need not read back. -/
structure StoreEnv (F J : Type) [Float64 F] where
  graphToString : LineageGraph → J
  graphFromStr : J → Option LineageGraph
  graph_round_trip : ∀ graph, graphFromStr (graphToString graph) = some graph
  versionsToString : Finmap (fun _ : String => Nat) → J
  versionsFromStr : J → Option (Finmap (fun _ : String => Nat))
  versions_round_trip : ∀ versions, versionsFromStr (versionsToString versions) = some versions
  scoresToString : Finmap (fun _ : String => Score F) → J
  scoresFromStr : J → Option (Finmap (fun _ : String => Score F))
  scores_round_trip : ∀ scores, scoresFromStr (scoresToString scores) = some scores
  tablesToString : List String → J
  tablesFromStr : J → Option (List String)
  tables_round_trip : ∀ tables, tablesFromStr (tablesToString tables) = some tables
  toRfc3339 : DateTime → String
  parseFromRfc3339 : String → Option DateTime
  parse_toRfc3339 : ∀ time read, parseFromRfc3339 (toRfc3339 time) = some read → read = time
  foreignKeys : Bool

inductive StoreError where
  | json | timestamp | database
  deriving DecidableEq, Repr

structure VersionRow (J : Type) where
  versionId : String
  warehouseId : String
  versionNumber : Nat
  timestamp : String
  graphJson : J
  schemaVersionsJson : J
  qualityScoresJson : J
  changeSeverity : String
  createdAt : String

/-- The columns of `UNIQUE(warehouse_id, version_number)`. -/
def VersionRow.number (row : VersionRow J) : String × Nat := (row.warehouseId, row.versionNumber)

def VersionRow.clash (a b : VersionRow J) : Bool :=
  a.versionId == b.versionId || a.number == b.number

structure ChangeRow (J : Type) where
  changeId : String
  versionId : String
  changeType : String
  sourceTable : String
  targetTable : Option String
  changeReason : Option String
  changedAt : String
  changedBy : Option String
  tablesAffectedJson : J
  severity : String
  propagatesSchemaChanges : Int

/-- The columns of `UNIQUE(version_id, source_table, change_type)`. -/
def ChangeRow.subject (row : ChangeRow J) : String × String × String :=
  (row.versionId, row.sourceTable, row.changeType)

def ChangeRow.clash (a b : ChangeRow J) : Bool :=
  a.changeId == b.changeId || a.subject == b.subject

structure Store (J : Type) where
  versions : UniqueTable (VersionRow J) VersionRow.clash
  changes : UniqueTable (ChangeRow J) ChangeRow.clash

def Store.empty : Store J := ⟨.empty, .empty⟩

inductive Statement (J : Type) where
  | insertVersion (row : VersionRow J)
  | insertChange (row : ChangeRow J)

/-- Replacing rows for this one would leave a change without its version. -/
def Store.orphans (store : Store J) (row : VersionRow J) : Bool :=
  store.versions.rows.any fun r => r.clash row && r.versionId != row.versionId &&
    store.changes.rows.any (fun change => change.versionId == r.versionId)

/-- One autocommitted statement: it either takes effect as a whole or breaks a foreign key and
    changes nothing. -/
def Store.execute (foreignKeys : Bool) (store : Store J) : Statement J → Option (Store J)
  | .insertVersion row =>
    if foreignKeys && store.orphans row then none
    else some { store with versions := store.versions.insertOrReplace row }
  | .insertChange row =>
    if foreignKeys && !store.versions.rows.any (fun r => r.versionId == row.versionId) then none
    else some { store with changes := store.changes.insertOrReplace row }

structure Uuid where
  text : String
  length_eq : text.length = 36
  deriving DecidableEq

def versionRow (env : StoreEnv F J) (now : DateTime) (version : LineageVersion F) :
    VersionRow J where
  versionId := version.versionId
  warehouseId := version.lineageGraph.warehouseId
  versionNumber := version.versionNumber
  timestamp := env.toRfc3339 version.timestamp
  graphJson := env.graphToString version.lineageGraph
  schemaVersionsJson := env.versionsToString version.schemaVersions
  qualityScoresJson := env.scoresToString version.qualityScores
  changeSeverity := version.changeSeverity.toString
  createdAt := env.toRfc3339 now

def changeRow (env : StoreEnv F J) (change : LineageChange) (versionId : String) (uuid : Uuid) :
    ChangeRow J where
  changeId := versionId ++ "_" ++ uuid.text
  versionId := versionId
  changeType := change.changeType.toString
  sourceTable := change.sourceTable
  targetTable := change.targetTable
  changeReason := change.changeReason
  changedAt := env.toRfc3339 change.changedAt
  changedBy := change.changedBy
  tablesAffectedJson := env.tablesToString change.tablesAffected
  severity := change.severity.toString
  propagatesSchemaChanges := if change.propagatesSchemaChanges then 1 else 0

def saveVersion (env : StoreEnv F J) (now : DateTime) (version : LineageVersion F) : Statement J :=
  .insertVersion (versionRow env now version)

def saveChange (env : StoreEnv F J) (change : LineageChange) (versionId : String) (uuid : Uuid) :
    Statement J :=
  .insertChange (changeRow env change versionId uuid)

def readChangeType : String → ChangeType
  | "node_added" => .nodeAdded
  | "node_removed" => .nodeRemoved
  | "edge_added" => .edgeAdded
  | "edge_removed" => .edgeRemoved
  | "edge_modified" => .edgeModified
  | _ => .nodeAdded

def readSeverity : String → ChangeSeverity
  | "NONE" => .none
  | "LOW" => .low
  | "MEDIUM" => .medium
  | "HIGH" => .high
  | _ => .none

def orFail {α : Type} (error : StoreError) : Option α → Except StoreError α
  | some a => .ok a
  | none => .error error

def readChange (env : StoreEnv F J) (row : ChangeRow J) : Except StoreError LineageChange := do
  let changedAt ← orFail .timestamp (env.parseFromRfc3339 row.changedAt)
  let tablesAffected ← orFail .json (env.tablesFromStr row.tablesAffectedJson)
  return {
    changeType := readChangeType row.changeType
    sourceTable := row.sourceTable
    targetTable := row.targetTable
    changeReason := row.changeReason
    changedAt := changedAt
    changedBy := row.changedBy
    tablesAffected := tablesAffected
    severity := readSeverity row.severity
    propagatesSchemaChanges := row.propagatesSchemaChanges != 0 }

def Store.changesOf (store : Store J) (versionId : String) : List (ChangeRow J) :=
  store.changes.rows.filter (fun row => row.versionId = versionId)

def getChanges (env : StoreEnv F J) (store : Store J) (versionId : String) :
    Except StoreError (List LineageChange) :=
  (store.changesOf versionId).mapM (readChange env)

def readVersion (env : StoreEnv F J) (store : Store J) (row : VersionRow J) :
    Except StoreError (LineageVersion F) := do
  let lineageGraph ← orFail .json (env.graphFromStr row.graphJson)
  let schemaVersions ← orFail .json (env.versionsFromStr row.schemaVersionsJson)
  let qualityScores ← orFail .json (env.scoresFromStr row.qualityScoresJson)
  let timestamp ← orFail .timestamp (env.parseFromRfc3339 row.timestamp)
  let changes ← getChanges env store row.versionId
  return {
    versionId := row.versionId
    lineageGraph := lineageGraph
    versionNumber := row.versionNumber
    timestamp := timestamp
    schemaVersions := schemaVersions
    qualityScores := qualityScores
    changesFromPrevious := changes
    changeSeverity := readSeverity row.changeSeverity }

def getVersion (env : StoreEnv F J) (store : Store J) (warehouseId : String)
    (versionNumber : Nat) : Except StoreError (Option (LineageVersion F)) :=
  match store.versions.rows.find? (fun row => row.number = (warehouseId, versionNumber)) with
  | some row => some <$> readVersion env store row
  | none => .ok none

/-- `ORDER BY version_number DESC` -/
def Store.versionNumbers (store : Store J) (warehouseId : String) : List Nat :=
  ((store.versions.rows.filter (fun row => row.warehouseId = warehouseId)).map
    VersionRow.versionNumber).insertionSort (· ≥ ·)

/-- `limit as i32` -/
def asI32 (limit : Nat) : Int := (BitVec.ofNat 32 limit).toInt

/-- `LIMIT ?`, where a negative limit is none. -/
def sqlLimit {α : Type} (limit : Int) (rows : List α) : List α :=
  if limit < 0 then rows else rows.take limit.toNat

def listVersions (store : Store J) (warehouseId : String) (limit : Nat) : List Nat :=
  sqlLimit (asI32 limit) (store.versionNumbers warehouseId)

def getLatestVersion (env : StoreEnv F J) (store : Store J) (warehouseId : String) :
    Except StoreError (Option (LineageVersion F)) :=
  match (store.versionNumbers warehouseId).head? with
  | some versionNumber => getVersion env store warehouseId versionNumber
  | none => .ok none

end StatGuardian.Lineage
