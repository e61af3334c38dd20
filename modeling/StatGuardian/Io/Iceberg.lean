import StatGuardian.Io.Delta
import StatGuardian.Stream.Agent
import StatGuardian.Stream.Positions

namespace StatGuardian.Text

def startsWith (s pattern : String) : Bool := pattern.toList.isPrefixOf s.toList

def trimStartText (pattern s : String) : String :=
  String.ofList (dropPrefixes pattern.toList s.length s.toList)

/-- The characters before and after a byte offset, if it is the boundary of a character. -/
def splitAtByte : Nat → List Char → Option (List Char × List Char)
  | 0, chars => some ([], chars)
  | _ + 1, [] => none
  | n + 1, c :: rest =>
    if c.utf8Size ≤ n + 1 then
      (splitAtByte (n + 1 - c.utf8Size) rest).map (fun parts => (c :: parts.1, parts.2))
    else none

/-- `&s[start..stop]`, which panics where it is none. -/
def slice (s : String) (start stop : Nat) : Option String := do
  let (_, after) ← splitAtByte start s.toList
  let (middle, _) ← splitAtByte (stop - start) after
  return String.ofList middle

end StatGuardian.Text

namespace StatGuardian.Io

open StatGuardian.Stream (Value)

inductive Stop where
  | refused (e : IoError)
  | panicked
  deriving DecidableEq, Repr

structure IcebergSnapshot where
  snapshotId : Int
  manifestList : Option String
  manifests : Option (List String)
  parentSnapshotId : Option Int
  timestampMs : Int
  summary : List (String × String)
  deriving DecidableEq, Repr

structure IcebergMetadata where
  currentSnapshotId : Option Int
  snapshots : Option (List IcebergSnapshot)
  deriving DecidableEq, Repr

structure IcebergDataFile where
  filePath : String
  fileFormat : String
  recordCount : Int
  fileSizeBytes : Int
  deriving DecidableEq, Repr

/-- A file name: what `to_string_lossy` and `display` make of it and whether it is UTF-8. -/
structure OsName where
  text : String
  valid : Bool

/-- What a walk through a directory finds; an entry that cannot be read and the contents of a directory
    that cannot be listed are not there. -/
inductive Node where
  | file (name : OsName)
  | dir (name : OsName) (entries : List Node)

structure Table where
  root : String
  isThere : String → Bool
  readToString : String → Except String String
  /-- The listing of `metadata/`. -/
  metadataDir : Except String (List (Except String OsName))
  /-- What is in `data/`, if that exists. -/
  dataDir : Option (List Node)
  fileLen : String → Option Nat

/-- What the reader uses of other crates, for frames of a type `D`. -/
structure IcebergEnv (D : Type) where
  /-- `serde_json::from_str::<Vec<Value>>` -/
  fromStr : String → Except String (List Value)
  toUppercase : String → String
  readParquet : String → Except IoError D
  vstackMut : D → D → Except String D
  /-- `DataFrame::default()` -/
  empty : D

/-- `Path::join` with a path that is relative. -/
def pathJoin (base name : String) : String :=
  if base.isEmpty || Text.endsWith base "/" then base ++ name else s!"{base}/{name}"

/-- `Path::extension` of a file name: what follows its last dot, unless that is its first character. -/
def extension (name : String) : Option String :=
  let after := name.toList.reverse.takeWhile (· ≠ '.')
  match name.toList.reverse.drop after.length with
  | _ :: _ :: _ => some (String.ofList after.reverse)
  | _ => none

namespace IcebergReader

/-- `path.len() > 1 && &path[1..2] == ":"` -/
def hasDrive (path : String) : Except Stop Bool :=
  if path.utf8ByteSize ≤ 1 then .ok false
  else match Text.slice path 1 2 with
    | none => .error .panicked
    | some second => .ok (second == ":")

def resolvePath (path tableRoot : String) : Except Stop String :=
  if Text.startsWith path "file://" then .ok (Text.trimStartText "file://" path)
  else if Text.startsWith path "/" then .ok path
  else do
    if ← hasDrive path then return path
    else if Text.startsWith path "s3://" || Text.startsWith path "gs://" ||
        Text.startsWith path "abfss://" then
      return path
    else
      let root := Text.trimEndMatches (· == '/') tableRoot
      return s!"{root}/{path}"

variable {D : Type} (env : IcebergEnv D) (table : Table)

def resolveSnapshot (metadata : IcebergMetadata) (snapshotId : Option Int) :
    Except Stop IcebergSnapshot :=
  match snapshotId.orElse (fun _ => metadata.currentSnapshotId) with
  | none => .error (.refused (.readError table.root "Iceberg table has no current snapshot"))
  | some target =>
    match (metadata.snapshots.getD []).find? (fun s => s.snapshotId == target) with
    | none => .error (.refused (.readError table.root s!"snapshot {target} not found in metadata"))
    | some snapshot => .ok snapshot

/-- `Iterator::max_by_key` of the timestamps: the last of the largest. -/
def latest : List IcebergSnapshot → Option IcebergSnapshot
  | [] => none
  | first :: rest =>
    some (rest.foldl (fun best s => if best.timestampMs ≤ s.timestampMs then s else best) first)

def findSnapshotAtTimestamp (metadata : IcebergMetadata) (timestampMs : Int) :
    Except Stop IcebergSnapshot :=
  match latest ((metadata.snapshots.getD []).filter (fun s => s.timestampMs ≤ timestampMs)) with
  | none =>
    .error (.refused (.readError table.root
      s!"no Iceberg snapshot at or before timestamp {timestampMs}"))
  | some snapshot => .ok snapshot

mutual

def walkNode (dir : String) : Node → List String
  | .dir name entries => walkdirParquet (pathJoin dir name.text) entries
  | .file name => if extension name.text = some "parquet" then [pathJoin dir name.text] else []

def walkdirParquet (dir : String) : List Node → List String
  | [] => []
  | entry :: rest => walkNode dir entry ++ walkdirParquet dir rest

end

/-- `len() as i64` -/
def asSigned (len : Nat) : Int := (len : Int).bmod (2 ^ 64)

def scanDataDirectory : List IcebergDataFile :=
  match table.dataDir with
  | none => []
  | some entries =>
    (walkdirParquet (pathJoin table.root "data") entries).map (fun path =>
      ⟨path, "PARQUET", 0, ((table.fileLen path).map asSigned).getD 0⟩)

/-- The data file of a manifest entry as the entry has it, before its path is resolved. -/
def rawDataFile (entry : Value) : Option IcebergDataFile := do
  let dataFile ← entry.child? (.key "data_file")
  let filePath ← (← dataFile.child? (.key "file_path")).asStr
  let fileFormat := ((dataFile.child? (.key "file_format")).bind Value.asStr).getD "PARQUET"
  let recordCount ← dataFile.child? (.key "record_count")
  let fileSize ← dataFile.child? (.key "file_size_in_bytes")
  return ⟨filePath, fileFormat, recordCount.asI64.getD 0, fileSize.asI64.getD 0⟩

def resolveDataFile (raw : IcebergDataFile) : Except Stop IcebergDataFile := do
  let path ← resolvePath raw.filePath table.root
  return { raw with filePath := path }

def readJsonList (path : String) : Except Stop (List Value) :=
  match table.readToString path with
  | .error msg => .error (.refused (.readError path msg))
  | .ok content => (env.fromStr content).mapError (fun msg => .refused (.readError path msg))

def readManifestJson (path : String) : Except Stop (List IcebergDataFile) := do
  let entries ← readJsonList env table path
  (entries.filterMap rawDataFile).mapM (resolveDataFile table)

def readManifest (manifestPath : String) : Except Stop (List IcebergDataFile) :=
  let jsonPath := Text.replace manifestPath ".avro" ".json"
  if table.isThere jsonPath then readManifestJson env table jsonPath
  else if Text.endsWith manifestPath ".json" && table.isThere manifestPath then
    readManifestJson env table manifestPath
  else .ok (scanDataDirectory table)

/-- `files.extend(step(item)?)` for one item after the other. -/
def extendAll {α : Type} (step : α → Except Stop (List IcebergDataFile)) (items : List α) :
    Except Stop (List IcebergDataFile) :=
  items.foldlM (fun files item => do return files ++ (← step item)) []

def readManifestAt (path : String) : Except Stop (List IcebergDataFile) := do
  readManifest env table (← resolvePath path table.root)

def manifestPath? (entry : Value) : Option String :=
  (entry.child? (.key "manifest_path")).bind Value.asStr

def collectFromJsonManifestList (path : String) : Except Stop (List IcebergDataFile) := do
  let entries ← readJsonList env table path
  extendAll (fun entry => match manifestPath? entry with
    | some manifestPath => readManifestAt env table manifestPath
    | none => return []) entries

/-- `to_str().unwrap_or("")` of the entries of `metadata/` that are taken for manifests. -/
def manifestFiles (listing : List (Except String OsName)) : List String :=
  ((listing.filterMap Except.toOption).filter
    (fun name => Text.endsWith name.text ".avro" && !Text.contains name.text "snap-")).map
    (fun name => if name.valid then pathJoin (pathJoin table.root "metadata") name.text else "")

def collectManifestsFromDirectory : Except Stop (List IcebergDataFile) :=
  match table.metadataDir with
  | .error msg => .error (.refused (.io msg))
  | .ok listing => extendAll (readManifest env table) (manifestFiles table listing)

def collectFromManifestList (manifestListPath : String) : Except Stop (List IcebergDataFile) :=
  if Text.endsWith manifestListPath ".json" then
    collectFromJsonManifestList env table manifestListPath
  else collectManifestsFromDirectory env table

def collectDataFiles (snapshot : IcebergSnapshot) : Except Stop (List IcebergDataFile) :=
  match snapshot.manifestList with
  | some manifestListPath => do
    collectFromManifestList env table (← resolvePath manifestListPath table.root)
  | none =>
    match snapshot.manifests with
    | some manifests => extendAll (readManifestAt env table) manifests
    | none =>
      .error (.refused (.readError table.root "snapshot has neither manifest-list nor manifests"))

def vstackAll : List D → Except Stop D
  | [] => .ok env.empty
  | first :: rest =>
    rest.foldlM (fun acc df =>
      (env.vstackMut acc df).mapError (fun msg => Stop.refused (.polars msg))) first

def loadDataFiles (files : List IcebergDataFile) : Except Stop D :=
  let parquetPaths :=
    (files.filter (fun file => env.toUppercase file.fileFormat == "PARQUET")).map (·.filePath)
  if parquetPaths.isEmpty then
    .error (.refused (.readError table.root "Iceberg snapshot contains no PARQUET data files"))
  else do
    let dfs ← parquetPaths.mapM (fun path => (env.readParquet path).mapError Stop.refused)
    vstackAll env dfs

/-- `read_snapshot` after the metadata is loaded. -/
def readSnapshot (metadata : IcebergMetadata) (snapshotId : Option Int) : Except Stop D := do
  let snapshot ← resolveSnapshot table metadata snapshotId
  let dataFiles ← collectDataFiles env table snapshot
  loadDataFiles env table dataFiles

/-- `read_as_of_timestamp` after the metadata is loaded. -/
def readAsOfTimestamp (metadata : IcebergMetadata) (timestampMs : Int) : Except Stop D := do
  let snapshot ← findSnapshotAtTimestamp table metadata timestampMs
  let dataFiles ← collectDataFiles env table snapshot
  loadDataFiles env table dataFiles

end IcebergReader

end StatGuardian.Io
