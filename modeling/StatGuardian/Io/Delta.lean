import Mathlib.Algebra.GroupWithZero.Nat
import StatGuardian.Library.Pieces
import StatGuardian.Library.Replay
import StatGuardian.Runtime.Text

namespace StatGuardian.Text

def endsWith (s pattern : String) : Bool := pattern.toList.isSuffixOf s.toList

def dropPrefixes (pattern : List Char) : Nat → List Char → List Char
  | 0, chars => chars
  | fuel + 1, chars =>
    if pattern.isPrefixOf chars then dropPrefixes pattern fuel (chars.drop pattern.length) else chars

/-- `str::trim_end_matches` for a text that is not empty: it is taken off as often as it is there. -/
def trimEndText (pattern s : String) : String :=
  String.ofList (dropPrefixes pattern.toList.reverse s.length s.toList.reverse).reverse

def parseU64 (s : String) : Option Nat :=
  let digits := match s.toList with
    | '+' :: rest => rest
    | chars => chars
  if digits.isEmpty || !digits.all Char.isDigit then none
  else
    let n := digits.foldl (fun n c => 10 * n + (c.toNat - '0'.toNat)) 0
    if n < 2 ^ 64 then some n else none

/-- `str::replace`: the occurrences from left to right that do not overlap. -/
def replaceFrom (pattern by_ : List Char) : Nat → List Char → List Char
  | _, [] => []
  | skip + 1, _ :: rest => replaceFrom pattern by_ skip rest
  | 0, c :: rest =>
    if pattern.isPrefixOf (c :: rest) then
      by_ ++ replaceFrom pattern by_ (pattern.length - 1) rest
    else c :: replaceFrom pattern by_ 0 rest

def replace (s pattern by_ : String) : String :=
  String.ofList (replaceFrom pattern.toList by_.toList 0 s.toList)

def withoutEnding (piece : List Char) : List Char :=
  match piece.reverse with
  | '\n' :: '\r' :: rest => rest.reverse
  | '\n' :: rest => rest.reverse
  | _ => piece

def lines (s : String) : List String :=
  (Pieces.splitAfter (· == '\n') s.toList).map (fun piece => String.ofList (withoutEnding piece))

end StatGuardian.Text

namespace StatGuardian.Io

open KeyedValues

inductive IoError where
  | readError (path msg : String)
  | unsupportedFormat (ext : String)
  | polars (msg : String)
  | io (msg : String)
  deriving DecidableEq, Repr

structure DeltaAdd where
  path : String
  deriving DecidableEq, Repr

structure DeltaRemove where
  path : String
  deriving DecidableEq, Repr

structure DeltaAction where
  add : Option DeltaAdd := none
  remove : Option DeltaRemove := none
  deriving DecidableEq, Repr

/-- What the reader uses of other crates, for frames of a type `D`. -/
structure DeltaEnv (D : Type) where
  /-- `serde_json::from_str::<DeltaAction>`, without the text of its error. -/
  fromStr : String → Option DeltaAction
  readParquet : String → Except IoError D
  vstackMut : D → D → Except String D
  /-- `DataFrame::default()` -/
  empty : D

/-- An entry of a directory: its name as `to_string_lossy` gives it, and what reading the file at
    its path comes to. -/
structure DirEntry where
  name : String
  path : String
  content : Except String String

structure LogDir where
  path : String
  isThere : Bool
  readDir : Except String (List (Except String DirEntry))

/-- The order in which a hash map hands out its values, which it may choose freely. -/
structure HashOrder where
  arrange : List String → List String
  perm : ∀ values, (arrange values).Perm values

def u64Max : Nat := 2 ^ 64 - 1

def commitVersion (name : String) : Option Nat :=
  if Text.endsWith name ".json" then Text.parseU64 (Text.trimEndText ".json" name) else none

def numbered (listing : List (Except String DirEntry)) : List (Nat × DirEntry) :=
  (listing.filterMap Except.toOption).filterMap
    (fun entry => (commitVersion entry.name).map (fun version => (version, entry)))

def commitFiles (listing : List (Except String DirEntry)) : List (Nat × DirEntry) :=
  (numbered listing).mergeSort (fun a b => a.1 ≤ b.1)

def retain (limit : Nat) (commits : List (Nat × DirEntry)) : List (Nat × DirEntry) :=
  commits.filter (fun commit => commit.1 ≤ limit)

def urlDecode (s : String) : String :=
  if s.toList.contains '%' then
    Text.replace (Text.replace (Text.replace s "%20" " ") "%3D" "=") "%2F" "/"
  else s

def fullPath (tableRoot path : String) : String :=
  let root := Text.trimEndMatches (· == '/') tableRoot
  s!"{root}/{urlDecode path}"

namespace DeltaReader

variable {D : Type} (env : DeltaEnv D) (order : HashOrder)

def replayLine (tableRoot : String) (active : Map String String) (line : String) :
    Map String String :=
  let line := Text.trim line
  if line.isEmpty then active
  else
    let action := (env.fromStr line).getD {}
    let active := match action.add with
      | some add => active.insert add.path (fullPath tableRoot add.path)
      | none => active
    match action.remove with
    | some remove => active.erase remove.path
    | none => active

def replayCommit (tableRoot : String) (active : Map String String) (commit : Nat × DirEntry) :
    Except IoError (Map String String) :=
  match commit.2.content with
  | .error msg => .error (.readError commit.2.path msg)
  | .ok content => .ok ((Text.lines content).foldl (replayLine env tableRoot) active)

def resolveActiveFiles (logDir : LogDir) (tableRoot : String) (upToVersion : Option Nat) :
    Except IoError (List String) :=
  match logDir.readDir with
  | .error msg => .error (.readError logDir.path msg)
  | .ok listing => do
    let limit := upToVersion.getD u64Max
    let active ← (retain limit (commitFiles listing)).foldlM (replayCommit env tableRoot) ∅
    return order.arrange (values active)

def vstackAll : List D → Except IoError D
  | [] => .ok env.empty
  | first :: rest =>
    rest.foldlM (fun acc df => (env.vstackMut acc df).mapError IoError.polars) first

def readAndConcat (paths : List String) : Except IoError D := do
  let dfs ← paths.mapM env.readParquet
  vstackAll env dfs

def readVersion (logDir : LogDir) (tablePath : String) (version : Option Nat) : Except IoError D :=
  if !logDir.isThere then
    .error (.readError tablePath "no _delta_log directory found — not a Delta table")
  else do
    let activeFiles ← resolveActiveFiles env order logDir tablePath version
    if activeFiles.isEmpty then
      .error (.readError tablePath "Delta table has no active data files")
    else readAndConcat env activeFiles

def read (logDir : LogDir) (tablePath : String) : Except IoError D :=
  readVersion env order logDir tablePath none

end DeltaReader

end StatGuardian.Io
