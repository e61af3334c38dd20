import StatGuardian.Library.RelativePath
import StatGuardian.Py.EnvVarCalls

namespace StatGuardian.Py.Dbt

/-- What `json.load` and `yaml.safe_load` build. A number or a date is its text and its truth. -/
inductive Value where
  | none
  | bool (b : Bool)
  | scalar (text : String) (truthy : Bool)
  | str (s : String)
  | list (items : List Value)
  | dict (entries : List (String × Value))

inductive Raised where
  | dbtIntegrationError (msg : String)
  | keyError (key : String)
  | attributeError
  | typeError
  | external (exc : String)
  deriving DecidableEq, Repr

namespace Value

def truthy : Value → Bool
  | .none => false
  | .bool b => b
  | .scalar _ truthy => truthy
  | .str s => !s.isEmpty
  | .list items => !items.isEmpty
  | .dict entries => !entries.isEmpty

/-- The operator `or`. -/
def orElse (value other : Value) : Value := if value.truthy then value else other

def isStr (s : String) : Value → Bool
  | .str t => t == s
  | _ => false

def isHashable : Value → Bool
  | .list _ | .dict _ => false
  | _ => true

def get (value : Value) (key : String) (default : Value) : Except Raised Value :=
  match value with
  | .dict entries => .ok ((entries.lookup key).getD default)
  | _ => .error .attributeError

def item (value : Value) (key : String) : Except Raised Value :=
  match value with
  | .dict entries =>
    match entries.lookup key with
    | some found => .ok found
    | Option.none => .error (.keyError key)
  | _ => .error .typeError

def contains (key value : Value) : Except Raised Bool :=
  match value with
  | .dict entries =>
    if key.isHashable then .ok (entries.any fun entry => key.isStr entry.1) else .error .typeError
  | .list items =>
    match key with
    | .str s => .ok (items.any (isStr s))
    | _ => .ok false
  | .str s =>
    match key with
    | .str part => .ok (Text.contains s part)
    | _ => .error .typeError
  | _ => .error .typeError

/-- What an f-string shows, given the `repr` of lists and dictionaries. -/
def text (repr : Value → String) : Value → String
  | .none => "None"
  | .bool true => "True"
  | .bool false => "False"
  | .scalar text _ => text
  | .str s => s
  | value => repr value

def iterate : Value → List Value
  | .dict entries => entries.map fun entry => .str entry.1
  | .list items => items
  | .str s => s.toList.map fun c => .str (String.singleton c)
  | _ => []

end Value

/-- A file by what reading it yields. -/
inductive Document where
  | absent
  | unreadable (exc : String)
  | loaded (value : Value)

structure Process where
  environ : String → Option String
  home : String
  resolve : String → String
  documents : String → Document
  repr : Value → String

/-- `dir / path`, for a directory that is already resolved. -/
def joinPath (dir path : String) : String :=
  let parts := RelativePath.parts path.toList
  let below := List.intercalate ['/'] parts
  if path.toList.head? = some '/' ∨ dir = "/" then String.ofList ('/' :: below)
  else if parts = [] then dir
  else String.ofList (dir.toList ++ '/' :: below)

section Rendering

variable (environ : String → Option String)

mutual

def renderEnvVars : Value → Except Raised Value
  | .dict entries => do
    let entries ← renderEntries entries
    return .dict entries
  | .list items => do
    let items ← renderItems items
    return .list items
  | .str s =>
    match sub environ 0 s.toList with
    | .ok chars => .ok (.str (String.ofList chars))
    | .error name => .error (.dbtIntegrationError
        s!"profiles.yml references env_var('{name}') but it is not set and no default was given.")
  | value => .ok value

def renderItems : List Value → Except Raised (List Value)
  | [] => .ok []
  | item :: rest => do
    let item ← renderEnvVars item
    let rest ← renderItems rest
    return item :: rest

def renderEntries : List (String × Value) → Except Raised (List (String × Value))
  | [] => .ok []
  | (key, value) :: rest => do
    let value ← renderEnvVars value
    let rest ← renderEntries rest
    return (key, value) :: rest

end

end Rendering

variable (process : Process)

/-- One of the three files, or the error that names what may be wrong if it is not there. -/
def loadDocument (path advice : String) : Except Raised Value :=
  match process.documents path with
  | .absent => .error (.dbtIntegrationError s!"{path} not found — {advice}")
  | .unreadable exc => .error (.external exc)
  | .loaded value => .ok value

def loadManifest (projectDir : String) : Except Raised Value :=
  loadDocument process (joinPath projectDir "target/manifest.json")
    "run `dbt build` or `dbt compile` first."

def loadDbtProject (projectDir : String) : Except Raised Value :=
  loadDocument process (joinPath projectDir "dbt_project.yml") "is --project-dir correct?"

def loadProfile (profilesDir : String) (profileName : Value) : Except Raised Value := do
  let path := joinPath profilesDir "profiles.yml"
  let profiles ← loadDocument process path "is --profiles-dir correct?"
  let known ← Value.contains profileName profiles
  if known then
    let profile ← profiles.item (profileName.text process.repr)
    renderEnvVars process.environ profile
  else
    let available := profiles.iterate.filter fun k => !k.isStr "config"
    .error (.dbtIntegrationError (s!"Profile '{profileName.text process.repr}' not found in {path} " ++
      s!"(available: {process.repr (.list available)})"))

def resolveTarget (profile targetName : Value) : Except Raised Value := do
  let outputs ← profile.get "outputs" (.dict [])
  let targetName ← if targetName.truthy then .ok targetName else profile.get "target" .none
  if targetName.truthy then
    let known ← Value.contains targetName outputs
    if known then outputs.item (targetName.text process.repr)
    else
      .error (.dbtIntegrationError
        (s!"Target '{targetName.text process.repr}' not found in profile outputs " ++
          s!"(available: {process.repr (.list outputs.iterate)})"))
  else .error (.dbtIntegrationError "No target specified and profile has no default 'target'.")

/-- `postgres` and `redshift` differ in the scheme and the port. -/
def serverUrl (scheme port : String) (target : Value) : Except Raised String := do
  let user ← target.item "user"
  let password ← target.get "password" (.str "")
  let host ← target.item "host"
  let port ← target.get "port" (.scalar port true)
  let dbname ← target.item "dbname"
  let text := Value.text process.repr
  return s!"{scheme}://{text user}:{text password}@{text host}:{text port}/{text dbname}"

def buildConnectionString (target : Value) : Except Raised String := do
  let adapterType ← target.get "type" .none
  let text := Value.text process.repr
  if adapterType.isStr "postgres" || adapterType.isStr "postgresql" then
    serverUrl process "postgresql" "5432" target
  else if adapterType.isStr "redshift" then
    serverUrl process "redshift+psycopg2" "5439" target
  else if adapterType.isStr "snowflake" then
    let account ← target.item "account"
    let user ← target.item "user"
    let password ← target.get "password" (.str "")
    let database ← target.item "database"
    return s!"snowflake://{text user}:{text password}@{text account}/{text database}"
  else if adapterType.isStr "bigquery" then
    let project ← target.item "project"
    let dataset ← target.get "dataset" (.str "")
    return s!"bigquery://{text project}/{text dataset}"
  else if adapterType.isStr "duckdb" then
    let path ← target.item "path"
    return s!"duckdb:///{text path}"
  else
    .error (.dbtIntegrationError ("statguardian dbt validate does not yet support dbt adapter type " ++
      s!"{process.repr adapterType}. Supported: postgres, redshift, snowflake, bigquery, duckdb. " ++
      "Run validation manually with statguardian.execute_sql() for other warehouses."))

end StatGuardian.Py.Dbt
