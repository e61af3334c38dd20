import StatGuardian.Py.Binding
import StatGuardian.Py.DbtProfiles

namespace StatGuardian.Py.Dbt

open Binding Metrics Polars

structure DbtArgs where
  projectDir : String := "."
  profilesDir : Option String := none
  profile : Option String := none
  target : Option String := none
  writeResults : Bool := false
  resultsSchema : Option String := none
  failOnWarning : Bool := false

def ofFlag : Option String → Value
  | some text => .str text
  | none => .none

structure Setup where
  manifest : Value
  target : Value
  connStr : String
  resultsSchema : String

def profilesDir (process : Process) (args : DbtArgs) : String :=
  if (ofFlag args.profilesDir).truthy then process.resolve (args.profilesDir.getD "")
  else if (ofFlag (process.environ "DBT_PROFILES_DIR")).truthy then
    process.resolve ((process.environ "DBT_PROFILES_DIR").getD "")
  else joinPath process.home ".dbt"

def profileName (args : DbtArgs) (dbtProject : Value) : Except Raised Value :=
  if (ofFlag args.profile).truthy then .ok (ofFlag args.profile) else dbtProject.get "profile" .none

/-- The first part of `cmd_dbt_validate`, up to the handler of its errors. -/
def setUp (process : Process) (args : DbtArgs) : Except Raised Setup := do
  let projectDir := process.resolve args.projectDir
  let manifest ← loadManifest process projectDir
  let dbtProject ← loadDbtProject process projectDir
  let profileName ← profileName args dbtProject
  if profileName.truthy then
    let profile ← loadProfile process (profilesDir process args) profileName
    let target ← resolveTarget process profile (ofFlag args.target)
    let connStr ← buildConnectionString process target
    let vars ← dbtProject.get "vars" .none
    let schemaVar ← (vars.orElse (.dict [])).get "statguardian_schema" .none
    let schema ← target.get "schema" .none
    let type ← target.get "type" .none
    let targetSchema := schema.orElse (.str (if type.isStr "duckdb" then "main" else "public"))
    let resultsSchema := (ofFlag args.resultsSchema).orElse
      (schemaVar.orElse (.str s!"{targetSchema.text process.repr}_statguardian"))
    return ⟨manifest, target, connStr, resultsSchema.text process.repr⟩
  else
    .error (.dbtIntegrationError "No --profile given and dbt_project.yml has no 'profile' key.")

structure ContractedModel where
  uniqueId : String
  node : Value
  contractPath : Value

/-- One round of the loop in `contracted_models`. -/
def contractedModel (entry : String × Value) : Except Raised (Option ContractedModel) := do
  let resourceType ← entry.2.get "resource_type" .none
  if resourceType.isStr "model" then
    let config ← entry.2.get "config" (.dict [])
    let inConfig ← config.get "meta" .none
    let onNode ← entry.2.get "meta" .none
    let contractPath ← (inConfig.orElse (onNode.orElse (.dict []))).get "statguardian_contract" .none
    return if contractPath.truthy then some ⟨entry.1, entry.2, contractPath⟩ else none
  else return none

def contractedModels (manifest : Value) : Except Raised (List ContractedModel) := do
  let nodes ← manifest.get "nodes" (.dict [])
  match nodes with
  | .dict entries =>
    let found ← entries.mapM contractedModel
    return found.filterMap id
  | _ => .error .attributeError

def relationForNode (repr : Value → String) (node : Value) : Except Raised String := do
  let database ← node.item "database"
  let schema ← node.item "schema"
  let alias_ ← node.item "alias"
  return s!"{database.text repr}.{schema.text repr}.{alias_.text repr}"

structure Row (F : Type) where
  uniqueId : String
  modelName : String
  relationName : String
  contractPath : String
  passed : Bool
  healthScore : F
  grade : String
  violationCount : Nat
  reportJson : String
  validatedAt : Int

/-- What a run finds outside of its process: the contract files, the warehouse, the clock. The
    numbers count the readings of the clock and the inserts of the run. -/
structure World (F : Type) [Float64 F] where
  process : Process
  env : Env F
  contractText : String → Option (Except String String)
  readSql : String → String → Except String (Polars.DataFrame F)
  toJson : Metrics.ValidationReport F → String
  clock : Nat → Int
  insert : Nat → Except String Unit
  save : Except String Unit

/-- The exceptions that the loop over the models handles. -/
inductive ModelError where
  | binding (e : BindingError)
  | declined (scheme : String)
  | sql (exc : String)

def proprietarySchemes : List String :=
  ["oracle", "oracle+cx_oracle", "mssql", "mssql+pyodbc", "mssql+pymssql"]

/-- The text before the first `://`, or all of it. -/
def schemeOf : List Char → List Char
  | [] => []
  | c :: rest => if [':', '/', '/'] <+: c :: rest then [] else c :: schemeOf rest

def checkOss (connStr : String) : Except ModelError Unit :=
  let scheme := String.ofList ((schemeOf connStr.toList).map Char.toLower)
  if scheme ∈ proprietarySchemes then .error (.declined scheme) else .ok ()

section Models

variable {F : Type} [Float64 F] (world : World F)

/-- `execute_sql` without a reference query. -/
def executeSql (engine : Engine F) (connStr query : String) :
    Except (Stop ModelError) (Metrics.ValidationReport F) :=
  match checkOss connStr with
  | .error e => .error (.raised e)
  | .ok () =>
    match world.readSql connStr query with
    | .error exc => .error (.raised (.sql exc))
    | .ok df => Stop.ofExec (engine.execute world.env df none)

variable [DecidableEq F]

/-- The statements of the loop body that have a handler. -/
def validateRelation (text : Except String String) (path connStr relation : String) :
    Except (Stop ModelError) (Metrics.ValidationReport F) :=
  match fromFile (F := F) (fun _ => text) path with
  | .error (.raised e) => .error (.raised (.binding e))
  | .error (.aborted fault) => .error (.aborted fault)
  | .ok engine => executeSql world engine connStr s!"SELECT * FROM {relation}"

def rowOf (model : ContractedModel) (name relation contractPath : String) (number : Nat)
    (report : Metrics.ValidationReport F) : Row F where
  uniqueId := model.uniqueId
  modelName := name
  relationName := relation
  contractPath := contractPath
  passed := report.passed
  healthScore := report.health.score
  grade := report.health.grade
  violationCount := report.violations.length
  reportJson := world.toJson report
  validatedAt := world.clock number

def Stop.ofExcept {E α : Type} : Except E α → Except (Stop E) α
  | .ok value => .ok value
  | .error exc => .error (.raised exc)

/-- The loop body: the row of the model, if it gets one, and whether the run has failed by it. -/
def validateModel (args : DbtArgs) (connStr : String) (number : Nat) (model : ContractedModel) :
    Except (Stop Raised) (Option (Row F) × Bool) :=
  match model.contractPath with
  | .str contractPath => do
    let path := joinPath (world.process.resolve args.projectDir) contractPath
    let name ← Stop.ofExcept (model.node.item "name")
    match world.contractText path with
    | none => return (none, true)
    | some text =>
      let relation ← Stop.ofExcept (relationForNode world.process.repr model.node)
      match validateRelation world text path connStr relation with
      | .error (.raised _) => return (none, true)
      | .error (.aborted fault) => .error (.aborted fault)
      | .ok report =>
        let failed := !report.passed || (args.failOnWarning && report.violations.length > 0)
        return (some (rowOf world model (name.text world.process.repr) relation contractPath number
          report), failed)
  | _ => .error (.raised .typeError)

def validateModels (args : DbtArgs) (connStr : String) :
    List ContractedModel → List (Row F) → Bool → Except (Stop Raised) (List (Row F) × Bool)
  | [], results, anyFailed => .ok (results, anyFailed)
  | model :: rest, results, anyFailed => do
    let (row, failed) ← validateModel world args connStr results.length model
    validateModels args connStr rest (results ++ row.toList) (anyFailed || failed)

/-- The rows that are inserted before the first insert that raises, and whether one does. -/
def writeRows : Nat → List (Row F) → List (Row F) × Bool
  | _, [] => ([], false)
  | number, row :: rest =>
    match world.insert number with
    | .error _ => ([], true)
    | .ok () =>
      let (written, raised) := writeRows (number + 1) rest
      (row :: written, raised)

inductive Ending where
  | exit (code : Nat)
  | raised (exc : Raised)
  | aborted (fault : Fault)
  deriving DecidableEq, Repr

def Ending.ofStop : Stop Raised → Ending
  | .raised exc => .raised exc
  | .aborted fault => .aborted fault

def Ending.status : Ending → Option Nat
  | .exit code => some code
  | .raised _ => some 1
  | .aborted _ => none

structure Insert (F : Type) where
  connStr : String
  schema : String
  row : Row F

/-- What a run leaves behind: its ending, its inserts, and the results file if it writes one. -/
structure Outcome (F : Type) where
  ending : Ending
  inserted : List (Insert F) := []
  saved : Option (List (Row F)) := none

def cmdDbtValidate (args : DbtArgs) : Outcome F :=
  match setUp world.process args with
  | .error (.dbtIntegrationError _) => { ending := .exit 2 }
  | .error exc => { ending := .raised exc }
  | .ok setup =>
    match contractedModels setup.manifest with
    | .error exc => { ending := .raised exc }
    | .ok [] => { ending := .exit 0 }
    | .ok (model :: models) =>
      match validateModels world args setup.connStr (model :: models) [] false with
      | .error stop => { ending := .ofStop stop }
      | .ok (results, anyFailed) =>
        let (written, raised) := if args.writeResults then writeRows world 0 results else ([], false)
        let inserted := written.map fun row => ⟨setup.connStr, setup.resultsSchema, row⟩
        match world.save with
        | .error exc => { ending := .raised (.external exc), inserted := inserted }
        | .ok () => {
            ending := .exit (if anyFailed || raised then 1 else 0)
            inserted := inserted
            saved := some results }

end Models

end StatGuardian.Py.Dbt
