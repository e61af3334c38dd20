import StatGuardian.Core.Compiler
import StatGuardian.Core.Parser
import StatGuardian.Engine.Streaming
import StatGuardian.Py.DslSafety

namespace StatGuardian.Py

open StatGuardian.Core Metrics Polars

/-- The ways a call ends without a result: it raises, or a panic ends the process. -/
inductive Stop (E : Type) where
  | raised (exc : E)
  | aborted (fault : Fault)
  deriving DecidableEq, Repr

def Stop.ofExec {E α : Type} : Exec α → Except (Stop E) α
  | .ok value => .ok value
  | .error fault => .error (.aborted fault)

namespace Binding

inductive BindingError where
  | dslValidation (msg : String)
  | dslParse (e : Parser.CoreError)
  | noDatasets
  | cannotRead (path exc : String)
  | io (exc : String)
  deriving DecidableEq, Repr

def ofFailure : Parser.Failure → Stop BindingError
  | .error e => .raised (.dslParse e)
  | .unwrapNone => .aborted .unwrapNone

variable {F : Type} [Float64 F] [DecidableEq F]

def parseAndCompile (dsl : String) : Parser.CoreResult (List (Engine F)) := do
  let contracts ← Parser.parse dsl
  return contracts.map fun contract => ⟨contract, Compiler.compile contract⟩

/-- `DataContract.from_dsl` -/
def fromDsl (dsl : String) : Except (Stop BindingError) (Engine F) :=
  match validateDslSafety dsl with
  | .error msg => .error (.raised (.dslValidation msg))
  | .ok () =>
    match parseAndCompile dsl with
    | .error failure => .error (ofFailure failure)
    | .ok [] => .error (.raised .noDatasets)
    | .ok (engine :: _) => .ok engine

/-- `DataContract.from_file`, given the texts of the files. -/
def fromFile (text : String → Except String String) (path : String) :
    Except (Stop BindingError) (Engine F) :=
  match text path with
  | .error exc => .error (.raised (.cannotRead path exc))
  | .ok dsl => fromDsl dsl

def validateDsl (F : Type) [Float64 F] [DecidableEq F] (dsl : String) :
    Except (Stop BindingError) String :=
  match parseAndCompile (F := F) dsl with
  | .error failure => .error (ofFailure failure)
  | .ok engines => .ok ((engines.head?.map fun engine => engine.contract.name).getD "")

/-- `execute_file`, given what the reader finds in the files. -/
def executeFile (env : Env F) (data : String → Except String (Polars.DataFrame F))
    (engine : Engine F) (path : String) (referencePath : Option String) :
    Except (Stop BindingError) (Metrics.ValidationReport F) :=
  match data path with
  | .error exc => .error (.raised (.io exc))
  | .ok df =>
    match referencePath with
    | none => Stop.ofExec (engine.execute env df none)
    | some path =>
      match data path with
      | .error exc => .error (.raised (.io exc))
      | .ok reference => Stop.ofExec (engine.execute env df (some reference))

def noColumns (F : Type) : Polars.DataFrame F where
  height := 0
  columns := []
  aligned := by simp
  distinct := by simp

section Contracts

variable (dsl : String)

theorem parseAndCompile_ok_iff (engines : List (Engine F)) :
    parseAndCompile dsl = .ok engines ↔ ∃ contracts, Parser.parse dsl = .ok contracts ∧
      engines = contracts.map fun contract => ⟨contract, Compiler.compile contract⟩ := by
  rw [parseAndCompile, Results.bind_ok_iff]
  constructor
  · rintro ⟨contracts, parsed, same⟩
    exact ⟨contracts, parsed, (Except.ok.inj same).symm⟩
  · rintro ⟨contracts, parsed, rfl⟩
    exact ⟨contracts, parsed, rfl⟩

theorem fromDsl_ok_iff (engine : Engine F) :
    fromDsl dsl = .ok engine ↔ validateDslSafety dsl = .ok () ∧
      ∃ contract rest, Parser.parse dsl = .ok (contract :: rest) ∧
        engine = ⟨contract, Compiler.compile contract⟩ := by
  have safe := parseAndCompile_ok_iff (F := F) dsl
  unfold fromDsl
  cases validateDslSafety dsl with
  | error msg => simp
  | ok done =>
    cases compiled : parseAndCompile (F := F) dsl with
    | error failure =>
      simp only [reduceCtorEq, true_and, false_iff]
      rintro ⟨contract, rest, parsed, -⟩
      have found := (safe _).mpr ⟨_, parsed, rfl⟩
      rw [compiled] at found
      cases found
    | ok engines =>
      obtain ⟨contracts, parsed, rfl⟩ := (safe engines).mp compiled
      cases contracts with
      | nil => simp [parsed]
      | cons contract rest => simp [parsed, eq_comm]

theorem validateDsl_ok_iff (name : String) :
    validateDsl F dsl = .ok name ↔ ∃ contracts : List (DataContract F),
      Parser.parse dsl = .ok contracts ∧
        name = (contracts.head?.map fun contract => contract.name).getD "" := by
  have compiles := parseAndCompile_ok_iff (F := F) dsl
  unfold validateDsl
  cases compiled : parseAndCompile (F := F) dsl with
  | error failure =>
    simp only [reduceCtorEq, false_iff]
    rintro ⟨contracts, parsed, -⟩
    have found := (compiles _).mpr ⟨_, parsed, rfl⟩
    rw [compiled] at found
    cases found
  | ok engines =>
    obtain ⟨contracts, parsed, rfl⟩ := (compiles engines).mp compiled
    simp [parsed, List.head?_map, Function.comp_def, eq_comm]

end Contracts

end Binding

end StatGuardian.Py
