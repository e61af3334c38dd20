import StatGuardian.Py.Binding
import StatGuardian.Py.SafetyAgreement

namespace StatGuardian.Py.Cli

open StatGuardian.Core Binding Metrics Polars Regex

variable {F : Type} [Float64 F] [DecidableEq F]

/-- The text that `open` hands out in text mode. -/
def universalNewlines : List Char → List Char
  | '\r' :: '\n' :: rest => '\n' :: universalNewlines rest
  | '\r' :: rest => '\n' :: universalNewlines rest
  | c :: rest => c :: universalNewlines rest
  | [] => []

structure Disk (F : Type) where
  text : String → Except String String
  data : String → Except String (Polars.DataFrame F)

def Disk.openText (disk : Disk F) (path : String) : Except String String :=
  (disk.text path).map fun text => String.ofList (universalNewlines text.toList)

/-- How a command ends, with what it has printed to the standard output. -/
inductive Ending where
  | exit (code : Nat) (stdout : Option String)
  | aborted (fault : Fault)
  deriving DecidableEq, Repr

namespace Ending

def code : Ending → Option Nat
  | exit code _ => some code
  | aborted _ => none

end Ending

def cmdCheck (disk : Disk F) (contract : String) : Ending :=
  match disk.openText contract with
  | .error _ => .exit 1 none
  | .ok dsl =>
    if (DslValidator.validateDslContract dsl).1 then
      match validateDsl F dsl with
      | .ok name => .exit 0 (some s!"✓ DSL valid — dataset: {name}")
      | .error (.raised _) => .exit 1 none
      | .error (.aborted fault) => .aborted fault
    else .exit 1 none

inductive Format where
  | summary
  | json
  | prometheus

structure ValidateArgs where
  contract : String
  file : String
  reference : Option String := none
  format : Format := .summary
  failOnWarning : Bool := false

def cmdValidate (env : Env F) (render : Format → Metrics.ValidationReport F → String)
    (disk : Disk F) (args : ValidateArgs) : Ending :=
  match disk.openText args.contract with
  | .error _ => .exit 2 none
  | .ok dsl =>
    if (DslValidator.validateDslContract dsl).1 then
      let ran := do
        let contract ← fromFile disk.text args.contract
        executeFile env disk.data contract args.file args.reference
      match ran with
      | .error (.raised _) => .exit 2 none
      | .error (.aborted fault) => .aborted fault
      | .ok report =>
        let fail := !report.passed
        let fail := if args.failOnWarning then fail || report.violations.length > 0 else fail
        .exit (if fail then 1 else 0) (some (render args.format report))
    else .exit 2 none

section Text

theorem universalNewlines_plain {chars : List Char} (plain : '\r' ∉ chars) :
    universalNewlines chars = chars := by
  induction chars with
  | nil => rfl
  | cons c rest ih =>
    rw [List.mem_cons, not_or] at plain
    rw [universalNewlines, ih plain.2]
    · rintro _ rfl
      exact absurd rfl plain.1
    · rintro rfl
      exact absurd rfl plain.1

omit [Float64 F] [DecidableEq F] in
theorem openText_plain {disk : Disk F} {path text : String} (found : disk.text path = .ok text)
    (plain : '\r' ∉ text.toList) : disk.openText path = .ok text := by
  rw [Disk.openText, found, Except.map, universalNewlines_plain plain, String.ofList_toList]

end Text

section Commands

variable {disk : Disk F} {path text : String}

theorem cmdCheck_accepts_iff (opened : disk.openText path = .ok text) :
    (cmdCheck disk path).code = some 0 ↔ (DslValidator.validateDslContract text).1 = true ∧
      ∃ contracts : List (DataContract F), Parser.parse text = .ok contracts := by
  have reads := validateDsl_ok_iff (F := F) text
  simp only [cmdCheck, opened]
  split
  case isFalse refused => simp [Ending.code, refused]
  case isTrue valid =>
    cases read : validateDsl F text with
    | ok name =>
      obtain ⟨contracts, parsed, -⟩ := (reads name).mp read
      simp [Ending.code, valid, parsed]
    | error stop =>
      have fails : ¬ ∃ contracts : List (DataContract F), Parser.parse text = .ok contracts := by
        rintro ⟨contracts, parsed⟩
        have found := (reads _).mpr ⟨contracts, parsed, rfl⟩
        rw [read] at found
        cases found
      cases stop <;> simp [Ending.code, fails]

theorem fromFile_ok_iff (found : disk.text path = .ok text) :
    (∃ engine : Engine F, fromFile disk.text path = .ok engine) ↔
      Binding.validateDslSafety text = .ok () ∧
        ∃ contracts : List (DataContract F), Parser.parse text = .ok contracts ∧ contracts ≠ [] := by
  simp only [fromFile, found, fromDsl_ok_iff]
  constructor
  · rintro ⟨engine, safe, contract, rest, parsed, -⟩
    exact ⟨safe, _, parsed, List.cons_ne_nil _ _⟩
  · rintro ⟨safe, contracts, parsed, some_⟩
    obtain ⟨contract, rest, rfl⟩ := List.exists_cons_of_ne_nil some_
    exact ⟨_, safe, contract, rest, parsed, rfl⟩

theorem safe_iff (valid : (DslValidator.validateDslContract text).1 = true) :
    Binding.validateDslSafety text = .ok () ↔
      text.utf8ByteSize ≤ 1000000 ∧ ¬ Between (fun _ => true) ['_', '_'] text.toList := by
  have shared := ((validator_valid_iff text).mp valid).1
  rw [binding_ok_iff]
  exact and_iff_right shared

def Unreadable (disk : Disk F) (path : String) : Prop := ∃ exc, disk.data path = .error exc

omit [DecidableEq F] in
theorem executeFile_raises_iff (env : Env F) (engine : Engine F) (reference : Option String) :
    (∃ exc, executeFile env disk.data engine path reference = .error (.raised exc)) ↔
      Unreadable disk path ∨ ∃ other, reference = some other ∧ Unreadable disk other := by
  have executes : ∀ (df : Polars.DataFrame F) (reference : Option (Polars.DataFrame F))
      (exc : BindingError),
      Stop.ofExec (engine.execute env df reference) ≠ .error (.raised exc) := by
    intro df reference exc
    cases engine.execute env df reference <;> simp [Stop.ofExec]
  unfold executeFile Unreadable
  cases disk.data path with
  | error exc => simp
  | ok df =>
    cases reference with
    | none => simp [executes]
    | some other => cases second : disk.data other <;> simp [second, executes]

variable (env : Env F) (render : Format → Metrics.ValidationReport F → String) (args : ValidateArgs)

theorem cmdValidate_valid {code : Nat} (graded : code ≠ 2)
    (opened : disk.openText args.contract = .ok text)
    (ended : (cmdValidate env render disk args).code = some code) :
    (DslValidator.validateDslContract text).1 = true ∧
      ∃ engine : Engine F, fromFile disk.text args.contract = .ok engine := by
  simp only [cmdValidate, opened] at ended
  split at ended
  case isFalse => exact absurd (Option.some.inj ended).symm graded
  case isTrue valid =>
    refine ⟨valid, ?_⟩
    cases loaded : fromFile (F := F) disk.text args.contract with
    | ok engine => exact ⟨engine, rfl⟩
    | error stop =>
      rw [loaded] at ended
      cases stop with
      | raised exc => exact absurd (Option.some.inj ended).symm graded
      | aborted fault => cases ended

theorem cmdValidate_loaded {engine : Engine F} (opened : disk.openText args.contract = .ok text)
    (valid : (DslValidator.validateDslContract text).1 = true)
    (loaded : fromFile disk.text args.contract = .ok engine) :
    (cmdValidate env render disk args).code = some 2 ↔ Unreadable disk args.file ∨
      ∃ other, args.reference = some other ∧ Unreadable disk other := by
  rw [← executeFile_raises_iff env engine]
  simp only [cmdValidate, opened, valid, ↓reduceIte, loaded, bind, Except.bind]
  cases executeFile env disk.data engine args.file args.reference with
  | error stop => cases stop <;> simp [Ending.code]
  | ok report =>
    simp only [Ending.code, reduceCtorEq, exists_false, iff_false, Option.some.injEq]
    split <;> split <;> decide

/-- A contract that parses and is not loaded is refused. -/
theorem cmdValidate_unloaded (found : disk.text args.contract = .ok text)
    (opened : disk.openText args.contract = .ok text) {contracts : List (DataContract F)}
    (parsed : Parser.parse text = .ok contracts)
    (fails : ¬ ∃ engine : Engine F, fromFile disk.text args.contract = .ok engine) :
    (cmdValidate env render disk args).code = some 2 := by
  have compiled := (parseAndCompile_ok_iff _ _).mpr ⟨contracts, parsed, rfl⟩
  have raises : ∃ exc, fromFile (F := F) disk.text args.contract = .error (.raised exc) := by
    cases loaded : fromFile (F := F) disk.text args.contract with
    | ok engine => exact absurd ⟨engine, loaded⟩ fails
    | error stop =>
      simp only [fromFile, found, fromDsl, compiled] at loaded
      split at loaded
      · cases loaded
        exact ⟨_, rfl⟩
      · cases contracts with
        | nil =>
          cases loaded
          exact ⟨_, rfl⟩
        | cons contract rest => cases loaded
  obtain ⟨exc, raised⟩ := raises
  simp only [cmdValidate, opened, raised, bind, Except.bind]
  split <;> rfl

end Commands

/-- What the verdict of `check` on a contract is worth to `validate`. -/
theorem check_predicts_validate (env : Env F) (render : Format → Metrics.ValidationReport F → String)
    (disk : Disk F) (args : ValidateArgs) (text : String)
    (found : disk.text args.contract = .ok text) (plain : '\r' ∉ text.toList) :
    (∀ code, code ≠ 2 → (cmdValidate env render disk args).code = some code →
      (cmdCheck disk args.contract).code = some 0) ∧
    ((cmdCheck disk args.contract).code = some 0 →
      ((cmdValidate env render disk args).code = some 2 ↔
        Parser.parse (F := F) text = .ok [] ∨ 1000000 < text.utf8ByteSize ∨
          Between (fun _ => true) ['_', '_'] text.toList ∨ Unreadable disk args.file ∨
            ∃ other, args.reference = some other ∧ Unreadable disk other)) := by
  have opened := openText_plain found plain
  have loads := fromFile_ok_iff (F := F) found
  have accepts := cmdCheck_accepts_iff opened
  constructor
  · intro code graded ended
    obtain ⟨valid, loaded⟩ := cmdValidate_valid env render args graded opened ended
    obtain ⟨-, contracts, parsed, -⟩ := loads.mp loaded
    exact accepts.mpr ⟨valid, contracts, parsed⟩
  · intro accepted
    obtain ⟨valid, contracts, parsed⟩ := accepts.mp accepted
    have safe := safe_iff valid
    by_cases loaded : ∃ engine : Engine F, fromFile disk.text args.contract = .ok engine
    · obtain ⟨engine, ran⟩ := loaded
      obtain ⟨checked, others, parsedToo, some_⟩ := loads.mp ⟨engine, ran⟩
      obtain ⟨small, apart⟩ := safe.mp checked
      rw [cmdValidate_loaded env render args opened valid ran, parsedToo]
      simp [some_, Nat.not_lt.mpr small, apart]
    · have refused := cmdValidate_unloaded env render args found opened parsed loaded
      refine iff_of_true refused ?_
      by_contra none
      simp only [not_or, Nat.not_lt, parsed, Except.ok.injEq] at none
      exact loaded (loads.mpr ⟨safe.mpr ⟨none.2.1, none.2.2.1⟩, contracts, parsed, none.1⟩)

/-- A contract under two comments that are made of underscores, and data without rows. -/
def ruledDisk : Disk ExtRat where
  text _ := .ok "//__\n//__\ndataset d\x7b\x7d"
  data _ := .ok (noColumns ExtRat)

theorem check_predicts_validate_ruled :
    (cmdCheck ruledDisk "orders.sg").code = some 0 ∧
      (cmdValidate exactEnv (fun _ _ => "") ruledDisk ⟨"orders.sg", "orders.csv", none, .summary,
        false⟩).code = some 2 := by
  have accepted : (cmdCheck ruledDisk "orders.sg").code = some 0 := by decide +kernel
  have near : Between (fun _ => true) ['_', '_'] "//__\n//__\ndataset d\x7b\x7d".toList :=
    (Text.matchCount_twice_iff (by nofun) _).mp (by decide +kernel)
  have told := (check_predicts_validate exactEnv (fun _ _ => "") ruledDisk ⟨"orders.sg",
    "orders.csv", none, .summary, false⟩ _ rfl (by decide +kernel)).2 accepted
  exact ⟨accepted, told.mpr (.inr (.inr (.inl near)))⟩

end StatGuardian.Py.Cli
