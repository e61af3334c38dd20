import StatGuardian.Py.DbtValidate

namespace StatGuardian.Py.Dbt

open Binding Metrics Polars

variable {F : Type} [Float64 F] [DecidableEq F] (world : World F) (args : DbtArgs)

/-- The model has a contract, which runs on its relation, and the report calls for no failure. -/
structure Checked (connStr : String) (model : ContractedModel) (relation : String)
    (report : Metrics.ValidationReport F) : Prop where
  contract : ∃ contractPath text, model.contractPath = .str contractPath ∧
    world.contractText (joinPath (world.process.resolve args.projectDir) contractPath) = some text ∧
      validateRelation world text (joinPath (world.process.resolve args.projectDir) contractPath)
        connStr relation = .ok report
  name : ∃ name, model.node.item "name" = .ok name
  relation : relationForNode world.process.repr model.node = .ok relation
  passed : report.passed = true
  quiet : args.failOnWarning = true → report.violations = []

section Rounds

variable {connStr : String} {number : Nat} {model : ContractedModel}

theorem validateModel_cases {row : Option (Row F)} {failed : Bool}
    (ran : validateModel world args connStr number model = .ok (row, failed)) :
    (row = none ∧ failed = true) ∨ ∃ contractPath text name relation report,
      model.contractPath = .str contractPath ∧ model.node.item "name" = .ok name ∧
        world.contractText (joinPath (world.process.resolve args.projectDir) contractPath) =
          some text ∧
        relationForNode world.process.repr model.node = .ok relation ∧
        validateRelation world text (joinPath (world.process.resolve args.projectDir) contractPath)
          connStr relation = .ok report ∧
        row = some (rowOf world model (name.text world.process.repr) relation contractPath number
          report) ∧
        failed = (!report.passed || (args.failOnWarning && report.violations.length > 0)) := by
  unfold validateModel at ran
  split at ran
  case h_2 => cases ran
  case h_1 contractPath held =>
    cases named : model.node.item "name" with
    | error exc =>
      rw [named] at ran
      cases ran
    | ok name =>
      simp only [named, Stop.ofExcept, bind, Except.bind] at ran
      split at ran
      case h_1 =>
        cases ran
        exact .inl ⟨rfl, rfl⟩
      case h_2 text there =>
        cases related : relationForNode world.process.repr model.node with
        | error exc =>
          simp only [related] at ran
          cases ran
        | ok relation =>
          simp only [related] at ran
          split at ran
          case h_1 =>
            cases ran
            exact .inl ⟨rfl, rfl⟩
          case h_2 => cases ran
          case h_3 report validated =>
            cases ran
            exact .inr ⟨contractPath, text, name, relation, report, held, rfl, there, rfl, validated,
              rfl, rfl⟩

theorem validateModel_checked {row : Option (Row F)}
    (ran : validateModel world args connStr number model = .ok (row, false)) :
    ∃ relation report, Checked world args connStr model relation report ∧
      ∃ written, row = some written ∧ written.relationName = relation ∧ written.passed = true ∧
        written.validatedAt = world.clock number := by
  rcases validateModel_cases world args ran with ⟨-, failed⟩ | ⟨contractPath, text, name, relation,
    report, held, named, there, related, validated, rfl, failed⟩
  · cases failed
  · have verdict := failed.symm
    simp only [Bool.or_eq_false_iff, Bool.not_eq_false', Bool.and_eq_false_imp,
      decide_eq_false_iff_not, Nat.not_lt, Nat.le_zero, List.length_eq_zero_iff] at verdict
    exact ⟨relation, report, ⟨⟨contractPath, text, held, there, validated⟩, ⟨name, named⟩, related,
      verdict.1, verdict.2⟩, _, rfl, rfl, verdict.1, rfl⟩

theorem validateModel_of_checked {relation : String} {report : Metrics.ValidationReport F}
    (checked : Checked world args connStr model relation report) :
    ∃ written, validateModel world args connStr number model = .ok (some written, false) := by
  obtain ⟨contractPath, text, held, there, validated⟩ := checked.contract
  obtain ⟨name, named⟩ := checked.name
  have quiet : (!report.passed || (args.failOnWarning && decide (report.violations.length > 0))) =
      false := by
    rw [checked.passed]
    cases strict : args.failOnWarning with
    | false => rfl
    | true =>
      rw [checked.quiet strict]
      rfl
  refine ⟨rowOf world model (name.text world.process.repr) relation contractPath number report, ?_⟩
  simp only [validateModel, held, named, Stop.ofExcept, bind, Except.bind, there, checked.relation,
    validated, quiet]
  rfl

/-- The rounds of the loop, each of which knows how many rows there are before it. -/
inductive Rounds (connStr : String) :
    Nat → List ContractedModel → List (Option (Row F) × Bool) → Prop where
  | nil (number : Nat) : Rounds connStr number [] []
  | cons {number : Nat} {model : ContractedModel} {rest : List ContractedModel}
      {out : Option (Row F) × Bool} {outs : List (Option (Row F) × Bool)} :
      validateModel world args connStr number model = .ok out →
        Rounds connStr (number + out.1.toList.length) rest outs →
          Rounds connStr number (model :: rest) (out :: outs)

theorem validateModels_ok_iff (models : List ContractedModel) (results final : List (Row F))
    (anyFailed failed : Bool) :
    validateModels world args connStr models results anyFailed = .ok (final, failed) ↔
      ∃ outs, Rounds world args connStr results.length models outs ∧
        final = results ++ outs.filterMap Prod.fst ∧ failed = (anyFailed || outs.any Prod.snd) := by
  induction models generalizing results anyFailed with
  | nil =>
    rw [validateModels]
    constructor
    · intro same
      cases same
      exact ⟨[], .nil _, by simp, by simp⟩
    · rintro ⟨outs, rounds, rfl, rfl⟩
      cases rounds
      simp
  | cons model rest ih =>
    rw [validateModels, Results.bind_ok_iff]
    constructor
    · rintro ⟨⟨row, broke⟩, ran, later⟩
      obtain ⟨outs, rounds, rfl, rfl⟩ := (ih ..).mp later
      rw [List.length_append] at rounds
      refine ⟨(row, broke) :: outs, .cons ran rounds, ?_, by simp [Bool.or_assoc]⟩
      cases row <;> simp
    · rintro ⟨outs, rounds, rfl, rfl⟩
      cases rounds with
      | @cons _ _ _ out outs ran rounds =>
        refine ⟨out, ran, (ih ..).mpr ⟨outs, ?_, ?_, by simp [Bool.or_assoc]⟩⟩
        · rw [List.length_append]
          exact rounds
        · obtain ⟨row, broke⟩ := out
          cases row <;> simp

variable {world args} {models : List ContractedModel} {outs : List (Option (Row F) × Bool)}

theorem Rounds.clean (rounds : Rounds world args connStr number models outs)
    (clean : outs.any Prod.snd = false) :
    (outs.filterMap Prod.fst).length = models.length ∧
      (∀ model ∈ models, ∃ relation report, Checked world args connStr model relation report ∧
        ∃ written ∈ outs.filterMap Prod.fst, written.relationName = relation) ∧
      ∀ written ∈ outs.filterMap Prod.fst, written.passed = true := by
  induction rounds with
  | nil => simp
  | @cons number model rest out outs ran _ ih =>
    rw [List.any_cons, Bool.or_eq_false_iff] at clean
    obtain ⟨row, broke⟩ := out
    obtain rfl : broke = false := clean.1
    obtain ⟨relation, report, checked, written, rfl, named, passed, -⟩ :=
      validateModel_checked world args ran
    obtain ⟨sizes, each, green⟩ := ih clean.2
    have rows : ((some written, false) :: outs).filterMap Prod.fst =
        written :: outs.filterMap Prod.fst := rfl
    rw [rows]
    refine ⟨congrArg (· + 1) sizes, ?_, List.forall_mem_cons.mpr ⟨passed, green⟩⟩
    intro other member
    rcases List.mem_cons.mp member with rfl | member
    · exact ⟨relation, report, checked, written, List.mem_cons_self .., named⟩
    · obtain ⟨relation, report, checked, found, there, named⟩ := each other member
      exact ⟨relation, report, checked, found, List.mem_cons_of_mem _ there, named⟩

theorem rounds_of_checked (number : Nat) (all : ∀ model ∈ models, ∃ relation report,
    Checked world args connStr model relation report) :
    ∃ outs, Rounds world args connStr number models outs ∧ outs.any Prod.snd = false ∧
      (outs.filterMap Prod.fst).length = models.length := by
  induction models generalizing number with
  | nil => exact ⟨[], .nil number, rfl, rfl⟩
  | cons model rest ih =>
    obtain ⟨⟨relation, report, checked⟩, later⟩ := List.forall_mem_cons.mp all
    obtain ⟨written, ran⟩ : ∃ written, validateModel world args connStr number model =
        .ok (some written, false) := validateModel_of_checked world args checked
    obtain ⟨outs, rounds, clean, sizes⟩ := ih (number + 1) later
    exact ⟨(some written, false) :: outs, .cons ran rounds, by simpa using clean,
      congrArg (· + 1) sizes⟩

theorem Rounds.clock (rounds : Rounds world args connStr number models outs) {written : Row F}
    (member : written ∈ outs.filterMap Prod.fst) :
    ∃ k < number + models.length, written.validatedAt = world.clock k := by
  induction rounds with
  | nil => cases member
  | @cons number model rest out outs ran rounds ih =>
    obtain ⟨row, broke⟩ := out
    rcases validateModel_cases world args ran with ⟨rfl, -⟩ | ⟨contractPath, text, name, relation,
      report, -, -, -, -, -, rfl, -⟩
    · obtain ⟨k, below, same⟩ := ih member
      refine ⟨k, ?_, same⟩
      simp only [Option.toList_none, List.length_nil, List.length_cons] at below ⊢
      omega
    · rcases List.mem_cons.mp member with rfl | later
      · refine ⟨number, ?_, rfl⟩
        rw [List.length_cons]
        omega
      · obtain ⟨k, below, same⟩ := ih later
        refine ⟨k, ?_, same⟩
        simp only [Option.toList_some, List.length_cons, List.length_nil] at below ⊢
        omega

theorem Rounds.failed_of_red (rounds : Rounds world args connStr number models outs)
    {written : Row F} (member : written ∈ outs.filterMap Prod.fst) (red : written.passed = false) :
    outs.any Prod.snd = true := by
  by_contra clean
  obtain ⟨-, -, green⟩ := rounds.clean (Bool.not_eq_true _ ▸ clean)
  rw [green written member] at red
  cases red

end Rounds

section Writing

omit [DecidableEq F] in
theorem writeRows_leading (number : Nat) (rows : List (Row F)) :
    (writeRows world number rows).1 <+: rows := by
  induction rows generalizing number with
  | nil => exact List.prefix_refl _
  | cons row rest ih =>
    rw [writeRows]
    split
    · exact List.nil_prefix
    · exact List.cons_prefix_cons.mpr ⟨rfl, ih (number + 1)⟩

omit [DecidableEq F] in
theorem writeRows_clean_iff (number : Nat) (rows : List (Row F)) :
    (writeRows world number rows).2 = false ↔
      ∀ k < rows.length, world.insert (number + k) = .ok () := by
  induction rows generalizing number with
  | nil => simp [writeRows]
  | cons row rest ih =>
    rw [writeRows]
    constructor
    · intro clean k inside
      split at clean
      · cases clean
      · rename_i inserted
        cases k with
        | zero => exact inserted
        | succ k =>
          have next := (ih (number + 1)).mp clean k (by simpa using inside)
          rwa [Nat.add_right_comm] at next
    · intro all
      have first := all 0 (Nat.succ_pos _)
      rw [Nat.add_zero] at first
      rw [first]
      refine (ih (number + 1)).mpr fun k inside => ?_
      have next := all (k + 1) (Nat.succ_lt_succ inside)
      rwa [Nat.add_right_comm]

omit [DecidableEq F] in
theorem writeRows_all {number : Nat} {rows : List (Row F)}
    (clean : (writeRows world number rows).2 = false) : (writeRows world number rows).1 = rows := by
  induction rows generalizing number with
  | nil => rfl
  | cons row rest ih =>
    rw [writeRows] at clean ⊢
    split at clean
    · cases clean
    · exact congrArg (row :: ·) (ih clean)

end Writing

def writes (results : List (Row F)) : List (Row F) × Bool :=
  if args.writeResults then writeRows world 0 results else ([], false)

/-- A run that gets past its loop over some models. -/
structure Finished (setup : Setup) (models : List ContractedModel)
    (outs : List (Option (Row F) × Bool)) : Prop where
  prepared : setUp world.process args = .ok setup
  listed : contractedModels setup.manifest = .ok models
  some_ : models ≠ []
  rounds : Rounds world args setup.connStr 0 models outs
  inserted : (cmdDbtValidate world args).inserted =
    (writes world args (outs.filterMap Prod.fst)).1.map
      fun row => ⟨setup.connStr, setup.resultsSchema, row⟩
  saved : world.save = .ok () → (cmdDbtValidate world args).saved = some (outs.filterMap Prod.fst)
  ending : (cmdDbtValidate world args).ending = match world.save with
    | .error exc => .raised (.external exc)
    | .ok () => .exit (if outs.any Prod.snd || (writes world args (outs.filterMap Prod.fst)).2 then 1
        else 0)

/-- A run finishes its loop, or leaves nothing behind and reports success for no model. -/
theorem finished_or_bare : (∃ setup models outs, Finished world args setup models outs) ∨
    (cmdDbtValidate world args).inserted = [] ∧ (cmdDbtValidate world args).saved = none ∧
      ((cmdDbtValidate world args).ending = .exit 0 → ∃ setup,
        setUp world.process args = .ok setup ∧ contractedModels setup.manifest = .ok []) := by
  cases prepared : setUp world.process args with
  | error exc => cases exc <;> simp [cmdDbtValidate, prepared]
  | ok setup =>
    cases listed : contractedModels setup.manifest with
    | error exc => simp [cmdDbtValidate, prepared, listed]
    | ok models =>
      cases models with
      | nil => simp [cmdDbtValidate, prepared, listed]
      | cons model models =>
        cases ran : validateModels world args setup.connStr (model :: models) [] false with
        | error stop => cases stop <;> simp [cmdDbtValidate, prepared, listed, ran, Ending.ofStop]
        | ok final =>
          obtain ⟨results, anyFailed⟩ := final
          obtain ⟨outs, rounds, rfl, rfl⟩ := (validateModels_ok_iff ..).mp ran
          refine .inl ⟨setup, model :: models, outs, prepared, listed, List.cons_ne_nil _ _, rounds,
            ?_, ?_, ?_⟩
          · simp only [cmdDbtValidate, prepared, listed, ran, writes, List.nil_append]
            cases world.save <;> rfl
          · intro saves
            simp only [cmdDbtValidate, prepared, listed, ran, saves, List.nil_append]
          · simp only [cmdDbtValidate, prepared, listed, ran, writes, List.nil_append, Bool.false_or]
            cases world.save <;> rfl

theorem Finished.of_exit_zero {setup : Setup} {models : List ContractedModel}
    {outs : List (Option (Row F) × Bool)} (finished : Finished world args setup models outs)
    (zero : (cmdDbtValidate world args).ending = .exit 0) :
    world.save = .ok () ∧ outs.any Prod.snd = false ∧
      (writes world args (outs.filterMap Prod.fst)).2 = false := by
  have ending := finished.ending.symm.trans zero
  cases saves : world.save with
  | error exc =>
    rw [saves] at ending
    cases ending
  | ok done =>
    rw [saves] at ending
    have code := Ending.exit.inj ending
    split at code
    case isTrue => cases code
    case isFalse clean =>
      rw [Bool.not_eq_true, Bool.or_eq_false_iff] at clean
      exact ⟨rfl, clean⟩

omit [DecidableEq F] in
theorem writes_clean_iff (results : List (Row F)) : (writes world args results).2 = false ↔
    (args.writeResults = true → ∀ k < results.length, world.insert k = .ok ()) := by
  cases writing : args.writeResults with
  | false => simp [writes, writing]
  | true => simp [writes, writing, writeRows_clean_iff]

/-- The run reports success exactly when it has found its project and every contracted model has
    been checked without a failure, with its rows written if they were asked for. -/
theorem cmdDbtValidate_exit_zero_iff (world : World F) (args : DbtArgs) :
    (cmdDbtValidate world args).ending = .exit 0 ↔ ∃ setup models,
      setUp world.process args = .ok setup ∧ contractedModels setup.manifest = .ok models ∧
        (models ≠ [] →
          (∀ model ∈ models, ∃ relation report,
            Checked world args setup.connStr model relation report) ∧
          (args.writeResults = true → ∀ k < models.length, world.insert k = .ok ()) ∧
          world.save = .ok ()) := by
  constructor
  · intro zero
    rcases finished_or_bare world args with ⟨setup, models, outs, finished⟩ | ⟨-, -, bare⟩
    · obtain ⟨saves, clean, written⟩ := finished.of_exit_zero world args zero
      obtain ⟨sizes, each, -⟩ := finished.rounds.clean clean
      refine ⟨setup, models, finished.prepared, finished.listed, fun _ => ⟨?_, ?_, saves⟩⟩
      · intro model member
        obtain ⟨relation, report, checked, -⟩ := each model member
        exact ⟨relation, report, checked⟩
      · rw [← sizes]
        exact (writes_clean_iff ..).mp written
    · obtain ⟨setup, prepared, listed⟩ := bare zero
      exact ⟨setup, [], prepared, listed, fun some_ => absurd rfl some_⟩
  · rintro ⟨setup, models, prepared, listed, rest⟩
    cases models with
    | nil => simp [cmdDbtValidate, prepared, listed]
    | cons model models =>
      obtain ⟨all, inserts, saves⟩ := rest (List.cons_ne_nil _ _)
      obtain ⟨outs, rounds, clean, sizes⟩ := rounds_of_checked 0 all
      have ran : validateModels world args setup.connStr (model :: models) [] false =
          .ok (outs.filterMap Prod.fst, false) :=
        (validateModels_ok_iff ..).mpr ⟨outs, rounds, rfl, clean.symm⟩
      have written : (writes world args (outs.filterMap Prod.fst)).2 = false := by
        rw [writes_clean_iff, sizes]
        exact inserts
      simp only [writes] at written
      simp only [cmdDbtValidate, prepared, listed, ran, saves, written]
      rfl

end StatGuardian.Py.Dbt
