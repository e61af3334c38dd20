import StatGuardian.Library.RankedLog
import StatGuardian.Py.DbtRuns
import StatGuardian.Runtime.ExactEnv

namespace StatGuardian.Py.Dbt

open RankedLog

variable {F : Type}

/-- The variable `statguardian_schema` as the top of `vars` in `dbt_project.yml` sets it. -/
def projectVar (dbtProject : Value) (name : String) : Option Value :=
  match dbtProject with
  | .dict entries =>
    match entries.lookup "vars" with
    | some (.dict vars) => vars.lookup name
    | _ => none
  | _ => none

/-- The macro `get_schema`, given what dbt has for `target.schema`. -/
def getSchema (repr : Value → String) (dbtProject targetSchema : Value) : String :=
  ((projectVar dbtProject "statguardian_schema").getD
    (.str s!"{targetSchema.text repr}_statguardian")).text repr

/-- The rows of `contract_validations` in one schema of one database. -/
def tableRows (connStr schema : String) (inserts : List (Insert F)) : List (Row F) :=
  (inserts.filter fun insert => insert.connStr == connStr && insert.schema == schema).map Insert.row

def ofRelation (relation : String) (table : List (Row F)) : List (Row F) :=
  table.filter fun row => row.relationName == relation

/-- The rows that the test `contract_passed` selects; it passes if there are none. -/
def contractPassed (ranking : Ranking (Row.validatedAt (F := F))) (table : List (Row F))
    (relation : String) : List (Row F) :=
  (ranking.first (ofRelation relation table)).toList.filter fun row => !row.passed

/-- The last times that the test `contract_recently_validated` selects, on a clock that counts
    microseconds. -/
def contractRecentlyValidated (table : List (Row F)) (relation : String) (maxAgeHours now : Int) :
    List Int :=
  ((ofRelation relation table).map Row.validatedAt).max?.toList.filter fun last =>
    last < now - maxAgeHours * 3600000000

section Tables

theorem tableRows_append (connStr schema : String) (first second : List (Insert F)) :
    tableRows connStr schema (first ++ second) =
      tableRows connStr schema first ++ tableRows connStr schema second := by
  simp [tableRows]

theorem tableRows_flatMap {R : Type*} (connStr schema : String) (runs : List R)
    (inserts : R → List (Insert F)) : tableRows connStr schema (runs.flatMap inserts) =
      runs.flatMap fun run => tableRows connStr schema (inserts run) := by
  induction runs with
  | nil => rfl
  | cons run rest ih => rw [List.flatMap_cons, tableRows_append, ih, List.flatMap_cons]

theorem ofRelation_flatMap {R : Type*} (relation : String) (runs : List R)
    (table : R → List (Row F)) : ofRelation relation (runs.flatMap table) =
      runs.flatMap fun run => ofRelation relation (table run) :=
  List.filter_flatMap

theorem mem_ofRelation (relation : String) (table : List (Row F)) (row : Row F) :
    row ∈ ofRelation relation table ↔ row ∈ table ∧ row.relationName = relation := by
  simp [ofRelation]

/-- The test looks at the row that was written last. -/
theorem contractPassed_eq (ranking : Ranking (Row.validatedAt (F := F))) {table : List (Row F)}
    (growing : Growing Row.validatedAt table) (relation : String) :
    contractPassed ranking table relation =
      (ofRelation relation table).getLast?.toList.filter fun row => !row.passed := by
  have kept : Growing Row.validatedAt (ofRelation relation table) := growing.filter _
  rw [contractPassed, ranking.first_eq_getLast? kept]

theorem contractPassed_fails_iff (ranking : Ranking (Row.validatedAt (F := F)))
    {table : List (Row F)} (growing : Growing Row.validatedAt table) (relation : String) :
    contractPassed ranking table relation ≠ [] ↔ ∃ row,
      (ofRelation relation table).getLast? = some row ∧ row.passed = false := by
  rw [contractPassed_eq ranking growing]
  cases (ofRelation relation table).getLast? with
  | none => simp
  | some row => cases passed : row.passed <;> simp [passed]

theorem contractRecentlyValidated_passes {table : List (Row F)} {relation : String} {row : Row F}
    (member : row ∈ ofRelation relation table) {maxAgeHours now : Int}
    (fresh : now ≤ row.validatedAt + maxAgeHours * 3600000000) :
    contractRecentlyValidated table relation maxAgeHours now = [] := by
  unfold contractRecentlyValidated
  cases latest : ((ofRelation relation table).map Row.validatedAt).max? with
  | none => rfl
  | some last =>
    have above := (List.max?_eq_some_iff.mp latest).2 row.validatedAt
      (List.mem_map_of_mem member)
    have young : ¬ last < now - maxAgeHours * 3600000000 := by omega
    simp [young]

end Tables

section Schemas

theorem orElse_projectVar {dbtProject vars schemaVar : Value} {name : String} (other : Value)
    (found : dbtProject.get "vars" .none = .ok vars)
    (read : (vars.orElse (.dict [])).get name .none = .ok schemaVar)
    (given : ∀ value, projectVar dbtProject name = some value → value.truthy = true) :
    schemaVar.orElse other = (projectVar dbtProject name).getD other := by
  have absent : Value.orElse .none other = other := rfl
  cases dbtProject with
  | dict entries =>
    have same := Except.ok.inj found
    cases there : entries.lookup "vars" with
    | none =>
      rw [there] at same
      subst same
      cases read
      simp only [projectVar, there, Option.getD_none]
      exact absent
    | some held =>
      rw [there] at same
      subst same
      by_cases full : held.truthy = true
      · rw [Option.getD_some, Value.orElse, if_pos full] at read
        cases held with
        | dict vars =>
          cases read
          simp only [projectVar, there] at given ⊢
          cases set_ : vars.lookup name with
          | none => exact absent
          | some value => exact if_pos (given value set_)
        | _ => cases read
      · rw [Option.getD_some, Value.orElse, if_neg full] at read
        cases read
        have unset : projectVar (.dict entries) name = none := by
          cases held with
          | dict vars =>
            cases vars with
            | nil => simp [projectVar, there]
            | cons entry rest => exact absurd rfl full
          | _ => simp [projectVar, there]
        rw [unset]
        exact absent
  | _ => cases found

/-- Without `--results-schema` a run writes to the schema that the tests read. -/
theorem setUp_schema {process : Process} {args : DbtArgs} {setup : Setup}
    (prepared : setUp process args = .ok setup) (plain : (ofFlag args.resultsSchema).truthy = false)
    {dbtProject : Value}
    (loaded : loadDbtProject process (process.resolve args.projectDir) = .ok dbtProject)
    (given : ∀ value, projectVar dbtProject "statguardian_schema" = some value →
      value.truthy = true)
    {targetSchema : Value} (named : setup.target.get "schema" .none = .ok targetSchema)
    (full : targetSchema.truthy = true) :
    setup.resultsSchema = getSchema process.repr dbtProject targetSchema := by
  simp only [setUp, Results.bind_ok_iff] at prepared
  obtain ⟨manifest, -, project, found, profileName, -, prepared⟩ := prepared
  rw [loaded, Except.ok.injEq] at found
  subst found
  split at prepared
  case isFalse => cases prepared
  case isTrue =>
    simp only [Results.bind_ok_iff] at prepared
    obtain ⟨profile, -, target, -, connStr, -, vars, varsRead, schemaVar, varRead, schema, schemaRead,
      type, -, same⟩ := prepared
    cases same
    rw [schemaRead, Except.ok.injEq] at named
    subst named
    have own : schema.orElse (.str (if type.isStr "duckdb" then "main" else "public")) = schema :=
      if_pos full
    have unflagged (other : Value) : (ofFlag args.resultsSchema).orElse other = other := by
      rw [Value.orElse, plain]
      rfl
    simp only [unflagged, own, orElse_projectVar _ varsRead varRead given]
    rfl

end Schemas

/-- One call of `statguardian dbt validate`. -/
structure Run (F : Type) [Float64 F] where
  world : World F
  args : DbtArgs

section Runs

variable [Float64 F] [DecidableEq F]

def Run.outcome (run : Run F) : Outcome F := cmdDbtValidate run.world run.args

def Run.rows (connStr schema : String) (run : Run F) : List (Row F) :=
  tableRows connStr schema run.outcome.inserted

def tableAfter (connStr schema : String) (runs : List (Run F)) : List (Row F) :=
  tableRows connStr schema (runs.flatMap fun run => run.outcome.inserted)

theorem ofRelation_tableAfter (connStr schema relation : String) (runs : List (Run F)) :
    ofRelation relation (tableAfter connStr schema runs) =
      runs.flatMap fun run => ofRelation relation (run.rows connStr schema) := by
  rw [tableAfter, tableRows_flatMap, ofRelation_flatMap]
  rfl

theorem rows_finished {run : Run F} {setup : Setup} {models : List ContractedModel}
    {outs : List (Option (Row F) × Bool)} (finished : Finished run.world run.args setup models outs)
    {connStr schema : String} {row : Row F} (member : row ∈ run.rows connStr schema) :
    row ∈ outs.filterMap Prod.fst := by
  simp only [Run.rows, Run.outcome, tableRows, finished.inserted, List.mem_map, List.mem_filter] at member
  obtain ⟨insert, ⟨⟨written, there, rfl⟩, -⟩, rfl⟩ := member
  unfold writes at there
  split at there
  · exact (writeRows_leading run.world 0 _).subset there
  · cases there

theorem rows_written {run : Run F} {setup : Setup} {models : List ContractedModel}
    {outs : List (Option (Row F) × Bool)} (finished : Finished run.world run.args setup models outs)
    (writing : run.args.writeResults = true)
    (clean : (writes run.world run.args (outs.filterMap Prod.fst)).2 = false) :
    run.rows setup.connStr setup.resultsSchema = outs.filterMap Prod.fst := by
  have all : (writes run.world run.args (outs.filterMap Prod.fst)).1 = outs.filterMap Prod.fst := by
    rw [writes, if_pos writing] at clean ⊢
    exact writeRows_all run.world clean
  rw [Run.rows, Run.outcome, finished.inserted, all, tableRows, List.filter_map, List.map_map]
  simp [Function.comp_def]

theorem ofRelation_last (connStr schema relation : String) (runs : List (Run F)) {run : Run F}
    (recorded : ofRelation relation (run.rows connStr schema) ≠ []) :
    (ofRelation relation (tableAfter connStr schema (runs ++ [run]))).getLast? =
      (ofRelation relation (run.rows connStr schema)).getLast? := by
  rw [ofRelation_tableAfter, List.flatMap_append, List.flatMap_singleton,
    List.getLast?_append_of_ne_nil _ recorded]

theorem status_of_red {run : Run F} {connStr schema : String} {row : Row F}
    (member : row ∈ run.rows connStr schema) (red : row.passed = false) :
    run.outcome.ending.status = some 1 := by
  rcases finished_or_bare run.world run.args with ⟨setup, models, outs, finished⟩ | ⟨bare, -, -⟩
  · have failed := finished.rounds.failed_of_red (rows_finished finished member) red
    rw [Run.outcome, finished.ending, failed]
    cases run.world.save <;> rfl
  · simp [Run.rows, Run.outcome, tableRows, bare] at member

/-- After any number of runs the test fails exactly for the relations whose last recorded report
    had failed, in whichever run that was; and the caller of that run was told. -/
theorem contractPassed_after_runs (ranking : Ranking (Row.validatedAt (F := F)))
    (connStr schema : String) (runs : List (Run F))
    (growing : Growing Row.validatedAt (tableAfter connStr schema runs)) (relation : String) :
    contractPassed ranking (tableAfter connStr schema runs) relation ≠ [] ↔
      ∃ before run after row, runs = before ++ run :: after ∧
        (ofRelation relation (run.rows connStr schema)).getLast? = some row ∧ row.passed = false ∧
          (∀ later ∈ after, ofRelation relation (later.rows connStr schema) = []) ∧
            run.outcome.ending.status = some 1 := by
  rw [contractPassed_fails_iff ranking growing, ofRelation_tableAfter]
  simp only [getLast?_flatMap_iff]
  constructor
  · rintro ⟨row, ⟨before, run, after, split, last, none⟩, red⟩
    have recorded := ((mem_ofRelation ..).mp (List.mem_of_getLast? last)).1
    exact ⟨before, run, after, row, split, last, red, none, status_of_red recorded red⟩
  · rintro ⟨before, run, after, row, split, last, red, none, -⟩
    exact ⟨row, ⟨before, run, after, split, last, none⟩, red⟩

end Runs

section Shop

def shopModel (name : String) : Value := .dict [("resource_type", .str "model"), ("name", .str name),
  ("database", .str "shop"), ("schema", .str "main"), ("alias", .str name),
  ("meta", .dict [("statguardian_contract", .str "contracts/shop.sg")])]

def shopFiles (name path : String) : Document :=
  if path = "/shop/target/manifest.json" then
    .loaded (.dict [("nodes", .dict [("model", shopModel name)])])
  else if path = "/shop/dbt_project.yml" then .loaded (.dict [("profile", .str "shop")])
  else if path = "/root/.dbt/profiles.yml" then
    .loaded (.dict [("shop", .dict [("target", .str "dev"), ("outputs", .dict [("dev",
      .dict [("type", .str "duckdb"), ("path", .str "shop.db"), ("schema", .str "main")])])])])
  else .absent

def shopWorld (name contract : String) (start : Int) : World ExtRat where
  process := {
    environ := fun _ => none
    home := "/root"
    resolve := id
    documents := shopFiles name
    repr := fun _ => "" }
  env := exactEnv
  contractText _ := some (.ok contract)
  readSql _ _ := .ok (Binding.noColumns ExtRat)
  toJson _ := ""
  clock n := start + n
  insert _ := .ok ()
  save := .ok ()

def shopRun (name contract : String) (start : Int) : Run ExtRat where
  world := shopWorld name contract start
  args := { projectDir := "/shop", writeResults := true }

def greenContract : String := "dataset d\x7b\x7d"

def redContract : String := "dataset d\x7bschema\x7bid: int\x7d\x7d"

def shopTable (runs : List (Run ExtRat)) : List (Row ExtRat) :=
  tableAfter "duckdb:///shop.db" "main_statguardian" runs

/-- The orders pass once and then fail, and the customers are validated after that. -/
theorem contractPassed_after_runs_shop : contractPassed (Ranking.firstOfLargest _)
    (shopTable [shopRun "orders" greenContract 0, shopRun "orders" redContract 10,
      shopRun "customers" greenContract 20])
    "shop.main.orders" ≠ [] := by
  have growing : Growing Row.validatedAt (shopTable [shopRun "orders" greenContract 0,
      shopRun "orders" redContract 10, shopRun "customers" greenContract 20]) :=
    List.pairwise_map.mp (by decide +kernel)
  have failed : ((ofRelation "shop.main.orders" ((shopRun "orders" redContract 10).rows
      "duckdb:///shop.db" "main_statguardian")).getLast?.map Row.passed) = some false := by
    decide +kernel
  have others : ofRelation "shop.main.orders" ((shopRun "customers" greenContract 20).rows
      "duckdb:///shop.db" "main_statguardian") = [] := List.isEmpty_iff.mp (by decide +kernel)
  obtain ⟨row, last, red⟩ := Option.map_eq_some_iff.mp failed
  exact (contractPassed_after_runs _ _ _ _ growing _).mpr
    ⟨[shopRun "orders" greenContract 0], _, [shopRun "customers" greenContract 20], row, rfl, last,
      red, List.forall_mem_singleton.mpr others, by decide +kernel⟩

end Shop

section Success

variable [Float64 F] [DecidableEq F]

theorem contractPassed_of_green {ranking : Ranking (Row.validatedAt (F := F))}
    {connStr schema relation : String} {runs : List (Run F)} {run : Run F}
    (growing : Growing Row.validatedAt (tableAfter connStr schema (runs ++ [run])))
    (about : ofRelation relation (run.rows connStr schema) ≠ [])
    (green : ∀ row ∈ run.rows connStr schema, row.passed = true) :
    contractPassed ranking (tableAfter connStr schema (runs ++ [run])) relation = [] := by
  by_contra fails
  obtain ⟨row, written, red⟩ := (contractPassed_fails_iff ranking growing relation).mp fails
  rw [ofRelation_last connStr schema relation runs about] at written
  have recorded := ((mem_ofRelation ..).mp (List.mem_of_getLast? written)).1
  rw [green row recorded] at red
  cases red

/-- A successful run that writes its rows is followed by passing tests on all of its models. -/
theorem tests_pass_after_success (ranking : Ranking (Row.validatedAt (F := F)))
    (runs : List (Run F)) (run : Run F) (zero : run.outcome.ending = .exit 0)
    (writing : run.args.writeResults = true) (setup : Setup)
    (prepared : setUp run.world.process run.args = .ok setup)
    (plain : (ofFlag run.args.resultsSchema).truthy = false) (dbtProject targetSchema : Value)
    (loaded : loadDbtProject run.world.process (run.world.process.resolve run.args.projectDir) =
      .ok dbtProject)
    (given : ∀ value, projectVar dbtProject "statguardian_schema" = some value →
      value.truthy = true)
    (named : setup.target.get "schema" .none = .ok targetSchema)
    (full : targetSchema.truthy = true) (models : List ContractedModel)
    (listed : contractedModels setup.manifest = .ok models)
    (growing : Growing Row.validatedAt (tableAfter setup.connStr
      (getSchema run.world.process.repr dbtProject targetSchema) (runs ++ [run]))) :
    ∀ model ∈ models, ∃ relation,
      relationForNode run.world.process.repr model.node = .ok relation ∧
        contractPassed ranking (tableAfter setup.connStr
          (getSchema run.world.process.repr dbtProject targetSchema) (runs ++ [run])) relation = [] ∧
        ∀ maxAgeHours now, (∀ k < models.length, now ≤ run.world.clock k + maxAgeHours * 3600000000) →
          contractRecentlyValidated (tableAfter setup.connStr
            (getSchema run.world.process.repr dbtProject targetSchema) (runs ++ [run])) relation
            maxAgeHours now = [] := by
  intro model member
  have same := setUp_schema prepared plain loaded given named full
  rcases finished_or_bare run.world run.args with ⟨setup', models', outs, finished⟩ | ⟨-, -, bare⟩
  · obtain rfl : setup' = setup := Except.ok.inj (finished.prepared.symm.trans prepared)
    obtain rfl : models' = models := Except.ok.inj (finished.listed.symm.trans listed)
    obtain ⟨-, clean, written⟩ := finished.of_exit_zero _ _ zero
    obtain ⟨-, each, green⟩ := finished.rounds.clean clean
    obtain ⟨relation, report, checked, row, there, named⟩ := each model member
    have rows := rows_written finished writing written
    have inside : row ∈ ofRelation relation (run.rows setup'.connStr setup'.resultsSchema) := by
      rw [mem_ofRelation, rows]
      exact ⟨there, named⟩
    rw [← same] at growing ⊢
    refine ⟨relation, checked.relation, ?_, ?_⟩
    · apply contractPassed_of_green growing (List.ne_nil_of_mem inside)
      rw [rows]
      exact green
    · intro maxAgeHours now fresh
      obtain ⟨k, below, read⟩ := finished.rounds.clock there
      have kept : row ∈ ofRelation relation (tableAfter setup'.connStr setup'.resultsSchema
          (runs ++ [run])) := by
        rw [ofRelation_tableAfter, List.flatMap_append, List.flatMap_singleton]
        exact List.mem_append_right _ inside
      apply contractRecentlyValidated_passes kept
      rw [read]
      exact fresh k (by omega)
  · obtain ⟨setup', prepared', none⟩ := bare zero
    obtain rfl : setup' = setup := Except.ok.inj (prepared'.symm.trans prepared)
    obtain rfl : [] = models := Except.ok.inj (none.symm.trans listed)
    cases member

end Success

/-- The orders fail at first, and pass in the last run. -/
theorem tests_pass_after_success_shop :
    let table := shopTable ([shopRun "orders" redContract 0, shopRun "customers" greenContract 10] ++
      [shopRun "orders" greenContract 20])
    ∃ relation, relationForNode (fun _ => "") (shopModel "orders") = .ok relation ∧
      contractPassed (Ranking.firstOfLargest _) table relation = [] ∧
      ∀ maxAgeHours now, (∀ k : Nat, k < 1 → now ≤ 20 + (k : Int) + maxAgeHours * 3600000000) →
        contractRecentlyValidated table relation maxAgeHours now = [] := by
  have growing : Growing Row.validatedAt (shopTable ([shopRun "orders" redContract 0,
      shopRun "customers" greenContract 10] ++ [shopRun "orders" greenContract 20])) :=
    List.pairwise_map.mp (by decide +kernel)
  obtain ⟨relation, named, passes, recent⟩ := tests_pass_after_success (Ranking.firstOfLargest _)
    [shopRun "orders" redContract 0, shopRun "customers" greenContract 10]
    (shopRun "orders" greenContract 20) (by decide +kernel) rfl _ rfl rfl
    (.dict [("profile", .str "shop")]) (.str "main") rfl (by nofun) rfl rfl
    [⟨"model", shopModel "orders", .str "contracts/shop.sg"⟩] rfl growing _ (List.mem_cons_self ..)
  exact ⟨relation, named, passes, recent⟩

end StatGuardian.Py.Dbt
