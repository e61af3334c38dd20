import StatGuardian.Library.Results
import StatGuardian.Lineage.Storage
import StatGuardian.Runtime.ExtRat

namespace StatGuardian.Lineage

variable {F J : Type} [Float64 F]

/-- One call of `lineage_save_version`: the version its JSON holds, the clock, and the identifiers
    it draws, one a change and no two alike. -/
structure SaveCall (F : Type) [Float64 F] where
  version : LineageVersion F
  now : DateTime
  uuids : List Uuid
  drawn : uuids.length = version.changesFromPrevious.length
  distinct : uuids.Nodup

namespace SaveCall

def versionRow (env : StoreEnv F J) (call : SaveCall F) : VersionRow J :=
  Lineage.versionRow env call.now call.version

def changeRows (env : StoreEnv F J) (call : SaveCall F) : List (ChangeRow J) :=
  (call.version.changesFromPrevious.zip call.uuids).map
    (fun (change, uuid) => changeRow env change call.version.versionId uuid)

/-- The statements of the call in order: `save_version`, then a `save_change` a change. -/
def statements (env : StoreEnv F J) (call : SaveCall F) : List (Statement J) :=
  saveVersion env call.now call.version ::
    (call.version.changesFromPrevious.zip call.uuids).map
      (fun (change, uuid) => saveChange env change call.version.versionId uuid)

theorem statements_eq (env : StoreEnv F J) (call : SaveCall F) :
    call.statements env =
      .insertVersion (call.versionRow env) :: (call.changeRows env).map .insertChange := by
  simp [statements, changeRows, versionRow, saveVersion, saveChange]

end SaveCall

/-- Runs statements one by one until one fails. `refused` numbers the statement that the database
    refuses for a reason of its own (a full disk, a lock), if there is one. -/
def executeAll (foreignKeys : Bool) :
    Option Nat → List (Statement J) → Store J → Store J × Except StoreError Unit
  | _, [], store => (store, .ok ())
  | some 0, _ :: _, store => (store, .error .database)
  | refused, statement :: rest, store =>
    match store.execute foreignKeys statement with
    | some next => executeAll foreignKeys (refused.map (· - 1)) rest next
    | none => (store, .error .database)

def lineageSaveVersion (env : StoreEnv F J) (refused : Option Nat) (call : SaveCall F)
    (store : Store J) : Store J × Except StoreError Unit :=
  executeAll env.foreignKeys refused (call.statements env) store

/-- What the call leaves when its version row and the first `written` change rows went in. -/
def SaveCall.apply (env : StoreEnv F J) (call : SaveCall F) (written : Nat) (store : Store J) :
    Store J where
  versions := store.versions.insertOrReplace (call.versionRow env)
  changes := store.changes.insertAll ((call.changeRows env).take written)

/-- What every statement of a list keeps, the list keeps, wherever it stops. -/
theorem executeAll_rule (kept : Store J → Prop) {foreignKeys : Bool}
    {statements : List (Statement J)}
    (keeps : ∀ statement ∈ statements, ∀ store next, kept store →
      store.execute foreignKeys statement = some next → kept next)
    (refused : Option Nat) (store : Store J) (start : kept store) :
    kept (executeAll foreignKeys refused statements store).1 := by
  induction statements generalizing refused store with
  | nil => cases refused <;> exact start
  | cons statement rest ih =>
    obtain ⟨first, later⟩ := List.forall_mem_cons.mp keeps
    rw [executeAll.eq_def]
    split
    case h_1 ended => cases ended
    case h_2 => exact start
    case h_3 same =>
      cases same
      split
      case h_1 next executed => exact ih later _ next (first _ next start executed)
      case h_2 => exact start

theorem executeAll_changes (foreignKeys : Bool) (refused : Option Nat) (rows : List (ChangeRow J))
    (store : Store J)
    (parents : ∀ row ∈ rows, ∃ r ∈ store.versions.rows, r.versionId = row.versionId) :
    executeAll foreignKeys refused (rows.map .insertChange) store =
      ({ store with changes := store.changes.insertAll (rows.take (refused.getD rows.length)) },
        if refused.any (· < rows.length) = true then .error .database else .ok ()) := by
  induction rows generalizing refused store with
  | nil => cases refused <;> simp [executeAll]
  | cons row rows ih =>
    obtain ⟨first, rest⟩ := List.forall_mem_cons.mp parents
    have parent : store.versions.rows.any (fun r => r.versionId == row.versionId) = true := by
      simpa using first
    have executed : store.execute foreignKeys (.insertChange row) =
        some { store with changes := store.changes.insertOrReplace row } := by
      simp [Store.execute, parent]
    rcases refused with _ | _ | refused
    · simp only [List.map_cons, executeAll, executed, Option.map_none]
      rw [ih none { store with changes := store.changes.insertOrReplace row } rest]
      simp
    · simp [executeAll]
    · simp only [List.map_cons, executeAll, executed, Option.map_some]
      rw [ih _ { store with changes := store.changes.insertOrReplace row } rest]
      simp

theorem versionId_of_mem_changeRows (env : StoreEnv F J) (call : SaveCall F) (row : ChangeRow J)
    (member : row ∈ call.changeRows env) : row.versionId = call.version.versionId := by
  simp only [SaveCall.changeRows, List.mem_map] at member
  obtain ⟨pair, -, rfl⟩ := member
  rfl

/-- A call whose version row is accepted leaves the rows it wrote before the refused statement. -/
theorem lineageSaveVersion_eq (env : StoreEnv F J) (refused : Option Nat) (call : SaveCall F)
    (store : Store J) (started : refused ≠ some 0)
    (accepted : (env.foreignKeys && store.orphans (call.versionRow env)) = false) :
    lineageSaveVersion env refused call store =
      (call.apply env ((refused.map (· - 1)).getD (call.changeRows env).length) store,
        if (refused.map (· - 1)).any (· < (call.changeRows env).length) = true then
          .error .database else .ok ()) := by
  have executed : store.execute env.foreignKeys (.insertVersion (call.versionRow env)) =
      some { store with versions := store.versions.insertOrReplace (call.versionRow env) } := by
    simp [Store.execute, accepted]
  have parents : ∀ row ∈ call.changeRows env,
      ∃ r ∈ (store.versions.insertOrReplace (call.versionRow env)).rows,
        r.versionId = row.versionId := by
    intro row member
    refine ⟨call.versionRow env, ?_, ?_⟩
    · rw [UniqueTable.mem_insertOrReplace]
      exact .inr rfl
    · exact (versionId_of_mem_changeRows env call row member).symm
  rw [lineageSaveVersion, SaveCall.statements_eq]
  rcases refused with _ | _ | refused
  · simp only [executeAll, executed]
    rw [executeAll_changes _ _ _
      { store with versions := store.versions.insertOrReplace (call.versionRow env) } parents]
    rfl
  · exact absurd rfl started
  · simp only [executeAll, executed]
    rw [executeAll_changes _ _ _
      { store with versions := store.versions.insertOrReplace (call.versionRow env) } parents]
    rfl

/-- The instant's RFC 3339 text reads back, as it does in the years 0 to 9999. -/
def ReadsBack (env : StoreEnv F J) (time : DateTime) : Prop :=
  (env.parseFromRfc3339 (env.toRfc3339 time)).isSome = true

theorem parse_of_readsBack (env : StoreEnv F J) (time : DateTime) (back : ReadsBack env time) :
    env.parseFromRfc3339 (env.toRfc3339 time) = some time := by
  obtain ⟨read, parsed⟩ := Option.isSome_iff_exists.mp back
  rw [parsed, env.parse_toRfc3339 time read parsed]

theorem parse_of_not_readsBack (env : StoreEnv F J) (time : DateTime)
    (lost : ¬ ReadsBack env time) : env.parseFromRfc3339 (env.toRfc3339 time) = none := by
  rw [ReadsBack, Bool.not_eq_true, Option.isSome_eq_false_iff, Option.isNone_iff_eq_none] at lost
  exact lost

theorem readChangeType_toString (changeType : ChangeType) :
    readChangeType changeType.toString = changeType := by
  cases changeType <;> rfl

theorem readSeverity_toString (severity : ChangeSeverity) :
    readSeverity severity.toString = severity := by
  cases severity <;> rfl

theorem readChange_changeRow (env : StoreEnv F J) (change : LineageChange) (versionId : String)
    (uuid : Uuid) (back : ReadsBack env change.changedAt) :
    readChange env (changeRow env change versionId uuid) = .ok change := by
  have flag : ((if change.propagatesSchemaChanges = true then (1 : Int) else 0) != 0) =
      change.propagatesSchemaChanges := by
    cases change.propagatesSchemaChanges <;> rfl
  simp only [readChange, changeRow, parse_of_readsBack env _ back, env.tables_round_trip, orFail,
    readChangeType_toString, readSeverity_toString, flag, bind, Except.bind, pure, Except.pure]

theorem readChange_changeRow_iff (env : StoreEnv F J) (change read : LineageChange)
    (versionId : String) (uuid : Uuid) :
    readChange env (changeRow env change versionId uuid) = .ok read ↔
      read = change ∧ ReadsBack env change.changedAt := by
  by_cases back : ReadsBack env change.changedAt
  · simp [readChange_changeRow env change versionId uuid back, back, eq_comm]
  · simp [readChange, changeRow, parse_of_not_readsBack env _ back, orFail, back, bind,
      Except.bind]

theorem readVersion_versionRow (env : StoreEnv F J) (store : Store J) (now : DateTime)
    (version read : LineageVersion F) :
    readVersion env store (versionRow env now version) = .ok read ↔
      ReadsBack env version.timestamp ∧ ∃ changes,
        getChanges env store version.versionId = .ok changes ∧
          read = { version with changesFromPrevious := changes } := by
  by_cases back : ReadsBack env version.timestamp
  · cases stored : getChanges env store version.versionId <;>
      simp [readVersion, versionRow, env.graph_round_trip, env.versions_round_trip,
        env.scores_round_trip, parse_of_readsBack env _ back, orFail, back, stored,
        readSeverity_toString, bind, Except.bind, pure, Except.pure, eq_comm]
  · simp [readVersion, versionRow, env.graph_round_trip, env.versions_round_trip,
      env.scores_round_trip, parse_of_not_readsBack env _ back, orFail, back, bind, Except.bind]

/-- What two changes may not share for the table to hold both. -/
def LineageChange.subject (change : LineageChange) : String × ChangeType :=
  (change.sourceTable, change.changeType)

theorem changeId_inj {versionId versionId' : String} {uuid uuid' : Uuid}
    (same : versionId ++ "_" ++ uuid.text = versionId' ++ "_" ++ uuid'.text) :
    versionId = versionId' ∧ uuid = uuid' := by
  have texts := congrArg String.toList same
  simp only [String.toList_append] at texts
  have lengths : uuid.text.toList.length = uuid'.text.toList.length := by
    rw [String.length_toList, String.length_toList, uuid.length_eq, uuid'.length_eq]
  obtain ⟨front, back⟩ := List.append_inj' texts lengths
  refine ⟨String.toList_inj.mp (List.append_cancel_right front), ?_⟩
  cases uuid
  cases uuid'
  simpa [String.toList_inj] using back

theorem subject_changeRow_inj (env : StoreEnv F J) {change change' : LineageChange}
    {versionId versionId' : String} {uuid uuid' : Uuid} :
    (changeRow env change versionId uuid).subject =
        (changeRow env change' versionId' uuid').subject ↔
      versionId = versionId' ∧ change.subject = change'.subject := by
  simp [changeRow, ChangeRow.subject, LineageChange.subject,
    ChangeType.toString_injective.eq_iff]

theorem changeRows_apart (env : StoreEnv F J) (call : SaveCall F)
    (subjects : (call.version.changesFromPrevious.map LineageChange.subject).Nodup) :
    (call.changeRows env).Pairwise (fun a b => ChangeRow.clash a b = false) := by
  have changes : ((call.version.changesFromPrevious.zip call.uuids).map
      (LineageChange.subject ∘ Prod.fst)).Nodup := by
    rw [← List.map_map, List.map_fst_zip call.drawn.ge]
    exact subjects
  have uuids : ((call.version.changesFromPrevious.zip call.uuids).map Prod.snd).Nodup := by
    rw [List.map_snd_zip call.drawn.le]
    exact call.distinct
  rw [SaveCall.changeRows, List.pairwise_map]
  apply ((List.pairwise_map.mp changes).and (List.pairwise_map.mp uuids)).imp
  rintro a b ⟨subject, uuid⟩
  simp only [ChangeRow.clash, Bool.or_eq_false_iff, beq_eq_false_iff_ne, ne_eq,
    subject_changeRow_inj]
  exact ⟨fun same => uuid (changeId_inj same).2, fun same => subject same.2⟩

/-- The row's id is one that `save_change` gives. -/
def ChangeRow.Identified (row : ChangeRow J) : Prop :=
  ∃ uuid : Uuid, row.changeId = row.versionId ++ "_" ++ uuid.text

theorem versionId_eq_of_clash {a b : ChangeRow J} (clash : ChangeRow.clash a b = true)
    (first : a.Identified) (second : b.Identified) : a.versionId = b.versionId := by
  rw [ChangeRow.clash, Bool.or_eq_true, beq_iff_eq, beq_iff_eq] at clash
  rcases clash with same | same
  · obtain ⟨uuid, left⟩ := first
    obtain ⟨uuid', right⟩ := second
    exact (changeId_inj (left.symm.trans (same.trans right))).1
  · exact congrArg Prod.fst same

/-- Every change of the version that is stored already has the subject of one of the call's. -/
def Store.Covered (store : Store J) (call : SaveCall F) : Prop :=
  ∀ row ∈ store.changesOf call.version.versionId, ∃ change ∈ call.version.changesFromPrevious,
    row.sourceTable = change.sourceTable ∧ row.changeType = change.changeType.toString

instance (store : Store J) (call : SaveCall F) : Decidable (store.Covered call) :=
  inferInstanceAs (Decidable (∀ row ∈ _, ∃ change ∈ _, _ ∧ _))

theorem mem_changesOf (store : Store J) (versionId : String) (row : ChangeRow J) :
    row ∈ store.changesOf versionId ↔ row ∈ store.changes.rows ∧ row.versionId = versionId := by
  simp [Store.changesOf]

theorem mem_changeRows_of_change (env : StoreEnv F J) (call : SaveCall F) (change : LineageChange)
    (member : change ∈ call.version.changesFromPrevious) :
    ∃ uuid, changeRow env change call.version.versionId uuid ∈ call.changeRows env := by
  have pairs : (call.version.changesFromPrevious.zip call.uuids).map Prod.fst =
      call.version.changesFromPrevious := List.map_fst_zip call.drawn.ge
  rw [← pairs, List.mem_map] at member
  obtain ⟨⟨change, uuid⟩, paired, rfl⟩ := member
  exact ⟨uuid, List.mem_map_of_mem (f := fun (change, uuid) =>
    changeRow env change call.version.versionId uuid) paired⟩

theorem changesOf_apply (env : StoreEnv F J) (store : Store J) (call : SaveCall F)
    (covered : store.Covered call)
    (subjects : (call.version.changesFromPrevious.map LineageChange.subject).Nodup) :
    ((call.apply env (call.changeRows env).length store).changesOf call.version.versionId).Perm
      (call.changeRows env) := by
  have apart := changeRows_apart env call subjects
  have unique : ∀ a b : ChangeRow J, a.subject = b.subject → a.clash b = true := by
    intro a b same
    simp [ChangeRow.clash, same]
  have rows : ((call.apply env (call.changeRows env).length store).changesOf
      call.version.versionId).Nodup :=
    (UniqueTable.nodup_rows ChangeRow.subject unique _).filter _
  have written : (call.changeRows env).Nodup := by
    apply apart.imp
    intro a b free same
    subst same
    simp [ChangeRow.clash] at free
  apply (List.perm_ext_iff_of_nodup rows written).mpr
  intro row
  rw [mem_changesOf, SaveCall.apply, List.take_length, UniqueTable.mem_insertAll,
    UniqueTable.survives_of_pairwise _ apart]
  constructor
  · rintro ⟨new | ⟨old, kept⟩, same⟩
    · exact new
    · obtain ⟨change, member, source, type⟩ :=
        covered row ((mem_changesOf store _ row).mpr ⟨old, same⟩)
      obtain ⟨uuid, stored⟩ := mem_changeRows_of_change env call change member
      have replaced := kept _ stored
      simp [ChangeRow.clash, ChangeRow.subject, changeRow, same, source, type] at replaced
  · intro new
    exact ⟨.inl new, versionId_of_mem_changeRows env call row new⟩

theorem identified_of_mem_changeRows (env : StoreEnv F J) (call : SaveCall F) (row : ChangeRow J)
    (member : row ∈ call.changeRows env) : row.Identified := by
  simp only [SaveCall.changeRows, List.mem_map] at member
  obtain ⟨pair, -, rfl⟩ := member
  exact ⟨pair.2, rfl⟩

theorem changesOf_apply_other (env : StoreEnv F J) (store : Store J) (call : SaveCall F)
    (written : Nat) (versionId : String) (other : call.version.versionId ≠ versionId)
    (identified : ∀ row ∈ store.changes.rows, row.Identified) :
    (call.apply env written store).changesOf versionId = store.changesOf versionId := by
  have ids : ∀ row ∈ (call.changeRows env).take written,
      row.Identified ∧ row.versionId = call.version.versionId := by
    intro row member
    have inside := List.mem_of_mem_take member
    exact ⟨identified_of_mem_changeRows env call row inside,
      versionId_of_mem_changeRows env call row inside⟩
  apply UniqueTable.filter_insertAll
  · intro row member
    rw [decide_eq_false_iff_not, (ids row member).2]
    exact other
  · intro r member picked row inside
    rw [← Bool.not_eq_true]
    intro clash
    apply other
    rw [← (ids row inside).2, ← versionId_eq_of_clash clash (identified r member)
      (ids row inside).1, ← of_decide_eq_true picked]

theorem identified_apply (env : StoreEnv F J) (store : Store J) (call : SaveCall F)
    (written : Nat) (identified : ∀ row ∈ store.changes.rows, row.Identified) :
    ∀ row ∈ (call.apply env written store).changes.rows, row.Identified := by
  intro row member
  rw [SaveCall.apply, UniqueTable.mem_insertAll] at member
  rcases member with new | ⟨old, -⟩
  · exact identified_of_mem_changeRows env call row (List.mem_of_mem_take new.mem)
  · exact identified row old

theorem statement_cases (env : StoreEnv F J) (call : SaveCall F) (statement : Statement J)
    (member : statement ∈ call.statements env) :
    statement = .insertVersion (call.versionRow env) ∨
      ∃ row ∈ call.changeRows env, statement = .insertChange row := by
  rw [SaveCall.statements_eq, List.mem_cons, List.mem_map] at member
  rcases member with version | ⟨row, inside, same⟩
  · exact .inl version
  · exact .inr ⟨row, inside, same.symm⟩

theorem execute_insertVersion {foreignKeys : Bool} {store next : Store J} {row : VersionRow J}
    (executed : store.execute foreignKeys (.insertVersion row) = some next) :
    next = { store with versions := store.versions.insertOrReplace row } := by
  rw [Store.execute] at executed
  split at executed
  · cases executed
  · exact (Option.some.inj executed).symm

theorem execute_insertChange {foreignKeys : Bool} {store next : Store J} {row : ChangeRow J}
    (executed : store.execute foreignKeys (.insertChange row) = some next) :
    next = { store with changes := store.changes.insertOrReplace row } := by
  rw [Store.execute] at executed
  split at executed
  · cases executed
  · exact (Option.some.inj executed).symm

/-- The store states that the statements of allowed calls lead to, in any order and wherever a
    call stopped. -/
inductive Reached (env : StoreEnv F J) (allowed : SaveCall F → Prop) : Store J → Prop where
  | empty : Reached env allowed .empty
  | execute {store next : Store J} (call : SaveCall F) (statement : Statement J) :
      Reached env allowed store → allowed call → statement ∈ call.statements env →
        store.execute env.foreignKeys statement = some next → Reached env allowed next

theorem Reached.save {env : StoreEnv F J} {allowed : SaveCall F → Prop} {store : Store J}
    (reached : Reached env allowed store) (refused : Option Nat) (call : SaveCall F)
    (permitted : allowed call) : Reached env allowed (lineageSaveVersion env refused call store).1 :=
  executeAll_rule (Reached env allowed) (fun statement inside _ _ before executed =>
    before.execute call statement permitted inside executed) refused store reached

/-- A JSON text, given by what it denotes. -/
inductive JsonText where
  | graph (value : LineageGraph)
  | versions (value : Finmap (fun _ : String => Nat))
  | scores (value : Finmap (fun _ : String => Score ExtRat))
  | tables (value : List String)

def epoch : DateTime := ⟨0⟩

def epochText : String := "1970-01-01T00:00:00+00:00"

/-- Formats that carry the epoch as their only instant. -/
def plainEnv : StoreEnv ExtRat JsonText where
  graphToString := .graph
  graphFromStr | .graph value => some value | _ => none
  graph_round_trip _ := rfl
  versionsToString := .versions
  versionsFromStr | .versions value => some value | _ => none
  versions_round_trip _ := rfl
  scoresToString := .scores
  scoresFromStr | .scores value => some value | _ => none
  scores_round_trip _ := rfl
  tablesToString := .tables
  tablesFromStr | .tables value => some value | _ => none
  tables_round_trip _ := rfl
  toRfc3339 time := if time = epoch then epochText else ""
  parseFromRfc3339 text := if text = epochText then some epoch else none
  parse_toRfc3339 time read parsed := by
    by_cases same : time = epoch
    · simp_all
    · simp [same, epochText] at parsed
  foreignKeys := true

def ordersChange (target : String) : LineageChange where
  changeType := .nodeAdded
  sourceTable := "orders"
  targetTable := some target
  changeReason := none
  changedAt := epoch
  changedBy := none
  tablesAffected := []
  severity := .low
  propagatesSchemaChanges := false

def firstUuid : Uuid := ⟨"7d444840-9dc0-4d1b-b245-5ffdce74fad2", rfl⟩

def secondUuid : Uuid := ⟨"e902893a-9d22-4c7e-a7b8-d6e313b71d9f", rfl⟩

def sampleVersion (changes : List LineageChange) : LineageVersion ExtRat :=
  { LineageVersion.new "w" 1 (.new "w" epoch) epoch with
    changesFromPrevious := changes
    changeSeverity := .low }

theorem drawn_none {α : Type} : ([] : List Uuid).length = ([] : List α).length := rfl

def savedOne (target : String) (uuid : Uuid) : SaveCall ExtRat where
  version := sampleVersion [ordersChange target]
  now := epoch
  uuids := [uuid]
  drawn := rfl
  distinct := List.nodup_singleton uuid

def savedNone : SaveCall ExtRat where
  version := sampleVersion []
  now := epoch
  uuids := []
  drawn := drawn_none
  distinct := List.nodup_nil

end StatGuardian.Lineage
