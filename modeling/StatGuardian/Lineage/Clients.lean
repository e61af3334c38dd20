import StatGuardian.Lineage.FailedSave

namespace StatGuardian.Lineage

variable {F J : Type} [Float64 F]

structure ChangeInput where
  changeType : ChangeType
  sourceTable : String
  targetTable : Option String
  changeReason : Option String
  changedAt : Option DateTime
  changedBy : Option String
  tablesAffected : List String
  severity : ChangeSeverity
  propagatesSchemaChanges : Bool

def ChangeInput.stamp (change : ChangeInput) (now : DateTime) : LineageChange where
  changeType := change.changeType
  sourceTable := change.sourceTable
  targetTable := change.targetTable
  changeReason := change.changeReason
  changedAt := change.changedAt.getD now
  changedBy := change.changedBy
  tablesAffected := change.tablesAffected
  severity := change.severity
  propagatesSchemaChanges := change.propagatesSchemaChanges

/-- `severity_rank` -/
def ChangeSeverity.rank : ChangeSeverity → Nat
  | .none => 0
  | .low => 1
  | .medium => 2
  | .high => 3

/-- What one call of `save_lineage_version` is given: its arguments, the readings of the clock and
    the identifiers it draws. -/
structure SaveRequest (F : Type) [Float64 F] where
  lineageGraph : LineageGraph
  changes : List ChangeInput
  qualityScores : Finmap (fun _ : String => Score F)
  clock : Nat → DateTime
  uuids : List Uuid
  drawn : uuids.length = changes.length
  distinct : uuids.Nodup

namespace SaveRequest

def stamped (request : SaveRequest F) : List LineageChange :=
  request.changes.mapIdx (fun i change => change.stamp (request.clock i))

def changeSeverity (request : SaveRequest F) : ChangeSeverity :=
  request.changes.foldl (fun severity change =>
    if change.severity.rank > severity.rank then change.severity else severity) .none

def version (request : SaveRequest F) (versionNumber : Nat) : LineageVersion F where
  versionId := formatVersionId request.lineageGraph.warehouseId versionNumber
  lineageGraph := request.lineageGraph
  versionNumber := versionNumber
  timestamp := request.clock request.changes.length
  schemaVersions := ∅
  qualityScores := request.qualityScores
  changesFromPrevious := request.stamped
  changeSeverity := request.changeSeverity

def call (request : SaveRequest F) (versionNumber : Nat) : SaveCall F where
  version := request.version versionNumber
  now := request.clock (request.changes.length + 1)
  uuids := request.uuids
  drawn := by simp [version, stamped, request.drawn]
  distinct := request.distinct

end SaveRequest

/-- Where a call of `save_lineage_version` stands. -/
inductive Phase (J : Type) where
  | start
  | running (versionNumber : Nat) (rest : List (Statement J))
  | returned (versionNumber : Nat)
  | failed

structure Client (F J : Type) [Float64 F] where
  request : SaveRequest F
  phase : Phase J

/-- `json.loads(latest_json)["version_number"] + 1 if latest_json else 1` -/
def nextVersionNumber : Option (LineageVersion F) → Nat
  | some latest => latest.versionNumber + 1
  | none => 1

/-- One step of a call: the read of the latest version, a statement, or the return. The number is a
    `u32` on the Rust side. -/
def Client.advance (env : StoreEnv F J) (refused : Bool) (client : Client F J)
    (store : Store J) : Store J × Phase J :=
  match client.phase with
  | .start =>
    match getLatestVersion env store client.request.lineageGraph.warehouseId with
    | .error _ => (store, .failed)
    | .ok latest =>
      if nextVersionNumber latest < 2 ^ 32 then
        (store, .running (nextVersionNumber latest)
          ((client.request.call (nextVersionNumber latest)).statements env))
      else (store, .failed)
  | .running versionNumber [] => (store, .returned versionNumber)
  | .running versionNumber (statement :: rest) =>
    if refused then (store, .failed)
    else match store.execute env.foreignKeys statement with
      | some next => (next, .running versionNumber rest)
      | none => (store, .failed)
  | .returned versionNumber => (store, .returned versionNumber)
  | .failed => (store, .failed)

structure System (F J : Type) [Float64 F] where
  store : Store J
  clients : List (Client F J)

/-- The client that moves, and whether the database refuses its statement. -/
structure Action where
  client : Nat
  refused : Bool

namespace System

def start (store : Store J) (requests : List (SaveRequest F)) : System F J where
  store := store
  clients := requests.map (fun request => ⟨request, .start⟩)

def step (env : StoreEnv F J) (system : System F J) (action : Action) : System F J :=
  match system.clients[action.client]? with
  | none => system
  | some client =>
    let (store, phase) := client.advance env action.refused system.store
    { store := store
      clients := system.clients.set action.client { client with phase := phase } }

def run (env : StoreEnv F J) (actions : List Action) (system : System F J) : System F J :=
  actions.foldl (step env) system

end System

def Store.nextNumber (store : Store J) (warehouseId : String) : Nat :=
  match (store.versionNumbers warehouseId).head? with
  | some latest => latest + 1
  | none => 1

/-- The number under which the client is about to insert its version row. -/
def Phase.inserting : Phase J → Option Nat
  | .running versionNumber (.insertVersion _ :: _) => some versionNumber
  | _ => none

/-- A client that inserts its version row, and is not refused, still holds the next number. -/
def System.Current (warehouseId : String) (system : System F J) (action : Action) : Prop :=
  action.refused = false →
    ∀ versionNumber ∈ system.clients[action.client]?.bind (fun client => client.phase.inserting),
      system.store.nextNumber warehouseId = versionNumber

/-- No version of the warehouse is inserted between a client's read and its own insert. -/
def Undisturbed (env : StoreEnv F J) (warehouseId : String) :
    List Action → System F J → Prop
  | [], _ => True
  | action :: rest, system =>
    system.Current warehouseId action ∧ Undisturbed env warehouseId rest (system.step env action)

instance (warehouseId : String) (system : System F J) (action : Action) :
    Decidable (system.Current warehouseId action) :=
  inferInstanceAs (Decidable (_ → ∀ _ ∈ _, _))

instance decidableUndisturbed (env : StoreEnv F J) (warehouseId : String) :
    ∀ actions system, Decidable (Undisturbed env warehouseId actions system)
  | [], _ => inferInstanceAs (Decidable True)
  | _ :: rest, _ =>
    have := decidableUndisturbed env warehouseId rest
    inferInstanceAs (Decidable (_ ∧ _))

/-- Every call that returned left its graph under the number it was given, and no two were given
    one number. -/
structure System.AllSaved (env : StoreEnv F J) (warehouseId : String) (system : System F J) :
    Prop where
  retrievable : ∀ client ∈ system.clients, ∀ versionNumber,
    client.phase = .returned versionNumber →
      ∃ version, getVersion env system.store warehouseId versionNumber = .ok (some version) ∧
        version.lineageGraph = client.request.lineageGraph
  distinct : ∀ (i j : Nat) (client client' : Client F J), i ≠ j → system.clients[i]? = some client →
    system.clients[j]? = some client' → ∀ versionNumber,
      client.phase = .returned versionNumber → client'.phase ≠ .returned versionNumber

theorem mem_versionNumbers (store : Store J) (row : VersionRow J)
    (member : row ∈ store.versions.rows) :
    row.versionNumber ∈ store.versionNumbers row.warehouseId := by
  rw [Store.versionNumbers, List.mem_insertionSort]
  exact List.mem_map_of_mem (List.mem_filter.mpr ⟨member, by simp⟩)

theorem lt_nextNumber (store : Store J) (row : VersionRow J)
    (member : row ∈ store.versions.rows) : row.versionNumber < store.nextNumber row.warehouseId := by
  have inside := mem_versionNumbers store row member
  have sorted : (store.versionNumbers row.warehouseId).Pairwise (· ≥ ·) :=
    List.pairwise_insertionSort _ _
  unfold Store.nextNumber
  cases numbers : store.versionNumbers row.warehouseId with
  | nil =>
    rw [numbers] at inside
    cases inside
  | cons latest rest =>
    rw [numbers] at inside sorted
    change row.versionNumber < latest + 1
    rcases List.mem_cons.mp inside with same | later
    · omega
    · have below := (List.pairwise_cons.mp sorted).1 _ later
      omega

def SaveRequest.Dated (env : StoreEnv F J) (request : SaveRequest F) : Prop :=
  ∀ versionNumber, (request.version versionNumber).Dated env

/-- The number under which the client's version row went in. -/
def Phase.inserted : Phase J → Option Nat
  | .running _ (.insertVersion _ :: _) => none
  | .running versionNumber _ => some versionNumber
  | .returned versionNumber => some versionNumber
  | _ => none

def Client.Sound (env : StoreEnv F J) (store : Store J) (client : Client F J) : Prop :=
  match client.phase with
  | .running versionNumber rest =>
    rest = (client.request.call versionNumber).statements env ∨
      ((client.request.call versionNumber).versionRow env ∈ store.versions.rows ∧
        ∀ statement ∈ rest, ∃ row ∈ (client.request.call versionNumber).changeRows env,
          statement = .insertChange row)
  | .returned versionNumber =>
    (client.request.call versionNumber).versionRow env ∈ store.versions.rows
  | _ => True

/-- What holds of a run in which no insert was disturbed. -/
structure System.Ordered (env : StoreEnv F J) (warehouseId : String) (system : System F J) :
    Prop where
  readable : system.store.Readable env
  requests : ∀ client ∈ system.clients,
    client.request.lineageGraph.warehouseId = warehouseId ∧ client.request.Dated env
  sound : ∀ client ∈ system.clients, client.Sound env system.store
  distinct : ∀ (i j : Nat) (client client' : Client F J), i ≠ j → system.clients[i]? = some client →
    system.clients[j]? = some client' → ∀ versionNumber,
      client.phase.inserted = some versionNumber → client'.phase.inserted ≠ some versionNumber

theorem row_of_inserted {env : StoreEnv F J} {store : Store J} {client : Client F J}
    (sound : client.Sound env store) {versionNumber : Nat}
    (inserted : client.phase.inserted = some versionNumber) :
    (client.request.call versionNumber).versionRow env ∈ store.versions.rows := by
  unfold Client.Sound at sound
  cases phase : client.phase with
  | start => rw [phase] at inserted; cases inserted
  | failed => rw [phase] at inserted; cases inserted
  | returned number =>
    rw [phase] at inserted sound
    cases inserted
    exact sound
  | running number rest =>
    rw [phase] at inserted sound
    rcases sound with full | ⟨stored, -⟩
    · rw [full, SaveCall.statements_eq] at inserted
      cases inserted
    · cases rest with
      | nil =>
        cases inserted
        exact stored
      | cons statement rest =>
        cases statement with
        | insertVersion row => cases inserted
        | insertChange row =>
          cases inserted
          exact stored

theorem Client.Sound.of_kept {env : StoreEnv F J} {store next : Store J} {client : Client F J}
    (sound : client.Sound env store)
    (kept : ∀ versionNumber, client.phase.inserted = some versionNumber →
      (client.request.call versionNumber).versionRow env ∈ next.versions.rows) :
    client.Sound env next := by
  unfold Client.Sound at sound ⊢
  cases phase : client.phase with
  | start => trivial
  | failed => trivial
  | returned number =>
    rw [phase] at kept
    exact kept number rfl
  | running number rest =>
    rw [phase] at sound kept
    rcases sound with full | ⟨stored, changes⟩
    · exact .inl full
    · refine .inr ⟨kept number ?_, changes⟩
      cases rest with
      | nil => rfl
      | cons statement rest =>
        obtain ⟨row, -, rfl⟩ := changes statement List.mem_cons_self
        rfl

/-- One client moves: its own part is shown, the others keep their rows, and a number it newly
    inserts is nobody else's. -/
theorem System.Ordered.update {env : StoreEnv F J} {warehouseId : String} {system : System F J}
    (ordered : system.Ordered env warehouseId) (i : Nat) (client : Client F J)
    (found : system.clients[i]? = some client) (store : Store J) (phase : Phase J)
    (readable : store.Readable env)
    (sound : Client.Sound env store { client with phase := phase })
    (kept : ∀ other ∈ system.clients, ∀ versionNumber,
      other.phase.inserted = some versionNumber →
        (other.request.call versionNumber).versionRow env ∈ store.versions.rows)
    (fresh : ∀ versionNumber, phase.inserted = some versionNumber →
      client.phase.inserted = some versionNumber ∨
        ∀ other ∈ system.clients, other.phase.inserted ≠ some versionNumber) :
    System.Ordered env warehouseId
      ⟨store, system.clients.set i { client with phase := phase }⟩ where
  readable := readable
  requests := by
    intro other member
    rcases List.mem_or_eq_of_mem_set member with old | rfl
    · exact ordered.requests other old
    · exact ordered.requests client (List.mem_of_getElem? found)
  sound := by
    intro other member
    rcases List.mem_or_eq_of_mem_set member with old | rfl
    · exact (ordered.sound other old).of_kept (kept other old)
    · exact sound
  distinct := by
    intro j k first second apart left right number inserted inserted'
    rw [List.getElem?_set] at left right
    split at left <;> split at right
    · omega
    · rename_i here there
      subst here
      split at left
      · cases left
        rcases fresh number inserted with before | nobody
        · exact ordered.distinct i k client second apart found right number before inserted'
        · exact nobody second (List.mem_of_getElem? right) inserted'
      · cases left
    · rename_i there here
      subst here
      split at right
      · cases right
        rcases fresh number inserted' with before | nobody
        · exact ordered.distinct j i first client apart left found number inserted before
        · exact nobody first (List.mem_of_getElem? left) inserted
      · cases right
    · exact ordered.distinct j k first second apart left right number inserted inserted'

theorem System.step_eq (env : StoreEnv F J) (system : System F J) (action : Action)
    (client : Client F J) (found : system.clients[action.client]? = some client)
    (store : Store J) (phase : Phase J)
    (moved : client.advance env action.refused system.store = (store, phase)) :
    system.step env action =
      ⟨store, system.clients.set action.client { client with phase := phase }⟩ := by
  simp [System.step, found, moved]

section Steps

variable {env : StoreEnv F J} {warehouseId : String} {system : System F J}

theorem System.Ordered.idle (ordered : system.Ordered env warehouseId) (i : Nat)
    (client : Client F J) (found : system.clients[i]? = some client) (phase : Phase J)
    (sound : Client.Sound env system.store { client with phase := phase })
    (same : ∀ versionNumber, phase.inserted = some versionNumber →
      client.phase.inserted = some versionNumber) :
    System.Ordered env warehouseId
      ⟨system.store, system.clients.set i { client with phase := phase }⟩ := by
  apply ordered.update i client found system.store phase ordered.readable sound
  · intro other member versionNumber inserted
    exact row_of_inserted (ordered.sound other member) inserted
  · intro versionNumber inserted
    exact .inl (same versionNumber inserted)

theorem System.Ordered.insertVersion (ordered : system.Ordered env warehouseId) (i : Nat)
    (client : Client F J) (found : system.clients[i]? = some client) (versionNumber : Nat)
    (next : system.store.nextNumber warehouseId = versionNumber) :
    System.Ordered env warehouseId
      ⟨⟨system.store.versions.insertOrReplace
          ((client.request.call versionNumber).versionRow env), system.store.changes⟩,
        system.clients.set i ⟨client.request, .running versionNumber
          (((client.request.call versionNumber).changeRows env).map .insertChange)⟩⟩ := by
  have own := (ordered.requests client (List.mem_of_getElem? found)).1
  have below : ∀ other ∈ system.clients, ∀ number, other.phase.inserted = some number →
      number < versionNumber := by
    intro other member number inserted
    have stored := row_of_inserted (ordered.sound other member) inserted
    have bound := lt_nextNumber system.store _ stored
    have owner : ((other.request.call number).versionRow env).warehouseId = warehouseId :=
      (ordered.requests other member).1
    rw [owner, next] at bound
    exact bound
  apply ordered.update i client found
  · exact ordered.readable
  · refine .inr ⟨(UniqueTable.mem_insertOrReplace _ _ _).mpr (.inr rfl), ?_⟩
    intro statement member
    obtain ⟨row, inside, same⟩ := List.mem_map.mp member
    exact ⟨row, inside, same.symm⟩
  · intro other member number inserted
    have stored := row_of_inserted (ordered.sound other member) inserted
    refine (UniqueTable.mem_insertOrReplace _ _ _).mpr (.inl ⟨stored, ?_⟩)
    have differs : number ≠ versionNumber := (below other member number inserted).ne
    rw [VersionRow.clash, Bool.or_eq_false_iff, beq_eq_false_iff_ne, beq_eq_false_iff_ne]
    exact ⟨fun same => differs (formatVersionId_inj same).2,
      fun same => differs (congrArg Prod.snd same)⟩
  · intro number inserted
    have same : number = versionNumber := by
      cases rows : (client.request.call versionNumber).changeRows env <;>
        rw [rows] at inserted <;> exact (Option.some.inj inserted).symm
    subst same
    exact .inr fun other member inside => (below other member number inside).ne rfl

theorem System.Ordered.insertChange (ordered : system.Ordered env warehouseId) (i : Nat)
    (client : Client F J) (found : system.clients[i]? = some client) (versionNumber : Nat)
    (row : ChangeRow J) (rest : List (Statement J))
    (phase : client.phase = .running versionNumber (.insertChange row :: rest)) :
    System.Ordered env warehouseId
      ⟨{ system.store with changes := system.store.changes.insertOrReplace row },
        system.clients.set i { client with phase := .running versionNumber rest }⟩ := by
  have member := List.mem_of_getElem? found
  have sound := ordered.sound client member
  have inserted : client.phase.inserted = some versionNumber := by rw [phase]; rfl
  have stored := row_of_inserted sound inserted
  unfold Client.Sound at sound
  rw [phase] at sound
  rcases sound with full | ⟨-, changes⟩
  · rw [SaveCall.statements_eq] at full
    cases full
  · obtain ⟨written, inside, same⟩ := changes _ List.mem_cons_self
    rw [Statement.insertChange.injEq] at same
    subst same
    apply ordered.update i client found
    · intro old kept
      rcases (UniqueTable.mem_insertOrReplace _ _ _).mp kept with before | rfl
      · exact ordered.readable old before.1
      · simp only [SaveCall.changeRows, List.mem_map] at inside
        obtain ⟨⟨change, uuid⟩, paired, rfl⟩ := inside
        exact ⟨change, readChange_changeRow env change _ uuid
          (((ordered.requests client member).2 versionNumber).2 change
            (List.of_mem_zip paired).1)⟩
    · exact .inr ⟨stored, fun statement later =>
        changes statement (List.mem_cons_of_mem _ later)⟩
    · intro other known number present
      exact row_of_inserted (ordered.sound other known) present
    · intro number present
      refine .inl (inserted.trans ?_)
      cases rest with
      | nil => exact present
      | cons statement rest =>
        obtain ⟨later, -, rfl⟩ :=
          changes statement (List.mem_cons_of_mem _ List.mem_cons_self)
        exact present

theorem System.Ordered.fail (ordered : system.Ordered env warehouseId) (i : Nat)
    (client : Client F J) (found : system.clients[i]? = some client) :
    System.Ordered env warehouseId
      ⟨system.store, system.clients.set i { client with phase := .failed }⟩ :=
  ordered.idle i client found .failed trivial (fun _ none => nomatch none)

theorem System.Ordered.step (ordered : system.Ordered env warehouseId) (action : Action)
    (current : system.Current warehouseId action) :
    (system.step env action).Ordered env warehouseId := by
  cases found : system.clients[action.client]? with
  | none => simpa [System.step, found] using ordered
  | some client =>
    have member := List.mem_of_getElem? found
    have sound := ordered.sound client member
    have fail : client.advance env action.refused system.store = (system.store, .failed) →
        (system.step env action).Ordered env warehouseId := by
      intro moved
      rw [system.step_eq env action client found _ _ moved]
      exact ordered.fail action.client client found
    have settle : ∀ number, client.phase.inserted = some number →
        client.advance env action.refused system.store = (system.store, .returned number) →
        (system.step env action).Ordered env warehouseId := by
      intro number inserted moved
      rw [system.step_eq env action client found _ _ moved]
      apply ordered.idle action.client client found
      · exact row_of_inserted sound inserted
      · intro number' inserted'
        rw [inserted]
        exact inserted'
    cases phase : client.phase with
    | start =>
      cases latest : getLatestVersion env system.store client.request.lineageGraph.warehouseId with
      | error error => exact fail (by simp [Client.advance, phase, latest])
      | ok latest' =>
        by_cases fits : nextVersionNumber latest' < 2 ^ 32
        · have moved : client.advance env action.refused system.store =
              (system.store, .running (nextVersionNumber latest')
                ((client.request.call (nextVersionNumber latest')).statements env)) := by
            simp only [Client.advance, phase, latest, if_pos fits]
          rw [system.step_eq env action client found _ _ moved]
          apply ordered.idle action.client client found
          · exact Or.inl rfl
          · intro number inserted
            rw [SaveCall.statements_eq] at inserted
            cases inserted
        · exact fail (by simp only [Client.advance, phase, latest, if_neg fits])
    | failed => exact fail (by simp [Client.advance, phase])
    | returned number =>
      exact settle number (by rw [phase]; rfl) (by simp only [Client.advance, phase])
    | running number rest =>
      cases rest with
      | nil => exact settle number (by rw [phase]; rfl) (by simp only [Client.advance, phase])
      | cons statement rest =>
        cases refused : action.refused with
        | true => exact fail (by simp [Client.advance, phase, refused])
        | false =>
          cases executed : system.store.execute env.foreignKeys statement with
          | none => exact fail (by simp [Client.advance, phase, refused, executed])
          | some next =>
            rw [system.step_eq env action client found next (.running number rest)
              (by simp [Client.advance, phase, refused, executed])]
            cases statement with
            | insertChange row =>
              rw [execute_insertChange executed]
              exact ordered.insertChange action.client client found number row rest phase
            | insertVersion row =>
              unfold Client.Sound at sound
              rw [phase] at sound
              rcases sound with full | ⟨-, changes⟩
              · rw [SaveCall.statements_eq, List.cons.injEq, Statement.insertVersion.injEq] at full
                obtain ⟨rfl, rfl⟩ := full
                rw [execute_insertVersion executed]
                exact ordered.insertVersion action.client client found number
                  (current refused number (by simp [found, phase, Phase.inserting]))
              · obtain ⟨row', -, same⟩ := changes _ List.mem_cons_self
                cases same

end Steps

theorem System.Ordered.run {env : StoreEnv F J} {warehouseId : String} (actions : List Action)
    (system : System F J) (ordered : system.Ordered env warehouseId)
    (undisturbed : Undisturbed env warehouseId actions system) :
    (system.run env actions).Ordered env warehouseId := by
  induction actions generalizing system with
  | nil => exact ordered
  | cons action actions ih => exact ih _ (ordered.step action undisturbed.1) undisturbed.2

theorem System.Ordered.allSaved {env : StoreEnv F J} {warehouseId : String}
    {system : System F J} (ordered : system.Ordered env warehouseId) :
    system.AllSaved env warehouseId where
  retrievable := by
    intro client member number returned
    have stored := row_of_inserted (ordered.sound client member)
      (show client.phase.inserted = some number by rw [returned]; rfl)
    obtain ⟨owner, dated⟩ := ordered.requests client member
    obtain ⟨changes, known⟩ : ∃ changes, getChanges env system.store
        (client.request.version number).versionId = .ok changes :=
      (Results.mapM_returns_iff _ _).mpr fun row inside =>
        ordered.readable row ((mem_changesOf _ _ row).mp inside).1
    have read := (readVersion_versionRow env system.store (client.request.call number).now
      (client.request.version number) _).mpr ⟨(dated number).1, changes, known, rfl⟩
    have found := getVersion_of_mem env system.store _ stored
    have name : ((client.request.call number).versionRow env).warehouseId = warehouseId := owner
    rw [name] at found
    refine ⟨{ client.request.version number with changesFromPrevious := changes }, ?_, rfl⟩
    exact found.trans (congrArg (some <$> ·) read)
  distinct := by
    intro i j client client' apart left right number returned returned'
    apply ordered.distinct i j client client' apart left right number
    · rw [returned]; rfl
    · rw [returned']; rfl

/-- In every state of a run in which each version row goes in while the number its client read is
    still the latest, the calls that returned are all saved. -/
theorem undisturbed_saves_all (env : StoreEnv F J) (store : Store J)
    (readable : store.Readable env) (warehouseId : String) (requests : List (SaveRequest F))
    (own : ∀ request ∈ requests,
      request.lineageGraph.warehouseId = warehouseId ∧ request.Dated env)
    (actions : List Action)
    (undisturbed : Undisturbed env warehouseId actions (.start store requests)) :
    ((System.start store requests).run env actions).AllSaved env warehouseId := by
  apply System.Ordered.allSaved
  apply System.Ordered.run actions _ _ undisturbed
  refine ⟨readable, ?_, ?_, ?_⟩
  · intro client member
    obtain ⟨request, inside, rfl⟩ := List.mem_map.mp member
    exact own request inside
  · intro client member
    obtain ⟨request, -, rfl⟩ := List.mem_map.mp member
    trivial
  · intro i j client client' _ found _ number inserted
    obtain ⟨request, -, rfl⟩ := List.mem_map.mp (List.mem_of_getElem? found)
    cases inserted

def emptyRequest : SaveRequest ExtRat where
  lineageGraph := .new "w" epoch
  changes := []
  qualityScores := ∅
  clock _ := epoch
  uuids := []
  drawn := drawn_none
  distinct := List.nodup_nil

def overlapping : List Action :=
  [⟨0, false⟩, ⟨1, false⟩, ⟨0, false⟩, ⟨1, false⟩, ⟨0, false⟩, ⟨1, false⟩]

def Phase.given : Phase J → Option Nat
  | .returned versionNumber => some versionNumber
  | _ => none

theorem overlapping_given :
    ((System.start (.empty (J := JsonText)) [emptyRequest, emptyRequest]).run plainEnv
      overlapping).clients.map (fun client => client.phase.given) = [some 1, some 1] := by
  decide +kernel

theorem given_iff (phase : Phase J) (versionNumber : Nat) :
    phase.given = some versionNumber ↔ phase = .returned versionNumber := by
  cases phase <;> simp [Phase.given]

theorem overlapping_saves_lose : ∃ (store : Store JsonText) (actions : List Action),
    (∀ client ∈ ((System.start store [emptyRequest, emptyRequest]).run plainEnv actions).clients,
      ∃ versionNumber, client.phase = .returned versionNumber) ∧
    ¬ ((System.start store [emptyRequest, emptyRequest]).run plainEnv actions).AllSaved
      plainEnv "w" := by
  refine ⟨.empty, overlapping, ?_, ?_⟩
  · intro client member
    have given := List.mem_map_of_mem (f := fun client => client.phase.given) member
    rw [overlapping_given] at given
    refine ⟨1, (given_iff client.phase 1).mp ?_⟩
    simpa using given
  · intro saved
    have phases : ∀ i, i < 2 → ∃ client,
        ((System.start (.empty (J := JsonText)) [emptyRequest, emptyRequest]).run plainEnv
          overlapping).clients[i]? = some client ∧ client.phase = .returned 1 := by
      intro i bound
      have given := congrArg (·[i]?) overlapping_given
      simp only [List.getElem?_map] at given
      have one : [some 1, some 1][i]? = some (some 1) := by
        rcases i with _ | _ | i
        · rfl
        · rfl
        · omega
      rw [one, Option.map_eq_some_iff] at given
      obtain ⟨client, found, number⟩ := given
      exact ⟨client, found, (given_iff client.phase 1).mp number⟩
    obtain ⟨first, left, returned⟩ := phases 0 (by decide)
    obtain ⟨second, right, returned'⟩ := phases 1 (by decide)
    exact saved.distinct 0 1 first second (by decide) left right 1 returned returned'

theorem drawn_one {α : Type} (uuid : Uuid) (change : α) : [uuid].length = [change].length := rfl

def ordersRequest (uuid : Uuid) : SaveRequest ExtRat where
  lineageGraph := .new "w" epoch
  changes := [⟨.nodeAdded, "orders", none, none, none, none, [], .low, false⟩]
  qualityScores := ∅
  clock _ := epoch
  uuids := [uuid]
  drawn := drawn_one uuid _
  distinct := List.nodup_singleton uuid

/-- The second client reads while the first still has its change to insert; a third one, which read
    before both, is refused. -/
def oneByOne : List Action :=
  [⟨2, false⟩, ⟨0, false⟩, ⟨0, false⟩, ⟨1, false⟩, ⟨0, false⟩, ⟨1, false⟩, ⟨2, true⟩, ⟨0, false⟩,
    ⟨1, false⟩, ⟨1, false⟩]

theorem undisturbed_saves_all_one_by_one :
    ((System.start (.empty (J := JsonText))
      [ordersRequest firstUuid, ordersRequest secondUuid, emptyRequest]).run plainEnv
        oneByOne).AllSaved plainEnv "w" := by
  apply undisturbed_saves_all plainEnv .empty _ "w" _ _ oneByOne
  · decide +kernel
  · simp [Store.Readable, Store.empty]
  · have dated : ∀ uuid, (ordersRequest uuid).Dated plainEnv := fun uuid versionNumber =>
      ⟨rfl, List.forall_mem_singleton.mpr rfl⟩
    have undated : emptyRequest.Dated plainEnv := fun versionNumber => ⟨rfl, List.forall_mem_nil _⟩
    exact List.forall_mem_cons.mpr ⟨⟨rfl, dated _⟩, List.forall_mem_cons.mpr
      ⟨⟨rfl, dated _⟩, List.forall_mem_singleton.mpr ⟨rfl, undated⟩⟩⟩

end StatGuardian.Lineage
