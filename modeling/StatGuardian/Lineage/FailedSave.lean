import StatGuardian.Lineage.ReadBack

namespace StatGuardian.Lineage

variable {F J : Type} [Float64 F]

def VersionRow.shown (row : VersionRow J) : VersionRow J := { row with createdAt := "" }

def ChangeRow.shown (row : ChangeRow J) : ChangeRow J := { row with changeId := "" }

theorem number_of_shown {a b : VersionRow J} (same : a.shown = b.shown) : a.number = b.number := by
  have shown : a.shown.number = b.shown.number := by rw [same]
  exact shown

theorem versionId_of_shown {a b : VersionRow J} (same : a.shown = b.shown) :
    a.versionId = b.versionId := by
  have shown : a.shown.versionId = b.shown.versionId := by rw [same]
  exact shown

theorem subject_of_shown {a b : ChangeRow J} (same : a.shown = b.shown) :
    a.subject = b.subject := by
  have shown : a.shown.subject = b.shown.subject := by rw [same]
  exact shown

/-- Equal but for the order of the changes, which no query fixes. -/
def LineageVersion.Alike (a b : LineageVersion F) : Prop :=
  { a with changesFromPrevious := [] } = { b with changesFromPrevious := [] } ∧
    a.changesFromPrevious.Perm b.changesFromPrevious

/-- Every query returns from the second store what it returns from the first. -/
structure Unchanged (env : StoreEnv F J) (before after : Store J) : Prop where
  getVersion : ∀ warehouseId versionNumber, Results.Same (Option.Rel LineageVersion.Alike)
    (getVersion env before warehouseId versionNumber)
    (getVersion env after warehouseId versionNumber)
  listVersions : ∀ warehouseId limit,
    listVersions before warehouseId limit = listVersions after warehouseId limit
  getLatestVersion : ∀ warehouseId, Results.Same (Option.Rel LineageVersion.Alike)
    (getLatestVersion env before warehouseId) (getLatestVersion env after warehouseId)
  getChanges : ∀ versionId, Results.Same List.Perm
    (getChanges env before versionId) (getChanges env after versionId)

structure Written (env : StoreEnv F J) (store : Store J) : Prop where
  versions : ∀ row ∈ store.versions.rows, ∃ now version, row = versionRow env now version
  changes : ∀ row ∈ store.changes.rows, ∃ change versionId uuid,
    row = changeRow env change versionId uuid

theorem Written.execute (env : StoreEnv F J) (store next : Store J) (call : SaveCall F)
    (statement : Statement J) (written : Written env store)
    (member : statement ∈ call.statements env)
    (executed : store.execute env.foreignKeys statement = some next) : Written env next := by
  rcases statement_cases env call statement member with rfl | ⟨new, inside, rfl⟩
  · rw [execute_insertVersion executed]
    refine ⟨fun row stored => ?_, written.changes⟩
    rcases (UniqueTable.mem_insertOrReplace _ _ _).mp stored with old | rfl
    · exact written.versions row old.1
    · exact ⟨_, _, rfl⟩
  · rw [execute_insertChange executed]
    refine ⟨written.versions, fun row stored => ?_⟩
    rcases (UniqueTable.mem_insertOrReplace _ _ _).mp stored with old | rfl
    · exact written.changes row old.1
    · simp only [SaveCall.changeRows, List.mem_map] at inside
      obtain ⟨pair, -, rfl⟩ := inside
      exact ⟨_, _, _, rfl⟩

theorem Reached.written {env : StoreEnv F J} {allowed : SaveCall F → Prop} {store : Store J}
    (reached : Reached env allowed store) : Written env store := by
  induction reached with
  | empty => exact ⟨by simp [Store.empty], by simp [Store.empty]⟩
  | execute call statement _ _ member executed ih =>
    exact ih.execute env _ _ call statement member executed

section Views

variable {env : StoreEnv F J} {before after : Store J}

theorem readChange_shown (env : StoreEnv F J) (row : ChangeRow J) :
    readChange env row.shown = readChange env row := rfl

theorem versionNumbers_of_views
    (versions : (after.versions.rows.map VersionRow.shown).Perm
      (before.versions.rows.map VersionRow.shown)) (warehouseId : String) :
    before.versionNumbers warehouseId = after.versionNumbers warehouseId := by
  have numbers : ∀ store : Store J,
      (store.versions.rows.filter (fun row => row.warehouseId = warehouseId)).map
        VersionRow.versionNumber =
      ((store.versions.rows.map VersionRow.shown).filter
        (fun row => row.warehouseId = warehouseId)).map VersionRow.versionNumber := by
    intro store
    rw [List.filter_map, List.map_map]
    rfl
  rw [Store.versionNumbers, Store.versionNumbers, numbers, numbers]
  apply List.Perm.eq_of_pairwise' (r := (· ≥ ·)) (List.pairwise_insertionSort _ _)
    (List.pairwise_insertionSort _ _)
  exact (List.perm_insertionSort _ _).trans
    ((((versions.symm.filter _).map _)).trans (List.perm_insertionSort _ _).symm)

theorem changesOf_views
    (changes : (after.changes.rows.map ChangeRow.shown).Perm
      (before.changes.rows.map ChangeRow.shown)) (versionId : String) :
    ((before.changesOf versionId).map ChangeRow.shown).Perm
      ((after.changesOf versionId).map ChangeRow.shown) := by
  have shown : ∀ store : Store J, (store.changesOf versionId).map ChangeRow.shown =
      (store.changes.rows.map ChangeRow.shown).filter (fun row => row.versionId = versionId) := by
    intro store
    rw [List.filter_map]
    rfl
  rw [shown, shown]
  exact changes.symm.filter _

theorem getChanges_shown (env : StoreEnv F J) (store : Store J) (versionId : String) :
    getChanges env store versionId =
      ((store.changesOf versionId).map ChangeRow.shown).mapM (readChange env) := by
  rw [List.mapM_map]
  rfl

/-- A written change fails to read only for its timestamp. -/
theorem readChange_error (written : Written env before) (row : ChangeRow J)
    (member : row ∈ before.changes.rows) (error : StoreError)
    (failed : readChange env row = .error error) : error = .timestamp := by
  obtain ⟨change, versionId, uuid, rfl⟩ := written.changes row member
  by_cases back : ReadsBack env change.changedAt
  · rw [readChange_changeRow env change versionId uuid back] at failed
    cases failed
  · simp only [readChange, changeRow, parse_of_not_readsBack env _ back, orFail, bind,
      Except.bind] at failed
    exact (Except.error.inj failed).symm

theorem getChanges_of_views (written : Written env before)
    (changes : (after.changes.rows.map ChangeRow.shown).Perm
      (before.changes.rows.map ChangeRow.shown)) (versionId : String) :
    Results.Same List.Perm (getChanges env before versionId) (getChanges env after versionId) := by
  rw [getChanges_shown, getChanges_shown]
  apply Results.mapM_same_of_perm _ .timestamp (changesOf_views changes versionId)
  intro shown member error failed
  obtain ⟨row, inside, rfl⟩ := List.mem_map.mp member
  rw [readChange_shown] at failed
  exact readChange_error written row ((mem_changesOf before versionId row).mp inside).1 error failed

theorem readVersion_shown (env : StoreEnv F J) (store : Store J) (row : VersionRow J) :
    readVersion env store row.shown = readVersion env store row := rfl

theorem readVersion_of_changes (row : VersionRow J)
    (changes : Results.Same List.Perm (getChanges env before row.versionId)
      (getChanges env after row.versionId)) :
    Results.Same LineageVersion.Alike (readVersion env before row) (readVersion env after row) := by
  unfold readVersion
  cases orFail .json (env.graphFromStr row.graphJson) with
  | error error => exact rfl
  | ok graph =>
    cases orFail .json (env.versionsFromStr row.schemaVersionsJson) with
    | error error => exact rfl
    | ok versions =>
      cases orFail .json (env.scoresFromStr row.qualityScoresJson) with
      | error error => exact rfl
      | ok scores =>
        cases orFail .timestamp (env.parseFromRfc3339 row.timestamp) with
        | error error => exact rfl
        | ok timestamp =>
          cases left : getChanges env before row.versionId with
          | error error =>
            cases right : getChanges env after row.versionId with
            | error error' =>
              rw [left, right] at changes
              exact changes
            | ok read => rw [left, right] at changes; exact changes.elim
          | ok read =>
            cases right : getChanges env after row.versionId with
            | error error' => rw [left, right] at changes; exact changes.elim
            | ok read' =>
              rw [left, right] at changes
              exact ⟨rfl, changes⟩

theorem map_some_same {R : LineageVersion F → LineageVersion F → Prop}
    {x y : Except StoreError (LineageVersion F)} (same : Results.Same R x y) :
    Results.Same (Option.Rel R) (some <$> x) (some <$> y) := by
  cases x <;> cases y
  · exact same
  · exact same.elim
  · exact same.elim
  · exact .some same

theorem find_of_views {before after : Store J}
    (versions : (after.versions.rows.map VersionRow.shown).Perm
      (before.versions.rows.map VersionRow.shown)) (number : String × Nat) (row : VersionRow J)
    (found : before.versions.rows.find? (fun row => row.number = number) = some row) :
    ∃ row', after.versions.rows.find? (fun row => row.number = number) = some row' ∧
      row'.shown = row.shown := by
  obtain ⟨member, same⟩ := (UniqueTable.find_row_iff VersionRow.number version_number_unique
    before.versions number row).mp found
  obtain ⟨row', member', shown⟩ :=
    List.mem_map.mp (versions.mem_iff.mpr (List.mem_map_of_mem member))
  have number' : row'.number = row.number := number_of_shown shown
  exact ⟨row', (UniqueTable.find_row_iff VersionRow.number version_number_unique after.versions
    number row').mpr ⟨member', number'.trans same⟩, shown⟩

theorem getVersion_of_views (written : Written env before)
    (versions : (after.versions.rows.map VersionRow.shown).Perm
      (before.versions.rows.map VersionRow.shown))
    (changes : (after.changes.rows.map ChangeRow.shown).Perm
      (before.changes.rows.map ChangeRow.shown)) (warehouseId : String) (versionNumber : Nat) :
    Results.Same (Option.Rel LineageVersion.Alike)
      (getVersion env before warehouseId versionNumber)
      (getVersion env after warehouseId versionNumber) := by
  unfold getVersion
  cases found : before.versions.rows.find?
      (fun row => row.number = (warehouseId, versionNumber)) with
  | some row =>
    obtain ⟨row', found', shown⟩ := find_of_views versions _ row found
    have reads : readVersion env after row' = readVersion env after row := by
      rw [← readVersion_shown env after row', shown, readVersion_shown]
    rw [found']
    simp only [reads]
    exact map_some_same
      (readVersion_of_changes row (getChanges_of_views written changes row.versionId))
  | none =>
    cases found' : after.versions.rows.find?
        (fun row => row.number = (warehouseId, versionNumber)) with
    | some row' =>
      obtain ⟨row, back, -⟩ := find_of_views versions.symm _ row' found'
      exact absurd (found.symm.trans back) (by simp)
    | none => exact .none

theorem unchanged_of_views (written : Written env before)
    (versions : (after.versions.rows.map VersionRow.shown).Perm
      (before.versions.rows.map VersionRow.shown))
    (changes : (after.changes.rows.map ChangeRow.shown).Perm
      (before.changes.rows.map ChangeRow.shown)) : Unchanged env before after where
  getVersion := getVersion_of_views written versions changes
  listVersions warehouseId limit := by
    rw [listVersions, listVersions, versionNumbers_of_views versions warehouseId]
  getLatestVersion warehouseId := by
    unfold getLatestVersion
    rw [versionNumbers_of_views versions warehouseId]
    cases (after.versionNumbers warehouseId).head? with
    | some number => exact getVersion_of_views written versions changes warehouseId number
    | none => exact .none
  getChanges := getChanges_of_views written changes

end Views

theorem unchanged_refl (env : StoreEnv F J) (store : Store J) : Unchanged env store store where
  getVersion warehouseId versionNumber := by
    apply Results.same_refl
    rintro (_ | version)
    · exact .none
    · exact .some ⟨rfl, .refl _⟩
  listVersions _ _ := rfl
  getLatestVersion warehouseId := by
    apply Results.same_refl
    rintro (_ | version)
    · exact .none
    · exact .some ⟨rfl, .refl _⟩
  getChanges versionId := Results.same_refl (fun changes => .refl changes) _

def SaveCall.Fresh (env : StoreEnv F J) (call : SaveCall F) (store : Store J) : Prop :=
  ∀ row ∈ store.changes.rows, ∀ new ∈ call.changeRows env, row.changeId ≠ new.changeId

def Store.Readable (env : StoreEnv F J) (store : Store J) : Prop :=
  ∀ row ∈ store.changes.rows, ∃ change, readChange env row = .ok change

/-- The store already shows the version row of the call and what its first change rows leave. -/
def Held (env : StoreEnv F J) (store : Store J) (call : SaveCall F) (written : Nat) : Prop :=
  (∃ row ∈ store.versions.rows, row.shown = (call.versionRow env).shown) ∧
    ∀ row, UniqueTable.Survives ChangeRow.clash ((call.changeRows env).take written) row →
      ∃ old ∈ store.changes.rows, old.shown = row.shown

def NothingWritten (env : StoreEnv F J) (store : Store J) (call : SaveCall F) (refused : Nat) :
    Prop :=
  refused = 0 ∨ (env.foreignKeys && store.orphans (call.versionRow env)) = true

theorem versions_views (env : StoreEnv F J) (store : Store J) (call : SaveCall F)
    (held : ∃ row ∈ store.versions.rows, row.shown = (call.versionRow env).shown) :
    ((store.versions.insertOrReplace (call.versionRow env)).rows.map VersionRow.shown).Perm
      (store.versions.rows.map VersionRow.shown) := by
  obtain ⟨old, member, shown⟩ := held
  have views := UniqueTable.views_insertAll_iff VersionRow.shown VersionRow.number
    version_number_unique (fun _ _ => number_of_shown) store.versions
    [call.versionRow env]
  apply (views _ _).mpr
  · intro row survives
    rw [List.mem_singleton.mp survives.mem]
    exact ⟨old, member, shown⟩
  · intro a left b right _
    rw [List.mem_singleton.mp left, List.mem_singleton.mp right]
  · intro row inside new last clash
    rw [List.mem_singleton.mp last] at clash ⊢
    rw [VersionRow.clash, Bool.or_eq_true, beq_iff_eq, beq_iff_eq] at clash
    rcases clash with ids | numbers
    · have rows : row = old := UniqueTable.eq_of_key VersionRow.versionId
        (fun a b same => by simp [VersionRow.clash, same]) store.versions inside member
        (ids.trans (versionId_of_shown shown).symm)
      rw [rows]
      exact number_of_shown shown
    · exact numbers

theorem subject_eq_of_clash (env : StoreEnv F J) (call : SaveCall F) (a b : ChangeRow J)
    (left : a ∈ call.changeRows env) (right : b ∈ call.changeRows env)
    (clash : a.clash b = true) : a.subject = b.subject := by
  rw [ChangeRow.clash, Bool.or_eq_true, beq_iff_eq, beq_iff_eq] at clash
  rcases clash with ids | subjects
  · have uuids : ((call.version.changesFromPrevious.zip call.uuids).map Prod.snd).Nodup := by
      rw [List.map_snd_zip call.drawn.le]
      exact call.distinct
    simp only [SaveCall.changeRows, List.mem_map] at left right
    obtain ⟨pair, first, rfl⟩ := left
    obtain ⟨pair', second, rfl⟩ := right
    rw [List.inj_on_of_nodup_map uuids first second (changeId_inj ids).2]
  · exact subjects

theorem changes_views (env : StoreEnv F J) (store : Store J) (call : SaveCall F)
    (fresh : call.Fresh env store) (written : Nat)
    (held : ∀ row, UniqueTable.Survives ChangeRow.clash ((call.changeRows env).take written) row →
      ∃ old ∈ store.changes.rows, old.shown = row.shown) :
    ((call.apply env written store).changes.rows.map ChangeRow.shown).Perm
      (store.changes.rows.map ChangeRow.shown) := by
  apply (UniqueTable.views_insertAll_iff ChangeRow.shown ChangeRow.subject change_subject_unique
    (fun _ _ => subject_of_shown) store.changes _ _ _).mpr held
  · intro a left b right clash
    exact subject_eq_of_clash env call a b (List.mem_of_mem_take left)
      (List.mem_of_mem_take right) clash
  · intro row member new inside clash
    rw [ChangeRow.clash, Bool.or_eq_true, beq_iff_eq, beq_iff_eq] at clash
    exact clash.resolve_left (fresh row member new (List.mem_of_mem_take inside))

theorem unchanged_of_held (env : StoreEnv F J) (store : Store J) (written : Written env store)
    (call : SaveCall F) (fresh : call.Fresh env store) (count : Nat)
    (held : Held env store call count) : Unchanged env store (call.apply env count store) :=
  unchanged_of_views written (versions_views env store call held.1)
    (changes_views env store call fresh count held.2)

theorem getChanges_apply (env : StoreEnv F J) (store : Store J) (readable : store.Readable env)
    (call : SaveCall F) (dated : call.version.Dated env) (count : Nat) (versionId : String) :
    ∃ changes, getChanges env (call.apply env count store) versionId = .ok changes := by
  apply (Results.mapM_returns_iff _ _).mpr
  intro row member
  have stored := ((mem_changesOf _ _ row).mp member).1
  rw [SaveCall.apply, UniqueTable.mem_insertAll] at stored
  rcases stored with new | ⟨old, -⟩
  · have inside := List.mem_of_mem_take new.mem
    simp only [SaveCall.changeRows, List.mem_map] at inside
    obtain ⟨⟨change, uuid⟩, paired, rfl⟩ := inside
    exact ⟨change, readChange_changeRow env change _ uuid
      (dated.2 change (List.of_mem_zip paired).1)⟩
  · exact readable row old

/-- A version that reads alike before and after was already there as the call wrote it. -/
theorem version_held_of_unchanged (env : StoreEnv F J) (store : Store J)
    (written : Written env store) (readable : store.Readable env) (call : SaveCall F)
    (dated : call.version.Dated env) (count : Nat)
    (unchanged : Unchanged env store (call.apply env count store)) :
    ∃ row ∈ store.versions.rows, row.shown = (call.versionRow env).shown := by
  have member : versionRow env call.now call.version ∈
      (call.apply env count store).versions.rows :=
    (UniqueTable.mem_insertOrReplace _ _ _).mpr (.inr rfl)
  obtain ⟨changes, stored⟩ := getChanges_apply env store readable call dated count
    call.version.versionId
  have after : getVersion env (call.apply env count store)
      call.version.lineageGraph.warehouseId call.version.versionNumber =
        .ok (some { call.version with changesFromPrevious := changes }) := by
    have found := getVersion_of_mem env _ _ member
    have read := (readVersion_versionRow env (call.apply env count store) call.now call.version
      _).mpr ⟨dated.1, changes, stored, rfl⟩
    rw [read] at found
    exact found
  obtain ⟨before, queried, alike⟩ := Results.ok_of_same (unchanged.getVersion _ _) after
  cases alike with
  | some alike =>
    rename_i version
    rw [getVersion] at queried
    split at queried
    · rename_i row found
      obtain ⟨inside, -⟩ := (UniqueTable.find_row_iff VersionRow.number version_number_unique
        store.versions _ row).mp found
      obtain ⟨now, saved, rfl⟩ := written.versions row inside
      obtain ⟨read, known, same⟩ := (Results.map_ok_iff _ _ _).mp queried
      obtain ⟨-, rest, -, built⟩ := (readVersion_versionRow env store now saved read).mp known
      refine ⟨_, inside, ?_⟩
      rw [Option.some.injEq] at same
      subst same built
      have fields := alike.1
      simp only [LineageVersion.mk.injEq] at fields
      simp only [VersionRow.shown, SaveCall.versionRow, versionRow, fields]
    · cases queried

theorem changes_held_of_unchanged (env : StoreEnv F J) (store : Store J)
    (written : Written env store) (readable : store.Readable env) (call : SaveCall F)
    (dated : call.version.Dated env) (count : Nat)
    (unchanged : Unchanged env store (call.apply env count store)) (row : ChangeRow J)
    (survives : UniqueTable.Survives ChangeRow.clash ((call.changeRows env).take count) row) :
    ∃ old ∈ store.changes.rows, old.shown = row.shown := by
  have stored : row ∈ (call.apply env count store).changesOf call.version.versionId := by
    rw [mem_changesOf, SaveCall.apply, UniqueTable.mem_insertAll]
    exact ⟨.inl survives,
      versionId_of_mem_changeRows env call row (List.mem_of_mem_take survives.mem)⟩
  obtain ⟨changes, after⟩ := getChanges_apply env store readable call dated count
    call.version.versionId
  obtain ⟨change, inside, read⟩ :=
    Results.forall₂_left ((Results.mapM_ok_iff _ _ _).mp after) row stored
  obtain ⟨changes', before, same⟩ := Results.ok_of_same (unchanged.getChanges _) after
  obtain ⟨old, member, read'⟩ := Results.forall₂_right ((Results.mapM_ok_iff _ _ _).mp before)
    change (same.mem_iff.mpr inside)
  obtain ⟨found, ids⟩ := (mem_changesOf store _ old).mp member
  have new := List.mem_of_mem_take survives.mem
  simp only [SaveCall.changeRows, List.mem_map] at new
  obtain ⟨⟨wrote, uuid⟩, -, rfl⟩ := new
  obtain ⟨wrote', versionId, uuid', rfl⟩ := written.changes old found
  obtain ⟨rfl, -⟩ := (readChange_changeRow_iff env wrote change _ uuid).mp read
  obtain ⟨rfl, -⟩ := (readChange_changeRow_iff env wrote' change versionId uuid').mp read'
  refine ⟨_, found, ?_⟩
  have ids : versionId = call.version.versionId := ids
  subst ids
  rfl

/-- A call that fails on its first statement, or on a later one when the statements before it
    rewrote what the store showed, changes no query; where the stored changes and the call's
    timestamps read back, no other failing call does so. -/
theorem failed_save_unchanged_iff (env : StoreEnv F J) (store : Store J)
    (reached : Reached env (fun _ => True) store) (call : SaveCall F) (fresh : call.Fresh env store)
    (refused : Nat) (point : refused ≤ call.version.changesFromPrevious.length) :
    (lineageSaveVersion env (some refused) call store).2 = .error .database ∧
    (NothingWritten env store call refused ∨ Held env store call (refused - 1) →
      Unchanged env store (lineageSaveVersion env (some refused) call store).1) ∧
    (store.Readable env → call.version.Dated env →
      Unchanged env store (lineageSaveVersion env (some refused) call store).1 →
      NothingWritten env store call refused ∨ Held env store call (refused - 1)) := by
  by_cases first : NothingWritten env store call refused
  · have kept : lineageSaveVersion env (some refused) call store =
        (store, .error .database) := by
      rw [lineageSaveVersion, SaveCall.statements_eq]
      rcases first with rfl | orphaned
      · rfl
      · cases refused with
        | zero => rfl
        | succ refused => simp [executeAll, Store.execute, orphaned]
    rw [kept]
    exact ⟨rfl, fun _ => unchanged_refl env store, fun _ _ _ => .inl first⟩
  · rw [NothingWritten, not_or, Bool.not_eq_true] at first
    have later : refused - 1 < (call.changeRows env).length := by
      have rows : (call.changeRows env).length = call.version.changesFromPrevious.length := by
        simp [SaveCall.changeRows, call.drawn]
      omega
    have stopped : lineageSaveVersion env (some refused) call store =
        (call.apply env (refused - 1) store, .error .database) := by
      rw [lineageSaveVersion_eq env (some refused) call store (by simpa using first.1) first.2]
      simp [later]
    rw [stopped]
    refine ⟨rfl, ?_, ?_⟩
    · rintro (nothing | held)
      · rcases nothing with zero | orphaned
        · exact absurd zero first.1
        · exact absurd (orphaned.symm.trans first.2) (by simp)
      · exact unchanged_of_held env store reached.written call fresh _ held
    · intro readable dated unchanged
      exact .inr
        ⟨version_held_of_unchanged env store reached.written readable call dated _ unchanged,
          changes_held_of_unchanged env store reached.written readable call dated _ unchanged⟩

theorem refused_change_listed :
    listVersions (Store.empty (J := JsonText)) "w" 1 ≠
      listVersions (lineageSaveVersion plainEnv (some 1) (savedOne "a" firstUuid) .empty).1 "w" 1 := by
  decide +kernel

theorem failed_save_shows_version : ∃ (store : Store JsonText) (refused : Nat),
    Reached plainEnv (fun _ => True) store ∧ (savedOne "a" firstUuid).Fresh plainEnv store ∧
      refused ≤ (savedOne "a" firstUuid).version.changesFromPrevious.length ∧
      (lineageSaveVersion plainEnv (some refused) (savedOne "a" firstUuid) store).2 = .error .database ∧
      ¬ Unchanged plainEnv store
        (lineageSaveVersion plainEnv (some refused) (savedOne "a" firstUuid) store).1 := by
  refine ⟨.empty, 1, .empty, ?_, by decide, by decide +kernel, ?_⟩
  · simp [SaveCall.Fresh, Store.empty]
  · intro unchanged
    exact refused_change_listed (unchanged.listVersions "w" 1)

theorem failed_save_unchanged_iff_again :
    Unchanged plainEnv (lineageSaveVersion plainEnv none (savedOne "a" firstUuid) .empty).1
      (lineageSaveVersion plainEnv (some 1) (savedOne "a" secondUuid)
        (lineageSaveVersion plainEnv none (savedOne "a" firstUuid) .empty).1).1 := by
  apply (failed_save_unchanged_iff plainEnv _ (Reached.empty.save none (savedOne "a" firstUuid) trivial)
    (savedOne "a" secondUuid) _ 1 (by decide)).2.1
  · refine .inr ⟨⟨(savedOne "a" firstUuid).versionRow plainEnv, ?_, rfl⟩, ?_⟩
    · exact List.mem_singleton_self _
    · intro row survives
      exact absurd survives (UniqueTable.survives_nil row)
  · intro row member new inside
    rw [List.mem_singleton.mp member, List.mem_singleton.mp inside]
    decide +kernel

end StatGuardian.Lineage
