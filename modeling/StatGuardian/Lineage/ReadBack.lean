import StatGuardian.Lineage.Saving

namespace StatGuardian.Lineage

variable {F J : Type} [Float64 F]

/-- `get_version` returns the version that was saved, with its changes in some order. -/
def ReadsAs (env : StoreEnv F J) (store : Store J) (version : LineageVersion F) : Prop :=
  ∃ read, getVersion env store version.lineageGraph.warehouseId version.versionNumber =
      .ok (some read) ∧
    read.lineageGraph = version.lineageGraph ∧ read.schemaVersions = version.schemaVersions ∧
    read.qualityScores = version.qualityScores ∧ read.changeSeverity = version.changeSeverity ∧
    read.changesFromPrevious.Perm version.changesFromPrevious

def Store.Lacks (store : Store J) (version : LineageVersion F) : Prop :=
  (∀ row ∈ store.versions.rows, row.versionId ≠ version.versionId ∧
      row.number ≠ (version.lineageGraph.warehouseId, version.versionNumber)) ∧
    ∀ row ∈ store.changes.rows, row.versionId ≠ version.versionId

def LineageVersion.Dated (env : StoreEnv F J) (version : LineageVersion F) : Prop :=
  ReadsBack env version.timestamp ∧
    ∀ change ∈ version.changesFromPrevious, ReadsBack env change.changedAt

theorem version_number_unique (a b : VersionRow J) (same : a.number = b.number) :
    a.clash b = true := by
  simp [VersionRow.clash, same]

theorem change_subject_unique (a b : ChangeRow J) (same : a.subject = b.subject) :
    a.clash b = true := by
  simp [ChangeRow.clash, same]

theorem getVersion_of_mem (env : StoreEnv F J) (store : Store J) (row : VersionRow J)
    (member : row ∈ store.versions.rows) :
    getVersion env store row.warehouseId row.versionNumber =
      some <$> readVersion env store row := by
  have found := (UniqueTable.find_row_iff VersionRow.number version_number_unique store.versions
    (row.warehouseId, row.versionNumber) row).mpr ⟨member, rfl⟩
  rw [getVersion, found]

theorem readsAs_iff (env : StoreEnv F J) (store : Store J) (now : DateTime)
    (version : LineageVersion F) (member : versionRow env now version ∈ store.versions.rows) :
    ReadsAs env store version ↔ ReadsBack env version.timestamp ∧
      ∃ changes, getChanges env store version.versionId = .ok changes ∧
        changes.Perm version.changesFromPrevious := by
  have found : getVersion env store version.lineageGraph.warehouseId version.versionNumber = _ :=
    getVersion_of_mem env store (versionRow env now version) member
  simp only [ReadsAs, found, Results.map_ok_iff, Option.some.injEq, readVersion_versionRow]
  constructor
  · rintro ⟨_, ⟨_, ⟨back, changes, stored, rfl⟩, rfl⟩, -, -, -, -, order⟩
    exact ⟨back, changes, stored, order⟩
  · rintro ⟨back, changes, stored, order⟩
    exact ⟨_, ⟨_, ⟨back, changes, stored, rfl⟩, rfl⟩, rfl, rfl, rfl, rfl, order⟩

theorem mapM_readChange_changeRows (env : StoreEnv F J) (call : SaveCall F)
    (dated : ∀ change ∈ call.version.changesFromPrevious, ReadsBack env change.changedAt) :
    (call.changeRows env).mapM (readChange env) = .ok call.version.changesFromPrevious := by
  rw [Results.mapM_ok_iff, SaveCall.changeRows, List.forall₂_map_left_iff]
  have pairs : call.version.changesFromPrevious =
      (call.version.changesFromPrevious.zip call.uuids).map Prod.fst :=
    (List.map_fst_zip call.drawn.ge).symm
  conv => rhs; rw [pairs]
  rw [List.forall₂_map_right_iff, List.forall₂_same]
  rintro ⟨change, uuid⟩ member
  exact readChange_changeRow env change _ uuid (dated change (List.of_mem_zip member).1)

/-- The stored changes of the version read back as its own, in some order. -/
theorem getChanges_of_perm (env : StoreEnv F J) (store : Store J) (call : SaveCall F)
    (dated : ∀ change ∈ call.version.changesFromPrevious, ReadsBack env change.changedAt)
    (stored : (store.changesOf call.version.versionId).Perm (call.changeRows env)) :
    ∃ changes, getChanges env store call.version.versionId = .ok changes ∧
      changes.Perm call.version.changesFromPrevious :=
  Results.mapM_perm (readChange env) stored.symm _ (mapM_readChange_changeRows env call dated)

theorem mem_changeRows_of_lacks (env : StoreEnv F J) (store : Store J) (call : SaveCall F)
    (absent : store.Lacks call.version) (row : ChangeRow J)
    (member : row ∈ (call.apply env (call.changeRows env).length store).changesOf
      call.version.versionId) : row ∈ call.changeRows env := by
  rw [mem_changesOf, SaveCall.apply, List.take_length, UniqueTable.mem_insertAll] at member
  rcases member with ⟨new | ⟨old, -⟩, same⟩
  · exact new.mem
  · exact absurd same (absent.2 row old)

theorem subject_of_readChange (env : StoreEnv F J) (call : SaveCall F) (row : ChangeRow J)
    (member : row ∈ call.changeRows env) (change : LineageChange)
    (read : readChange env row = .ok change) :
    row.subject = (call.version.versionId, change.sourceTable, change.changeType.toString) ∧
      ReadsBack env change.changedAt := by
  simp only [SaveCall.changeRows, List.mem_map] at member
  obtain ⟨⟨written, uuid⟩, -, rfl⟩ := member
  obtain ⟨rfl, back⟩ := (readChange_changeRow_iff env written change _ uuid).mp read
  exact ⟨rfl, back⟩

theorem lineageSaveVersion_of_lacks (env : StoreEnv F J) (store : Store J) (call : SaveCall F)
    (absent : store.Lacks call.version) :
    lineageSaveVersion env none call store =
      (call.apply env (call.changeRows env).length store, .ok ()) := by
  have accepted : store.orphans (call.versionRow env) = false := by
    rw [Store.orphans, List.any_eq_false]
    intro row member
    have free : row.clash (call.versionRow env) = false := by
      simp only [VersionRow.clash, Bool.or_eq_false_iff, beq_eq_false_iff_ne]
      exact absent.1 row member
    simp [free]
  rw [lineageSaveVersion_eq env none call store (by simp) (by simp [accepted])]
  simp

/-- A version that is new to the store reads back exactly when its timestamps do and no two of
    its changes share a source table and a change type. -/
theorem saved_version_reads_back_iff (env : StoreEnv F J) (store : Store J) (call : SaveCall F)
    (absent : store.Lacks call.version) :
    (lineageSaveVersion env none call store).2 = .ok () ∧
      (ReadsAs env (lineageSaveVersion env none call store).1 call.version ↔
        call.version.Dated env ∧
          (call.version.changesFromPrevious.map LineageChange.subject).Nodup) := by
  rw [lineageSaveVersion_of_lacks env store call absent]
  refine ⟨rfl, ?_⟩
  have member : versionRow env call.now call.version ∈
      (call.apply env (call.changeRows env).length store).versions.rows :=
    (UniqueTable.mem_insertOrReplace _ _ _).mpr (.inr rfl)
  rw [readsAs_iff env _ call.now call.version member]
  constructor
  · rintro ⟨back, changes, stored, order⟩
    have reads := (Results.mapM_ok_iff _ _ _).mp stored
    have known : ∀ change ∈ changes, ReadsBack env change.changedAt := by
      intro change inside
      obtain ⟨row, found, read⟩ := Results.forall₂_right reads change inside
      exact (subject_of_readChange env call row
        (mem_changeRows_of_lacks env store call absent row found) change read).2
    refine ⟨⟨back, fun change inside => known change (order.mem_iff.mpr inside)⟩, ?_⟩
    apply (order.map LineageChange.subject).nodup_iff.mp
    have subjects : ((call.apply env (call.changeRows env).length store).changesOf
        call.version.versionId).map ChangeRow.subject = changes.map (fun change =>
          (call.version.versionId, change.sourceTable, change.changeType.toString)) :=
      Results.map_eq_map_of_forall₂ reads _ _ fun row found change read =>
        (subject_of_readChange env call row
          (mem_changeRows_of_lacks env store call absent row found) change read).1
    have distinct : (changes.map (fun change =>
        (call.version.versionId, change.sourceTable, change.changeType.toString))).Nodup := by
      rw [← subjects]
      exact (List.filter_sublist.map ChangeRow.subject).nodup
        (UniqueTable.nodup_keys ChangeRow.subject change_subject_unique _)
    apply List.Nodup.of_map (fun subject : String × ChangeType =>
      (call.version.versionId, subject.1, subject.2.toString))
    rw [List.map_map]
    exact distinct
  · rintro ⟨dated, subjects⟩
    refine ⟨dated.1, getChanges_of_perm env _ call dated.2 ?_⟩
    apply changesOf_apply env store call _ subjects
    intro row stored
    exact absurd ((mem_changesOf store _ row).mp stored).2
      (absent.2 row ((mem_changesOf store _ row).mp stored).1)

def twoTargets : SaveCall ExtRat where
  version := sampleVersion [ordersChange "a", ordersChange "b"]
  now := epoch
  uuids := [firstUuid, secondUuid]
  drawn := rfl
  distinct := by decide

theorem two_targets_lost :
    (getVersion plainEnv (lineageSaveVersion plainEnv none twoTargets .empty).1 "w" 1).toOption.any
      (fun read => read.any (fun version => version.changesFromPrevious == [ordersChange "b"])) =
      true := by
  decide +kernel

theorem saved_version_loses_change : ∃ store : Store JsonText,
    store.Lacks twoTargets.version ∧
      ¬ ReadsAs plainEnv (lineageSaveVersion plainEnv none twoTargets store).1
        twoTargets.version := by
  refine ⟨.empty, ⟨by simp [Store.empty], by simp [Store.empty]⟩, ?_⟩
  rintro ⟨read, stored, -, -, -, -, order⟩
  have kept := two_targets_lost
  change getVersion plainEnv _ "w" 1 = _ at stored
  rw [stored] at kept
  have last : read.changesFromPrevious = [ordersChange "b"] := by
    simpa [Except.toOption] using kept
  have sizes := order.length_eq
  rw [last] at sizes
  exact absurd sizes (by decide)

theorem saved_version_reads_back_iff_two_targets :
    (lineageSaveVersion plainEnv none twoTargets .empty).2 = .ok () ∧
      (ReadsAs plainEnv (lineageSaveVersion plainEnv none twoTargets .empty).1
          twoTargets.version ↔
        twoTargets.version.Dated plainEnv ∧
          (twoTargets.version.changesFromPrevious.map LineageChange.subject).Nodup) :=
  saved_version_reads_back_iff plainEnv .empty twoTargets
    ⟨by simp [Store.empty], by simp [Store.empty]⟩

def SaveCall.number (call : SaveCall F) : String × Nat :=
  (call.version.lineageGraph.warehouseId, call.version.versionNumber)

def SaveCall.Derived (call : SaveCall F) : Prop :=
  call.version.versionId = formatVersionId call.number.1 call.number.2

def saveAll (env : StoreEnv F J) : List (SaveCall F) → Store J → Except StoreError (Store J)
  | [], store => .ok store
  | call :: rest, store =>
    match lineageSaveVersion env none call store with
    | (next, .ok ()) => saveAll env rest next
    | (_, .error error) => .error error

/-- No save drops a subject that an earlier save left under its version. -/
def EachCovered (env : StoreEnv F J) : List (SaveCall F) → Store J → Prop
  | [], _ => True
  | call :: rest, store =>
    store.Covered call ∧ EachCovered env rest (lineageSaveVersion env none call store).1

instance decidableEachCovered (env : StoreEnv F J) :
    ∀ calls store, Decidable (EachCovered env calls store)
  | [], _ => inferInstanceAs (Decidable True)
  | _ :: rest, _ =>
    have := decidableEachCovered env rest
    inferInstanceAs (Decidable (_ ∧ _))

def sameNumber (a b : SaveCall F) : Bool := a.number == b.number

/-- The store holds the last save of every version, and under its id nothing but its changes. -/
structure Latest (env : StoreEnv F J) (calls : List (SaveCall F)) (store : Store J) : Prop where
  derived : ∀ row ∈ store.versions.rows,
    row.versionId = formatVersionId row.warehouseId row.versionNumber
  identified : ∀ row ∈ store.changes.rows, row.Identified
  last : ∀ call, UniqueTable.Survives sameNumber calls call → call.Derived →
    call.versionRow env ∈ store.versions.rows ∧
      (store.changesOf call.version.versionId).Perm (call.changeRows env)

theorem latest_empty (env : StoreEnv F J) : Latest env [] .empty where
  derived := by simp [Store.empty]
  identified := by simp [Store.empty]
  last call survives := absurd survives (UniqueTable.survives_nil call)

theorem number_eq_of_clash (env : StoreEnv F J) (call : SaveCall F) (derived : call.Derived)
    (row : VersionRow J)
    (known : row.versionId = formatVersionId row.warehouseId row.versionNumber)
    (clash : row.clash (call.versionRow env) = true) : row.number = call.number := by
  rw [VersionRow.clash, Bool.or_eq_true, beq_iff_eq, beq_iff_eq] at clash
  rcases clash with same | same
  · have ids := known.symm.trans (same.trans derived)
    exact Prod.ext_iff.mpr (formatVersionId_inj ids)
  · exact same

theorem accepted_of_latest (env : StoreEnv F J) (calls : List (SaveCall F)) (store : Store J)
    (latest : Latest env calls store) (call : SaveCall F) (derived : call.Derived) :
    lineageSaveVersion env none call store =
      (call.apply env (call.changeRows env).length store, .ok ()) := by
  have accepted : store.orphans (call.versionRow env) = false := by
    rw [Store.orphans, List.any_eq_false]
    intro row member
    by_cases clash : row.clash (call.versionRow env) = true
    · have known := latest.derived row member
      have same := number_eq_of_clash env call derived row known clash
      have ids : row.versionId = (call.versionRow env).versionId := by
        rw [known, show (call.versionRow env).versionId = _ from derived, ← same]
        rfl
      simp [ids]
    · simp [clash]
  rw [lineageSaveVersion_eq env none call store (by simp) (by simp [accepted])]
  simp

theorem latest_apply (env : StoreEnv F J) (calls : List (SaveCall F)) (store : Store J)
    (latest : Latest env calls store) (call : SaveCall F) (derived : call.Derived)
    (covered : store.Covered call)
    (subjects : (call.version.changesFromPrevious.map LineageChange.subject).Nodup) :
    Latest env (calls ++ [call]) (call.apply env (call.changeRows env).length store) where
  derived := by
    intro row member
    rcases (UniqueTable.mem_insertOrReplace _ _ _).mp member with old | rfl
    · exact latest.derived row old.1
    · exact derived
  identified := identified_apply env store call _ latest.identified
  last := by
    intro saved survives known
    rcases (UniqueTable.survives_append_singleton _ _ _).mp survives with rfl | ⟨earlier, apart⟩
    · exact ⟨(UniqueTable.mem_insertOrReplace _ _ _).mpr (.inr rfl),
        changesOf_apply env store saved covered subjects⟩
    · obtain ⟨stored, changes⟩ := latest.last saved earlier known
      have other : saved.number ≠ call.number := by simpa [sameNumber] using apart
      constructor
      · apply (UniqueTable.mem_insertOrReplace _ _ _).mpr
        refine .inl ⟨stored, ?_⟩
        rw [← Bool.not_eq_true]
        intro clash
        exact other (number_eq_of_clash env call derived (saved.versionRow env) known clash)
      · rw [changesOf_apply_other env store call _ _ _ latest.identified]
        · exact changes
        · rw [derived, known]
          intro same
          exact other (Prod.ext_iff.mpr (formatVersionId_inj same.symm))

theorem latest_saveAll (env : StoreEnv F J) (calls past : List (SaveCall F)) (store : Store J)
    (latest : Latest env past store) (derived : ∀ call ∈ calls, call.Derived)
    (subjects : ∀ call ∈ calls,
      (call.version.changesFromPrevious.map LineageChange.subject).Nodup)
    (covered : EachCovered env calls store) :
    ∃ final, saveAll env calls store = .ok final ∧ Latest env (past ++ calls) final := by
  induction calls generalizing past store with
  | nil => exact ⟨store, rfl, by simpa using latest⟩
  | cons call rest ih =>
    obtain ⟨first, derived⟩ := List.forall_mem_cons.mp derived
    obtain ⟨distinct, subjects⟩ := List.forall_mem_cons.mp subjects
    have step := accepted_of_latest env past store latest call first
    rw [EachCovered, step] at covered
    have next := latest_apply env past store latest call first covered.1 distinct
    obtain ⟨final, saved, holds⟩ := ih (past ++ [call]) _ next derived subjects covered.2
    refine ⟨final, ?_, by simpa using holds⟩
    rw [saveAll, step]
    exact saved

/-- After any calls none of which drops a stored subject, every version reads back as the last
    call saved it. -/
theorem last_save_wins (env : StoreEnv F J) (calls : List (SaveCall F))
    (derived : ∀ call ∈ calls, call.Derived)
    (subjects : ∀ call ∈ calls,
      (call.version.changesFromPrevious.map LineageChange.subject).Nodup)
    (dated : ∀ call ∈ calls, call.version.Dated env) (covered : EachCovered env calls .empty) :
    ∃ final, saveAll env calls .empty = .ok final ∧
      ∀ call, UniqueTable.Survives sameNumber calls call → ReadsAs env final call.version := by
  obtain ⟨final, saved, latest⟩ :=
    latest_saveAll env calls [] .empty (latest_empty env) derived subjects covered
  refine ⟨final, saved, fun call survives => ?_⟩
  obtain ⟨stored, changes⟩ := latest.last call survives (derived call survives.mem)
  have times := dated call survives.mem
  exact (readsAs_iff env final call.now call.version stored).mpr
    ⟨times.1, getChanges_of_perm env final call times.2 changes⟩

def emptiedVersion : List (SaveCall ExtRat) :=
  [savedOne "a" firstUuid, savedNone]

theorem emptied_version_keeps_change :
    (saveAll plainEnv emptiedVersion .empty).toOption.any (fun store =>
      (getVersion plainEnv store "w" 1).toOption.any (fun read => read.any
        (fun version => version.changesFromPrevious == [ordersChange "a"]))) = true := by
  decide +kernel

theorem emptied_version_last :
    UniqueTable.Survives sameNumber emptiedVersion savedNone :=
  ⟨[savedOne "a" firstUuid], [], rfl, by simp⟩

theorem last_save_leaves_change :
    (∀ call ∈ emptiedVersion, call.Derived) ∧
    (∀ call ∈ emptiedVersion,
      (call.version.changesFromPrevious.map LineageChange.subject).Nodup) ∧
    ¬ ∃ final, saveAll plainEnv emptiedVersion .empty = .ok final ∧
      ∀ call, UniqueTable.Survives sameNumber emptiedVersion call →
        ReadsAs plainEnv final call.version := by
  refine ⟨?_, ?_, ?_⟩
  · simp only [emptiedVersion, List.forall_mem_cons]
    exact ⟨rfl, rfl, by simp⟩
  · simp only [emptiedVersion, List.forall_mem_cons]
    exact ⟨by decide, by decide, by simp⟩
  · rintro ⟨final, saved, wins⟩
    have kept := emptied_version_keeps_change
    rw [saved] at kept
    obtain ⟨read, stored, -, -, -, -, order⟩ := wins _ emptied_version_last
    change getVersion plainEnv final "w" 1 = _ at stored
    have first : read.changesFromPrevious = [ordersChange "a"] := by
      simpa [Except.toOption, stored] using kept
    have sizes := order.length_eq
    rw [first] at sizes
    exact absurd sizes (by decide)

def movedChange : List (SaveCall ExtRat) :=
  [savedOne "a" firstUuid, savedOne "b" secondUuid]

theorem last_save_wins_moved : ∃ final, saveAll plainEnv movedChange .empty = .ok final ∧
    ∀ call, UniqueTable.Survives sameNumber movedChange call →
      ReadsAs plainEnv final call.version := by
  apply last_save_wins plainEnv movedChange
  · simp only [movedChange, List.forall_mem_cons]
    exact ⟨rfl, rfl, by simp⟩
  · simp only [movedChange, List.forall_mem_cons]
    exact ⟨by decide, by decide, by simp⟩
  · simp only [movedChange, List.forall_mem_cons]
    have back : ReadsBack plainEnv epoch := rfl
    have each : ∀ target, ∀ change ∈ [ordersChange target], ReadsBack plainEnv change.changedAt := by
      intro target change member
      rw [List.mem_singleton.mp member]
      exact back
    exact ⟨⟨back, each "a"⟩, ⟨back, each "b"⟩, by simp⟩
  · decide +kernel

end StatGuardian.Lineage
