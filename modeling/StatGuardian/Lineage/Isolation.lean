import StatGuardian.Lineage.ReadBack

namespace StatGuardian.Lineage

variable {F J : Type} [Float64 F]

def SaveCall.Named (call : SaveCall F) : Prop :=
  ∃ number, call.version.versionId = formatVersionId call.version.lineageGraph.warehouseId number

/-- The id is one that the saves of the warehouse give. -/
def IdOf (saver versionId : String) : Prop := ∃ number, versionId = formatVersionId saver number

/-- No version of the warehouse has an id that the saves of the other one give. -/
def Store.Apart (store : Store J) (saver warehouseId : String) : Prop :=
  ∀ row ∈ store.versions.rows, row.warehouseId = warehouseId → ¬ IdOf saver row.versionId

/-- The versions of a warehouse are the same in both stores, and so are the changes of every id
    that the saves of the other one do not give. -/
structure SameRows (saver warehouseId : String) (before after : Store J) : Prop where
  versions : after.versions.rows.filter (fun row => row.warehouseId = warehouseId) =
    before.versions.rows.filter (fun row => row.warehouseId = warehouseId)
  changes : ∀ versionId, ¬ IdOf saver versionId →
    after.changesOf versionId = before.changesOf versionId

theorem identified_of_reached {env : StoreEnv F J} {allowed : SaveCall F → Prop} {store : Store J}
    (reached : Reached env allowed store) : ∀ row ∈ store.changes.rows, row.Identified := by
  induction reached with
  | empty => simp [Store.empty]
  | execute call statement _ _ member executed ih =>
    rcases statement_cases env call statement member with rfl | ⟨new, inside, rfl⟩
    · rw [execute_insertVersion executed]
      exact ih
    · rw [execute_insertChange executed]
      intro row stored
      rcases (UniqueTable.mem_insertOrReplace _ _ _).mp stored with old | rfl
      · exact ih row old.1
      · exact identified_of_mem_changeRows env call row inside

theorem Store.Apart.of_sameRows {saver warehouseId : String} {before after : Store J}
    (apart : before.Apart saver warehouseId) (same : SameRows saver warehouseId before after) :
    after.Apart saver warehouseId := by
  intro row stored owner
  have here : row ∈ after.versions.rows.filter (fun row => row.warehouseId = warehouseId) :=
    List.mem_filter.mpr ⟨stored, decide_eq_true owner⟩
  rw [same.versions] at here
  exact apart row (List.mem_filter.mp here).1 owner

theorem SameRows.refl (saver warehouseId : String) (store : Store J) :
    SameRows saver warehouseId store store := ⟨rfl, fun _ _ => rfl⟩

theorem SameRows.trans {saver warehouseId : String} {first second third : Store J}
    (left : SameRows saver warehouseId first second)
    (right : SameRows saver warehouseId second third) : SameRows saver warehouseId first third :=
  ⟨right.versions.trans left.versions, fun versionId foreign =>
    (right.changes versionId foreign).trans (left.changes versionId foreign)⟩

section Saves

variable {env : StoreEnv F J} {saver warehouseId : String}

theorem sameRows_execute {store next : Store J} (apart : store.Apart saver warehouseId)
    (identified : ∀ row ∈ store.changes.rows, row.Identified) (call : SaveCall F)
    (own : IdOf saver call.version.versionId)
    (owner : call.version.lineageGraph.warehouseId = saver) (other : saver ≠ warehouseId)
    (statement : Statement J) (member : statement ∈ call.statements env)
    (executed : store.execute env.foreignKeys statement = some next) :
    SameRows saver warehouseId store next := by
  rcases statement_cases env call statement member with rfl | ⟨new, inside, rfl⟩
  · rw [execute_insertVersion executed]
    refine ⟨?_, fun _ _ => rfl⟩
    apply UniqueTable.filter_insertOrReplace
    · apply decide_eq_false
      intro mine
      exact other (owner.symm.trans mine)
    · intro row stored picked
      have theirs : row.warehouseId = warehouseId := of_decide_eq_true picked
      rw [VersionRow.clash, Bool.or_eq_false_iff, beq_eq_false_iff_ne, beq_eq_false_iff_ne]
      constructor
      · intro same
        have id : row.versionId = call.version.versionId := same
        exact apart row stored theirs (id ▸ own)
      · intro same
        have name : row.warehouseId = call.version.lineageGraph.warehouseId :=
          congrArg Prod.fst same
        exact other (owner.symm.trans (name.symm.trans theirs))
  · rw [execute_insertChange executed]
    refine ⟨rfl, fun versionId foreign => ?_⟩
    have differs : new.versionId ≠ versionId := by
      rw [versionId_of_mem_changeRows env call new inside]
      intro same
      exact foreign (same ▸ own)
    apply UniqueTable.filter_insertOrReplace
    · exact decide_eq_false differs
    · intro row stored picked
      rw [← Bool.not_eq_true]
      intro clash
      have same := versionId_eq_of_clash clash (identified row stored)
        (identified_of_mem_changeRows env call new inside)
      exact differs (same.symm.trans (of_decide_eq_true picked))

theorem sameRows_save {store : Store J} (apart : store.Apart saver warehouseId)
    {allowed : SaveCall F → Prop} (reached : Reached env allowed store) (call : SaveCall F)
    (permitted : allowed call) (own : IdOf saver call.version.versionId)
    (owner : call.version.lineageGraph.warehouseId = saver) (other : saver ≠ warehouseId)
    (refused : Option Nat) :
    SameRows saver warehouseId store (lineageSaveVersion env refused call store).1 := by
  have kept : SameRows saver warehouseId store (lineageSaveVersion env refused call store).1 ∧
      Reached env allowed (lineageSaveVersion env refused call store).1 := by
    apply executeAll_rule
      (fun after => SameRows saver warehouseId store after ∧ Reached env allowed after)
    · rintro statement inside before next ⟨same, reached⟩ executed
      exact ⟨same.trans (sameRows_execute (apart.of_sameRows same) (identified_of_reached reached)
          call own owner other statement inside executed),
        reached.execute call statement permitted inside executed⟩
    · exact ⟨.refl saver warehouseId store, reached⟩
  exact kept.1

/-- Calls one after another, each of which may have a statement refused. -/
def saveEach (env : StoreEnv F J) (calls : List (Option Nat × SaveCall F)) (store : Store J) :
    Store J :=
  calls.foldl (fun store (refused, call) => (lineageSaveVersion env refused call store).1) store

theorem sameRows_saveEach (calls : List (Option Nat × SaveCall F))
    (own : ∀ call ∈ calls, call.2.Named ∧ call.2.version.lineageGraph.warehouseId = saver)
    (other : saver ≠ warehouseId) (store : Store J) (reached : Reached env (fun _ => True) store)
    (apart : store.Apart saver warehouseId) :
    SameRows saver warehouseId store (saveEach env calls store) := by
  induction calls generalizing store with
  | nil => exact .refl saver warehouseId store
  | cons call rest ih =>
    obtain ⟨⟨named, owner⟩, own⟩ := List.forall_mem_cons.mp own
    have id : IdOf saver call.2.version.versionId := owner ▸ named
    have step : SameRows saver warehouseId store
        (lineageSaveVersion env call.1 call.2 store).1 :=
      sameRows_save apart reached call.2 trivial id owner other call.1
    exact step.trans (ih own _ (reached.save call.1 call.2 trivial) (apart.of_sameRows step))

end Saves

/-- Every query about the warehouse returns the same from both stores, and so do the changes of
    every version id that the saves of the other one do not give. -/
structure Untouched (env : StoreEnv F J) (saver warehouseId : String) (before after : Store J) :
    Prop where
  getVersion : ∀ versionNumber,
    getVersion env after warehouseId versionNumber = getVersion env before warehouseId versionNumber
  listVersions : ∀ limit, listVersions after warehouseId limit = listVersions before warehouseId limit
  getLatestVersion : getLatestVersion env after warehouseId = getLatestVersion env before warehouseId
  getChanges : ∀ versionId, ¬ IdOf saver versionId →
    getChanges env after versionId = getChanges env before versionId

section Queries

variable {env : StoreEnv F J} {saver warehouseId : String} {before after : Store J}

theorem find_of_sameRows (same : SameRows saver warehouseId before after) (versionNumber : Nat) :
    after.versions.rows.find? (fun row => row.number = (warehouseId, versionNumber)) =
      before.versions.rows.find? (fun row => row.number = (warehouseId, versionNumber)) := by
  have own : ∀ store : Store J,
      store.versions.rows.find? (fun row => row.number = (warehouseId, versionNumber)) =
        (store.versions.rows.filter (fun row => row.warehouseId = warehouseId)).find?
          (fun row => row.number = (warehouseId, versionNumber)) := by
    intro store
    rw [List.find?_filter]
    congr 1
    funext row
    by_cases owner : row.warehouseId = warehouseId <;> simp [VersionRow.number, owner]
  rw [own, own, same.versions]

theorem getVersion_of_sameRows (apart : before.Apart saver warehouseId)
    (same : SameRows saver warehouseId before after) (versionNumber : Nat) :
    getVersion env after warehouseId versionNumber =
      getVersion env before warehouseId versionNumber := by
  unfold getVersion
  rw [find_of_sameRows same]
  cases found : before.versions.rows.find?
      (fun row => row.number = (warehouseId, versionNumber)) with
  | none => rfl
  | some row =>
    have owner : row.number = (warehouseId, versionNumber) := by
      simpa using List.find?_some found
    have foreign := apart row (List.mem_of_find?_eq_some found) (congrArg Prod.fst owner)
    have changes : getChanges env after row.versionId = getChanges env before row.versionId := by
      rw [getChanges, getChanges, same.changes _ foreign]
    simp only [readVersion, changes]

theorem versionNumbers_of_sameRows (same : SameRows saver warehouseId before after) :
    after.versionNumbers warehouseId = before.versionNumbers warehouseId := by
  rw [Store.versionNumbers, Store.versionNumbers, same.versions]

theorem untouched_of_sameRows (apart : before.Apart saver warehouseId)
    (same : SameRows saver warehouseId before after) :
    Untouched env saver warehouseId before after where
  getVersion := getVersion_of_sameRows apart same
  listVersions limit := by
    rw [listVersions, listVersions, versionNumbers_of_sameRows same]
  getLatestVersion := by
    unfold getLatestVersion
    rw [versionNumbers_of_sameRows same]
    cases (before.versionNumbers warehouseId).head? with
    | none => rfl
    | some number => exact getVersion_of_sameRows apart same number
  getChanges versionId foreign := by
    rw [getChanges, getChanges, same.changes versionId foreign]

end Queries

/-- Saves for one warehouse change no query about another that has no version under an id of
    theirs, whether they succeed or fail half-way. -/
theorem warehouses_isolated (env : StoreEnv F J) (store : Store J)
    (reached : Reached env (fun _ => True) store) (saver warehouseId : String)
    (other : saver ≠ warehouseId) (apart : store.Apart saver warehouseId)
    (calls : List (Option Nat × SaveCall F))
    (own : ∀ call ∈ calls, call.2.Named ∧ call.2.version.lineageGraph.warehouseId = saver) :
    Untouched env saver warehouseId store (saveEach env calls store) :=
  untouched_of_sameRows apart (sameRows_saveEach calls own other store reached apart)

/-- A save of version `1` of a warehouse under the given id. -/
def firstSave (versionId warehouseId : String) : SaveCall ExtRat where
  version := { LineageVersion.new warehouseId 1 (.new warehouseId epoch) epoch with
    versionId := versionId }
  now := epoch
  uuids := []
  drawn := drawn_none
  distinct := List.nodup_nil

theorem warehouses_isolated_shop :
    Untouched plainEnv "shop" "shop__v1"
      (lineageSaveVersion plainEnv none (firstSave "shop__v1__v1" "shop__v1") .empty).1
      (saveEach plainEnv [(some 0, firstSave "shop__v1" "shop"), (none, firstSave "shop__v1" "shop")]
        (lineageSaveVersion plainEnv none (firstSave "shop__v1__v1" "shop__v1") .empty).1) := by
  apply warehouses_isolated plainEnv _ _ "shop" "shop__v1" (by decide)
  · intro row stored _ ⟨number, id⟩
    obtain rfl := List.mem_singleton.mp stored
    have longer : formatVersionId "shop__v1" 1 = formatVersionId "shop" number := id
    exact absurd (formatVersionId_inj longer).1 (by decide)
  · intro call member
    have same : call.2 = firstSave "shop__v1" "shop" := by
      simp only [List.mem_cons, List.not_mem_nil, or_false] at member
      rcases member with rfl | rfl <;> rfl
    rw [same]
    exact ⟨⟨1, rfl⟩, rfl⟩
  · exact Reached.empty.save none (firstSave "shop__v1__v1" "shop__v1") trivial

/-- A version that another warehouse holds under the id `shop__v1` goes when `shop` saves its
    first one. -/
theorem foreign_id_replaced :
    (firstSave "shop__v1" "shop").Named ∧
      listVersions (lineageSaveVersion plainEnv none (firstSave "shop__v1" "legacy") .empty).1
          "legacy" 10 = [1] ∧
        listVersions (saveEach plainEnv [(none, firstSave "shop__v1" "shop")]
          (lineageSaveVersion plainEnv none (firstSave "shop__v1" "legacy") .empty).1)
          "legacy" 10 = [] :=
  ⟨⟨1, rfl⟩, by decide +kernel⟩

end StatGuardian.Lineage
