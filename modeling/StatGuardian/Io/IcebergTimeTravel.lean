import StatGuardian.Io.IcebergOnce
import StatGuardian.Library.LastMaximum
import StatGuardian.Library.Results

namespace StatGuardian.Io

open LastMaximum

structure SnapshotInfo where
  snapshotId : Int
  timestampMs : Int
  parentSnapshotId : Option Int
  operation : Option String
  deriving DecidableEq, Repr

def IcebergSnapshot.info (s : IcebergSnapshot) : SnapshotInfo :=
  ⟨s.snapshotId, s.timestampMs, s.parentSnapshotId, s.summary.lookup "operation"⟩

namespace IcebergReader

variable {D : Type} (env : IcebergEnv D) (table : Table)

/-- `list_snapshots` after the metadata is loaded. -/
def listSnapshots (metadata : IcebergMetadata) : List SnapshotInfo :=
  (metadata.snapshots.getD []).map IcebergSnapshot.info

theorem latest_eq (snapshots : List IcebergSnapshot) :
    latest snapshots = maxByKey IcebergSnapshot.timestampMs snapshots := by
  cases snapshots <;> rfl

variable {table} {metadata : IcebergMetadata}

theorem findSnapshotAtTimestamp_ok_iff (timestampMs : Int) (s : IcebergSnapshot) :
    findSnapshotAtTimestamp table metadata timestampMs = .ok s ↔
      LastOfLargest IcebergSnapshot.timestampMs
        ((metadata.snapshots.getD []).filter (fun s => s.timestampMs ≤ timestampMs)) s := by
  rw [← maxByKey_eq_some_iff, ← latest_eq, findSnapshotAtTimestamp]
  cases latest ((metadata.snapshots.getD []).filter (fun s => s.timestampMs ≤ timestampMs)) with
  | none => simp
  | some found => simp

theorem find?_of_nodup {snapshots : List IcebergSnapshot}
    (distinct : (snapshots.map IcebergSnapshot.snapshotId).Nodup) {s : IcebergSnapshot}
    (member : s ∈ snapshots) : snapshots.find? (fun t => t.snapshotId == s.snapshotId) = some s := by
  cases found : snapshots.find? (fun t => t.snapshotId == s.snapshotId) with
  | none =>
    have apart := List.find?_eq_none.mp found s member
    simp at apart
  | some t =>
    have same := List.find?_some found
    rw [List.inj_on_of_nodup_map distinct (List.mem_of_find?_eq_some found) member
      (eq_of_beq same)]

theorem resolveSnapshot_of_mem
    (distinct : ((metadata.snapshots.getD []).map IcebergSnapshot.snapshotId).Nodup)
    {s : IcebergSnapshot} (member : s ∈ metadata.snapshots.getD []) :
    resolveSnapshot table metadata (some s.snapshotId) = .ok s := by
  rw [resolveSnapshot]
  simp only [Option.orElse_some, find?_of_nodup distinct member]

/-- A read as of a time reads a snapshot that the listing names: one that is not later, that no
    other such snapshot is newer than, and of the newest the last. -/
theorem as_of_reads_listed
    (distinct : ((metadata.snapshots.getD []).map IcebergSnapshot.snapshotId).Nodup)
    (timestampMs : Int) :
    (∃ before info after,
        (listSnapshots metadata).filter (fun info => info.timestampMs ≤ timestampMs) =
          before ++ info :: after ∧
        (∀ other ∈ before, other.timestampMs ≤ info.timestampMs) ∧
        (∀ other ∈ after, other.timestampMs < info.timestampMs) ∧
        readAsOfTimestamp env table metadata timestampMs =
          readSnapshot env table metadata (some info.snapshotId)) ∨
      (∀ info ∈ listSnapshots metadata, timestampMs < info.timestampMs) ∧
        readAsOfTimestamp env table metadata timestampMs =
          .error (.refused (.readError table.root
            s!"no Iceberg snapshot at or before timestamp {timestampMs}")) := by
  have listed : (listSnapshots metadata).filter (fun info => info.timestampMs ≤ timestampMs) =
      ((metadata.snapshots.getD []).filter (fun s => s.timestampMs ≤ timestampMs)).map
        IcebergSnapshot.info := by
    rw [listSnapshots, List.filter_map]
    rfl
  cases found : findSnapshotAtTimestamp table metadata timestampMs with
  | ok s =>
    left
    obtain ⟨before, after, split, earlier, later⟩ :=
      (findSnapshotAtTimestamp_ok_iff timestampMs s).mp found
    have member : s ∈ metadata.snapshots.getD [] := by
      apply List.mem_of_mem_filter (p := fun s => decide (s.timestampMs ≤ timestampMs))
      rw [split]
      exact List.mem_append_right _ List.mem_cons_self
    refine ⟨before.map IcebergSnapshot.info, s.info, after.map IcebergSnapshot.info, ?_, ?_, ?_, ?_⟩
    · rw [listed, split, List.map_append, List.map_cons]
    · exact List.forall_mem_map.mpr earlier
    · exact List.forall_mem_map.mpr later
    · rw [readAsOfTimestamp, readSnapshot, found, IcebergSnapshot.info,
        resolveSnapshot_of_mem distinct member]
  | error stop =>
    right
    have none : latest ((metadata.snapshots.getD []).filter
        (fun s => s.timestampMs ≤ timestampMs)) = none := by
      rw [findSnapshotAtTimestamp] at found
      cases newest : latest ((metadata.snapshots.getD []).filter
          (fun s => s.timestampMs ≤ timestampMs)) with
      | none => rfl
      | some s =>
        rw [newest] at found
        cases found
    constructor
    · intro info member
      by_contra early
      have inside : info ∈ (listSnapshots metadata).filter
          (fun info => info.timestampMs ≤ timestampMs) :=
        List.mem_filter.mpr ⟨member, decide_eq_true (not_lt.mp early)⟩
      rw [listed] at inside
      cases kept : (metadata.snapshots.getD []).filter (fun s => s.timestampMs ≤ timestampMs) with
      | nil =>
        rw [kept] at inside
        cases inside
      | cons s rest =>
        rw [kept] at none
        cases none
    · rw [readAsOfTimestamp, findSnapshotAtTimestamp, none]
      rfl

def tied : IcebergMetadata where
  currentSnapshotId := some 3
  snapshots := some [⟨1, none, some [], none, 5, [("operation", "append")]⟩,
    ⟨2, none, some ["metadata/m1.avro"], some 1, 5, [("operation", "append")]⟩,
    ⟨3, none, some [], some 2, 9, [("operation", "overwrite")]⟩]

theorem as_of_reads_listed_tied : ∃ info ∈ listSnapshots tied,
    readAsOfTimestamp partsEnv sidecarTable tied 7 =
      readSnapshot partsEnv sidecarTable tied (some info.snapshotId) := by
  rcases as_of_reads_listed partsEnv (by decide : ((tied.snapshots.getD []).map
      IcebergSnapshot.snapshotId).Nodup) 7 with ⟨before, info, after, split, -, -, same⟩ | ⟨late, -⟩
  · refine ⟨info, ?_, same⟩
    apply List.mem_of_mem_filter (p := fun info => decide (info.timestampMs ≤ 7))
    rw [split]
    exact List.mem_append_right _ List.mem_cons_self
  · exact absurd (late ⟨1, 5, none, some "append"⟩ (by decide)) (by decide)

end IcebergReader

end StatGuardian.Io
