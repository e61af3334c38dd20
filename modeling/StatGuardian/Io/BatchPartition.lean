import Mathlib.Algebra.Order.Floor.Div
import StatGuardian.Io.Batcher
import StatGuardian.Library.Machine

namespace StatGuardian.Polars

variable {F : Type}

abbrev Cell (F : Type) := Σ dtype : DataType, Option (dtype.Value F)

def Series.cell (s : Series F) (i : Nat) : Option (Cell F) :=
  s.cells[i]?.map (fun value => ⟨s.dtype, value⟩)

theorem Series.cell_slice (s : Series F) (offset length i : Nat) (inside : i < length) :
    (s.slice offset length).cell i = s.cell (offset + i) := by
  unfold Series.cell
  change Option.map _ ((s.cells.drop offset).take length)[i]? = _
  rw [List.getElem?_take_of_lt inside, List.getElem?_drop]
  rfl

namespace DataFrame

def rowAt (df : DataFrame F) (i : Nat) (name : String) : Option (Cell F) :=
  (df.column name).bind (fun c => c.asMaterializedSeries.cell i)

def rows (df : DataFrame F) : List (String → Option (Cell F)) := (List.range df.height).map df.rowAt

def schema (df : DataFrame F) : List (String × DataType) :=
  df.columns.map (fun c => (c.name, c.dtype))

theorem length_rows (df : DataFrame F) : df.rows.length = df.height := by
  rw [rows, List.length_map, List.length_range]

theorem schema_slice (df : DataFrame F) (offset length : Nat) :
    (df.slice offset length).schema = df.schema := by
  have same : (fun c : Column F => (c.name, c.dtype)) ∘ (fun c : Column F => c.slice offset length) =
      fun c : Column F => (c.name, c.dtype) := by
    funext c
    simp only [Function.comp_apply, Column.name_slice, Column.dtype,
      Column.asMaterializedSeries_slice]
    rfl
  simp only [schema, slice, List.map_map, same]

theorem rows_slice (df : DataFrame F) (offset length : Nat) :
    (df.slice offset length).rows = (df.rows.drop offset).take length := by
  have height : (df.slice offset length).height = min length (df.height - offset) := rfl
  apply List.ext_getElem
  · rw [length_rows, height, List.length_take, List.length_drop, length_rows]
  · intro i inside _
    rw [length_rows, height] at inside
    simp only [rows, List.getElem_map, List.getElem_range, List.getElem_take, List.getElem_drop]
    funext name
    rw [rowAt, rowAt, column_slice]
    cases df.column name with
    | none => rfl
    | some c =>
      simp only [Option.map_some, Option.bind_some, Column.asMaterializedSeries_slice]
      exact Series.cell_slice _ offset length i (by omega)

end DataFrame

end StatGuardian.Polars

namespace StatGuardian.Io.StreamingBatcher

open Polars

variable {F E : Type}

theorem lt_ceilDiv_iff (n size k : Nat) (positive : 0 < size) :
    k < n ⌈/⌉ size ↔ k * size < n := by
  rw [← Nat.not_le, ceilDiv_le_iff_le_mul positive, Nat.not_le, Nat.mul_comm]

/-- What the call with number `k` hands out of a table. -/
def batch? (df : DataFrame F) (size k : Nat) : Option (DataFrame F) :=
  if k * size < df.height then some (batchAt df size (k * size)) else none

theorem rows_batchAt (df : DataFrame F) (size k : Nat) :
    (batchAt df size (k * size)).rows = (df.rows.drop (k * size)).take size := by
  rw [batchAt, DataFrame.rows_slice]
  apply List.take_eq_take_iff.mpr
  rw [List.length_drop, DataFrame.length_rows]
  omega

theorem height_pos (df : DataFrame F) (size k : Nat) (positive : 0 < size)
    (more : k * size < df.height) :
    0 < (batchAt df size (k * size)).height ∧ (batchAt df size (k * size)).height ≤ size := by
  rw [height_batchAt]
  omega

/-- One call on the batcher. A failed read leaves it as it is. -/
def call (readFile : String → Except E (DataFrame F)) (_ : Unit) (batcher : StreamingBatcher F) :
    Except E (Option (DataFrame F)) × StreamingBatcher F :=
  ((batcher.nextBatch readFile).map Prod.fst,
    ((batcher.nextBatch readFile).map Prod.snd).toOption.getD batcher)

def calls (readFile : String → Except E (DataFrame F)) (path : String) (batchSize k : Nat) :
    List (Except E (Option (DataFrame F))) × StreamingBatcher F :=
  Machine.run (call readFile) (List.replicate k ()) (new path batchSize)

/-- The batcher after `k` calls on a table. -/
def Placed (readFile : String → Except E (DataFrame F)) (df : DataFrame F) (size k : Nat)
    (batcher : StreamingBatcher F) : Prop :=
  batcher.load readFile = .ok df ∧ batcher.batchSize = size ∧
    batcher.offset = min (k * size) df.height

theorem placed_call {readFile : String → Except E (DataFrame F)} {df : DataFrame F}
    {size k : Nat} {batcher : StreamingBatcher F} (placed : Placed readFile df size k batcher) :
    (call readFile () batcher).1 = .ok (batch? df size k) ∧
      Placed readFile df size (k + 1) (call readFile () batcher).2 := by
  obtain ⟨loaded, rfl, offset⟩ := placed
  have positive := batcher.positive
  have handed := nextBatch_ok readFile batcher df loaded
  by_cases more : k * batcher.batchSize < df.height
  · have here : batcher.offset = k * batcher.batchSize := by omega
    rw [if_neg (by omega), here] at handed
    rw [batch?, if_pos more]
    simp only [call, handed]
    refine ⟨rfl, rfl, rfl, ?_⟩
    change min (k * batcher.batchSize + batcher.batchSize) df.height = _
    rw [Nat.succ_mul]
  · rw [if_pos (by omega)] at handed
    rw [batch?, if_neg more]
    simp only [call, handed]
    refine ⟨rfl, rfl, rfl, ?_⟩
    change batcher.offset = _
    rw [offset, Nat.succ_mul]
    omega

theorem run_placed {readFile : String → Except E (DataFrame F)} {df : DataFrame F}
    {size k : Nat} {batcher : StreamingBatcher F} (m : Nat)
    (placed : Placed readFile df size k batcher) :
    (Machine.run (call readFile) (List.replicate m ()) batcher).1 =
        (List.range' k m).map (fun j => .ok (batch? df size j)) ∧
      Placed readFile df size (k + m)
        (Machine.run (call readFile) (List.replicate m ()) batcher).2 := by
  induction m generalizing k batcher with
  | zero => exact ⟨rfl, placed⟩
  | succ m ih =>
    obtain ⟨output, next⟩ := placed_call placed
    obtain ⟨outputs, last⟩ := ih next
    rw [List.replicate_succ, List.range'_succ, List.map_cons]
    rw [Nat.add_right_comm] at last
    refine ⟨?_, last⟩
    rw [Machine.run, output, outputs]

theorem placed_new {readFile : String → Except E (DataFrame F)} {path : String}
    {df : DataFrame F} (read : readFile path = .ok df) (batchSize : Nat) :
    Placed readFile df (max batchSize 1) 0 (new path batchSize) := by
  refine ⟨read, rfl, ?_⟩
  rw [Nat.zero_mul, Nat.zero_min]
  rfl

def handed (outcomes : List (Except E (Option (DataFrame F)))) : List (DataFrame F) :=
  outcomes.filterMap (fun outcome => outcome.toOption.join)

/-- What `k` calls hand out of a table that is asked for in batches of `batchSize` rows. -/
structure Partitions (readFile : String → Except E (DataFrame F)) (path : String)
    (batchSize : Nat) (df : DataFrame F) (k : Nat) : Prop where
  exhausted : ∀ i < k, ∃ batch, (calls readFile path batchSize k).1[i]? = some (.ok batch) ∧
    (batch.isSome ↔ i < df.height ⌈/⌉ max batchSize 1)
  sized : ∀ batch ∈ handed (calls readFile path batchSize k).1,
    batch.schema = df.schema ∧ 0 < batch.height ∧ batch.height ≤ max batchSize 1
  whole : df.height ⌈/⌉ max batchSize 1 ≤ k →
    (handed (calls readFile path batchSize k).1).flatMap DataFrame.rows = df.rows
  -- a `usize`, and a table whose rows an `i64` offset of `slice` can name
  bounded : batchSize < 2 ^ 64 → df.height < 2 ^ 63 →
    (calls readFile path batchSize k).2.offset < df.height →
    (calls readFile path batchSize k).2.offset + (calls readFile path batchSize k).2.batchSize <
      2 ^ 64

section Partition

variable {readFile : String → Except E (DataFrame F)} {path : String} {df : DataFrame F}

theorem calls_eq (read : readFile path = .ok df) (batchSize k : Nat) :
    (calls readFile path batchSize k).1 =
        (List.range k).map (fun i => .ok (batch? df (max batchSize 1) i)) ∧
      Placed readFile df (max batchSize 1) k (calls readFile path batchSize k).2 := by
  have run := run_placed k (placed_new read batchSize)
  rwa [← List.range_eq_range', Nat.zero_add] at run

theorem handed_calls (read : readFile path = .ok df) (batchSize k : Nat) :
    handed (calls readFile path batchSize k).1 =
      (List.range k).filterMap (batch? df (max batchSize 1)) := by
  rw [handed, (calls_eq read batchSize k).1, List.filterMap_map]
  rfl

theorem rows_handed (size k : Nat) :
    ((List.range k).filterMap (batch? df size)).flatMap DataFrame.rows =
      df.rows.take (k * size) := by
  induction k with
  | zero => simp
  | succ k ih =>
    rw [List.range_succ, List.filterMap_append, List.flatMap_append, ih, Nat.succ_mul,
      List.take_add]
    congr 1
    by_cases more : k * size < df.height
    · have batch : batch? df size k = some (batchAt df size (k * size)) := if_pos more
      rw [List.filterMap_cons_some batch, List.filterMap_nil, List.flatMap_singleton,
        rows_batchAt]
    · have none : batch? df size k = none := if_neg more
      have rest : df.rows.drop (k * size) = [] := by
        rw [List.drop_eq_nil_iff, DataFrame.length_rows]
        exact Nat.not_lt.mp more
      rw [List.filterMap_cons_none none, List.filterMap_nil, rest, List.take_nil]
      rfl

theorem exhausted_calls (read : readFile path = .ok df) (batchSize k i : Nat) (called : i < k) :
    ∃ batch, (calls readFile path batchSize k).1[i]? = some (.ok batch) ∧
      (batch.isSome ↔ i < df.height ⌈/⌉ max batchSize 1) := by
  refine ⟨batch? df (max batchSize 1) i, ?_, ?_⟩
  · rw [(calls_eq read batchSize k).1, List.getElem?_map, List.getElem?_range called]
    rfl
  · rw [lt_ceilDiv_iff _ _ _ (Nat.le_max_right batchSize 1), batch?]
    split <;> simp_all

theorem sized_calls (read : readFile path = .ok df) (batchSize k : Nat) (batch : DataFrame F)
    (member : batch ∈ handed (calls readFile path batchSize k).1) :
    batch.schema = df.schema ∧ 0 < batch.height ∧ batch.height ≤ max batchSize 1 := by
  rw [handed_calls read, List.mem_filterMap] at member
  obtain ⟨i, _, produced⟩ := member
  unfold batch? at produced
  split at produced
  · rename_i more
    cases produced
    exact ⟨DataFrame.schema_slice _ _ _,
      height_pos df _ i (Nat.le_max_right batchSize 1) more⟩
  · cases produced

theorem whole_calls (read : readFile path = .ok df) (batchSize k : Nat)
    (enough : df.height ⌈/⌉ max batchSize 1 ≤ k) :
    (handed (calls readFile path batchSize k).1).flatMap DataFrame.rows = df.rows := by
  rw [ceilDiv_le_iff_le_mul (Nat.le_max_right batchSize 1), Nat.mul_comm] at enough
  rw [handed_calls read, rows_handed, List.take_of_length_le]
  rwa [DataFrame.length_rows]

/-- A cursor inside the table is at the start, or past a whole batch: no batch size overflows. -/
theorem bounded_calls (read : readFile path = .ok df) (batchSize k : Nat)
    (word : batchSize < 2 ^ 64) (addressable : df.height < 2 ^ 63)
    (more : (calls readFile path batchSize k).2.offset < df.height) :
    (calls readFile path batchSize k).2.offset + (calls readFile path batchSize k).2.batchSize <
      2 ^ 64 := by
  obtain ⟨_, sized, offset⟩ := (calls_eq read batchSize k).2
  rw [offset] at more
  rw [sized, offset]
  have inside : k * max batchSize 1 < df.height := by omega
  cases k with
  | zero => omega
  | succ k =>
    rw [Nat.succ_mul] at inside ⊢
    omega

theorem calls_partition (read : readFile path = .ok df) (batchSize k : Nat) :
    Partitions readFile path batchSize df k where
  exhausted := exhausted_calls read batchSize k
  sized := sized_calls read batchSize k
  whole := whole_calls read batchSize k
  bounded := bounded_calls read batchSize k

end Partition

def threeIds : DataFrame Int where
  height := 3
  columns := [.scalar "id" .int64 (some 7) 3]
  aligned := List.forall_mem_singleton.mpr rfl
  distinct := List.nodup_singleton _

theorem calls_partition_threeIds :
    Partitions (E := String) (fun _ => .ok threeIds) "ids.csv" 2 threeIds 4 :=
  calls_partition rfl 2 4

end StatGuardian.Io.StreamingBatcher
