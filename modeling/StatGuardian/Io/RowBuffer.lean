import StatGuardian.Io.Delta
import StatGuardian.Library.Buffering
import StatGuardian.Polars.Frame

namespace StatGuardian.Polars

inductive FrameError where
  | shapeMismatch
  | duplicate
  deriving DecidableEq, Repr

namespace DataFrame

variable {F : Type}

def new (height : Nat) (columns : List (Column F)) : Except FrameError (DataFrame F) :=
  if aligned : ∀ c ∈ columns, c.len = height then
    if distinct : (columns.map Column.name).Nodup then
      .ok ⟨height, columns, aligned, distinct⟩
    else .error .duplicate
  else .error .shapeMismatch

def textAt (df : DataFrame F) (i : Nat) (name : String) : Option String :=
  ((df.column name).bind (fun c => c.asMaterializedSeries.str)).bind (fun cells => cells[i]?.join)

def textRows (df : DataFrame F) : List (String → Option String) :=
  (List.range df.height).map df.textAt

theorem length_textRows (df : DataFrame F) : df.textRows.length = df.height := by
  rw [textRows, List.length_map, List.length_range]

end DataFrame

end StatGuardian.Polars

namespace StatGuardian.Io

open KeyedValues Polars

abbrev StreamRow := Map String String

structure RowBuffer where
  windowSize : Nat
  buffer : List StreamRow
  schema : Option (List String)

namespace RowBuffer

variable {F : Type} (display : FrameError → String)

def new (windowSize : Nat) : RowBuffer := ⟨windowSize, [], none⟩

def sortedKeys (row : StreamRow) : List String := row.keys.mergeSort (· ≤ ·)

def column (rows : List StreamRow) (colName : String) : Column F :=
  Column.ofSeries colName ⟨.string, rows.map (fun r => get r colName)⟩

def flush (b : RowBuffer) : Except IoError (DataFrame F) × RowBuffer :=
  let schema := b.schema.getD []
  let rows := b.buffer
  let columns := schema.map (column rows)
  ((DataFrame.new rows.length columns).mapError (fun e => .polars (display e)),
    { b with buffer := [] })

def learn (b : RowBuffer) (row : StreamRow) : RowBuffer :=
  if b.schema.isNone then { b with schema := some (sortedKeys row) } else b

def push (b : RowBuffer) (row : StreamRow) : Except IoError (Option (DataFrame F)) × RowBuffer :=
  let b := b.learn row
  let b := { b with buffer := b.buffer ++ [row] }
  if b.windowSize ≤ b.buffer.length then Prod.map (Except.map some) id (flush display b)
  else (.ok none, b)

def call (c : Buffering.Call StreamRow) (b : RowBuffer) :
    Except IoError (Option (DataFrame F)) × RowBuffer :=
  match c with
  | .push row => b.push display row
  | .flush => Prod.map (Except.map some) id (flush display b)

theorem nodup_sortedKeys (row : StreamRow) : (sortedKeys row).Nodup :=
  (List.mergeSort_perm _ _).nodup_iff.mpr row.nodupKeys

theorem mem_sortedKeys (row : StreamRow) (key : String) : key ∈ sortedKeys row ↔ key ∈ row :=
  List.mem_mergeSort

def restrict (schema : List String) (row : StreamRow) : String → Option String :=
  fun key => if key ∈ schema then get row key else none

theorem restrict_eq_get_iff (schema : List String) (row : StreamRow) :
    restrict schema row = get row ↔ ∀ key ∈ row, key ∈ schema := by
  constructor
  · intro same key present
    obtain ⟨value, held⟩ := exists_get present
    by_contra outside
    have lost : restrict schema row key = none := if_neg outside
    rw [same, held] at lost
    cases lost
  · intro inside
    funext key
    unfold restrict
    split
    · rfl
    · rename_i outside
      exact (AList.lookup_eq_none.mpr fun present => outside (inside key present)).symm

theorem find_column (schema : List String) (rows : List StreamRow) (name : String) :
    (schema.map (column (F := F) rows)).find? (·.name == name) =
      if name ∈ schema then some (column rows name) else none := by
  induction schema with
  | nil => rfl
  | cons first rest ih =>
    have named : (column (F := F) rows first).name = first := Column.name_ofSeries _ _
    rw [List.map_cons, List.find?_cons, named, ih]
    by_cases same : first = name
    · simp [same]
    · simp [beq_eq_false_iff_ne.mpr same, Ne.symm same]

theorem textRows_of_columns (df : DataFrame F) (schema : List String) (rows : List StreamRow)
    (columns : df.columns = schema.map (column rows)) (height : df.height = rows.length) :
    df.textRows = rows.map (restrict schema) := by
  apply List.ext_getElem
  · rw [DataFrame.length_textRows, height, List.length_map]
  · intro i _ inside
    rw [List.length_map] at inside
    simp only [DataFrame.textRows, List.getElem_map, List.getElem_range]
    funext name
    rw [DataFrame.textAt, DataFrame.column, columns, find_column]
    unfold restrict
    by_cases known : name ∈ schema
    · rw [if_pos known, if_pos known, Option.bind_some]
      rw [column, Column.asMaterializedSeries_ofSeries]
      simp [Series.str, inside]
    · rw [if_neg known, if_neg known]
      rfl

theorem flush_spec (b : RowBuffer) (distinct : (b.schema.getD []).Nodup) :
    ∃ df : DataFrame F, flush display b = (.ok df, { b with buffer := [] }) ∧
      df.height = b.buffer.length ∧
      df.textRows = b.buffer.map (restrict (b.schema.getD [])) := by
  have aligned : ∀ c ∈ (b.schema.getD []).map (column (F := F) b.buffer),
      c.len = b.buffer.length := by
    intro c member
    obtain ⟨name, _, rfl⟩ := List.mem_map.mp member
    rw [← Column.len_asMaterializedSeries, column, Column.asMaterializedSeries_ofSeries]
    exact List.length_map _
  have names : ((b.schema.getD []).map (column (F := F) b.buffer)).map Column.name =
      b.schema.getD [] := by
    rw [List.map_map]
    exact List.map_id'' (fun name => Column.name_ofSeries name _) _
  rw [← names] at distinct
  refine ⟨⟨b.buffer.length, _, aligned, distinct⟩, ?_, rfl, textRows_of_columns _ _ _ rfl rfl⟩
  simp only [flush, DataFrame.new, dif_pos aligned, dif_pos distinct, Except.mapError]

def Knows (keys : List String) (calls : List (Buffering.Call StreamRow)) (b : RowBuffer) : Prop :=
  b.schema = some keys ∨
    (b.schema = none ∧ b.buffer = [] ∧
      ∀ row, (Buffering.pushed calls).head? = some row → sortedKeys row = keys)

def told (outcome : Except IoError (Option (DataFrame F))) :
    Except IoError (Option (List (String → Option String))) :=
  outcome.map (Option.map DataFrame.textRows)

theorem learn_spec (b : RowBuffer) (row : StreamRow) (rest : List (Buffering.Call StreamRow))
    (keys : List String) (knows : Knows keys (.push row :: rest) b) :
    b.learn row = { b with schema := some keys } := by
  rcases knows with known | ⟨fresh, _, first⟩
  · rw [learn, ← known, if_neg (by simp [known])]
  · rw [learn, fresh]
    simp only [Option.isNone_none, if_true]
    rw [first row rfl]

theorem call_spec (keys : List String) (distinct : keys.Nodup) (c : Buffering.Call StreamRow)
    (rest : List (Buffering.Call StreamRow)) (b : RowBuffer) (knows : Knows keys (c :: rest) b) :
    told (F := F) (call display c b).1 =
        .ok ((Buffering.step b.windowSize c b.buffer).1.map (List.map (restrict keys))) ∧
      (call (F := F) display c b).2.windowSize = b.windowSize ∧
      (call (F := F) display c b).2.buffer = (Buffering.step b.windowSize c b.buffer).2 ∧
      Knows keys rest (call (F := F) display c b).2 := by
  cases c with
  | push row =>
    have learned := learn_spec b row rest keys knows
    obtain ⟨df, flushed, height, rows⟩ := flush_spec (F := F) display
      { b with schema := some keys, buffer := b.buffer ++ [row] } distinct
    simp only [call, push, learned, Buffering.step]
    split
    · rw [flushed]
      refine ⟨?_, rfl, rfl, .inl rfl⟩
      exact congrArg (fun told => Except.ok (some told)) rows
    · exact ⟨rfl, rfl, rfl, .inl rfl⟩
  | flush =>
    rcases knows with known | ⟨fresh, empty, first⟩
    · obtain ⟨df, flushed, height, rows⟩ := flush_spec (F := F) display b (by rwa [known])
      rw [known] at rows
      simp only [call, flushed, Buffering.step]
      refine ⟨?_, rfl, rfl, .inl known⟩
      exact congrArg (fun told => Except.ok (some told)) rows
    · obtain ⟨df, flushed, height, rows⟩ :=
        flush_spec (F := F) display b (by rw [fresh]; exact List.nodup_nil)
      rw [empty] at rows
      simp only [call, flushed, Buffering.step, empty]
      refine ⟨?_, rfl, rfl, .inr ⟨fresh, rfl, first⟩⟩
      exact congrArg (fun told => Except.ok (some told)) rows

/-- The calls hand out what an unbounded buffer hands out, seen through the first row's keys. -/
theorem run_spec (keys : List String) (distinct : keys.Nodup)
    (calls : List (Buffering.Call StreamRow)) (b : RowBuffer) (knows : Knows keys calls b) :
    (Machine.run (call (F := F) display) calls b).1.map told =
        (Buffering.run b.windowSize calls b.buffer).1.map
          (fun group => .ok (group.map (List.map (restrict keys)))) ∧
      (Machine.run (call (F := F) display) calls b).2.buffer =
        (Buffering.run b.windowSize calls b.buffer).2 := by
  induction calls generalizing b with
  | nil => exact ⟨rfl, rfl⟩
  | cons c rest ih =>
    obtain ⟨output, size, held, next⟩ := call_spec (F := F) display keys distinct c rest b knows
    have later := ih _ next
    rw [size, held] at later
    simp only [Machine.run, Buffering.run, List.map_cons, output]
    exact ⟨congrArg _ later.1, later.2⟩

def run (windowSize : Nat) (calls : List (Buffering.Call StreamRow)) :
    List (Except IoError (Option (DataFrame F))) × RowBuffer :=
  Machine.run (call display) calls (new windowSize)

def frames (outcomes : List (Except IoError (Option (DataFrame F)))) : List (DataFrame F) :=
  outcomes.filterMap (fun outcome => outcome.toOption.join)

/-- The rows of the returned frames and then the buffered ones are the pushed rows, cell for cell,
    and a frame that a push returns is full. -/
structure KeepsEveryCell (F : Type) (windowSize : Nat)
    (calls : List (Buffering.Call StreamRow)) : Prop where
  returns : ∀ outcome ∈ (run (F := F) display windowSize calls).1, ∃ frame, outcome = .ok frame
  rows : (frames (run (F := F) display windowSize calls).1).flatMap DataFrame.textRows ++
      (run (F := F) display windowSize calls).2.buffer.map get =
    (Buffering.pushed calls).map get
  full : ∀ (i : Nat) (row : StreamRow) (df : DataFrame F), calls[i]? = some (.push row) →
    (run (F := F) display windowSize calls).1[i]? = some (.ok (some df)) →
    df.height = max windowSize 1

def firstKeys (calls : List (Buffering.Call StreamRow)) : List String :=
  ((Buffering.pushed calls).head?.map sortedKeys).getD []

theorem nodup_firstKeys (calls : List (Buffering.Call StreamRow)) : (firstKeys calls).Nodup := by
  unfold firstKeys
  cases (Buffering.pushed calls).head? with
  | none => exact List.nodup_nil
  | some row => exact nodup_sortedKeys row

theorem knows_new (windowSize : Nat) (calls : List (Buffering.Call StreamRow)) :
    Knows (firstKeys calls) calls (new windowSize) := by
  refine .inr ⟨rfl, rfl, ?_⟩
  intro row first
  rw [firstKeys, first]
  rfl

theorem flatMap_frames (outcomes : List (Except IoError (Option (DataFrame F)))) :
    (frames outcomes).flatMap DataFrame.textRows =
      ((outcomes.map told).filterMap (fun outcome => outcome.toOption.join)).flatten := by
  induction outcomes with
  | nil => rfl
  | cons outcome rest ih =>
    rcases outcome with e | _ | df
    · exact ih
    · exact ih
    · exact congrArg (df.textRows ++ ·) ih

theorem filterMap_told (keys : List String) (outputs : List (Option (List StreamRow))) :
    ((outputs.map (fun group => Except.ok (ε := IoError)
        (group.map (List.map (restrict keys))))).filterMap (fun o => o.toOption.join)).flatten =
      ((outputs.filterMap id).flatten).map (restrict keys) := by
  induction outputs with
  | nil => rfl
  | cons output rest ih =>
    cases output with
    | none => exact ih
    | some group =>
      change group.map (restrict keys) ++ _ = (group ++ _).map (restrict keys)
      rw [List.map_append]
      exact congrArg (group.map (restrict keys) ++ ·) ih

def handedOut (windowSize : Nat) (calls : List (Buffering.Call StreamRow)) : List StreamRow :=
  (Buffering.groups windowSize calls).flatten

theorem told_run (windowSize : Nat) (calls : List (Buffering.Call StreamRow)) :
    (run (F := F) display windowSize calls).1.map told =
      (Buffering.run windowSize calls []).1.map
        (fun group => .ok (group.map (List.map (restrict (firstKeys calls))))) :=
  (run_spec display _ (nodup_firstKeys calls) calls _ (knows_new windowSize calls)).1

theorem buffer_run (windowSize : Nat) (calls : List (Buffering.Call StreamRow)) :
    (run (F := F) display windowSize calls).2.buffer = Buffering.kept windowSize calls :=
  (run_spec display _ (nodup_firstKeys calls) calls _ (knows_new windowSize calls)).2

theorem rows_buffered_iff (windowSize : Nat) (calls : List (Buffering.Call StreamRow)) :
    (frames (run (F := F) display windowSize calls).1).flatMap DataFrame.textRows ++
        (run (F := F) display windowSize calls).2.buffer.map get =
      (Buffering.pushed calls).map get ↔
    ∀ row ∈ handedOut windowSize calls, ∀ key ∈ row, key ∈ firstKeys calls := by
  rw [flatMap_frames, told_run, filterMap_told, buffer_run, ← Buffering.groups_accounts windowSize,
    List.map_append]
  change (handedOut windowSize calls).map (restrict (firstKeys calls)) ++ _ =
    (handedOut windowSize calls).map get ++ _ ↔ _
  rw [List.append_left_inj, List.map_inj_left]
  simp only [restrict_eq_get_iff]

theorem run_returns (windowSize : Nat) (calls : List (Buffering.Call StreamRow))
    (outcome : Except IoError (Option (DataFrame F)))
    (member : outcome ∈ (run display windowSize calls).1) : ∃ frame, outcome = .ok frame := by
  have seen := List.mem_map_of_mem (f := told) member
  rw [told_run] at seen
  obtain ⟨group, _, same⟩ := List.mem_map.mp seen
  cases outcome with
  | ok frame => exact ⟨frame, rfl⟩
  | error e => cases same

theorem run_full (windowSize : Nat) (calls : List (Buffering.Call StreamRow)) (i : Nat)
    (row : StreamRow) (df : DataFrame F) (pushed : calls[i]? = some (.push row))
    (returned : (run display windowSize calls).1[i]? = some (.ok (some df))) :
    df.height = max windowSize 1 := by
  have seen := congrArg (Option.map told) returned
  rw [← List.getElem?_map, told_run, List.getElem?_map] at seen
  obtain ⟨output, handed, same⟩ := Option.map_eq_some_iff.mp seen
  cases output with
  | none => cases same
  | some group =>
    have rows : group.map (restrict (firstKeys calls)) = df.textRows :=
      Option.some.inj (Except.ok.inj same)
    have full := (List.forall₂_iff_get.mp (Buffering.run_full windowSize calls)).2
    obtain ⟨inside, call⟩ := List.getElem?_eq_some_iff.mp pushed
    obtain ⟨outside, group_at⟩ := List.getElem?_eq_some_iff.mp handed
    have size := full i inside outside row group call group_at
    rw [← DataFrame.length_textRows, ← rows, List.length_map, size]

theorem keepsEveryCell_iff (windowSize : Nat) (calls : List (Buffering.Call StreamRow)) :
    KeepsEveryCell display F windowSize calls ↔
      ∀ row ∈ handedOut windowSize calls, ∀ key ∈ row,
        ∀ first, (Buffering.pushed calls).head? = some first → key ∈ first := by
  have keys : ∀ row ∈ handedOut windowSize calls, ∀ key,
      key ∈ firstKeys calls ↔
        ∀ first, (Buffering.pushed calls).head? = some first → key ∈ first := by
    intro row member key
    have known : row ∈ Buffering.pushed calls := by
      rw [← Buffering.groups_accounts windowSize]
      exact List.mem_append_left _ member
    obtain ⟨first, rest, split⟩ := List.exists_cons_of_ne_nil (List.ne_nil_of_mem known)
    simp [firstKeys, split, mem_sortedKeys]
  constructor
  · intro kept row member key present
    exact (keys row member key).mp
      ((rows_buffered_iff display windowSize calls).mp kept.rows row member key present)
  · intro inside
    refine ⟨run_returns display windowSize calls, ?_, run_full display windowSize calls⟩
    rw [rows_buffered_iff]
    intro row member key present
    exact (keys row member key).mpr (inside row member key present)

/-- A row whose key the first row lacks loses its only cell. -/
theorem not_keepsEveryCell_new_key :
    ¬ KeepsEveryCell (fun _ => "") Int 2
      [.push (AList.singleton "id" "1"), .push (AList.singleton "late" "2")] := by
  intro kept
  have late : "late" ∈ AList.singleton (β := fun _ => String) "late" "2" :=
    AList.mem_keys.mpr (List.mem_singleton_self _)
  have inside := (rows_buffered_iff _ _ _).mp kept.rows _ (.tail _ (.head _)) "late" late
  have keys : "late" ∈ AList.singleton (β := fun _ => String) "id" "1" :=
    (mem_sortedKeys _ _).mp inside
  exact absurd (AList.mem_keys.mp keys) (by decide)

end RowBuffer

end StatGuardian.Io
