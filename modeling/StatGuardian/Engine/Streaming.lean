import Mathlib.Data.List.Find
import StatGuardian.Engine.RowChecks
import StatGuardian.Io.Batcher
import StatGuardian.Runtime.ExactEnv

open StatGuardian.Core in
structure StatGuardian.Engine (F : Type) where
  contract : DataContract F
  dag : ExecutionDag F

namespace StatGuardian.Engine

open StatGuardian.Core Io Metrics Polars Validators

variable {F E : Type} [Float64 F]

section Execution

variable (env : Env F) (engine : Engine F) (readFile : String → Except E (DataFrame F))

def execute (df : DataFrame F) (reference : Option (DataFrame F)) : Exec (ValidationReport F) :=
  BatchExecutor.execute env engine.contract engine.dag df reference

/-- The loop of `execute_streaming`. -/
def drain (batcher : StreamingBatcher F) : Exec (Except E (List (ValidationReport F))) :=
  match _handed : batcher.nextBatch readFile with
  | .error e => .ok (.error e)
  | .ok (none, _) => .ok (.ok [])
  | .ok (some batch, next) => do
    let report ← engine.execute env batch none
    let rest ← drain next
    return (report :: ·) <$> rest
termination_by batcher.remaining
decreasing_by exact batcher.nextBatch_remaining readFile next batch _handed

def executeStreaming (path : String) (batchSize : Nat) :
    Exec (Except E (List (ValidationReport F))) :=
  drain env engine readFile (StreamingBatcher.new path batchSize)

end Execution

section Batches

variable (env : Env F) (engine : Engine F) (readFile : String → Except E (DataFrame F))

def batchCount (df : DataFrame F) (size : Nat) : Nat := (df.height + size - 1) / size

def batches (df : DataFrame F) (size : Nat) : List (DataFrame F) :=
  (List.range (batchCount df size)).map (fun k => StreamingBatcher.batchAt df size (k * size))

theorem lt_batchCount_iff {F : Type} (df : DataFrame F) (size k : Nat) (positive : 0 < size) :
    k < batchCount df size ↔ k * size < df.height := by
  unfold batchCount
  rw [Nat.lt_iff_add_one_le, Nat.le_div_iff_mul_le positive, Nat.succ_mul]
  omega

theorem drain_ended (batcher : StreamingBatcher F) (df : DataFrame F)
    (loaded : batcher.load readFile = .ok df) (ended : df.height ≤ batcher.offset) :
    drain env engine readFile batcher = .ok (.ok []) := by
  have handed := batcher.nextBatch_ok readFile df loaded
  rw [if_pos ended] at handed
  rw [drain]
  split
  case h_1 e failed => rw [handed] at failed; cases failed
  case h_2 => rfl
  case h_3 batch next more => rw [handed] at more; simp at more

theorem drain_handed (batcher : StreamingBatcher F) (df : DataFrame F)
    (loaded : batcher.load readFile = .ok df) (more : batcher.offset < df.height) :
    drain env engine readFile batcher = (do
      let report ← engine.execute env
        (StreamingBatcher.batchAt df batcher.batchSize batcher.offset) none
      let rest ← drain env engine readFile { batcher with
        cached := some df
        offset := min (batcher.offset + batcher.batchSize) df.height }
      return (report :: ·) <$> rest) := by
  have handed := batcher.nextBatch_ok readFile df loaded
  rw [if_neg (Nat.not_le.mpr more)] at handed
  rw [drain]
  split
  case h_1 e failed => rw [handed] at failed; cases failed
  case h_2 next none => rw [handed] at none; simp at none
  case h_3 batch next found =>
    rw [handed] at found
    simp only [Except.ok.injEq, Prod.mk.injEq, Option.some.injEq] at found
    obtain ⟨rfl, rfl⟩ := found
    rfl

theorem drain_eq (df : DataFrame F) (size : Nat) (m k : Nat) (batcher : StreamingBatcher F)
    (loaded : batcher.load readFile = .ok df) (sized : batcher.batchSize = size)
    (placed : batcher.offset = min (k * size) df.height) (last : k + m = batchCount df size) :
    drain env engine readFile batcher =
      .ok <$> (List.range' k m).mapM (fun j =>
        engine.execute env (StreamingBatcher.batchAt df size (j * size)) none) := by
  have positive : 0 < size := sized ▸ batcher.positive
  induction m generalizing k batcher with
  | zero =>
    have ended : ¬ k * size < df.height := by
      rw [← lt_batchCount_iff df size k positive]; omega
    rw [drain_ended env engine readFile batcher df loaded (by omega)]
    rfl
  | succ m ih =>
    subst sized
    have more : k * batcher.batchSize < df.height := by
      rw [← lt_batchCount_iff df _ k positive]; omega
    have offset : batcher.offset = k * batcher.batchSize := by omega
    rw [drain_handed env engine readFile batcher df loaded (by omega), offset,
      List.range'_succ, List.mapM_cons]
    rw [ih (k + 1) { batcher with
      cached := some df
      offset := min (k * batcher.batchSize + batcher.batchSize) df.height } rfl rfl
      (by rw [Nat.succ_mul]) (by omega)]
    cases engine.execute env (StreamingBatcher.batchAt df _ (k * batcher.batchSize)) none with
    | error fault => rfl
    | ok report =>
      cases (List.range' (k + 1) m).mapM (fun j =>
        engine.execute env (StreamingBatcher.batchAt df _ (j * batcher.batchSize)) none) <;> rfl

theorem executeStreaming_eq (path : String) (batchSize : Nat) :
    executeStreaming env engine readFile path batchSize =
      match readFile path with
      | .error e => .ok (.error e)
      | .ok df => .ok <$> (batches df (max batchSize 1)).mapM (fun batch =>
          engine.execute env batch none) := by
  unfold executeStreaming
  cases read : readFile path with
  | error e =>
    have failed : (StreamingBatcher.new path batchSize).nextBatch readFile = .error e := by
      simp only [StreamingBatcher.nextBatch, StreamingBatcher.load, StreamingBatcher.new, read]
      rfl
    rw [drain]
    split
    case h_1 => rename_i other; rw [failed] at other; cases other; rfl
    case h_2 => rename_i other; rw [failed] at other; cases other
    case h_3 => rename_i other; rw [failed] at other; cases other
  | ok df =>
    rw [drain_eq env engine readFile df (max batchSize 1) (batchCount df (max batchSize 1)) 0 _
      (by simp [StreamingBatcher.load, StreamingBatcher.new, read]) rfl
      (by simp [StreamingBatcher.new]) (by omega)]
    simp only [batches, List.range_eq_range', List.mapM_map, Function.comp_def]

end Batches

section Leading

variable {F : Type} (checks : List (RowCheck F)) (df : DataFrame F)

/-- No check of the same column and name before it reports on the frame. -/
def Leading (check : RowCheck F) : Prop :=
  checks.find? (fun other => other.column == check.column && other.check == check.check &&
    (other.run df).isSome) = some check

/-- A row is listed under a column and a check name by the check that leads there. -/
def Listed (row : Nat) (column name : String) : Prop :=
  ∃ check ∈ checks, Leading checks df check ∧ check.column = column ∧ check.check = name ∧
    row ∈ check.rows df

/-- Where a check leads on a batch and lists rows of it, it leads on the whole frame. -/
def BatchAgrees (batch : DataFrame F) : Prop :=
  ∀ check ∈ checks, Leading checks batch check → check.rows batch ≠ [] → Leading checks df check

theorem leading_iff_find (keyed : ∀ check ∈ checks, check.Keyed) (v : Violation F) :
    (checks.filterMap (·.run df)).find? (fun w => sameKey w v) = some v ↔
      ∃ check ∈ checks, Leading checks df check ∧ check.run df = some v := by
  have key : ∀ check ∈ checks, ∀ column name,
      (check.run df).any (fun w => w.column == column && w.check == name) =
        (check.column == column && check.check == name && (check.run df).isSome) := by
    intro check member column name
    cases ran : check.run df with
    | none => simp
    | some w =>
      have own := keyed check member df w ran
      simp [own.1, own.2]
  have search : checks.find? (fun check => (check.run df).any (fun w => sameKey w v)) =
      checks.find? (fun check =>
        check.column == v.column && check.check == v.check && (check.run df).isSome) :=
    List.find?_congr (fun check member => key check member v.column v.check)
  rw [List.find?_filterMap, Option.bind_eq_some_iff, search]
  constructor
  · rintro ⟨check, found, ran⟩
    have member := List.mem_of_find?_eq_some found
    have own := keyed check member df v ran
    rw [own.1, own.2] at found
    exact ⟨check, member, found, ran⟩
  · rintro ⟨check, member, found, ran⟩
    have own := keyed check member df v ran
    refine ⟨check, ?_, ran⟩
    rw [own.1, own.2]
    exact found

variable {checks df}

theorem RowCheck.isSome_of_rows (check : RowCheck F) (row : Nat) (listed : row ∈ check.rows df) :
    (check.run df).isSome = true := by
  unfold RowCheck.rows rowsOf at listed
  cases ran : check.run df with
  | none => simp [ran] at listed
  | some v => rfl

theorem Leading.unique {first second : RowCheck F} (leads : Leading checks df first)
    (leadsToo : Leading checks df second) (column : first.column = second.column)
    (name : first.check = second.check) : first = second := by
  unfold Leading at leads leadsToo
  rw [column, name, leadsToo] at leads
  exact (Option.some.inj leads).symm

/-- A check that leads on the whole frame and lists rows of a batch leads on the batch. -/
theorem Leading.slice (rowByRow : ∀ check ∈ checks, check.Local) {check : RowCheck F}
    (leads : Leading checks df check) (offset length row : Nat)
    (listed : row ∈ check.rows (df.slice offset length)) :
    Leading checks (df.slice offset length) check := by
  refine Slices.find_of_narrower ?_ leads ?_
  · intro other member chosen
    simp only [Bool.and_eq_true] at chosen ⊢
    exact ⟨chosen.1, (rowByRow other member).reports_slice df offset length chosen.2⟩
  · have key := List.find?_some leads
    simp only [Bool.and_eq_true] at key ⊢
    exact ⟨key.1, check.isSome_of_rows row listed⟩

end Leading

section Reports

variable {env : Env F} {contract : DataContract F} {dag : ExecutionDag F}

theorem report_rowCount {df : DataFrame F} {reference : Option (DataFrame F)}
    {report : ValidationReport F}
    (ran : BatchExecutor.execute env contract dag df reference = .ok report) :
    report.rowCount = df.height := by
  obtain ⟨_, _, _, _, _, _, rfl⟩ := (execute_ok_iff ..).mp ran
  rfl

theorem listed_iff_report (rowLevelOnly : RowLevel contract) {df : DataFrame F}
    {report : ValidationReport F}
    (ran : BatchExecutor.execute env contract (Compiler.compile contract) df none = .ok report)
    (row : Nat) (column name : String) :
    (∃ v ∈ report.violations, row ∈ v.rowIndices ∧ v.column = column ∧ v.check = name) ↔
      Listed (rowChecks env contract) df row column name := by
  have keyed := rowChecks_keyed env rowLevelOnly
  simp only [reported_iff ran (emitted_rowChecks env rowLevelOnly df),
    leading_iff_find _ df keyed]
  constructor
  · rintro ⟨v, ⟨check, member, leads, reports⟩, inside, rfl, rfl⟩
    have own := keyed check member df v reports
    exact ⟨check, member, leads, own.1.symm, own.2.symm, by simp [RowCheck.rows, rowsOf, reports, inside]⟩
  · rintro ⟨check, member, leads, rfl, rfl, inside⟩
    obtain ⟨v, reports⟩ := Option.isSome_iff_exists.mp (check.isSome_of_rows row inside)
    have own := keyed check member df v reports
    refine ⟨v, ⟨check, member, leads, reports⟩, ?_, own.1, own.2⟩
    simpa [RowCheck.rows, rowsOf, reports] using inside

end Reports

section Agreement

/-- The rows the reports list, counted from the first row of the first batch. -/
def located : Nat → List (ValidationReport F) → List (Nat × String × String)
  | _, [] => []
  | base, report :: rest =>
    report.violations.flatMap (fun v => v.rowIndices.map (fun i => (base + i, v.column, v.check))) ++
      located (base + report.rowCount) rest

variable {env : Env F} {contract : DataContract F} {df : DataFrame F} {size : Nat}

theorem mem_located_cons (rowLevelOnly : RowLevel contract) {batch : DataFrame F}
    {report : ValidationReport F} {rest : List (ValidationReport F)} (base : Nat)
    (ran : BatchExecutor.execute env contract (Compiler.compile contract) batch none = .ok report)
    (row : Nat) (column name : String) :
    (row, column, name) ∈ located base (report :: rest) ↔
      (∃ i, row = base + i ∧ Listed (rowChecks env contract) batch i column name) ∨
        (row, column, name) ∈ located (base + batch.height) rest := by
  rw [located, List.mem_append, report_rowCount ran]
  refine or_congr_left ?_
  simp only [← listed_iff_report rowLevelOnly ran, List.mem_flatMap, List.mem_map, Prod.mk.injEq]
  constructor
  · rintro ⟨v, member, i, inside, rfl, rfl, rfl⟩
    exact ⟨i, rfl, v, member, inside, rfl, rfl⟩
  · rintro ⟨i, rfl, v, member, inside, rfl, rfl⟩
    exact ⟨v, member, i, inside, rfl, rfl, rfl⟩

/-- What holds of no reports at the end of the frame, and of a batch's report before those of the
    batches after it, holds of the reports from any batch on. -/
@[elab_as_elim]
theorem batches_run (positive : 0 < size) {motive : Nat → List (ValidationReport F) → Prop}
    (ended : ∀ k, df.height ≤ k * size → motive k [])
    (batch : ∀ k report rest, k * size < df.height →
      BatchExecutor.execute env contract (Compiler.compile contract)
        (StreamingBatcher.batchAt df size (k * size)) none = .ok report →
      motive (k + 1) rest → motive k (report :: rest))
    (m k : Nat) (reports : List (ValidationReport F))
    (ran : List.Forall₂ (fun j report => BatchExecutor.execute env contract
      (Compiler.compile contract) (StreamingBatcher.batchAt df size (j * size)) none = .ok report)
      (List.range' k m) reports)
    (last : k + m = batchCount df size) : motive k reports := by
  induction m generalizing k reports with
  | zero =>
    cases ran
    have past : ¬ k * size < df.height := by
      rw [← lt_batchCount_iff df size k positive]; omega
    exact ended k (Nat.not_lt.mp past)
  | succ m ih =>
    rw [List.range'_succ] at ran
    cases ran with
    | cons head tail =>
      have more : k * size < df.height := by
        rw [← lt_batchCount_iff df size k positive]; omega
      exact batch k _ _ more head (ih (k + 1) _ tail (by omega))

theorem mem_located_batches (rowLevelOnly : RowLevel contract) (positive : 0 < size) (m k : Nat)
    (reports : List (ValidationReport F))
    (ran : List.Forall₂ (fun j report => BatchExecutor.execute env contract
      (Compiler.compile contract) (StreamingBatcher.batchAt df size (j * size)) none = .ok report)
      (List.range' k m) reports)
    (last : k + m = batchCount df size) (row : Nat) (column name : String) :
    (row, column, name) ∈ located (min (k * size) df.height) reports ↔
      ∃ j, k ≤ j ∧ j * size < df.height ∧ ∃ i, row = j * size + i ∧
        Listed (rowChecks env contract) (StreamingBatcher.batchAt df size (j * size)) i column
          name := by
  refine batches_run positive (fun k ended => ?_) (fun k report rest more head ih => ?_) m k reports
    ran last
  · simp only [located, List.not_mem_nil, false_iff]
    rintro ⟨j, later, inside, _⟩
    exact absurd (Nat.mul_le_mul_right size later) (by omega)
  · have next : min (k * size) df.height + (StreamingBatcher.batchAt df size (k * size)).height =
        min ((k + 1) * size) df.height := by
      rw [StreamingBatcher.height_batchAt, Nat.succ_mul]
      omega
    rw [mem_located_cons rowLevelOnly _ head, next, ih, Nat.min_eq_left more.le]
    constructor
    · rintro (⟨i, rfl, listed⟩ | ⟨j, later, inside, rest⟩)
      · exact ⟨k, Nat.le_refl k, more, i, rfl, listed⟩
      · exact ⟨j, by omega, inside, rest⟩
    · rintro ⟨j, later, inside, rest⟩
      rcases Nat.eq_or_lt_of_le later with rfl | after
      · exact .inl rest
      · exact .inr ⟨j, after, inside, rest⟩

theorem sum_rowCount_batches (positive : 0 < size) (m k : Nat)
    (reports : List (ValidationReport F))
    (ran : List.Forall₂ (fun j report => BatchExecutor.execute env contract
      (Compiler.compile contract) (StreamingBatcher.batchAt df size (j * size)) none = .ok report)
      (List.range' k m) reports)
    (last : k + m = batchCount df size) :
    (reports.map (·.rowCount)).sum = df.height - k * size := by
  refine batches_run positive (fun k ended => ?_) (fun k report rest more head ih => ?_) m k reports
    ran last
  · simp only [List.map_nil, List.sum_nil]
    omega
  · rw [List.map_cons, List.sum_cons, ih, report_rowCount head, StreamingBatcher.height_batchAt,
      Nat.succ_mul]
    omega

theorem streamed_reports {E : Type} {readFile : String → Except E (DataFrame F)} {path : String}
    {batchSize : Nat} {dag : ExecutionDag F} {reports : List (ValidationReport F)}
    (reads : readFile path = .ok df)
    (streamed : executeStreaming env ⟨contract, dag⟩ readFile path batchSize = .ok (.ok reports)) :
    List.Forall₂ (fun j report => BatchExecutor.execute env contract dag
      (StreamingBatcher.batchAt df (max batchSize 1) (j * max batchSize 1)) none = .ok report)
      (List.range' 0 (batchCount df (max batchSize 1))) reports := by
  rw [executeStreaming_eq, reads] at streamed
  obtain ⟨_, ran, same⟩ := (Results.map_ok_iff ..).mp streamed
  cases same
  rw [Results.mapM_ok_iff, batches, List.forall₂_map_left_iff, List.range_eq_range'] at ran
  exact ran

theorem listed_in_batch (rowLevelOnly : RowLevel contract) (positive : 0 < size) (row : Nat)
    (column name : String) (listed : Listed (rowChecks env contract) df row column name) :
    row / size * size < df.height ∧ Listed (rowChecks env contract)
      (StreamingBatcher.batchAt df size (row / size * size)) (row % size) column name := by
  obtain ⟨check, member, leads, own, named, inside⟩ := listed
  have rowByRow := rowChecks_local env rowLevelOnly
  have bound := (rowByRow check member).rows_lt df row inside
  have split : row / size * size + row % size = row := Nat.div_add_mod' row size
  have short : row % size < size := Nat.mod_lt row positive
  refine ⟨by omega, check, member, ?_, own, named, ?_⟩
  · refine leads.slice rowByRow _ _ (row % size) ?_
    rw [(rowByRow check member).rows_slice, split]
    exact ⟨by omega, inside⟩
  · unfold StreamingBatcher.batchAt
    rw [(rowByRow check member).rows_slice, split]
    exact ⟨by omega, inside⟩

/-- Batched and whole-file execution of a row-level contract list the same rows exactly when the
    check that leads on a batch leads on the whole frame, for every batch and every check that
    lists rows of it. The row counts always add up. -/
theorem streaming_agrees_iff {E : Type} {readFile : String → Except E (DataFrame F)}
    {path : String} {batchSize : Nat} {reports : List (ValidationReport F)}
    {report : ValidationReport F} (rowLevelOnly : RowLevel contract)
    (reads : readFile path = .ok df)
    (streamed : executeStreaming env ⟨contract, Compiler.compile contract⟩ readFile path batchSize =
      .ok (.ok reports))
    (ran : execute env ⟨contract, Compiler.compile contract⟩ df none = .ok report) :
    ((∀ row, row ∈ located 0 reports ↔ row ∈ located 0 [report]) ∧
      (reports.map (·.rowCount)).sum = df.height) ↔
      ∀ k, k * max batchSize 1 < df.height → BatchAgrees (rowChecks env contract) df
        (StreamingBatcher.batchAt df (max batchSize 1) (k * max batchSize 1)) := by
  have positive : 0 < max batchSize 1 := by omega
  have batched := streamed_reports reads streamed
  have sum := sum_rowCount_batches positive _ 0 reports batched (by omega)
  rw [Nat.zero_mul, Nat.sub_zero] at sum
  rw [and_iff_left sum]
  have inBatches := mem_located_batches rowLevelOnly positive _ 0 reports batched (by omega)
  rw [Nat.zero_mul, Nat.zero_min] at inBatches
  have inWhole : ∀ row column name, (row, column, name) ∈ located 0 [report] ↔
      Listed (rowChecks env contract) df row column name := fun row column name => by
    rw [mem_located_cons rowLevelOnly 0 ran]
    simp [located]
  have rowByRow := rowChecks_local env rowLevelOnly
  constructor
  · intro same k more check member leads lists
    obtain ⟨i, inside⟩ := List.exists_mem_of_ne_nil _ lists
    have whole := (same (k * max batchSize 1 + i, check.column, check.check)).mp
      ((inBatches _ _ _).mpr ⟨k, Nat.zero_le k, more, i, rfl, check, member, leads, rfl, rfl,
        inside⟩)
    obtain ⟨first, firstMember, first_leads, column, name, firstRow⟩ := (inWhole _ _ _).mp whole
    have bound := (rowByRow check member).rows_lt _ i inside
    rw [StreamingBatcher.height_batchAt] at bound
    have onBatch : Leading (rowChecks env contract)
        (StreamingBatcher.batchAt df (max batchSize 1) (k * max batchSize 1)) first := by
      refine first_leads.slice rowByRow _ _ i ?_
      rw [(rowByRow first firstMember).rows_slice]
      exact ⟨bound, firstRow⟩
    rw [leads.unique onBatch column.symm name.symm]
    exact first_leads
  · rintro agrees ⟨row, column, name⟩
    rw [inBatches, inWhole]
    constructor
    · rintro ⟨k, _, more, i, rfl, check, member, leads, own, named, inside⟩
      refine ⟨check, member, agrees k more check member leads (List.ne_nil_of_mem inside), own,
        named, ?_⟩
      unfold StreamingBatcher.batchAt at inside
      exact (((rowByRow check member).rows_slice ..).mp inside).2
    · intro listed
      obtain ⟨more, inBatch⟩ := listed_in_batch rowLevelOnly positive row column name listed
      exact ⟨_, Nat.zero_le _, more, _, (Nat.div_add_mod' row _).symm, inBatch⟩

/-- `dataset events` with the field `value: int, min=0, max=10`. -/
def boundedValues : DataContract ExtRat :=
  { DataContract.new "events" with
    schema := [⟨"value", .int, [.min (.fin 0), .max (.fin 10)]⟩] }

def lowAndHigh : DataFrame ExtRat where
  height := 2
  columns := [.series "value" ⟨.int64, [some (-1), some 20]⟩]
  aligned := by decide
  distinct := by decide

def readLowAndHigh (_path : String) : Except Empty (DataFrame ExtRat) := .ok lowAndHigh

theorem lowAndHigh_streamed (p : List (ValidationReport ExtRat) → Bool)
    (holds : ((batches lowAndHigh 1).mapM (fun batch => execute exactEnv
      ⟨boundedValues, Compiler.compile boundedValues⟩ batch none)).toOption.any p = true) :
    ∃ reports, executeStreaming exactEnv ⟨boundedValues, Compiler.compile boundedValues⟩
      readLowAndHigh "events.csv" 1 = .ok (.ok reports) ∧ p reports = true := by
  obtain ⟨reports, ran, found⟩ := Results.ok_of_any _ p holds
  refine ⟨reports, ?_, found⟩
  rw [executeStreaming_eq]
  simp only [readLowAndHigh, Nat.max_self, ran]
  rfl

/-- In the second batch the upper bound is the first range check to fail; on the whole frame the
    lower one is, and it does not list row 1. -/
theorem second_batch_differs :
    ∃ (reports : List (ValidationReport ExtRat)) (report : ValidationReport ExtRat),
      executeStreaming exactEnv ⟨boundedValues, Compiler.compile boundedValues⟩ readLowAndHigh
        "events.csv" 1 = .ok (.ok reports) ∧
      execute exactEnv ⟨boundedValues, Compiler.compile boundedValues⟩ lowAndHigh none =
        .ok report ∧
      ¬ ((∀ row, row ∈ located 0 reports ↔ row ∈ located 0 [report]) ∧
        (reports.map (·.rowCount)).sum = lowAndHigh.height) := by
  obtain ⟨reports, streamed, listed⟩ := lowAndHigh_streamed
    (fun reports => (located 0 reports).contains (1, "value", "range_check")) (by decide +kernel)
  obtain ⟨report, ran, unlisted⟩ := Results.ok_of_any
    (execute exactEnv ⟨boundedValues, Compiler.compile boundedValues⟩ lowAndHigh none)
    (fun report => ! (located 0 [report]).contains (1, "value", "range_check")) (by decide +kernel)
  refine ⟨reports, report, streamed, ran, fun ⟨same, _⟩ => ?_⟩
  have whole := (same (1, "value", "range_check")).mp (by simpa using listed)
  simp [whole] at unlisted

theorem streaming_agrees_iff_values :
    ∃ (reports : List (ValidationReport ExtRat)) (report : ValidationReport ExtRat),
      executeStreaming exactEnv ⟨boundedValues, Compiler.compile boundedValues⟩ readLowAndHigh
        "events.csv" 1 = .ok (.ok reports) ∧
      execute exactEnv ⟨boundedValues, Compiler.compile boundedValues⟩ lowAndHigh none =
        .ok report ∧
      (((∀ row, row ∈ located 0 reports ↔ row ∈ located 0 [report]) ∧
        (reports.map (·.rowCount)).sum = lowAndHigh.height) ↔
        ∀ k, k * max 1 1 < lowAndHigh.height →
          BatchAgrees (rowChecks exactEnv boundedValues) lowAndHigh
            (StreamingBatcher.batchAt lowAndHigh (max 1 1) (k * max 1 1))) := by
  obtain ⟨reports, streamed, _⟩ := lowAndHigh_streamed (fun _ => true) (by decide +kernel)
  obtain ⟨report, ran, _⟩ := Results.ok_of_any
    (execute exactEnv ⟨boundedValues, Compiler.compile boundedValues⟩ lowAndHigh none)
    (fun _ => true) (by decide +kernel)
  have rowLevelOnly : RowLevel boundedValues := ⟨by decide, rfl, rfl, rfl, rfl⟩
  exact ⟨reports, report, streamed, ran, streaming_agrees_iff rowLevelOnly rfl streamed ran⟩

end Agreement

end StatGuardian.Engine
