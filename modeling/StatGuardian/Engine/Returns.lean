import StatGuardian.Engine.Batch
import StatGuardian.Runtime.ExactEnv
import StatGuardian.Stats.KolmogorovSmirnov

namespace StatGuardian.Engine

open StatGuardian.Core Metrics Polars Stats Validators

variable {F : Type} [Float64 F] (env : Env F) (sorter : Sorter F)

section Statistics

open DriftEngine

def isQuantile : StatFn → Bool
  | .mean | .std | .min | .max => false
  | .median | .p05 | .p95 | .p99 | .p999 => true

def StatSafe (series : Series F) (stat : StatFn) : Prop :=
  isQuantile stat = true → ∀ ca, env.castF64 series = some ca →
    Float64.OrderConsistent (present ca)

theorem computeStat_returns (series : Series F) (stat : StatFn) (safe : StatSafe env series stat) :
    (∃ value, computeStat env series stat = .ok value) ∧
      computeStat (env.withSorter sorter) series stat = computeStat env series stat := by
  unfold StatSafe at safe
  unfold computeStat
  rw [Env.withSorter_castF64]
  cases cast : env.castF64 series with
  | none => exact ⟨⟨_, rfl⟩, rfl⟩
  | some ca =>
    cases stat
    case mean | std | min | max => exact ⟨⟨_, rfl⟩, rfl⟩
    all_goals
      have consistent := safe rfl ca cast
      exact ⟨quantileManual_returns env ca _ consistent,
        quantileManual_withSorter env ca _ sorter consistent⟩

theorem computeStat_safe (series : Series F) (stat : StatFn) (value : Option F)
    (ran : computeStat (env.withSorter (Sorter.strict F)) series stat = .ok value) :
    StatSafe env series stat := by
  intro quantile ca cast
  unfold computeStat at ran
  rw [Env.withSorter_castF64, cast] at ran
  cases stat
  case mean | std | min | max => cases quantile
  all_goals exact quantileManual_consistent env ca _ value ran

theorem psi_returns (reference current : Series F) :
    ∃ value, psi env reference current 10 = .ok value := by
  simp only [psi]
  split
  · exact ⟨_, rfl⟩
  · split
    · exact ⟨_, rfl⟩
    · obtain ⟨refBuckets, counted, _⟩ := bucket_returns (toF64Vec env reference) _ _ 10
        (by decide : 0 < 10)
      rw [counted]
      obtain ⟨curBuckets, counted, _⟩ := bucket_returns (toF64Vec env current) _ _ 10
        (by decide : 0 < 10)
      simp only [bind, Except.bind]
      rw [counted]
      exact ⟨_, rfl⟩

/-- Where a drift rule returns whatever the sort does. The later statistics are only computed
    once the earlier ones are there. -/
def RuleSafe (current reference : DataFrame F) (rule : StatsRule F) : Prop :=
  ∀ cur ref, ruleSeries current rule = some cur → ruleSeries reference rule = some ref →
    StatSafe env cur rule.stat ∧
      ∀ curVal, computeStat env cur rule.stat = .ok (some curVal) →
        StatSafe env ref rule.stat ∧
          ∀ refVal, computeStat env ref rule.stat = .ok (some refVal) →
            isNumeric cur = true → KsSafe env ref cur

theorem driftResult_returns (rule : StatsRule F) (cur ref : Series F) (curVal refVal : F)
    (safe : isNumeric cur = true → KsSafe env ref cur) :
    ∃ result, driftResult (env.withSorter sorter) rule cur ref curVal refVal = .ok result := by
  obtain ⟨psi, psiRan⟩ := psi_returns (env.withSorter sorter) ref cur
  simp only [driftResult, ifNumeric]
  cases numeric : isNumeric cur with
  | false => exact ⟨_, rfl⟩
  | true =>
    obtain ⟨⟨diff, ksRan⟩, same⟩ := ksStatistic_returns env sorter ref cur (safe numeric)
    rw [← same] at ksRan
    simp only [↓reduceIte, psiRan, ksRan]
    exact ⟨_, rfl⟩

theorem driftResult_safe (rule : StatsRule F) (cur ref : Series F) (curVal refVal : F)
    (result : DriftResult F)
    (ran : driftResult (env.withSorter (Sorter.strict F)) rule cur ref curVal refVal =
      .ok result) (numeric : isNumeric cur = true) : KsSafe env ref cur := by
  simp only [driftResult, ifNumeric, numeric, ↓reduceIte, Results.bind_ok_iff,
    Results.map_ok_iff] at ran
  obtain ⟨_, _, _, ⟨diff, ksRan, _⟩, _⟩ := ran
  exact ksStatistic_safe env ref cur diff ksRan

theorem evaluateRule_returns (current reference : DataFrame F) (rule : StatsRule F)
    (safe : RuleSafe env current reference rule) :
    ∃ answer, evaluateRule (env.withSorter sorter) current reference rule = .ok answer := by
  unfold evaluateRule
  split
  case h_1 cur ref curFound refFound =>
    obtain ⟨curSafe, rest⟩ := safe cur ref curFound refFound
    obtain ⟨⟨curVal, curRan⟩, same⟩ := computeStat_returns env sorter cur rule.stat curSafe
    simp only [same, curRan, bind, Except.bind]
    cases curVal with
    | none => exact ⟨_, rfl⟩
    | some curVal =>
      obtain ⟨refSafe, rest⟩ := rest curVal curRan
      obtain ⟨⟨refVal, refRan⟩, same⟩ := computeStat_returns env sorter ref rule.stat refSafe
      simp only [same, refRan]
      cases refVal with
      | none => exact ⟨_, rfl⟩
      | some refVal =>
        obtain ⟨result, ran⟩ := driftResult_returns env sorter rule cur ref curVal refVal
          (rest refVal refRan)
        exact ⟨some result, (Results.map_ok_iff ..).mpr ⟨result, ran, rfl⟩⟩
  case h_2 => exact ⟨_, rfl⟩

theorem evaluateRule_safe (current reference : DataFrame F) (rule : StatsRule F)
    (answer : Option (DriftResult F))
    (ran : evaluateRule (env.withSorter (Sorter.strict F)) current reference rule = .ok answer) :
    RuleSafe env current reference rule := by
  intro cur ref curFound refFound
  simp only [evaluateRule, curFound, refFound, Results.bind_ok_iff] at ran
  obtain ⟨given, curRan, ran⟩ := ran
  have curSafe := computeStat_safe env cur rule.stat given curRan
  refine ⟨curSafe, fun curVal curValRan => ?_⟩
  rw [(computeStat_returns env _ cur rule.stat curSafe).2, curValRan] at curRan
  cases curRan
  simp only [Results.bind_ok_iff] at ran
  obtain ⟨given, refRan, ran⟩ := ran
  have refSafe := computeStat_safe env ref rule.stat given refRan
  refine ⟨refSafe, fun refVal refValRan numeric => ?_⟩
  rw [(computeStat_returns env _ ref rule.stat refSafe).2, refValRan] at refRan
  cases refRan
  obtain ⟨result, ran, _⟩ := (Results.map_ok_iff ..).mp ran
  exact driftResult_safe env rule cur ref curVal refVal result ran numeric

end Statistics

section Profiles

open Profiler

/-- Where the profile of a column returns whatever the sort does. -/
def ColumnSafe (col : Column F) : Prop :=
  ∀ series, col.asSeries = some series → isNumeric series = true →
    ∀ ca, env.castF64 series = some ca → Float64.OrderConsistent (present ca)

theorem buildHistogram_returns (ca : List (Option F)) (min max : Option F) :
    ∃ rows, buildHistogram ca min max 10 = .ok rows := by
  unfold buildHistogram
  split
  case h_1 lo hi =>
    split
    · obtain ⟨counts, counted, size⟩ := bucket_returns (present ca) lo
        ((hi - lo) / Float64.ofNat 10) 10 (by decide)
      simp only [counted, bind, Except.bind]
      rw [Results.mapM_returns_iff]
      intro i inside
      have bound : i < counts.length := by rw [size]; exact List.mem_range.mp inside
      simp [List.getElem?_eq_getElem bound]
    · exact ⟨_, rfl⟩
  case h_2 => exact ⟨_, rfl⟩

theorem numericStats_returns (series : Series F)
    (safe : ∀ ca, env.castF64 series = some ca → Float64.OrderConsistent (present ca)) :
    ∃ stats, numericStats env series = .ok stats := by
  unfold numericStats
  cases cast : env.castF64 series with
  | none => exact ⟨_, rfl⟩
  | some ca =>
    have quantile := fun q => quantileManual_returns env ca q (safe ca cast)
    obtain ⟨_, median⟩ := quantile (Float64.ofRat (1 / 2))
    obtain ⟨_, p05⟩ := quantile (Float64.ofRat (5 / 100))
    obtain ⟨_, p25⟩ := quantile (Float64.ofRat (25 / 100))
    obtain ⟨_, p75⟩ := quantile (Float64.ofRat (75 / 100))
    obtain ⟨_, p95⟩ := quantile (Float64.ofRat (95 / 100))
    obtain ⟨_, p99⟩ := quantile (Float64.ofRat (99 / 100))
    obtain ⟨_, histogram⟩ := buildHistogram_returns ca (env.min ca) (env.max ca)
    simp only [median, p05, p25, p75, p95, p99, histogram]
    exact ⟨_, rfl⟩

theorem numericStats_safe (series : Series F) (stats : NumericStats F)
    (ran : numericStats (env.withSorter (Sorter.strict F)) series = .ok stats) :
    ∀ ca, env.castF64 series = some ca → Float64.OrderConsistent (present ca) := by
  intro ca cast
  unfold numericStats at ran
  rw [Env.withSorter_castF64, cast] at ran
  obtain ⟨median, ran, _⟩ := (Results.bind_ok_iff ..).mp ran
  exact quantileManual_consistent env ca _ median ran

theorem sketch_returns (col : Column F) : ∃ hll, sketch env col = .ok hll := by
  unfold sketch
  split
  · exact HyperLogLog.addStr_foldl_returns env _ _
  · exact ⟨_, rfl⟩

theorem profileColumn_returns (col : Column F) (safe : ColumnSafe env col) :
    ∃ profile, profileColumn (env.withSorter sorter) col = .ok profile := by
  obtain ⟨hll, sketched⟩ := sketch_returns (env.withSorter sorter) col
  simp only [profileColumn, sketched]
  cases found : col.asSeries with
  | none => exact ⟨_, rfl⟩
  | some series =>
    cases numeric : isNumeric series with
    | false => simp [numeric, bind, Except.bind, pure, Except.pure]
    | true =>
      obtain ⟨stats, ran⟩ := numericStats_returns (env.withSorter sorter) series
        (safe series found numeric)
      simp [numeric, ran, bind, Except.bind, pure, Except.pure]

theorem profileColumn_safe (col : Column F) (profile : ColumnProfile F)
    (ran : profileColumn (env.withSorter (Sorter.strict F)) col = .ok profile) :
    ColumnSafe env col := by
  intro series found numeric
  unfold profileColumn at ran
  obtain ⟨hll, _, ran⟩ := (Results.bind_ok_iff ..).mp ran
  simp only [found, numeric, ↓reduceIte] at ran
  obtain ⟨stats, ran, _⟩ := (Results.bind_ok_iff ..).mp ran
  exact numericStats_safe env series stats ran

end Profiles

section Nodes

/-- Where a node returns whatever the sort does: an interquartile range is taken of fewer than two
    values or of numbers only. -/
def NodeSafe (df : DataFrame F) : DagNode F → Prop
  | .outlierDetection column method _ => method = "iqr" →
    ∀ ca, (getSeries df column).bind env.castF64 = some ca →
      (present ca).length < 2 ∨ ∀ x ∈ present ca, Float64.isNan x = false
  | _ => True

/-- The nodes of one column, up to the one that stops the group. -/
def NodesSafe (df : DataFrame F) : List (DagNode F) → Prop
  | [] => True
  | node :: rest => NodeSafe env df node ∧
    ∀ vs, executeNode env df node = .ok vs → vs.any (·.severity == .blocking) = false →
      NodesSafe df rest

theorem outlierValues_values {F : Type} (ca : List (Option F)) :
    (outlierValues ca).map Prod.snd = present ca := by
  have cells : ca = ca.zipIdx.map Prod.fst := (List.zipIdx_map_fst 0 ca).symm
  unfold outlierValues present
  conv_rhs => rw [cells]
  rw [List.map_filterMap, List.filterMap_map]
  congr 1
  funext ⟨cell, row⟩
  cases cell <;> rfl

theorem iqrOutliers_returns (vals : List (Nat × F)) (some : vals ≠ [])
    (sortable : Sorter.Sortable Float64.unwrapCmp (vals.map Prod.snd)) :
    (∃ rows, iqrOutliers env vals = .ok rows) ∧
      iqrOutliers (env.withSorter sorter) vals = iqrOutliers env vals := by
  unfold iqrOutliers
  simp only [Env.withSorter_sorter, Sorter.run_sortable _ sortable, and_true, bind, Except.bind]
  have size : ((vals.map Prod.snd).insertionSort
      (fun a b => lessEq (Float64.unwrapCmp a b) = true)).length = vals.length := by
    rw [List.length_insertionSort, List.length_map]
  have positive := List.length_pos_iff.mpr some
  have first : vals.length / 4 < ((vals.map Prod.snd).insertionSort
      (fun a b => lessEq (Float64.unwrapCmp a b) = true)).length := by omega
  have third : 3 * vals.length / 4 < ((vals.map Prod.snd).insertionSort
      (fun a b => lessEq (Float64.unwrapCmp a b) = true)).length := by omega
  simp only [size, List.getElem?_eq_getElem first, List.getElem?_eq_getElem third]
  exact ⟨_, rfl⟩

theorem detectOutliers_returns (column method : String) (severity : Severity) (df : DataFrame F)
    (safe : NodeSafe env df (.outlierDetection column method severity)) :
    (∃ vs, detectOutliers env column method severity df = .ok vs) ∧
      detectOutliers (env.withSorter sorter) column method severity df =
        detectOutliers env column method severity df := by
  have cast : (env.withSorter sorter).castF64 = env.castF64 := rfl
  simp only [detectOutliers, outlierIndices, cast]
  cases found : (getSeries df column).bind env.castF64 with
  | none => exact ⟨⟨_, rfl⟩, rfl⟩
  | some ca =>
    cases full : (outlierValues ca).isEmpty with
    | true => simp [full]
    | false =>
      simp only [full, Bool.false_eq_true, ↓reduceIte]
      by_cases iqr : method = "iqr"
      · have sortable : Sorter.Sortable Float64.unwrapCmp ((outlierValues ca).map Prod.snd) := by
          rw [outlierValues_values]
          exact (Float64.sortable_unwrapCmp_iff _).mpr (safe iqr ca found)
        have some : outlierValues ca ≠ [] := fun empty => by
          rw [empty] at full; cases full
        obtain ⟨⟨rows, ran⟩, same⟩ := iqrOutliers_returns env sorter _ some sortable
        simp only [iqr, ↓reduceIte, same, ran, and_true]
        exact ⟨_, rfl⟩
      · simp only [iqr, ↓reduceIte, and_true]
        split <;> exact ⟨_, rfl⟩

theorem detectOutliers_safe (column method : String) (severity : Severity) (df : DataFrame F)
    (vs : List (Violation F))
    (ran : detectOutliers (env.withSorter (Sorter.strict F)) column method severity df = .ok vs) :
    NodeSafe env df (.outlierDetection column method severity) := by
  intro iqr ca found
  by_cases empty : outlierValues ca = []
  · left
    rw [← outlierValues_values, empty]
    exact Nat.zero_lt_two
  · have cast : (env.withSorter (Sorter.strict F)).castF64 = env.castF64 := rfl
    have full : (outlierValues ca).isEmpty = false := by simp [empty]
    simp only [detectOutliers, outlierIndices, cast, found, full, Bool.false_eq_true, ↓reduceIte,
      iqr] at ran
    obtain ⟨rows, ran, _⟩ := (Results.bind_ok_iff ..).mp ran
    obtain ⟨sorted, ran, _⟩ := (Results.bind_ok_iff ..).mp ran
    rw [← outlierValues_values]
    exact (Float64.sortable_unwrapCmp_iff _).mp (Sorter.sortable_of_strict ran)

theorem executeNode_returns (df : DataFrame F) (node : DagNode F) (safe : NodeSafe env df node) :
    (∃ vs, executeNode env df node = .ok vs) ∧
      executeNode (env.withSorter sorter) df node = executeNode env df node := by
  cases node
  case outlierDetection column method severity =>
    exact detectOutliers_returns env sorter column method severity df safe
  all_goals exact ⟨⟨_, rfl⟩, rfl⟩

theorem executeNode_safe (df : DataFrame F) (node : DagNode F) (vs : List (Violation F))
    (ran : executeNode (env.withSorter (Sorter.strict F)) df node = .ok vs) :
    NodeSafe env df node := by
  cases node
  case outlierDetection column method severity =>
    exact detectOutliers_safe env column method severity df vs ran
  all_goals exact True.intro

theorem runNodes_returns (df : DataFrame F) (nodes : List (DagNode F))
    (safe : NodesSafe env df nodes) :
    ∃ vs, runNodes (env.withSorter sorter) df nodes = .ok vs := by
  induction nodes with
  | nil => exact ⟨_, rfl⟩
  | cons node rest ih =>
    obtain ⟨⟨vs, ran⟩, same⟩ := executeNode_returns env sorter df node safe.1
    simp only [runNodes, same, ran, bind, Except.bind]
    split
    case isTrue => exact ⟨_, rfl⟩
    case isFalse goesOn =>
      obtain ⟨more, finished⟩ := ih (safe.2 vs ran (by simpa using goesOn))
      simp only [finished]
      exact ⟨_, rfl⟩

theorem runNodes_safe (df : DataFrame F) (nodes : List (DagNode F)) (vs : List (Violation F))
    (ran : runNodes (env.withSorter (Sorter.strict F)) df nodes = .ok vs) :
    NodesSafe env df nodes := by
  induction nodes generalizing vs with
  | nil => exact True.intro
  | cons node rest ih =>
    obtain ⟨given, visited, ran⟩ := (Results.bind_ok_iff ..).mp ran
    have safe := executeNode_safe env df node given visited
    refine ⟨safe, fun own mine goesOn => ?_⟩
    rw [(executeNode_returns env _ df node safe).2, mine] at visited
    cases visited
    simp only [goesOn, Bool.false_eq_true, ↓reduceIte] at ran
    obtain ⟨more, ran, _⟩ := (Results.bind_ok_iff ..).mp ran
    exact ih more ran

end Nodes

/-- Where a run returns whatever the sort does. -/
structure RunSafe (contract : DataContract F) (dag : ExecutionDag F) (df : DataFrame F)
    (reference : Option (DataFrame F)) : Prop where
  nodes : ∀ group ∈ Optimizer.groupByColumn dag, NodesSafe env df group.2
  drift : ∀ refDf, reference = some refDf →
    ∀ rule ∈ contract.statsRules, RuleSafe env df refDf rule
  profile : ∀ col ∈ df.columns, ColumnSafe env col

variable (contract : DataContract F) (dag : ExecutionDag F) (df : DataFrame F)
  (reference : Option (DataFrame F))

theorem dagViolations_returns_iff :
    (∃ vs, dagViolations env dag df = .ok vs) ↔
      ∀ group ∈ Optimizer.groupByColumn dag, ∃ vs, runNodes env df group.2 = .ok vs := by
  have visited : ∀ group, group ∈ env.visit (Optimizer.groupByColumn dag) ↔
      group ∈ Optimizer.groupByColumn dag := fun _ => (env.visit_perm _).mem_iff
  have returned := Results.mapM_returns_iff (fun group => runNodes env df group.2)
    (env.visit (Optimizer.groupByColumn dag))
  simp only [visited] at returned
  rw [← returned]
  simp only [dagViolations, Results.bind_ok_iff, pure, Except.pure, Except.ok.injEq]
  constructor
  · rintro ⟨_, results, ran, _⟩
    exact ⟨results, ran⟩
  · rintro ⟨results, ran⟩
    exact ⟨_, results, ran, rfl⟩

theorem driftResults_returns_iff :
    (∃ results, driftResults env contract df reference = .ok results) ↔
      ∀ refDf, reference = some refDf → ∀ rule ∈ contract.statsRules,
        ∃ answer, DriftEngine.evaluateRule env df refDf rule = .ok answer := by
  cases reference with
  | none => simp [driftResults]
  | some refDf =>
    simp only [driftResults, DriftEngine.evaluate, Results.bind_ok_iff, pure, Except.pure,
      Except.ok.injEq, Option.some.injEq, forall_eq', ← Results.mapM_returns_iff]
    constructor
    · rintro ⟨_, results, ran, _⟩
      exact ⟨results, ran⟩
    · rintro ⟨results, ran⟩
      exact ⟨_, results, ran, rfl⟩

theorem profile_returns_iff :
    (∃ profile, Profiler.profile env df = .ok profile) ↔
      ∀ col ∈ df.columns, ∃ profile, Profiler.profileColumn env col = .ok profile := by
  simp only [Profiler.profile, Results.bind_ok_iff, pure, Except.pure, Except.ok.injEq,
    ← Results.mapM_returns_iff]
  constructor
  · rintro ⟨_, results, ran, _⟩
    exact ⟨results, ran⟩
  · rintro ⟨results, ran⟩
    exact ⟨_, results, ran, rfl⟩

theorem execute_returns_parts :
    (∃ report, BatchExecutor.execute env contract dag df reference = .ok report) ↔
      (∃ vs, dagViolations env dag df = .ok vs) ∧
      (∃ results, driftResults env contract df reference = .ok results) ∧
      ∃ profile, Profiler.profile env df = .ok profile := by
  simp only [execute_ok_iff, emitted_ok_iff]
  constructor
  · rintro ⟨_, _, drift, profile, ⟨fromDag, visited, rfl⟩, drifts, profiled, _⟩
    exact ⟨⟨fromDag, visited⟩, ⟨drift, drifts⟩, profile, profiled⟩
  · rintro ⟨⟨fromDag, visited⟩, ⟨drift, drifts⟩, profile, profiled⟩
    exact ⟨_, _, drift, profile, ⟨fromDag, visited, rfl⟩, drifts, profiled, rfl⟩

theorem safe_of_strict_returns
    (returns : ∃ report, BatchExecutor.execute (env.withSorter (Sorter.strict F)) contract dag df
      reference = .ok report) : RunSafe env contract dag df reference := by
  simp only [execute_returns_parts, dagViolations_returns_iff, driftResults_returns_iff,
    profile_returns_iff] at returns
  obtain ⟨nodes, drift, profile⟩ := returns
  refine ⟨fun group member => ?_, fun refDf given rule member => ?_, fun col member => ?_⟩
  · obtain ⟨vs, ran⟩ := nodes group member
    exact runNodes_safe env df group.2 vs ran
  · obtain ⟨answer, ran⟩ := drift refDf given rule member
    exact evaluateRule_safe env df refDf rule answer ran
  · obtain ⟨profile, ran⟩ := profile col member
    exact profileColumn_safe env col profile ran

theorem execute_returns_of_safe (safe : RunSafe env contract dag df reference) :
    ∃ report, BatchExecutor.execute (env.withSorter sorter) contract dag df reference =
      .ok report := by
  simp only [execute_returns_parts, dagViolations_returns_iff, driftResults_returns_iff,
    profile_returns_iff]
  exact ⟨fun group member => runNodes_returns env sorter df group.2 (safe.nodes group member),
    fun refDf given rule member =>
      evaluateRule_returns env sorter df refDf rule (safe.drift refDf given rule member),
    fun col member => profileColumn_returns env sorter col (safe.profile col member)⟩

/-- A run returns a report, whatever the sort does where its comparator is not a total order,
    exactly on the safe inputs. -/
theorem execute_returns_iff :
    (∀ sorter : Sorter F, ∃ report,
      BatchExecutor.execute (env.withSorter sorter) contract dag df reference = .ok report) ↔
      RunSafe env contract dag df reference := by
  constructor
  · intro returns
    exact safe_of_strict_returns env contract dag df reference (returns (Sorter.strict F))
  · intro safe sorter
    exact execute_returns_of_safe env sorter contract dag df reference safe

/-- Of two values or more, a NaN among them, no sort can take the interquartile range. -/
theorem iqrOutliers_nan (vals : List (Nat × F)) (long : 2 ≤ vals.length) (row : Nat) (nan : F)
    (member : (row, nan) ∈ vals) (isNan : Float64.isNan nan = true) :
    ∃ fault, iqrOutliers env vals = .error fault := by
  obtain ⟨fault, panics⟩ := env.sorter.compares Float64.unwrapCmp (vals.map Prod.snd)
    (by rw [List.length_map]; exact long)
    ⟨nan, List.mem_map.mpr ⟨_, member, rfl⟩, Float64.unwrapCmp_nan nan isNan⟩
  exact ⟨fault, by simp [iqrOutliers, panics, bind, Except.bind]⟩

/-- `dataset readings` with the anomaly rule `detect_outliers(x)`. -/
def outlierReadings : DataContract ExtRat :=
  { DataContract.new "readings" with
    anomalyRules := [⟨.detectOutliers, "x", [], .error⟩] }

def nanReading : DataFrame ExtRat where
  height := 2
  columns := [.series "x" ⟨.float64, [some .nan, some (.fin 1)]⟩]
  aligned := by decide
  distinct := by decide

theorem nan_reading_panics :
    ¬ ∃ (sorter : Sorter ExtRat) (report : ValidationReport ExtRat),
      BatchExecutor.execute (exactEnv.withSorter sorter) outlierReadings
        (Compiler.compile outlierReadings) nanReading none = .ok report := by
  rintro ⟨sorter, report, ran⟩
  obtain ⟨fault, panics⟩ := iqrOutliers_nan (exactEnv.withSorter sorter)
    [(0, .nan), (1, .fin 1)] (by decide) 0 .nan (by decide) (by decide)
  have node : executeNode (exactEnv.withSorter sorter) nanReading
      (.outlierDetection "x" "iqr" .error) = .error fault := by
    change Except.bind (iqrOutliers (exactEnv.withSorter sorter) [(0, .nan), (1, .fin 1)]) _ = _
    rw [panics]
    rfl
  have groups : Optimizer.groupByColumn (Compiler.compile outlierReadings) =
      [("x", [.outlierDetection "x" "iqr" .error])] := by decide +kernel
  obtain ⟨⟨_, visited⟩, _⟩ := (execute_returns_parts ..).mp ⟨report, ran⟩
  obtain ⟨_, finished⟩ := (dagViolations_returns_iff ..).mp ⟨_, visited⟩ ("x",
    [.outlierDetection "x" "iqr" .error]) (by rw [groups]; exact List.mem_singleton_self _)
  simp [runNodes, node, bind, Except.bind] at finished

end StatGuardian.Engine
