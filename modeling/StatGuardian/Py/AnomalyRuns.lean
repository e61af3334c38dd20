import StatGuardian.Library.Results
import StatGuardian.Py.AnomalyDetection
import StatGuardian.Runtime.ExtRat

namespace StatGuardian.Py.Anomaly

open KeyedValues RecentValues Machine

variable {F : Type}

namespace SimpleMovingAverageDetector

variable (detector : SimpleMovingAverageDetector F) (metricName : String) (value : F)

theorem observed_addObservation_self :
    (detector.addObservation metricName value).observed metricName =
      push detector.windowSize (detector.observed metricName) value := by
  rw [observed, addObservation, get_insert, Option.getD_some]

theorem observed_addObservation_other {other : String} (apart : other ≠ metricName) :
    (detector.addObservation metricName value).observed other = detector.observed other := by
  rw [observed, observed, addObservation, KeyedValues.get, KeyedValues.get,
    AList.lookup_insert_ne apart]

end SimpleMovingAverageDetector

namespace AdaptiveThresholdDetector

variable (detector : AdaptiveThresholdDetector F) (metricName : String) (value : F)
  (timestamp : Datetime)

theorem observed_addObservation_self :
    (detector.addObservation metricName value timestamp).observed metricName =
      push 30 (detector.observed metricName) (timestamp, value) := by
  rw [observed, addObservation, get_insert, Option.getD_some]

theorem observed_addObservation_other {other : String} (apart : other ≠ metricName) :
    (detector.addObservation metricName value timestamp).observed other =
      detector.observed other := by
  rw [observed, observed, addObservation, KeyedValues.get, KeyedValues.get,
    AList.lookup_insert_ne apart]

end AdaptiveThresholdDetector

namespace AnomalyDetectionEngine

variable {engine other : AnomalyDetectionEngine F} {check : MetricCheck F} {metricName : String}

def recorded (past : List (MetricCheck F × Except String (AnomalyResult F))) :
    List (MetricCheck F) :=
  (past.filter (fun entry => entry.2.isOk)).map Prod.fst

def ofMetric (metricName : String) (checks : List (MetricCheck F)) : List (MetricCheck F) :=
  checks.filter (fun check => check.metricName = metricName)

theorem ofMetric_concat (metricName : String) (checks : List (MetricCheck F))
    (check : MetricCheck F) : ofMetric metricName (checks ++ [check]) =
      if check.metricName = metricName then ofMetric metricName checks ++ [check]
      else ofMetric metricName checks := by
  unfold ofMetric
  split
  · rename_i here
    rw [List.filter_append, List.filter_cons_of_pos (by simpa using here), List.filter_nil]
  · rename_i apart
    rw [List.filter_append, List.filter_cons_of_neg (by simpa using apart), List.filter_nil,
      List.append_nil]

def observation (check : MetricCheck F) : Datetime × F :=
  (check.timestamp.getD check.later, check.currentValue)

theorem recorded_concat (past : List (MetricCheck F × Except String (AnomalyResult F)))
    (check : MetricCheck F) (answer : Except String (AnomalyResult F)) :
    recorded (past ++ [(check, answer)]) =
      if answer.isOk then recorded past ++ [check] else recorded past := by
  rw [recorded, recorded, List.filter_append, List.map_append]
  cases answer with
  | error exc => exact List.append_nil _
  | ok result => rfl

structure Baselines (checks : List (MetricCheck F)) (engine : AnomalyDetectionEngine F) :
    Prop where
  windowSize : engine.ewmaDetector.windowSize = 14
  minObservations : engine.adaptiveDetector.minObservations = 7
  ewma : ∀ metricName, engine.ewmaDetector.observed metricName =
    ((ofMetric metricName checks).map MetricCheck.currentValue).rtake 14
  daily : ∀ metricName, engine.adaptiveDetector.observed metricName =
    ((ofMetric metricName checks).map observation).rtake 30
  hourly : ∀ hour, engine.adaptiveDetector.hourlyHistory hour =
    ((checks.map observation).filter (fun entry => entry.1.hour = hour)).rtake 500

theorem Baselines.record {checks : List (MetricCheck F)} (baselines : Baselines checks engine)
    (check : MetricCheck F) : Baselines (checks ++ [check]) (engine.record check) where
  windowSize := baselines.windowSize
  minObservations := baselines.minObservations
  ewma metricName := by
    rw [ofMetric_concat]
    split
    · rename_i here
      rw [← here, AnomalyDetectionEngine.record, SimpleMovingAverageDetector.observed_addObservation_self,
        baselines.windowSize, baselines.ewma, List.map_append]
      exact push_rtake (by decide) _ _
    · rename_i apart
      rw [← baselines.ewma]
      exact SimpleMovingAverageDetector.observed_addObservation_other _ _ _ (Ne.symm apart)
  daily metricName := by
    rw [ofMetric_concat]
    split
    · rename_i here
      rw [← here, AnomalyDetectionEngine.record, AdaptiveThresholdDetector.observed_addObservation_self,
        baselines.daily, List.map_append]
      exact push_rtake (by decide) _ _
    · rename_i apart
      rw [← baselines.daily]
      exact AdaptiveThresholdDetector.observed_addObservation_other _ _ _ _ (Ne.symm apart)
  hourly hour := by
    rw [List.map_append, List.filter_append]
    change Function.update engine.adaptiveDetector.hourlyHistory (observation check).1.hour
      (push 500 (engine.adaptiveDetector.hourlyHistory (observation check).1.hour)
        (observation check)) hour = _
    by_cases here : (observation check).1.hour = hour
    · rw [here, Function.update_self, baselines.hourly]
      have one : ([check].map observation).filter (fun entry => entry.1.hour = hour) =
          [observation check] := by simp [here]
      rw [one]
      exact push_rtake (by decide) _ _
    · rw [Function.update_of_ne (Ne.symm here), baselines.hourly]
      simp [here]

/-- The two engines know the same about one metric. -/
structure SameAbout (metricName : String) (engine other : AnomalyDetectionEngine F) : Prop where
  strategy : engine.strategy = other.strategy
  windowSize : engine.ewmaDetector.windowSize = other.ewmaDetector.windowSize
  threshold : engine.ewmaDetector.deviationThreshold = other.ewmaDetector.deviationThreshold
  minObservations :
    engine.adaptiveDetector.minObservations = other.adaptiveDetector.minObservations
  ewma : get engine.ewmaDetector.history metricName = get other.ewmaDetector.history metricName
  daily : get engine.adaptiveDetector.dailyHistory metricName =
    get other.adaptiveDetector.dailyHistory metricName

namespace SameAbout

theorem record (same : SameAbout check.metricName engine other) :
    SameAbout check.metricName (engine.record check) (other.record check) where
  strategy := same.strategy
  windowSize := same.windowSize
  threshold := same.threshold
  minObservations := same.minObservations
  ewma := by
    unfold AnomalyDetectionEngine.record SimpleMovingAverageDetector.addObservation
      SimpleMovingAverageDetector.observed
    rw [get_insert, get_insert, same.windowSize, same.ewma]
  daily := by
    unfold AnomalyDetectionEngine.record AdaptiveThresholdDetector.addObservation
      AdaptiveThresholdDetector.observed
    rw [get_insert, get_insert, same.daily]

theorem record_other (same : SameAbout metricName engine other)
    (apart : check.metricName ≠ metricName) : SameAbout metricName (engine.record check) other where
  strategy := same.strategy
  windowSize := same.windowSize
  threshold := same.threshold
  minObservations := same.minObservations
  ewma := by
    rw [← same.ewma]
    exact AList.lookup_insert_ne (Ne.symm apart)
  daily := by
    rw [← same.daily]
    exact AList.lookup_insert_ne (Ne.symm apart)

end SameAbout

end AnomalyDetectionEngine

variable [Float64 F]

namespace SimpleMovingAverageDetector

def valuesOf (metricName : String) (observations : List (String × F)) : List F :=
  (observations.filter (fun entry => entry.1 = metricName)).map Prod.snd

/-- After any observations of any metrics a window of positive size has the last values of each
    metric, a window of size 0 has all values, and one of negative size none. -/
theorem observed_run (windowSize : Int) (deviationThreshold : F) (observations : List (String × F))
    (metricName : String) :
    (observations.foldl (fun detector entry => detector.addObservation entry.1 entry.2)
        (new windowSize deviationThreshold)).observed metricName =
      kept windowSize (valuesOf metricName observations) := by
  have sized : ∀ observations : List (String × F),
      (observations.foldl (fun detector entry => detector.addObservation entry.1 entry.2)
        (new windowSize deviationThreshold)).windowSize = windowSize := by
    intro observations
    induction observations using List.reverseRecOn with
    | nil => rfl
    | append_singleton before entry ih =>
      rw [List.foldl_append, List.foldl_cons, List.foldl_nil, addObservation, ih]
  induction observations using List.reverseRecOn with
  | nil => exact foldl_push windowSize []
  | append_singleton before entry ih =>
    obtain ⟨name, value⟩ := entry
    rw [List.foldl_append, List.foldl_cons, List.foldl_nil, valuesOf, List.filter_append,
      List.map_append]
    by_cases here : name = metricName
    · rw [here, observed_addObservation_self, ih, sized, push_kept]
      simp [valuesOf]
    · rw [observed_addObservation_other _ _ _ (Ne.symm here), ih]
      simp [valuesOf, here]

theorem detectAnomaly_flags {env : Statistics F} {detector : SimpleMovingAverageDetector F}
    {metricName : String} {currentValue : F} {result : AnomalyResult F}
    (detected : detector.detectAnomaly env metricName currentValue = .ok result)
    (flagged : result.isAnomaly = true) : 3 ≤ (detector.observed metricName).length := by
  by_contra short
  rw [detectAnomaly, if_pos (Nat.lt_of_not_le short)] at detected
  rw [← Except.ok.inj detected] at flagged
  cases flagged

end SimpleMovingAverageDetector

namespace AdaptiveThresholdDetector

theorem detectSeasonalAnomaly_flags {env : Statistics F} {detector : AdaptiveThresholdDetector F}
    {metricName : String} {currentValue : F} {timestamp : Datetime} {result : AnomalyResult F}
    (detected : detector.detectSeasonalAnomaly env metricName currentValue timestamp = .ok result)
    (flagged : result.isAnomaly = true) :
    detector.minObservations ≤ (detector.observed metricName).length := by
  by_contra short
  unfold detectSeasonalAnomaly at detected
  unfold observed at short
  split at detected
  · rw [← Except.ok.inj detected] at flagged
    cases flagged
  · rename_i history found
    rw [found, Option.getD_some] at short
    rw [if_pos (Int.lt_of_not_ge short)] at detected
    rw [← Except.ok.inj detected] at flagged
    cases flagged

theorem detectHourlyAnomaly_flags {env : Statistics F} {detector : AdaptiveThresholdDetector F}
    {currentValue : F} {timestamp : Datetime} {result : AnomalyResult F}
    (detected : detector.detectHourlyAnomaly env currentValue timestamp = .ok result)
    (flagged : result.isAnomaly = true) :
    detector.minObservations ≤ (detector.hourlyHistory timestamp.hour).length := by
  by_contra short
  rw [detectHourlyAnomaly, if_pos (by rw [List.length_map]; exact Int.lt_of_not_ge short)]
    at detected
  rw [← Except.ok.inj detected] at flagged
  cases flagged

end AdaptiveThresholdDetector

namespace AnomalyDetectionEngine

variable {env : Statistics F} {engine : AnomalyDetectionEngine F}

theorem checkMetric_cases (env : Statistics F) (check : MetricCheck F)
    (engine : AnomalyDetectionEngine F) :
    (∃ exc, checkMetric env check engine = (.error exc, engine)) ∨
      ∃ result, engine.detect env check = .ok result ∧
        checkMetric env check engine = (.ok result, engine.record check) := by
  unfold checkMetric
  cases engine.detect env check with
  | error exc => exact .inl ⟨exc, rfl⟩
  | ok result => exact .inr ⟨result, rfl, rfl⟩

/-- Whatever metrics are checked in whatever order, the baselines of a metric are its own last
    values and those of an hour the last values of that hour. -/
theorem baselines_run (env : Statistics F) (strategy : Strategy) (checks : List (MetricCheck F)) :
    Baselines (recorded (transcript (checkMetric env) checks (new strategy)))
      (run (checkMetric env) checks (new strategy)).2 := by
  have fresh : Baselines [] (new strategy : AnomalyDetectionEngine F) :=
    ⟨rfl, rfl, fun _ => rfl, fun _ => rfl, fun _ => (List.rtake_nil 500).symm⟩
  apply run_logged (fun past engine => Baselines (recorded past) engine) _ fresh
  intro past check engine baselines
  rw [recorded_concat]
  rcases checkMetric_cases env check engine with ⟨exc, raised⟩ | ⟨result, -, answered⟩
  · rw [raised]
    exact baselines
  · rw [answered]
    exact baselines.record check

theorem SameAbout.detect {check : MetricCheck F} {other : AnomalyDetectionEngine F}
    (same : SameAbout check.metricName engine other) :
    engine.detect env check = other.detect env check := by
  unfold AnomalyDetectionEngine.detect SimpleMovingAverageDetector.detectAnomaly
    AdaptiveThresholdDetector.detectSeasonalAnomaly SimpleMovingAverageDetector.observed
  rw [same.strategy, same.threshold, same.minObservations, same.ewma, same.daily]

/-- Under every strategy the answers about a metric are those of an engine that is asked about this
    metric alone. -/
theorem answers_own (env : Statistics F) (strategy : Strategy) (checks : List (MetricCheck F))
    (metricName : String) :
    (transcript (checkMetric env) checks (new strategy)).filter
        (fun entry => entry.1.metricName = metricName) =
      transcript (checkMetric env) (ofMetric metricName checks) (new strategy) := by
  have fresh : SameAbout metricName (new strategy : AnomalyDetectionEngine F) (new strategy) :=
    ⟨rfl, rfl, rfl, rfl, rfl, rfl⟩
  apply (run_filter (fun check => decide (check.metricName = metricName)) (SameAbout metricName)
    _ _ checks fresh).1
  · intro check engine other mine same
    rw [← of_decide_eq_true mine] at same ⊢
    have detected : engine.detect env check = other.detect env check := same.detect
    unfold checkMetric
    rw [detected]
    cases other.detect env check with
    | error exc => exact ⟨rfl, same⟩
    | ok result => exact ⟨rfl, same.record⟩
  · intro check engine other apart same
    rcases checkMetric_cases env check engine with ⟨exc, raised⟩ | ⟨result, -, answered⟩
    · rw [raised]
      exact same
    · rw [answered]
      exact same.record_other (of_decide_eq_false apart)

theorem detect_flags {check : MetricCheck F} {result : AnomalyResult F}
    (detected : engine.detect env check = .ok result) (flagged : result.isAnomaly = true) :
    (engine.strategy ≠ .adaptive →
        3 ≤ (engine.ewmaDetector.observed check.metricName).length) ∧
      (engine.strategy ≠ .ewma → engine.adaptiveDetector.minObservations ≤
        (engine.adaptiveDetector.observed check.metricName).length) := by
  unfold detect at detected
  cases strategy : engine.strategy with
  | ewma =>
    rw [strategy] at detected
    exact ⟨fun _ => SimpleMovingAverageDetector.detectAnomaly_flags detected flagged,
      fun other => absurd rfl other⟩
  | adaptive =>
    rw [strategy] at detected
    exact ⟨fun other => absurd rfl other,
      fun _ => AdaptiveThresholdDetector.detectSeasonalAnomaly_flags detected flagged⟩
  | hybrid =>
    rw [strategy] at detected
    obtain ⟨result1, byEwma, rest⟩ := (Results.bind_ok_iff _ _ _).mp detected
    obtain ⟨result2, bySeason, both⟩ := (Results.bind_ok_iff _ _ _).mp rest
    rw [← Except.ok.inj both] at flagged
    obtain ⟨flagged1, flagged2⟩ := Bool.and_eq_true_iff.mp flagged
    exact ⟨fun _ => SimpleMovingAverageDetector.detectAnomaly_flags byEwma flagged1,
      fun _ => AdaptiveThresholdDetector.detectSeasonalAnomaly_flags bySeason flagged2⟩

theorem strategy_run (env : Statistics F) (checks : List (MetricCheck F))
    (engine : AnomalyDetectionEngine F) :
    (run (checkMetric env) checks engine).2.strategy = engine.strategy := by
  induction checks generalizing engine with
  | nil => rfl
  | cons check rest ih =>
    rw [run, ih]
    rcases checkMetric_cases env check engine with ⟨exc, raised⟩ | ⟨result, -, answered⟩
    · rw [raised]
    · rw [answered]
      rfl

/-- Before a check is flagged enough checks of its metric have been recorded. -/
theorem flagged_after (env : Statistics F) (strategy : Strategy) (before : List (MetricCheck F))
    (check : MetricCheck F) (result : AnomalyResult F)
    (answered : (checkMetric env check (run (checkMetric env) before (new strategy)).2).1 =
      .ok result)
    (flagged : result.isAnomaly = true) :
    (strategy ≠ .adaptive → 3 ≤ (ofMetric check.metricName
        (recorded (transcript (checkMetric env) before (new strategy)))).length) ∧
      (strategy ≠ .ewma → 7 ≤ (ofMetric check.metricName
        (recorded (transcript (checkMetric env) before (new strategy)))).length) := by
  have baselines := baselines_run env strategy before
  have named : (run (checkMetric env) before (new strategy)).2.strategy = strategy :=
    strategy_run env before (new strategy)
  generalize (run (checkMetric env) before (new strategy)).2 = engine at *
  have detected : engine.detect env check = .ok result := by
    rcases checkMetric_cases env check engine with ⟨exc, raised⟩ | ⟨other, detected, returned⟩
    · rw [raised] at answered
      cases answered
    · rw [returned] at answered
      rw [detected]
      exact answered
  obtain ⟨byEwma, bySeason⟩ := detect_flags detected flagged
  rw [named, baselines.ewma] at byEwma
  rw [named, baselines.daily, baselines.minObservations] at bySeason
  have shorter : ∀ {α : Type} (n : Nat) (xs : List α), (xs.rtake n).length ≤ xs.length :=
    fun n xs => (List.drop_sublist _ xs).length_le
  constructor
  · intro other
    have enough := (byEwma other).trans (shorter 14 _)
    rwa [List.length_map] at enough
  · intro other
    have enough := bySeason other
    have less := shorter 30 ((ofMetric check.metricName
      (recorded (transcript (checkMetric env) before (new strategy)))).map observation)
    rw [List.length_map] at less
    omega

/-- The functions of `statistics` on exact numbers. -/
def exactStatistics : Statistics ExtRat where
  mean values := .ok (Float64.sum values / Float64.ofNat values.length)
  stdev values :=
    let mean := Float64.sum values / Float64.ofNat values.length
    .ok (Float64.sqrt (Float64.sum (values.map fun v => (v - mean) * (v - mean)) /
      Float64.ofNat (values.length - 1)))
  fixed _ := "0.0"

def rowCount (rows : ℚ) : MetricCheck ExtRat := ⟨"rows", .fin rows, some ⟨0⟩, ⟨0⟩, ⟨0⟩⟩

theorem flagged_after_three :
    3 ≤ (ofMetric "rows" (recorded (transcript (checkMetric exactStatistics)
      [rowCount 5, rowCount 5, rowCount 5] (new .ewma)))).length := by
  have alarm : (checkMetric exactStatistics (rowCount 9) (run (checkMetric exactStatistics)
      [rowCount 5, rowCount 5, rowCount 5] (new .ewma)).2).1.toOption.any
        AnomalyResult.isAnomaly = true := by decide +kernel
  obtain ⟨result, answered, flagged⟩ := Results.ok_of_any _ _ alarm
  exact (flagged_after exactStatistics .ewma [rowCount 5, rowCount 5, rowCount 5] (rowCount 9)
    result answered flagged).1 (by decide)

def withStrategy (engine : AnomalyDetectionEngine F) (strategy : Strategy) :
    AnomalyDetectionEngine F := { engine with strategy := strategy }

/-- A check that the hybrid strategy answers is answered by both of the others, and all three
    record it alike. -/
theorem checkMetric_hybrid {check : MetricCheck F} (hybrid : engine.strategy = .hybrid)
    (fine : (checkMetric env check engine).1.isOk = true) :
    ∃ result1 result2,
      checkMetric env check (engine.withStrategy .ewma) =
          (.ok result1, (engine.record check).withStrategy .ewma) ∧
        checkMetric env check (engine.withStrategy .adaptive) =
          (.ok result2, (engine.record check).withStrategy .adaptive) ∧
        checkMetric env check engine =
          (.ok (hybridResult result1 result2 check.metricName check.currentValue),
            engine.record check) := by
  rcases checkMetric_cases env check engine with ⟨exc, raised⟩ | ⟨result, detected, answered⟩
  · rw [raised] at fine
    cases fine
  · have both := detected
    unfold detect at both
    rw [hybrid] at both
    obtain ⟨result1, byEwma, rest⟩ := (Results.bind_ok_iff _ _ _).mp both
    obtain ⟨result2, bySeason, combined⟩ := (Results.bind_ok_iff _ _ _).mp rest
    refine ⟨result1, result2, ?_, ?_, ?_⟩
    · have alone : (engine.withStrategy .ewma).detect env check = .ok result1 := byEwma
      rw [checkMetric, alone]
      rfl
    · have alone : (engine.withStrategy .adaptive).detect env check = .ok result2 := bySeason
      rw [checkMetric, alone]
      rfl
    · rw [answered, ← Except.ok.inj combined]

/-- As long as no check raises, the three engines are in one state but for their strategy. -/
theorem run_hybrid (checks : List (MetricCheck F)) (engine : AnomalyDetectionEngine F)
    (hybrid : engine.strategy = .hybrid)
    (fine : ∀ entry ∈ transcript (checkMetric env) checks engine, entry.2.isOk = true) :
    ∀ strategy ∈ [Strategy.ewma, .adaptive],
      (run (checkMetric env) checks (engine.withStrategy strategy)).2 =
        (run (checkMetric env) checks engine).2.withStrategy strategy := by
  induction checks generalizing engine with
  | nil => exact fun strategy _ => rfl
  | cons check rest ih =>
    rw [transcript_cons] at fine
    obtain ⟨result1, result2, byEwma, bySeason, both⟩ :=
      checkMetric_hybrid hybrid (fine _ List.mem_cons_self)
    rw [both] at fine
    have later := ih (engine.record check) hybrid
      (fun entry member => fine entry (List.mem_cons_of_mem _ member))
    intro strategy member
    have stepped : (checkMetric env check (engine.withStrategy strategy)).2 =
        (engine.record check).withStrategy strategy := by
      rcases List.mem_cons.mp member with first | second
      · rw [first, byEwma]
      · rw [List.mem_singleton.mp second, bySeason]
    rw [run, run, stepped, both]
    exact later strategy member

/-- On the same checks the hybrid engine flags just what both of the others flag, and answers the
    mean of their predictions with the larger confidence. -/
theorem hybrid_answers (env : Statistics F) (before : List (MetricCheck F)) (check : MetricCheck F)
    (fine : ∀ entry ∈ transcript (checkMetric env) (before ++ [check]) (new .hybrid),
      entry.2.isOk = true) :
    ∃ result1 result2,
      (checkMetric env check (run (checkMetric env) before (new .ewma)).2).1 = .ok result1 ∧
        (checkMetric env check (run (checkMetric env) before (new .adaptive)).2).1 =
          .ok result2 ∧
        (checkMetric env check (run (checkMetric env) before (new .hybrid)).2).1 =
          .ok (hybridResult result1 result2 check.metricName check.currentValue) := by
  rw [transcript_append] at fine
  have states := run_hybrid before (new .hybrid) rfl
    (fun entry member => fine entry (List.mem_append_left _ member))
  have last : (checkMetric env check (run (checkMetric env) before (new .hybrid)).2).1.isOk =
      true := fine (check, _) (List.mem_append_right _ List.mem_cons_self)
  have hybrid := strategy_run env before (new .hybrid : AnomalyDetectionEngine F)
  obtain ⟨result1, result2, byEwma, bySeason, both⟩ := checkMetric_hybrid hybrid last
  refine ⟨result1, result2, ?_, ?_, ?_⟩
  · have state := states .ewma List.mem_cons_self
    change (run (checkMetric env) before (new .ewma)).2 = _ at state
    rw [state, byEwma]
  · have state := states .adaptive (List.mem_cons_of_mem _ List.mem_cons_self)
    change (run (checkMetric env) before (new .adaptive)).2 = _ at state
    rw [state, bySeason]
  · rw [both]

theorem hybrid_answers_fourth : ∃ result1 result2,
    (checkMetric exactStatistics (rowCount 9) (run (checkMetric exactStatistics)
      [rowCount 5, rowCount 5, rowCount 5] (new .ewma)).2).1 = .ok result1 ∧
    (checkMetric exactStatistics (rowCount 9) (run (checkMetric exactStatistics)
      [rowCount 5, rowCount 5, rowCount 5] (new .adaptive)).2).1 = .ok result2 ∧
    (checkMetric exactStatistics (rowCount 9) (run (checkMetric exactStatistics)
      [rowCount 5, rowCount 5, rowCount 5] (new .hybrid)).2).1 =
        .ok (hybridResult result1 result2 "rows" (.fin 9)) :=
  hybrid_answers exactStatistics [rowCount 5, rowCount 5, rowCount 5] (rowCount 9)
    (by decide +kernel)

theorem batchCheck_ok_iff (env : Statistics F) (checks : List (MetricCheck F))
    (engine after : AnomalyDetectionEngine F) (results : List (AnomalyResult F)) :
    batchCheck env checks engine = (.ok results, after) ↔
      run (checkMetric env) checks engine = (results.map .ok, after) := by
  induction checks generalizing engine results with
  | nil =>
    simp only [batchCheck, run, Prod.mk.injEq, Except.ok.injEq]
    constructor
    · rintro ⟨rfl, rfl⟩
      exact ⟨rfl, rfl⟩
    · rintro ⟨none, rfl⟩
      exact ⟨(List.map_eq_nil_iff.mp none.symm).symm, rfl⟩
  | cons check rest ih =>
    rw [batchCheck, run]
    rcases checkMetric_cases env check engine with ⟨exc, raised⟩ | ⟨result, -, answered⟩
    · rw [raised]
      constructor
      · intro failed
        cases failed
      · intro ran
        cases results with
        | nil => cases ran
        | cons => cases ran
    · rw [answered]
      constructor
      · intro batch
        obtain ⟨mapped, state⟩ := Prod.mk.inj batch
        obtain ⟨others, ran, same⟩ := (Results.map_ok_iff _ _ _).mp mapped
        have later := (ih (engine.record check) others).mp (by rw [← ran, ← state])
        rw [later, ← same]
        rfl
      · intro ran
        obtain ⟨outputs, state⟩ := Prod.mk.inj ran
        cases results with
        | nil => cases outputs
        | cons first others =>
          obtain ⟨head, tail⟩ := List.cons.inj outputs
          have later := (ih (engine.record check) others).mpr (by rw [← tail, ← state])
          dsimp only
          rw [later, Except.ok.inj head]
          rfl

end AnomalyDetectionEngine

end StatGuardian.Py.Anomaly
