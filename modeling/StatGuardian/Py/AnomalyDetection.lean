import StatGuardian.Library.KeyedValues
import StatGuardian.Library.MachineRuns
import StatGuardian.Library.RecentValues
import StatGuardian.Runtime.Float64

namespace StatGuardian.Py.Anomaly

open KeyedValues RecentValues

variable {F : Type} [Float64 F]

/-- What the module takes from the standard library: `statistics.mean`, `statistics.stdev` (both
    may raise) and the format `.1f`. -/
structure Statistics (F : Type) where
  mean : List F → Except String F
  stdev : List F → Except String F
  fixed : F → String

structure Datetime where
  seconds : Nat
  deriving DecidableEq, Repr

namespace Datetime

def hour (timestamp : Datetime) : Fin 24 := ⟨timestamp.seconds / 3600 % 24, Nat.mod_lt _ (by decide)⟩

/-- `strftime("%A")` -/
def dayName (timestamp : Datetime) : String :=
  match timestamp.seconds / 86400 % 7 with
  | 0 => "Monday"
  | 1 => "Tuesday"
  | 2 => "Wednesday"
  | 3 => "Thursday"
  | 4 => "Friday"
  | 5 => "Saturday"
  | _ => "Sunday"

end Datetime

structure AnomalyResult (F : Type) where
  metricName : String
  currentValue : F
  predictedValue : F
  deviation : F
  isAnomaly : Bool
  confidence : F
  reason : String

/-- `min(a, b)` and `max(a, b)` of Python: the first one unless the second is on the right side. -/
def pyMin (a b : F) : F := if Float64.lt b a then b else a

def pyMax (a b : F) : F := if Float64.gt b a then b else a

def two : F := Float64.ofNat 2

def twoAndHalf : F := Float64.ofRat (5 / 2)

def insufficient (metricName : String) (currentValue : F) (reason : String) : AnomalyResult F where
  metricName := metricName
  currentValue := currentValue
  predictedValue := currentValue
  deviation := Float64.zero
  isAnomaly := false
  confidence := Float64.zero
  reason := reason

structure SimpleMovingAverageDetector (F : Type) where
  windowSize : Int
  deviationThreshold : F
  history : Map String (List F)

namespace SimpleMovingAverageDetector

def new (windowSize : Int := 14) (deviationThreshold : F := twoAndHalf) :
    SimpleMovingAverageDetector F :=
  ⟨windowSize, deviationThreshold, ∅⟩

def observed (detector : SimpleMovingAverageDetector F) (metricName : String) : List F :=
  (get detector.history metricName).getD []

def addObservation (detector : SimpleMovingAverageDetector F) (metricName : String) (value : F) :
    SimpleMovingAverageDetector F :=
  { detector with
    history := detector.history.insert metricName
      (push detector.windowSize (detector.observed metricName) value) }

def getReason (env : Statistics F) (zScore : F) : String :=
  let shown := env.fixed zScore
  if Float64.lt zScore two then "Normal variation within expected range"
  else if Float64.lt zScore twoAndHalf then s!"Elevated deviation ({shown}σ) but may be normal"
  else if Float64.lt zScore (Float64.ofNat 3) then
    s!"Strong anomaly detected ({shown}σ from mean)"
  else s!"Extreme anomaly detected ({shown}σ from mean)"

def ewma (history : List F) : F :=
  let alpha : F := Float64.ofRat (2 / (history.length + 1))
  match history with
  | [] => Float64.zero
  | first :: rest => rest.foldl (fun ewma val => alpha * val + (Float64.one - alpha) * ewma) first

def detectAnomaly (env : Statistics F) (detector : SimpleMovingAverageDetector F)
    (metricName : String) (currentValue : F) : Except String (AnomalyResult F) :=
  let history := detector.observed metricName
  if history.length < 3 then
    .ok (insufficient metricName currentValue "Insufficient historical data")
  else do
    let mean ← env.mean history
    let stdev ← env.stdev history
    let zScore := Float64.abs (currentValue - mean) / stdev
    let (isAnomaly, confidence) ←
      if Float64.eq stdev Float64.zero then
        let isAnomaly := !Float64.eq currentValue mean
        .ok (isAnomaly, if isAnomaly then Float64.one else Float64.zero)
      else if Float64.eq (detector.deviationThreshold * two) Float64.zero then
        .error "division by zero"
      else
        .ok (Float64.gt zScore detector.deviationThreshold,
          pyMin Float64.one (zScore / (detector.deviationThreshold * two)))
    .ok
      { metricName := metricName
        currentValue := currentValue
        predictedValue := ewma history
        deviation := Float64.abs (currentValue - ewma history)
        isAnomaly := isAnomaly
        confidence := confidence
        reason := getReason env
          (if Float64.gt stdev Float64.zero then zScore else Float64.zero) }

end SimpleMovingAverageDetector

structure AdaptiveThresholdDetector (F : Type) where
  minObservations : Int
  hourlyHistory : Fin 24 → List (Datetime × F)
  dailyHistory : Map String (List (Datetime × F))

namespace AdaptiveThresholdDetector

def new (minObservations : Int := 7) : AdaptiveThresholdDetector F :=
  ⟨minObservations, fun _ => [], ∅⟩

def observed (detector : AdaptiveThresholdDetector F) (metricName : String) : List (Datetime × F) :=
  (get detector.dailyHistory metricName).getD []

def addObservation (detector : AdaptiveThresholdDetector F) (metricName : String) (value : F)
    (timestamp : Datetime) : AdaptiveThresholdDetector F :=
  { detector with
    dailyHistory := detector.dailyHistory.insert metricName
      (push 30 (detector.observed metricName) (timestamp, value))
    hourlyHistory := Function.update detector.hourlyHistory timestamp.hour
      (push 500 (detector.hourlyHistory timestamp.hour) (timestamp, value)) }

/-- `statistics.stdev(values) if len(values) > 1 else other` -/
def spread (env : Statistics F) (values : List F) (other : F) : Except String F :=
  if 1 < values.length then env.stdev values else .ok other

/-- How far a value is from what is expected, and whether that is an anomaly. -/
def verdict (currentValue expected stdev : F) : Bool × F :=
  if Float64.eq stdev Float64.zero then (!Float64.eq currentValue expected, Float64.zero)
  else
    let zScore := Float64.abs (currentValue - expected) / stdev
    (Float64.gt zScore twoAndHalf, zScore)

def detectSeasonalAnomaly (env : Statistics F) (detector : AdaptiveThresholdDetector F)
    (metricName : String) (currentValue : F) (timestamp : Datetime) :
    Except String (AnomalyResult F) :=
  match get detector.dailyHistory metricName with
  | none => .ok (insufficient metricName currentValue "Insufficient seasonal data")
  | some history =>
    if history.length < detector.minObservations then
      .ok (insufficient metricName currentValue "Insufficient seasonal data")
    else do
      let values := history.map Prod.snd
      let mean ← env.mean values
      let stdev ← spread env values Float64.zero
      let dayName := timestamp.dayName
      let sameDayValues := (history.filter (fun entry => entry.1.dayName = dayName)).map Prod.snd
      let (seasonalMean, seasonalStdev) ←
        if sameDayValues.isEmpty then .ok (mean, stdev)
        else do
          let seasonalMean ← env.mean sameDayValues
          let seasonalStdev ← spread env sameDayValues stdev
          .ok (seasonalMean, seasonalStdev)
      let (isAnomaly, zScore) := verdict currentValue seasonalMean seasonalStdev
      let shown := env.fixed zScore
      .ok
        { metricName := metricName
          currentValue := currentValue
          predictedValue := seasonalMean
          deviation := Float64.abs (currentValue - seasonalMean)
          isAnomaly := isAnomaly
          confidence := pyMin Float64.one (zScore / Float64.ofNat 5)
          reason := s!"Seasonal analysis: {dayName} pattern (σ={shown})" }

def detectHourlyAnomaly (env : Statistics F) (detector : AdaptiveThresholdDetector F)
    (currentValue : F) (timestamp : Datetime) : Except String (AnomalyResult F) :=
  let hour := timestamp.hour
  let values := (detector.hourlyHistory hour).map Prod.snd
  let metricName := s!"hour_{hour.val}"
  if values.length < detector.minObservations then
    .ok (insufficient metricName currentValue s!"Insufficient data for hour {hour.val}")
  else do
    let hourlyMean ← env.mean values
    let hourlyStdev ← spread env values Float64.zero
    let (isAnomaly, zScore) := verdict currentValue hourlyMean hourlyStdev
    let shown := env.fixed zScore
    .ok
      { metricName := metricName
        currentValue := currentValue
        predictedValue := hourlyMean
        deviation := Float64.abs (currentValue - hourlyMean)
        isAnomaly := isAnomaly
        confidence := pyMin Float64.one (zScore / Float64.ofNat 5)
        reason := s!"Hourly analysis: hour {hour.val} pattern (σ={shown})" }

end AdaptiveThresholdDetector

/-- Any name of a strategy but the first two is the hybrid one. -/
inductive Strategy where
  | ewma
  | adaptive
  | hybrid
  deriving DecidableEq, Repr

structure AnomalyDetectionEngine (F : Type) where
  strategy : Strategy
  ewmaDetector : SimpleMovingAverageDetector F
  adaptiveDetector : AdaptiveThresholdDetector F

/-- A call of `check_metric`, with the two readings of the clock for a call without timestamp. -/
structure MetricCheck (F : Type) where
  metricName : String
  currentValue : F
  timestamp : Option Datetime
  now : Datetime
  later : Datetime

namespace AnomalyDetectionEngine

def new (strategy : Strategy) : AnomalyDetectionEngine F := ⟨strategy, .new, .new⟩

def hybridResult (result1 result2 : AnomalyResult F) (metricName : String) (currentValue : F) :
    AnomalyResult F where
  metricName := metricName
  currentValue := currentValue
  predictedValue := (result1.predictedValue + result2.predictedValue) / two
  deviation := (result1.deviation + result2.deviation) / two
  isAnomaly := result1.isAnomaly && result2.isAnomaly
  confidence := pyMax result1.confidence result2.confidence
  reason := s!"Hybrid: EWMA({result1.reason}) + Seasonal({result2.reason})"

def detect (env : Statistics F) (engine : AnomalyDetectionEngine F) (check : MetricCheck F) :
    Except String (AnomalyResult F) :=
  let byEwma := engine.ewmaDetector.detectAnomaly env check.metricName check.currentValue
  let bySeason := engine.adaptiveDetector.detectSeasonalAnomaly env check.metricName
    check.currentValue (check.timestamp.getD check.now)
  match engine.strategy with
  | .ewma => byEwma
  | .adaptive => bySeason
  | .hybrid => do
    let result1 ← byEwma
    let result2 ← bySeason
    .ok (hybridResult result1 result2 check.metricName check.currentValue)

def record (engine : AnomalyDetectionEngine F) (check : MetricCheck F) :
    AnomalyDetectionEngine F :=
  { engine with
    ewmaDetector := engine.ewmaDetector.addObservation check.metricName check.currentValue
    adaptiveDetector := engine.adaptiveDetector.addObservation check.metricName
      check.currentValue (check.timestamp.getD check.later) }

/-- A detection that raises records nothing. -/
def checkMetric (env : Statistics F) (check : MetricCheck F) (engine : AnomalyDetectionEngine F) :
    Except String (AnomalyResult F) × AnomalyDetectionEngine F :=
  match engine.detect env check with
  | .error exc => (.error exc, engine)
  | .ok result => (.ok result, engine.record check)

/-- The metrics in the order of the dictionary. -/
def batchCheck (env : Statistics F) :
    List (MetricCheck F) → AnomalyDetectionEngine F →
      Except String (List (AnomalyResult F)) × AnomalyDetectionEngine F
  | [], engine => (.ok [], engine)
  | check :: rest, engine =>
    match checkMetric env check engine with
    | (.error exc, after) => (.error exc, after)
    | (.ok result, after) =>
      ((batchCheck env rest after).1.map (result :: ·), (batchCheck env rest after).2)

end AnomalyDetectionEngine

end StatGuardian.Py.Anomaly
