import StatGuardian.Stats.Drift
import StatGuardian.Stats.Profiler
import StatGuardian.Validators.Violation

namespace StatGuardian.Metrics

open StatGuardian.Core Stats Validators

structure DatasetHealthScore (F : Type) where
  score : F
  schemaScore : F
  qualityScore : F
  driftScore : F
  grade : String
  deriving Repr

variable {F : Type} [Float64 F]

def gradeOf (score : F) : String :=
  if Float64.ge score (Float64.ofRat (95 / 100)) then "A"
  else if Float64.ge score (Float64.ofRat (85 / 100)) then "B"
  else if Float64.ge score (Float64.ofRat (70 / 100)) then "C"
  else if Float64.ge score (Float64.ofRat (50 / 100)) then "D"
  else "F"

/-- `f64::clamp`, which leaves a NaN alone. -/
def clamp (x lo hi : F) : F :=
  if Float64.lt x lo then lo else if Float64.gt x hi then hi else x

def DatasetHealthScore.compute (violations : List (Violation F))
    (driftResults : List (DriftResult F)) (totalChecks : Nat) : DatasetHealthScore F :=
  let blocking := violations.countP (·.severity == .blocking)
  let errors := violations.countP (·.severity == .error)
  let warnings := violations.countP (·.severity == .warning)
  let penalty := (Float64.ofNat blocking * Float64.one +
    Float64.ofNat errors * Float64.ofRat (1 / 2) +
    Float64.ofNat warnings * Float64.ofRat (1 / 10)) / Float64.ofNat (max totalChecks 1)
  let schemaScore := Float64.one - Float64.min penalty Float64.one
  let driftFailing := driftResults.countP (fun r => ! r.passed)
  let driftScore :=
    if driftResults.isEmpty then Float64.one
    else Float64.one - Float64.ofNat driftFailing / Float64.ofNat driftResults.length
  let score := clamp (schemaScore * Float64.ofRat (7 / 10) + driftScore * Float64.ofRat (3 / 10))
    Float64.zero Float64.one
  { score := score
    schemaScore := schemaScore
    qualityScore := schemaScore
    driftScore := driftScore
    grade := gradeOf score }

structure ValidationReport (F : Type) where
  dataset : String
  rowCount : Nat
  violations : List (Violation F)
  driftResults : List (DriftResult F)
  columnProfiles : List (ColumnProfile F)
  health : DatasetHealthScore F
  passed : Bool
  deriving Repr

def ValidationReport.new (dataset : String) (rowCount : Nat) (violations : List (Violation F))
    (driftResults : List (DriftResult F)) (columnProfiles : List (ColumnProfile F))
    (totalChecks : Nat) : ValidationReport F where
  dataset := dataset
  rowCount := rowCount
  violations := violations
  driftResults := driftResults
  columnProfiles := columnProfiles
  health := DatasetHealthScore.compute violations driftResults totalChecks
  passed := ! violations.any (·.severity == .blocking)

end StatGuardian.Metrics
