import StatGuardian.Core.Dag
import StatGuardian.Stats.Series
import StatGuardian.Validators.Rules

namespace StatGuardian.Engine

open StatGuardian.Core Polars Stats Validators

variable {F : Type} [Float64 F]

def getSeries (df : DataFrame F) (name : String) : Option (Series F) :=
  (df.column name).map Column.asMaterializedSeries

/-- The way every node but the quality checks treats a column that is not there. -/
def onSeries (df : DataFrame F) (column : String) (check : Series F → List (Violation F)) :
    List (Violation F) :=
  match getSeries df column with
  | some s => check s
  | none => []

section Outliers

variable (env : Env F)

def iqrOutliers (vals : List (Nat × F)) : Exec (List Nat) := do
  let sorted ← env.sorter.run Float64.unwrapCmp (vals.map Prod.snd)
  let n := sorted.length
  match sorted[n / 4]?, sorted[3 * n / 4]? with
  | some q1, some q3 =>
    let iqr := q3 - q1
    let lo := q1 - Float64.ofRat (3 / 2) * iqr
    let hi := q3 + Float64.ofRat (3 / 2) * iqr
    return (vals.filter (fun v => Float64.lt v.2 lo || Float64.gt v.2 hi)).map Prod.fst
  | _, _ => throw .indexOutOfBounds

def zscoreOutliers (vals : List (Nat × F)) : List Nat :=
  let n : F := Float64.ofNat vals.length
  let mean := Float64.sum (vals.map Prod.snd) / n
  let squares := vals.map (fun v => (v.2 - mean) * (v.2 - mean))
  let std := Float64.max (Float64.sqrt (Float64.sum squares / (n - Float64.one))) Float64.epsilon
  (vals.filter (fun v =>
    Float64.gt (Float64.abs ((v.2 - mean) / std)) (Float64.ofRat 3))).map Prod.fst

def outlierValues (ca : List (Option F)) : List (Nat × F) :=
  ca.zipIdx.filterMap (fun cell => cell.1.map (fun x => (cell.2, x)))

def outlierIndices (method : String) (vals : List (Nat × F)) : Exec (List Nat) :=
  if method = "iqr" then iqrOutliers env vals
  else if method = "zscore" then .ok (zscoreOutliers vals)
  else .ok []

def detectOutliers (column method : String) (severity : Severity) (df : DataFrame F) :
    Exec (List (Violation F)) :=
  match (getSeries df column).bind env.castF64 with
  | none => .ok []
  | some ca =>
    let vals := outlierValues ca
    if vals.isEmpty then .ok []
    else do
      let indices ← outlierIndices env method vals
      return (rowViolation column "outlier_detection" severity
        (fun n => s!"{n} outlier(s) in '{column}' (method={method})") indices).toList

end Outliers

def executeNode (env : Env F) (df : DataFrame F) : DagNode F → Exec (List (Violation F))
  | .profile _ => .ok []
  | .typeCheck .. => .ok []
  | .nullCheck column severity => .ok <| onSeries df column fun s =>
    let n := s.nullCount
    if n > 0 then
      [(Violation.new column "null_check" s!"{n} null(s) in '{column}'" severity).withValues
        (Float64.ofNat n) Float64.zero]
    else []
  | .uniquenessCheck column severity => .ok <| onSeries df column fun s =>
    let nTotal := s.len
    let nUnique := (env.nUnique s).getD nTotal
    if nUnique ≠ nTotal then
      [(Violation.new column "uniqueness" s!"{nTotal - nUnique} duplicate(s) in '{column}'"
        severity).withValues (Float64.ofNat nUnique) (Float64.ofNat nTotal)]
    else []
  | .regexCheck column pattern severity => .ok <| onSeries df column fun s =>
    match env.regex pattern with
    | .error e => [Violation.new column "regex" s!"invalid regex '{pattern}': {e}" severity]
    | .ok isMatch => Option.toList do
      let ca ← s.str
      rowViolation column "regex" severity (fun n => s!"{n} value(s) don't match '{pattern}'")
        (failingRows (fun s => ! isMatch s) ca)
  | .rangeCheck column min max severity => .ok <| onSeries df column fun s => Option.toList do
    let ca ← env.castF64 s
    rowViolation column "range_check" severity
      (fun n => s!"{n} value(s) out of range in '{column}'")
      (failingRows (fun x => min.any (Float64.lt x ·) || max.any (Float64.gt x ·)) ca)
  | .lenCheck column min max severity => .ok <| onSeries df column fun s => Option.toList do
    let ca ← s.str
    rowViolation column "len_check" severity
      (fun n => s!"{n} value(s) with invalid length in '{column}'")
      (failingRows (fun s => s.utf8ByteSize < min || s.utf8ByteSize > max) ca)
  | .enumCheck column allowed severity => .ok <| onSeries df column fun s => Option.toList do
    let ca ← s.str
    rowViolation column "enum_check" severity
      (fun n => s!"{n} value(s) not in allowed set in '{column}'")
      (failingRows (fun s => ! allowed.contains s) ca)
  | .positiveCheck column severity => .ok <| onSeries df column fun s => Option.toList do
    let ca ← env.castF64 s
    rowViolation column "positive_check" severity
      (fun n => s!"{n} non-positive value(s) in '{column}'")
      (failingRows (fun x => Float64.le x Float64.zero) ca)
  | .negativeCheck column severity => .ok <| onSeries df column fun s => Option.toList do
    let ca ← env.castF64 s
    rowViolation column "negative_check" severity
      (fun n => s!"{n} non-negative value(s) in '{column}'")
      (failingRows (fun x => Float64.ge x Float64.zero) ca)
  | .qualityMetricCheck column metric op threshold severity =>
    .ok (RuleEngine.evaluate env df [⟨metric, column, op, threshold, severity⟩])
  | .driftCheck .. => .ok []
  | .outlierDetection column method severity => detectOutliers env column method severity df
  | .duplicateDetection column severity => .ok <| onSeries df column fun s =>
    let nTotal := s.len
    let nUnique := (env.nUnique s).getD nTotal
    if nUnique < nTotal then
      [Violation.new column "duplicate_detection" s!"{nTotal - nUnique} duplicate(s) in '{column}'"
        severity]
    else []
  | .nullAnomalyDetection column severity => .ok <| onSeries df column fun s =>
    let nullRate : F := Float64.ofNat s.nullCount / Float64.ofNat (max s.len 1)
    if Float64.gt nullRate Float64.zero then
      [(Violation.new column "null_anomaly"
        s!"null rate {env.fixed 2 (nullRate * Float64.ofRat 100)}% in '{column}'"
        severity).withValues nullRate Float64.zero]
    else []
  | .cardinalityCheck column severity => .ok <| onSeries df column fun s =>
    let nUnique := (env.nUnique s).getD 0
    let nTotal := s.len
    let ratio : F := Float64.ofNat nUnique / Float64.ofNat nTotal
    if nTotal > 100 && Float64.gt ratio (Float64.ofRat (95 / 100)) then
      [Violation.new column "cardinality_check"
        s!"high cardinality in '{column}': {nUnique}/{nTotal} unique" severity]
    else []

end StatGuardian.Engine
