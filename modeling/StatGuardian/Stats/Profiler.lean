import StatGuardian.Stats.Series
import StatGuardian.Stats.HyperLogLog

namespace StatGuardian.Stats

open Polars

structure NumericStats (F : Type) where
  min : Option F
  max : Option F
  mean : Option F
  std : Option F
  median : Option F
  p05 : Option F
  p25 : Option F
  p75 : Option F
  p95 : Option F
  p99 : Option F
  histogram : Option (List (F × F × Nat))
  deriving Repr

structure ColumnProfile (F : Type) where
  name : String
  dtype : String
  rowCount : Nat
  nullCount : Nat
  nullRate : F
  distinctCount : Nat
  numeric : NumericStats F
  deriving Repr

structure DatasetProfile (F : Type) where
  rowCount : Nat
  columnCount : Nat
  columns : List (ColumnProfile F)
  deriving Repr

namespace Profiler

variable {F : Type} [Float64 F]

def noStats : NumericStats F :=
  ⟨none, none, none, none, none, none, none, none, none, none, none⟩

def buildHistogram (ca : List (Option F)) (min max : Option F) (bins : Nat) :
    Exec (List (F × F × Nat)) :=
  match min, max with
  | some lo, some hi =>
    if Float64.lt lo hi then do
      let width := (hi - lo) / Float64.ofNat bins
      let counts ← bucket (present ca) lo width bins
      (List.range bins).mapM (fun i =>
        match counts[i]? with
        | some n =>
          let lower := lo + Float64.ofNat i * width
          .ok (lower, lower + width, n)
        | none => .error .indexOutOfBounds)
    else .ok []
  | _, _ => .ok []

def numericStats (env : Env F) (series : Series F) : Exec (NumericStats F) :=
  match env.castF64 series with
  | none => .ok noStats
  | some ca => do
    let median ← quantileManual env ca (Float64.ofRat (1 / 2))
    let p05 ← quantileManual env ca (Float64.ofRat (5 / 100))
    let p25 ← quantileManual env ca (Float64.ofRat (25 / 100))
    let p75 ← quantileManual env ca (Float64.ofRat (75 / 100))
    let p95 ← quantileManual env ca (Float64.ofRat (95 / 100))
    let p99 ← quantileManual env ca (Float64.ofRat (99 / 100))
    let histogram ← buildHistogram ca (env.min ca) (env.max ca) 10
    return {
      min := env.min ca
      max := env.max ca
      mean := env.mean ca
      std := env.std ca
      median := median
      p05 := p05
      p25 := p25
      p75 := p75
      p95 := p95
      p99 := p99
      histogram := some histogram }

/-- The sketch of the values `col.cast(&DataType::String)` yields, when it yields a series. -/
def sketch (env : Env F) (col : Column F) : Exec HyperLogLog :=
  match col.asSeries.bind env.castString with
  | some ca => (ca.filterMap id).foldlM (HyperLogLog.addStr env) HyperLogLog.new
  | none => .ok HyperLogLog.new

def profileColumn (env : Env F) (col : Column F) : Exec (ColumnProfile F) := do
  let hll ← sketch env col
  let numeric ←
    match col.asSeries with
    | some series => if isNumeric series then numericStats env series else pure noStats
    | none => pure noStats
  return {
    name := col.name
    dtype := env.debugDtype col.dtype
    rowCount := col.len
    nullCount := col.nullCount
    nullRate :=
      if col.len > 0 then Float64.ofNat col.nullCount / Float64.ofNat col.len else Float64.zero
    distinctCount := hll.cardinality env
    numeric := numeric }

def profile (env : Env F) (df : DataFrame F) : Exec (DatasetProfile F) := do
  let columns ← df.columns.mapM (profileColumn env)
  return ⟨df.height, df.width, columns⟩

end Profiler

end StatGuardian.Stats
