import StatGuardian.Runtime.Float64

namespace StatGuardian.Core

inductive DataType where
  | int | float | string | bool | date | datetime | bytes
  deriving DecidableEq, Repr

def DataType.display : DataType → String
  | .int => "int"
  | .float => "float"
  | .string => "string"
  | .bool => "bool"
  | .date => "date"
  | .datetime => "datetime"
  | .bytes => "bytes"

inductive Constraint (F : Type) where
  | notNull
  | unique
  | positive
  | negative
  | primaryKey
  | coerce
  | regex (pattern : String)
  | between (min max : F)
  | min (value : F)
  | max (value : F)
  | len (min max : Nat)
  | enum (values : List String)
  | foreignKey (table column : String)
  deriving DecidableEq, Repr

/-- `constraints.contains(&Constraint::Coerce)` -/
def hasCoerce {F : Type} (constraints : List (Constraint F)) : Bool :=
  constraints.any fun
    | .coerce => true
    | _ => false

structure FieldDef (F : Type) where
  name : String
  dataType : DataType
  constraints : List (Constraint F)
  deriving DecidableEq, Repr

inductive LiteralValue (F : Type) where
  | number (n : F)
  | str (s : String)
  | bool (b : Bool)
  deriving DecidableEq, Repr

inductive MetricFn where
  | completeness | uniqueness | validity | consistency | freshness | nonNullRate
  deriving DecidableEq, Repr

inductive ComparisonOp where
  | gt | lt | gte | lte | eq | neq
  deriving DecidableEq, Repr

namespace ComparisonOp

/-- Equality of numbers is within `f64::EPSILON`; the orderings are exact. -/
def evaluate {F : Type} [Float64 F] (op : ComparisonOp) (lhs rhs : F) : Bool :=
  match op with
  | gt => Float64.gt lhs rhs
  | lt => Float64.lt lhs rhs
  | gte => Float64.ge lhs rhs
  | lte => Float64.le lhs rhs
  | eq => Float64.lt (Float64.abs (lhs - rhs)) Float64.epsilon
  | neq => Float64.ge (Float64.abs (lhs - rhs)) Float64.epsilon

def evaluateStr (op : ComparisonOp) (lhs rhs : String) : Bool :=
  match op with
  | eq => lhs == rhs
  | neq => lhs != rhs
  | lt => (compare lhs rhs).isLT
  | lte => (compare lhs rhs).isLE
  | gt => (compare lhs rhs).isGT
  | gte => (compare lhs rhs).isGE

def evaluateBool (op : ComparisonOp) (lhs rhs : Bool) : Bool :=
  match op with
  | eq => lhs == rhs
  | neq => lhs != rhs
  | _ => false

def display : ComparisonOp → String
  | gt => ">"
  | lt => "<"
  | gte => ">="
  | lte => "<="
  | eq => "=="
  | neq => "!="

end ComparisonOp

inductive Severity where
  | info | warning | error | blocking
  deriving DecidableEq, Repr

def Severity.default : Severity := .error

structure QualityRule (F : Type) where
  metric : MetricFn
  column : String
  op : ComparisonOp
  threshold : F
  severity : Severity
  deriving DecidableEq, Repr

/-- assert `assertColumn` `assertOp` `assertValue` when `whenColumn` `whenOp` `whenValue` -/
structure CrossColumnRule (F : Type) where
  assertColumn : String
  assertOp : ComparisonOp
  assertValue : LiteralValue F
  whenColumn : String
  whenOp : ComparisonOp
  whenValue : LiteralValue F
  severity : Severity
  deriving DecidableEq, Repr

inductive StatFn where
  | mean | std | median | min | max | p05 | p95 | p99 | p999
  deriving DecidableEq, Repr

def StatFn.display : StatFn → String
  | .mean => "mean"
  | .std => "std"
  | .median => "median"
  | .min => "min"
  | .max => "max"
  | .p05 => "p05"
  | .p95 => "p95"
  | .p99 => "p99"
  | .p999 => "p999"

theorem StatFn.display_injective : Function.Injective StatFn.display := by
  intro a b same
  cases a <;> cases b <;> first | rfl | simp [StatFn.display] at same

structure StatsRule (F : Type) where
  column : String
  stat : StatFn
  op : ComparisonOp
  threshold : F
  severity : Severity
  deriving DecidableEq, Repr

inductive AnomalyFn where
  | detectOutliers | detectNulls | detectDuplicates | detectPatternBreaks
  | detectCardinalityExplosion
  deriving DecidableEq, Repr

/-- `args` is an insertion-ordered map. -/
structure AnomalyRule where
  function : AnomalyFn
  column : String
  args : List (String × String)
  severity : Severity
  deriving DecidableEq, Repr

structure StreamConfig where
  window : Option String
  watermark : Option String
  emit : Option String
  deriving DecidableEq, Repr

structure DataContract (F : Type) where
  name : String
  schema : List (FieldDef F)
  qualityRules : List (QualityRule F)
  crossColumnRules : List (CrossColumnRule F)
  statsRules : List (StatsRule F)
  anomalyRules : List AnomalyRule
  streamConfig : Option StreamConfig
  deriving DecidableEq, Repr

def DataContract.new {F : Type} (name : String) : DataContract F where
  name := name
  schema := []
  qualityRules := []
  crossColumnRules := []
  statsRules := []
  anomalyRules := []
  streamConfig := none

end StatGuardian.Core
