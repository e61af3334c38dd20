import StatGuardian.Core.Ast
import StatGuardian.Library.Slices

namespace StatGuardian.Core

inductive DagNode (F : Type) where
  | typeCheck (column expectedType : String) (coerce : Bool) (severity : Severity)
  | nullCheck (column : String) (severity : Severity)
  | uniquenessCheck (column : String) (severity : Severity)
  | regexCheck (column pattern : String) (severity : Severity)
  | rangeCheck (column : String) (min max : Option F) (severity : Severity)
  | lenCheck (column : String) (min max : Nat) (severity : Severity)
  | enumCheck (column : String) (allowed : List String) (severity : Severity)
  | positiveCheck (column : String) (severity : Severity)
  | negativeCheck (column : String) (severity : Severity)
  | qualityMetricCheck (column : String) (metric : MetricFn) (op : ComparisonOp) (threshold : F)
      (severity : Severity)
  | driftCheck (column : String) (stat : StatFn) (op : ComparisonOp) (threshold : F)
      (severity : Severity)
  | outlierDetection (column method : String) (severity : Severity)
  | duplicateDetection (column : String) (severity : Severity)
  | nullAnomalyDetection (column : String) (severity : Severity)
  | cardinalityCheck (column : String) (severity : Severity)
  | profile (column : String)
  deriving DecidableEq, Repr

namespace DagNode

variable {F : Type}

def column : DagNode F → String
  | typeCheck column .. | nullCheck column .. | uniquenessCheck column .. | regexCheck column ..
  | rangeCheck column .. | lenCheck column .. | enumCheck column .. | positiveCheck column ..
  | negativeCheck column .. | qualityMetricCheck column .. | driftCheck column ..
  | outlierDetection column .. | duplicateDetection column .. | nullAnomalyDetection column ..
  | cardinalityCheck column .. | profile column => column

def cost : DagNode F → Nat
  | typeCheck .. => 1
  | nullCheck .. => 1
  | positiveCheck .. => 2
  | negativeCheck .. => 2
  | rangeCheck .. => 2
  | lenCheck .. => 2
  | enumCheck .. => 3
  | regexCheck .. => 4
  | uniquenessCheck .. => 5
  | qualityMetricCheck .. => 5
  | profile .. => 6
  | cardinalityCheck .. => 6
  | driftCheck .. => 7
  | outlierDetection .. => 8
  | duplicateDetection .. => 8
  | nullAnomalyDetection .. => 3

def severity : DagNode F → Severity
  | typeCheck _ _ _ severity | nullCheck _ severity | uniquenessCheck _ severity
  | regexCheck _ _ severity | rangeCheck _ _ _ severity | lenCheck _ _ _ severity
  | enumCheck _ _ severity | positiveCheck _ severity | negativeCheck _ severity
  | qualityMetricCheck _ _ _ _ severity | driftCheck _ _ _ _ severity
  | outlierDetection _ _ severity | duplicateDetection _ severity
  | nullAnomalyDetection _ severity | cardinalityCheck _ severity => severity
  | profile _ => .info

end DagNode

structure ExecutionDag (F : Type) where
  nodes : List (DagNode F)
  referencedColumns : List String

namespace ExecutionDag

variable {F : Type}

def new (nodes : List (DagNode F)) : ExecutionDag F where
  nodes := nodes
  referencedColumns :=
    Slices.dedupBy (· == ·) (Slices.sortBy compare (nodes.map DagNode.column))

def nodeCount (dag : ExecutionDag F) : Nat := dag.nodes.length

end ExecutionDag

end StatGuardian.Core
