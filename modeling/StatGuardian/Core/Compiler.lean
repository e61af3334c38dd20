import StatGuardian.Core.Optimizer

namespace StatGuardian.Core.Compiler

variable {F : Type}

def constraintNode (column : String) : Constraint F → Option (DagNode F)
  | .notNull | .primaryKey => some (.nullCheck column .error)
  | .unique => some (.uniquenessCheck column .error)
  | .positive => some (.positiveCheck column .error)
  | .negative => some (.negativeCheck column .error)
  | .regex pattern => some (.regexCheck column pattern .error)
  | .between min max => some (.rangeCheck column (some min) (some max) .error)
  | .min value => some (.rangeCheck column (some value) none .error)
  | .max value => some (.rangeCheck column none (some value) .error)
  | .len min max => some (.lenCheck column min max .error)
  | .enum values => some (.enumCheck column values .error)
  | .coerce | .foreignKey .. => none

def fieldNodes (field : FieldDef F) : List (DagNode F) :=
  .profile field.name ::
  .typeCheck field.name field.dataType.display (hasCoerce field.constraints) .blocking ::
  field.constraints.filterMap (constraintNode field.name)

def qualityNode (rule : QualityRule F) : DagNode F :=
  .qualityMetricCheck rule.column rule.metric rule.op rule.threshold rule.severity

def driftNode (rule : StatsRule F) : DagNode F :=
  .driftCheck rule.column rule.stat rule.op rule.threshold rule.severity

def anomalyNode (rule : AnomalyRule) : DagNode F :=
  match rule.function with
  | .detectOutliers =>
    .outlierDetection rule.column ((rule.args.lookup "method").getD "iqr") rule.severity
  | .detectDuplicates => .duplicateDetection rule.column rule.severity
  | .detectNulls => .nullAnomalyDetection rule.column rule.severity
  | .detectCardinalityExplosion => .cardinalityCheck rule.column rule.severity
  | .detectPatternBreaks =>
    .regexCheck rule.column ((rule.args.lookup "pattern").getD "") rule.severity

/-- The node list before the optimizer sees it. -/
def rawNodes (contract : DataContract F) : List (DagNode F) :=
  contract.schema.flatMap fieldNodes ++
  contract.qualityRules.map qualityNode ++
  contract.statsRules.map driftNode ++
  contract.anomalyRules.map anomalyNode

def compile [DecidableEq F] (contract : DataContract F) : ExecutionDag F :=
  Optimizer.optimize (rawNodes contract)

end StatGuardian.Core.Compiler
