import StatGuardian.Core.Compiler
import StatGuardian.Engine.Merge
import StatGuardian.Engine.Node
import StatGuardian.Library.Results
import StatGuardian.Metrics.Report

namespace StatGuardian.Engine

open StatGuardian.Core Metrics Polars Stats Validators

variable {F : Type} [Float64 F]

/-- The nodes of one column in order; the first that emits a Blocking violation is the last to
    run. -/
def runNodes (env : Env F) (df : DataFrame F) : List (DagNode F) → Exec (List (Violation F))
  | [] => .ok []
  | node :: rest => do
    let vs ← executeNode env df node
    if vs.any (·.severity == .blocking) then return vs
    else
      let more ← runNodes env df rest
      return vs ++ more

/-- The column groups run in parallel, in the order the hash map hands them out. -/
def dagViolations (env : Env F) (dag : ExecutionDag F) (df : DataFrame F) :
    Exec (List (Violation F)) := do
  let results ← (env.visit (Optimizer.groupByColumn dag)).mapM (fun group =>
    runNodes env df group.2)
  return results.flatten

/-- Everything the four producers emit, in the order `execute` chains them. -/
def emitted (env : Env F) (contract : DataContract F) (dag : ExecutionDag F) (df : DataFrame F) :
    Exec (List (Violation F)) := do
  let schemaViolations := SchemaValidator.validate env df contract.schema
  let ruleViolations := RuleEngine.evaluate env df contract.qualityRules
  let crossColViolations := RuleEngine.evaluateCrossColumn env df contract.crossColumnRules
  let dagViolations ← dagViolations env dag df
  return schemaViolations ++ ruleViolations ++ crossColViolations ++ dagViolations

theorem emitted_ok_iff (env : Env F) (contract : DataContract F) (dag : ExecutionDag F)
    (df : DataFrame F) (violations : List (Violation F)) :
    emitted env contract dag df = .ok violations ↔
      ∃ fromDag, dagViolations env dag df = .ok fromDag ∧
        violations = SchemaValidator.validate env df contract.schema ++
          RuleEngine.evaluate env df contract.qualityRules ++
          RuleEngine.evaluateCrossColumn env df contract.crossColumnRules ++ fromDag := by
  simp only [emitted, Results.bind_ok_iff, pure, Except.pure, Except.ok.injEq]
  simp only [eq_comm]

def driftResults (env : Env F) (contract : DataContract F) (df : DataFrame F)
    (reference : Option (DataFrame F)) : Exec (List (DriftResult F)) :=
  match reference with
  | some refDf => DriftEngine.evaluate env df refDf contract.statsRules
  | none => .ok []

def BatchExecutor.execute (env : Env F) (contract : DataContract F) (dag : ExecutionDag F)
    (df : DataFrame F) (reference : Option (DataFrame F)) : Exec (ValidationReport F) := do
  let violations ← emitted env contract dag df
  let drift ← driftResults env contract df reference
  let profile ← Profiler.profile env df
  let totalChecks := dag.nodeCount + contract.qualityRules.length
  return ValidationReport.new contract.name df.height (mergeViolations violations) drift
    profile.columns totalChecks

theorem execute_ok_iff (env : Env F) (contract : DataContract F) (dag : ExecutionDag F)
    (df : DataFrame F) (reference : Option (DataFrame F)) (report : ValidationReport F) :
    BatchExecutor.execute env contract dag df reference = .ok report ↔
      ∃ violations drift profile, emitted env contract dag df = .ok violations ∧
        driftResults env contract df reference = .ok drift ∧
        Profiler.profile env df = .ok profile ∧
        report = ValidationReport.new contract.name df.height (mergeViolations violations) drift
          profile.columns (dag.nodeCount + contract.qualityRules.length) := by
  simp only [BatchExecutor.execute, Results.bind_ok_iff, pure, Except.pure, Except.ok.injEq]
  constructor
  · rintro ⟨violations, emits, drift, drifts, profile, profiled, rfl⟩
    exact ⟨violations, drift, profile, emits, drifts, profiled, rfl⟩
  · rintro ⟨violations, drift, profile, emits, drifts, profiled, rfl⟩
    exact ⟨violations, emits, drift, drifts, profile, profiled, rfl⟩

section Report

variable {env : Env F} {contract : DataContract F} {dag : ExecutionDag F} {df : DataFrame F}
  {reference : Option (DataFrame F)} {report : ValidationReport F} {violations : List (Violation F)}

theorem report_violations (ran : BatchExecutor.execute env contract dag df reference = .ok report)
    (emits : emitted env contract dag df = .ok violations) :
    report.violations = mergeViolations violations := by
  obtain ⟨found, _, _, emitsToo, _, _, rfl⟩ := (execute_ok_iff ..).mp ran
  rw [emits, Except.ok.injEq] at emitsToo
  subst emitsToo
  rfl

theorem reported_iff (ran : BatchExecutor.execute env contract dag df reference = .ok report)
    (emits : emitted env contract dag df = .ok violations) (v : Violation F) :
    v ∈ report.violations ↔ violations.find? (fun w => sameKey w v) = some v := by
  rw [report_violations ran emits, mem_mergeViolations]

end Report

end StatGuardian.Engine
