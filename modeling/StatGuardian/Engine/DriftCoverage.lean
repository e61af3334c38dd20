import StatGuardian.Engine.Gate

namespace StatGuardian.Engine

open StatGuardian.Core Metrics Polars Stats Validators DriftEngine

variable {F : Type} [Float64 F]

/-- Every stats rule has in its place a result of its own or, if not, a violation on its column;
    the results are those, in the order of the rules. -/
def RulesAnswered (rules : List (StatsRule F)) (report : ValidationReport F) : Prop :=
  ∃ answers : List (Option (DriftResult F)),
    List.Forall₂ (fun rule answer => (∀ result, answer = some result → IsFor rule result) ∧
      (answer = none → ∃ v ∈ report.violations, v.column = rule.column)) rules answers ∧
    report.driftResults = answers.filterMap id

variable {env : Env F} {contract : DataContract F} {dag : ExecutionDag F}
  {current reference : DataFrame F} {report : ValidationReport F} {violations : List (Violation F)}

theorem column_reported_iff
    (ran : BatchExecutor.execute env contract dag current (some reference) = .ok report)
    (emits : emitted env contract dag current = .ok violations) (column : String) :
    (∃ v ∈ report.violations, v.column = column) ↔ ∃ v ∈ violations, v.column = column := by
  rw [report_violations ran emits]
  constructor
  · rintro ⟨v, member, named⟩
    exact ⟨v, mem_of_mem_mergeViolations violations v member, named⟩
  · rintro ⟨v, member, named⟩
    obtain ⟨w, kept, same, _⟩ := mergeViolations_covers violations v member
    exact ⟨w, kept, same.trans named⟩

theorem report_driftResults
    (ran : BatchExecutor.execute env contract dag current (some reference) = .ok report) :
    evaluate env current reference contract.statsRules = .ok report.driftResults := by
  obtain ⟨_, drift, _, _, drifts, _, rfl⟩ := (execute_ok_iff ..).mp ran
  exact drifts

/-- No stats rule is lost exactly when each has its statistic on both frames or its column is
    reported by another check. -/
theorem rules_answered_iff
    (ran : BatchExecutor.execute env contract dag current (some reference) = .ok report)
    (emits : emitted env contract dag current = .ok violations) :
    RulesAnswered contract.statsRules report ↔
      ∀ rule ∈ contract.statsRules, Evaluable env current reference rule ∨
        ∃ v ∈ violations, v.column = rule.column := by
  obtain ⟨answers, evaluated, results⟩ := (evaluate_ok_iff ..).mp (report_driftResults ran)
  constructor
  · rintro ⟨given, answered, split⟩ rule member
    obtain ⟨answer, inside, mine, untold⟩ := Results.forall₂_left answered rule member
    cases answer with
    | none => exact .inr ((column_reported_iff ran emits rule.column).mp (untold rfl))
    | some result =>
      left
      have listed : some result ∈ answers := by
        have present : result ∈ report.driftResults := by
          rw [split]; exact List.mem_filterMap.mpr ⟨_, inside, rfl⟩
        rw [results] at present
        obtain ⟨_, found, rfl⟩ := List.mem_filterMap.mp present
        exact found
      -- the result may stem from another rule, but then on the same column and statistic
      obtain ⟨other, _, source⟩ := Results.forall₂_right evaluated _ listed
      have spec := evaluateRule_spec env current reference other _ source
      have theirs := spec.2 result rfl
      have own := mine result rfl
      refine (spec.1.mp rfl).congr (theirs.1.symm.trans own.1) ?_
      exact StatFn.display_injective (theirs.2.1.symm.trans own.2.1)
  · intro covered
    refine ⟨answers, ?_, results⟩
    refine (List.forall₂_and_left _ _).mpr ⟨covered, evaluated⟩ |>.imp ?_
    rintro rule answer ⟨cover, source⟩
    have spec := evaluateRule_spec env current reference rule answer source
    refine ⟨spec.2, fun lost => (column_reported_iff ran emits rule.column).mpr ?_⟩
    rcases cover with evaluable | told
    · rw [lost] at spec
      cases spec.1.mpr evaluable
    · exact told

def scalarAmount : DataFrame ExtRat where
  height := 1
  columns := [.scalar "amount" .int64 (some 1) 1]
  aligned := by decide
  distinct := by decide

theorem scalar_reference_loses_rule :
    ∃ report : ValidationReport ExtRat,
      BatchExecutor.execute exactEnv driftingSales (Compiler.compile driftingSales)
        (amounts 100 200) (some scalarAmount) = .ok report ∧
      ¬ RulesAnswered driftingSales.statsRules report := by
  obtain ⟨report, ran, silent⟩ := Results.ok_of_any
    (BatchExecutor.execute exactEnv driftingSales (Compiler.compile driftingSales)
      (amounts 100 200) (some scalarAmount))
    (fun report => report.violations.isEmpty && report.driftResults.isEmpty) (by decide +kernel)
  rw [Bool.and_eq_true, List.isEmpty_iff, List.isEmpty_iff] at silent
  refine ⟨report, ran, fun answered => ?_⟩
  obtain ⟨answers, answered, results⟩ := answered
  obtain ⟨answer, inside, _, untold⟩ :=
    Results.forall₂_left answered ⟨"amount", .mean, .lt, .fin (1 / 10), .blocking⟩
      (List.mem_singleton_self _)
  cases answer with
  | none =>
    obtain ⟨v, member, _⟩ := untold rfl
    rw [silent.1] at member
    cases member
  | some result =>
    have present : result ∈ report.driftResults := by
      rw [results]; exact List.mem_filterMap.mpr ⟨_, inside, rfl⟩
    rw [silent.2] at present
    cases present

theorem rules_answered_iff_sales :
    ∃ (report : ValidationReport ExtRat) (violations : List (Violation ExtRat)),
      BatchExecutor.execute exactEnv driftingSales (Compiler.compile driftingSales)
        (amounts 100 200) (some scalarAmount) = .ok report ∧
      (RulesAnswered driftingSales.statsRules report ↔
        ∀ rule ∈ driftingSales.statsRules,
          Evaluable exactEnv (amounts 100 200) scalarAmount rule ∨
            ∃ v ∈ violations, v.column = rule.column) := by
  obtain ⟨report, ran, _⟩ := Results.ok_of_any
    (BatchExecutor.execute exactEnv driftingSales (Compiler.compile driftingSales)
      (amounts 100 200) (some scalarAmount)) (·.passed) (by decide +kernel)
  obtain ⟨violations, _, _, emits, _⟩ := (execute_ok_iff ..).mp ran
  exact ⟨report, violations, ran, rules_answered_iff ran emits⟩

end StatGuardian.Engine
