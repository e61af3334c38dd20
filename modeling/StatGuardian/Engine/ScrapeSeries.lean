import StatGuardian.Engine.Gate
import StatGuardian.Metrics.Exposition

namespace StatGuardian.Engine

open StatGuardian.Core Metrics Polars Stats Validators DriftEngine

variable {F : Type} [Float64 F]

def numericColumn (df : DataFrame F) (rule : StatsRule F) : Bool :=
  (ruleSeries df rule).any isNumeric

theorem driftResult_psi {env : Env F} {rule : StatsRule F} {curSeries refSeries : Series F}
    {curVal refVal : F} {result : DriftResult F}
    (ran : driftResult env rule curSeries refSeries curVal refVal = .ok result) :
    result.psi.isSome = isNumeric curSeries := by
  simp only [driftResult, Results.bind_ok_iff, pure, Except.pure, Except.ok.injEq] at ran
  obtain ⟨psi, measured, _, _, rfl⟩ := ran
  unfold ifNumeric at measured
  split at measured
  · rename_i numeric
    obtain ⟨_, _, rfl⟩ := (Results.map_ok_iff ..).mp measured
    rw [numeric]
    rfl
  · rename_i other
    cases measured
    rw [Bool.eq_false_iff.mpr other]
    rfl

theorem evaluateRule_psi {env : Env F} {current reference : DataFrame F} {rule : StatsRule F}
    {result : DriftResult F} (ran : evaluateRule env current reference rule = .ok (some result)) :
    result.psi.isSome = numericColumn current rule := by
  unfold evaluateRule at ran
  split at ran
  case h_1 curSeries refSeries curFound refFound =>
    rw [numericColumn, curFound, Option.any_some]
    obtain ⟨curVal, _, ran⟩ := (Results.bind_ok_iff ..).mp ran
    cases curVal with
    | none => cases ran
    | some curVal =>
      obtain ⟨refVal, _, ran⟩ := (Results.bind_ok_iff ..).mp ran
      cases refVal with
      | none => cases ran
      | some refVal =>
        obtain ⟨finished, measured, same⟩ := (Results.map_ok_iff ..).mp ran
        cases same
        exact driftResult_psi measured
  case h_2 => cases ran

/-- The rule has a result: there is a reference and both frames have its statistic. -/
def Measured (env : Env F) (current : DataFrame F) (reference : Option (DataFrame F))
    (rule : StatsRule F) : Prop :=
  ∃ refDf, reference = some refDf ∧ Evaluable env current refDf rule

/-- No two rules with a result are on one column with one statistic, or on one column of numbers. -/
def RulesApart (env : Env F) (current : DataFrame F) (reference : Option (DataFrame F))
    (rules : List (StatsRule F)) : Prop :=
  rules.Pairwise fun a b => Measured env current reference a → Measured env current reference b →
    a.column = b.column → a.stat ≠ b.stat ∧ numericColumn current a = false

section Runs

variable {env : Env F} {contract : DataContract F} {dag : ExecutionDag F}
  {current : DataFrame F} {reference : Option (DataFrame F)} {report : ValidationReport F}

theorem apart_iff {current refDf : DataFrame F} {p q : StatsRule F} {a b : DriftResult F}
    (first : evaluateRule env current refDf p = .ok (some a))
    (second : evaluateRule env current refDf q = .ok (some b)) :
    Apart a b ↔ (p.column = q.column → p.stat ≠ q.stat ∧ numericColumn current p = false) := by
  have forA := (evaluateRule_spec env current refDf p _ first).2 a rfl
  have forB := (evaluateRule_spec env current refDf q _ second).2 b rfl
  unfold Apart
  rw [forA.1, forB.1, forA.2.1, forB.2.1, StatFn.display_injective.ne_iff,
    evaluateRule_psi first, evaluateRule_psi second]
  constructor
  · intro apart column
    have numeric : numericColumn current p = numericColumn current q := by
      rw [numericColumn, numericColumn, ruleSeries, ruleSeries, column]
    rw [← numeric, and_self, Bool.not_eq_true] at apart
    exact apart column
  · intro apart column
    refine ⟨(apart column).1, fun both => ?_⟩
    rw [(apart column).2] at both
    cases both.1

theorem driftResults_apart_iff
    (ran : BatchExecutor.execute env contract dag current reference = .ok report) :
    report.driftResults.Pairwise Apart ↔ RulesApart env current reference contract.statsRules := by
  obtain ⟨_, drift, _, _, drifts, _, rfl⟩ := (execute_ok_iff ..).mp ran
  change drift.Pairwise Apart ↔ _
  unfold RulesApart Measured
  cases reference with
  | none =>
    cases drifts
    refine ⟨fun _ => List.pairwise_of_forall ?_, fun _ => .nil⟩
    intro a b ⟨refDf, missing, _⟩
    cases missing
  | some refDf =>
    obtain ⟨answers, evaluated, rfl⟩ := (evaluate_ok_iff ..).mp drifts
    have answered := evaluated.imp (S := fun rule answer =>
      (answer.isSome = true ↔ Evaluable env current refDf rule) ∧ ∀ a, answer = some a →
        evaluateRule env current refDf rule = .ok (some a)) (by
      intro rule answer source
      refine ⟨(evaluateRule_spec env current refDf rule answer source).1, ?_⟩
      intro a same
      rw [source, same])
    rw [Results.pairwise_answers_iff answered (fun p a q b => apart_iff)]
    simp only [Option.some.injEq, exists_eq_left']

/-- Names without line breaks, and numbers that are shown without blanks. -/
structure PlainNames (env : Env F) (contract : DataContract F) : Prop where
  numbers : ∀ n x, ' ' ∉ (env.fixed n x).toList ∧ '\n' ∉ (env.fixed n x).toList
  name : '\n' ∉ contract.name.toList
  columns : ∀ rule ∈ contract.statsRules, '\n' ∉ rule.column.toList

theorem plain_report
    (ran : BatchExecutor.execute env contract dag current reference = .ok report)
    (names : PlainNames env contract) : Plain env report := by
  obtain ⟨_, drift, _, _, drifts, _, rfl⟩ := (execute_ok_iff ..).mp ran
  have sources : ∀ result ∈ drift, ∃ rule ∈ contract.statsRules, IsFor rule result := by
    intro result member
    cases reference with
    | none =>
      cases drifts
      cases member
    | some refDf =>
      obtain ⟨answers, evaluated, rfl⟩ := (evaluate_ok_iff ..).mp drifts
      obtain ⟨_, inside, rfl⟩ := List.mem_filterMap.mp member
      obtain ⟨rule, listed, source⟩ := Results.forall₂_right evaluated _ inside
      exact ⟨rule, listed, (evaluateRule_spec env current refDf rule _ source).2 result rfl⟩
  refine ⟨names.numbers, names.name, ?_, ?_⟩
  · intro result member
    obtain ⟨rule, listed, column, _⟩ := sources result member
    rw [column]
    exact names.columns rule listed
  · intro result member
    obtain ⟨rule, _, _, stat, _⟩ := sources result member
    exact ⟨rule.stat, stat⟩

/-- The samples of a run have different series when its measured rules are apart, and so do the
    lines of its text. -/
theorem scrape_unique_iff
    (ran : BatchExecutor.execute env contract dag current reference = .ok report)
    (durationMs : Nat) :
    (report.UniqueSeries env durationMs ↔
        RulesApart env current reference contract.statsRules) ∧
      (PlainNames env contract →
        ((textSeries (report.toPrometheus env durationMs)).Nodup ↔
          RulesApart env current reference contract.statsRules)) := by
  have samples := (uniqueSeries_iff env report durationMs).trans (driftResults_apart_iff ran)
  refine ⟨samples, ?_⟩
  intro names
  exact (textSeries_nodup_iff (plain_report ran names) durationMs).trans samples

end Runs

def twoStats : DataContract ExtRat :=
  { DataContract.new "sales" with
    schema := [⟨"amount", .int, []⟩]
    statsRules := [⟨"amount", .mean, .lt, .fin (1 / 10), .blocking⟩,
      ⟨"amount", .max, .lt, .fin (1 / 10), .blocking⟩] }

theorem toString_int_plain (i : Int) : ' ' ∉ (toString i).toList ∧ '\n' ∉ (toString i).toList := by
  cases i with
  | ofNat n => exact toString_plain n
  | negSucc n =>
    have digits := toString_plain (n + 1)
    change ' ' ∉ ("-" ++ toString (n + 1)).toList ∧ '\n' ∉ ("-" ++ toString (n + 1)).toList
    simp only [String.toList_append, List.mem_append, not_or]
    exact ⟨⟨by decide, digits.1⟩, by decide, digits.2⟩

theorem display_numbers (x : ExtRat) :
    ' ' ∉ (ExactEnv.display x).toList ∧ '\n' ∉ (ExactEnv.display x).toList := by
  cases x with
  | nan => decide
  | negInf => decide
  | posInf => decide
  | fin q =>
    simp only [ExactEnv.display]
    have num := toString_int_plain q.num
    have den := toString_plain q.den
    split
    · exact num
    · change ' ' ∉ (toString q.num ++ "/" ++ toString q.den).toList ∧
        '\n' ∉ (toString q.num ++ "/" ++ toString q.den).toList
      simp only [String.toList_append, List.mem_append, not_or]
      exact ⟨⟨⟨num.1, by decide⟩, den.1⟩, ⟨num.2, by decide⟩, den.2⟩

theorem plainNames_twoStats : PlainNames exactEnv twoStats where
  numbers := fun _ => display_numbers
  name := by decide
  columns := by
    intro rule listed
    simp only [twoStats, List.mem_cons, List.not_mem_nil, or_false] at listed
    rcases listed with rfl | rfl <;> decide

/-- The column of numbers has a line for its index of stability under each of its rules. -/
theorem scrape_repeats_psi :
    ∃ report : ValidationReport ExtRat,
      BatchExecutor.execute exactEnv twoStats (Compiler.compile twoStats)
        (amounts 100 200) (some (amounts 1 2)) = .ok report ∧
      ¬ (textSeries (report.toPrometheus exactEnv 0)).Nodup := by
  obtain ⟨report, ran, results⟩ := Results.ok_of_any
    (BatchExecutor.execute exactEnv twoStats (Compiler.compile twoStats)
      (amounts 100 200) (some (amounts 1 2)))
    (fun report => report.driftResults.map (fun d => (d.column, d.stat, d.psi.isSome)) ==
      [("amount", "mean", true), ("amount", "max", true)])
    (by decide +kernel)
  refine ⟨report, ran, ?_⟩
  intro distinct
  have unique := (textSeries_nodup_iff (plain_report ran plainNames_twoStats) 0).mp distinct
  have apart := (uniqueSeries_iff exactEnv report 0).mp unique
  have keyed : (report.driftResults.map (fun d => (d.column, d.stat, d.psi.isSome))).Pairwise
      (fun a b => a.1 = b.1 → a.2.1 ≠ b.2.1 ∧ ¬ (a.2.2 = true ∧ b.2.2 = true)) :=
    List.pairwise_map.mpr apart
  rw [beq_iff_eq.mp results] at keyed
  exact absurd keyed (by decide)

theorem scrape_unique_iff_sales :
    ∃ report : ValidationReport ExtRat,
      BatchExecutor.execute exactEnv driftingSales (Compiler.compile driftingSales)
        (amounts 100 200) (some (amounts 1 2)) = .ok report ∧
      (report.UniqueSeries exactEnv 7 ↔
        RulesApart exactEnv (amounts 100 200) (some (amounts 1 2)) driftingSales.statsRules) := by
  obtain ⟨report, ran, _⟩ := Results.ok_of_any
    (BatchExecutor.execute exactEnv driftingSales (Compiler.compile driftingSales)
      (amounts 100 200) (some (amounts 1 2))) (·.passed) (by decide +kernel)
  exact ⟨report, ran, (scrape_unique_iff ran 7).1⟩

end StatGuardian.Engine
