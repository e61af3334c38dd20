import StatGuardian.Engine.Batch
import StatGuardian.Runtime.ExactEnv

namespace StatGuardian.Engine

open StatGuardian.Core Metrics Polars Stats Validators

section Exposed

variable {F : Type}

/-- No weaker violation of the same column and check comes before this one. -/
def Exposed (violations : List (Violation F)) (v : Violation F) : Prop :=
  ∃ before after, violations = before ++ v :: after ∧
    ∀ u ∈ before, sameKey u v = true → u.severity = .blocking

theorem sameKey_congr (u v w : Violation F) (same : sameKey v w = true) :
    sameKey u v = sameKey u w := by
  simp only [sameKey, Bool.and_eq_true, beq_iff_eq] at same
  simp [sameKey, same.1, same.2]

/-- The merge keeps the first violation of a key, so a Blocking one is left exactly when one is
    exposed. -/
theorem blocking_merged_iff (violations : List (Violation F)) :
    (∃ v ∈ mergeViolations violations, v.severity = .blocking) ↔
      ∃ v, v.severity = .blocking ∧ Exposed violations v := by
  constructor
  · rintro ⟨v, member, blocking⟩
    rw [mem_mergeViolations, List.find?_eq_some_iff_append] at member
    obtain ⟨_, before, after, split, others⟩ := member
    refine ⟨v, blocking, before, after, split, fun u inside same => ?_⟩
    have different := others u inside
    rw [same] at different
    cases different
  · rintro ⟨v, blocking, before, after, split, stronger⟩
    have found : (violations.find? (fun w => sameKey w v)).isSome = true := by
      rw [List.find?_isSome]
      exact ⟨v, by simp [split], by simp [sameKey]⟩
    obtain ⟨first, found⟩ := Option.isSome_iff_exists.mp found
    have same := List.find?_some found
    refine ⟨first, ?_, ?_⟩
    · rw [mem_mergeViolations, ← found]
      congr 1
      funext u
      exact (sameKey_congr u first v same)
    · rw [split, List.find?_append, List.find?_cons] at found
      cases early : before.find? (fun w => sameKey w v) with
      | none =>
        have self : sameKey v v = true := by simp [sameKey]
        rw [early, self] at found
        obtain rfl : v = first := by simpa using found
        exact blocking
      | some u =>
        rw [early] at found
        obtain rfl : u = first := by simpa using found
        exact stronger u (List.mem_of_find?_eq_some early) same

end Exposed

variable {F : Type} [Float64 F] {env : Env F} {contract : DataContract F} {dag : ExecutionDag F}
  {df : DataFrame F} {reference : Option (DataFrame F)} {report : ValidationReport F}
  {violations : List (Violation F)}

theorem report_passed (ran : BatchExecutor.execute env contract dag df reference = .ok report) :
    report.passed = ! report.violations.any (·.severity == .blocking) := by
  obtain ⟨_, _, _, _, _, _, rfl⟩ := (execute_ok_iff ..).mp ran
  rfl

theorem gate_closed_iff_exposed
    (ran : BatchExecutor.execute env contract dag df reference = .ok report)
    (emits : emitted env contract dag df = .ok violations) :
    report.passed = false ↔ ∃ v, v.severity = .blocking ∧ Exposed violations v := by
  rw [← blocking_merged_iff, report_passed ran, report_violations ran emits]
  simp

/-- The gate is sound for an execution exactly when one of the Blocking violations it emits, if
    there are any, comes before every weaker one of the same column and check. -/
theorem gate_sound_iff (ran : BatchExecutor.execute env contract dag df reference = .ok report)
    (emits : emitted env contract dag df = .ok violations) :
    (report.passed = false ↔ ∃ v ∈ violations, v.severity = .blocking) ↔
      (∀ v ∈ violations, v.severity ≠ .blocking) ∨
        ∃ v, v.severity = .blocking ∧ Exposed violations v := by
  rw [gate_closed_iff_exposed ran emits]
  have emittedToo : (∃ v, v.severity = .blocking ∧ Exposed violations v) →
      ∃ v ∈ violations, v.severity = .blocking := by
    rintro ⟨v, blocking, before, after, rfl, _⟩
    exact ⟨v, by simp, blocking⟩
  constructor
  · intro sound
    by_cases some : ∃ v ∈ violations, v.severity = .blocking
    · exact .inr (sound.mpr some)
    · exact .inl (fun v member blocking => some ⟨v, member, blocking⟩)
  · rintro (none | exposed)
    · refine ⟨emittedToo, ?_⟩
      rintro ⟨v, member, blocking⟩
      exact absurd blocking (none v member)
    · exact ⟨emittedToo, fun _ => exposed⟩

/-- `dataset orders` with a field `id: int, unique` and the rule
    `@blocking: uniqueness(id) == 1.0`. -/
def uniqueOrders : DataContract ExtRat :=
  { DataContract.new "orders" with
    schema := [⟨"id", .int, [.unique]⟩]
    qualityRules := [⟨.uniqueness, "id", .eq, .fin 1, .blocking⟩] }

def twiceTheSameId : DataFrame ExtRat where
  height := 2
  columns := [.series "id" ⟨.int64, [some 7, some 7]⟩]
  aligned := by decide
  distinct := by decide

/-- The schema reports the duplicate as an Error first; the Blocking violation of the rule has the
    same column and check name and is dropped. -/
theorem unique_field_masks_blocking_rule :
    ∃ (report : ValidationReport ExtRat) (violations : List (Violation ExtRat)),
      BatchExecutor.execute exactEnv uniqueOrders (Compiler.compile uniqueOrders) twiceTheSameId
        none = .ok report ∧
      emitted exactEnv uniqueOrders (Compiler.compile uniqueOrders) twiceTheSameId =
        .ok violations ∧
      ¬ (report.passed = false ↔ ∃ v ∈ violations, v.severity = .blocking) := by
  obtain ⟨report, ran, passed⟩ := Results.ok_of_any
    (BatchExecutor.execute exactEnv uniqueOrders (Compiler.compile uniqueOrders) twiceTheSameId
      none) (·.passed) (by decide +kernel)
  obtain ⟨violations, emits, blocking⟩ := Results.ok_of_any
    (emitted exactEnv uniqueOrders (Compiler.compile uniqueOrders) twiceTheSameId)
    (·.any (·.severity == .blocking)) (by decide +kernel)
  rw [List.any_eq_true] at blocking
  obtain ⟨v, member, severity⟩ := blocking
  refine ⟨report, violations, ran, emits, fun sound => ?_⟩
  have closed := sound.mpr ⟨v, member, beq_iff_eq.mp severity⟩
  rw [passed] at closed
  cases closed

theorem gate_sound_iff_unique_orders :
    ∃ (report : ValidationReport ExtRat) (violations : List (Violation ExtRat)),
      BatchExecutor.execute exactEnv uniqueOrders (Compiler.compile uniqueOrders) twiceTheSameId
        none = .ok report ∧
      ((report.passed = false ↔ ∃ v ∈ violations, v.severity = .blocking) ↔
        (∀ v ∈ violations, v.severity ≠ .blocking) ∨
          ∃ v, v.severity = .blocking ∧ Exposed violations v) := by
  obtain ⟨report, ran, _⟩ := Results.ok_of_any
    (BatchExecutor.execute exactEnv uniqueOrders (Compiler.compile uniqueOrders) twiceTheSameId
      none) (·.passed) (by decide +kernel)
  obtain ⟨violations, _, _, emits, _⟩ := (execute_ok_iff ..).mp ran
  exact ⟨report, violations, ran, gate_sound_iff ran emits⟩

section DriftRules

variable {current refDf : DataFrame F}

/-- A stats rule of Blocking severity that the drift engine evaluates to a failure. -/
def BlockingDrift (env : Env F) (contract : DataContract F) (current refDf : DataFrame F) : Prop :=
  ∃ rule ∈ contract.statsRules, rule.severity = .blocking ∧
    ∃ result, DriftEngine.evaluateRule env current refDf rule = .ok (some result) ∧
      result.passed = false

/-- A failing Blocking drift rule never closes the gate by itself: the gate is closed only where
    a Blocking violation of another check is exposed. -/
theorem drift_gate_iff
    (ran : BatchExecutor.execute env contract dag current (some refDf) = .ok report)
    (emits : emitted env contract dag current = .ok violations) :
    (BlockingDrift env contract current refDf → report.passed = false) ↔
      ¬ BlockingDrift env contract current refDf ∨
        ∃ v, v.severity = .blocking ∧ Exposed violations v := by
  rw [gate_closed_iff_exposed ran emits]
  exact imp_iff_not_or

def driftingSales : DataContract ExtRat :=
  { DataContract.new "sales" with
    schema := [⟨"amount", .int, []⟩]
    statsRules := [⟨"amount", .mean, .lt, .fin (1 / 10), .blocking⟩] }

def amounts (a b : Int) : DataFrame ExtRat where
  height := 2
  columns := [.series "amount" ⟨.int64, [some a, some b]⟩]
  aligned := by simp [Column.len, Series.len]
  distinct := List.nodup_singleton _

theorem blocking_drift_passes_gate :
    ∃ report : ValidationReport ExtRat,
      BatchExecutor.execute exactEnv driftingSales (Compiler.compile driftingSales)
        (amounts 100 200) (some (amounts 1 2)) = .ok report ∧
      ¬ (BlockingDrift exactEnv driftingSales (amounts 100 200) (amounts 1 2) →
        report.passed = false) := by
  obtain ⟨report, ran, passed⟩ := Results.ok_of_any
    (BatchExecutor.execute exactEnv driftingSales (Compiler.compile driftingSales)
      (amounts 100 200) (some (amounts 1 2))) (·.passed) (by decide +kernel)
  obtain ⟨_ | result, evaluated, failed⟩ := Results.ok_of_any
    (DriftEngine.evaluateRule exactEnv (amounts 100 200) (amounts 1 2)
      ⟨"amount", .mean, .lt, .fin (1 / 10), .blocking⟩)
    (·.any (! ·.passed)) (by decide +kernel)
  · cases failed
  · refine ⟨report, ran, fun gate => ?_⟩
    have closed := gate ⟨_, List.mem_cons_self, rfl, result, evaluated, by simpa using failed⟩
    rw [passed] at closed
    cases closed

theorem drift_gate_iff_sales :
    ∃ (report : ValidationReport ExtRat) (violations : List (Violation ExtRat)),
      BatchExecutor.execute exactEnv driftingSales (Compiler.compile driftingSales)
        (amounts 100 200) (some (amounts 1 2)) = .ok report ∧
      ((BlockingDrift exactEnv driftingSales (amounts 100 200) (amounts 1 2) →
          report.passed = false) ↔
        ¬ BlockingDrift exactEnv driftingSales (amounts 100 200) (amounts 1 2) ∨
          ∃ v, v.severity = .blocking ∧ Exposed violations v) := by
  obtain ⟨report, ran, _⟩ := Results.ok_of_any
    (BatchExecutor.execute exactEnv driftingSales (Compiler.compile driftingSales)
      (amounts 100 200) (some (amounts 1 2))) (·.passed) (by decide +kernel)
  obtain ⟨violations, _, _, emits, _⟩ := (execute_ok_iff ..).mp ran
  exact ⟨report, violations, ran, drift_gate_iff ran emits⟩

end DriftRules

end StatGuardian.Engine
