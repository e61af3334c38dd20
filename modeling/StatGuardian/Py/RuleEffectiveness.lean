import Mathlib.Algebra.Field.Rat
import StatGuardian.Py.OkfFiles

namespace StatGuardian.Py.Okf

open KeyedValues

structure RuleExecution where
  contractName : String
  ruleName : String
  passed : Bool
  issuesCaught : Int
  timestamp : String
  content : String
  deriving DecidableEq, Repr

/-- A call of `record_rule_execution`, with the reading of the clock. -/
structure RuleCall where
  contractName : String
  ruleName : String
  passed : Bool
  caughtIssues : Int := 0
  now : String := ""
  deriving DecidableEq, Repr

namespace RuleEffectiveness

def verdict (passed : Bool) : String := if passed then "✅ PASSED" else "❌ FAILED"

def ruleContent (call : RuleCall) : String :=
  s!"# Rule Execution\n\n**Contract:** {call.contractName}\n**Rule:** {call.ruleName}\n" ++
    s!"**Result:** {verdict call.passed}\n**Issues Caught:** {call.caughtIssues}\n"

def rulePost (call : RuleCall) : RuleExecution where
  contractName := call.contractName
  ruleName := call.ruleName
  passed := call.passed
  issuesCaught := call.caughtIssues
  timestamp := call.now
  content := ruleContent call

def ruleFile (call : RuleCall) : String := s!"{call.contractName}_{call.ruleName}.md"

def recordRuleExecution (fs : FileSystem RuleExecution) (rules : Files RuleExecution)
    (call : RuleCall) : Except OkfError (Files RuleExecution) :=
  writeText fs rules (ruleFile call) (rulePost call)

def rulePattern (contractName ruleName : String) : String := s!"{contractName}_{ruleName}*.md"

def getRuleSuccessRate (fs : FileSystem RuleExecution) (order : ListingOrder)
    (rules : Files RuleExecution) (contractName ruleName : String) : Except OkfError (Option ℚ) := do
  let executions ← glob fs order rules (rulePattern contractName ruleName)
  if executions.isEmpty then return none
  return some (executions.countP (fun execution => execution.2.passed) / executions.length)

def afterCall (fs : FileSystem RuleExecution) (rules : Files RuleExecution) (call : RuleCall) :
    Files RuleExecution :=
  (recordRuleExecution fs rules call).toOption.getD rules

def afterCalls (fs : FileSystem RuleExecution) (calls : List RuleCall) : Files RuleExecution :=
  calls.foldl (afterCall fs) ∅

def recorded (fs : FileSystem RuleExecution) (calls : List RuleCall) : List RuleCall :=
  calls.filter (fun call => fs.target (ruleFile call) ≠ .refused)

def Own (contractName ruleName : String) (call : RuleCall) : Prop :=
  call.contractName = contractName ∧ call.ruleName = ruleName

instance (contractName ruleName : String) (call : RuleCall) :
    Decidable (Own contractName ruleName call) :=
  inferInstanceAs (Decidable (_ ∧ _))

/-- The share of the executions of exactly this rule that passed. -/
def historicalRate (history : List RuleCall) (contractName ruleName : String) : Option ℚ :=
  let own := history.filter (fun call => Own contractName ruleName call)
  if own.isEmpty then none else some (own.countP (·.passed) / own.length)

def Found (fs : FileSystem RuleExecution) (contractName ruleName : String) (call : RuleCall) :
    Prop :=
  ∃ path, fs.target (ruleFile call) = .below path ∧
    Glob.fnmatch (RelativePath.collapse (rulePattern contractName ruleName)) path = true

/-- The rule's pattern stays in the directory, it finds a recorded file just if the rule was
    recorded, and what it finds went as every execution of the rule did. -/
structure Undisturbed (fs : FileSystem RuleExecution) (history : List RuleCall)
    (contractName ruleName : String) : Prop where
  level : Level (rulePattern contractName ruleName)
  both : (∃ call ∈ history, Own contractName ruleName call) ↔
    ∃ call ∈ history, Found fs contractName ruleName call
  agree : ∀ own ∈ history, Own contractName ruleName own → ∀ call ∈ history,
    Own contractName ruleName call ∨ Found fs contractName ruleName call → call.passed = own.passed

def entryFor (fs : FileSystem RuleExecution) (call : RuleCall) : Option (String × RuleExecution) :=
  entryAt fs (ruleFile call) (rulePost call)

theorem afterCalls_eq (fs : FileSystem RuleExecution) (calls : List RuleCall) :
    afterCalls fs calls = written ((recorded fs calls).filterMap (entryFor fs)) :=
  foldl_writeText fs ruleFile rulePost calls

section Rates

variable (fs : FileSystem RuleExecution) (order : ListingOrder) (calls : List RuleCall)
  (contractName ruleName : String)

def executions : List (String × RuleExecution) :=
  listing order (afterCalls fs calls) (RelativePath.collapse (rulePattern contractName ruleName))

theorem getRuleSuccessRate_level (level : Level (rulePattern contractName ruleName)) :
    getRuleSuccessRate fs order (afterCalls fs calls) contractName ruleName =
      .ok (if (executions fs order calls contractName ruleName).isEmpty then none
        else some ((executions fs order calls contractName ruleName).countP
          (fun execution => execution.2.passed) /
            (executions fs order calls contractName ruleName).length)) := by
  rw [getRuleSuccessRate, glob_level fs order _ level]
  change (if (executions fs order calls contractName ruleName).isEmpty then _ else _) = _
  split <;> rfl

variable {fs order calls contractName ruleName} in
/-- Every file the pattern finds holds an execution whose file the pattern finds. -/
theorem source_of_execution {path : String} {post : RuleExecution}
    (listed : (path, post) ∈ executions fs order calls contractName ruleName) :
    ∃ call ∈ recorded fs calls, Found fs contractName ruleName call ∧
      fs.target (ruleFile call) = .below path ∧ post.passed = call.passed := by
  obtain ⟨there, matched⟩ := (mem_listing order _ _ path post).mp listed
  rw [afterCalls_eq] at there
  obtain ⟨call, member, same⟩ := List.mem_filterMap.mp (mem_of_get_written there)
  obtain ⟨leads, made⟩ := entryAt_eq_some.mp same
  exact ⟨call, member, ⟨path, leads, matched⟩, leads, made ▸ rfl⟩

theorem executions_of_found (call : RuleCall) (member : call ∈ recorded fs calls)
    (found : Found fs contractName ruleName call) :
    executions fs order calls contractName ruleName ≠ [] := by
  obtain ⟨path, leads, matched⟩ := found
  have entry : (path, rulePost call) ∈ (recorded fs calls).filterMap (entryFor fs) :=
    List.mem_filterMap.mpr ⟨call, member, entryAt_eq_some.mpr ⟨leads, rfl⟩⟩
  obtain ⟨last, there⟩ := get_written_of_mem entry
  rw [← afterCalls_eq] at there
  exact List.ne_nil_of_mem ((mem_listing order _ _ _ last).mpr ⟨there, matched⟩)

theorem countP_uniform {α : Type*} (items : List α) (verdict : α → Bool) (all : Bool)
    (uniform : ∀ item ∈ items, verdict item = all) :
    items.countP verdict = if all then items.length else 0 := by
  cases all with
  | true => exact List.countP_eq_length.mpr uniform
  | false =>
    apply List.countP_eq_zero.mpr
    intro item member
    rw [uniform item member]
    exact Bool.false_ne_true

def uniformRate (all : Bool) : ℚ := if all then 1 else 0

theorem rate_uniform {α : Type*} (items : List α) (verdict : α → Bool) (all : Bool)
    (some_ : items ≠ []) (uniform : ∀ item ∈ items, verdict item = all) :
    ((items.countP verdict : ℚ) / items.length) = uniformRate all := by
  have length : (items.length : ℚ) ≠ 0 :=
    Nat.cast_ne_zero.mpr (List.length_eq_zero_iff.not.mpr some_)
  rw [countP_uniform items verdict all uniform]
  cases all with
  | true => exact div_self length
  | false =>
    change ((0 : ℕ) : ℚ) / _ = 0
    rw [Nat.cast_zero, zero_div]

theorem own_ne_nil {history : List RuleCall} {own : RuleCall} (member : own ∈ history)
    (exact_ : Own contractName ruleName own) :
    history.filter (fun call => Own contractName ruleName call) ≠ [] :=
  List.ne_nil_of_mem (List.mem_filter.mpr ⟨member, decide_eq_true exact_⟩)

theorem successRate_unrecorded (level : Level (rulePattern contractName ruleName))
    (unfound : ¬ ∃ call ∈ recorded fs calls, Found fs contractName ruleName call)
    (unowned : ¬ ∃ call ∈ recorded fs calls, Own contractName ruleName call) :
    getRuleSuccessRate fs order (afterCalls fs calls) contractName ruleName =
      .ok (historicalRate (recorded fs calls) contractName ruleName) := by
  have nothing : executions fs order calls contractName ruleName = [] := by
    apply List.eq_nil_iff_forall_not_mem.mpr
    intro ⟨path, post⟩ listed
    obtain ⟨source, kept, found, _⟩ := source_of_execution listed
    exact unfound ⟨source, kept, found⟩
  have mine : (recorded fs calls).filter (fun call => Own contractName ruleName call) = [] := by
    apply List.filter_eq_nil_iff.mpr
    intro call member theirs
    exact unowned ⟨call, member, of_decide_eq_true theirs⟩
  rw [getRuleSuccessRate_level fs order calls _ _ level, historicalRate]
  simp only [nothing, mine, List.isEmpty_nil, if_true]

theorem successRate_undisturbed
    (undisturbed : Undisturbed fs (recorded fs calls) contractName ruleName) :
    getRuleSuccessRate fs order (afterCalls fs calls) contractName ruleName =
      .ok (historicalRate (recorded fs calls) contractName ruleName) := by
  obtain ⟨level, both, agree⟩ := undisturbed
  by_cases some_ : ∃ call ∈ recorded fs calls, Own contractName ruleName call
  · obtain ⟨own, member, exact_⟩ := some_
    obtain ⟨call, inside, found⟩ := both.mp ⟨own, member, exact_⟩
    have listed := executions_of_found fs order calls contractName ruleName call inside found
    have mine := own_ne_nil contractName ruleName member exact_
    rw [getRuleSuccessRate_level fs order calls _ _ level, historicalRate]
    simp only [List.isEmpty_iff, listed, mine, if_false]
    congr 2
    rw [rate_uniform _ _ own.passed listed, rate_uniform _ _ own.passed mine]
    · intro other theirs
      obtain ⟨kept, theirs⟩ := List.mem_filter.mp theirs
      exact agree own member exact_ other kept (.inl (of_decide_eq_true theirs))
    · intro ⟨path, post⟩ also
      obtain ⟨source, kept, found, _, same⟩ := source_of_execution also
      rw [same]
      exact agree own member exact_ source kept (.inr found)
  · exact successRate_unrecorded fs order calls contractName ruleName level (both.not.mp some_)
      some_

theorem uniform_of_rate {α : Type*} (items : List α) (verdict : α → Bool) (all : Bool)
    (some_ : items ≠ []) (rate : ((items.countP verdict : ℚ) / items.length) = uniformRate all) :
    ∀ item ∈ items, verdict item = all := by
  have length : (items.length : ℚ) ≠ 0 :=
    Nat.cast_ne_zero.mpr (List.length_eq_zero_iff.not.mpr some_)
  rw [div_eq_iff length] at rate
  intro item member
  cases all with
  | true =>
    have counted : items.countP verdict = items.length := by
      change ((items.countP verdict : ℕ) : ℚ) = 1 * (items.length : ℚ) at rate
      rw [one_mul] at rate
      exact_mod_cast rate
    exact List.countP_eq_length.mp counted item member
  | false =>
    have counted : items.countP verdict = 0 := by
      change ((items.countP verdict : ℕ) : ℚ) = 0 * (items.length : ℚ) at rate
      rw [zero_mul] at rate
      exact_mod_cast rate
    exact Bool.eq_false_iff.mpr (List.countP_eq_zero.mp counted item member)

/-- The pattern finds exactly the executions of the rule, which all go to one file. -/
structure Alone : Prop where
  level : Level (rulePattern contractName ruleName)
  found_iff : ∀ call ∈ recorded fs calls,
    Found fs contractName ruleName call ↔ Own contractName ruleName call

section OneFile

variable {fs order calls contractName ruleName} (alone : Alone fs calls contractName ruleName)

include alone

theorem only_file (path : String) (post : RuleExecution)
    (listed : (path, post) ∈ executions fs order calls contractName ruleName) :
    fs.target s!"{contractName}_{ruleName}.md" = .below path := by
  obtain ⟨source, kept, found, leads, _⟩ := source_of_execution listed
  obtain ⟨contract, rule⟩ := (alone.found_iff source kept).mp found
  rw [← leads, ← contract, ← rule]
  rfl

theorem only_verdict (path : String) (last : RuleExecution)
    (listed : (path, last) ∈ executions fs order calls contractName ruleName) :
    ∀ entry ∈ executions fs order calls contractName ruleName, entry.2.passed = last.passed := by
  intro ⟨other, post⟩ also
  have same := (only_file alone _ _ also).symm.trans (only_file alone _ _ listed)
  obtain rfl := Target.below.inj same
  have here := ((mem_listing order _ _ other last).mp listed).1
  have there := ((mem_listing order _ _ other post).mp also).1
  rw [here] at there
  exact congrArg RuleExecution.passed (Option.some.inj there).symm

/-- Where there is just the rule's own file, the rate is that of its last execution. -/
theorem undisturbed_of_rate
    (rate : getRuleSuccessRate fs order (afterCalls fs calls) contractName ruleName =
      .ok (historicalRate (recorded fs calls) contractName ruleName)) :
    Undisturbed fs (recorded fs calls) contractName ruleName := by
  refine ⟨alone.level, ?_, ?_⟩
  · constructor
    · intro ⟨call, member, theirs⟩
      exact ⟨call, member, (alone.found_iff call member).mpr theirs⟩
    · intro ⟨call, member, found⟩
      exact ⟨call, member, (alone.found_iff call member).mp found⟩
  · intro own member exact_ call inside either
    have mine : Own contractName ruleName call :=
      either.elim id (alone.found_iff call inside).mp
    have listed := executions_of_found fs order calls contractName ruleName own member
      ((alone.found_iff own member).mpr exact_)
    have history := own_ne_nil contractName ruleName member exact_
    obtain ⟨⟨path, last⟩, some_⟩ := List.exists_mem_of_ne_nil _ listed
    rw [getRuleSuccessRate_level fs order calls _ _ alone.level, historicalRate] at rate
    simp only [List.isEmpty_iff, listed, history, if_false, Except.ok.injEq,
      Option.some.injEq] at rate
    rw [rate_uniform _ _ last.passed listed (only_verdict alone path last some_)] at rate
    have all := uniform_of_rate _ _ _ history rate.symm
    rw [all call (List.mem_filter.mpr ⟨inside, decide_eq_true mine⟩),
      all own (List.mem_filter.mpr ⟨member, decide_eq_true exact_⟩)]

end OneFile

/-- An undisturbed rule has its historical rate, and no other rule whose file alone is found. -/
theorem successRate_historical :
    (Undisturbed fs (recorded fs calls) contractName ruleName →
        getRuleSuccessRate fs order (afterCalls fs calls) contractName ruleName =
          .ok (historicalRate (recorded fs calls) contractName ruleName)) ∧
      (Alone fs calls contractName ruleName →
        getRuleSuccessRate fs order (afterCalls fs calls) contractName ruleName =
          .ok (historicalRate (recorded fs calls) contractName ruleName) →
        Undisturbed fs (recorded fs calls) contractName ruleName) :=
  ⟨successRate_undisturbed fs order calls contractName ruleName, undisturbed_of_rate⟩

end Rates

/-- Two passes and a failure leave a rate of 0. -/
theorem successRate_overwritten :
    getRuleSuccessRate (flatFileSystem _) ⟨id, fun _ => .refl _⟩
        (afterCalls (flatFileSystem _)
          [⟨"customers", "no_nulls", true, 0, ""⟩, ⟨"customers", "no_nulls", true, 0, ""⟩,
            ⟨"customers", "no_nulls", false, 0, ""⟩]) "customers" "no_nulls" ≠
      .ok (historicalRate (recorded (flatFileSystem _)
        [⟨"customers", "no_nulls", true, 0, ""⟩, ⟨"customers", "no_nulls", true, 0, ""⟩,
          ⟨"customers", "no_nulls", false, 0, ""⟩]) "customers" "no_nulls") := by
  decide +kernel

end RuleEffectiveness

end StatGuardian.Py.Okf
