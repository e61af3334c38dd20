import StatGuardian.Stats.Series
import StatGuardian.Core.Ast
import StatGuardian.Library.Results

namespace StatGuardian.Stats

open StatGuardian.Core Polars

structure DriftResult (F : Type) where
  column : String
  stat : String
  referenceValue : F
  currentValue : F
  drift : F
  threshold : F
  passed : Bool
  severity : Severity
  psi : Option F
  ksStat : Option F
  deriving DecidableEq, Repr

namespace DriftEngine

variable {F : Type} [Float64 F]

def toF64Vec (env : Env F) (series : Series F) : List F :=
  match env.castF64 series with
  | some ca => present ca
  | none => []

def psiTerm (env : Env F) (refN curN : F) (r c : Nat) : F :=
  let pRef := Float64.max (Float64.ofNat r / refN) (Float64.ofRat (1 / 10 ^ 9))
  let pCur := Float64.max (Float64.ofNat c / curN) (Float64.ofRat (1 / 10 ^ 9))
  (pCur - pRef) * env.ln (pCur / pRef)

def psi (env : Env F) (reference current : Series F) (bins : Nat) : Exec F :=
  let refVals := toF64Vec env reference
  let curVals := toF64Vec env current
  if refVals.isEmpty || curVals.isEmpty then .ok Float64.zero
  else
    let lo := Float64.min (refVals.foldl Float64.min Float64.infinity)
      (curVals.foldl Float64.min Float64.infinity)
    let hi := Float64.max (refVals.foldl Float64.max Float64.negInfinity)
      (curVals.foldl Float64.max Float64.negInfinity)
    if Float64.lt (Float64.abs (hi - lo)) Float64.epsilon then .ok Float64.zero
    else do
      let width := (hi - lo) / Float64.ofNat bins
      let refBuckets ← bucket refVals lo width bins
      let curBuckets ← bucket curVals lo width bins
      let refN := Float64.ofNat refVals.length
      let curN := Float64.ofNat curVals.length
      return Float64.sum (List.zipWith (psiTerm env refN curN) refBuckets curBuckets)

/-- The inner loops of `ks_statistic`: past the values equal to `x`. -/
def skipEqual (vals : List F) (x : F) (i : Nat) : Nat :=
  i + ((vals.drop i).takeWhile (fun v => Float64.eq v x)).length

structure KsState (F : Type) where
  i : Nat
  j : Nat
  maxDiff : F

def ksStep (refVals curVals : List F) (state : KsState F) : KsState F :=
  let rv := (refVals[state.i]?).getD Float64.infinity
  let cv := (curVals[state.j]?).getD Float64.infinity
  let i := if Float64.le rv cv then skipEqual refVals rv state.i else state.i
  let j := if Float64.le cv rv then skipEqual curVals cv state.j else state.j
  let nRef : F := Float64.ofNat refVals.length
  let nCur := Float64.ofNat curVals.length
  ⟨i, j, Float64.max state.maxDiff
    (Float64.abs (Float64.ofNat i / nRef - Float64.ofNat j / nCur))⟩

/-- The outer loop. Every round that advances uses up a value, so the bound only runs out on a
    loop that stands still. -/
def ksLoop (refVals curVals : List F) : Nat → KsState F → Exec F
  | bound, state =>
    if state.i < refVals.length ∨ state.j < curVals.length then
      match bound with
      | 0 => .error .divergence
      | bound + 1 => ksLoop refVals curVals bound (ksStep refVals curVals state)
    else .ok state.maxDiff

def ksStatistic (env : Env F) (reference current : Series F) : Exec F :=
  let refVals := toF64Vec env reference
  let curVals := toF64Vec env current
  if refVals.isEmpty || curVals.isEmpty then .ok Float64.zero
  else do
    let refVals ← env.sorter.run Float64.unwrapCmp refVals
    let curVals ← env.sorter.run Float64.unwrapCmp curVals
    ksLoop refVals curVals (refVals.length + curVals.length) ⟨0, 0, Float64.zero⟩

def computeStat (env : Env F) (series : Series F) (stat : StatFn) : Exec (Option F) :=
  match env.castF64 series with
  | none => .ok none
  | some ca =>
    match stat with
    | .mean => .ok (env.mean ca)
    | .std => .ok (env.std ca)
    | .min => .ok (env.min ca)
    | .max => .ok (env.max ca)
    | .median => quantileManual env ca (Float64.ofRat (1 / 2))
    | .p05 => quantileManual env ca (Float64.ofRat (5 / 100))
    | .p95 => quantileManual env ca (Float64.ofRat (95 / 100))
    | .p99 => quantileManual env ca (Float64.ofRat (99 / 100))
    | .p999 => quantileManual env ca (Float64.ofRat (999 / 1000))

/-- `if is_numeric(cur_series) { Some(..) } else { None }` -/
def ifNumeric (series : Series F) (value : Exec F) : Exec (Option F) :=
  if isNumeric series then some <$> value else .ok none

/-- The end of `evaluate_rule`, once both statistics are there. -/
def driftResult (env : Env F) (rule : StatsRule F) (curSeries refSeries : Series F)
    (curVal refVal : F) : Exec (DriftResult F) := do
  let drift :=
    if Float64.lt (Float64.abs refVal) (Float64.ofRat (1 / 10 ^ 9)) then
      Float64.abs (curVal - refVal)
    else Float64.abs (curVal - refVal) / Float64.abs refVal
  let psi ← ifNumeric curSeries (psi env refSeries curSeries 10)
  let ksStat ← ifNumeric curSeries (ksStatistic env refSeries curSeries)
  return {
    column := rule.column
    stat := rule.stat.display
    referenceValue := refVal
    currentValue := curVal
    drift := drift
    threshold := rule.threshold
    passed := rule.op.evaluate drift rule.threshold
    severity := rule.severity
    psi := psi
    ksStat := ksStat }

def ruleSeries (df : DataFrame F) (rule : StatsRule F) : Option (Series F) :=
  (df.column rule.column).bind Column.asSeries

def evaluateRule (env : Env F) (current reference : DataFrame F) (rule : StatsRule F) :
    Exec (Option (DriftResult F)) :=
  match ruleSeries current rule, ruleSeries reference rule with
  | some curSeries, some refSeries => do
    match ← computeStat env curSeries rule.stat with
    | none => return none
    | some curVal =>
      match ← computeStat env refSeries rule.stat with
      | none => return none
      | some refVal => some <$> driftResult env rule curSeries refSeries curVal refVal
  | _, _ => .ok none

def evaluate (env : Env F) (current reference : DataFrame F) (rules : List (StatsRule F)) :
    Exec (List (DriftResult F)) := do
  let results ← rules.mapM (evaluateRule env current reference)
  return results.filterMap id

def IsFor (rule : StatsRule F) (result : DriftResult F) : Prop :=
  result.column = rule.column ∧ result.stat = rule.stat.display ∧
    result.threshold = rule.threshold ∧ result.severity = rule.severity ∧
    result.passed = rule.op.evaluate result.drift rule.threshold

/-- The statistic of a rule on a frame, if the column is there as a series that has one. -/
def ruleStat (env : Env F) (df : DataFrame F) (rule : StatsRule F) : Exec (Option F) :=
  match ruleSeries df rule with
  | some series => computeStat env series rule.stat
  | none => .ok none

def Evaluable (env : Env F) (current reference : DataFrame F) (rule : StatsRule F) : Prop :=
  (∃ cur, ruleStat env current rule = .ok (some cur)) ∧
    ∃ ref, ruleStat env reference rule = .ok (some ref)

theorem Evaluable.congr {env : Env F} {current reference : DataFrame F} {rule other : StatsRule F}
    (column : rule.column = other.column) (stat : rule.stat = other.stat)
    (evaluable : Evaluable env current reference rule) :
    Evaluable env current reference other := by
  unfold Evaluable ruleStat ruleSeries at *
  rw [← column, ← stat]
  exact evaluable

theorem driftResult_isFor (env : Env F) (rule : StatsRule F) (curSeries refSeries : Series F)
    (curVal refVal : F) (result : DriftResult F)
    (ran : driftResult env rule curSeries refSeries curVal refVal = .ok result) :
    IsFor rule result := by
  simp only [driftResult, Results.bind_ok_iff, pure, Except.pure, Except.ok.injEq] at ran
  obtain ⟨_, _, _, _, rfl⟩ := ran
  exact ⟨rfl, rfl, rfl, rfl, rfl⟩

theorem evaluateRule_spec (env : Env F) (current reference : DataFrame F) (rule : StatsRule F)
    (answer : Option (DriftResult F))
    (ran : evaluateRule env current reference rule = .ok answer) :
    (answer.isSome = true ↔ Evaluable env current reference rule) ∧
      ∀ result, answer = some result → IsFor rule result := by
  unfold evaluateRule at ran
  unfold Evaluable ruleStat
  split at ran
  case h_1 curSeries refSeries curFound refFound =>
    rw [Results.bind_ok_iff] at ran
    obtain ⟨curVal, curRan, ran⟩ := ran
    simp only [curFound, refFound, curRan, Except.ok.injEq]
    cases curVal with
    | none => cases ran; simp
    | some curVal =>
      simp only [Results.bind_ok_iff] at ran
      obtain ⟨refVal, refRan, ran⟩ := ran
      simp only [refRan, Except.ok.injEq]
      cases refVal with
      | none => cases ran; simp
      | some refVal =>
        obtain ⟨result, finished, rfl⟩ := (Results.map_ok_iff ..).mp ran
        refine ⟨by simp, ?_⟩
        rintro _ ⟨⟩
        exact driftResult_isFor env rule curSeries refSeries curVal refVal _ finished
  case h_2 missing =>
    cases ran
    refine ⟨⟨nofun, ?_⟩, nofun⟩
    rintro ⟨⟨cur, curRan⟩, ref, refRan⟩
    cases curFound : ruleSeries current rule with
    | none => simp [curFound] at curRan
    | some curSeries =>
      cases refFound : ruleSeries reference rule with
      | none => simp [refFound] at refRan
      | some refSeries => exact absurd refFound (missing curSeries refSeries curFound)

theorem evaluate_ok_iff (env : Env F) (current reference : DataFrame F)
    (rules : List (StatsRule F)) (results : List (DriftResult F)) :
    evaluate env current reference rules = .ok results ↔
      ∃ answers, List.Forall₂ (fun rule answer => evaluateRule env current reference rule =
        .ok answer) rules answers ∧ results = answers.filterMap id := by
  simp only [evaluate, Results.bind_ok_iff, Results.mapM_ok_iff, pure, Except.pure,
    Except.ok.injEq]
  simp only [eq_comm]

end DriftEngine

end StatGuardian.Stats
