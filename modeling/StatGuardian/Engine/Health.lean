import Mathlib.Tactic.Linarith
import Mathlib.Tactic.FieldSimp
import StatGuardian.Engine.Agreement
import StatGuardian.Engine.CheckNames
import StatGuardian.Runtime.ExactEnv

namespace StatGuardian.Engine

open StatGuardian.Core Metrics Polars Stats Validators

section Score

/-- What a violation costs, in tenths of a check. -/
def severityPoints : Severity → Nat
  | .blocking => 10
  | .error => 5
  | .warning => 1
  | .info => 0

def points {F : Type} (v : Violation F) : Nat := severityPoints v.severity

theorem sum_points (vs : List (Violation ExtRat)) :
    ((vs.map points).sum : ℚ) / 10 = vs.countP (·.severity == .blocking) * 1 +
      vs.countP (·.severity == .error) * (1 / 2) +
      vs.countP (·.severity == .warning) * (1 / 10) := by
  induction vs with
  | nil => simp
  | cons v vs ih =>
    rw [List.map_cons, List.sum_cons, Nat.cast_add, add_div, ih]
    simp only [List.countP_cons, points]
    cases v.severity <;> simp [severityPoints] <;> ring

/-- The share of the score that the violations use up, which is at most all of it. -/
def spentShare (spent totalChecks : Nat) : ℚ := min ((spent : ℚ) / (10 * max totalChecks 1 : Nat)) 1

theorem spentShare_le_iff (spent spent' totalChecks : Nat) :
    spentShare spent totalChecks ≤ spentShare spent' totalChecks ↔
      spent ≤ spent' ∨ 10 * max totalChecks 1 ≤ spent' := by
  have positive : (0 : ℚ) < (10 * max totalChecks 1 : Nat) := by
    exact_mod_cast (by omega : 0 < 10 * max totalChecks 1)
  rw [spentShare, spentShare, le_min_iff, min_le_iff, min_le_iff,
    and_iff_left (.inr (le_refl (1 : ℚ))), div_le_div_iff_of_pos_right positive,
    one_le_div positive, Nat.cast_le, Nat.cast_le]

/-- Without drift results the score is one minus seven tenths of the share that is used up. -/
theorem score_without_drift (vs : List (Violation ExtRat)) (totalChecks : Nat) :
    (DatasetHealthScore.compute vs [] totalChecks).score =
      .fin (1 - 7 / 10 * spentShare (vs.map points).sum totalChecks) := by
  have nonzero : ((max totalChecks 1 : Nat) : ℚ) ≠ 0 := by
    exact_mod_cast (by omega : max totalChecks 1 ≠ 0)
  have penalty : ((vs.countP (·.severity == .blocking) : ℚ) * 1 +
      vs.countP (·.severity == .error) * (1 / 2) +
      vs.countP (·.severity == .warning) * (1 / 10)) / (max totalChecks 1 : Nat) =
      ((vs.map points).sum : ℚ) / (10 * max totalChecks 1 : Nat) := by
    rw [← sum_points, div_div, Nat.cast_mul]
    rfl
  have lower : 0 ≤ spentShare (vs.map points).sum totalChecks :=
    le_min (by positivity) zero_le_one
  have upper : spentShare (vs.map points).sum totalChecks ≤ 1 := min_le_right _ _
  have unclamped : ∀ q : ℚ, 0 ≤ q → q ≤ 1 →
      clamp (ExtRat.fin q) Float64.zero Float64.one = ExtRat.fin q := by
    intro q low high
    have above : ¬ Float64.lt (ExtRat.fin q) Float64.zero = true :=
      mt (ExtRat.lt_fin q 0).mp (not_lt.mpr low)
    have below : ¬ Float64.gt (ExtRat.fin q) Float64.one = true :=
      mt (ExtRat.lt_fin 1 q).mp (not_lt.mpr high)
    rw [clamp, if_neg above, if_neg below]
  have mixed : (Float64.one - Float64.min ((Float64.ofNat (vs.countP (·.severity == .blocking)) *
      Float64.one + Float64.ofNat (vs.countP (·.severity == .error)) * Float64.ofRat (1 / 2) +
      Float64.ofNat (vs.countP (·.severity == .warning)) * Float64.ofRat (1 / 10)) /
        Float64.ofNat (max totalChecks 1)) Float64.one) * Float64.ofRat (7 / 10) +
      Float64.one * Float64.ofRat (3 / 10) =
      ExtRat.fin (1 - 7 / 10 * spentShare (vs.map points).sum totalChecks) := by
    have one : (Float64.one : ExtRat) = .fin 1 := rfl
    have rat : ∀ q, (Float64.ofRat q : ExtRat) = .fin q := fun _ => rfl
    simp only [one, rat, ExtRat.ofNat_fin, ExtRat.fin_mul, ExtRat.fin_add,
      ExtRat.fin_div _ _ nonzero, ExtRat.min_fin, ExtRat.fin_sub, penalty, ExtRat.fin.injEq]
    rw [← spentShare]
    ring
  show clamp (_ : ExtRat) Float64.zero Float64.one = _
  rw [← unclamped (1 - 7 / 10 * spentShare (vs.map points).sum totalChecks) (by linarith)
    (by linarith), ← mixed]
  rfl

end Score

variable {F : Type} [Float64 F]

/-- The checks a contract states, as against those it is compiled to. -/
def statedChecks (contract : DataContract F) : List (Check F) :=
  Check.direct contract ++ contract.anomalyRules.map (fun rule => .node (Compiler.anomalyNode rule))

/-- Whatever the contract checks and `a` fails, `b` fails as well. -/
def Worse (env : Env F) (contract : DataContract F) (a b : DataFrame F) : Prop :=
  ∀ check ∈ statedChecks contract, (check.report env a).isSome = true →
    (check.report env b).isSome = true

def totalChecks (contract : DataContract F) : Nat :=
  (Compiler.compile contract).nodeCount + contract.qualityRules.length

/-- What the check at a place adds to the penalty. -/
def pointsAt (env : Env F) (contract : DataContract F) (df : DataFrame F) (i : Nat) : Nat :=
  (Check.counted env df (checksOf contract) i).elim 0 points

/-- The violations of a frame use up all that the score allows for them. -/
def Exhausted (env : Env F) (contract : DataContract F) (df : DataFrame F) : Prop :=
  10 * max (totalChecks contract) 1 ≤
    ∑ i ∈ Finset.range (checksOf contract).length, pointsAt env contract df i

section Worse

variable (env : Env F) (df : DataFrame F)

theorem report_of_ran (n : DagNode F) (vs : List (Violation F))
    (ran : executeNode env df n = .ok vs) : (Check.node n).report env df = vs.head? := by
  rw [Check.report, ran]
  rfl

theorem quality_node_report (rule : QualityRule F) :
    (Check.node (Compiler.qualityNode rule)).report env df = (Check.quality rule).report env df := by
  have ran : executeNode env df (Compiler.qualityNode rule) =
      .ok (RuleEngine.evaluate env df [rule]) := rfl
  rw [report_of_ran env df _ _ ran, RuleEngine.evaluate, List.flatMap_singleton]
  rfl

theorem constraint_node_silent (f : FieldDef F) (c : Constraint F) (n : DagNode F)
    (compiled : Compiler.constraintNode f.name c = some n) (absent : df.column f.name = none) :
    (Check.node n).report env df = none := by
  have silent : ∀ check, onSeries df f.name check = [] := fun check => by
    rw [onSeries, getSeries, absent]
    rfl
  cases c <;> cases compiled <;>
    exact report_of_ran env df _ [] (congrArg Except.ok (silent _))

theorem constraint_report {f : FieldDef F} {col : Column F} (found : df.column f.name = some col)
    (c : Constraint F) : (Check.constraint f c).report env df =
      SchemaValidator.checkConstraint env col.asMaterializedSeries f.name c := by
  rw [Check.report, found]
  rfl

theorem constraint_node_report_iff (f : FieldDef F) (c : Constraint F) (n : DagNode F)
    (col : Column F) (found : df.column f.name = some col)
    (agree : Agree env df col.asMaterializedSeries f.name c n) :
    ((Check.node n).report env df).isSome = true ↔
      ((Check.constraint f c).report env df).isSome = true := by
  obtain ⟨vs, ran, reports, -⟩ := agree
  rw [report_of_ran env df n vs ran, constraint_report env df found, ← reports, List.isSome_head?]

theorem agree_of_counted (f : FieldDef F) (c : Constraint F) (n : DagNode F) (col : Column F)
    (compiled : Compiler.constraintNode f.name c = some n) (found : df.column f.name = some col)
    (counted : c = .unique → env.nUnique col.asMaterializedSeries ≠ none) :
    Agree env df col.asMaterializedSeries f.name c n := by
  by_cases unique : c = .unique
  · subst unique
    cases compiled
    exact (agree_unique_iff env found).mpr fun unknown => absurd unknown (counted rfl)
  · exact agree_of_not_unique env found c n compiled unique

/-- A column whose unique values are unknown passes for one without duplicates. -/
theorem unique_node_counts (column : String) (severity : Severity) (col : Column F)
    (found : df.column column = some col)
    (fails : ((Check.node (.uniquenessCheck column severity)).report env df).isSome = true) :
    env.nUnique col.asMaterializedSeries ≠ none := by
  intro unknown
  have ran : executeNode env df (.uniquenessCheck column severity) = .ok _ :=
    congrArg Except.ok (onSeries_found found _)
  simp only [unknown, Option.getD_none, ne_eq, not_true_eq_false, if_false] at ran
  rw [report_of_ran env df _ _ ran] at fails
  cases fails

/-- What worse data can only be spared of because a column's unique values cannot be counted. -/
def Uncounted (check : Check F) : Prop :=
  ∃ column severity s, check = .node (.uniquenessCheck column severity) ∧
    getSeries df column = some s ∧ env.nUnique s = none

omit [Float64 F] in
theorem mem_constraint_iff {contract : DataContract F} {f : FieldDef F} (c : Constraint F) :
    Check.constraint f c ∈ statedChecks contract ↔ f ∈ contract.schema ∧ c ∈ f.constraints := by
  simp only [statedChecks, Check.direct, Check.ofField, List.mem_append, List.mem_flatMap,
    List.mem_cons, List.mem_map]
  constructor
  · rintro (((⟨g, declared, same | ⟨d, own, same⟩⟩ | ⟨_, _, same⟩) | ⟨_, _, same⟩) | ⟨_, _, same⟩)
    · cases same
    · cases same
      exact ⟨declared, own⟩
    all_goals cases same
  · rintro ⟨declared, own⟩
    exact .inl (.inl (.inl ⟨f, declared, .inr ⟨c, own, rfl⟩⟩))

theorem reporting_node_cases {contract : DataContract F} {n : DagNode F}
    (raw : n ∈ Compiler.rawNodes contract)
    (fails : ((Check.node n).report env df).isSome = true) :
    (∃ f c col, Check.constraint f c ∈ statedChecks contract ∧
      Compiler.constraintNode f.name c = some n ∧ df.column f.name = some col ∧
      Agree env df col.asMaterializedSeries f.name c n) ∨
    (∃ rule, Check.quality rule ∈ statedChecks contract ∧ Compiler.qualityNode rule = n) ∨
    Check.node n ∈ statedChecks contract := by
  simp only [Compiler.rawNodes, Compiler.fieldNodes, List.mem_append, List.mem_flatMap,
    List.mem_cons, List.mem_filterMap, List.mem_map] at raw
  rcases raw with ((⟨f, declared, rfl | rfl | ⟨c, constrained, compiled⟩⟩ | ⟨rule, ruled, rfl⟩) |
    ⟨rule, _, rfl⟩) | ⟨rule, ruled, rfl⟩
  · cases fails
  · cases fails
  · cases found : df.column f.name with
    | none =>
      rw [constraint_node_silent env df f c n compiled found] at fails
      cases fails
    | some col =>
      have own := (mem_constraint_iff c).mpr ⟨declared, constrained⟩
      refine .inl ⟨f, c, col, own, compiled, found, ?_⟩
      refine agree_of_counted env df f c n col compiled found fun unique => ?_
      subst unique
      cases compiled
      exact unique_node_counts env df f.name .error col found fails
  · refine .inr (.inl ⟨rule, ?_, rfl⟩)
    simp only [statedChecks, Check.direct, List.mem_append, List.mem_map]
    exact .inl (.inl (.inr ⟨rule, ruled, rfl⟩))
  · cases fails
  · refine .inr (.inr ?_)
    simp only [statedChecks, List.mem_append, List.mem_map]
    exact .inr ⟨rule, ruled, rfl⟩

/-- Whatever of the compiled checks fails on a frame fails on worse data too. -/
theorem fails_of_worse {contract : DataContract F} {a b : DataFrame F}
    (worse : Worse env contract a b) (check : Check F) (member : check ∈ checksOf contract)
    (fails : (check.report env a).isSome = true) :
    (check.report env b).isSome = true ∨ Uncounted env b check := by
  rcases List.mem_append.mp member with stated | planned
  · exact .inl (worse check (List.mem_append_left _ stated) fails)
  obtain ⟨n, inside, rfl⟩ := List.mem_map.mp planned
  have raw := Optimizer.mem_of_mem_optimize _ n inside
  obtain ⟨f, c, colA, own, compiled, foundA, agreeA⟩ | ⟨rule, own, rfl⟩ | own :=
    reporting_node_cases env a raw fails
  · have failsB := worse _ own
      ((constraint_node_report_iff env a f c n colA foundA agreeA).mp fails)
    obtain ⟨colB, foundB, _⟩ := Option.bind_eq_some_iff.mp (Option.eq_some_of_isSome failsB)
    by_cases counted : c = .unique → env.nUnique colB.asMaterializedSeries ≠ none
    · have agreeB := agree_of_counted env b f c n colB compiled foundB counted
      exact .inl ((constraint_node_report_iff env b f c n colB foundB agreeB).mpr failsB)
    · obtain ⟨rfl, unknown⟩ := Classical.not_imp.mp counted
      cases compiled
      refine .inr ⟨f.name, .error, colB.asMaterializedSeries, rfl, ?_, not_not.mp unknown⟩
      rw [getSeries, foundB]
      rfl
  · rw [quality_node_report] at fails ⊢
    exact .inl (worse _ own fails)
  · exact .inl (worse _ own fails)

/-- On the frame the check at a place does not run behind a node that blocks, or the unique values
    that it asks for cannot be counted. -/
def Silenced (contract : DataContract F) (i : Nat) : Prop :=
  ∃ check, (checksOf contract)[i]? = some check ∧
    (Check.isHidden env df ((checksOf contract).take i) check = true ∨ Uncounted env df check)

/-- A check that counts on a frame is not heard on worse data only if it is silenced. -/
theorem silenced_of_worse {contract : DataContract F} {a b : DataFrame F}
    (worse : Worse env contract a b) {i : Nat} {v : Violation F}
    (counts : Check.counted env a (checksOf contract) i = some v)
    (silent : Check.heard env b (checksOf contract) i = none) : Silenced env b contract i := by
  rw [Check.counted_eq, Option.filter_eq_some_iff] at counts
  obtain ⟨check, placed, reports⟩ := Option.bind_eq_some_iff.mp counts.1
  refine ⟨check, placed, ?_⟩
  by_cases behind : Check.isHidden env b ((checksOf contract).take i) check = true
  · exact .inl behind
  · right
    have reportsA : (check.report env a).isSome = true := by
      split at reports
      · cases reports
      · rw [reports]; rfl
    have silentB : check.report env b = none := by
      simpa [Check.heard, placed, behind] using silent
    rcases fails_of_worse env worse check (List.mem_of_getElem? placed) reportsA with fails | unknown
    · rw [silentB] at fails
      cases fails
    · exact unknown

/-- The weight of a violation of the check at a place is lost on the frame: nothing that counts
    there under its column and name weighs as much, and the check is silenced, comes after another
    that reports under its column and name, or reports less severely itself. -/
structure Lost (contract : DataContract F) (i : Nat) (v : Violation F) : Prop where
  weighs : v.severity ≠ .info
  unmatched : ∀ j u, Check.counted env df (checksOf contract) j = some u → sameKey v u = true →
    points u < points v
  cause : Silenced env df contract i ∨ ∃ w, Check.heard env df (checksOf contract) i = some w ∧
    (Check.shadowed env df (checksOf contract) i w = true ∨ points w < points v)

/-- No violation that counts on `a` loses its weight on `b`. -/
def KeepsWeight (contract : DataContract F) (a b : DataFrame F) : Prop :=
  ∀ i v, Check.counted env a (checksOf contract) i = some v → ¬ Lost env b contract i v

/-- What counts on `b` counts on `a` under its column and name, and no less. -/
def AddsNothing (contract : DataContract F) (a b : DataFrame F) : Prop :=
  ∀ j u, Check.counted env b (checksOf contract) j = some u →
    ∃ i v, Check.counted env a (checksOf contract) i = some v ∧ sameKey v u = true ∧
      points u ≤ points v

end Worse

section Penalties

variable {env : Env F} {contract : DataContract F} {a b df : DataFrame F}

omit [Float64 F] in
theorem sameKey_eq {v w : Violation F} :
    sameKey v w = true ↔ v.column = w.column ∧ v.check = w.check := by
  simp [sameKey]

omit [Float64 F] in
theorem sameKey_symm (v w : Violation F) (same : sameKey v w = true) : sameKey w v = true := by
  rw [sameKey_eq] at same ⊢
  exact ⟨same.1.symm, same.2.symm⟩

omit [Float64 F] in
theorem sameKey_trans {v w u : Violation F} (left : sameKey v w = true)
    (right : sameKey w u = true) : sameKey v u = true := by
  rw [sameKey_eq] at left right ⊢
  exact ⟨left.1.trans right.1, left.2.trans right.2⟩

theorem counted_unique {i j : Nat} {v w : Violation F}
    (here : Check.counted env df (checksOf contract) i = some v)
    (there : Check.counted env df (checksOf contract) j = some w) (same : sameKey v w = true) :
    i = j :=
  FirstWins.first_unique sameKey _ sameKey_symm here there same

theorem reports_of_counted {i : Nat} {v : Violation F}
    (counts : Check.counted env df (checksOf contract) i = some v) :
    ∃ check, (checksOf contract)[i]? = some check ∧ check.report env df = some v := by
  rw [Check.counted_eq, Option.filter_eq_some_iff] at counts
  obtain ⟨check, placed, reports⟩ := Option.bind_eq_some_iff.mp counts.1
  refine ⟨check, placed, ?_⟩
  split at reports
  · cases reports
  · exact reports

theorem place_of_counted {i : Nat} {v : Violation F}
    (counts : Check.counted env df (checksOf contract) i = some v) :
    i ∈ Finset.range (checksOf contract).length := by
  obtain ⟨_, placed, _⟩ := reports_of_counted counts
  exact Finset.mem_range.mpr (List.getElem?_eq_some_iff.mp placed).1

theorem pointsAt_counted {i : Nat} {v : Violation F}
    (counts : Check.counted env df (checksOf contract) i = some v) :
    pointsAt env contract df i = points v := by
  rw [pointsAt, counts]
  rfl

theorem counted_of_pointsAt {i : Nat} (weighs : pointsAt env contract df i ≠ 0) :
    ∃ v, Check.counted env df (checksOf contract) i = some v ∧ v.severity ≠ .info := by
  cases counts : Check.counted env df (checksOf contract) i with
  | none => exact absurd (by rw [pointsAt, counts]; rfl) weighs
  | some v =>
    refine ⟨v, rfl, ?_⟩
    intro info
    apply weighs
    rw [pointsAt_counted counts, points, info]
    rfl

/-- What counts at one place on `a` counts at the other on `b`, under its name or as a report of the
    same check. -/
def Carried (env : Env F) (contract : DataContract F) (a b : DataFrame F) (i k : Nat) : Prop :=
  ∃ v u, Check.counted env a (checksOf contract) i = some v ∧
    Check.counted env b (checksOf contract) k = some u ∧ (sameKey v u = true ∨ i = k)

theorem carried_apart {i j k : Nat} (first : Carried env contract a b i k)
    (second : Carried env contract a b j k) : i = j := by
  obtain ⟨v, u, countsI, countsK, linkI⟩ := first
  obtain ⟨w, u', countsJ, countsK', linkJ⟩ := second
  obtain rfl := Option.some.inj (countsK.symm.trans countsK')
  -- one of the two takes the name that the other one's check changed to
  have mixed : ∀ {i j : Nat} {v w : Violation F},
      Check.counted env a (checksOf contract) i = some v →
      Check.counted env a (checksOf contract) j = some w → sameKey v u = true → j = k → i = j := by
    intro i j v w countsI countsJ same placed
    obtain ⟨other, _, theirs⟩ := reports_of_counted countsI
    obtain ⟨check, atJ, before⟩ := reports_of_counted countsJ
    obtain ⟨check', atK, after⟩ := reports_of_counted countsK
    rw [placed] at atJ
    obtain rfl := Option.some.inj (atJ.symm.trans atK)
    have kept := renamed_apart before after theirs same
    exact counted_unique countsI countsJ (sameKey_trans same (sameKey_symm _ _ kept))
  rcases linkI with sameI | placeI <;> rcases linkJ with sameJ | placeJ
  · exact counted_unique countsI countsJ (sameKey_trans sameI (sameKey_symm _ _ sameJ))
  · exact mixed countsI countsJ sameI placeJ
  · exact (mixed countsJ countsI sameJ placeI).symm
  · exact placeI.trans placeJ.symm

theorem carried_of_kept (worse : Worse env contract a b) (kept : KeepsWeight env contract a b)
    {i : Nat} (weighs : pointsAt env contract a i ≠ 0) :
    ∃ k ∈ Finset.range (checksOf contract).length, Carried env contract a b i k ∧
      pointsAt env contract a i ≤ pointsAt env contract b k := by
  obtain ⟨v, counts, severe⟩ := counted_of_pointsAt weighs
  rw [pointsAt_counted counts]
  by_cases matched : ∃ k u, Check.counted env b (checksOf contract) k = some u ∧
      sameKey v u = true ∧ points v ≤ points u
  · obtain ⟨k, u, there, same, heavy⟩ := matched
    refine ⟨k, place_of_counted there, ⟨v, u, counts, there, .inl same⟩, ?_⟩
    rw [pointsAt_counted there]
    exact heavy
  · have unmatched : ∀ k u, Check.counted env b (checksOf contract) k = some u →
        sameKey v u = true → points u < points v := by
      intro k u there same
      by_contra heavy
      exact matched ⟨k, u, there, same, not_lt.mp heavy⟩
    have spared : ¬ (Silenced env b contract i ∨
        ∃ w, Check.heard env b (checksOf contract) i = some w ∧
          (Check.shadowed env b (checksOf contract) i w = true ∨ points w < points v)) :=
      fun cause => kept i v counts ⟨severe, unmatched, cause⟩
    cases said : Check.heard env b (checksOf contract) i with
    | none => exact absurd (.inl (silenced_of_worse env worse counts said)) spared
    | some w =>
      have fresh : Check.shadowed env b (checksOf contract) i w = false :=
        Bool.eq_false_iff.mpr fun hidden => spared (.inr ⟨w, said, .inl hidden⟩)
      have heavy : points v ≤ points w :=
        not_lt.mp fun light => spared (.inr ⟨w, said, .inr light⟩)
      have here : Check.counted env b (checksOf contract) i = some w := by
        rw [Check.counted_eq, said, Option.filter_some, fresh]
        rfl
      refine ⟨i, place_of_counted here, ⟨v, w, counts, here, .inr rfl⟩, ?_⟩
      rw [pointsAt_counted here]
      exact heavy

theorem penalty_of_kept (worse : Worse env contract a b) (kept : KeepsWeight env contract a b) :
    ∑ i ∈ Finset.range (checksOf contract).length, pointsAt env contract a i ≤
      ∑ i ∈ Finset.range (checksOf contract).length, pointsAt env contract b i :=
  FirstWins.sum_le_of_matching (Carried env contract a b) carried_apart
    fun _ _ weighs => carried_of_kept worse kept weighs

theorem penalty_of_lost (adds : AddsNothing env contract a b) {i : Nat} {v : Violation F}
    (counts : Check.counted env a (checksOf contract) i = some v)
    (lost : Lost env b contract i v) :
    ∑ i ∈ Finset.range (checksOf contract).length, pointsAt env contract b i <
      ∑ i ∈ Finset.range (checksOf contract).length, pointsAt env contract a i := by
  apply FirstWins.sum_lt_of_matching (k := i)
    (fun j i => ∃ u v, Check.counted env b (checksOf contract) j = some u ∧
      Check.counted env a (checksOf contract) i = some v ∧ sameKey v u = true)
  · rintro j j' i ⟨u, v, countsJ, countsI, same⟩ ⟨u', v', countsJ', countsI', same'⟩
    obtain rfl := Option.some.inj (countsI.symm.trans countsI')
    exact counted_unique countsJ countsJ' (sameKey_trans (sameKey_symm _ _ same) same')
  · intro j _ weighs
    obtain ⟨u, countsJ, _⟩ := counted_of_pointsAt weighs
    obtain ⟨k, w, countsK, same, below⟩ := adds j u countsJ
    refine ⟨k, place_of_counted countsK, ⟨u, w, countsJ, countsK, same⟩, ?_⟩
    rw [pointsAt_counted countsJ, pointsAt_counted countsK]
    exact below
  · exact place_of_counted counts
  · rw [pointsAt_counted counts, points]
    have severe := lost.weighs
    revert severe
    cases v.severity <;> decide
  · rintro j _ ⟨u, w, countsJ, countsI, same⟩
    obtain rfl := Option.some.inj (counts.symm.trans countsI)
    rw [pointsAt_counted countsJ, pointsAt_counted counts]
    exact lost.unmatched j u countsJ same

end Penalties

theorem sum_merged_points (env : Env F) (contract : DataContract F) (df : DataFrame F)
    (violations : List (Violation F))
    (emits : emitted env contract (Compiler.compile contract) df = .ok violations) :
    ((mergeViolations violations).map points).sum =
      ∑ i ∈ Finset.range (checksOf contract).length, pointsAt env contract df i :=
  FirstWins.sum_merged _ keyOrder sameKey_iff violations _
    (emitted_heard env df contract violations emits) points

theorem score_of_report (env : Env ExtRat) (contract : DataContract ExtRat)
    (df : DataFrame ExtRat) (report : ValidationReport ExtRat)
    (ran : BatchExecutor.execute env contract (Compiler.compile contract) df none = .ok report) :
    report.health.score = .fin (1 - 7 / 10 * spentShare
      (∑ i ∈ Finset.range (checksOf contract).length, pointsAt env contract df i)
      (totalChecks contract)) := by
  obtain ⟨violations, drift, profile, emits, drifts, _, rfl⟩ := (execute_ok_iff ..).mp ran
  obtain rfl := Except.ok.inj drifts
  rw [← sum_merged_points env contract df violations emits]
  exact score_without_drift _ _

theorem le_score_iff (env : Env ExtRat) (contract : DataContract ExtRat)
    (a b : DataFrame ExtRat) (reportA reportB : ValidationReport ExtRat)
    (ranA : BatchExecutor.execute env contract (Compiler.compile contract) a none = .ok reportA)
    (ranB : BatchExecutor.execute env contract (Compiler.compile contract) b none = .ok reportB) :
    Float64.le reportB.health.score reportA.health.score = true ↔
      ∑ i ∈ Finset.range (checksOf contract).length, pointsAt env contract a i ≤
          ∑ i ∈ Finset.range (checksOf contract).length, pointsAt env contract b i ∨
        Exhausted env contract b := by
  rw [score_of_report env contract a reportA ranA, score_of_report env contract b reportB ranB,
    ExtRat.le_fin, Exhausted, ← spentShare_le_iff]
  constructor
  · intro less
    linarith
  · intro less
    linarith

/-- Worse data on which no violation loses its weight has no better score. Where nothing new counts
    on it and the score is not used up, no other worse data has. -/
theorem worse_scores_lower (env : Env ExtRat) (contract : DataContract ExtRat)
    (a b : DataFrame ExtRat) (reportA reportB : ValidationReport ExtRat)
    (ranA : BatchExecutor.execute env contract (Compiler.compile contract) a none = .ok reportA)
    (ranB : BatchExecutor.execute env contract (Compiler.compile contract) b none = .ok reportB)
    (worse : Worse env contract a b) :
    (KeepsWeight env contract a b →
        Float64.le reportB.health.score reportA.health.score = true) ∧
      (AddsNothing env contract a b → ¬ Exhausted env contract b →
        Float64.le reportB.health.score reportA.health.score = true →
        KeepsWeight env contract a b) := by
  rw [le_score_iff env contract a b reportA reportB ranA ranB]
  constructor
  · intro kept
    exact .inl (penalty_of_kept worse kept)
  · intro adds left less i v counts lost
    have more := penalty_of_lost adds counts lost
    exact absurd (less.resolve_right left) (not_le.mpr more)

section Orders

/-- `@info: assert amount > 0 when status == "draft"` and
    `@blocking: assert amount > 0 when status == "paid"`. -/
def positiveAmounts : DataContract ExtRat :=
  { DataContract.new "orders" with
    crossColumnRules :=
      [⟨"amount", .gt, .number (.fin 0), "status", .eq, .str "draft", .info⟩,
        ⟨"amount", .gt, .number (.fin 0), "status", .eq, .str "paid", .blocking⟩] }

def orders (paid draft : Int) : DataFrame ExtRat where
  height := 2
  columns := [.series "status" ⟨.string, [some "paid", some "draft"]⟩,
    .series "amount" ⟨.int64, [some paid, some draft]⟩]
  aligned := by simp [Column.len, Series.len]
  distinct := by simp [Column.name]

/-- `@error: assert amount > 0 when status == "paid"` and
    `@warning: assert status != "draft" when amount > 3`. -/
def paidAmounts : DataContract ExtRat :=
  { DataContract.new "orders" with
    crossColumnRules :=
      [⟨"amount", .gt, .number (.fin 0), "status", .eq, .str "paid", .error⟩,
        ⟨"status", .neq, .str "draft", "amount", .gt, .number (.fin 3), .warning⟩] }

/-- The unpaid order goes on counting once the draft is objected to as well. -/
theorem worse_scores_lower_orders :
    ∃ before after, BatchExecutor.execute exactEnv paidAmounts
        (Compiler.compile paidAmounts) (orders 0 3) none = .ok before ∧
      BatchExecutor.execute exactEnv paidAmounts (Compiler.compile paidAmounts)
        (orders 0 5) none = .ok after ∧
      Float64.le after.health.score before.health.score = true := by
  obtain ⟨before, ranBefore, _⟩ := Results.ok_of_any (BatchExecutor.execute exactEnv paidAmounts
    (Compiler.compile paidAmounts) (orders 0 3) none)
    (·.health.score == .fin (13 / 20)) (by decide +kernel)
  obtain ⟨after, ranAfter, _⟩ := Results.ok_of_any (BatchExecutor.execute exactEnv paidAmounts
    (Compiler.compile paidAmounts) (orders 0 5) none)
    (·.health.score == .fin (29 / 50)) (by decide +kernel)
  have worse : Worse exactEnv paidAmounts (orders 0 3) (orders 0 5) := by
    unfold Worse
    decide +kernel
  have matched : ∀ i < (checksOf paidAmounts).length,
      (Check.counted exactEnv (orders 0 3) (checksOf paidAmounts) i).all (fun v =>
        (Check.counted exactEnv (orders 0 5) (checksOf paidAmounts) i).any (fun u =>
          sameKey v u && decide (points v ≤ points u))) = true := by
    decide +kernel
  refine ⟨before, after, ranBefore, ranAfter, ?_⟩
  apply (worse_scores_lower exactEnv paidAmounts _ _ before after ranBefore ranAfter worse).1
  intro i v counts lost
  have same := matched i (Finset.mem_range.mp (place_of_counted counts))
  rw [counts, Option.all_some, Option.any_eq_true] at same
  obtain ⟨u, there, heavy⟩ := same
  rw [Bool.and_eq_true, decide_eq_true_eq] at heavy
  exact absurd (lost.unmatched i u there heavy.1) (not_lt.mpr heavy.2)

/-- Once the draft fails as well, its rule is the one that is reported. -/
theorem worse_orders_score_higher :
    Worse exactEnv positiveAmounts (orders 0 5) (orders 0 0) ∧
      ∃ before after, BatchExecutor.execute exactEnv positiveAmounts
          (Compiler.compile positiveAmounts) (orders 0 5) none = .ok before ∧
        BatchExecutor.execute exactEnv positiveAmounts (Compiler.compile positiveAmounts)
          (orders 0 0) none = .ok after ∧
        Float64.le after.health.score before.health.score = false := by
  constructor
  · unfold Worse
    decide +kernel
  · obtain ⟨before, ranBefore, low⟩ := Results.ok_of_any (BatchExecutor.execute exactEnv
      positiveAmounts (Compiler.compile positiveAmounts) (orders 0 5) none)
      (·.health.score == .fin (3 / 10)) (by decide +kernel)
    obtain ⟨after, ranAfter, high⟩ := Results.ok_of_any (BatchExecutor.execute exactEnv
      positiveAmounts (Compiler.compile positiveAmounts) (orders 0 0) none)
      (·.health.score == .fin 1) (by decide +kernel)
    refine ⟨before, after, ranBefore, ranAfter, ?_⟩
    rw [beq_iff_eq.mp low, beq_iff_eq.mp high]
    decide +kernel

end Orders

end StatGuardian.Engine
