import StatGuardian.Core.ConstraintReading
import StatGuardian.Engine.RowReports
import StatGuardian.Runtime.Binary64
import StatGuardian.Runtime.PlainEnv

namespace StatGuardian.Engine

open StatGuardian.Core Core.Rendering Polars Validators

section Bounds

structure IntegerLiteral where
  numeral : Numeral
  value : ℤ
  is_value : numeral.value = value

inductive IntegerBound where
  | positive | negative
  | min (b : IntegerLiteral)
  | max (b : IntegerLiteral)
  | between (low high : IntegerLiteral)

namespace IntegerBound

def written : IntegerBound → WrittenConstraint
  | positive => .positive
  | negative => .negative
  | min b => .min b.numeral
  | max b => .max b.numeral
  | between low high => .between low.numeral high.numeral

def Violates : IntegerBound → ℤ → Prop
  | positive, x => x ≤ 0
  | negative, x => 0 ≤ x
  | min b, x => x < b.value
  | max b, x => b.value < x
  | between low high, x => x < low.value ∨ high.value < x

/-- Two integers that the nearest doubles tell apart. -/
def Apart (x y : ℤ) : Prop := (Float64.ofRat x : Binary64) ≠ Float64.ofRat y

/-- The violations that are left after both sides are rounded. -/
def Seen : IntegerBound → ℤ → Prop
  | positive, x => x ≤ 0
  | negative, x => 0 ≤ x
  | min b, x => x < b.value ∧ Apart x b.value
  | max b, x => b.value < x ∧ Apart b.value x
  | between low high, x =>
    (x < low.value ∧ Apart x low.value) ∨ (high.value < x ∧ Apart high.value x)

def fails : IntegerBound → Binary64 → Bool
  | positive, x => Float64.le x Float64.zero
  | negative, x => Float64.ge x Float64.zero
  | min b, x => Float64.lt x (Float64.ofRat b.numeral.value)
  | max b, x => Float64.gt x (Float64.ofRat b.numeral.value)
  | between low high, x =>
    Float64.lt x (Float64.ofRat low.numeral.value) ||
      Float64.gt x (Float64.ofRat high.numeral.value)

/-- The written bounds are below `2^53`. -/
def Small : IntegerBound → Prop
  | positive | negative => True
  | min b | max b => |b.value| < 2 ^ 53
  | between low high => |low.value| < 2 ^ 53 ∧ |high.value| < 2 ^ 53

theorem violates_of_seen (bound : IntegerBound) (x : ℤ) (seen : bound.Seen x) :
    bound.Violates x := by
  cases bound with
  | positive | negative => exact seen
  | min b | max b => exact seen.1
  | between low high => exact seen.imp And.left And.left

theorem apart_of_small {b x : ℤ} (small : |b| < 2 ^ 53) (different : x ≠ b) : Apart x b :=
  mt (Binary64.ofRat_intCast_inj small) different

theorem seen_of_small (bound : IntegerBound) (small : bound.Small) (x : ℤ)
    (violates : bound.Violates x) : bound.Seen x := by
  cases bound with
  | positive | negative => exact violates
  | min b => exact ⟨violates, apart_of_small small violates.ne⟩
  | max b => exact ⟨violates, (apart_of_small small violates.ne').symm⟩
  | between low high =>
    refine violates.imp (fun below => ?_) (fun above => ?_)
    · exact ⟨below, apart_of_small small.1 below.ne⟩
    · exact ⟨above, (apart_of_small small.2 above.ne').symm⟩

end IntegerBound

def integers {F : Type} : Series F → Option (List (Option ℤ))
  | ⟨.int64, cells⟩ => some cells
  | ⟨.uint64, cells⟩ => some (cells.map (Option.map Int.ofNat))
  | _ => none

/-- polars casts a 64-bit integer to the nearest double. -/
structure CastsIntegers (env : Env Binary64) : Prop where
  int64 : env.castCell .int64 = some (fun i : ℤ => some (Float64.ofRat i))
  uint64 : env.castCell .uint64 = some (fun n : ℕ => some (Float64.ofRat n))

theorem castF64_integers {env : Env Binary64} (casts : CastsIntegers env) {series : Series Binary64}
    {xs : List (Option ℤ)} (whole : integers series = some xs) :
    env.castF64 series = some (xs.map (Option.map fun x : ℤ => Float64.ofRat x)) := by
  obtain ⟨dtype, cells⟩ := series
  cases dtype <;> simp only [integers, Option.some.injEq, reduceCtorEq] at whole
  case int64 =>
    subst whole
    rw [Env.castF64, casts.int64]
    refine congrArg some (List.map_congr_left fun cell _ => ?_)
    cases cell <;> rfl
  case uint64 =>
    subst whole
    rw [Env.castF64, casts.uint64, List.map_map]
    refine congrArg some (List.map_congr_left fun cell _ => ?_)
    cases cell <;> rfl

theorem rounded_fails_iff {xs : List (Option ℤ)} {fails : Binary64 → Bool} {bad : ℤ → Prop}
    (same : ∀ x : ℤ, fails (Float64.ofRat x) = true ↔ bad x) (i : Nat) :
    (∃ y, (xs.map (Option.map fun x : ℤ => (Float64.ofRat x : Binary64)))[i]? = some (some y) ∧
      fails y = true) ↔ ∃ x, xs[i]? = some (some x) ∧ bad x := by
  simp only [List.getElem?_map, Option.map_eq_some_iff]
  constructor
  · rintro ⟨y, ⟨_, here, x, rfl, rfl⟩, fail⟩
    exact ⟨x, here, (same x).mp fail⟩
  · rintro ⟨x, here, fail⟩
    exact ⟨_, ⟨some x, here, x, rfl, rfl⟩, (same x).mpr fail⟩

theorem lt_iff (x y : ℤ) : Float64.lt (Float64.ofRat x : Binary64) (Float64.ofRat y) = true ↔
    x < y ∧ IntegerBound.Apart x y := by
  rw [Binary64.lt_ofRat, Int.cast_lt]
  rfl

theorem IntegerBound.fails_iff (bound : IntegerBound) (x : ℤ) :
    bound.fails (Float64.ofRat x) = true ↔ bound.Seen x := by
  cases bound with
  | positive => exact_mod_cast (Binary64.le_ofRat_small (b := 0) (by decide) x).1
  | negative => exact_mod_cast (Binary64.le_ofRat_small (b := 0) (by decide) x).2
  | min b =>
    rw [fails, b.is_value]
    exact lt_iff x b.value
  | max b =>
    rw [fails, Float64.gt, b.is_value]
    exact lt_iff b.value x
  | between low high =>
    rw [fails, Bool.or_eq_true, Float64.gt, low.is_value, high.is_value]
    exact or_congr (lt_iff x low.value) (lt_iff high.value x)

theorem schema_reports_iff {env : Env Binary64} (casts : CastsIntegers env)
    {series : Series Binary64} {xs : List (Option ℤ)} (whole : integers series = some xs)
    (column : String) (bound : IntegerBound) (i : Nat) :
    (∃ v, SchemaValidator.checkConstraint env series column (bound.written.reading Binary64) =
      some v ∧ i ∈ v.rowIndices) ↔ ∃ x, xs[i]? = some (some x) ∧ bound.Seen x := by
  rw [← rounded_fails_iff bound.fails_iff i]
  have cast := castF64_integers casts whole
  cases bound with
  | positive | negative | min | max | between =>
    simp only [IntegerBound.written, WrittenConstraint.reading, WrittenConstraint.value,
      SchemaValidator.checkConstraint, cast, Option.bind_eq_bind, Option.bind_some,
      failing_reports_iff]
    rfl

/-- The rows that either report fail the bound, and those they leave out round to it. -/
theorem integer_bound_reports (env : Env Binary64) (casts : CastsIntegers env)
    (df : DataFrame Binary64) (column : String) (col : Column Binary64)
    (found : df.column column = some col) (xs : List (Option ℤ))
    (whole : integers col.asMaterializedSeries = some xs) (bound : IntegerBound) :
    ∃ c, Parser.parseConstraint bound.written.pair = .ok c ∧
      (∀ i, BothReport env df col.asMaterializedSeries column c i
        (∃ x, xs[i]? = some (some x) ∧ bound.Seen x)) ∧
      (∀ x, bound.Seen x → bound.Violates x) ∧
      (bound.Small → ∀ x, bound.Violates x → bound.Seen x) := by
  refine ⟨_, parseConstraint_pair bound.written, fun i => ?_, bound.violates_of_seen,
    bound.seen_of_small⟩
  obtain ⟨node, compiled, other⟩ : ∃ node,
      Compiler.constraintNode column (bound.written.reading Binary64) = some node ∧
        bound.written.reading Binary64 ≠ .unique := by
    cases bound with
    | positive | negative | min | max | between =>
      refine ⟨_, rfl, ?_⟩
      simp [IntegerBound.written, WrittenConstraint.reading, WrittenConstraint.value]
  have schema := schema_reports_iff casts whole column bound i
  exact (bothReport_iff found compiled other i _).mpr schema

end Bounds

section Counts

def binaryEnv : Env Binary64 := plainEnv (fun x => x) (fun _ => "")

theorem binaryEnv_casts : CastsIntegers binaryEnv := ⟨rfl, rfl⟩

def counted (xs : List (Option Int)) : Column Binary64 := .series "n" ⟨.int64, xs⟩

def counts (xs : List (Option Int)) : DataFrame Binary64 where
  height := xs.length
  columns := [counted xs]
  aligned := by simp [counted, Column.len, Series.len]
  distinct := List.nodup_singleton _

def naturalLiteral (n : ℕ) : IntegerLiteral := ⟨.ofNat n, n, Numeral.value_ofNat n⟩

theorem integer_bound_reports_between :
    ∃ c, Parser.parseConstraint
        (IntegerBound.between (naturalLiteral 5) (naturalLiteral 10)).written.pair = .ok c ∧
      (∀ i, BothReport binaryEnv (counts [some 4, none, some 7])
        (counted [some 4, none, some 7]).asMaterializedSeries "n" c i
        (∃ x, [some 4, none, some 7][i]? = some (some x) ∧
          (IntegerBound.between (naturalLiteral 5) (naturalLiteral 10)).Seen x)) ∧
      (∀ x, (IntegerBound.between (naturalLiteral 5) (naturalLiteral 10)).Seen x →
        (IntegerBound.between (naturalLiteral 5) (naturalLiteral 10)).Violates x) ∧
      ((IntegerBound.between (naturalLiteral 5) (naturalLiteral 10)).Small → ∀ x,
        (IntegerBound.between (naturalLiteral 5) (naturalLiteral 10)).Violates x →
        (IntegerBound.between (naturalLiteral 5) (naturalLiteral 10)).Seen x) :=
  integer_bound_reports binaryEnv binaryEnv_casts (counts [some 4, none, some 7]) "n" _ rfl _ rfl _

/-- The first integer that is not a double: the one below it passes as its minimum. -/
theorem bound_past_doubles_missed :
    ¬ ∃ c, Parser.parseConstraint
        (IntegerBound.min (naturalLiteral (2 ^ 53 + 1))).written.pair = .ok c ∧
      ∀ i, BothReport binaryEnv (counts [some (2 ^ 53)])
        (counted [some (2 ^ 53)]).asMaterializedSeries "n" c i
        (∃ x, [some (2 ^ 53)][i]? = some (some x) ∧
          (IntegerBound.min (naturalLiteral (2 ^ 53 + 1))).Violates x) := by
  rintro ⟨c, read, exact_⟩
  rw [parseConstraint_pair, Except.ok.injEq] at read
  subst read
  have bad := (exact_ 0).schema.mpr ⟨2 ^ 53, rfl, by show (2 : ℤ) ^ 53 < _; decide⟩
  rw [schema_reports_iff binaryEnv_casts rfl] at bad
  obtain ⟨x, here, -, apart⟩ := bad
  obtain rfl : 2 ^ 53 = x := by simpa using here
  exact apart (by decide +kernel)

end Counts

end StatGuardian.Engine
