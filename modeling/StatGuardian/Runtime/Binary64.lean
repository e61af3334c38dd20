import StatGuardian.Library.Rounding
import StatGuardian.Runtime.ExtRat

namespace StatGuardian

open Rounding

/-- The doubles without a largest one: 53 bits, the last place of the smallest at `2^-1074`. -/
def doubleFormat : Format where
  precision := 53
  minExponent := -1074
  positive := by decide

def overflow : ℚ := 2 ^ 1024

theorem lt_overflow : 2 ^ 53 < overflow := pow_lt_pow_right₀ one_lt_two (by decide)

namespace ExtRat

/-- Round to nearest, ties to even, and to an infinity where the doubles end. -/
def toDouble : ExtRat → ExtRat
  | fin q =>
    let rounded := doubleFormat.round q
    if overflow ≤ rounded then posInf
    else if rounded ≤ -overflow then negInf
    else fin rounded
  | x => x

theorem toDouble_toDouble (x : ExtRat) : x.toDouble.toDouble = x.toDouble := by
  cases x with
  | fin q =>
    rw [toDouble]
    split_ifs with high low
    · rfl
    · rfl
    · rw [toDouble, doubleFormat.round_round]
      simp only [high, low, if_false]
  | nan | negInf | posInf => rfl

theorem toDouble_mono {p q : ℚ} (le : p ≤ q) :
    (partialCmp (fin p).toDouble (fin q).toDouble).any Ordering.isLE = true := by
  have rounded : doubleFormat.round p ≤ doubleFormat.round q := Format.round_mono le
  have positive := lt_overflow
  simp only [toDouble]
  split_ifs
  all_goals first
    | rfl
    | exact (cmpRat_isLE _ _).mpr rounded
    | linarith

theorem eq_of_partialCmp {x y : ExtRat} (same : partialCmp x y = some .eq) : x = y := by
  cases x <;> cases y <;> simp only [partialCmp, Option.some.injEq, reduceCtorEq] at same ⊢
  case fin.fin p q =>
    unfold cmpRat at same
    split_ifs at same with less more
    exact congrArg fin (le_antisymm (not_lt.mp more) (not_lt.mp less))

/-- A root cut off after six hundred bits, with half a bit more where it goes on: it lies on the
    same side of every double and of every midpoint as the root itself. -/
def longSqrt : ExtRat → ExtRat
  | nan | negInf => nan
  | posInf => posInf
  | fin q =>
    if q < 0 then nan
    else
      let scaled := q.num.toNat * 4 ^ 600
      let root := Nat.sqrt (scaled / q.den)
      fin ((if root * root * q.den = scaled then root else root + 1 / 2) / 2 ^ 600)

end ExtRat

/-- The `f64` of IEEE 754, with one zero and one NaN. -/
structure Binary64 where
  value : ExtRat
  rounded : value.toDouble = value
  deriving DecidableEq

namespace Binary64

def nearest (x : ExtRat) : Binary64 := ⟨x.toDouble, x.toDouble_toDouble⟩

instance : Float64 Binary64 where
  add a b := nearest (a.value + b.value)
  sub a b := nearest (a.value - b.value)
  mul a b := nearest (a.value * b.value)
  div a b := nearest (a.value / b.value)
  decEq := inferInstance
  partialCmp a b := a.value.partialCmp b.value
  abs a := nearest a.value.abs
  sqrt a := nearest a.value.longSqrt
  round a := nearest a.value.round
  ofRat q := nearest (.fin q)
  toUsize a := a.value.toUsize
  infinity := ⟨.posInf, rfl⟩
  negInfinity := ⟨.negInf, rfl⟩
  infinity_number := rfl
  partialCmp_isSome a b := Float64.partialCmp_isSome a.value b.value
  partialCmp_swap a b := Float64.partialCmp_swap a.value b.value
  partialCmp_trans a b c := Float64.partialCmp_trans a.value b.value c.value
  partialCmp_infinity a := Float64.partialCmp_infinity a.value

theorem eq_of_partialCmp {a b : Binary64} (same : Float64.partialCmp a b = some .eq) : a = b := by
  have values : a.value = b.value := ExtRat.eq_of_partialCmp same
  cases a
  cases b
  cases values
  rfl

section Literals

theorem le_ofRat {p q : ℚ} (le : p ≤ q) :
    Float64.le (Float64.ofRat p : Binary64) (Float64.ofRat q) = true := ExtRat.toDouble_mono le

/-- Of two literals, rounding either keeps the order or makes them one. -/
theorem lt_ofRat (p q : ℚ) : Float64.lt (Float64.ofRat p : Binary64) (Float64.ofRat q) = true ↔
    p < q ∧ (Float64.ofRat p : Binary64) ≠ Float64.ofRat q := by
  rw [Float64.lt, beq_iff_eq]
  constructor
  · intro less
    refine ⟨?_, fun same => ?_⟩
    · by_contra more
      have back := le_ofRat (not_lt.mp more)
      rw [Float64.le, ← Float64.partialCmp_swap, less] at back
      cases back
    · have self := le_ofRat (le_refl q)
      rw [same] at less
      have swapped := Float64.partialCmp_swap (Float64.ofRat q : Binary64) (Float64.ofRat q)
      rw [less] at swapped
      cases swapped
  · rintro ⟨less, apart⟩
    have le := le_ofRat less.le
    unfold Float64.le at le
    cases compared : Float64.partialCmp (Float64.ofRat p : Binary64) (Float64.ofRat q) with
    | none =>
      rw [compared] at le
      cases le
    | some order =>
      rw [compared] at le
      cases order with
      | lt => rfl
      | eq => exact absurd (eq_of_partialCmp compared) apart
      | gt => cases le

theorem toDouble_intCast {z : ℤ} (small : |z| ≤ 2 ^ 53) :
    (ExtRat.fin z).toDouble = .fin z := by
  have exact_ : doubleFormat.round (z : ℚ) = z :=
    doubleFormat.round_intCast (by decide) small
  have bound := abs_le.mp small
  have high : (z : ℚ) ≤ 2 ^ 53 := by exact_mod_cast bound.2
  have low : -2 ^ 53 ≤ (z : ℚ) := by exact_mod_cast bound.1
  simp only [ExtRat.toDouble, exact_]
  have far := lt_overflow
  rw [if_neg (by linarith), if_neg (by linarith)]

theorem le_ofRat_intCast {y z : ℤ} (smallY : |y| ≤ 2 ^ 53) (smallZ : |z| ≤ 2 ^ 53) :
    Float64.le (Float64.ofRat y : Binary64) (Float64.ofRat z) = true ↔ y ≤ z := by
  show (ExtRat.partialCmp (ExtRat.fin y).toDouble (ExtRat.fin z).toDouble).any _ = true ↔ _
  rw [toDouble_intCast smallY, toDouble_intCast smallZ, ← Int.cast_le (R := ℚ)]
  exact ExtRat.cmpRat_isLE y z

theorem le_ofRat_small {b : ℤ} (small : |b| < 2 ^ 53) (z : ℤ) :
    (Float64.le (Float64.ofRat z : Binary64) (Float64.ofRat b) = true ↔ z ≤ b) ∧
      (Float64.le (Float64.ofRat b : Binary64) (Float64.ofRat z) = true ↔ b ≤ z) := by
  have bound := abs_lt.mp small
  have size : ∀ y : ℤ, |y - b| ≤ 1 → |y| ≤ 2 ^ 53 := by
    intro y near
    rw [abs_le] at near ⊢
    omega
  constructor
  · refine ⟨fun le => ?_, fun le => le_ofRat (Int.cast_le.mpr le)⟩
    by_contra above
    have next : Float64.le (Float64.ofRat (b + 1 : ℤ) : Binary64) (Float64.ofRat z) = true :=
      le_ofRat (Int.cast_le.mpr (by omega))
    have back := Float64.partialCmp_trans _ _ _ next le
    have := (le_ofRat_intCast (size _ (by simp)) small.le).mp back
    omega
  · refine ⟨fun le => ?_, fun le => le_ofRat (Int.cast_le.mpr le)⟩
    by_contra below
    have next : Float64.le (Float64.ofRat z : Binary64) (Float64.ofRat (b - 1 : ℤ)) = true :=
      le_ofRat (Int.cast_le.mpr (by omega))
    have back := Float64.partialCmp_trans _ _ _ le next
    have := (le_ofRat_intCast small.le (size _ (by simp))).mp back
    omega

theorem ofRat_intCast_inj {b : ℤ} (small : |b| < 2 ^ 53) {z : ℤ}
    (same : (Float64.ofRat z : Binary64) = Float64.ofRat b) : z = b := by
  have self : Float64.le (Float64.ofRat b : Binary64) (Float64.ofRat b) = true := le_ofRat le_rfl
  have sides := le_ofRat_small small z
  rw [same] at sides
  exact le_antisymm (sides.1.mp self) (sides.2.mp self)

end Literals

end Binary64

end StatGuardian
