import Mathlib.Algebra.Order.Floor.Ring
import Mathlib.Data.Int.Log
import Mathlib.Tactic.Linarith
import Mathlib.Tactic.NormNum
import Mathlib.Tactic.FieldSimp
import Mathlib.Tactic.Ring

namespace Rounding

theorem zpow_add_nat {K : Type*} [Field K] [NeZero (2 : K)] (e : ℤ) (n : ℕ) :
    (2 : K) ^ (e + n) = ((2 ^ n : ℤ) : K) * 2 ^ e := by
  rw [zpow_add₀ two_ne_zero, zpow_natCast]
  push_cast
  ring

variable {K : Type*} [Field K] [LinearOrder K] [IsStrictOrderedRing K] [FloorRing K]

section Integers

/-- The nearest integer, and of two the even one. -/
def roundEven (x : K) : ℤ :=
  if Int.fract x < 1 / 2 then ⌊x⌋
  else if 1 / 2 < Int.fract x then ⌊x⌋ + 1
  else if Even ⌊x⌋ then ⌊x⌋
  else ⌊x⌋ + 1

theorem roundEven_near (x : K) : |(roundEven x : K) - x| ≤ 1 / 2 := by
  have split : (⌊x⌋ : K) + Int.fract x = x := Int.floor_add_fract x
  have low := Int.fract_nonneg x
  have high := Int.fract_lt_one x
  unfold roundEven
  rw [abs_le]
  split_ifs with below above <;> push_cast <;> constructor <;> linarith

theorem roundEven_mono {x y : K} (le : x ≤ y) : roundEven x ≤ roundEven y := by
  by_contra less
  push Not at less
  have step : (roundEven y : K) + 1 ≤ roundEven x := by exact_mod_cast less
  have errorX := abs_le.mp (roundEven_near x)
  have errorY := abs_le.mp (roundEven_near y)
  -- both errors are a half, so the two numbers are one
  have same : x = y := by linarith
  rw [same] at less
  exact lt_irrefl _ less

theorem roundEven_intCast (z : ℤ) : roundEven (z : K) = z := by
  unfold roundEven
  rw [Int.fract_intCast, if_pos (by norm_num), Int.floor_intCast]

theorem roundEven_le {x : K} {z : ℤ} (le : x ≤ z) : roundEven x ≤ z := by
  rw [← roundEven_intCast (K := K) z]
  exact roundEven_mono le

theorem le_roundEven {x : K} {z : ℤ} (le : z ≤ x) : z ≤ roundEven x := by
  rw [← roundEven_intCast (K := K) z]
  exact roundEven_mono le

end Integers

/-- Binary floating point numbers without a largest one: a precision in bits and the exponent
    of the last place of the smallest. -/
structure Format where
  precision : ℕ
  minExponent : ℤ
  positive : 0 < precision

namespace Format

variable (f : Format)

/-- The exponent of the last place at the size of a number. -/
def exponent (x : K) : ℤ := max (Int.log 2 |x| - (f.precision - 1)) f.minExponent

def lastPlace (x : K) : K := 2 ^ f.exponent x

def round (x : K) : K := roundEven (x / f.lastPlace x) * f.lastPlace x

theorem lastPlace_pos (x : K) : 0 < f.lastPlace x := zpow_pos two_pos _

section Grid

variable {f} {x : K} {k : ℤ}

theorem round_le_of_le (le : x ≤ k * f.lastPlace x) : f.round x ≤ k * f.lastPlace x := by
  have scaled : x / f.lastPlace x ≤ k := (div_le_iff₀ (f.lastPlace_pos x)).mpr le
  exact mul_le_mul_of_nonneg_right (Int.cast_le.mpr (roundEven_le scaled)) (f.lastPlace_pos x).le

theorem le_round_of_le (le : k * f.lastPlace x ≤ x) : k * f.lastPlace x ≤ f.round x := by
  have scaled : (k : K) ≤ x / f.lastPlace x := (le_div_iff₀ (f.lastPlace_pos x)).mpr le
  exact mul_le_mul_of_nonneg_right (Int.cast_le.mpr (le_roundEven scaled)) (f.lastPlace_pos x).le

theorem round_of_multiple (multiple : x = k * f.lastPlace x) : f.round x = x :=
  le_antisymm ((round_le_of_le multiple.le).trans_eq multiple.symm)
    (multiple.trans_le (le_round_of_le multiple.symm.le))

end Grid

theorem lt_zpow_exponent (x : K) : |x| < 2 ^ (f.exponent x + f.precision) := by
  have log : |x| < 2 ^ (Int.log 2 |x| + 1) := by
    exact_mod_cast Int.lt_zpow_succ_log_self (by norm_num : 1 < 2) |x|
  refine log.trans_le (zpow_le_zpow_right₀ one_le_two ?_)
  have low := le_max_left (Int.log 2 |x| - (f.precision - 1)) f.minExponent
  unfold exponent
  omega

theorem zpow_exponent_le {x : K} (above : f.minExponent < f.exponent x) (nonzero : x ≠ 0) :
    2 ^ (f.exponent x + f.precision - 1) ≤ |x| := by
  have log : 2 ^ Int.log 2 |x| ≤ |x| := by
    exact_mod_cast Int.zpow_log_le_self (by norm_num : 1 < 2) (abs_pos.mpr nonzero)
  refine (zpow_le_zpow_right₀ one_le_two ?_).trans log
  unfold exponent at above ⊢
  omega

theorem exponent_le_of_lt {x : K} {e : ℤ} (least : f.minExponent ≤ e) (nonzero : x ≠ 0)
    (small : |x| < 2 ^ (e + f.precision)) : f.exponent x ≤ e := by
  by_contra above
  push Not at above
  have leading := f.zpow_exponent_le (least.trans_lt above) nonzero
  have less : (2 : K) ^ (f.exponent x + f.precision - 1) < 2 ^ (e + f.precision) :=
    leading.trans_lt small
  rw [zpow_lt_zpow_iff_right₀ one_lt_two] at less
  omega

theorem exponent_mono {x y : K} (nonzero : x ≠ 0) (le : |x| ≤ |y|) :
    f.exponent x ≤ f.exponent y := by
  have logs := Int.log_mono_right (b := 2) (abs_pos.mpr nonzero) le
  unfold exponent
  omega

section Monotone

variable {f} {x y : K}

theorem round_nonneg (nonneg : 0 ≤ x) : 0 ≤ f.round x := by
  have bound := le_round_of_le (f := f) (x := x) (k := 0)
  simp only [Int.cast_zero, zero_mul] at bound
  exact bound nonneg

theorem round_nonpos (nonpos : x ≤ 0) : f.round x ≤ 0 := by
  have bound := round_le_of_le (f := f) (x := x) (k := 0)
  simp only [Int.cast_zero, zero_mul] at bound
  exact bound nonpos

variable (f) in
theorem round_size (x : K) : |f.round x| ≤ 2 ^ (f.exponent x + f.precision) := by
  have small := abs_le.mp (f.lt_zpow_exponent x).le
  rw [zpow_add_nat] at small
  rw [abs_le, zpow_add_nat]
  constructor
  · have bound := le_round_of_le (f := f) (x := x) (k := -2 ^ f.precision)
    rw [Int.cast_neg, neg_mul] at bound
    exact bound small.1
  · exact round_le_of_le small.2

theorem le_round_size (above : f.minExponent < f.exponent x) (nonzero : x ≠ 0) :
    (0 < x → 2 ^ (f.exponent x + f.precision - 1) ≤ f.round x) ∧
      (x < 0 → f.round x ≤ -2 ^ (f.exponent x + f.precision - 1)) := by
  have leading := f.zpow_exponent_le above nonzero
  obtain ⟨n, more⟩ := Nat.exists_eq_succ_of_ne_zero f.positive.ne'
  have digits : f.exponent x + f.precision - 1 = f.exponent x + n := by omega
  rw [digits, zpow_add_nat] at leading
  rw [digits, zpow_add_nat]
  constructor
  · intro positive
    rw [abs_of_pos positive] at leading
    exact le_round_of_le leading
  · intro negative
    rw [abs_of_neg negative] at leading
    have bound := round_le_of_le (f := f) (x := x) (k := -2 ^ n)
    rw [Int.cast_neg, neg_mul] at bound
    exact bound (le_neg_of_le_neg leading)

theorem round_mono_of_exponent_eq (le : x ≤ y) (same : f.exponent x = f.exponent y) :
    f.round x ≤ f.round y := by
  have places : f.lastPlace x = f.lastPlace y := by rw [lastPlace, lastPlace, same]
  have positive := f.lastPlace_pos y
  unfold round
  rw [places]
  refine mul_le_mul_of_nonneg_right (Int.cast_le.mpr (roundEven_mono ?_)) positive.le
  exact div_le_div_of_nonneg_right le positive.le

theorem round_mono (le : x ≤ y) : f.round x ≤ f.round y := by
  by_cases left : x ≤ 0
  · by_cases right : 0 ≤ y
    · exact (round_nonpos left).trans (round_nonneg right)
    · push Not at right
      have size : |y| ≤ |x| := by rw [abs_of_neg right, abs_of_nonpos left]; exact neg_le_neg le
      rcases (f.exponent_mono right.ne size).eq_or_lt with same | less
      · exact round_mono_of_exponent_eq le same.symm
      · have negative := le.trans_lt right
        have least : f.minExponent < f.exponent x := (le_max_right _ _).trans_lt less
        have low := (le_round_size least negative.ne).2 negative
        have high := (abs_le.mp (f.round_size y)).1
        have between : (2 : K) ^ (f.exponent y + f.precision) ≤
            2 ^ (f.exponent x + f.precision - 1) := zpow_le_zpow_right₀ one_le_two (by omega)
        linarith
  · push Not at left
    have right := left.trans_le le
    have size : |x| ≤ |y| := by rwa [abs_of_pos left, abs_of_pos right]
    rcases (f.exponent_mono left.ne' size).eq_or_lt with same | less
    · exact round_mono_of_exponent_eq le same
    · have least : f.minExponent < f.exponent y := (le_max_right _ _).trans_lt less
      have high := (le_round_size least right.ne').1 right
      have low := (abs_le.mp (f.round_size x)).2
      have between : (2 : K) ^ (f.exponent x + f.precision) ≤
          2 ^ (f.exponent y + f.precision - 1) := zpow_le_zpow_right₀ one_le_two (by omega)
      linarith

end Monotone

section Representable

variable {k e : ℤ}

theorem round_of_lt (least : f.minExponent ≤ e) (fits : |k| < 2 ^ f.precision) :
    f.round (k * 2 ^ e : K) = k * 2 ^ e := by
  by_cases zero : (k * 2 ^ e : K) = 0
  · rw [zero]
    exact le_antisymm (round_nonpos le_rfl) (round_nonneg le_rfl)
  · have small : |(k * 2 ^ e : K)| < 2 ^ (e + f.precision) := by
      rw [abs_mul, abs_of_pos (zpow_pos two_pos e : (0 : K) < 2 ^ e), zpow_add_nat]
      exact mul_lt_mul_of_pos_right (by exact_mod_cast fits) (zpow_pos two_pos e)
    obtain ⟨n, more⟩ := Int.le.dest (f.exponent_le_of_lt least zero small)
    refine round_of_multiple (k := k * 2 ^ n) ?_
    rw [lastPlace]
    nth_rewrite 1 [← more]
    rw [zpow_add_nat]
    push_cast
    ring

/-- A number with no more digits than the precision is itself its rounding. -/
theorem round_of_fits (least : f.minExponent ≤ e) (fits : |k| ≤ 2 ^ f.precision) :
    f.round (k * 2 ^ e : K) = k * 2 ^ e := by
  rcases fits.lt_or_eq with less | most
  · exact f.round_of_lt least less
  · obtain ⟨n, more⟩ := Nat.exists_eq_succ_of_ne_zero f.positive.ne'
    have power : (0 : ℤ) < 2 ^ n := pow_pos two_pos n
    have double : (2 : ℤ) ^ f.precision = 2 ^ n * 2 := by rw [more, pow_succ]
    have half : ∃ h : ℤ, k = h * 2 ∧ |h| < 2 ^ f.precision := by
      rw [double] at most ⊢
      rcases (abs_eq (by omega)).mp most with positive | negative
      · exact ⟨2 ^ n, positive, by rw [abs_of_pos power]; omega⟩
      · exact ⟨-2 ^ n, by omega, by rw [abs_neg, abs_of_pos power]; omega⟩
    obtain ⟨h, rfl, fewer⟩ := half
    have shifted : ((h * 2 : ℤ) * 2 ^ e : K) = h * 2 ^ (e + 1) := by
      rw [zpow_add_one₀ two_ne_zero]
      push_cast
      ring
    rw [shifted]
    exact f.round_of_lt (least.trans (by omega)) fewer

theorem round_fits (x : K) :
    ∃ k : ℤ, |k| ≤ 2 ^ f.precision ∧ f.round x = k * 2 ^ f.exponent x := by
  refine ⟨roundEven (x / f.lastPlace x), ?_, rfl⟩
  have size := f.round_size x
  rw [round, zpow_add_nat, abs_mul, abs_of_pos (f.lastPlace_pos x)] at size
  exact_mod_cast le_of_mul_le_mul_right size (f.lastPlace_pos x)

theorem round_round (x : K) : f.round (f.round x) = f.round x := by
  obtain ⟨k, fits, rounded⟩ := f.round_fits x
  rw [rounded]
  exact f.round_of_fits (le_max_right _ _) fits

theorem round_intCast {z : ℤ} (least : f.minExponent ≤ 0) (fits : |z| ≤ 2 ^ f.precision) :
    f.round (z : K) = z := by
  have whole := f.round_of_fits (K := K) least fits
  rwa [zpow_zero, mul_one] at whole

end Representable

end Format

end Rounding
