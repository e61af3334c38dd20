import Mathlib.Analysis.SpecialFunctions.Log.Basic
import Mathlib.Analysis.SpecialFunctions.Sqrt
import Mathlib.Order.Compare
import StatGuardian.Runtime.Float64

namespace StatGuardian

/-- Exact arithmetic on the reals with infinities and a NaN. -/
inductive ExtReal where
  | nan
  | negInf
  | fin (x : ℝ)
  | posInf

namespace ExtReal

noncomputable section

def partialCmp : ExtReal → ExtReal → Option Ordering
  | nan, _ | _, nan => none
  | negInf, negInf | posInf, posInf => some .eq
  | negInf, _ | _, posInf => some .lt
  | posInf, _ | _, negInf => some .gt
  | fin x, fin y => some (cmp x y)

def neg : ExtReal → ExtReal
  | nan => nan
  | negInf => posInf
  | posInf => negInf
  | fin x => fin (-x)

def add : ExtReal → ExtReal → ExtReal
  | nan, _ | _, nan => nan
  | posInf, negInf | negInf, posInf => nan
  | posInf, _ | _, posInf => posInf
  | negInf, _ | _, negInf => negInf
  | fin x, fin y => fin (x + y)

/-- An infinity with the sign of a number, NaN for zero. -/
def scaleInf (x : ℝ) : ExtReal := if 0 < x then posInf else if x < 0 then negInf else nan

def mul : ExtReal → ExtReal → ExtReal
  | nan, _ | _, nan => nan
  | posInf, posInf | negInf, negInf => posInf
  | posInf, negInf | negInf, posInf => negInf
  | posInf, fin x | fin x, posInf => scaleInf x
  | negInf, fin x | fin x, negInf => scaleInf (-x)
  | fin x, fin y => fin (x * y)

def div : ExtReal → ExtReal → ExtReal
  | nan, _ | _, nan => nan
  | posInf, posInf | posInf, negInf | negInf, posInf | negInf, negInf => nan
  | fin _, posInf | fin _, negInf => fin 0
  | posInf, fin x => if x < 0 then negInf else posInf
  | negInf, fin x => if x < 0 then posInf else negInf
  | fin x, fin y => if y = 0 then scaleInf x else fin (x / y)

def abs : ExtReal → ExtReal
  | nan => nan
  | negInf | posInf => posInf
  | fin x => fin |x|

def sqrt : ExtReal → ExtReal
  | nan | negInf => nan
  | posInf => posInf
  | fin x => if x < 0 then nan else fin (Real.sqrt x)

def half : ℝ := ((1 / 2 : ℚ) : ℝ)

/-- Half away from zero. -/
def round : ExtReal → ExtReal
  | fin x => fin (if x < 0 then -((⌊-x + half⌋ : ℤ) : ℝ) else ((⌊x + half⌋ : ℤ) : ℝ))
  | x => x

def toUsize : ExtReal → Nat
  | nan | negInf => 0
  | posInf => 2 ^ 64 - 1
  | fin x => min ⌊x⌋.toNat (2 ^ 64 - 1)

def ln : ExtReal → ExtReal
  | nan | negInf => nan
  | posInf => posInf
  | fin x => if x < 0 then nan else if x = 0 then negInf else fin (Real.log x)

theorem cmp_isLE (x y : ℝ) : (cmp x y).isLE = true ↔ x ≤ y := by
  rcases lt_trichotomy x y with less | same | more
  · rw [(cmp_eq_lt_iff x y).mpr less]
    exact iff_of_true rfl less.le
  · rw [(cmp_eq_eq_iff x y).mpr same]
    exact iff_of_true rfl same.le
  · rw [(cmp_eq_gt_iff x y).mpr more]
    exact iff_of_false Bool.false_ne_true more.not_ge

theorem partialCmp_swap (a b : ExtReal) :
    (partialCmp a b).map Ordering.swap = partialCmp b a := by
  cases a <;> cases b
  case fin.fin x y => exact congrArg some (cmp_swap x y)
  all_goals rfl

theorem partialCmp_trans (a b c : ExtReal) (first : (partialCmp a b).any Ordering.isLE = true)
    (second : (partialCmp b c).any Ordering.isLE = true) :
    (partialCmp a c).any Ordering.isLE = true := by
  cases a <;> cases b <;> cases c
  case fin.fin.fin x y z =>
    have least : x ≤ y := (cmp_isLE x y).mp first
    have most : y ≤ z := (cmp_isLE y z).mp second
    exact (cmp_isLE x z).mpr (least.trans most)
  all_goals first
    | rfl
    | exact absurd first Bool.false_ne_true
    | exact absurd second Bool.false_ne_true

instance : Float64 ExtReal where
  add := add
  sub a b := add a (neg b)
  mul := mul
  div := div
  decEq := Classical.decEq ExtReal
  partialCmp := partialCmp
  abs := abs
  sqrt := sqrt
  round := round
  ofRat q := fin q
  toUsize := toUsize
  infinity := posInf
  negInfinity := negInf
  infinity_number := rfl
  partialCmp_isSome a b := by cases a <;> cases b <;> rfl
  partialCmp_swap := partialCmp_swap
  partialCmp_trans := partialCmp_trans
  partialCmp_infinity a number := by cases a <;> first | rfl | cases number

end

section Finite

variable (x y : ℝ)

theorem ofNat_fin (n : Nat) : (Float64.ofNat n : ExtReal) = fin n := by
  show fin (((n : ℚ) : ℝ)) = fin n
  rw [Rat.cast_natCast]

theorem fin_add : fin x + fin y = fin (x + y) := rfl

theorem fin_sub : fin x - fin y = fin (x - y) := by
  rw [sub_eq_add_neg]
  rfl

theorem fin_mul : fin x * fin y = fin (x * y) := rfl

theorem fin_div (divisor : y ≠ 0) : fin x / fin y = fin (x / y) := by
  show div (fin x) (fin y) = _
  rw [div, if_neg divisor]

theorem lt_fin : Float64.lt (fin x) (fin y) = true ↔ x < y := by
  show (some (cmp x y) == some .lt) = true ↔ _
  rw [beq_iff_eq, Option.some.injEq, cmp_eq_lt_iff]

theorem min_fin : Float64.min (fin x) (fin y) = fin (min x y) := by
  have number : ∀ z, Float64.isNan (fin z) = false := fun _ => rfl
  rw [Float64.min, number, number, if_neg (by simp), if_neg (by simp)]
  by_cases less : y < x
  · rw [if_pos ((lt_fin y x).mpr less), min_eq_right less.le]
  · rw [if_neg (mt (lt_fin y x).mp less), min_eq_left (not_lt.mp less)]

theorem max_fin : Float64.max (fin x) (fin y) = fin (max x y) := by
  have number : ∀ z, Float64.isNan (fin z) = false := fun _ => rfl
  rw [Float64.max, number, number, if_neg (by simp), if_neg (by simp)]
  by_cases less : x < y
  · rw [if_pos ((lt_fin x y).mpr less), max_eq_right less.le]
  · rw [if_neg (mt (lt_fin x y).mp less), max_eq_left (not_lt.mp less)]

theorem abs_fin : Float64.abs (fin x) = fin |x| := rfl

theorem ln_fin (positive : 0 < x) : ln (fin x) = fin (Real.log x) := by
  rw [ln, if_neg positive.not_gt, if_neg positive.ne']

end Finite

end ExtReal

end StatGuardian
