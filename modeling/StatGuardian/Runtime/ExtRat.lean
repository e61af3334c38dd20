import StatGuardian.Runtime.Float64

namespace StatGuardian

/-- Exact arithmetic on the rationals with infinities and a NaN: what `f64` computes as long as
    no result has to be rounded. -/
inductive ExtRat where
  | nan
  | negInf
  | fin (q : ℚ)
  | posInf
  deriving DecidableEq, Repr

namespace ExtRat

def cmpRat (p q : ℚ) : Ordering := if p < q then .lt else if q < p then .gt else .eq

def partialCmp : ExtRat → ExtRat → Option Ordering
  | nan, _ | _, nan => none
  | negInf, negInf | posInf, posInf => some .eq
  | negInf, _ | _, posInf => some .lt
  | posInf, _ | _, negInf => some .gt
  | fin p, fin q => some (cmpRat p q)

def neg : ExtRat → ExtRat
  | nan => nan
  | negInf => posInf
  | posInf => negInf
  | fin q => fin (-q)

def add : ExtRat → ExtRat → ExtRat
  | nan, _ | _, nan => nan
  | posInf, negInf | negInf, posInf => nan
  | posInf, _ | _, posInf => posInf
  | negInf, _ | _, negInf => negInf
  | fin p, fin q => fin (p + q)

/-- An infinity with the sign of a number, NaN for zero. -/
def scaleInf (q : ℚ) : ExtRat := if 0 < q then posInf else if q < 0 then negInf else nan

def mul : ExtRat → ExtRat → ExtRat
  | nan, _ | _, nan => nan
  | posInf, posInf | negInf, negInf => posInf
  | posInf, negInf | negInf, posInf => negInf
  | posInf, fin q | fin q, posInf => scaleInf q
  | negInf, fin q | fin q, negInf => scaleInf (-q)
  | fin p, fin q => fin (p * q)

def div : ExtRat → ExtRat → ExtRat
  | nan, _ | _, nan => nan
  | posInf, posInf | posInf, negInf | negInf, posInf | negInf, negInf => nan
  | fin _, posInf | fin _, negInf => fin 0
  | posInf, fin q => if q < 0 then negInf else posInf
  | negInf, fin q => if q < 0 then posInf else negInf
  | fin p, fin q => if q = 0 then scaleInf p else fin (p / q)

def abs : ExtRat → ExtRat
  | nan => nan
  | negInf | posInf => posInf
  | fin q => fin (if q < 0 then -q else q)

/-- Cut off after twenty decimals. -/
def sqrt : ExtRat → ExtRat
  | nan | negInf => nan
  | posInf => posInf
  | fin q =>
    if q < 0 then nan
    else fin ((Nat.sqrt (q.num.toNat * q.den * 10 ^ 40) : ℚ) / (q.den * 10 ^ 20))

/-- Half away from zero. -/
def round : ExtRat → ExtRat
  | fin q => fin (if q < 0 then -((-q + 1 / 2).floor : ℚ) else ((q + 1 / 2).floor : ℚ))
  | x => x

def toUsize : ExtRat → Nat
  | nan | negInf => 0
  | posInf => 2 ^ 64 - 1
  | fin q => min q.floor.toNat (2 ^ 64 - 1)

theorem cmpRat_swap (p q : ℚ) : (cmpRat p q).swap = cmpRat q p := by
  unfold cmpRat
  by_cases less : p < q
  · simp [less, not_lt.mpr less.le]
  · by_cases more : q < p <;> simp [less, more]

theorem cmpRat_isLE (p q : ℚ) : (cmpRat p q).isLE = true ↔ p ≤ q := by
  unfold cmpRat
  by_cases less : p < q
  · simp [less, less.le]
  · by_cases more : q < p
    · simp [less, more]
    · simp [less, more, not_lt.mp more]

theorem partialCmp_trans (a b c : ExtRat) (first : (partialCmp a b).any Ordering.isLE = true)
    (second : (partialCmp b c).any Ordering.isLE = true) :
    (partialCmp a c).any Ordering.isLE = true := by
  cases a <;> cases b <;> cases c <;>
    simp_all only [partialCmp, Option.any_some, Option.any_none, Ordering.isLE_lt,
      Ordering.isLE_eq, Ordering.isLE_gt, cmpRat_isLE, Bool.false_eq_true]
  exact first.trans second

instance : Float64 ExtRat where
  add := add
  sub a b := add a (neg b)
  mul := mul
  div := div
  decEq := inferInstance
  partialCmp := partialCmp
  abs := abs
  sqrt := sqrt
  round := round
  ofRat := fin
  toUsize := toUsize
  infinity := posInf
  negInfinity := negInf
  infinity_number := rfl
  partialCmp_isSome a b := by cases a <;> cases b <;> rfl
  partialCmp_swap a b := by
    cases a <;> cases b <;> simp [partialCmp, cmpRat_swap]
  partialCmp_trans := partialCmp_trans
  partialCmp_infinity a number := by cases a <;> first | rfl | cases number

theorem cmpRat_eq_lt_iff (p q : ℚ) : cmpRat p q = .lt ↔ p < q := by
  unfold cmpRat
  by_cases less : p < q
  · simp [less]
  · by_cases more : q < p <;> simp [less, more]

theorem gt_fin_mono {p q : ℚ} (le : p ≤ q) (x : ExtRat) (more : Float64.gt (fin p) x = true) :
    Float64.gt (fin q) x = true := by
  cases x with
  | fin r =>
    have below : (cmpRat r p == .lt) = true := more
    rw [beq_iff_eq, cmpRat_eq_lt_iff] at below
    show (cmpRat r q == .lt) = true
    rw [beq_iff_eq, cmpRat_eq_lt_iff]
    exact lt_of_lt_of_le below le
  | negInf => rfl
  | nan | posInf => cases more

section Finite

variable (p q : ℚ)

theorem ofNat_fin (n : Nat) : (Float64.ofNat n : ExtRat) = fin n := rfl

theorem fin_add : fin p + fin q = fin (p + q) := rfl

theorem fin_sub : fin p - fin q = fin (p - q) := by
  rw [sub_eq_add_neg]
  rfl

theorem fin_mul : fin p * fin q = fin (p * q) := rfl

theorem fin_div (divisor : q ≠ 0) : fin p / fin q = fin (p / q) := by
  show div (fin p) (fin q) = _
  rw [div, if_neg divisor]

theorem lt_fin : Float64.lt (fin p) (fin q) = true ↔ p < q := by
  show (some (cmpRat p q) == some .lt) = true ↔ _
  rw [beq_iff_eq, Option.some.injEq, cmpRat_eq_lt_iff]

theorem le_fin : Float64.le (fin p) (fin q) = true ↔ p ≤ q := cmpRat_isLE p q

theorem min_fin : Float64.min (fin p) (fin q) = fin (min p q) := by
  have number : ∀ r, Float64.isNan (fin r) = false := fun _ => rfl
  rw [Float64.min, number, number]
  by_cases less : q < p
  · rw [if_neg (by simp), if_neg (by simp), if_pos ((lt_fin q p).mpr less), min_eq_right less.le]
  · rw [if_neg (by simp), if_neg (by simp), if_neg (mt (lt_fin q p).mp less),
      min_eq_left (not_lt.mp less)]

theorem max_fin : Float64.max (fin p) (fin q) = fin (max p q) := by
  have number : ∀ r, Float64.isNan (fin r) = false := fun _ => rfl
  rw [Float64.max, number, number, if_neg (by simp), if_neg (by simp)]
  by_cases less : p < q
  · rw [if_pos ((lt_fin p q).mpr less), max_eq_right less.le]
  · rw [if_neg (mt (lt_fin p q).mp less), max_eq_left (not_lt.mp less)]

theorem abs_fin : Float64.abs (fin q) = fin |q| := by
  show fin (if q < 0 then -q else q) = _
  split_ifs with negative
  · rw [abs_of_neg negative]
  · rw [abs_of_nonneg (not_lt.mp negative)]

end Finite

end ExtRat

end StatGuardian
