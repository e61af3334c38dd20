import Mathlib.Data.Rat.Defs
import Mathlib.Data.Rat.Floor
import StatGuardian.Runtime.Fault

namespace StatGuardian

/-- The `f64` operations the code uses, with the facts about `partial_cmp` that hold of every
    `f64`: a number compares with every other number, a NaN with nothing, itself included. -/
class Float64 (F : Type) extends Add F, Sub F, Mul F, Div F where
  decEq : DecidableEq F
  partialCmp : F → F → Option Ordering
  abs : F → F
  sqrt : F → F
  round : F → F
  /-- The number a decimal literal or an integer cast denotes. -/
  ofRat : ℚ → F
  /-- `as usize` and `as u64`: truncating and saturating, with NaN at zero. -/
  toUsize : F → Nat
  infinity : F
  negInfinity : F
  infinity_number : (partialCmp infinity infinity).isSome = true
  partialCmp_isSome : ∀ a b, (partialCmp a b).isSome =
    ((partialCmp a a).isSome && (partialCmp b b).isSome)
  partialCmp_swap : ∀ a b, (partialCmp a b).map Ordering.swap = partialCmp b a
  partialCmp_trans : ∀ a b c, (partialCmp a b).any Ordering.isLE = true →
    (partialCmp b c).any Ordering.isLE = true → (partialCmp a c).any Ordering.isLE = true
  partialCmp_infinity : ∀ a, (partialCmp a a).isSome = true →
    (partialCmp a infinity).any Ordering.isLE = true

namespace Float64

variable {F : Type} [Float64 F]

instance : DecidableEq F := Float64.decEq

def isNan (x : F) : Bool := (partialCmp x x).isNone

def lt (a b : F) : Bool := partialCmp a b == some .lt
def le (a b : F) : Bool := (partialCmp a b).any Ordering.isLE
def gt (a b : F) : Bool := lt b a
def ge (a b : F) : Bool := le b a
def eq (a b : F) : Bool := partialCmp a b == some .eq

def ofNat (n : Nat) : F := ofRat n
def zero : F := ofRat 0
def one : F := ofRat 1
def epsilon : F := ofRat (1 / 2 ^ 52)

/-- `f64::max`: the other operand when one is NaN. -/
def max (a b : F) : F :=
  if isNan a then b else if isNan b then a else if lt a b then b else a

/-- `f64::min`: the other operand when one is NaN. -/
def min (a b : F) : F :=
  if isNan a then b else if isNan b then a else if lt b a then b else a

def sum (items : List F) : F := items.foldl (· + ·) zero

/-- `|a, b| a.partial_cmp(b).unwrap()` -/
def unwrapCmp (a b : F) : Exec Ordering :=
  match partialCmp a b with
  | some order => .ok order
  | none => .error .unwrapNone

/-- `|a, b| a.partial_cmp(b).unwrap_or(Ordering::Equal)` -/
def equalOrCmp (a b : F) : Exec Ordering := .ok ((partialCmp a b).getD .eq)

theorem partialCmp_none_iff (a b : F) : partialCmp a b = none ↔ isNan a = true ∨ isNan b = true := by
  have known := partialCmp_isSome a b
  unfold isNan
  cases hab : partialCmp a b <;> cases haa : partialCmp a a <;> cases hbb : partialCmp b b <;>
    simp_all

theorem partialCmp_self (a : F) (number : isNan a = false) : partialCmp a a = some .eq := by
  unfold isNan at number
  cases self : partialCmp a a with
  | none => rw [self] at number; cases number
  | some order =>
    have swapped := partialCmp_swap a a
    rw [self, Option.map_some, Option.some.injEq] at swapped
    cases order with
    | eq => rfl
    | lt => cases swapped
    | gt => cases swapped

theorem partialCmp_numbers (a b : F) (left : isNan a = false) (right : isNan b = false) :
    ∃ order, partialCmp a b = some order := by
  cases compared : partialCmp a b with
  | some order => exact ⟨order, rfl⟩
  | none =>
    rcases (partialCmp_none_iff a b).mp compared with nan | nan
    · rw [left] at nan; cases nan
    · rw [right] at nan; cases nan

theorem le_or_ge (a b : F) (left : isNan a = false) (right : isNan b = false) :
    le a b = true ∨ le b a = true := by
  obtain ⟨order, compared⟩ := partialCmp_numbers a b left right
  have swapped := partialCmp_swap a b
  rw [compared, Option.map_some] at swapped
  unfold le
  rw [compared, ← swapped]
  cases order with
  | lt => left; rfl
  | eq => left; rfl
  | gt => right; rfl

theorem le_infinity (a : F) (number : isNan a = false) : le a infinity = true := by
  refine partialCmp_infinity a ?_
  rw [partialCmp_self a number]; rfl

theorem le_nan_left (a b : F) (nan : isNan a = true) : le a b = false := by
  unfold le
  rw [(partialCmp_none_iff a b).mpr (.inl nan)]; rfl

theorem le_nan_right (a b : F) (nan : isNan b = true) : le a b = false := by
  unfold le
  rw [(partialCmp_none_iff a b).mpr (.inr nan)]; rfl

section Sorting

variable (items : List F)

theorem lessEq_unwrapCmp (a b : F) : lessEq (unwrapCmp a b) = le a b := by
  unfold unwrapCmp le
  cases partialCmp a b <;> rfl

theorem unwrapCmp_total (numbers : ∀ a ∈ items, isNan a = false) : TotalOn unwrapCmp items where
  defined a memberA b memberB := by
    obtain ⟨order, compared⟩ := partialCmp_numbers a b (numbers a memberA) (numbers b memberB)
    have swapped := partialCmp_swap a b
    rw [compared, Option.map_some] at swapped
    exact ⟨order, by simp [unwrapCmp, compared], by simp [unwrapCmp, ← swapped]⟩
  trans a _ b _ c _ := by
    rw [lessEq_unwrapCmp, lessEq_unwrapCmp, lessEq_unwrapCmp]
    exact partialCmp_trans a b c

theorem unwrapCmp_nan (a : F) (nan : isNan a = true) (b : F) :
    (∃ fault, unwrapCmp a b = .error fault) ∧ ∃ fault, unwrapCmp b a = .error fault := by
  refine ⟨⟨.unwrapNone, ?_⟩, ⟨.unwrapNone, ?_⟩⟩
  · simp [unwrapCmp, (partialCmp_none_iff a b).mpr (.inl nan)]
  · simp [unwrapCmp, (partialCmp_none_iff b a).mpr (.inr nan)]

/-- With NaNs read as equal to everything, the order is consistent only if the other items are
    all equal. -/
def OrderConsistent : Prop :=
  (∀ a ∈ items, isNan a = false) ∨
    ∀ a ∈ items, ∀ b ∈ items, isNan a = false → isNan b = false → eq a b = true

theorem lessEq_equalOrCmp (a b : F) :
    lessEq (equalOrCmp a b) = (isNan a || isNan b || le a b) := by
  unfold equalOrCmp le
  cases compared : partialCmp a b with
  | none =>
    rcases (partialCmp_none_iff a b).mp compared with nan | nan <;> simp [nan, lessEq]
  | some order =>
    have numbers : ¬ (isNan a = true ∨ isNan b = true) := fun nan => by
      rw [(partialCmp_none_iff a b).mpr nan] at compared; cases compared
    push Not at numbers
    simp [lessEq, numbers.1, numbers.2]

theorem equalOrCmp_defined (a b : F) :
    ∃ order, equalOrCmp a b = .ok order ∧ equalOrCmp b a = .ok order.swap := by
  refine ⟨(partialCmp a b).getD .eq, rfl, ?_⟩
  unfold equalOrCmp
  rw [← partialCmp_swap a b]
  cases partialCmp a b <;> rfl

theorem equalOrCmp_total_iff : TotalOn equalOrCmp items ↔ OrderConsistent items := by
  constructor
  · intro total
    by_contra inconsistent
    unfold OrderConsistent at inconsistent
    push Not at inconsistent
    obtain ⟨⟨n, memberN, nan⟩, a, memberA, b, memberB, numberA, numberB, unequal⟩ := inconsistent
    rw [ne_eq, Bool.not_eq_false] at nan
    -- `a ≤ n ≤ b` and `b ≤ n ≤ a` through the NaN force `a` and `b` to be equal
    have up : lessEq (equalOrCmp a b) = true :=
      total.trans a memberA n memberN b memberB (by rw [lessEq_equalOrCmp]; simp [nan])
        (by rw [lessEq_equalOrCmp]; simp [nan])
    have down : lessEq (equalOrCmp b a) = true :=
      total.trans b memberB n memberN a memberA (by rw [lessEq_equalOrCmp]; simp [nan])
        (by rw [lessEq_equalOrCmp]; simp [nan])
    rw [lessEq_equalOrCmp] at up down
    simp only [numberA, numberB, Bool.false_or] at up down
    apply unequal
    obtain ⟨order, compared⟩ := partialCmp_numbers a b numberA numberB
    have swapped := partialCmp_swap a b
    rw [compared, Option.map_some] at swapped
    unfold le at up down
    rw [compared] at up
    rw [← swapped] at down
    unfold eq
    rw [compared]
    cases order with
    | eq => rfl
    | lt => cases down
    | gt => cases up
  · intro consistent
    refine ⟨fun a _ b _ => equalOrCmp_defined a b, ?_⟩
    intro a memberA b memberB c memberC first second
    rw [lessEq_equalOrCmp] at first second ⊢
    rcases consistent with numbers | equal
    · simp only [numbers a memberA, numbers b memberB, numbers c memberC, Bool.false_or] at *
      exact partialCmp_trans a b c first second
    · cases nanA : isNan a with
      | true => rfl
      | false =>
        cases nanC : isNan c with
        | true => rfl
        | false =>
          have same := equal a memberA c memberC nanA nanC
          unfold eq at same
          simp [le, beq_iff_eq.mp same]

theorem sortable_equalOrCmp_iff :
    Sorter.Sortable equalOrCmp items ↔ OrderConsistent items := by
  rw [Sorter.Sortable, equalOrCmp_total_iff]
  refine or_iff_right_of_imp fun short => ?_
  match items, short with
  | [], _ => exact .inl nofun
  | [a], _ =>
    right
    intro x memberX y memberY number _
    rw [List.mem_singleton.mp memberX] at number ⊢
    rw [List.mem_singleton.mp memberY]
    simp [eq, partialCmp_self a number]

theorem sortable_unwrapCmp_iff :
    Sorter.Sortable unwrapCmp items ↔ items.length < 2 ∨ ∀ a ∈ items, isNan a = false := by
  refine or_congr_right ⟨fun total a member => ?_, unwrapCmp_total items⟩
  obtain ⟨order, compared, _⟩ := total.defined a member a member
  cases number : isNan a with
  | false => rfl
  | true =>
    obtain ⟨fault, failed⟩ := (unwrapCmp_nan a number a).1
    rw [failed] at compared
    cases compared

end Sorting

end Float64

end StatGuardian
