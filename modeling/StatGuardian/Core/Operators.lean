import StatGuardian.Core.Ast
import StatGuardian.Runtime.ExtRat

namespace StatGuardian.Core.ComparisonOp

/-- `f64::EPSILON` -/
def tolerance : ℚ := 1 / 2 ^ 52

theorem tolerance_pos : 0 < tolerance := by norm_num [tolerance]

section Finite

variable (a b : ℚ)

def Holds (op : ComparisonOp) : Prop := op.evaluate (ExtRat.fin a) (ExtRat.fin b) = true

theorem gt_iff : gt.Holds a b ↔ b < a := ExtRat.lt_fin b a

theorem lt_iff : lt.Holds a b ↔ a < b := ExtRat.lt_fin a b

theorem gte_iff : gte.Holds a b ↔ b ≤ a := ExtRat.le_fin b a

theorem lte_iff : lte.Holds a b ↔ a ≤ b := ExtRat.le_fin a b

theorem eq_iff : eq.Holds a b ↔ |a - b| < tolerance := by
  rw [Holds, evaluate, ExtRat.fin_sub, ExtRat.abs_fin]
  exact ExtRat.lt_fin _ _

theorem neq_iff : neq.Holds a b ↔ tolerance ≤ |a - b| := by
  rw [Holds, evaluate, ExtRat.fin_sub, ExtRat.abs_fin]
  exact ExtRat.le_fin _ _

def OneOf (p q r : Prop) : Prop := (p ∧ ¬ q ∧ ¬ r) ∨ (¬ p ∧ q ∧ ¬ r) ∨ (¬ p ∧ ¬ q ∧ r)

/-- The laws that relate the orderings to the equality of the operators. -/
structure Coherent : Prop where
  gte : gte.Holds a b ↔ gt.Holds a b ∨ eq.Holds a b
  lte : lte.Holds a b ↔ lt.Holds a b ∨ eq.Holds a b
  trichotomy : OneOf (lt.Holds a b) (eq.Holds a b) (gt.Holds a b)

theorem OneOf.of_trichotomy {a b : ℚ} {p : Prop} (not_less : a < b → ¬ p) (not_more : b < a → ¬ p)
    (equal : a = b → p) : OneOf (a < b) p (b < a) := by
  rcases lt_trichotomy a b with less | same | more
  · exact .inl ⟨less, not_less less, less.asymm⟩
  · exact .inr (.inl ⟨same.not_lt, equal same, same.not_gt⟩)
  · exact .inr (.inr ⟨more.asymm, not_more more, more⟩)

theorem coherent_iff : Coherent a b ↔ a = b ∨ tolerance ≤ |a - b| := by
  constructor
  · intro coherent
    by_contra within
    push Not at within
    obtain ⟨different, close⟩ := within
    have equal := (eq_iff a b).mpr close
    have above := (gte_iff a b).mp (coherent.gte.mpr (.inr equal))
    have below := (lte_iff a b).mp (coherent.lte.mpr (.inr equal))
    exact different (le_antisymm below above)
  · intro clear
    have equal : eq.Holds a b ↔ a = b := by
      rw [eq_iff]
      constructor
      · exact fun close => clear.resolve_right close.not_ge
      · rintro rfl
        rw [sub_self, abs_zero]
        exact tolerance_pos
    refine ⟨?_, ?_, ?_⟩
    · rw [gte_iff, gt_iff, equal, le_iff_lt_or_eq, eq_comm]
    · rw [lte_iff, lt_iff, equal, le_iff_lt_or_eq]
    · rw [lt_iff, gt_iff]
      exact .of_trichotomy (fun less => mt equal.mp less.ne) (fun more => mt equal.mp more.ne')
        equal.mpr

/-- An inclusive operator rejects what the equality accepts just inside the tolerance. -/
theorem rejects_equal_iff : (¬ gte.Holds a b ∧ eq.Holds a b ↔ 0 < b - a ∧ b - a < tolerance) ∧
    (¬ lte.Holds a b ∧ eq.Holds a b ↔ 0 < a - b ∧ a - b < tolerance) := by
  rw [gte_iff, lte_iff, eq_iff, not_le, not_le, sub_pos, sub_pos]
  constructor
  · refine and_congr_right fun less => ?_
    rw [abs_sub_comm, abs_of_pos (sub_pos.mpr less)]
  · refine and_congr_right fun more => ?_
    rw [abs_of_pos (sub_pos.mpr more)]

theorem operators_up_to_tolerance (a b : ℚ) :
    (neq.Holds a b ↔ ¬ eq.Holds a b) ∧
      (gte.Holds a b ↔ gt.Holds a b ∨ a = b) ∧ (lte.Holds a b ↔ lt.Holds a b ∨ a = b) ∧
      OneOf (lt.Holds a b) (a = b) (gt.Holds a b) ∧
      (Coherent a b ↔ a = b ∨ tolerance ≤ |a - b|) ∧
      (¬ gte.Holds a b ∧ eq.Holds a b ↔ 0 < b - a ∧ b - a < tolerance) ∧
      (¬ lte.Holds a b ∧ eq.Holds a b ↔ 0 < a - b ∧ a - b < tolerance) := by
  refine ⟨?_, ?_, ?_, ?_, coherent_iff a b, rejects_equal_iff a b⟩
  · rw [neq_iff, eq_iff, not_lt]
  · rw [gte_iff, gt_iff, le_iff_lt_or_eq, eq_comm]
  · rw [lte_iff, lt_iff, le_iff_lt_or_eq]
  · rw [lt_iff, gt_iff]
    exact .of_trichotomy LT.lt.ne LT.lt.ne' id

/-- A value just below the threshold passes `==` and fails `>=`. -/
theorem gte_rejects_equal : ¬ ∀ a b : ℚ, Coherent a b ∧ (eq.Holds a b → gte.Holds a b) := by
  intro laws
  have small : 0 < tolerance / 2 - 0 ∧ tolerance / 2 - 0 < tolerance := by norm_num [tolerance]
  obtain ⟨rejected, accepted⟩ := (rejects_equal_iff 0 (tolerance / 2)).1.mpr small
  exact rejected ((laws 0 (tolerance / 2)).2 accepted)

end Finite

end StatGuardian.Core.ComparisonOp
