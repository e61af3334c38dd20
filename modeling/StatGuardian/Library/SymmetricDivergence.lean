import Mathlib.Analysis.SpecialFunctions.Log.Basic

namespace SymmetricDivergence

noncomputable section

def term (p q : ℝ) : ℝ := (q - p) * Real.log (q / p)

def divergence (ps qs : List ℝ) : ℝ := (List.zipWith term ps qs).sum

end

section Term

variable {p q : ℝ}

theorem term_comm (p q : ℝ) : term p q = term q p := by
  have log : Real.log (p / q) = -Real.log (q / p) := by rw [← Real.log_inv, inv_div]
  rw [term, term, log]
  ring

theorem term_nonneg (positiveP : 0 < p) (positiveQ : 0 < q) : 0 ≤ term p q := by
  unfold term
  rcases le_total p q with le | ge
  · exact mul_nonneg (sub_nonneg.mpr le) (Real.log_nonneg ((one_le_div positiveP).mpr le))
  · exact mul_nonneg_of_nonpos_of_nonpos (sub_nonpos.mpr ge)
      (Real.log_nonpos (div_pos positiveQ positiveP).le ((div_le_one positiveP).mpr ge))

theorem term_eq_zero_iff (positiveP : 0 < p) (positiveQ : 0 < q) : term p q = 0 ↔ p = q := by
  constructor
  · intro zero
    rcases mul_eq_zero.mp zero with same | log
    · exact (sub_eq_zero.mp same).symm
    · have one := Real.eq_one_of_pos_of_log_eq_zero (div_pos positiveQ positiveP) log
      exact ((div_eq_one_iff_eq positiveP.ne').mp one).symm
  · rintro rfl
    rw [term, sub_self, zero_mul]

end Term

section Sum

variable {ps qs : List ℝ}

theorem divergence_comm (ps qs : List ℝ) : divergence ps qs = divergence qs ps := by
  rw [divergence, divergence, List.zipWith_comm_of_comm term_comm]

theorem terms_nonneg (positiveP : ∀ p ∈ ps, 0 < p) (positiveQ : ∀ q ∈ qs, 0 < q) :
    ∀ t ∈ List.zipWith term ps qs, 0 ≤ t := by
  intro t member
  rw [← List.map_uncurry_zip_eq_zipWith, List.mem_map] at member
  obtain ⟨⟨p, q⟩, both, rfl⟩ := member
  have sides := List.of_mem_zip both
  exact term_nonneg (positiveP p sides.1) (positiveQ q sides.2)

theorem divergence_nonneg (positiveP : ∀ p ∈ ps, 0 < p) (positiveQ : ∀ q ∈ qs, 0 < q) :
    0 ≤ divergence ps qs := List.sum_nonneg (terms_nonneg positiveP positiveQ)

theorem divergence_eq_zero_iff (positiveP : ∀ p ∈ ps, 0 < p) (positiveQ : ∀ q ∈ qs, 0 < q)
    (size : ps.length = qs.length) : divergence ps qs = 0 ↔ ps = qs := by
  induction ps generalizing qs with
  | nil =>
    obtain rfl := List.length_eq_zero_iff.mp size.symm
    exact iff_of_true rfl rfl
  | cons p rest ih =>
    obtain ⟨q, others, rfl⟩ := List.exists_cons_of_length_eq_add_one size.symm
    rw [List.forall_mem_cons] at positiveP positiveQ
    have here := term_nonneg positiveP.1 positiveQ.1
    have later := divergence_nonneg positiveP.2 positiveQ.2
    have split : divergence (p :: rest) (q :: others) = term p q + divergence rest others := rfl
    rw [split, add_eq_zero_iff_of_nonneg here later, term_eq_zero_iff positiveP.1 positiveQ.1,
      ih positiveP.2 positiveQ.2 (Nat.succ.inj size), List.cons.injEq]

end Sum

end SymmetricDivergence
