import Mathlib.Algebra.BigOperators.Group.List.Basic
import Mathlib.Algebra.Order.Floor.Semiring
import Mathlib.Algebra.Order.Field.Basic
import Mathlib.Tactic.Linarith

namespace Histogram

section Counts

variable {α : Type*} {bins : ℕ} {bin : α → ℕ} {vals : List α}

def counts (bins : ℕ) (bin : α → ℕ) (vals : List α) : List ℕ :=
  (List.range bins).map fun k => vals.countP (bin · = k)

theorem length_counts : (counts bins bin vals).length = bins := by
  rw [counts, List.length_map, List.length_range]

theorem counts_perm {others : List α} (perm : vals.Perm others) :
    counts bins bin vals = counts bins bin others :=
  List.map_congr_left fun _ _ => perm.countP_eq _

theorem sum_range_indicator (k : ℕ) :
    ((List.range bins).map fun j => if k = j then 1 else 0).sum = if k < bins then 1 else 0 := by
  induction bins with
  | zero => rfl
  | succ n ih =>
    rw [List.range_succ, List.map_append, List.sum_append, ih, List.map_singleton,
      List.sum_singleton]
    split_ifs <;> omega

/-- No value is lost between the bins. -/
theorem sum_counts (inside : ∀ v ∈ vals, bin v < bins) :
    (counts bins bin vals).sum = vals.length := by
  induction vals with
  | nil => simp [counts]
  | cons v rest ih =>
    rw [List.forall_mem_cons] at inside
    have step : ∀ k, (v :: rest).countP (bin · = k) =
        rest.countP (bin · = k) + if bin v = k then 1 else 0 := by
      intro k
      rw [List.countP_cons]
      simp only [decide_eq_true_eq]
    rw [counts, List.map_congr_left fun k _ => step k, List.sum_map_add, sum_range_indicator,
      if_pos inside.1, ← counts, ih inside.2, List.length_cons]

end Counts

section Slots

variable {K : Type*} [Field K] [LinearOrder K] [IsStrictOrderedRing K] [FloorSemiring K]
variable {lo width v : K} {bins k : ℕ}

/-- The bin of a value among bins of one width from `lo` on, what is past the last one put there. -/
def slot (lo width : K) (bins : ℕ) (v : K) : ℕ := min ⌊(v - lo) / width⌋₊ (bins - 1)

/-- The bins are closed below and open above, the last one open to no end. -/
def InBin (lo width : K) (bins k : ℕ) (v : K) : Prop :=
  lo + k * width ≤ v ∧ (v < lo + (k + 1) * width ∨ k + 1 = bins)

omit [IsStrictOrderedRing K] in
theorem slot_lt (positive : 0 < bins) (v : K) : slot lo width bins v < bins := by
  unfold slot
  omega

theorem slot_eq_iff (positive : 0 < width) (above : lo ≤ v) (inside : k < bins) :
    slot lo width bins v = k ↔ InBin lo width bins k v := by
  have nonneg : 0 ≤ (v - lo) / width := div_nonneg (sub_nonneg.mpr above) positive.le
  have low : lo + k * width ≤ v ↔ k ≤ ⌊(v - lo) / width⌋₊ := by
    rw [Nat.le_floor_iff nonneg, le_div_iff₀ positive, le_sub_iff_add_le']
  have high : v < lo + (k + 1) * width ↔ ⌊(v - lo) / width⌋₊ < k + 1 := by
    rw [Nat.floor_lt nonneg, div_lt_iff₀ positive, sub_lt_iff_lt_add']
    push_cast
    rfl
  unfold slot InBin
  rw [low, high]
  omega

theorem existsUnique_inBin (positive : 0 < width) (some_ : 0 < bins) (above : lo ≤ v) :
    ∃! k, k < bins ∧ InBin lo width bins k v := by
  have inside : slot lo width bins v < bins := slot_lt some_ v
  refine ⟨slot lo width bins v, ⟨inside, (slot_eq_iff positive above inside).mp rfl⟩, ?_⟩
  rintro k ⟨below, here⟩
  exact ((slot_eq_iff positive above below).mpr here).symm

end Slots

end Histogram
