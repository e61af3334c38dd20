import Mathlib.Order.Lattice

namespace Descending

variable {α κ : Type*} [LinearOrder κ] (key : α → κ)

/-- The items by their keys, the largest first, and items of one key in their old order. -/
def sort (items : List α) : List α := items.mergeSort (fun a b => decide (key b ≤ key a))

theorem trans (a b c : α) (first : decide (key b ≤ key a) = true)
    (second : decide (key c ≤ key b) = true) : decide (key c ≤ key a) = true := by
  rw [decide_eq_true_eq] at first second ⊢
  exact le_trans second first

theorem total (a b : α) : (decide (key b ≤ key a) || decide (key a ≤ key b)) = true := by
  rw [Bool.or_eq_true, decide_eq_true_eq, decide_eq_true_eq]
  exact le_total _ _

theorem sort_perm (items : List α) : (sort key items).Perm items := List.mergeSort_perm _ _

theorem sort_sorted (items : List α) :
    (sort key items).Pairwise (fun a b => key b ≤ key a) := by
  apply (List.pairwise_mergeSort (trans key) (total key) items).imp
  intro a b ordered
  exact of_decide_eq_true ordered

theorem head_largest {items : List α} {first : α} (head : (sort key items).head? = some first) :
    first ∈ items ∧ ∀ other ∈ items, key other ≤ key first := by
  obtain ⟨rest, split⟩ := List.head?_eq_some_iff.mp head
  have perm := sort_perm key items
  have sorted := sort_sorted key items
  rw [split] at perm sorted
  refine ⟨perm.mem_iff.mp (List.mem_cons_self ..), ?_⟩
  intro other member
  rcases List.mem_cons.mp (perm.mem_iff.mpr member) with same | later
  · rw [same]
  · exact (List.pairwise_cons.mp sorted).1 other later

theorem head_of_largest {first : α} {rest : List α}
    (largest : ∀ other ∈ rest, key other ≤ key first) :
    (sort key (first :: rest)).head? = some first := by
  obtain ⟨before, after, split, cut, above⟩ :=
    List.mergeSort_cons (trans key) (total key) first rest
  have nothing : before = [] := by
    apply List.eq_nil_iff_forall_not_mem.mpr
    intro other early
    have inside : other ∈ rest.mergeSort (fun a b => decide (key b ≤ key a)) := by
      rw [cut]
      exact List.mem_append_left _ early
    have beaten := above other early
    rw [Bool.not_eq_true', decide_eq_false_iff_not] at beaten
    exact beaten (largest other (List.mem_mergeSort.mp inside))
  rw [sort, split, nothing]
  rfl

end Descending
