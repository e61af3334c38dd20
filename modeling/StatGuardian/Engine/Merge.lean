import StatGuardian.Library.Slices
import StatGuardian.Validators.Violation

namespace StatGuardian.Engine

open Validators

variable {F : Type}

def keyOrder : Violation F → Violation F → Ordering :=
  compareLex (compareOn Violation.column) (compareOn Violation.check)

def sameKey (a b : Violation F) : Bool := a.column == b.column && a.check == b.check

/-- `sort_by` and `dedup_by` on the column and the check name. -/
def mergeViolations (violations : List (Violation F)) : List (Violation F) :=
  Slices.dedupBy sameKey (Slices.sortBy keyOrder violations)

instance keyOrder_trans : Std.TransCmp (keyOrder (F := F)) := by
  unfold keyOrder
  infer_instance

theorem sameKey_iff (a b : Violation F) : sameKey a b = true ↔ keyOrder a b = .eq := by
  simp [sameKey, keyOrder, compareLex_eq_eq, compareOn]

theorem mem_mergeViolations (violations : List (Violation F)) (v : Violation F) :
    v ∈ mergeViolations violations ↔ violations.find? (fun w => sameKey w v) = some v :=
  Slices.mem_dedupBy_sortBy keyOrder sameKey_iff violations v

theorem mergeViolations_covers (violations : List (Violation F)) (v : Violation F)
    (member : v ∈ violations) :
    ∃ w ∈ mergeViolations violations, w.column = v.column ∧ w.check = v.check := by
  have present : (violations.find? (fun w => sameKey w v)).isSome = true := by
    rw [List.find?_isSome]
    exact ⟨v, member, by simp [sameKey]⟩
  obtain ⟨w, found⟩ := Option.isSome_iff_exists.mp present
  have same := List.find?_some found
  simp only [sameKey, Bool.and_eq_true, beq_iff_eq] at same
  refine ⟨w, ?_, same⟩
  rw [mem_mergeViolations, ← found]
  congr 1
  funext u
  simp [sameKey, same.1, same.2]

theorem mem_of_mem_mergeViolations (violations : List (Violation F)) (v : Violation F)
    (member : v ∈ mergeViolations violations) : v ∈ violations :=
  List.mem_of_find?_eq_some ((mem_mergeViolations violations v).mp member)

end StatGuardian.Engine
