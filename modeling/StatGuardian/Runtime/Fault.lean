import Mathlib.Data.List.Sort

namespace StatGuardian

/-- The ways a call can fail to return: a panic (the release profile aborts on one) or a loop
    that no longer moves. -/
inductive Fault where
  | unwrapNone
  | indexOutOfBounds
  | inconsistentOrder
  | divergence
  deriving DecidableEq, Repr

abbrev Exec := Except Fault

def lessEq : Exec Ordering → Bool
  | .ok order => order.isLE
  | .error _ => false

/-- The comparator is a total order on the items: the precondition `slice::sort_by` documents. -/
structure TotalOn {α : Type} (cmp : α → α → Exec Ordering) (items : List α) : Prop where
  defined : ∀ a ∈ items, ∀ b ∈ items, ∃ order, cmp a b = .ok order ∧ cmp b a = .ok order.swap
  trans : ∀ a ∈ items, ∀ b ∈ items, ∀ c ∈ items,
    lessEq (cmp a b) = true → lessEq (cmp b c) = true → lessEq (cmp a c) = true

/-- What the documentation of `slice::sort_by` promises. On a total order the result is the
    stable sort. Otherwise the items come back in some order or the call panics, and it panics
    for sure when no comparison with some item returns, since every item is compared. -/
structure Sorter (α : Type) where
  run : (α → α → Exec Ordering) → List α → Exec (List α)
  short : ∀ cmp items, items.length < 2 → run cmp items = .ok items
  total : ∀ cmp items, TotalOn cmp items →
    run cmp items = .ok (items.insertionSort (fun a b => lessEq (cmp a b) = true))
  keeps : ∀ cmp items sorted, run cmp items = .ok sorted → sorted.Perm items
  compares : ∀ cmp items, 2 ≤ items.length →
    (∃ a ∈ items, ∀ b, (∃ fault, cmp a b = .error fault) ∧ ∃ fault, cmp b a = .error fault) →
    ∃ fault, run cmp items = .error fault

namespace Sorter

variable {α : Type}

theorem insertionSort_short (r : α → α → Prop) [DecidableRel r] (items : List α)
    (short : items.length < 2) : items.insertionSort r = items := by
  match items, short with
  | [], _ => rfl
  | [_], _ => rfl

/-- The sorter that panics whenever its contract lets it. -/
noncomputable def strict (α : Type) : Sorter α where
  run cmp items :=
    open Classical in
    if items.length < 2 then .ok items
    else if TotalOn cmp items then
      .ok (items.insertionSort (fun a b => lessEq (cmp a b) = true))
    else .error .inconsistentOrder
  short cmp items short := by simp [short]
  total cmp items total := by
    by_cases short : items.length < 2
    · simp [short, insertionSort_short _ items short]
    · simp [short, total]
  keeps cmp items sorted ran := by
    split at ran
    · cases ran; exact List.Perm.refl _
    · split at ran
      · cases ran; exact List.perm_insertionSort _ _
      · cases ran
  compares cmp items long alone := by
    obtain ⟨a, member, fails⟩ := alone
    have partialOrder : ¬ TotalOn cmp items := fun total => by
      obtain ⟨order, first, _⟩ := total.defined a member a member
      obtain ⟨fault, second⟩ := (fails a).1
      rw [first] at second; cases second
    exact ⟨.inconsistentOrder, by simp [Nat.not_lt.mpr long, partialOrder]⟩

/-- The sorter that panics only when a comparison does and sorts by insertion otherwise, whether
    or not the order is consistent. -/
def inserting (α : Type) : Sorter α where
  run cmp items :=
    if items.length < 2 then .ok items
    else if items.all (fun a => items.all (fun b => (cmp a b).isOk)) then
      .ok (items.insertionSort (fun a b => lessEq (cmp a b) = true))
    else .error .unwrapNone
  short cmp items short := by simp [short]
  total cmp items total := by
    have defined : items.all (fun a => items.all (fun b => (cmp a b).isOk)) = true := by
      simp only [List.all_eq_true]
      intro a memberA b memberB
      obtain ⟨order, first, _⟩ := total.defined a memberA b memberB
      rw [first]; rfl
    by_cases short : items.length < 2
    · simp [short, insertionSort_short _ items short]
    · simp only [short, ↓reduceIte, defined]
  keeps cmp items sorted ran := by
    split at ran
    · cases ran; exact List.Perm.refl _
    · split at ran
      · cases ran; exact List.perm_insertionSort _ _
      · cases ran
  compares cmp items long alone := by
    obtain ⟨a, member, fails⟩ := alone
    obtain ⟨fault, failed⟩ := (fails a).1
    have undefined : items.all (fun a => items.all (fun b => (cmp a b).isOk)) = false := by
      rw [List.all_eq_false]
      refine ⟨a, member, ?_⟩
      rw [Bool.not_eq_true, List.all_eq_false]
      exact ⟨a, member, by rw [failed]; simp [Except.isOk, Except.toBool]⟩
    exact ⟨.unwrapNone, by simp [Nat.not_lt.mpr long, undefined]⟩

/-- The inputs on which no sorter may panic. -/
def Sortable (cmp : α → α → Exec Ordering) (items : List α) : Prop :=
  items.length < 2 ∨ TotalOn cmp items

theorem run_sortable (sorter : Sorter α) {cmp : α → α → Exec Ordering} {items : List α}
    (sortable : Sortable cmp items) :
    sorter.run cmp items = .ok (items.insertionSort (fun a b => lessEq (cmp a b) = true)) := by
  rcases sortable with short | total
  · rw [sorter.short cmp items short, insertionSort_short _ items short]
  · exact sorter.total cmp items total

theorem sortable_of_strict {cmp : α → α → Exec Ordering} {items sorted : List α}
    (ran : (strict α).run cmp items = .ok sorted) : Sortable cmp items := by
  simp only [strict] at ran
  split at ran
  case isTrue short => exact .inl short
  case isFalse long =>
    split at ran
    case isTrue total => exact .inr total
    case isFalse => cases ran

end Sorter

end StatGuardian
