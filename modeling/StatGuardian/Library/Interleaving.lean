import Mathlib.Data.List.DropRight
import Mathlib.Data.List.Infix

variable {α β : Type*}

/-- The items of two lists in one list, each list in its own order. -/
inductive Interleaves : List α → List α → List α → Prop where
  | nil : Interleaves [] [] []
  | left {a b c : List α} (x : α) : Interleaves a b c → Interleaves (x :: a) b (x :: c)
  | right {a b c : List α} (x : α) : Interleaves a b c → Interleaves a (x :: b) (x :: c)

namespace Interleaves

variable {a b c : List α}

theorem perm (interleaves : Interleaves a b c) : c.Perm (a ++ b) := by
  induction interleaves with
  | nil => exact .nil
  | left x _ ih => exact ih.cons x
  | right x _ ih => exact (ih.cons x).trans List.perm_middle.symm

theorem count [BEq α] (interleaves : Interleaves a b c) (x : α) :
    c.count x = a.count x + b.count x := by
  rw [interleaves.perm.count_eq, List.count_append]

theorem length (interleaves : Interleaves a b c) : c.length = a.length + b.length := by
  rw [interleaves.perm.length_eq, List.length_append]

theorem filterMap (interleaves : Interleaves a b c) (f : α → Option β) :
    Interleaves (a.filterMap f) (b.filterMap f) (c.filterMap f) := by
  induction interleaves with
  | nil => exact .nil
  | left x _ ih =>
    cases found : f x with
    | none => simpa [found] using ih
    | some y => simpa [found] using ih.left y
  | right x _ ih =>
    cases found : f x with
    | none => simpa [found] using ih
    | some y => simpa [found] using ih.right y

theorem split {before after : List α} (interleaves : Interleaves a b (before ++ after)) :
    ∃ a₁ a₂ b₁ b₂, a = a₁ ++ a₂ ∧ b = b₁ ++ b₂ ∧ Interleaves a₁ b₁ before ∧
      Interleaves a₂ b₂ after := by
  induction before generalizing a b with
  | nil => exact ⟨[], a, [], b, rfl, rfl, .nil, interleaves⟩
  | cons x before ih =>
    cases interleaves with
    | left _ rest =>
      obtain ⟨a₁, a₂, b₁, b₂, rfl, rfl, first, second⟩ := ih rest
      exact ⟨x :: a₁, a₂, b₁, b₂, rfl, rfl, first.left x, second⟩
    | right _ rest =>
      obtain ⟨a₁, a₂, b₁, b₂, rfl, rfl, first, second⟩ := ih rest
      exact ⟨a₁, a₂, x :: b₁, b₂, rfl, rfl, first.right x, second⟩

theorem stretch {stretch : List α} (interleaves : Interleaves a b c) (inside : stretch <:+: c) :
    ∃ a' b', a' <:+: a ∧ b' <:+: b ∧ Interleaves a' b' stretch := by
  obtain ⟨before, after, rfl⟩ := inside
  obtain ⟨a₁, a₃, b₁, b₃, rfl, rfl, first, _⟩ := interleaves.split
  obtain ⟨_, a₂, _, b₂, rfl, rfl, _, middle⟩ := first.split
  exact ⟨a₂, b₂, ⟨_, a₃, rfl⟩, ⟨_, b₃, rfl⟩, middle⟩

end Interleaves
