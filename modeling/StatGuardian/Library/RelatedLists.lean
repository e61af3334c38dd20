import Mathlib.Data.List.Forall2
import Mathlib.Data.Option.Basic
import StatGuardian.Library.Slices

namespace RelatedLists

open List

variable {α β γ : Type*} {R : β → γ → Prop}

theorem forall₂_filterMap {f : α → Option β} {g : α → Option γ} {items : List α}
    (same : ∀ item ∈ items, Option.Rel R (f item) (g item)) :
    Forall₂ R (items.filterMap f) (items.filterMap g) := by
  induction items with
  | nil => exact .nil
  | cons item items ih =>
    obtain ⟨first, rest⟩ := List.forall_mem_cons.mp same
    rw [List.filterMap_cons, List.filterMap_cons]
    generalize f item = left at first
    generalize g item = right at first
    cases first with
    | none => exact ih rest
    | some related => exact .cons related (ih rest)

theorem forall₂_flatMap {f : α → List β} {g : α → List γ} {items : List α}
    (same : ∀ item ∈ items, Forall₂ R (f item) (g item)) :
    Forall₂ R (items.flatMap f) (items.flatMap g) := by
  induction items with
  | nil => exact .nil
  | cons item items ih =>
    obtain ⟨first, rest⟩ := List.forall_mem_cons.mp same
    rw [List.flatMap_cons, List.flatMap_cons]
    exact List.rel_append first (ih rest)

theorem forall₂_flatten {xs : List (List β)} {ys : List (List γ)}
    (related : Forall₂ (Forall₂ R) xs ys) : Forall₂ R xs.flatten ys.flatten := by
  induction related with
  | nil => exact .nil
  | cons first _ ih =>
    rw [List.flatten_cons, List.flatten_cons]
    exact List.rel_append first ih

theorem forall₂_toList {x : Option β} {y : Option γ} (related : Option.Rel R x y) :
    Forall₂ R x.toList y.toList := by
  cases related with
  | none => exact .nil
  | some first => exact .cons first .nil

theorem any_eq {xs : List β} {ys : List γ} {p : β → Bool} {q : γ → Bool}
    (related : Forall₂ R xs ys) (same : ∀ a b, R a b → q b = p a) : ys.any q = xs.any p := by
  induction related with
  | nil => rfl
  | cons first _ ih => rw [List.any_cons, List.any_cons, same _ _ first, ih]

theorem countP_eq {xs : List β} {ys : List γ} {p : β → Bool} {q : γ → Bool}
    (related : Forall₂ R xs ys) (same : ∀ a b, R a b → q b = p a) : ys.countP q = xs.countP p := by
  induction related with
  | nil => rfl
  | cons first _ ih => rw [List.countP_cons, List.countP_cons, same _ _ first, ih]

section Sorts

variable {cmp : β → β → Ordering} {cmp' : γ → γ → Ordering}

theorem forall₂_orderedInsert (same : ∀ a b c d, R a c → R b d → cmp' c d = cmp a b) {a : β} {c : γ}
    (first : R a c) {xs : List β} {ys : List γ} (related : Forall₂ R xs ys) :
    Forall₂ R (xs.orderedInsert (fun a b => (cmp a b).isLE = true) a)
      (ys.orderedInsert (fun a b => (cmp' a b).isLE = true) c) := by
  induction related with
  | nil => exact .cons first .nil
  | @cons b d xs ys here rest ih =>
    rw [List.orderedInsert_cons, List.orderedInsert_cons, same a b c d first here]
    split
    · exact .cons first (.cons here rest)
    · exact .cons here ih

/-- Lists that a sort cannot tell apart stay related when both are sorted. -/
theorem forall₂_sortBy (same : ∀ a b c d, R a c → R b d → cmp' c d = cmp a b) {xs : List β}
    {ys : List γ} (related : Forall₂ R xs ys) :
    Forall₂ R (Slices.sortBy cmp xs) (Slices.sortBy cmp' ys) := by
  induction related with
  | nil => exact .nil
  | cons first _ ih => exact forall₂_orderedInsert same first ih

end Sorts

section Repeats

variable {tie : β → β → Bool} {tie' : γ → γ → Bool}

theorem forall₂_destutter' (same : ∀ a b c d, R a c → R b d → tie' c d = tie a b) {a : β} {c : γ}
    (first : R a c) {xs : List β} {ys : List γ} (related : Forall₂ R xs ys) :
    Forall₂ R (xs.destutter' (fun a b => ¬ tie a b = true) a)
      (ys.destutter' (fun a b => ¬ tie' a b = true) c) := by
  induction related generalizing a c with
  | nil => exact .cons first .nil
  | @cons b d xs ys here rest ih =>
    rw [List.destutter'_cons, List.destutter'_cons, same a b c d first here]
    split
    · exact .cons first (ih here)
    · exact ih first

theorem forall₂_dedupBy (same : ∀ a b c d, R a c → R b d → tie' c d = tie a b) {xs : List β}
    {ys : List γ} (related : Forall₂ R xs ys) :
    Forall₂ R (Slices.dedupBy tie xs) (Slices.dedupBy tie' ys) := by
  cases related with
  | nil => exact .nil
  | cons first rest => exact forall₂_destutter' same first rest

end Repeats

end RelatedLists
