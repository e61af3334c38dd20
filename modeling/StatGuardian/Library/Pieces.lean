import Mathlib.Data.List.Basic

namespace Pieces

variable {α : Type*} (ends : α → Bool)

/-- The items cut after each one that ends a piece. The last piece may have no end. -/
def splitAfter : List α → List (List α)
  | [] => []
  | item :: rest =>
    if ends item then [item] :: splitAfter rest
    else
      match splitAfter rest with
      | [] => [[item]]
      | piece :: pieces => (item :: piece) :: pieces

theorem flatten_splitAfter (items : List α) : (splitAfter ends items).flatten = items := by
  induction items with
  | nil => rfl
  | cons item rest ih =>
    rw [splitAfter]
    split
    · rw [List.flatten_cons, ih, List.singleton_append]
    · cases pieces : splitAfter ends rest with
      | nil =>
        rw [pieces] at ih
        rw [← ih]
        rfl
      | cons piece pieces' =>
        rw [pieces] at ih
        rw [← ih]
        rfl

theorem splitAfter_append_of_some {items : List α} {i : Nat}
    (found : items.findIdx? ends = some i) (more : List α) :
    splitAfter ends (items ++ more) =
      items.take (i + 1) :: splitAfter ends (items.drop (i + 1) ++ more) := by
  induction items generalizing i with
  | nil => cases found
  | cons item rest ih =>
    rw [List.findIdx?_cons] at found
    split at found
    · rename_i last
      obtain rfl := Option.some.inj found
      simp [splitAfter, last]
    · rename_i inner
      obtain ⟨j, later, rfl⟩ := Option.map_eq_some_iff.mp found
      rw [List.cons_append, splitAfter, if_neg inner, ih later]
      rfl

theorem splitAfter_append_of_none {items : List α} (none : items.findIdx? ends = none)
    (some : items ≠ []) (more : List α) :
    splitAfter ends (items ++ more) =
      (items ++ (splitAfter ends more).headD []) :: (splitAfter ends more).tail := by
  induction items with
  | nil => exact absurd rfl some
  | cons item rest ih =>
    rw [List.findIdx?_cons] at none
    split at none
    · cases none
    · rename_i inner
      rw [Option.map_eq_none_iff] at none
      rw [List.cons_append, splitAfter, if_neg inner]
      cases rest with
      | nil =>
        rw [List.nil_append]
        cases splitAfter ends more <;> rfl
      | cons next rest =>
        rw [ih none (List.cons_ne_nil _ _)]
        rfl

theorem ne_nil_of_mem_splitAfter {items piece : List α} (member : piece ∈ splitAfter ends items) :
    piece ≠ [] := by
  induction items generalizing piece with
  | nil => cases member
  | cons item rest ih =>
    rw [splitAfter] at member
    split at member
    · rcases List.mem_cons.mp member with rfl | later
      · exact List.cons_ne_nil _ _
      · exact ih later
    · split at member
      · rw [List.mem_singleton.mp member]
        exact List.cons_ne_nil _ _
      · rename_i cut
        rcases List.mem_cons.mp member with rfl | later
        · exact List.cons_ne_nil _ _
        · exact ih (cut ▸ List.mem_cons_of_mem _ later)

def IsWhole (piece : List α) : Prop :=
  ∃ body last, piece = body ++ [last] ∧ ends last = true ∧ ∀ item ∈ body, ends item = false

/-- Pieces that each end where they should are found again in their concatenation. -/
theorem splitAfter_flatten_append (pieces : List (List α)) (each : ∀ piece ∈ pieces, IsWhole ends piece)
    (more : List α) : splitAfter ends (pieces.flatten ++ more) = pieces ++ splitAfter ends more := by
  induction pieces with
  | nil => rfl
  | cons piece pieces ih =>
    obtain ⟨⟨body, last, rfl, final, inner⟩, rest⟩ := List.forall_mem_cons.mp each
    have found : (body ++ [last]).findIdx? ends = some body.length := by
      rw [List.findIdx?_append, List.findIdx?_eq_none_iff.mpr inner]
      simp [List.findIdx?_cons, final]
    have whole : (body ++ [last]).length = body.length + 1 := by simp
    rw [List.flatten_cons, List.append_assoc, splitAfter_append_of_some ends found, ← whole,
      List.take_length, List.drop_length, List.nil_append, ih rest, List.cons_append]

theorem splitAfter_flatten (pieces : List (List α)) (each : ∀ piece ∈ pieces, IsWhole ends piece) :
    splitAfter ends pieces.flatten = pieces := by
  have cut := splitAfter_flatten_append ends pieces each []
  rwa [List.append_nil, splitAfter, List.append_nil] at cut

theorem exists_whole (items : List α) : ∃ (pieces : List (List α)) (tail : List α),
    items = pieces.flatten ++ tail ∧ (∀ piece ∈ pieces, IsWhole ends piece) ∧
      ∀ item ∈ tail, ends item = false := by
  induction items with
  | nil => exact ⟨[], [], rfl, List.forall_mem_nil _, List.forall_mem_nil _⟩
  | cons item rest ih =>
    obtain ⟨pieces, tail, rfl, each, inner⟩ := ih
    cases last : ends item with
    | true =>
      refine ⟨[item] :: pieces, tail, rfl, List.forall_mem_cons.mpr ⟨?_, each⟩, inner⟩
      exact ⟨[], item, rfl, last, List.forall_mem_nil _⟩
    | false =>
      cases pieces with
      | nil => exact ⟨[], item :: tail, rfl, each, List.forall_mem_cons.mpr ⟨last, inner⟩⟩
      | cons piece pieces =>
        obtain ⟨⟨body, final, rfl, ends', inside⟩, others⟩ := List.forall_mem_cons.mp each
        refine ⟨(item :: body ++ [final]) :: pieces, tail, rfl,
          List.forall_mem_cons.mpr ⟨?_, others⟩, inner⟩
        exact ⟨item :: body, final, rfl, ends', List.forall_mem_cons.mpr ⟨last, inside⟩⟩

theorem splitAfter_tail {tail : List α} (inner : ∀ item ∈ tail, ends item = false) (some : tail ≠ []) :
    splitAfter ends tail = [tail] := by
  have cut := splitAfter_append_of_none ends (List.findIdx?_eq_none_iff.mpr inner) some []
  rwa [List.append_nil, splitAfter, List.headD_nil, List.append_nil, List.tail_nil] at cut

theorem eq_of_flatten_length {before before' after after' : List (List α)}
    (filled : ∀ piece ∈ before ++ after, piece ≠ []) (same : before ++ after = before' ++ after')
    (length : before.flatten.length = before'.flatten.length) : before = before' := by
  have shorter : ∀ front middle : List (List α), (∀ piece ∈ front ++ middle, piece ≠ []) →
      front.flatten.length = (front ++ middle).flatten.length → front = front ++ middle := by
    intro front middle filled length
    rw [List.flatten_append, List.length_append, Nat.left_eq_add, List.length_eq_zero_iff,
      List.flatten_eq_nil_iff] at length
    cases middle with
    | nil => rw [List.append_nil]
    | cons piece middle =>
      exact absurd (length piece List.mem_cons_self)
        (filled piece (List.mem_append_right _ List.mem_cons_self))
  rcases List.append_eq_append_iff.mp same with ⟨middle, rfl, -⟩ | ⟨middle, rfl, rfl⟩
  · refine shorter before middle (fun piece member => ?_) length
    exact filled piece (same ▸ List.mem_append_left _ member)
  · refine (shorter before' middle (fun piece member => ?_) length.symm).symm
    exact filled piece (List.mem_append_left _ member)

end Pieces
