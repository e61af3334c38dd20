import Mathlib.Data.List.Basic

namespace CappedCollection

variable {α : Type*} (room : α → ℕ)

/-- An item is kept while there is room for items of its sort. -/
def keep (kept : List α) (item : α) : List α :=
  if kept.length < room item then kept ++ [item] else kept

def retain (kept items : List α) : List α := items.foldl (keep room) kept

variable {room}

theorem retain_concat (kept items : List α) (item : α) :
    retain room kept (items ++ [item]) = keep room (retain room kept items) item := by
  rw [retain, List.foldl_append]
  rfl

theorem retain_keep (kept items : List α) (item : α)
    (longer : items.length ≤ (retain room kept items).length) :
    retain room kept (keep room items item) = keep room (retain room kept items) item := by
  rw [keep]
  split
  · exact retain_concat kept items item
  · rw [keep, if_neg (by omega)]

theorem length_keep_le (kept more : List α) {item other : α} (same : room item = room other)
    (longer : kept.length ≤ more.length) :
    (keep room kept item).length ≤ (keep room more other).length := by
  have grows : more.length ≤ (keep room more other).length := by
    rw [keep]
    split
    · rw [List.length_append]
      omega
    · exact Nat.le_refl _
  by_cases first : kept.length < room item
  · rw [keep, if_pos first, List.length_append, List.length_singleton, keep, ← same]
    split
    · rw [List.length_append, List.length_singleton]
      omega
    · omega
  · rw [keep, if_neg first]
    exact Nat.le_trans longer grows

theorem map_keep (f : α → α) (same : ∀ item, room (f item) = room item) (kept : List α)
    (item : α) : (keep room kept item).map f = keep room (kept.map f) (f item) := by
  unfold keep
  rw [same, List.length_map]
  split
  · rw [List.map_append, List.map_singleton]
  · rfl

end CappedCollection
