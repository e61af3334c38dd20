import Mathlib.Data.List.Basic
import Mathlib.Data.List.Nodup

namespace FirstByKey

variable {α κ : Type*} [DecidableEq κ] (key : α → κ)

/-- A loop that keeps each item whose key it has not kept before. -/
def collect (kept : List α) : List α → List α
  | [] => kept
  | a :: rest => if key a ∈ kept.map key then collect kept rest else collect (kept ++ [a]) rest

variable {key}

theorem collect_append (kept xs ys : List α) :
    collect key kept (xs ++ ys) = collect key (collect key kept xs) ys := by
  induction xs generalizing kept with
  | nil => rfl
  | cons a rest ih =>
    rw [List.cons_append, collect, collect]
    split
    · exact ih kept
    · exact ih (kept ++ [a])

theorem collect_apart {kept xs : List α} (apart : ∀ a ∈ xs, key a ∉ kept.map key)
    (more : List α) : collect key (kept ++ more) xs = kept ++ collect key more xs := by
  induction xs generalizing more with
  | nil => rfl
  | cons a rest ih =>
    have others : ∀ b ∈ rest, key b ∉ kept.map key :=
      fun b member => apart b (List.mem_cons_of_mem a member)
    have fresh := apart a List.mem_cons_self
    have seen : key a ∈ (kept ++ more).map key ↔ key a ∈ more.map key := by
      rw [List.map_append, List.mem_append, or_iff_right fresh]
    rw [collect, collect]
    by_cases known : key a ∈ more.map key
    · rw [if_pos known, if_pos (seen.mpr known)]
      exact ih others more
    · rw [if_neg known, if_neg (mt seen.mp known), List.append_assoc]
      exact ih others (more ++ [a])

theorem nodup_collect {kept : List α} (nodup : (kept.map key).Nodup) (xs : List α) :
    ((collect key kept xs).map key).Nodup := by
  induction xs generalizing kept with
  | nil => exact nodup
  | cons a rest ih =>
    rw [collect]
    split
    · exact ih nodup
    · rename_i fresh
      apply ih
      rw [List.map_append, List.map_singleton, ← List.concat_eq_append]
      exact List.Nodup.concat fresh nodup

/-- Of items with different keys those are kept whose key is new. -/
theorem collect_of_nodup {xs : List α} (nodup : (xs.map key).Nodup) (kept : List α) :
    collect key kept xs = kept ++ xs.filter (fun a => key a ∉ kept.map key) := by
  induction xs generalizing kept with
  | nil => exact (List.append_nil kept).symm
  | cons a rest ih =>
    rw [List.map_cons, List.nodup_cons] at nodup
    obtain ⟨other, nodup⟩ := nodup
    rw [collect]
    split
    · rename_i known
      rw [ih nodup, List.filter_cons_of_neg (by simpa using known)]
    · rename_i fresh
      rw [ih nodup, List.filter_cons_of_pos (by simpa using fresh), List.append_assoc,
        List.singleton_append]
      congr 2
      apply List.filter_congr
      intro b member
      have apart : key b ≠ key a := by
        intro same
        exact other (List.mem_map.mpr ⟨b, member, same⟩)
      simp only [List.map_append, List.mem_append, List.map_singleton, List.mem_singleton, apart,
        or_false]

theorem collect_flatMap {β : Type*} {block : β → List α} {bs : List β}
    (apart : bs.Pairwise (fun b c => ∀ x ∈ block b, ∀ y ∈ block c, key x ≠ key y)) :
    collect key [] (bs.flatMap block) = bs.flatMap (fun b => collect key [] (block b)) := by
  have inside : ∀ xs : List α, ∀ a ∈ collect key [] xs, a ∈ xs := by
    have kept_or : ∀ (xs kept : List α), ∀ a ∈ collect key kept xs, a ∈ kept ∨ a ∈ xs := by
      intro xs
      induction xs with
      | nil => exact fun kept a member => .inl member
      | cons b rest ih =>
        intro kept a member
        rw [collect] at member
        split at member
        · exact (ih kept a member).imp_right (List.mem_cons_of_mem b)
        · rcases ih _ a member with before | later
          · rcases List.mem_append.mp before with old | new
            · exact .inl old
            · rw [List.mem_singleton.mp new]
              exact .inr List.mem_cons_self
          · exact .inr (List.mem_cons_of_mem b later)
    intro xs a member
    exact (kept_or xs [] a member).resolve_left List.not_mem_nil
  induction apart with
  | nil => rfl
  | @cons b rest others _ ih =>
    rw [List.flatMap_cons, List.flatMap_cons, collect_append, ← ih]
    have new : ∀ a ∈ rest.flatMap block, key a ∉ (collect key [] (block b)).map key := by
      intro a member known
      obtain ⟨c, later, here⟩ := List.mem_flatMap.mp member
      obtain ⟨x, kept, same⟩ := List.mem_map.mp known
      exact others c later x (inside _ x kept) a here same
    have split := collect_apart new []
    rwa [List.append_nil] at split

end FirstByKey
