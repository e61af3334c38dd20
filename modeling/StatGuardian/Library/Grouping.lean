import Mathlib.Data.List.Induction
import Mathlib.Data.List.Nodup

namespace Grouping

variable {α κ : Type*} [DecidableEq κ] (key : α → κ)

/-- An item joins the group of its key, or opens a new one after the others. -/
def add : List (κ × List α) → α → List (κ × List α)
  | [], item => [(key item, [item])]
  | (k, group) :: rest, item =>
    if k = key item then (k, group ++ [item]) :: rest else (k, group) :: add rest item

def groups (items : List α) : List (κ × List α) := items.foldl (add key) []

theorem groups_append_singleton (items : List α) (item : α) :
    groups key (items ++ [item]) = add key (groups key items) item := by
  rw [groups, List.foldl_append]
  rfl

theorem keys_add (grouped : List (κ × List α)) (item : α) :
    (add key grouped item).map Prod.fst =
      if key item ∈ grouped.map Prod.fst then grouped.map Prod.fst
      else grouped.map Prod.fst ++ [key item] := by
  induction grouped with
  | nil => rfl
  | cons entry rest ih =>
    obtain ⟨k, group⟩ := entry
    rw [add]
    by_cases same : k = key item
    · subst same
      simp
    · rw [if_neg same, List.map_cons, ih]
      by_cases known : key item ∈ rest.map Prod.fst
      · simp [known]
      · simp [known, Ne.symm same]

theorem nodup_add (grouped : List (κ × List α)) (item : α)
    (distinct : (grouped.map Prod.fst).Nodup) : ((add key grouped item).map Prod.fst).Nodup := by
  rw [keys_add]
  split
  · exact distinct
  · rename_i fresh
    apply distinct.append (List.nodup_singleton _)
    intro k member single
    exact fresh (List.mem_singleton.mp single ▸ member)

theorem nodup_groups (items : List α) : ((groups key items).map Prod.fst).Nodup := by
  induction items using List.reverseRecOn with
  | nil => exact List.nodup_nil
  | append_singleton items item ih =>
    rw [groups_append_singleton]
    exact nodup_add key _ item ih

theorem mem_add_other (grouped : List (κ × List α)) (item : α) (k : κ) (group : List α)
    (other : k ≠ key item) : (k, group) ∈ add key grouped item ↔ (k, group) ∈ grouped := by
  induction grouped with
  | nil => simp [add, other]
  | cons entry rest ih =>
    obtain ⟨first, members⟩ := entry
    rw [add]
    by_cases same : first = key item
    · rw [if_pos same, List.mem_cons, List.mem_cons, Prod.mk.injEq, Prod.mk.injEq, same]
      simp only [other, false_and, false_or]
    · rw [if_neg same, List.mem_cons, List.mem_cons, ih]

theorem mem_add_same (grouped : List (κ × List α)) (item : α) (group : List α)
    (distinct : (grouped.map Prod.fst).Nodup) :
    (key item, group) ∈ add key grouped item ↔
      (∃ older, (key item, older) ∈ grouped ∧ group = older ++ [item]) ∨
        (key item ∉ grouped.map Prod.fst ∧ group = [item]) := by
  induction grouped with
  | nil => simp [add]
  | cons entry rest ih =>
    obtain ⟨first, members⟩ := entry
    obtain ⟨apart, later⟩ := List.nodup_cons.mp distinct
    rw [add]
    by_cases same : first = key item
    · have absent : ∀ older, (key item, older) ∉ rest := by
        intro older inside
        apply apart
        change first ∈ rest.map Prod.fst
        rw [same]
        exact List.mem_map_of_mem inside
      simp [same, absent]
    · simp [same, Ne.symm same, ih later]

/-- The group of a key is the items with the key, in their order. -/
theorem mem_groups (items : List α) (k : κ) (group : List α) :
    (k, group) ∈ groups key items ↔
      group = items.filter (fun item => key item = k) ∧ group ≠ [] := by
  induction items using List.reverseRecOn generalizing k group with
  | nil => simp [groups]
  | append_singleton items item ih =>
    rw [groups_append_singleton, List.filter_append]
    by_cases same : k = key item
    · subst same
      have own : [item].filter (fun other => decide (key other = key item)) = [item] := by simp
      have older := ih (key item)
      rw [mem_add_same key _ item group (nodup_groups key items), own]
      generalize items.filter (fun other => decide (key other = key item)) = before at older ⊢
      simp only [older, List.mem_map, Prod.exists, exists_and_right, exists_eq_right]
      constructor
      · rintro (⟨older, ⟨rfl, _⟩, rfl⟩ | ⟨absent, rfl⟩)
        · exact ⟨rfl, List.append_ne_nil_of_right_ne_nil _ (List.cons_ne_nil _ _)⟩
        · have nothing : before = [] := by
            by_contra some_
            exact absent ⟨before, rfl, some_⟩
          rw [nothing]
          exact ⟨rfl, List.cons_ne_nil _ _⟩
      · intro ⟨joined, _⟩
        by_cases nothing : before = []
        · subst nothing
          exact .inr ⟨fun ⟨_, empty, some_⟩ => some_ empty, joined⟩
        · exact .inl ⟨before, ⟨rfl, nothing⟩, joined⟩
    · have others : [item].filter (fun other => decide (key other = k)) = [] := by
        simp [Ne.symm same]
      rw [mem_add_other key _ item k group same, others, List.append_nil]
      exact ih k group

end Grouping
