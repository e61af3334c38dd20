import Mathlib.Data.List.Basic

namespace LastPart

variable {α : Type*} (p : α → Bool)

def lastPart (items : List α) : Option (List α) :=
  (items.splitOnP p).reverse.find? (fun part => !part.isEmpty)

theorem splitOnP_parts (items : List α) :
    ∀ part ∈ items.splitOnP p, ∀ item ∈ part, p item = false := by
  induction items with
  | nil =>
    intro part member
    rw [List.splitOnP_nil, List.mem_singleton] at member
    subst member
    nofun
  | cons first rest ih =>
    rw [List.splitOnP_cons_eq_if_modifyHead]
    cases sep : p first with
    | true =>
      intro part member
      rcases List.mem_cons.mp member with rfl | member
      · nofun
      · exact ih part member
    | false =>
      obtain ⟨head, tail, parts⟩ := List.exists_cons_of_ne_nil (List.splitOnP_ne_nil p rest)
      rw [parts] at ih ⊢
      intro part member
      rcases List.mem_cons.mp member with rfl | member
      · intro item inside
        rcases List.mem_cons.mp inside with rfl | inside
        · exact sep
        · exact ih head (List.mem_cons_self ..) item inside
      · exact ih part (List.mem_cons_of_mem _ member)

theorem lastPart_append_cons (before after : List α) {sep : α} (cut : p sep = true) :
    lastPart p (before ++ sep :: after) = (lastPart p after).or (lastPart p before) := by
  rw [lastPart, List.splitOnP_append_cons before after cut, List.reverse_append, List.find?_append]
  rfl

theorem lastPart_plain {items : List α} (nonempty : items ≠ [])
    (plain : ∀ item ∈ items, p item = false) : lastPart p items = some items := by
  rw [lastPart, List.splitOnP_eq_singleton plain]
  simp [nonempty]

theorem lastPart_some {items part : List α} (found : lastPart p items = some part) :
    part ≠ [] ∧ ∀ item ∈ part, p item = false := by
  have holds := List.find?_some found
  have member := List.mem_reverse.mp (List.mem_of_find?_eq_some found)
  exact ⟨by simpa using holds, splitOnP_parts p items part member⟩

theorem lastPart_separators {items : List α} (seps : ∀ item ∈ items, p item = true) :
    lastPart p items = none := by
  induction items with
  | nil => rfl
  | cons first rest ih =>
    have front := lastPart_append_cons p [] rest (seps first (List.mem_cons_self ..))
    rw [List.nil_append] at front
    rw [front, ih (fun item member => seps item (List.mem_cons_of_mem _ member))]
    rfl

theorem separators_of_parts (items : List α) (empty : ∀ part ∈ items.splitOnP p, part = []) :
    ∀ item ∈ items, p item = true := by
  induction items with
  | nil => nofun
  | cons first rest ih =>
    rw [List.splitOnP_cons_eq_if_modifyHead] at empty
    cases sep : p first with
    | true =>
      rw [sep, if_pos rfl] at empty
      intro item member
      rcases List.mem_cons.mp member with rfl | member
      · exact sep
      · exact ih (fun part inside => empty part (List.mem_cons_of_mem _ inside)) item member
    | false =>
      obtain ⟨head, tail, parts⟩ := List.exists_cons_of_ne_nil (List.splitOnP_ne_nil p rest)
      rw [sep, parts] at empty
      cases empty (first :: head) (List.mem_cons_self ..)

theorem lastPart_eq_none_iff (items : List α) :
    lastPart p items = none ↔ ∀ item ∈ items, p item = true := by
  constructor
  · intro none
    apply separators_of_parts
    intro part member
    have empty := List.find?_eq_none.mp none part (List.mem_reverse.mpr member)
    simpa using empty
  · exact lastPart_separators p

end LastPart
