import Mathlib.Order.Lattice

namespace LastMaximum

variable {α κ : Type*} [LinearOrder κ] (key : α → κ)

/-- `Iterator::max_by_key`, which of equal items returns the last. -/
def maxByKey : List α → Option α
  | [] => none
  | first :: rest => some (rest.foldl (fun best a => if key best ≤ key a then a else best) first)

def LastOfLargest (items : List α) (a : α) : Prop :=
  ∃ before after, items = before ++ a :: after ∧ (∀ b ∈ before, key b ≤ key a) ∧
    ∀ b ∈ after, key b < key a

theorem lastOfLargest_foldl (before : List α) (best : α) (rest middle : List α)
    (earlier : ∀ b ∈ before, key b ≤ key best) (between : ∀ b ∈ middle, key b < key best) :
    LastOfLargest key (before ++ best :: middle ++ rest)
      (rest.foldl (fun best a => if key best ≤ key a then a else best) best) := by
  induction rest generalizing before best middle with
  | nil => exact ⟨before, middle, List.append_nil _, earlier, between⟩
  | cons a rest ih =>
    rw [List.foldl_cons]
    by_cases larger : key best ≤ key a
    · rw [if_pos larger, List.append_cons, ← List.append_nil (before ++ best :: middle ++ [a]),
        List.append_assoc _ [a]]
      apply ih
      · intro b member
        rcases List.mem_append.mp member with first | second
        · exact (earlier b first).trans larger
        · rcases List.mem_cons.mp second with rfl | inside
          · exact larger
          · exact (between b inside).le.trans larger
      · intro b member
        cases member
    · rw [if_neg larger]
      have onward := ih before best (middle ++ [a]) earlier (by
        intro b member
        rcases List.mem_append.mp member with first | second
        · exact between b first
        · rw [List.mem_singleton.mp second]
          exact not_le.mp larger)
      simpa only [List.append_assoc, List.cons_append, List.nil_append] using onward

theorem lastOfLargest_unique {items : List α} {a b : α} (first : LastOfLargest key items a)
    (second : LastOfLargest key items b) : a = b := by
  obtain ⟨before, after, split, earlier, later⟩ := first
  obtain ⟨beforeToo, afterToo, splitToo, earlierToo, laterToo⟩ := second
  rcases List.append_eq_append_iff.mp (split.symm.trans splitToo) with
    ⟨middle, rfl, cut⟩ | ⟨middle, rfl, cut⟩
  · cases middle with
    | nil => exact (List.cons.inj cut).1
    | cons c middle =>
      obtain ⟨rfl, rfl⟩ := List.cons.inj cut
      have up := earlierToo a (by simp)
      have down := later b (by simp)
      exact absurd down (not_lt.mpr up)
  · cases middle with
    | nil => exact (List.cons.inj cut).1.symm
    | cons c middle =>
      obtain ⟨rfl, rfl⟩ := List.cons.inj cut
      have up := earlier b (by simp)
      have down := laterToo a (by simp)
      exact absurd down (not_lt.mpr up)

theorem maxByKey_eq_some_iff (items : List α) (a : α) :
    maxByKey key items = some a ↔ LastOfLargest key items a := by
  cases items with
  | nil =>
    constructor
    · intro none
      cases none
    · rintro ⟨before, after, split, -⟩
      exact absurd split.symm (by simp)
  | cons first rest =>
    have found := lastOfLargest_foldl key [] first rest [] (by simp) (by simp)
    constructor
    · intro same
      rw [← Option.some.inj same]
      exact found
    · intro last
      exact congrArg some (lastOfLargest_unique key found last)

end LastMaximum
