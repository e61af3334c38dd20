import Mathlib.Data.List.DropRight
import Mathlib.Data.List.Infix

namespace Windows

variable {α : Type*} [BEq α] [LawfulBEq α]

def Crowded (window threshold : Nat) (items : List α) (x : α) : Prop :=
  ∃ stretch, stretch <:+: items ∧ stretch.length ≤ window ∧ threshold ≤ stretch.count x

omit [LawfulBEq α] in
theorem not_crowded_nil (window threshold : Nat) (x : α) (positive : 0 < threshold) :
    ¬ Crowded window threshold [] x := by
  rintro ⟨stretch, inside, _, often⟩
  rw [List.infix_nil.mp inside, List.count_nil] at often
  omega

omit [BEq α] [LawfulBEq α] in
theorem rtake_length_le (items : List α) (n : Nat) : (items.rtake n).length ≤ n := by
  rw [List.rtake, List.length_drop]
  omega

omit [BEq α] [LawfulBEq α] in
theorem suffix_rtake {stretch items : List α} (n : Nat) (suffix : stretch <:+ items)
    (short : stretch.length ≤ n) : stretch <:+ items.rtake n := by
  obtain ⟨before, rfl⟩ := suffix
  refine ⟨before.drop ((before ++ stretch).length - n), ?_⟩
  rw [List.rtake, List.drop_append_of_le_length (by simp; omega)]

theorem crowded_concat_iff (window threshold : Nat) (items : List α) (last x : α)
    (positive : 0 < threshold) :
    Crowded window threshold (items ++ [last]) x ↔
      Crowded window threshold items x ∨
        (x = last ∧ threshold ≤ ((items ++ [last]).rtake window).count last) := by
  constructor
  · rintro ⟨stretch, inside, short, often⟩
    rcases List.infix_concat_iff.mp inside with suffix | earlier
    · by_cases same : x = last
      · subst same
        have more := ((suffix_rtake window suffix short).sublist.count_le x)
        exact .inr ⟨rfl, Nat.le_trans often more⟩
      · rcases List.suffix_concat_iff.mp suffix with rfl | ⟨rest, rfl, before⟩
        · simp at often
          omega
        · refine .inl ⟨rest, before.isInfix, ?_, ?_⟩
          · rw [List.length_append] at short
            omega
          · rwa [List.count_append, List.count_singleton, if_neg (by simpa using Ne.symm same),
              Nat.add_zero] at often
    · exact .inl ⟨stretch, earlier, short, often⟩
  · rintro (⟨stretch, inside, short, often⟩ | ⟨rfl, often⟩)
    · exact ⟨stretch, inside.trans (List.infix_append' [] items [last]), short, often⟩
    · exact ⟨_, (List.drop_suffix _ _).isInfix, rtake_length_le _ _, often⟩

section Rolling

variable {β : Type*}

/-- The last items up to a place, as many as the window takes. -/
def windowAt (window : Nat) (items : List β) (i : Nat) : List β := (items.take (i + 1)).rtake window

theorem windowAt_append (window : Nat) (items more : List β) {i : Nat} (inside : i < items.length) :
    windowAt window (items ++ more) i = windowAt window items i := by
  rw [windowAt, windowAt, List.take_append_of_le_length inside]

theorem windowAt_last (window : Nat) (items : List β) (last : β) :
    windowAt window (items ++ [last]) items.length = (items ++ [last]).rtake window := by
  rw [windowAt, List.take_of_length_le (by simp)]

theorem push_rtake {window : Nat} (positive : 0 < window) (items : List β) (last : β) :
    (if window < (items.rtake window ++ [last]).length then (items.rtake window ++ [last]).tail
      else items.rtake window ++ [last]) = (items ++ [last]).rtake window := by
  obtain ⟨n, rfl⟩ := Nat.exists_eq_succ_of_ne_zero (Nat.ne_of_gt positive)
  have size : (items.rtake (n + 1)).length = min (n + 1) items.length := by
    rw [List.rtake, List.length_drop]
    omega
  rw [List.rtake_concat_succ, List.length_append, List.length_singleton, size]
  split
  · have filled : items.rtake (n + 1) ≠ [] := by
      rw [ne_eq, ← List.length_eq_zero_iff, size]
      omega
    rw [List.tail_append_of_ne_nil filled, List.rtake, List.rtake, List.tail_drop]
    congr 2
    omega
  · rw [List.rtake, List.rtake]
    congr 2
    omega

end Rolling

end Windows
