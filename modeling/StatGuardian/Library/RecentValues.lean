import Mathlib.Data.List.DropRight
import Mathlib.Data.Int.Init

namespace RecentValues

variable {α : Type*}

/-- `xs[-n:]` of a Python list: the last `n` items, all of them for 0, and what follows the first
    `-n` items where `n` is negative. -/
def sliceFrom (n : Int) (xs : List α) : List α :=
  if 0 < n then xs.rtake n.toNat else xs.drop (-n).toNat

def push (size : Int) (window : List α) (x : α) : List α :=
  if size < (window ++ [x]).length then sliceFrom size (window ++ [x]) else window ++ [x]

theorem rtake_of_length_le {xs : List α} {n : Nat} (short : xs.length ≤ n) : xs.rtake n = xs := by
  rw [List.rtake, Nat.sub_eq_zero_of_le short, List.drop_zero]

theorem rtake_rtake_concat (n : Nat) (xs : List α) (x : α) :
    (xs.rtake n ++ [x]).rtake n = (xs ++ [x]).rtake n := by
  cases n with
  | zero => rw [List.rtake_zero, List.rtake_zero]
  | succ n =>
    rw [List.rtake_concat_succ, List.rtake_concat_succ, List.append_left_inj, List.rtake,
      List.rtake, List.rtake, List.drop_drop, List.length_drop]
    congr 1
    omega

theorem push_rtake {size : Nat} (positive : 0 < size) (xs : List α) (x : α) :
    push size (xs.rtake size) x = (xs ++ [x]).rtake size := by
  rw [← rtake_rtake_concat, push, sliceFrom]
  split
  · rw [if_pos (by omega), Int.toNat_natCast]
  · rename_i short
    exact (rtake_of_length_le (by omega)).symm

def kept (size : Int) (xs : List α) : List α :=
  if 0 < size then xs.rtake size.toNat else if size = 0 then xs else []

theorem push_kept (size : Int) (xs : List α) (x : α) :
    push size (kept size xs) x = kept size (xs ++ [x]) := by
  unfold kept
  by_cases positive : 0 < size
  · rw [if_pos positive, if_pos positive]
    have natural : size = (size.toNat : Int) := (Int.toNat_of_nonneg (Int.le_of_lt positive)).symm
    have pushed : push size.toNat (xs.rtake size.toNat) x = (xs ++ [x]).rtake size.toNat :=
      push_rtake (by omega) xs x
    rwa [← natural] at pushed
  · rw [if_neg positive, if_neg positive, push, sliceFrom, if_neg positive]
    by_cases zero : size = 0
    · simp [zero]
    · rw [if_neg zero, if_neg zero, List.nil_append, List.length_singleton, if_pos (by omega)]
      exact List.drop_eq_nil_of_le (by rw [List.length_singleton]; omega)

/-- Every window after a run of pushes, by its size. -/
theorem foldl_push (size : Int) (xs : List α) : xs.foldl (push size) [] = kept size xs := by
  induction xs using List.reverseRecOn with
  | nil =>
    unfold kept
    split
    · rw [List.rtake_nil]
      rfl
    · rw [ite_self]
      rfl
  | append_singleton xs x ih => rw [List.foldl_append, ih, List.foldl_cons, push_kept, List.foldl_nil]

end RecentValues
