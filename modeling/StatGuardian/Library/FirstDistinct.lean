import Mathlib.Data.List.Basic
import Mathlib.Data.List.Nodup
import Mathlib.Data.List.Sublists

namespace FirstDistinct

variable {α : Type*} [DecidableEq α]

/-- A loop that keeps each item that it has not kept before. -/
def collect (kept : List α) : List α → List α
  | [] => kept
  | a :: rest => if a ∈ kept then collect kept rest else collect (kept ++ [a]) rest

theorem filter_eraseDups (p : α → Bool) (xs : List α) :
    xs.eraseDups.filter p = (xs.filter p).eraseDups := by
  induction h : xs.length using Nat.strong_induction_on generalizing xs with
  | _ n ih =>
    cases xs with
    | nil => rfl
    | cons a rest =>
      rw [List.eraseDups_cons, List.filter_cons, List.filter_cons]
      have shorter : (rest.filter (fun b => !b == a)).length < n := by
        have le := List.length_filter_le (fun b => !b == a) rest
        rw [List.length_cons] at h
        omega
      rw [ih _ shorter _ rfl, List.filter_filter]
      split
      · rw [List.eraseDups_cons, List.filter_filter]
        simp only [Bool.and_comm]
      · rename_i fails
        congr 1
        apply List.filter_congr
        intro b _
        by_cases same : b = a
        · subst same
          simp [fails]
        · simp [same]

theorem collect_eq (kept xs : List α) :
    collect kept xs = kept ++ (xs.filter (· ∉ kept)).eraseDups := by
  induction xs generalizing kept with
  | nil => exact (List.append_nil kept).symm
  | cons a rest ih =>
    rw [collect]
    split
    · rename_i known
      rw [ih, List.filter_cons_of_neg (by simpa using known)]
    · rename_i fresh
      rw [ih, List.filter_cons_of_pos (by simpa using fresh), List.eraseDups_cons,
        List.filter_filter, List.append_assoc, List.singleton_append]
      congr 3
      apply List.filter_congr
      intro b _
      simp [not_or, Bool.and_comm, beq_eq_decide]

def firsts (xs : List α) : List α := collect [] xs

theorem firsts_eq (xs : List α) : firsts xs = xs.eraseDups := by
  rw [firsts, collect_eq]
  simp

theorem nodup_eraseDups (xs : List α) : xs.eraseDups.Nodup := by
  induction h : xs.length using Nat.strong_induction_on generalizing xs with
  | _ n ih =>
    cases xs with
    | nil => exact .nil
    | cons a rest =>
      rw [List.eraseDups_cons, List.nodup_cons]
      have le := List.length_filter_le (fun b => !b == a) rest
      rw [List.length_cons] at h
      refine ⟨?_, ih _ (by omega) _ rfl⟩
      rw [List.mem_eraseDups, List.mem_filter]
      simp

theorem eraseDups_of_nodup {xs : List α} (nodup : xs.Nodup) : xs.eraseDups = xs := by
  induction nodup with
  | nil => rfl
  | @cons a rest apart _ ih =>
    rw [List.eraseDups_cons, List.filter_eq_self.mpr, ih]
    intro b member
    have other := apart b member
    simp [Ne.symm other]

theorem eraseDups_append_filter (xs ys : List α) :
    (xs ++ ys).eraseDups = xs.eraseDups ++ ys.eraseDups.filter (· ∉ xs) := by
  rw [List.eraseDups_append, filter_eraseDups, List.removeAll]
  congr 3
  funext b
  simp [List.elem_eq_contains]

theorem length_filter_out {xs ys : List α} (nodup : ys.Nodup) :
    ys.length ≤ (ys.filter (· ∉ xs)).length + xs.length := by
  have out : (ys.filter (· ∈ xs)).length ≤ xs.length := by
    apply List.Subperm.length_le
    apply List.subperm_of_subset (nodup.filter _)
    intro b member
    exact of_decide_eq_true (List.mem_filter.mp member).2
  have split := List.length_eq_length_filter_add (l := ys) (fun b => decide (b ∈ xs))
  have same : ys.filter (fun b => !decide (b ∈ xs)) = ys.filter (· ∉ xs) :=
    List.filter_congr (fun b _ => by simp)
  rw [same] at split
  omega

theorem take_eraseDups_append (n : Nat) (xs ys : List α) :
    ((xs.eraseDups.take n ++ ys.eraseDups.take n).eraseDups).take n =
      ((xs ++ ys).eraseDups).take n := by
  have left : (xs.eraseDups.take n).eraseDups = xs.eraseDups.take n :=
    eraseDups_of_nodup ((nodup_eraseDups xs).sublist (List.take_sublist n _))
  have right : (ys.eraseDups.take n).eraseDups = ys.eraseDups.take n :=
    eraseDups_of_nodup ((nodup_eraseDups ys).sublist (List.take_sublist n _))
  rw [eraseDups_append_filter, eraseDups_append_filter, left, right]
  by_cases many : n ≤ xs.eraseDups.length
  · rw [List.take_append_of_le_length (by rw [List.length_take]; omega), List.take_take,
      Nat.min_self, List.take_append_of_le_length many]
  · have all : xs.eraseDups.take n = xs.eraseDups := List.take_of_length_le (by omega)
    have members : ∀ b, b ∈ xs.eraseDups ↔ b ∈ xs := fun b => List.mem_eraseDups
    simp only [all, members]
    rw [List.take_append, List.take_append, List.append_right_inj]
    have few : (ys.eraseDups.take n).length ≤
        ((ys.eraseDups.take n).filter (· ∉ xs.eraseDups)).length + xs.eraseDups.length :=
      length_filter_out ((nodup_eraseDups ys).sublist (List.take_sublist n _))
    simp only [members, List.length_take] at few
    by_cases whole : ys.eraseDups.length ≤ n
    · rw [List.take_of_length_le whole]
    · have cut := congrArg (List.filter (· ∉ xs)) (List.take_append_drop n ys.eraseDups)
      rw [List.filter_append] at cut
      rw [← cut, List.take_append_of_le_length (by omega)]

/-- The first distinct items of two parts are found among the first distinct ones of each. -/
theorem take_firsts_append (n : Nat) (xs ys : List α) :
    (firsts ((firsts xs).take n ++ (firsts ys).take n)).take n = (firsts (xs ++ ys)).take n := by
  rw [firsts_eq, firsts_eq, firsts_eq, firsts_eq]
  exact take_eraseDups_append n xs ys

end FirstDistinct
