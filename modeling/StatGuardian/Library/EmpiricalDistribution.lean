import Mathlib.Algebra.Order.Field.Rat
import Mathlib.Data.List.Sort
import Mathlib.Order.Bounds.Basic
import Mathlib.Tactic.Linarith

namespace EmpiricalDistribution

variable {α : Type*} [LinearOrder α]

def upTo (l : List α) (x : α) : ℕ := l.countP (· ≤ x)

def edf (l : List α) (x : α) : ℚ := upTo l x / l.length

def gap (l m : List α) (x : α) : ℚ := |edf l x - edf m x|

/-- The Kolmogorov-Smirnov distance: the largest gap there is. -/
def IsDistance (l m : List α) (d : ℚ) : Prop := IsGreatest (Set.range (gap l m)) d

theorem upTo_le (l : List α) (x : α) : upTo l x ≤ l.length := List.countP_le_length

theorem edf_nonneg (l : List α) (x : α) : 0 ≤ edf l x :=
  div_nonneg (Nat.cast_nonneg _) (Nat.cast_nonneg _)

theorem edf_le_one (l : List α) (x : α) : edf l x ≤ 1 :=
  div_le_one_of_le₀ (Nat.cast_le.mpr (upTo_le l x)) (Nat.cast_nonneg _)

theorem edf_perm {l l' : List α} (perm : l.Perm l') : edf l = edf l' := by
  funext x
  rw [edf, edf, upTo, upTo, perm.countP_eq, perm.length_eq]

theorem gap_comm (l m : List α) : gap l m = gap m l := by
  funext x
  exact abs_sub_comm _ _

namespace IsDistance

variable {l m : List α} {d : ℚ}

theorem symm (distance : IsDistance l m d) : IsDistance m l d := by
  rwa [IsDistance, gap_comm]

theorem perm {l' m' : List α} (left : l.Perm l') (right : m.Perm m') (distance : IsDistance l m d) :
    IsDistance l' m' d := by
  have same : gap l' m' = gap l m := by
    funext x
    rw [gap, gap, edf_perm left, edf_perm right]
  rwa [IsDistance, same]

theorem nonneg (distance : IsDistance l m d) : 0 ≤ d := by
  obtain ⟨x, rfl⟩ := distance.1
  exact abs_nonneg _

theorem le_one (distance : IsDistance l m d) : d ≤ 1 := by
  obtain ⟨x, rfl⟩ := distance.1
  rw [gap, abs_le]
  have left := edf_le_one l x
  have right := edf_le_one m x
  have left' := edf_nonneg l x
  have right' := edf_nonneg m x
  constructor <;> linarith

theorem eq_zero_iff (distance : IsDistance l m d) : d = 0 ↔ edf l = edf m := by
  constructor
  · rintro rfl
    funext x
    have none : gap l m x ≤ 0 := distance.2 ⟨x, rfl⟩
    exact sub_eq_zero.mp (abs_nonpos_iff.mp none)
  · intro same
    obtain ⟨x, rfl⟩ := distance.1
    rw [gap, same, sub_self, abs_zero]

end IsDistance

section Sorted

variable {l : List α} {x : α}

theorem upTo_eq_zero (above : ∀ b ∈ l, x < b) : upTo l x = 0 := by
  rw [upTo, List.countP_eq_zero]
  intro b member
  simpa using above b member

theorem upTo_eq_length (below : ∀ a ∈ l, a ≤ x) : upTo l x = l.length := by
  rw [upTo, List.countP_eq_length]
  intro a member
  simpa using below a member

theorem upTo_cons_of_le {a : α} (le : a ≤ x) : upTo (a :: l) x = upTo l x + 1 :=
  List.countP_cons_of_pos (by simpa using le)

theorem upTo_cons_of_lt {a : α} (sorted : (a :: l).Pairwise (· ≤ ·)) (less : x < a) :
    upTo (a :: l) x = 0 := by
  refine upTo_eq_zero fun b member => ?_
  rcases List.mem_cons.mp member with rfl | later
  · exact less
  · exact less.trans_le ((List.pairwise_cons.mp sorted).1 b later)

theorem upTo_eq_takeWhile (sorted : l.Pairwise (· ≤ ·)) :
    upTo l x = (l.takeWhile (· ≤ x)).length := by
  induction l with
  | nil => rfl
  | cons a rest ih =>
    by_cases le : a ≤ x
    · rw [upTo_cons_of_le le, ih sorted.of_cons, List.takeWhile_cons_of_pos (by simpa using le),
        List.length_cons]
    · rw [upTo_cons_of_lt sorted (not_le.mp le), List.takeWhile_cons_of_neg (by simpa using le),
        List.length_nil]

theorem cut_at_upTo (sorted : l.Pairwise (· ≤ ·)) :
    (∀ a ∈ l.take (upTo l x), a ≤ x) ∧ ∀ b ∈ l.drop (upTo l x), x < b := by
  induction l with
  | nil => exact ⟨nofun, nofun⟩
  | cons a rest ih =>
    by_cases le : a ≤ x
    · rw [upTo_cons_of_le le, List.take_succ_cons, List.drop_succ_cons, List.forall_mem_cons]
      exact ⟨⟨le, (ih sorted.of_cons).1⟩, (ih sorted.of_cons).2⟩
    · have less := not_le.mp le
      rw [upTo_cons_of_lt sorted less]
      refine ⟨nofun, fun b member => ?_⟩
      rcases List.mem_cons.mp member with rfl | later
      · exact less
      · exact less.trans_le ((List.pairwise_cons.mp sorted).1 b later)

theorem upTo_eq_add (sorted : l.Pairwise (· ≤ ·)) {i : ℕ} (inside : i ≤ l.length)
    (low : ∀ a ∈ l.take i, a ≤ x) : upTo l x = i + ((l.drop i).takeWhile (· ≤ x)).length := by
  rw [← upTo_eq_takeWhile (sorted.sublist (List.drop_sublist i l))]
  nth_rewrite 1 [← List.take_append_drop i l]
  have all := upTo_eq_length low
  rw [List.length_take, Nat.min_eq_left inside] at all
  rw [upTo, List.countP_append, ← upTo, ← upTo, all]

theorem upTo_eq_of_cut {i : ℕ} (inside : i ≤ l.length) (low : ∀ a ∈ l.take i, a ≤ x)
    (high : ∀ b ∈ l.drop i, x < b) : upTo l x = i := by
  nth_rewrite 1 [← List.take_append_drop i l]
  rw [upTo, List.countP_append, ← upTo, ← upTo, upTo_eq_length low, upTo_eq_zero high,
    List.length_take, Nat.min_eq_left inside, Nat.add_zero]

end Sorted

section Merge

variable {l m : List α} {i j : ℕ} {d : ℚ}

/-- How far two sorted lists are merged: the values read are below the others, and `d` is the
    largest gap below those. -/
structure Merging (l m : List α) (i j : ℕ) (d : ℚ) : Prop where
  left : i ≤ l.length
  right : j ≤ m.length
  apart : ∀ a ∈ l.take i ++ m.take j, ∀ b ∈ l.drop i ++ m.drop j, a < b
  bound : ∀ x, (∀ b ∈ l.drop i ++ m.drop j, x < b) → gap l m x ≤ d
  attained : d = 0 ∨ ∃ x, gap l m x = d

namespace Merging

theorem start (l m : List α) : Merging l m 0 0 0 where
  left := Nat.zero_le _
  right := Nat.zero_le _
  apart := by simp
  bound x above := by
    simp only [List.drop_zero, List.forall_mem_append] at above
    rw [gap, edf, edf, upTo_eq_zero above.1, upTo_eq_zero above.2]
    simp
  attained := .inl rfl

/-- One step reads every value up to the least that is left. -/
theorem step (merging : Merging l m i j d) (sortedL : l.Pairwise (· ≤ ·))
    (sortedM : m.Pairwise (· ≤ ·)) {y : α} (least : ∀ b ∈ l.drop i ++ m.drop j, y ≤ b) :
    Merging l m (upTo l y) (upTo m y) (max d (gap l m y)) := by
  have cutL := cut_at_upTo (x := y) sortedL
  have cutM := cut_at_upTo (x := y) sortedM
  refine ⟨upTo_le l y, upTo_le m y, ?_, ?_, ?_⟩
  · intro a read b left
    have low := List.forall_mem_append.mpr ⟨cutL.1, cutM.1⟩ a read
    have high := List.forall_mem_append.mpr ⟨cutL.2, cutM.2⟩ b left
    exact low.trans_lt high
  · intro x above
    rcases lt_or_ge x y with less | more
    · exact le_max_of_le_left (merging.bound x fun b left => less.trans_le (least b left))
    · -- nothing lies between `y` and `x`
      obtain ⟨aboveL, aboveM⟩ := List.forall_mem_append.mp above
      have countL : upTo l x = upTo l y :=
        upTo_eq_of_cut (upTo_le l y) (fun a read => (cutL.1 a read).trans more) aboveL
      have countM : upTo m x = upTo m y :=
        upTo_eq_of_cut (upTo_le m y) (fun a read => (cutM.1 a read).trans more) aboveM
      rw [gap, edf, edf, countL, countM]
      exact le_max_right _ _
  · rcases le_total d (gap l m y) with le | ge
    · rw [max_eq_right le]
      exact .inr ⟨y, rfl⟩
    · rw [max_eq_left ge]
      exact merging.attained

theorem finish (merging : Merging l m l.length m.length d) (top : α)
    (whole : ∀ a ∈ l ++ m, a ≤ top) (fullL : l ≠ []) (fullM : m ≠ []) : IsDistance l m d := by
  constructor
  · rcases merging.attained with rfl | ⟨x, reached⟩
    · refine ⟨top, ?_⟩
      obtain ⟨wholeL, wholeM⟩ := List.forall_mem_append.mp whole
      have one : ∀ k : List α, k ≠ [] → (k.length : ℚ) / k.length = 1 := fun k full =>
        div_self (Nat.cast_ne_zero.mpr (List.length_eq_zero_iff.not.mpr full))
      rw [gap, edf, edf, upTo_eq_length wholeL, upTo_eq_length wholeM, one l fullL, one m fullM,
        sub_self, abs_zero]
    · exact ⟨x, reached⟩
  · rintro _ ⟨x, rfl⟩
    exact merging.bound x (by simp)

end Merging

end Merge

end EmpiricalDistribution
