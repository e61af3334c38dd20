import Mathlib.Order.WithBot
import StatGuardian.Library.EmpiricalDistribution
import StatGuardian.Runtime.ExactEnv
import StatGuardian.Stats.KolmogorovSmirnov

namespace StatGuardian.Stats.DriftEngine

open EmpiricalDistribution Polars

abbrev ExtendedRational := WithBot (WithTop ℚ)

/-- The place of a number in the order. A NaN has none and is put at the bottom. -/
def rank : ExtRat → ExtendedRational
  | .nan | .negInf => ⊥
  | .fin q => ((q : WithTop ℚ) : ExtendedRational)
  | .posInf => ⊤

section Ranks

variable {a b : ExtRat}

theorem le_iff_rank (numberA : Float64.isNan a = false) (numberB : Float64.isNan b = false) :
    Float64.le a b = true ↔ rank a ≤ rank b := by
  cases a with
  | nan => cases numberA
  | fin p =>
    cases b with
    | nan => cases numberB
    | fin q => rw [ExtRat.le_fin, rank, rank, WithBot.coe_le_coe, WithTop.coe_le_coe]
    | negInf | posInf => simp [Float64.le, Float64.partialCmp, ExtRat.partialCmp, rank]
  | negInf | posInf =>
    cases b with
    | nan => cases numberB
    | fin | negInf | posInf => simp [Float64.le, Float64.partialCmp, ExtRat.partialCmp, rank]

theorem eq_iff_le (numberA : Float64.isNan a = false) (numberB : Float64.isNan b = false) :
    Float64.eq a b = true ↔ Float64.le a b = true ∧ Float64.le b a = true := by
  obtain ⟨order, compared⟩ := Float64.partialCmp_numbers a b numberA numberB
  have swapped := Float64.partialCmp_swap a b
  rw [compared] at swapped
  unfold Float64.eq Float64.le
  rw [compared, ← swapped]
  cases order <;> simp

theorem eq_iff_rank (numberA : Float64.isNan a = false) (numberB : Float64.isNan b = false) :
    Float64.eq a b = true ↔ rank a = rank b := by
  rw [eq_iff_le numberA numberB, le_iff_rank numberA numberB, le_iff_rank numberB numberA]
  exact antisymm_iff

theorem rank_infinity : rank Float64.infinity = ⊤ := rfl

theorem rank_getD (vals : List ExtRat) (i : Nat) :
    rank ((vals[i]?).getD Float64.infinity) = ((vals.map rank)[i]?).getD ⊤ := by
  rw [List.getElem?_map, ← rank_infinity, Option.getD_map]

theorem getD_le_of_mem_drop {ranks : List ExtendedRational} (sorted : ranks.Pairwise (· ≤ ·))
    (i : Nat) : ∀ b ∈ ranks.drop i, (ranks[i]?).getD ⊤ ≤ b := by
  intro b member
  have inside : i < ranks.length := by
    by_contra outside
    rw [List.drop_eq_nil_of_le (Nat.not_lt.mp outside)] at member
    cases member
  have rest := sorted.sublist (List.drop_sublist i ranks)
  rw [List.drop_eq_getElem_cons inside] at member rest
  rw [List.getElem?_eq_getElem inside, Option.getD_some]
  rcases List.mem_cons.mp member with rfl | later
  · exact le_rfl
  · exact (List.pairwise_cons.mp rest).1 b later

theorem le_getD_of_lt {ranks : List ExtendedRational} {i : Nat} {a : ExtendedRational}
    (below : ∀ b ∈ ranks.drop i, a < b) : a ≤ (ranks[i]?).getD ⊤ := by
  by_cases inside : i < ranks.length
  · rw [List.getElem?_eq_getElem inside]
    rw [List.drop_eq_getElem_cons inside] at below
    exact (below _ List.mem_cons_self).le
  · rw [List.getElem?_eq_none (Nat.not_lt.mp inside)]
    exact le_top

end Ranks

section Advance

variable {vals : List ExtRat}

theorem takeWhile_congr {α : Type*} {p q : α → Bool} {l : List α} (same : ∀ a ∈ l, p a = q a) :
    l.takeWhile p = l.takeWhile q := by
  induction l with
  | nil => rfl
  | cons a rest ih =>
    rw [List.forall_mem_cons] at same
    rw [List.takeWhile_cons, List.takeWhile_cons, same.1, ih same.2]

theorem skipEqual_eq_upTo (numbers : ∀ v ∈ vals, Float64.isNan v = false)
    (sorted : (vals.map rank).Pairwise (· ≤ ·)) {i : Nat} (inside : i ≤ vals.length)
    (low : ∀ a ∈ (vals.map rank).take i, a ≤ rank ((vals[i]?).getD Float64.infinity)) :
    skipEqual vals ((vals[i]?).getD Float64.infinity) i =
      upTo (vals.map rank) (rank ((vals[i]?).getD Float64.infinity)) := by
  have number := getD_infinity_isNan vals numbers i
  have least := getD_le_of_mem_drop sorted i
  rw [← rank_getD] at least
  rw [upTo_eq_add sorted (by rwa [List.length_map]) low, skipEqual, ← List.map_drop,
    List.takeWhile_map, List.length_map]
  refine congrArg (fun k => i + List.length k) (takeWhile_congr fun v left => ?_)
  have above := least (rank v) (by rw [← List.map_drop]; exact List.mem_map_of_mem left)
  rw [Bool.eq_iff_iff, eq_iff_rank (numbers v (List.mem_of_mem_drop left)) number,
    Function.comp_apply, decide_eq_true_eq]
  exact ⟨fun same => same.le, fun le => le_antisymm le above⟩

theorem advance_eq (numbers : ∀ v ∈ vals, Float64.isNan v = false)
    (sorted : (vals.map rank).Pairwise (· ≤ ·)) {i : Nat} (inside : i ≤ vals.length)
    {other : ExtRat} (number : Float64.isNan other = false)
    (low : ∀ a ∈ (vals.map rank).take i,
      a ≤ min (rank ((vals[i]?).getD Float64.infinity)) (rank other)) :
    (if Float64.le ((vals[i]?).getD Float64.infinity) other
      then skipEqual vals ((vals[i]?).getD Float64.infinity) i else i) =
      upTo (vals.map rank) (min (rank ((vals[i]?).getD Float64.infinity)) (rank other)) := by
  have here := getD_infinity_isNan vals numbers i
  by_cases le : Float64.le ((vals[i]?).getD Float64.infinity) other = true
  · have ranks := (le_iff_rank here number).mp le
    rw [min_eq_left ranks] at low ⊢
    rw [if_pos le, skipEqual_eq_upTo numbers sorted inside low]
  · have ranks := not_le.mp (mt (le_iff_rank here number).mpr le)
    rw [min_eq_right ranks.le] at low ⊢
    rw [if_neg le]
    refine (upTo_eq_of_cut (by rwa [List.length_map]) low fun b left => ?_).symm
    have least := getD_le_of_mem_drop sorted i b left
    rw [← rank_getD] at least
    exact ranks.trans_le least

end Advance

section Loop

variable {refVals curVals : List ExtRat}

def leastLeft (refVals curVals : List ExtRat) (i j : Nat) : ExtendedRational :=
  min (rank ((refVals[i]?).getD Float64.infinity)) (rank ((curVals[j]?).getD Float64.infinity))

theorem leastLeft_le (sortedRef : (refVals.map rank).Pairwise (· ≤ ·))
    (sortedCur : (curVals.map rank).Pairwise (· ≤ ·)) (i j : Nat) :
    ∀ b ∈ (refVals.map rank).drop i ++ (curVals.map rank).drop j,
      leastLeft refVals curVals i j ≤ b := by
  rw [List.forall_mem_append, leastLeft, rank_getD, rank_getD]
  exact ⟨fun b left => min_le_of_left_le (getD_le_of_mem_drop sortedRef i b left),
    fun b left => min_le_of_right_le (getD_le_of_mem_drop sortedCur j b left)⟩

theorem le_leastLeft {i j : Nat} {d : ℚ}
    (merging : Merging (refVals.map rank) (curVals.map rank) i j d) :
    ∀ a ∈ (refVals.map rank).take i ++ (curVals.map rank).take j,
      a ≤ leastLeft refVals curVals i j := by
  intro a read
  obtain ⟨left, right⟩ := List.forall_mem_append.mp (merging.apart a read)
  rw [leastLeft, rank_getD, rank_getD]
  exact le_min (le_getD_of_lt left) (le_getD_of_lt right)

theorem distance_fin (i j : Nat) {m n : Nat} (fullM : m ≠ 0) (fullN : n ≠ 0) :
    Float64.abs (Float64.ofNat i / Float64.ofNat m - Float64.ofNat j / Float64.ofNat n : ExtRat) =
      .fin |(i : ℚ) / m - (j : ℚ) / n| := by
  have left : (m : ℚ) ≠ 0 := Nat.cast_ne_zero.mpr fullM
  have right : (n : ℚ) ≠ 0 := Nat.cast_ne_zero.mpr fullN
  rw [ExtRat.ofNat_fin, ExtRat.ofNat_fin, ExtRat.ofNat_fin, ExtRat.ofNat_fin,
    ExtRat.fin_div _ _ left, ExtRat.fin_div _ _ right, ExtRat.fin_sub, ExtRat.abs_fin]

/-- A round of the loop is one step of the merge. -/
theorem ksStep_merging (numbersRef : ∀ v ∈ refVals, Float64.isNan v = false)
    (numbersCur : ∀ v ∈ curVals, Float64.isNan v = false)
    (sortedRef : (refVals.map rank).Pairwise (· ≤ ·))
    (sortedCur : (curVals.map rank).Pairwise (· ≤ ·)) (fullRef : refVals ≠ [])
    (fullCur : curVals ≠ []) {i j : Nat} {d : ℚ}
    (merging : Merging (refVals.map rank) (curVals.map rank) i j d) :
    ∃ i' j' d', ksStep refVals curVals ⟨i, j, .fin d⟩ = ⟨i', j', .fin d'⟩ ∧
      Merging (refVals.map rank) (curVals.map rank) i' j' d' := by
  obtain ⟨readRef, readCur⟩ := List.forall_mem_append.mp (le_leastLeft merging)
  have movesRef := advance_eq numbersRef sortedRef (by simpa using merging.left)
    (getD_infinity_isNan curVals numbersCur j) readRef
  rw [leastLeft, min_comm] at readCur
  have movesCur := advance_eq numbersCur sortedCur (by simpa using merging.right)
    (getD_infinity_isNan refVals numbersRef i) readCur
  rw [min_comm] at movesCur
  refine ⟨_, _, _, ?_, merging.step sortedRef sortedCur (leastLeft_le sortedRef sortedCur i j)⟩
  simp only [ksStep, movesRef, movesCur]
  rw [distance_fin _ _ (by simpa using fullRef) (by simpa using fullCur), ExtRat.max_fin, gap, edf,
    edf, List.length_map, List.length_map]
  rfl

theorem isDistance_of_done {i j : Nat} {d : ℚ} (fullRef : refVals ≠ []) (fullCur : curVals ≠ [])
    (merging : Merging (refVals.map rank) (curVals.map rank) i j d)
    (done : ¬ (i < refVals.length ∨ j < curVals.length)) :
    IsDistance (refVals.map rank) (curVals.map rank) d := by
  have left := merging.left
  have right := merging.right
  rw [List.length_map] at left right
  obtain rfl : i = (refVals.map rank).length := by rw [List.length_map]; omega
  obtain rfl : j = (curVals.map rank).length := by rw [List.length_map]; omega
  exact merging.finish ⊤ (fun _ _ => le_top) (by simpa using fullRef) (by simpa using fullCur)

theorem ksLoop_distance (numbersRef : ∀ v ∈ refVals, Float64.isNan v = false)
    (numbersCur : ∀ v ∈ curVals, Float64.isNan v = false)
    (sortedRef : (refVals.map rank).Pairwise (· ≤ ·))
    (sortedCur : (curVals.map rank).Pairwise (· ≤ ·)) (fullRef : refVals ≠ [])
    (fullCur : curVals ≠ []) (bound : Nat) {i j : Nat} {d : ℚ}
    (merging : Merging (refVals.map rank) (curVals.map rank) i j d)
    (enough : unread refVals curVals ⟨i, j, .fin d⟩ ≤ bound) :
    ∃ e, ksLoop refVals curVals bound ⟨i, j, .fin d⟩ = .ok (.fin e) ∧
      IsDistance (refVals.map rank) (curVals.map rank) e := by
  have reading : Reading refVals curVals ⟨i, j, .fin d⟩ :=
    ⟨by simpa using merging.left, by simpa using merging.right⟩
  induction bound generalizing i j d with
  | zero =>
    unfold unread at enough
    have done : ¬ (i < refVals.length ∨ j < curVals.length) := by
      simp only at enough
      omega
    rw [ksLoop, if_neg done]
    exact ⟨d, rfl, isDistance_of_done fullRef fullCur merging done⟩
  | succ bound ih =>
    unfold ksLoop
    split
    case isTrue more =>
      obtain ⟨kept, less⟩ := ksStep_reads numbersRef numbersCur _ reading more
      obtain ⟨i', j', d', stepped, next⟩ :=
        ksStep_merging numbersRef numbersCur sortedRef sortedCur fullRef fullCur merging
      rw [stepped] at kept less ⊢
      exact ih next (by omega) kept
    case isFalse done => exact ⟨d, rfl, isDistance_of_done fullRef fullCur merging done⟩

end Loop

section Statistic

theorem sorted_ranks {vals : List ExtRat} (numbers : ∀ v ∈ vals, Float64.isNan v = false) :
    ((vals.insertionSort (fun a b => lessEq (Float64.unwrapCmp a b) = true)).map rank).Pairwise
      (· ≤ ·) := by
  have ordered : ∀ a ∈ vals, ∀ b ∈ vals,
      lessEq (Float64.unwrapCmp a b) = true ↔ rank a ≤ rank b := by
    intro a memberA b memberB
    rw [Float64.lessEq_unwrapCmp]
    exact le_iff_rank (numbers a memberA) (numbers b memberB)
  rw [List.map_insertionSort _ (· ≤ ·) rank vals ordered]
  exact List.pairwise_insertionSort _ _

theorem ksStatistic_distance (env : Env ExtRat) (reference current : Series ExtRat)
    (fullRef : toF64Vec env reference ≠ []) (fullCur : toF64Vec env current ≠ [])
    (numbersRef : ∀ v ∈ toF64Vec env reference, Float64.isNan v = false)
    (numbersCur : ∀ v ∈ toF64Vec env current, Float64.isNan v = false) :
    ∃ d, ksStatistic env reference current = .ok (.fin d) ∧
      IsDistance ((toF64Vec env reference).map rank) ((toF64Vec env current).map rank) d := by
  have sortRef := (Float64.sortable_unwrapCmp_iff _).mpr (.inr numbersRef)
  have sortCur := (Float64.sortable_unwrapCmp_iff _).mpr (.inr numbersCur)
  have permRef := List.perm_insertionSort (fun a b => lessEq (Float64.unwrapCmp a b) = true)
    (toF64Vec env reference)
  have permCur := List.perm_insertionSort (fun a b => lessEq (Float64.unwrapCmp a b) = true)
    (toF64Vec env current)
  obtain ⟨d, ran, distance⟩ := ksLoop_distance
    (fun v member => numbersRef v (permRef.mem_iff.mp member))
    (fun v member => numbersCur v (permCur.mem_iff.mp member))
    (sorted_ranks numbersRef) (sorted_ranks numbersCur)
    (by rwa [← List.length_pos_iff, permRef.length_eq, List.length_pos_iff])
    (by rwa [← List.length_pos_iff, permCur.length_eq, List.length_pos_iff])
    _ (Merging.start _ _) (Nat.le_refl _)
  refine ⟨d, ?_, distance.perm (permRef.map rank) (permCur.map rank)⟩
  have full : ((toF64Vec env reference).isEmpty || (toF64Vec env current).isEmpty) = false := by
    simp [fullRef, fullCur]
  simp only [ksStatistic, full, Bool.false_eq_true, ↓reduceIte, Sorter.run_sortable _ sortRef,
    Sorter.run_sortable _ sortCur]
  exact ran

/-- On numbers the statistic is the Kolmogorov-Smirnov distance of the two samples. -/
theorem ksStatistic_isDistance (env : Env ExtRat) (reference current : Series ExtRat)
    (fullRef : toF64Vec env reference ≠ []) (fullCur : toF64Vec env current ≠ [])
    (numbersRef : ∀ v ∈ toF64Vec env reference, Float64.isNan v = false)
    (numbersCur : ∀ v ∈ toF64Vec env current, Float64.isNan v = false) :
    ∃ d : ℚ, ksStatistic env reference current = .ok (.fin d) ∧
      IsGreatest (Set.range fun x => |edf ((toF64Vec env reference).map rank) x -
        edf ((toF64Vec env current).map rank) x|) d ∧
      0 ≤ d ∧ d ≤ 1 ∧ ksStatistic env current reference = .ok (.fin d) ∧
      (d = 0 ↔ edf ((toF64Vec env reference).map rank) = edf ((toF64Vec env current).map rank)) := by
  obtain ⟨d, ran, distance⟩ :=
    ksStatistic_distance env reference current fullRef fullCur numbersRef numbersCur
  obtain ⟨e, back, distance'⟩ :=
    ksStatistic_distance env current reference fullCur fullRef numbersCur numbersRef
  obtain rfl : d = e := distance.unique distance'.symm
  exact ⟨d, ran, distance, distance.nonneg, distance.le_one, back, distance.eq_zero_iff⟩

theorem ksStatistic_isDistance_ties :
    ∃ d : ℚ, ksStatistic exactEnv ⟨.float64, [some .posInf, none, some (.fin 1), some (.fin 1)]⟩
        ⟨.float64, [some .negInf, some (.fin 1)]⟩ = .ok (.fin d) ∧
      IsGreatest (Set.range fun x => |edf ([.posInf, .fin 1, .fin 1].map rank) x -
        edf ([.negInf, .fin 1].map rank) x|) d ∧
      0 ≤ d ∧ d ≤ 1 ∧ ksStatistic exactEnv ⟨.float64, [some .negInf, some (.fin 1)]⟩
        ⟨.float64, [some .posInf, none, some (.fin 1), some (.fin 1)]⟩ = .ok (.fin d) ∧
      (d = 0 ↔ edf ([.posInf, .fin 1, .fin 1].map rank) = edf ([.negInf, .fin 1].map rank)) :=
  ksStatistic_isDistance exactEnv ⟨.float64, [some .posInf, none, some (.fin 1), some (.fin 1)]⟩
    ⟨.float64, [some .negInf, some (.fin 1)]⟩ (List.cons_ne_nil _ _) (List.cons_ne_nil _ _)
    (by decide) (by decide)

end Statistic

end StatGuardian.Stats.DriftEngine
