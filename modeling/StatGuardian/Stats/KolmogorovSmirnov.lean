import StatGuardian.Stats.Drift

namespace StatGuardian.Stats.DriftEngine

open StatGuardian.Core Polars

variable {F : Type} [Float64 F]

section Loop

variable {refVals curVals : List F}

theorem skipEqual_le (vals : List F) (x : F) (i : Nat) (inside : i ≤ vals.length) :
    i ≤ skipEqual vals x i ∧ skipEqual vals x i ≤ vals.length := by
  have bound : ((vals.drop i).takeWhile (fun v => Float64.eq v x)).length ≤ (vals.drop i).length :=
    (List.takeWhile_sublist _).length_le
  rw [List.length_drop] at bound
  unfold skipEqual
  omega

theorem skipEqual_advances (vals : List F) (x : F) (i : Nat) (found : vals[i]? = some x)
    (number : Float64.isNan x = false) : i < skipEqual vals x i := by
  obtain ⟨inside, rfl⟩ := List.getElem?_eq_some_iff.mp found
  have self : Float64.eq vals[i] vals[i] = true := by
    simp [Float64.eq, Float64.partialCmp_self _ number]
  unfold skipEqual
  simp only [List.drop_eq_getElem_cons inside, List.takeWhile_cons, self, ↓reduceIte,
    List.length_cons]
  omega

def unread (refVals curVals : List F) (state : KsState F) : Nat :=
  (refVals.length - state.i) + (curVals.length - state.j)

structure Reading (refVals curVals : List F) (state : KsState F) : Prop where
  left : state.i ≤ refVals.length
  right : state.j ≤ curVals.length

theorem infinity_isNan : Float64.isNan (Float64.infinity : F) = false := by
  have number := Float64.infinity_number (F := F)
  unfold Float64.isNan
  cases self : Float64.partialCmp (Float64.infinity : F) Float64.infinity with
  | none => rw [self] at number; cases number
  | some order => rfl

theorem getD_infinity_isNan (vals : List F) (numbers : ∀ v ∈ vals, Float64.isNan v = false)
    (i : Nat) : Float64.isNan ((vals[i]?).getD Float64.infinity) = false := by
  cases found : vals[i]? with
  | none => exact infinity_isNan
  | some v => exact numbers v (List.mem_of_getElem? found)

theorem skipEqual_moves (vals : List F) (numbers : ∀ v ∈ vals, Float64.isNan v = false) {i : Nat}
    (inside : i < vals.length) : i < skipEqual vals ((vals[i]?).getD Float64.infinity) i := by
  have here : vals[i]? = some ((vals[i]?).getD Float64.infinity) := by
    rw [List.getElem?_eq_getElem inside]
    rfl
  exact skipEqual_advances vals _ i here (getD_infinity_isNan vals numbers i)

/-- Past the end of a list its value is infinity, so the other list is the one that moves. -/
theorem le_getD_of_ended (vals : List F) {i : Nat} (outside : ¬ i < vals.length) {other : F}
    (number : Float64.isNan other = false) :
    Float64.le other ((vals[i]?).getD Float64.infinity) = true := by
  rw [List.getElem?_eq_none (Nat.not_lt.mp outside)]
  exact Float64.le_infinity _ number

theorem ksStep_reads (numbersRef : ∀ v ∈ refVals, Float64.isNan v = false)
    (numbersCur : ∀ v ∈ curVals, Float64.isNan v = false) (state : KsState F)
    (reading : Reading refVals curVals state)
    (more : state.i < refVals.length ∨ state.j < curVals.length) :
    Reading refVals curVals (ksStep refVals curVals state) ∧
      unread refVals curVals (ksStep refVals curVals state) < unread refVals curVals state := by
  have rv := getD_infinity_isNan refVals numbersRef state.i
  have cv := getD_infinity_isNan curVals numbersCur state.j
  have boundRef := skipEqual_le refVals ((refVals[state.i]?).getD Float64.infinity) state.i
    reading.left
  have boundCur := skipEqual_le curVals ((curVals[state.j]?).getD Float64.infinity) state.j
    reading.right
  have total := Float64.le_or_ge _ _ rv cv
  unfold unread
  refine ⟨⟨?_, ?_⟩, ?_⟩ <;> simp only [ksStep]
  · split <;> omega
  · split <;> omega
  · by_cases up : Float64.le ((refVals[state.i]?).getD Float64.infinity)
        ((curVals[state.j]?).getD Float64.infinity) = true
    · by_cases down : Float64.le ((curVals[state.j]?).getD Float64.infinity)
          ((refVals[state.i]?).getD Float64.infinity) = true
      · have stepRef := skipEqual_moves refVals numbersRef (i := state.i)
        have stepCur := skipEqual_moves curVals numbersCur (i := state.j)
        rw [if_pos up, if_pos down]
        omega
      · have inside : state.i < refVals.length := by
          by_contra outside
          exact down (le_getD_of_ended refVals outside cv)
        have moves := skipEqual_moves refVals numbersRef inside
        rw [if_pos up, if_neg down]
        omega
    · have down := total.resolve_left up
      have inside : state.j < curVals.length := by
        by_contra outside
        exact up (le_getD_of_ended curVals outside rv)
      have moves := skipEqual_moves curVals numbersCur inside
      rw [if_neg up, if_pos down]
      omega

/-- On numbers every round reads on, so the loop ends within its bound. -/
theorem ksLoop_returns (numbersRef : ∀ v ∈ refVals, Float64.isNan v = false)
    (numbersCur : ∀ v ∈ curVals, Float64.isNan v = false) (bound : Nat) (state : KsState F)
    (reading : Reading refVals curVals state) (enough : unread refVals curVals state ≤ bound) :
    ∃ diff, ksLoop refVals curVals bound state = .ok diff := by
  induction bound generalizing state with
  | zero =>
    unfold unread at enough
    unfold ksLoop
    rw [if_neg (by omega)]
    exact ⟨_, rfl⟩
  | succ bound ih =>
    unfold ksLoop
    split
    case isTrue more =>
      obtain ⟨kept, less⟩ := ksStep_reads numbersRef numbersCur state reading more
      exact ih _ kept (by omega)
    case isFalse => exact ⟨_, rfl⟩

theorem ksLoop_stands (a b : F) (restRef restCur : List F)
    (nan : Float64.isNan a = true ∨ Float64.isNan b = true) (bound : Nat) (maxDiff : F) :
    ksLoop (a :: restRef) (b :: restCur) bound ⟨0, 0, maxDiff⟩ = .error .divergence := by
  have up : Float64.le a b = false := by
    rcases nan with nan | nan
    · exact Float64.le_nan_left a b nan
    · exact Float64.le_nan_right a b nan
  have down : Float64.le b a = false := by
    rcases nan with nan | nan
    · exact Float64.le_nan_right b a nan
    · exact Float64.le_nan_left b a nan
  induction bound generalizing maxDiff with
  | zero => simp [ksLoop]
  | succ bound ih =>
    unfold ksLoop
    simp [ksStep, up, down, ih]

end Loop

section AnySort

variable (env : Env F) (sorter : Sorter F)

/-- Where the Kolmogorov-Smirnov statistic returns whatever the sort does: a list without values
    or two lists without a NaN. A single NaN is sorted but stops the loop. -/
def KsSafe (reference current : Series F) : Prop :=
  toF64Vec env reference = [] ∨ toF64Vec env current = [] ∨
    (∀ v ∈ toF64Vec env reference, Float64.isNan v = false) ∧
      ∀ v ∈ toF64Vec env current, Float64.isNan v = false

theorem toF64Vec_withSorter (series : Series F) :
    toF64Vec (env.withSorter sorter) series = toF64Vec env series := rfl

theorem ksStatistic_empty (reference current : Series F)
    (empty : toF64Vec env reference = [] ∨ toF64Vec env current = []) :
    ksStatistic env reference current = .ok Float64.zero := by
  unfold ksStatistic
  rcases empty with empty | empty <;> simp [empty]

theorem ksStatistic_returns (reference current : Series F) (safe : KsSafe env reference current) :
    (∃ diff, ksStatistic env reference current = .ok diff) ∧
      ksStatistic (env.withSorter sorter) reference current = ksStatistic env reference current := by
  have emptyCase : (toF64Vec env reference = [] ∨ toF64Vec env current = []) →
      (∃ diff, ksStatistic env reference current = .ok diff) ∧
        ksStatistic (env.withSorter sorter) reference current =
          ksStatistic env reference current := fun empty => by
    rw [ksStatistic_empty env reference current empty,
      ksStatistic_empty (env.withSorter sorter) reference current empty]
    exact ⟨⟨_, rfl⟩, rfl⟩
  rcases safe with empty | empty | ⟨numbersRef, numbersCur⟩
  · exact emptyCase (.inl empty)
  · exact emptyCase (.inr empty)
  · have sortRef := (Float64.sortable_unwrapCmp_iff _).mpr (.inr numbersRef)
    have sortCur := (Float64.sortable_unwrapCmp_iff _).mpr (.inr numbersCur)
    constructor
    · simp only [ksStatistic]
      split
      · exact ⟨_, rfl⟩
      · simp only [Sorter.run_sortable _ sortRef, Sorter.run_sortable _ sortCur, bind, Except.bind]
        refine ksLoop_returns ?_ ?_ _ _ ⟨Nat.zero_le _, Nat.zero_le _⟩ (Nat.le_refl _)
        · intro v member
          exact numbersRef v ((List.mem_insertionSort _).mp member)
        · intro v member
          exact numbersCur v ((List.mem_insertionSort _).mp member)
    · simp only [ksStatistic, toF64Vec_withSorter, Env.withSorter_sorter,
        Sorter.run_sortable _ sortRef, Sorter.run_sortable _ sortCur]

theorem nan_alone {vals : List F}
    (sortable : Sorter.Sortable Float64.unwrapCmp vals)
    (nan : ¬ ∀ v ∈ vals, Float64.isNan v = false) : ∃ v, vals = [v] ∧ Float64.isNan v = true := by
  have short := ((Float64.sortable_unwrapCmp_iff vals).mp sortable).resolve_right nan
  match vals, short with
  | [], _ => exact absurd nofun nan
  | [v], _ =>
    refine ⟨v, rfl, ?_⟩
    simpa using nan

theorem ksStatistic_safe (reference current : Series F) (diff : F)
    (ran : ksStatistic (env.withSorter (Sorter.strict F)) reference current = .ok diff) :
    KsSafe env reference current := by
  by_cases emptyRef : toF64Vec env reference = []
  · exact .inl emptyRef
  by_cases emptyCur : toF64Vec env current = []
  · exact .inr (.inl emptyCur)
  have full : ((toF64Vec env reference).isEmpty || (toF64Vec env current).isEmpty) = false := by
    simp [emptyRef, emptyCur]
  simp only [ksStatistic, toF64Vec_withSorter, full, Bool.false_eq_true, ↓reduceIte,
    Env.withSorter_sorter, Results.bind_ok_iff] at ran
  obtain ⟨sortedRef, ranRef, sortedCur, ranCur, ran⟩ := ran
  have sortRef := Sorter.sortable_of_strict ranRef
  have sortCur := Sorter.sortable_of_strict ranCur
  have fullRef : sortedRef ≠ [] := fun empty => by
    subst empty; exact emptyRef ((Sorter.strict F).keeps _ _ _ ranRef).nil_eq.symm
  have fullCur : sortedCur ≠ [] := fun empty => by
    subst empty; exact emptyCur ((Sorter.strict F).keeps _ _ _ ranCur).nil_eq.symm
  obtain ⟨a, restRef, rfl⟩ := List.exists_cons_of_ne_nil fullRef
  obtain ⟨b, restCur, rfl⟩ := List.exists_cons_of_ne_nil fullCur
  right; right
  constructor
  · by_contra nan
    obtain ⟨v, single, isNan⟩ := nan_alone sortRef nan
    rw [single, (Sorter.strict F).short _ _ (by simp)] at ranRef
    cases ranRef
    rw [ksLoop_stands _ _ _ _ (.inl isNan)] at ran
    cases ran
  · by_contra nan
    obtain ⟨v, single, isNan⟩ := nan_alone sortCur nan
    rw [single, (Sorter.strict F).short _ _ (by simp)] at ranCur
    cases ranCur
    rw [ksLoop_stands _ _ _ _ (.inr isNan)] at ran
    cases ran

end AnySort

end StatGuardian.Stats.DriftEngine
