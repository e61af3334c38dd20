import Mathlib.Algebra.GroupWithZero.Nat
import Mathlib.Algebra.Order.BigOperators.Group.Finset
import Mathlib.Algebra.Order.Group.Nat
import StatGuardian.Library.Slices

namespace FirstWins

variable {α : Type*} (same : α → α → Bool) (heard : Nat → Option α)

/-- What is heard at a place, unless something of its kind was heard before. -/
def first (i : Nat) : Option α :=
  (heard i).filter (fun a => ! (List.range i).any (fun j => (heard j).any (same · a)))

def allHeard (n : Nat) : List α := (List.range n).filterMap heard

theorem mem_allHeard (n : Nat) (a : α) : a ∈ allHeard heard n ↔ ∃ i < n, heard i = some a := by
  simp only [allHeard, List.mem_filterMap, List.mem_range]

theorem allHeard_succ (n : Nat) :
    allHeard heard (n + 1) = allHeard heard n ++ (heard n).toList := by
  rw [allHeard, List.range_succ, List.filterMap_append, allHeard]
  cases said : heard n <;> simp [said]

theorem first_eq_some_iff (i : Nat) (a : α) :
    first same heard i = some a ↔
      heard i = some a ∧ (allHeard heard i).find? (same · a) = none := by
  rw [first, Option.filter_eq_some_iff, List.find?_eq_none]
  apply and_congr_right
  intro _
  simp only [Bool.not_eq_true', List.any_eq_false, List.mem_range, mem_allHeard]
  constructor
  · rintro fresh b ⟨j, before, said⟩
    have other := fresh j before
    rwa [said] at other
  · intro fresh j before
    cases said : heard j with
    | none => simp
    | some b => exact fresh b ⟨j, before, said⟩

theorem first_unique (symm : ∀ a b, same a b = true → same b a = true) {i j : Nat} {a b : α}
    (here : first same heard i = some a) (there : first same heard j = some b)
    (kind : same a b = true) : i = j := by
  obtain ⟨saidI, freshI⟩ := (first_eq_some_iff same heard i a).mp here
  obtain ⟨saidJ, freshJ⟩ := (first_eq_some_iff same heard j b).mp there
  rcases Nat.lt_trichotomy i j with before | equal | after
  · have earlier := (mem_allHeard heard j a).mpr ⟨i, before, saidI⟩
    exact absurd kind (List.find?_eq_none.mp freshJ a earlier)
  · exact equal
  · have earlier := (mem_allHeard heard i b).mpr ⟨j, after, saidJ⟩
    exact absurd (symm a b kind) (List.find?_eq_none.mp freshI b earlier)

theorem mem_firsts (refl : ∀ a, same a a = true) (n : Nat) (a : α) :
    a ∈ allHeard (first same heard) n ↔ (allHeard heard n).find? (same · a) = some a := by
  induction n with
  | zero => simp [allHeard]
  | succ n ih =>
    rw [allHeard_succ, allHeard_succ, List.mem_append, ih, List.find?_append, Option.mem_toList,
      first_eq_some_iff]
    cases before : (allHeard heard n).find? (same · a) with
    | some b => simp
    | none =>
      cases heard n with
      | none => simp
      | some b =>
        simp only [reduceCtorEq, Option.some.injEq, and_true, false_or, Option.none_or,
          Option.toList_some, List.find?_singleton]
        constructor
        · rintro rfl
          rw [refl, if_pos rfl]
        · intro found
          split at found
          · exact Option.some.inj found
          · cases found

theorem firsts_differ (n : Nat) :
    (allHeard (first same heard) n).Pairwise (fun a b => same a b = false) := by
  induction n with
  | zero => exact List.Pairwise.nil
  | succ n ih =>
    rw [allHeard_succ, List.pairwise_append]
    refine ⟨ih, ?_, ?_⟩
    · cases first same heard n with
      | none => exact List.Pairwise.nil
      | some a => exact List.pairwise_singleton _ a
    · intro a earlier b last
      have fresh := ((first_eq_some_iff same heard n b).mp (Option.mem_toList.mp last)).2
      obtain ⟨i, before, said⟩ := (mem_allHeard _ n a).mp earlier
      have inside := (mem_allHeard heard n a).mpr
        ⟨i, before, ((first_eq_some_iff same heard i a).mp said).1⟩
      exact Bool.eq_false_iff.mpr (List.find?_eq_none.mp fresh a inside)

section Merged

variable {same} (cmp : α → α → Ordering) [Std.TransCmp cmp]
  (agrees : ∀ a b, same a b = true ↔ cmp a b = .eq) (items : List α) (n : Nat)
  (ties : ∀ a, items.find? (same · a) = (allHeard heard n).find? (same · a))
include agrees ties

/-- Sorted and deduplicated items are the firsts of any other order that agrees on what comes
    first of each kind. -/
theorem merged_perm_firsts :
    (Slices.dedupBy same (Slices.sortBy cmp items)).Perm (allHeard (first same heard) n) := by
  have refl : ∀ a, same a a = true := fun a => (agrees a a).mpr Std.ReflCmp.compare_self
  have distinct : ∀ {xs : List α}, xs.Pairwise (fun a b => same a b = false) → xs.Nodup := by
    intro xs differ
    refine differ.imp ?_
    rintro a _ other rfl
    rw [refl] at other
    cases other
  rw [List.perm_ext_iff_of_nodup
    (distinct (Slices.dedupBy_sortBy_differ cmp agrees items))
    (distinct (firsts_differ same heard n))]
  intro a
  rw [Slices.mem_dedupBy_sortBy cmp agrees, mem_firsts same heard refl, ties a]

theorem sum_merged (weight : α → Nat) :
    ((Slices.dedupBy same (Slices.sortBy cmp items)).map weight).sum =
      ∑ i ∈ Finset.range n, (first same heard i).elim 0 weight := by
  rw [((merged_perm_firsts heard cmp agrees items n ties).map weight).sum_eq]
  clear ties
  induction n with
  | zero => rfl
  | succ n ih =>
    rw [allHeard_succ, List.map_append, List.sum_append, ih, Finset.sum_range_succ]
    cases first same heard n <;> simp

end Merged

section Matching

variable {ι : Type*} {places : Finset ι} {a b : ι → Nat} (Matches : ι → ι → Prop)
  (apart : ∀ {i j k}, Matches i k → Matches j k → i = j)
  (each : ∀ i ∈ places, a i ≠ 0 → ∃ k ∈ places, Matches i k ∧ a i ≤ b k)
include apart each

/-- One total stays below another where every part of it is matched by a part of the other of its
    own that is no smaller. -/
theorem sum_le_of_matching : ∑ i ∈ places, a i ≤ ∑ i ∈ places, b i := by
  classical
  choose! place inside matched below using each
  let heavy := places.filter (a · ≠ 0)
  have kept : ∀ i ∈ heavy, i ∈ places ∧ a i ≠ 0 := fun i => Finset.mem_filter.mp
  have injective : Set.InjOn place heavy := by
    intro i memberI j memberJ same
    have left := matched i (kept i memberI).1 (kept i memberI).2
    have right := matched j (kept j memberJ).1 (kept j memberJ).2
    exact apart left (same ▸ right)
  calc ∑ i ∈ places, a i = ∑ i ∈ heavy, a i := (Finset.sum_filter_ne_zero places).symm
    _ ≤ ∑ i ∈ heavy, b (place i) :=
      Finset.sum_le_sum fun i member => below i (kept i member).1 (kept i member).2
    _ = ∑ k ∈ heavy.image place, b k := (Finset.sum_image injective).symm
    _ ≤ ∑ i ∈ places, b i := by
      apply Finset.sum_le_sum_of_subset
      intro k member
      obtain ⟨i, memberI, rfl⟩ := Finset.mem_image.mp member
      exact inside i (kept i memberI).1 (kept i memberI).2

theorem sum_lt_of_matching {k : ι} (spare : k ∈ places) (positive : 0 < b k)
    (smaller : ∀ i ∈ places, Matches i k → a i < b k) :
    ∑ i ∈ places, a i < ∑ i ∈ places, b i := by
  classical
  have less : ∑ i ∈ places, a i ≤ ∑ i ∈ places, Function.update b k (b k - 1) i := by
    apply sum_le_of_matching Matches apart
    intro i member nonzero
    obtain ⟨j, inside, matched, below⟩ := each i member nonzero
    refine ⟨j, inside, matched, ?_⟩
    by_cases same : j = k
    · subst same
      rw [Function.update_self]
      have strict := smaller i member matched
      omega
    · rwa [Function.update_of_ne same]
  have lower : ∑ i ∈ places, Function.update b k (b k - 1) i < ∑ i ∈ places, b i := by
    apply Finset.sum_lt_sum
    · intro i _
      by_cases same : i = k
      · subst same
        rw [Function.update_self]
        omega
      · rw [Function.update_of_ne same]
    · refine ⟨k, spare, ?_⟩
      rw [Function.update_self]
      omega
  exact less.trans_lt lower

end Matching

end FirstWins
