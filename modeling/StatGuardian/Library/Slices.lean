import Mathlib.Data.List.Sort
import Mathlib.Data.List.Destutter
import Mathlib.Order.Defs.LinearOrder

namespace Slices

variable {α : Type*}

/-- The order `slice::sort_by` leaves for a comparator that is a total order: sorted, and stable. -/
def sortBy (cmp : α → α → Ordering) (items : List α) : List α :=
  items.insertionSort (fun a b => (cmp a b).isLE = true)

/-- `Vec::dedup_by`: an item goes when it is the same as the last item kept before it. -/
def dedupBy (same : α → α → Bool) (items : List α) : List α :=
  items.destutter (fun a b => ¬ same a b = true)

theorem filter_insert_of_le (le : α → α → Bool) (p : α → Bool) (a : α) (items : List α)
    (chosen : p a = true) (least : ∀ b, p b = true → le a b = true) :
    (items.orderedInsert (fun a b => le a b = true) a).filter p = a :: items.filter p := by
  induction items with
  | nil => simp [chosen]
  | cons b items ih =>
    by_cases first : le a b = true
    · rw [List.orderedInsert_cons, if_pos first, List.filter_cons_of_pos chosen]
    · have skipped : ¬ p b = true := fun chosenB => first (least b chosenB)
      rw [List.orderedInsert_cons, if_neg first, List.filter_cons_of_neg skipped, ih,
        List.filter_cons_of_neg skipped]

theorem filter_insert_of_not (le : α → α → Bool) (p : α → Bool) (a : α) (items : List α)
    (other : ¬ p a = true) :
    (items.orderedInsert (fun a b => le a b = true) a).filter p = items.filter p := by
  induction items with
  | nil => simp [other]
  | cons b items ih =>
    by_cases first : le a b = true
    · rw [List.orderedInsert_cons, if_pos first, List.filter_cons_of_neg other]
    · rw [List.orderedInsert_cons, if_neg first, List.filter_cons, List.filter_cons, ih]

/-- Stability: the items that compare equal to each other keep their order. -/
theorem filter_sortBy (cmp : α → α → Ordering) (p : α → Bool) (items : List α)
    (tied : ∀ a b, p a = true → p b = true → (cmp a b).isLE = true) :
    (sortBy cmp items).filter p = items.filter p := by
  induction items with
  | nil => rfl
  | cons a items ih =>
    change ((sortBy cmp items).orderedInsert (fun a b => (cmp a b).isLE = true) a).filter p = _
    by_cases chosen : p a = true
    · rw [filter_insert_of_le (fun a b => (cmp a b).isLE) p a _ chosen (fun b => tied a b chosen),
        ih, List.filter_cons_of_pos chosen]
    · rw [filter_insert_of_not (fun a b => (cmp a b).isLE) p a _ chosen, ih,
        List.filter_cons_of_neg chosen]

theorem find_sortBy (cmp : α → α → Ordering) (p : α → Bool) (items : List α)
    (tied : ∀ a b, p a = true → p b = true → (cmp a b).isLE = true) :
    (sortBy cmp items).find? p = items.find? p := by
  rw [← List.head?_filter, ← List.head?_filter, filter_sortBy cmp p items tied]

theorem mem_sortBy (cmp : α → α → Ordering) (items : List α) (a : α) :
    a ∈ sortBy cmp items ↔ a ∈ items :=
  List.mem_insertionSort _

theorem find_of_agree {p : α → Bool} {a : α} {items : List α} (member : a ∈ items)
    (chosen : p a = true) (agree : ∀ b ∈ items, p b = true → b = a) : items.find? p = some a := by
  have present : (items.find? p).isSome = true := List.find?_isSome.mpr ⟨a, member, chosen⟩
  obtain ⟨b, found⟩ := Option.isSome_iff_exists.mp present
  rw [found, agree b (List.mem_of_find?_eq_some found) (List.find?_some found)]

theorem find_of_narrower {p q : α → Bool} {a : α} {items : List α}
    (narrower : ∀ b ∈ items, p b = true → q b = true) (found : items.find? q = some a)
    (chosen : p a = true) : items.find? p = some a := by
  rw [List.find?_eq_some_iff_append] at found ⊢
  obtain ⟨_, before, after, rfl, others⟩ := found
  refine ⟨chosen, before, after, rfl, fun b inside => ?_⟩
  have outside := others b inside
  cases taken : p b with
  | false => rfl
  | true => simp [narrower b (List.mem_append_left _ inside) taken] at outside

section FirstOfEachKey

variable (cmp : α → α → Ordering) [Std.TransCmp cmp] {same : α → α → Bool}

theorem cmp_swap (a b : α) : cmp a b = (cmp b a).swap := Std.OrientedCmp.eq_swap

theorem sorted_sortBy (items : List α) :
    (sortBy cmp items).Pairwise (fun a b => (cmp a b).isLE = true) := by
  have total : Std.Total (fun a b => (cmp a b).isLE = true) :=
    ⟨fun a b => by
      cases order : cmp a b with
      | lt => left; rfl
      | eq => left; rfl
      | gt => right; rw [cmp_swap cmp, order]; rfl⟩
  have trans : IsTrans α (fun a b => (cmp a b).isLE = true) :=
    ⟨fun _ _ _ => Std.TransCmp.isLE_trans⟩
  exact List.pairwise_insertionSort _ items

theorem isLE_of_ties {a b c : α} (left : (cmp a b == .eq) = true) (right : (cmp a c == .eq) = true) :
    (cmp b c).isLE = true := by
  rw [← Std.TransCmp.congr_left (beq_iff_eq.mp left), beq_iff_eq.mp right]
  rfl

theorem sortBy_of_sorted {cmp : α → α → Ordering} {items : List α}
    (sorted : items.Pairwise (fun a b => (cmp a b).isLE = true)) : sortBy cmp items = items :=
  sorted.insertionSort_eq

theorem sortBy_pairwise {R : α → α → Prop} {items : List α} (ordered : items.Pairwise R) :
    (sortBy cmp items).Pairwise (fun a b => cmp a b = .lt ∨ cmp a b = .eq ∧ R a b) := by
  rw [List.pairwise_iff_forall_sublist] at ordered ⊢
  intro a b pair
  have le := List.pairwise_iff_forall_sublist.mp (sorted_sortBy cmp items) pair
  cases order : cmp a b with
  | lt => exact .inl rfl
  | gt =>
    rw [order] at le
    cases le
  | eq =>
    have self : cmp a a = .eq := Std.ReflCmp.compare_self
    have chosen : [a, b].filter (fun c => cmp a c == .eq) = [a, b] := by simp [self, order]
    have kept := pair.filter (fun c => cmp a c == .eq)
    rw [filter_sortBy cmp _ items (fun _ _ => isLE_of_ties cmp), chosen] at kept
    exact .inr ⟨rfl, ordered (kept.trans List.filter_sublist)⟩

/-- Two sorted lists with the same items of every tie, in the same order, are the same list. -/
theorem eq_of_sorted_of_ties (xs ys : List α)
    (left : xs.Pairwise (fun a b => (cmp a b).isLE = true))
    (right : ys.Pairwise (fun a b => (cmp a b).isLE = true))
    (ties : ∀ a, xs.filter (fun b => cmp a b == .eq) = ys.filter (fun b => cmp a b == .eq)) :
    xs = ys := by
  have self : ∀ a : α, cmp a a = .eq := fun _ => Std.ReflCmp.compare_self
  have moved : ∀ (zs ws : List α), (∀ a, zs.filter (fun b => cmp a b == .eq) =
      ws.filter (fun b => cmp a b == .eq)) → ∀ a ∈ zs, a ∈ ws := by
    intro zs ws same a member
    have inside : a ∈ zs.filter (fun b => cmp a b == .eq) :=
      List.mem_filter.mpr ⟨member, by simp [self]⟩
    rw [same a] at inside
    exact (List.mem_filter.mp inside).1
  induction xs generalizing ys with
  | nil =>
    cases ys with
    | nil => rfl
    | cons b ys => cases moved _ _ (fun a => (ties a).symm) b List.mem_cons_self
  | cons a xs ih =>
    cases ys with
    | nil => cases moved _ _ ties a List.mem_cons_self
    | cons b ys =>
      rw [List.pairwise_cons] at left right
      have forth : (cmp a b).isLE = true := by
        rcases List.mem_cons.mp (moved _ _ (fun a => (ties a).symm) b List.mem_cons_self) with
          same | inside
        · rw [same, self]; rfl
        · exact left.1 b inside
      have back : (cmp b a).isLE = true := by
        rcases List.mem_cons.mp (moved _ _ ties a List.mem_cons_self) with same | inside
        · rw [same, self]; rfl
        · exact right.1 a inside
      have tie : cmp a b = .eq := by
        rw [cmp_swap cmp] at back
        cases order : cmp a b with
        | eq => rfl
        | lt => rw [order] at back; cases back
        | gt => rw [order] at forth; cases forth
      have heads := ties a
      rw [List.filter_cons_of_pos (by simp [self]), List.filter_cons_of_pos (by simp [tie]),
        List.cons.injEq] at heads
      obtain ⟨rfl, -⟩ := heads
      rw [ih ys left.2 right.2]
      intro c
      have rest := ties c
      rw [List.filter_cons, List.filter_cons] at rest
      by_cases here : (cmp c a == .eq) = true
      · rw [if_pos here, if_pos here, List.cons.injEq] at rest
        exact rest.2
      · rwa [if_neg here, if_neg here] at rest

/-- A stable sort sees no more of its input than the order within every tie. -/
theorem sortBy_eq_of_ties (xs ys : List α)
    (ties : ∀ a, xs.filter (fun b => cmp a b == .eq) = ys.filter (fun b => cmp a b == .eq)) :
    sortBy cmp xs = sortBy cmp ys := by
  apply eq_of_sorted_of_ties cmp _ _ (sorted_sortBy cmp xs) (sorted_sortBy cmp ys)
  intro a
  have tied : ∀ b c, (cmp a b == .eq) = true → (cmp a c == .eq) = true → (cmp b c).isLE = true :=
    fun _ _ => isLE_of_ties cmp
  rw [filter_sortBy cmp _ xs tied, filter_sortBy cmp _ ys tied, ties a]

theorem mem_destutter_sorted (agrees : ∀ a b, same a b = true ↔ cmp a b = .eq) (a v : α)
    (items : List α) (sorted : (a :: items).Pairwise (fun a b => (cmp a b).isLE = true)) :
    v ∈ items.destutter' (fun a b => ¬ same a b = true) a ↔
      (a :: items).find? (fun w => same w v) = some v := by
  have refl : ∀ b, same b b = true := fun b => (agrees b b).mpr Std.ReflCmp.compare_self
  induction items generalizing a with
  | nil =>
    by_cases equal : v = a
    · subst equal; simp [refl]
    · have other : a ≠ v := fun h => equal h.symm
      by_cases tie : same a v = true <;> simp [equal, tie, other]
  | cons b items ih =>
    rw [List.pairwise_cons] at sorted
    obtain ⟨least, sorted⟩ := sorted
    by_cases tie : same a b = true
    · rw [List.destutter'_cons_neg _ (fun distinct => distinct tie)]
      have swept := List.pairwise_cons.mpr
        ⟨fun c member => least c (List.mem_cons_of_mem _ member), (List.pairwise_cons.mp sorted).2⟩
      refine (ih a swept).trans ?_
      have through : same b v = same a v := by
        rw [Bool.eq_iff_iff, agrees, agrees, Std.TransCmp.congr_left ((agrees a b).mp tie)]
      cases found : same a v with
      | true => simp [found]
      | false => simp [found, through]
    · rw [List.destutter'_cons_pos _ tie, List.mem_cons]
      refine (or_congr_right (ih b sorted)).trans ?_
      cases found : same a v with
      | true =>
        -- a later item of the same key would have to compare equal to `b` as well
        have absent : (b :: items).find? (fun w => same w v) ≠ some v := by
          intro later
          have member := List.mem_of_find?_eq_some later
          have above : (cmp b v).isLE = true := by
            rcases List.mem_cons.mp member with rfl | inside
            · exact Ordering.isLE_of_eq_eq Std.ReflCmp.compare_self
            · exact (List.pairwise_cons.mp sorted).1 v inside
          have below : (cmp b a).isLE = true :=
            Std.TransCmp.isLE_trans above (by
              rw [cmp_swap cmp, (agrees a v).mp found]; rfl)
          have first := least b List.mem_cons_self
          refine tie ((agrees a b).mpr ?_)
          rw [cmp_swap cmp] at below
          cases order : cmp a b with
          | eq => rfl
          | lt => rw [order] at below; cases below
          | gt => rw [order] at first; cases first
        rw [or_iff_left absent, List.find?_cons, found]
        exact ⟨fun equal => congrArg some equal.symm, fun equal => (Option.some.inj equal).symm⟩
      | false =>
        have other : v ≠ a := fun equal => by
          subst equal; rw [refl] at found; cases found
        simp [found, other]

/-- Sorting by a key and dropping the repeats of a key keeps, of every key, the item that stood
    first before the sort. -/
theorem mem_dedupBy_sortBy (agrees : ∀ a b, same a b = true ↔ cmp a b = .eq) (items : List α)
    (v : α) :
    v ∈ dedupBy same (sortBy cmp items) ↔ items.find? (fun w => same w v) = some v := by
  have tied : ∀ a b, same a v = true → same b v = true → (cmp a b).isLE = true := by
    intro a b left right
    have tie : cmp a b = .eq := by
      rw [Std.TransCmp.congr_left ((agrees a v).mp left), cmp_swap cmp, (agrees b v).mp right]
      rfl
    rw [tie]; rfl
  have sorted := sorted_sortBy cmp items
  rw [← find_sortBy cmp (fun w => same w v) items tied]
  unfold dedupBy
  cases order : sortBy cmp items with
  | nil => simp
  | cons a rest =>
    rw [order] at sorted
    rw [List.destutter_cons', mem_destutter_sorted cmp agrees a v rest sorted]

theorem dedupBy_sortBy_ascend (agrees : ∀ a b, same a b = true ↔ cmp a b = .eq)
    (items : List α) :
    (dedupBy same (sortBy cmp items)).Pairwise (fun a b => cmp a b = .lt) := by
  have below : ∀ {a b}, (cmp a b).isLE = true → ¬ same a b = true → cmp a b = .lt := by
    intro a b le distinct
    cases order : cmp a b with
    | lt => rfl
    | eq => exact absurd ((agrees a b).mpr order) distinct
    | gt => rw [order] at le; cases le
  have sorted : (dedupBy same (sortBy cmp items)).Pairwise (fun a b => (cmp a b).isLE = true) :=
    (sorted_sortBy cmp items).sublist (List.destutter_sublist _ _)
  have chain : (dedupBy same (sortBy cmp items)).IsChain (fun a b => cmp a b = .lt) := by
    have apart := List.isChain_destutter (fun a b => ¬ same a b = true) (sortBy cmp items)
    refine List.isChain_iff_getElem.mpr fun i bound => below ?_ (apart.getElem i bound)
    exact List.pairwise_iff_getElem.mp sorted i (i + 1) (by omega) bound (by omega)
  have trans : Trans (fun a b => cmp a b = .lt) (fun a b => cmp a b = .lt)
      (fun a b => cmp a b = .lt) := ⟨Std.TransCmp.lt_trans⟩
  exact chain.pairwise

theorem dedupBy_sortBy_differ (agrees : ∀ a b, same a b = true ↔ cmp a b = .eq)
    (items : List α) :
    (dedupBy same (sortBy cmp items)).Pairwise (fun a b => same a b = false) := by
  refine (dedupBy_sortBy_ascend cmp agrees items).imp ?_
  intro a b less
  rw [Bool.eq_false_iff]
  intro tie
  rw [(agrees a b).mp tie] at less
  cases less

end FirstOfEachKey

section Runs

variable {κ : Type*} [LinearOrder κ]

theorem filter_least_isPrefix (key : α → κ) (k : κ) (items : List α)
    (sorted : items.Pairwise (fun a b => key a ≤ key b)) (least : ∀ a ∈ items, k ≤ key a) :
    items.filter (fun a => key a = k) <+: items := by
  induction items with
  | nil => exact List.nil_prefix
  | cons a items ih =>
    obtain ⟨before, sorted⟩ := List.pairwise_cons.mp sorted
    by_cases here : key a = k
    · rw [List.filter_cons_of_pos (by simpa using here)]
      exact (List.prefix_cons_inj a).mpr
        (ih sorted fun b member => least b (List.mem_cons_of_mem a member))
    · have above : k < key a := lt_of_le_of_ne (least a List.mem_cons_self) (Ne.symm here)
      have none : (a :: items).filter (fun a => key a = k) = [] := by
        refine List.filter_eq_nil_iff.mpr fun b member same => ?_
        have same : key b = k := of_decide_eq_true same
        rcases List.mem_cons.mp member with rfl | later
        · exact here same
        · exact absurd (same ▸ before b later) (not_le_of_gt above)
      rw [none]
      exact List.nil_prefix

theorem filter_isInfix (key : α → κ) (k : κ) (items : List α)
    (sorted : items.Pairwise (fun a b => key a ≤ key b)) :
    items.filter (fun a => key a = k) <:+: items := by
  induction items with
  | nil => exact List.infix_rfl
  | cons a items ih =>
    obtain ⟨before, rest⟩ := List.pairwise_cons.mp sorted
    by_cases here : key a = k
    · refine (filter_least_isPrefix key k (a :: items) sorted fun b member => ?_).isInfix
      rcases List.mem_cons.mp member with rfl | later
      · exact here.ge
      · exact here ▸ before b later
    · rw [List.filter_cons_of_neg (by simpa using here)]
      exact (ih rest).trans (List.infix_cons List.infix_rfl)

end Runs

end Slices
