import StatGuardian.Stats.Profiler
import StatGuardian.Stats.Psi

namespace StatGuardian.Stats.Profiler

open DriftEngine Histogram Polars

/-- What the documentation of `min` and `max` promises for columns without NaN. -/
structure TakesExtremes (env : Env ExtReal) : Prop where
  min : ∀ (ca : List (Option ExtReal)) (vals : List ℝ) (lo : ℝ), present ca = vals.map .fin →
    IsLeast {v | v ∈ vals} lo → env.min ca = some (.fin lo)
  max : ∀ (ca : List (Option ExtReal)) (vals : List ℝ) (hi : ℝ), present ca = vals.map .fin →
    IsGreatest {v | v ∈ vals} hi → env.max ca = some (.fin hi)

section Quantiles

noncomputable def place (n : Nat) (q : ℝ) : Nat :=
  min (ExtReal.toUsize (ExtReal.round (.fin (q * (n - 1))))) (n - 1)

theorem place_mono {n : Nat} (some_ : 0 < n) {p q : ℝ} (nonneg : 0 ≤ p) (le : p ≤ q) :
    place n p ≤ place n q := by
  have size : (0 : ℝ) ≤ n - 1 := sub_nonneg.mpr (Nat.one_le_cast.mpr some_)
  have first : 0 ≤ p * (n - 1) := mul_nonneg nonneg size
  have second : p * (n - 1) ≤ q * (n - 1) := mul_le_mul_of_nonneg_right le size
  have rounded : ∀ x : ℝ, 0 ≤ x → ExtReal.toUsize (ExtReal.round (.fin x)) =
      Nat.min ⌊x + ExtReal.half⌋.toNat (2 ^ 64 - 1) := by
    intro x positive
    rw [ExtReal.round, if_neg (not_lt.mpr positive), ExtReal.toUsize, Int.floor_intCast]
  have floors : ⌊p * (n - 1) + ExtReal.half⌋.toNat ≤ ⌊q * (n - 1) + ExtReal.half⌋.toNat :=
    Int.toNat_le_toNat (Int.floor_le_floor (by linarith))
  unfold place
  rw [rounded _ first, rounded _ (first.trans second)]
  exact min_le_min_right _ (min_le_min_right _ floors)

theorem place_lt {n : Nat} (some_ : 0 < n) (q : ℝ) : place n q < n := by
  unfold place
  omega

noncomputable def quantile (vals : List ℝ) (q : ℝ) : ℝ :=
  ((vals.insertionSort (· ≤ ·))[place vals.length q]?).getD 0

variable {vals : List ℝ}

theorem quantile_getElem (full : vals ≠ []) (q : ℝ) :
    ∃ inside : place vals.length q < (vals.insertionSort (· ≤ ·)).length,
      quantile vals q = (vals.insertionSort (· ≤ ·))[place vals.length q] := by
  have inside : place vals.length q < (vals.insertionSort (· ≤ ·)).length := by
    rw [List.length_insertionSort]
    exact place_lt (List.length_pos_iff.mpr full) q
  refine ⟨inside, ?_⟩
  rw [quantile, List.getElem?_eq_getElem inside, Option.getD_some]

theorem quantile_mem (full : vals ≠ []) (q : ℝ) : quantile vals q ∈ vals := by
  obtain ⟨inside, same⟩ := quantile_getElem full q
  rw [same]
  exact (List.perm_insertionSort _ vals).subset (List.getElem_mem inside)

theorem quantile_mono (full : vals ≠ []) {p q : ℝ} (nonneg : 0 ≤ p) (le : p ≤ q) :
    quantile vals p ≤ quantile vals q := by
  obtain ⟨inside, same⟩ := quantile_getElem full p
  obtain ⟨insideToo, sameToo⟩ := quantile_getElem full q
  rw [same, sameToo]
  have sorted := List.pairwise_insertionSort (· ≤ · : ℝ → ℝ → Prop) vals
  have places := place_mono (List.length_pos_iff.mpr full) nonneg le
  rcases Nat.lt_or_eq_of_le places with before | here
  · exact List.pairwise_iff_getElem.mp sorted _ _ inside insideToo before
  · simp only [here, le_refl]

theorem sort_fin (vals : List ℝ) :
    (vals.map ExtReal.fin).insertionSort
        (fun a b => lessEq (Float64.equalOrCmp a b) = true) =
      (vals.insertionSort (· ≤ ·)).map ExtReal.fin := by
  symm
  apply List.map_insertionSort
  intro x _ y _
  exact (ExtReal.cmp_isLE x y).symm

theorem present_consistent {ca : List (Option ExtReal)} (read : present ca = vals.map .fin) :
    Float64.OrderConsistent (present ca) := by
  left
  rw [read]
  intro a member
  obtain ⟨x, -, rfl⟩ := List.mem_map.mp member
  rfl

theorem quantileManual_fin (env : Env ExtReal) {ca : List (Option ExtReal)}
    (read : present ca = vals.map .fin) (full : vals ≠ []) (q : ℚ) :
    quantileManual env ca (Float64.ofRat q) = .ok (some (.fin (quantile vals q))) := by
  have sorted := env.sorter.run_sortable
    ((Float64.sortable_equalOrCmp_iff _).mpr (present_consistent read))
  rw [read, sort_fin] at sorted
  have some_ : (vals.map ExtReal.fin).isEmpty = false := by
    simp [full]
  have product : (Float64.ofRat q : ExtReal) * (Float64.ofNat vals.length - Float64.one) =
      .fin (q * (vals.length - 1)) := by
    have one : (Float64.one : ExtReal) = .fin 1 := by
      show ExtReal.fin ((1 : ℚ) : ℝ) = _
      rw [Rat.cast_one]
    rw [ExtReal.ofNat_fin, one, ExtReal.fin_sub]
    rfl
  obtain ⟨inside, same⟩ := quantile_getElem full q
  have found : ((vals.insertionSort (· ≤ ·)).map ExtReal.fin)[min (Float64.toUsize
      (Float64.round (.fin (q * (vals.length - 1)) : ExtReal))) (vals.length - 1)]? =
        some (.fin (quantile vals q)) := by
    change _[place vals.length q]? = _
    rw [List.getElem?_map, List.getElem?_eq_getElem inside, ← same, Option.map_some]
  unfold quantileManual
  simp only [read, some_, Bool.false_eq_true, ↓reduceIte, sorted, bind, Except.bind,
    List.length_map, List.length_insertionSort, product]
  rw [found]
  rfl

end Quantiles

section Rows

variable {lo hi : ℝ} {vals : List ℝ}

open Classical in
/-- The rows of a histogram: ten bins of one width side by side from the smallest value on, each
    with the number of the values that lie in it. -/
noncomputable def histogramRows (lo width : ℝ) (vals : List ℝ) : List (ExtReal × ExtReal × Nat) :=
  (List.range 10).map (fun i : Nat => (.fin (lo + i * width), .fin (lo + (i + 1) * width),
    vals.countP (InBin lo width 10 i)))

theorem buildHistogram_fin {ca : List (Option ExtReal)} (read : present ca = vals.map .fin)
    (least : IsLeast {v | v ∈ vals} lo) (apart : lo < hi) (small : vals.length < 2 ^ 32) :
    buildHistogram ca (some (.fin lo)) (some (.fin hi)) 10 =
      .ok (histogramRows lo ((hi - lo) / 10) vals) := by
  have less : Float64.lt (ExtReal.fin lo) (.fin hi) = true := (ExtReal.lt_fin lo hi).mpr apart
  have ten : (Float64.ofNat 10 : ExtReal) = .fin 10 := ExtReal.ofNat_fin 10
  have width : 0 < (hi - lo) / 10 := div_pos (sub_pos.mpr apart) (by norm_num)
  have above : ∀ v ∈ vals, lo ≤ v := fun v inside => least.2 inside
  have counted := bucket_fin width (by norm_num : 0 < 10) (by norm_num) above
  rw [wrappedCounts_small small] at counted
  simp only [buildHistogram, less, ↓reduceIte, ten, ExtReal.fin_sub,
    ExtReal.fin_div _ _ (by norm_num : (10 : ℝ) ≠ 0), read, counted, bind, Except.bind]
  apply (Results.mapM_ok_iff ..).mpr
  rw [histogramRows, List.forall₂_map_right_iff, List.forall₂_same]
  intro i inside
  have found := (lossFree width (by norm_num : 0 < 10) above).counted i (List.mem_range.mp inside)
  have upper : ExtReal.fin (lo + i * ((hi - lo) / 10)) + .fin ((hi - lo) / 10) =
      .fin (lo + (i + 1) * ((hi - lo) / 10)) := by
    rw [ExtReal.fin_add]
    congr 1
    ring
  rw [found, ExtReal.ofNat_fin, ExtReal.fin_mul, ExtReal.fin_add, upper]

theorem buildHistogram_flat (ca : List (Option ExtReal)) (x : ℝ) :
    buildHistogram ca (some (.fin x)) (some (.fin x)) 10 = .ok [] := by
  have less : Float64.lt (ExtReal.fin x) (.fin x) = false := by
    rw [Bool.eq_false_iff, ne_eq, ExtReal.lt_fin]
    exact lt_irrefl x
  simp only [buildHistogram, less, Bool.false_eq_true, ↓reduceIte]

end Rows

section Summary

noncomputable def rates : List ℝ := [5 / 100, 25 / 100, 50 / 100, 75 / 100, 95 / 100, 99 / 100]

structure Describes (stats : NumericStats ExtReal) (vals : List ℝ) (lo hi : ℝ) : Prop where
  least : IsLeast {v | v ∈ vals} lo
  greatest : IsGreatest {v | v ∈ vals} hi
  min : stats.min = some (.fin lo)
  max : stats.max = some (.fin hi)
  quantiles : [stats.p05, stats.p25, stats.median, stats.p75, stats.p95, stats.p99] =
    rates.map fun q => some (.fin (quantile vals q))
  ordered : (lo :: rates.map (quantile vals) ++ [hi]).Pairwise (· ≤ ·)
  members : ∀ v ∈ rates.map (quantile vals), v ∈ vals
  flat : lo = hi → stats.histogram = some []
  rows : lo < hi → stats.histogram = some (histogramRows lo ((hi - lo) / 10) vals)
  once : lo < hi → ∀ v ∈ vals, ∃! k, k < 10 ∧ InBin lo ((hi - lo) / 10) 10 k v
  total : lo < hi →
    ((histogramRows lo ((hi - lo) / 10) vals).map fun row => row.2.2).sum = vals.length

variable {vals : List ℝ}

theorem rates_sorted : rates.Pairwise (· ≤ ·) := by
  simp only [rates, List.pairwise_cons, List.mem_cons, List.not_mem_nil, or_false,
    forall_eq_or_imp, forall_eq, false_imp_iff, implies_true, List.Pairwise.nil, and_true]
  norm_num

theorem rates_nonneg : ∀ q ∈ rates, 0 ≤ q := by
  simp only [rates, List.mem_cons, List.not_mem_nil, or_false, forall_eq_or_imp, forall_eq]
  norm_num

theorem quantiles_sorted (full : vals ≠ []) : (rates.map (quantile vals)).Pairwise (· ≤ ·) := by
  rw [List.pairwise_map]
  apply rates_sorted.imp_of_mem
  intro p q inside _ le
  exact quantile_mono full (rates_nonneg p inside) le

theorem ordered (full : vals ≠ []) {lo hi : ℝ} (least : IsLeast {v | v ∈ vals} lo)
    (greatest : IsGreatest {v | v ∈ vals} hi) :
    (lo :: rates.map (quantile vals) ++ [hi]).Pairwise (· ≤ ·) := by
  have inside : ∀ v ∈ rates.map (quantile vals), v ∈ vals := by
    intro v member
    obtain ⟨q, -, rfl⟩ := List.mem_map.mp member
    exact quantile_mem full q
  rw [List.cons_append, List.pairwise_cons, List.pairwise_append]
  refine ⟨?_, quantiles_sorted full, List.pairwise_singleton _ _, ?_⟩
  · intro v member
    rcases List.mem_append.mp member with here | last
    · exact least.2 (inside v here)
    · rw [List.mem_singleton.mp last]
      exact least.2 greatest.1
  · intro v here w last
    rw [List.mem_singleton.mp last]
    exact greatest.2 (inside v here)

theorem histogramRows_total {lo hi : ℝ} (least : IsLeast {v | v ∈ vals} lo) (apart : lo < hi) :
    ((histogramRows lo ((hi - lo) / 10) vals).map fun row => row.2.2).sum = vals.length := by
  have width : 0 < (hi - lo) / 10 := div_pos (sub_pos.mpr apart) (by norm_num)
  have above : ∀ v ∈ vals, lo ≤ v := fun v inside => least.2 inside
  rw [← (lossFree width (by norm_num : 0 < 10) above).total, histogramRows, List.map_map, counts]
  congr 1
  apply List.map_congr_left
  intro k inside
  exact (countP_slot width above (List.mem_range.mp inside)).symm

theorem exists_extremes (full : vals ≠ []) :
    ∃ lo hi, IsLeast {v | v ∈ vals} lo ∧ IsGreatest {v | v ∈ vals} hi := by
  obtain ⟨a, rest, rfl⟩ := List.exists_cons_of_ne_nil full
  exact ⟨_, _, isLeast_foldl_min a rest, isGreatest_foldl_max a rest⟩

theorem numericStats_fin (env : Env ExtReal) {series : Series ExtReal}
    {ca : List (Option ExtReal)} (cast : env.castF64 series = some ca)
    (read : present ca = vals.map .fin) (full : vals ≠ [])
    {histogram : List (ExtReal × ExtReal × Nat)}
    (built : buildHistogram ca (env.min ca) (env.max ca) 10 = .ok histogram) :
    numericStats env series = .ok {
      min := env.min ca
      max := env.max ca
      mean := env.mean ca
      std := env.std ca
      median := some (.fin (quantile vals ((1 / 2 : ℚ) : ℝ)))
      p05 := some (.fin (quantile vals ((5 / 100 : ℚ) : ℝ)))
      p25 := some (.fin (quantile vals ((25 / 100 : ℚ) : ℝ)))
      p75 := some (.fin (quantile vals ((75 / 100 : ℚ) : ℝ)))
      p95 := some (.fin (quantile vals ((95 / 100 : ℚ) : ℝ)))
      p99 := some (.fin (quantile vals ((99 / 100 : ℚ) : ℝ)))
      histogram := some histogram } := by
  simp only [numericStats, cast, quantileManual_fin env read full, built, bind, Except.bind]
  rfl

/-- The profile of a numeric column without NaN or infinities: the extremes, quantiles that are
    values of the column in order, and a histogram that loses none of them. -/
theorem numericStats_describes (env : Env ExtReal) (extremes : TakesExtremes env)
    (series : Series ExtReal) (ca : List (Option ExtReal)) (cast : env.castF64 series = some ca)
    (vals : List ℝ) (read : present ca = vals.map .fin) (full : vals ≠ [])
    (small : vals.length < 2 ^ 32) :
    ∃ stats lo hi, numericStats env series = .ok stats ∧ Describes stats vals lo hi := by
  obtain ⟨lo, hi, least, greatest⟩ := exists_extremes full
  have minimum := extremes.min ca vals lo read least
  have maximum := extremes.max ca vals hi read greatest
  obtain ⟨histogram, built, flat, rows⟩ : ∃ histogram,
      buildHistogram ca (some (.fin lo)) (some (.fin hi)) 10 = .ok histogram ∧
        (lo = hi → histogram = []) ∧
          (lo < hi → histogram = histogramRows lo ((hi - lo) / 10) vals) := by
    rcases (least.2 greatest.1).eq_or_lt with same | apart
    · subst same
      exact ⟨_, buildHistogram_flat ca lo, fun _ => rfl, fun less => absurd less (lt_irrefl lo)⟩
    · exact ⟨_, buildHistogram_fin read least apart small, fun same => absurd same apart.ne,
        fun _ => rfl⟩
  rw [← minimum, ← maximum] at built
  refine ⟨_, lo, hi, numericStats_fin env cast read full built, ?_⟩
  exact {
    least := least
    greatest := greatest
    min := minimum
    max := maximum
    quantiles := by
      simp only [rates, List.map_cons, List.map_nil]
      norm_num
    ordered := ordered full least greatest
    members := by
      intro v member
      obtain ⟨q, -, rfl⟩ := List.mem_map.mp member
      exact quantile_mem full q
    flat := fun same => congrArg some (flat same)
    rows := fun apart => congrArg some (rows apart)
    once := by
      intro apart v inside
      have width : 0 < (hi - lo) / 10 := div_pos (sub_pos.mpr apart) (by norm_num)
      exact existsUnique_inBin width (by norm_num) (least.2 inside)
    total := fun apart => histogramRows_total least apart }

theorem realEnv_extremes : TakesExtremes realEnv where
  min ca vals lo read least := by
    have full : vals ≠ [] := List.ne_nil_of_mem least.1
    obtain ⟨a, rest, rfl⟩ := List.exists_cons_of_ne_nil full
    change PlainEnv.fold Float64.min ca = _
    rw [PlainEnv.fold, show ca.filterMap id = (a :: rest).map .fin from read, List.map_cons]
    exact congrArg some ((foldl_fin ExtReal.min_fin a rest).trans
      (congrArg ExtReal.fin ((isLeast_foldl_min a rest).unique least)))
  max ca vals hi read greatest := by
    have full : vals ≠ [] := List.ne_nil_of_mem greatest.1
    obtain ⟨a, rest, rfl⟩ := List.exists_cons_of_ne_nil full
    change PlainEnv.fold Float64.max ca = _
    rw [PlainEnv.fold, show ca.filterMap id = (a :: rest).map .fin from read, List.map_cons]
    exact congrArg some ((foldl_fin ExtReal.max_fin a rest).trans
      (congrArg ExtReal.fin ((isGreatest_foldl_max a rest).unique greatest)))

theorem numericStats_describes_three :
    ∃ stats lo hi, numericStats realEnv (sample [3, 1, 2]) = .ok stats ∧
      Describes stats [3, 1, 2] lo hi :=
  numericStats_describes realEnv realEnv_extremes (sample [3, 1, 2]) [some (.fin 3), some (.fin 1),
    some (.fin 2)] rfl [3, 1, 2] rfl (List.cons_ne_nil _ _) (by decide)

end Summary

end StatGuardian.Stats.Profiler
