import StatGuardian.Library.Histogram
import StatGuardian.Library.SymmetricDivergence
import StatGuardian.Runtime.ExtReal
import StatGuardian.Runtime.PlainEnv
import StatGuardian.Stats.Drift

namespace StatGuardian.Stats.DriftEngine

open Histogram Polars SymmetricDivergence

section Bucket

variable {F : Type} [Float64 F] (lo width : F) (bins : Nat)

def binOf (v : F) : Nat := min (Float64.toUsize ((v - lo) / width)) (bins - 1)

variable {bins}

theorem binOf_lt (positive : 0 < bins) (v : F) : binOf lo width bins v < bins := by
  unfold binOf
  omega

theorem count_wraps (positive : 0 < bins) (f : Nat → Nat) (v : F) :
    count lo width bins ((List.range bins).map fun k => f k % 2 ^ 32) v =
      .ok ((List.range bins).map fun k =>
        (f k + if binOf lo width bins v = k then 1 else 0) % 2 ^ 32) := by
  have inside := binOf_lt lo width positive v
  have found : ((List.range bins).map fun k => f k % 2 ^ 32)[binOf lo width bins v]? =
      some (f (binOf lo width bins v) % 2 ^ 32) := by
    rw [List.getElem?_map, List.getElem?_range inside, Option.map_some]
  rw [count, ← binOf, found]
  refine congrArg Except.ok (List.ext_getElem (by simp) fun k below _ => ?_)
  rw [List.getElem_set, List.getElem_map, List.getElem_map, List.getElem_range]
  split_ifs with here
  · rw [here, Nat.mod_add_mod]
  · rfl

theorem count_foldl_wraps (positive : 0 < bins) (vals : List F) (f : Nat → Nat) :
    vals.foldlM (count lo width bins) ((List.range bins).map fun k => f k % 2 ^ 32) =
      .ok ((List.range bins).map fun k =>
        (f k + vals.countP (binOf lo width bins · = k)) % 2 ^ 32) := by
  induction vals generalizing f with
  | nil => rfl
  | cons v rest ih =>
    rw [List.foldlM_cons, count_wraps lo width positive]
    refine (ih _).trans (congrArg Except.ok (List.map_congr_left fun k _ => ?_))
    rw [List.countP_cons, Nat.add_assoc, Nat.add_comm (rest.countP _)]
    simp only [decide_eq_true_eq]

theorem bucket_eq (positive : 0 < bins) (vals : List F) : bucket vals lo width bins =
    .ok ((counts bins (binOf lo width bins) vals).map (· % 2 ^ 32)) := by
  have empty : List.replicate bins 0 = (List.range bins).map fun _ => 0 % 2 ^ 32 := by
    rw [List.map_const', List.length_range, Nat.zero_mod]
  rw [bucket, empty, count_foldl_wraps lo width positive]
  simp only [counts, List.map_map, Nat.zero_add]
  rfl

end Bucket

section Reals

variable {lo hi width : ℝ} {bins : Nat} {vals : List ℝ}

theorem binOf_fin (positive : 0 < width) (usize : bins < 2 ^ 64) {v : ℝ} (above : lo ≤ v) :
    binOf (ExtReal.fin lo) (.fin width) bins (.fin v) = slot lo width bins v := by
  have nonneg : 0 ≤ (v - lo) / width := div_nonneg (sub_nonneg.mpr above) positive.le
  have floor : Float64.toUsize ((ExtReal.fin v - .fin lo) / .fin width) =
      min ⌊(v - lo) / width⌋₊ (2 ^ 64 - 1) := by
    rw [ExtReal.fin_sub, ExtReal.fin_div _ _ positive.ne']
    show min ⌊(v - lo) / width⌋.toNat _ = _
    rw [Int.floor_toNat]
  rw [binOf, floor, slot]
  omega

noncomputable def wrappedCounts (lo width : ℝ) (bins : Nat) (vals : List ℝ) : List Nat :=
  (counts bins (slot lo width bins) vals).map (· % 2 ^ 32)

theorem bucket_fin (positive : 0 < width) (some_ : 0 < bins) (usize : bins < 2 ^ 64)
    (above : ∀ v ∈ vals, lo ≤ v) :
    bucket (vals.map ExtReal.fin) (.fin lo) (.fin width) bins =
      .ok (wrappedCounts lo width bins vals) := by
  rw [bucket_eq _ _ some_, wrappedCounts, counts, counts]
  refine congrArg Except.ok (congrArg _ (List.map_congr_left fun k _ => ?_))
  rw [List.countP_map]
  refine List.countP_congr fun v member => ?_
  rw [Function.comp_apply, binOf_fin positive usize (above v member)]

theorem wrappedCounts_perm {others : List ℝ} (perm : vals.Perm others) :
    wrappedCounts lo width bins vals = wrappedCounts lo width bins others := by
  rw [wrappedCounts, counts_perm perm, wrappedCounts]

theorem wrappedCounts_small (small : vals.length < 2 ^ 32) :
    wrappedCounts lo width bins vals = counts bins (slot lo width bins) vals := by
  rw [wrappedCounts, counts, List.map_map]
  refine List.map_congr_left fun k _ => Nat.mod_eq_of_lt ?_
  exact lt_of_le_of_lt List.countP_le_length small

end Reals

section Folds

theorem foldl_fin {pick : ExtReal → ExtReal → ExtReal} {op : ℝ → ℝ → ℝ}
    (step : ∀ x y, pick (.fin x) (.fin y) = .fin (op x y)) (a : ℝ) (xs : List ℝ) :
    (xs.map ExtReal.fin).foldl pick (.fin a) = .fin (xs.foldl op a) := by
  induction xs generalizing a with
  | nil => rfl
  | cons x rest ih => rw [List.map_cons, List.foldl_cons, step, ih, List.foldl_cons]

theorem sum_fin (xs : List ℝ) : Float64.sum (xs.map ExtReal.fin) = .fin xs.sum := by
  have zero : (Float64.zero : ExtReal) = .fin 0 := by
    show ExtReal.fin ((0 : ℚ) : ℝ) = _
    rw [Rat.cast_zero]
  rw [Float64.sum, zero, foldl_fin ExtReal.fin_add, List.sum_eq_foldl]

theorem isLeast_foldl_min {α : Type*} [LinearOrder α] (a : α) (rest : List α) :
    IsLeast {v | v ∈ a :: rest} (rest.foldl min a) := by
  induction rest generalizing a with
  | nil => simp
  | cons b rest ih =>
    obtain ⟨member, lower⟩ := ih (min a b)
    rw [List.foldl_cons]
    constructor
    · rcases List.mem_cons.mp member with first | later
      · rw [first]
        rcases min_choice a b with left | right
        · rw [left]
          exact List.mem_cons_self
        · rw [right]
          exact List.mem_cons_of_mem _ List.mem_cons_self
      · exact List.mem_cons_of_mem _ (List.mem_cons_of_mem _ later)
    · intro v inside
      have first := lower List.mem_cons_self
      rcases List.mem_cons.mp inside with rfl | inside
      · exact first.trans (min_le_left _ _)
      · rcases List.mem_cons.mp inside with rfl | later
        · exact first.trans (min_le_right _ _)
        · exact lower (List.mem_cons_of_mem _ later)

theorem isGreatest_foldl_max {α : Type*} [LinearOrder α] (a : α) (rest : List α) :
    IsGreatest {v | v ∈ a :: rest} (rest.foldl max a) :=
  isLeast_foldl_min (α := αᵒᵈ) a rest

theorem foldl_min_fin (vals : List ℝ) (full : vals ≠ []) :
    ∃ least, (vals.map ExtReal.fin).foldl Float64.min Float64.infinity = .fin least ∧
      IsLeast {v | v ∈ vals} least := by
  obtain ⟨a, rest, rfl⟩ := List.exists_cons_of_ne_nil full
  exact ⟨_, foldl_fin ExtReal.min_fin a rest, isLeast_foldl_min a rest⟩

theorem foldl_max_fin (vals : List ℝ) (full : vals ≠ []) :
    ∃ greatest, (vals.map ExtReal.fin).foldl Float64.max Float64.negInfinity = .fin greatest ∧
      IsGreatest {v | v ∈ vals} greatest := by
  obtain ⟨a, rest, rfl⟩ := List.exists_cons_of_ne_nil full
  exact ⟨_, foldl_fin ExtReal.max_fin a rest, isGreatest_foldl_max a rest⟩

theorem setOf_mem_append {α : Type*} (l m : List α) :
    {v | v ∈ l ++ m} = {v | v ∈ l} ∪ {v | v ∈ m} := by
  ext v
  exact List.mem_append

variable {refVals curVals : List ℝ} {bound : ℝ}

theorem low_end (fullRef : refVals ≠ []) (fullCur : curVals ≠ [])
    (least : IsLeast {v | v ∈ refVals ++ curVals} bound) :
    Float64.min ((refVals.map ExtReal.fin).foldl Float64.min Float64.infinity)
      ((curVals.map ExtReal.fin).foldl Float64.min Float64.infinity) = .fin bound := by
  obtain ⟨m, foundM, leastM⟩ := foldl_min_fin refVals fullRef
  obtain ⟨n, foundN, leastN⟩ := foldl_min_fin curVals fullCur
  rw [setOf_mem_append] at least
  rw [foundM, foundN, ExtReal.min_fin, least.unique (leastM.union leastN)]

theorem high_end (fullRef : refVals ≠ []) (fullCur : curVals ≠ [])
    (greatest : IsGreatest {v | v ∈ refVals ++ curVals} bound) :
    Float64.max ((refVals.map ExtReal.fin).foldl Float64.max Float64.negInfinity)
      ((curVals.map ExtReal.fin).foldl Float64.max Float64.negInfinity) = .fin bound := by
  obtain ⟨m, foundM, greatestM⟩ := foldl_max_fin refVals fullRef
  obtain ⟨n, foundN, greatestN⟩ := foldl_max_fin curVals fullCur
  rw [setOf_mem_append] at greatest
  rw [foundM, foundN, ExtReal.max_fin, greatest.unique (greatestM.union greatestN)]

end Folds

section Value

def TakesLog (env : Env ExtReal) : Prop := ∀ x : ℝ, 0 < x → env.ln (.fin x) = .fin (Real.log x)

noncomputable section

def floorProportion : ℝ := 1 / 10 ^ 9

def floored (total : Nat) (n : Nat) : ℝ := max (n / total) floorProportion

def proportions (lo width : ℝ) (bins : Nat) (vals : List ℝ) : List ℝ :=
  (wrappedCounts lo width bins vals).map (floored vals.length)

end

theorem floored_pos (total n : Nat) : 0 < floored total n :=
  lt_max_of_lt_right (by unfold floorProportion; positivity)

variable {env : Env ExtReal}

theorem psiTerm_fin (log : TakesLog env) {refN curN : Nat} (someRef : refN ≠ 0) (someCur : curN ≠ 0)
    (r c : Nat) : psiTerm env (Float64.ofNat refN) (Float64.ofNat curN) r c =
      .fin (term (floored refN r) (floored curN c)) := by
  have share : ∀ {total : Nat}, total ≠ 0 → ∀ n : Nat,
      Float64.max (Float64.ofNat n / Float64.ofNat total) (Float64.ofRat (1 / 10 ^ 9)) =
        ExtReal.fin (floored total n) := by
    intro total some_ n
    have least : (Float64.ofRat (1 / 10 ^ 9) : ExtReal) = .fin floorProportion := by
      show ExtReal.fin ((1 / 10 ^ 9 : ℚ) : ℝ) = _
      rw [floorProportion]
      push_cast
      rfl
    rw [ExtReal.ofNat_fin, ExtReal.ofNat_fin, ExtReal.fin_div _ _ (Nat.cast_ne_zero.mpr some_),
      least, ExtReal.max_fin, floored]
  have positive := floored_pos refN r
  rw [psiTerm, share someRef, share someCur, ExtReal.fin_sub, ExtReal.fin_div _ _ positive.ne',
    log _ (div_pos (floored_pos curN c) positive), ExtReal.fin_mul, term]

theorem zipWith_psiTerm (log : TakesLog env) {refN curN : Nat} (someRef : refN ≠ 0)
    (someCur : curN ≠ 0) (rs cs : List Nat) :
    Float64.sum (List.zipWith (psiTerm env (Float64.ofNat refN) (Float64.ofNat curN)) rs cs) =
      .fin (divergence (rs.map (floored refN)) (cs.map (floored curN))) := by
  have terms : psiTerm env (Float64.ofNat refN) (Float64.ofNat curN) = fun r c =>
      ExtReal.fin (term (floored refN r) (floored curN c)) := by
    funext r c
    exact psiTerm_fin log someRef someCur r c
  rw [terms, divergence, List.zipWith_map, ← sum_fin, List.map_zipWith]

theorem psi_fin (log : TakesLog env) {reference current : Series ExtReal} {refVals curVals : List ℝ}
    (readRef : toF64Vec env reference = refVals.map .fin)
    (readCur : toF64Vec env current = curVals.map .fin)
    (fullRef : refVals ≠ []) (fullCur : curVals ≠ []) {lo hi : ℝ}
    (least : IsLeast {v | v ∈ refVals ++ curVals} lo)
    (greatest : IsGreatest {v | v ∈ refVals ++ curVals} hi) (apart : lo < hi)
    {bins : Nat} (some_ : 0 < bins) (usize : bins < 2 ^ 64) :
    psi env reference current bins = .ok (.fin (if hi - lo < 1 / 2 ^ 52 then 0 else
      divergence (proportions lo ((hi - lo) / bins) bins refVals)
        (proportions lo ((hi - lo) / bins) bins curVals))) := by
  have full : ((refVals.map ExtReal.fin).isEmpty || (curVals.map ExtReal.fin).isEmpty) = false := by
    simp [fullRef, fullCur]
  have guard_ : Float64.lt (Float64.abs (ExtReal.fin hi - .fin lo)) Float64.epsilon = true ↔
      hi - lo < 1 / 2 ^ 52 := by
    have epsilon : (Float64.epsilon : ExtReal) = .fin (1 / 2 ^ 52) := by
      show ExtReal.fin ((1 / 2 ^ 52 : ℚ) : ℝ) = _
      push_cast
      rfl
    rw [epsilon, ExtReal.fin_sub, ExtReal.abs_fin, ExtReal.lt_fin, abs_of_pos (sub_pos.mpr apart)]
  have positive : (0 : ℝ) < bins := Nat.cast_pos.mpr some_
  have width : 0 < (hi - lo) / bins := div_pos (sub_pos.mpr apart) positive
  have above := List.forall_mem_append.mp fun v inside => least.2 inside
  simp only [psi, readRef, readCur, full, Bool.false_eq_true, ↓reduceIte,
    low_end fullRef fullCur least, high_end fullRef fullCur greatest, guard_]
  split_ifs with narrow
  · show Except.ok (ExtReal.fin ((0 : ℚ) : ℝ)) = _
    rw [Rat.cast_zero]
  · rw [ExtReal.ofNat_fin, ExtReal.fin_sub, ExtReal.fin_div _ _ positive.ne',
      bucket_fin width some_ usize above.1, bucket_fin width some_ usize above.2]
    simp only [bind, Except.bind, pure, Except.pure, List.length_map]
    rw [zipWith_psiTerm log (by simpa using fullRef) (by simpa using fullCur)]
    rfl

end Value

section Divergence

open Classical in
/-- The proportion of a bin, raised to the floor. -/
noncomputable def binProportion (lo width : ℝ) (bins : Nat) (vals : List ℝ) (k : Nat) : ℝ :=
  floored vals.length (vals.countP (InBin lo width bins k))

open Classical in
/-- Every value lies in one bin and is counted there. -/
structure LossFree (lo width : ℝ) (bins : Nat) (vals : List ℝ) (counts : List Nat) : Prop where
  length : counts.length = bins
  once : ∀ v ∈ vals, ∃! k, k < bins ∧ InBin lo width bins k v
  counted : ∀ k < bins, counts[k]? = some (vals.countP (InBin lo width bins k))
  total : counts.sum = vals.length

variable {lo width : ℝ} {bins : Nat} {vals : List ℝ}

open Classical in
theorem countP_slot (positive : 0 < width) (above : ∀ v ∈ vals, lo ≤ v) {k : Nat}
    (inside : k < bins) :
    vals.countP (slot lo width bins · = k) = vals.countP (InBin lo width bins k) := by
  refine List.countP_congr fun v member => ?_
  rw [decide_eq_true_eq, decide_eq_true_eq]
  exact slot_eq_iff positive (above v member) inside

theorem lossFree (positive : 0 < width) (some_ : 0 < bins) (above : ∀ v ∈ vals, lo ≤ v) :
    LossFree lo width bins vals (counts bins (slot lo width bins) vals) where
  length := length_counts
  once v member := existsUnique_inBin positive some_ (above v member)
  counted k inside := by
    rw [counts, List.getElem?_map, List.getElem?_range inside, Option.map_some,
      countP_slot positive above inside]
  total := sum_counts fun v _ => slot_lt some_ v

theorem proportions_small (positive : 0 < width) (above : ∀ v ∈ vals, lo ≤ v)
    (small : vals.length < 2 ^ 32) : proportions lo width bins vals =
      (List.range bins).map (binProportion lo width bins vals) := by
  rw [proportions, wrappedCounts_small small, counts, List.map_map]
  refine List.map_congr_left fun k member => ?_
  rw [Function.comp_apply, countP_slot positive above (List.mem_range.mp member), binProportion]

theorem proportions_pos : ∀ p ∈ proportions lo width bins vals, 0 < p := by
  intro p member
  obtain ⟨n, _, rfl⟩ := List.mem_map.mp member
  exact floored_pos _ n

theorem divergence_eq_zero_iff_bins (positive : 0 < width) {refVals curVals : List ℝ}
    (aboveRef : ∀ v ∈ refVals, lo ≤ v) (aboveCur : ∀ v ∈ curVals, lo ≤ v)
    (smallRef : refVals.length < 2 ^ 32) (smallCur : curVals.length < 2 ^ 32) :
    divergence (proportions lo width bins refVals) (proportions lo width bins curVals) = 0 ↔
      ∀ k < bins, binProportion lo width bins refVals k =
        binProportion lo width bins curVals k := by
  have sizes : (proportions lo width bins refVals).length =
      (proportions lo width bins curVals).length := by
    simp only [proportions, wrappedCounts, List.length_map, length_counts]
  rw [divergence_eq_zero_iff proportions_pos proportions_pos sizes,
    proportions_small positive aboveRef smallRef, proportions_small positive aboveCur smallCur,
    List.map_inj_left]
  simp only [List.mem_range]

/-- The index is a symmetric divergence of the two histograms, or zero on a range that is too
    narrow to divide. -/
theorem psi_symmetric_divergence (env : Env ExtReal) (log : TakesLog env)
    (reference current : Series ExtReal) (refVals curVals : List ℝ)
    (readRef : toF64Vec env reference = refVals.map .fin)
    (readCur : toF64Vec env current = curVals.map .fin)
    (fullRef : refVals ≠ []) (fullCur : curVals ≠ []) (lo hi : ℝ)
    (least : IsLeast {v | v ∈ refVals ++ curVals} lo)
    (greatest : IsGreatest {v | v ∈ refVals ++ curVals} hi) (apart : lo ≠ hi)
    (bins : Nat) (some_ : 1 ≤ bins) (usize : bins < 2 ^ 64) :
    ∃ value : ℝ, psi env reference current bins = .ok (.fin value) ∧ 0 ≤ value ∧
      psi env current reference bins = .ok (.fin value) ∧
      (∀ (reference' current' : Series ExtReal) (refVals' curVals' : List ℝ),
        toF64Vec env reference' = refVals'.map .fin → toF64Vec env current' = curVals'.map .fin →
        refVals'.Perm refVals → curVals'.Perm curVals →
        psi env reference' current' bins = .ok (.fin value)) ∧
      (refVals.length < 2 ^ 32 → curVals.length < 2 ^ 32 →
        (value = 0 ↔ hi - lo < 1 / 2 ^ 52 ∨ ∀ k < bins,
          binProportion lo ((hi - lo) / bins) bins refVals k =
            binProportion lo ((hi - lo) / bins) bins curVals k) ∧
        ∀ vals ∈ [refVals, curVals], ∃ counts,
          bucket (vals.map ExtReal.fin) (.fin lo) (.fin ((hi - lo) / bins)) bins = .ok counts ∧
            LossFree lo ((hi - lo) / bins) bins vals counts) := by
  have less : lo < hi := (least.2 greatest.1).lt_of_ne apart
  have width : 0 < (hi - lo) / bins := div_pos (sub_pos.mpr less) (Nat.cast_pos.mpr some_)
  have above := List.forall_mem_append.mp fun v inside => least.2 inside
  have swapped : ∀ v, v ∈ refVals ++ curVals ↔ v ∈ curVals ++ refVals := fun v => by
    rw [List.mem_append, List.mem_append, or_comm]
  refine ⟨_, psi_fin log readRef readCur fullRef fullCur least greatest less some_ usize, ?_, ?_,
    ?_, ?_⟩
  · split_ifs
    · exact le_rfl
    · exact divergence_nonneg proportions_pos proportions_pos
  · rw [psi_fin log readCur readRef fullCur fullRef (by simpa only [swapped] using least)
      (by simpa only [swapped] using greatest) less some_ usize, divergence_comm]
  · intro reference' current' refVals' curVals' readRef' readCur' permRef permCur
    have members : ∀ v, v ∈ refVals' ++ curVals' ↔ v ∈ refVals ++ curVals := fun v =>
      (permRef.append permCur).mem_iff
    rw [psi_fin log readRef' readCur' (fun empty => fullRef (by simpa [empty] using permRef))
      (fun empty => fullCur (by simpa [empty] using permCur)) (by simpa only [members] using least)
      (by simpa only [members] using greatest) less some_ usize, proportions, proportions,
      wrappedCounts_perm permRef, wrappedCounts_perm permCur, permRef.length_eq, permCur.length_eq]
    rfl
  · intro smallRef smallCur
    have histogram : ∀ {vals : List ℝ}, (∀ v ∈ vals, lo ≤ v) → vals.length < 2 ^ 32 → ∃ counts,
        bucket (vals.map ExtReal.fin) (.fin lo) (.fin ((hi - lo) / bins)) bins = .ok counts ∧
          LossFree lo ((hi - lo) / bins) bins vals counts := fun low small =>
      ⟨_, by rw [bucket_fin width some_ usize low, wrappedCounts_small small],
        lossFree width some_ low⟩
    refine ⟨?_, by simpa using ⟨histogram above.1 smallRef, histogram above.2 smallCur⟩⟩
    split_ifs with narrow
    · exact iff_of_true rfl (.inl narrow)
    · rw [divergence_eq_zero_iff_bins width above.1 above.2 smallRef smallCur, or_iff_right narrow]

end Divergence

section Samples

noncomputable def realEnv : Env ExtReal := plainEnv ExtReal.ln (fun _ => "")

theorem realEnv_log : TakesLog realEnv := ExtReal.ln_fin

def sample (vals : List ℝ) : Series ExtReal := ⟨.float64, vals.map fun v => some (.fin v)⟩

theorem toF64Vec_sample (vals : List ℝ) : toF64Vec realEnv (sample vals) = vals.map .fin := by
  induction vals with
  | nil => rfl
  | cons v rest ih => exact congrArg (ExtReal.fin v :: ·) ih

theorem isLeast_pair {a b : ℝ} (le : a ≤ b) : IsLeast {v | v ∈ [a] ++ [b]} a :=
  ⟨by simp, by simpa [lowerBounds] using le⟩

theorem isGreatest_pair {a b : ℝ} (le : a ≤ b) : IsGreatest {v | v ∈ [a] ++ [b]} b :=
  ⟨by simp, by simpa [upperBounds] using le⟩

theorem psi_symmetric_divergence_unit : ∃ value : ℝ,
    psi realEnv (sample [0]) (sample [1]) 2 = .ok (.fin value) ∧ 0 ≤ value ∧
      psi realEnv (sample [1]) (sample [0]) 2 = .ok (.fin value) := by
  obtain ⟨value, ran, nonneg, back, -⟩ := psi_symmetric_divergence realEnv realEnv_log (sample [0])
    (sample [1]) [0] [1] (toF64Vec_sample _) (toF64Vec_sample _) (List.cons_ne_nil _ _)
    (List.cons_ne_nil _ _) 0 1 (isLeast_pair zero_le_one) (isGreatest_pair zero_le_one)
    zero_ne_one 2 (by decide) (by decide)
  exact ⟨value, ran, nonneg, back⟩

/-- Two values closer than the tolerance fall into different bins, and the index is zero. -/
theorem psi_narrow_range :
    ¬ ∃ value : ℝ, psi realEnv (sample [0]) (sample [1 / 2 ^ 60]) 2 = .ok (.fin value) ∧
      (value = 0 ↔ ∀ k < 2, binProportion 0 ((1 / 2 ^ 60 - 0) / (2 : ℕ)) 2 [0] k =
        binProportion 0 ((1 / 2 ^ 60 - 0) / (2 : ℕ)) 2 [1 / 2 ^ 60] k) := by
  rintro ⟨value, ran, zero⟩
  have positive : (0 : ℝ) < 1 / 2 ^ 60 := by positivity
  rw [psi_fin realEnv_log (toF64Vec_sample _) (toF64Vec_sample _) (List.cons_ne_nil _ _)
    (List.cons_ne_nil _ _) (isLeast_pair positive.le) (isGreatest_pair positive.le) positive
    (by decide) (by decide), if_pos (by norm_num), Except.ok.injEq, ExtReal.fin.injEq] at ran
  have first := zero.mp ran.symm 0 (by decide)
  have left : InBin (0 : ℝ) ((1 / 2 ^ 60 - 0) / (2 : ℕ)) 2 0 0 := by
    unfold InBin
    norm_num
  have right : ¬ InBin (0 : ℝ) ((1 / 2 ^ 60 - 0) / (2 : ℕ)) 2 0 (1 / 2 ^ 60) := by
    unfold InBin
    norm_num
  simp only [binProportion, List.countP_cons, List.countP_nil, left, right, floored,
    floorProportion] at first
  norm_num at first

end Samples

end StatGuardian.Stats.DriftEngine
