import StatGuardian.Runtime.Env

namespace StatGuardian.Stats

open Polars

variable {F : Type} [Float64 F]

/-- `is_numeric`, the same in the drift engine and the profiler. -/
def isNumeric (s : Series F) : Bool :=
  match s.dtype with
  | .int8 | .int16 | .int32 | .int64 | .uint8 | .uint16 | .uint32 | .uint64
  | .float32 | .float64 => true
  | _ => false

/-- `ca.iter().flatten()` -/
def present (ca : List (Option F)) : List F := ca.filterMap id

/-- `quantile_manual`, the same in the drift engine and the profiler. -/
def quantileManual (env : Env F) (ca : List (Option F)) (q : F) : Exec (Option F) :=
  let vals := present ca
  if vals.isEmpty then .ok none
  else do
    let sorted ← env.sorter.run Float64.equalOrCmp vals
    let idx := Float64.toUsize
      (Float64.round (q * (Float64.ofNat sorted.length - Float64.one)))
    match sorted[min idx (sorted.length - 1)]? with
    | some x => return some x
    | none => throw .indexOutOfBounds

/-- One round of the counting loop in `bucket` and in `build_histogram`. The `u32` counter wraps
    in the release profile. -/
def count (lo width : F) (bins : Nat) (counts : List Nat) (v : F) : Exec (List Nat) :=
  let idx := min (Float64.toUsize ((v - lo) / width)) (bins - 1)
  match counts[idx]? with
  | some n => .ok (counts.set idx ((n + 1) % 2 ^ 32))
  | none => .error .indexOutOfBounds

def bucket (vals : List F) (lo width : F) (bins : Nat) : Exec (List Nat) :=
  vals.foldlM (count lo width bins) (List.replicate bins 0)

theorem count_returns (lo width : F) (bins : Nat) (counts : List Nat) (v : F) (positive : 0 < bins)
    (size : counts.length = bins) :
    ∃ next, count lo width bins counts v = .ok next ∧ next.length = bins := by
  have inside : min (Float64.toUsize ((v - lo) / width)) (bins - 1) < counts.length := by omega
  simp only [count]
  rw [List.getElem?_eq_getElem inside]
  exact ⟨_, rfl, by rw [List.length_set, size]⟩

theorem count_foldl_returns (lo width : F) (bins : Nat) (positive : 0 < bins) (vals : List F)
    (counts : List Nat) (size : counts.length = bins) :
    ∃ final, vals.foldlM (count lo width bins) counts = .ok final ∧ final.length = bins := by
  induction vals generalizing counts with
  | nil => exact ⟨counts, rfl, size⟩
  | cons v rest ih =>
    obtain ⟨next, counted, kept⟩ := count_returns lo width bins counts v positive size
    obtain ⟨final, finished, length⟩ := ih next kept
    exact ⟨final, by rw [List.foldlM_cons, counted]; exact finished, length⟩

theorem bucket_returns (vals : List F) (lo width : F) (bins : Nat) (positive : 0 < bins) :
    ∃ counts, bucket vals lo width bins = .ok counts ∧ counts.length = bins :=
  count_foldl_returns lo width bins positive vals _ List.length_replicate

/-- The quantile index is clamped, so only the sort can keep a quantile from returning. -/
theorem quantileManual_returns_iff (env : Env F) (ca : List (Option F)) (q : F) :
    (∃ value, quantileManual env ca q = .ok value) ↔
      present ca = [] ∨ ∃ sorted, env.sorter.run Float64.equalOrCmp (present ca) = .ok sorted := by
  unfold quantileManual
  cases vals : present ca with
  | nil => simp
  | cons v rest =>
    cases ran : env.sorter.run Float64.equalOrCmp (v :: rest) with
    | error fault => simp [bind, Except.bind, ran]
    | ok sorted =>
      have size := (env.sorter.keeps _ _ _ ran).length_eq
      rw [List.length_cons] at size
      have inside : ∀ idx, min idx (sorted.length - 1) < sorted.length := by omega
      simp [bind, Except.bind, ran, List.getElem?_eq_getElem (inside _), pure, Except.pure]

section AnySort

variable (env : Env F) (ca : List (Option F)) (q : F)

theorem quantileManual_returns (consistent : Float64.OrderConsistent (present ca)) :
    ∃ value, quantileManual env ca q = .ok value :=
  (quantileManual_returns_iff env ca q).mpr
    (.inr ⟨_, env.sorter.run_sortable ((Float64.sortable_equalOrCmp_iff _).mpr consistent)⟩)

theorem quantileManual_withSorter (sorter : Sorter F)
    (consistent : Float64.OrderConsistent (present ca)) :
    quantileManual (env.withSorter sorter) ca q = quantileManual env ca q := by
  have sortable := (Float64.sortable_equalOrCmp_iff _).mpr consistent
  simp only [quantileManual, Env.withSorter_sorter, Sorter.run_sortable _ sortable]

theorem quantileManual_consistent (value : Option F)
    (ran : quantileManual (env.withSorter (Sorter.strict F)) ca q = .ok value) :
    Float64.OrderConsistent (present ca) := by
  rcases (quantileManual_returns_iff _ ca q).mp ⟨value, ran⟩ with empty | ⟨sorted, ran⟩
  · rw [empty]; exact .inl nofun
  · exact (Float64.sortable_equalOrCmp_iff _).mp (Sorter.sortable_of_strict ran)

end AnySort

end StatGuardian.Stats
