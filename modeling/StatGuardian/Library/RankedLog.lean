import Mathlib.Data.List.MinMax

namespace RankedLog

variable {α β κ : Type*}

section Runs

/-- The last entry that several runs wrote is the last of the last run that wrote one. -/
theorem getLast?_flatMap_iff (written : β → List α) (runs : List β) (entry : α) :
    (runs.flatMap written).getLast? = some entry ↔ ∃ before run after,
      runs = before ++ run :: after ∧ (written run).getLast? = some entry ∧
        ∀ later ∈ after, written later = [] := by
  rw [List.getLast?_flatMap, List.findSome?_eq_some_iff]
  constructor
  · rintro ⟨after, run, before, split, last, none⟩
    refine ⟨before.reverse, run, after.reverse, ?_, last, ?_⟩
    · rw [← List.reverse_reverse runs, split]
      simp
    · intro later member
      exact List.getLast?_eq_none_iff.mp (none later (List.mem_reverse.mp member))
  · rintro ⟨before, run, after, rfl, last, none⟩
    refine ⟨after.reverse, run, before.reverse, by simp, last, ?_⟩
    intro later member
    rw [none later (List.mem_reverse.mp member)]
    rfl

end Runs

section Ranking

variable [LinearOrder κ] (key : α → κ)

def Growing (entries : List α) : Prop := entries.Pairwise fun a b => key a < key b

/-- The entry with `row_number() over (order by key desc) = 1`, where the database breaks ties as
    it likes. -/
structure Ranking where
  first : List α → Option α
  none_iff : ∀ entries, first entries = none ↔ entries = []
  greatest : ∀ entries entry, first entries = some entry →
    entry ∈ entries ∧ ∀ other ∈ entries, key other ≤ key entry

def Ranking.firstOfLargest : Ranking key where
  first := List.argmax key
  none_iff _ := List.argmax_eq_none
  greatest _ _ found := ⟨List.argmax_mem found, fun _ member => List.le_of_mem_argmax member found⟩

variable {key}

theorem Growing.filter {entries : List α} (growing : Growing key entries) (keep : α → Bool) :
    Growing key (entries.filter keep) :=
  List.Pairwise.sublist List.filter_sublist growing

theorem Growing.last {entries : List α} (growing : Growing key entries) {entry : α}
    (member : entry ∈ entries) (greatest : ∀ other ∈ entries, key other ≤ key entry) :
    entries.getLast? = some entry := by
  obtain ⟨before, after, rfl⟩ := List.append_of_mem member
  cases after with
  | nil => exact List.getLast?_concat
  | cons next rest =>
    obtain ⟨-, later, -⟩ := List.pairwise_append.mp growing
    have below := (List.pairwise_cons.mp later).1 next (List.mem_cons_self ..)
    have above := greatest next (by simp)
    exact absurd below (not_lt.mpr above)

/-- In a log with growing keys the first entry of the ranking is the last that was written. -/
theorem Ranking.first_eq_getLast? (ranking : Ranking key) {entries : List α}
    (growing : Growing key entries) : ranking.first entries = entries.getLast? := by
  cases found : ranking.first entries with
  | none => rw [(ranking.none_iff entries).mp found, List.getLast?_nil]
  | some entry =>
    obtain ⟨member, greatest⟩ := ranking.greatest entries entry found
    exact (growing.last member greatest).symm

end Ranking

end RankedLog
