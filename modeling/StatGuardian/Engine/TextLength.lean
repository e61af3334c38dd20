import StatGuardian.Engine.RowReports
import StatGuardian.Runtime.Text

namespace StatGuardian.Engine

open StatGuardian.Core Polars Validators

section Lengths

variable {F : Type} [Float64 F]

def LengthOutside (min max : Nat) (s : String) : Prop := s.length < min ∨ max < s.length

/-- A text that is long enough in bytes and too short in characters. -/
def ShortButPasses (min max : Nat) (s : String) : Prop :=
  s.length < min ∧ min ≤ s.utf8ByteSize ∧ s.utf8ByteSize ≤ max

/-- A text that is within the bounds in characters and too long in bytes. -/
def FitsButFails (min max : Nat) (s : String) : Prop :=
  min ≤ s.length ∧ s.length ≤ max ∧ max < s.utf8ByteSize

theorem bytes_outside_iff (min max : Nat) (s : String) :
    ((s.utf8ByteSize < min ∨ max < s.utf8ByteSize) ↔ LengthOutside min max s) ↔
      ¬ ShortButPasses min max s ∧ ¬ FitsButFails min max s := by
  have bytes := Text.length_le_utf8ByteSize s
  unfold LengthOutside ShortButPasses FitsButFails
  omega

/-- The bounds of a length are counted in bytes, so characters decide exactly where no text is short
    but passes or fits but fails. -/
theorem len_reported_iff (env : Env F) (df : DataFrame F) (column : String) (col : Column F)
    (found : df.column column = some col) (cells : List (Option String))
    (strings : col.asMaterializedSeries.str = some cells) (min max : Nat) :
    (∀ i, BothReport env df col.asMaterializedSeries column (.len min max) i
        (∃ s, cells[i]? = some (some s) ∧ LengthOutside min max s)) ↔
      ∀ s, some s ∈ cells → ¬ ShortButPasses min max s ∧ ¬ FitsButFails min max s := by
  have reports : ∀ i, (∃ v, SchemaValidator.checkConstraint env col.asMaterializedSeries column
      (.len min max) = some v ∧ i ∈ v.rowIndices) ↔
      ∃ s, cells[i]? = some (some s) ∧ (s.utf8ByteSize < min ∨ max < s.utf8ByteSize) := by
    intro i
    simp only [SchemaValidator.checkConstraint, strings, Option.bind_eq_bind, Option.bind_some,
      failing_reports_iff, Bool.or_eq_true, decide_eq_true_eq]
  have other : (Constraint.len min max : Constraint F) ≠ .unique := by
    intro same
    cases same
  simp only [bothReport_iff found (c := .len min max) rfl other, reports]
  constructor
  · intro exact_ s member
    obtain ⟨i, inside, here⟩ := List.mem_iff_getElem.mp member
    have own := exact_ i
    simp only [List.getElem?_eq_getElem inside, here, Option.some.injEq, exists_eq_left'] at own
    exact (bytes_outside_iff min max s).mp own
  · intro clear i
    refine exists_congr fun s => and_congr_right fun here => ?_
    exact (bytes_outside_iff min max s).mpr (clear s (List.mem_of_getElem? here))

end Lengths

section Names

def named (names : List (Option String)) : Column ExtRat := .series "name" ⟨.string, names⟩

def people (names : List (Option String)) : DataFrame ExtRat where
  height := names.length
  columns := [named names]
  aligned := by simp [named, Column.len, Series.len]
  distinct := List.nodup_singleton _

/-- Two or three characters: one passes as two bytes, three fail as six. -/
theorem accents_miscounted :
    ¬ ∀ i, BothReport exactEnv (people [some "é", some "ééé"])
      (named [some "é", some "ééé"]).asMaterializedSeries "name" (.len 2 3) i
      (∃ s, [some "é", some "ééé"][i]? = some (some s) ∧ LengthOutside 2 3 s) := by
  intro exact_
  obtain ⟨v, reports, listed⟩ := (exact_ 0).schema.mpr ⟨"é", rfl, .inl (by decide)⟩
  have only : rowViolation "name" "len" .error
      (fun n => s!"{n} value(s) with length outside [2,3] in 'name'") [1] = some v := reports
  obtain ⟨-, rfl⟩ := (rowViolation_eq_some ..).mp only
  exact absurd listed (by decide)

theorem len_reported_iff_ascii :
    BothReport exactEnv (people [some "ab", none, some "long"])
      (named [some "ab", none, some "long"]).asMaterializedSeries "name" (.len 2 3) 2
      (∃ s, [some "ab", none, some "long"][2]? = some (some s) ∧ LengthOutside 2 3 s) := by
  refine (len_reported_iff exactEnv (people [some "ab", none, some "long"]) "name" _ rfl _ rfl
    2 3).mpr ?_ 2
  intro s member
  simp only [List.mem_cons, Option.some.injEq, reduceCtorEq, List.not_mem_nil, or_false, false_or]
    at member
  rcases member with rfl | rfl
  · exact ⟨by unfold ShortButPasses; decide, by unfold FitsButFails; decide⟩
  · exact ⟨by unfold ShortButPasses; decide, by unfold FitsButFails; decide⟩

end Names

end StatGuardian.Engine
