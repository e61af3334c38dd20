import StatGuardian.Library.Results
import StatGuardian.Py.SchemaPatch

namespace StatGuardian.Py

open KeyedValues

theorem mem_breaking_iff (c : SchemaChange) (changes : List SchemaChange) :
    c ∈ breaking changes ↔ c ∈ changes ∧ c.severity = "error" := by
  rw [breaking, List.mem_filter, beq_iff_eq]

/-- With the default severities only a removed column breaks. -/
theorem breaking_default_iff (old new : Map String String) :
    breaking (schemaChanges old new "info" "error" "warning") ≠ [] ↔
      ∃ col, col ∈ old ∧ col ∉ new := by
  constructor
  · intro some_
    obtain ⟨c, member⟩ := List.exists_mem_of_ne_nil _ some_
    obtain ⟨inside, severe⟩ := (mem_breaking_iff c _).mp member
    rcases List.mem_append.mp inside with added | older
    · obtain ⟨col, dtype, _, _, rfl⟩ := (mem_addedColumns c).mp added
      exact absurd severe (show "info" ≠ "error" by decide)
    · obtain ⟨col, dtype, known, how⟩ := (mem_oldColumns c).mp older
      rcases how with ⟨gone, rfl⟩ | ⟨_, _, _, rfl⟩
      · exact ⟨col, known_of_get known,
          AList.lookup_eq_none.mp gone⟩
      · exact absurd severe (show "warning" ≠ "error" by decide)
  · intro ⟨col, there, gone⟩
    obtain ⟨dtype, known⟩ := exists_get there
    have removed : ⟨.removed, col, some dtype, none, "error"⟩ ∈
        old.entries.filterMap (oldColumnChange new "error" "warning") :=
      (mem_oldColumns _).mpr ⟨col, dtype, known, .inl ⟨AList.lookup_eq_none.mpr gone, rfl⟩⟩
    exact List.ne_nil_of_mem ((mem_breaking_iff _ _).mpr ⟨List.mem_append_right _ removed, rfl⟩)

section Gate

variable {T : Type} (polars : Bool) (str : T → String) (methods : StrMethods)

theorem assertNoBreakingChanges_raises_iff (current reference : Map String T) :
    (∃ exc, assertNoBreakingChanges polars str methods (.dict current) (.dict reference) =
        .error exc) ↔
      ∃ col, col ∈ mapValues str reference ∧ col ∉ mapValues str current := by
  rw [← breaking_default_iff]
  unfold assertNoBreakingChanges
  rw [detectSchemaChanges_dict]
  change (∃ exc, (if (breaking _).isEmpty then .ok () else Except.error _) = .error exc) ↔ _
  split
  · rename_i empty
    simp [List.isEmpty_iff.mp empty]
  · rename_i some_
    simp [List.isEmpty_iff.not.mp some_]

/-- The gate is as strict as it says unless columns were retyped and none was removed. -/
theorem assertNoBreakingChanges_strict_iff (current reference : Map String T) :
    ((∃ exc, assertNoBreakingChanges polars str methods (.dict current) (.dict reference) =
          .error exc) ↔
        ∃ col dtype, get (mapValues str reference) col = some dtype ∧
          get (mapValues str current) col ≠ some dtype) ↔
      (∃ col, col ∈ mapValues str reference ∧ col ∉ mapValues str current) ∨
        ∀ col dtype dtype', get (mapValues str reference) col = some dtype →
          get (mapValues str current) col = some dtype' → dtype = dtype' := by
  rw [assertNoBreakingChanges_raises_iff]
  generalize mapValues str reference = old
  generalize mapValues str current = new
  constructor
  · intro strict
    by_cases removed : ∃ col, col ∈ old ∧ col ∉ new
    · exact .inl removed
    · refine .inr ?_
      intro col dtype dtype' known kept
      by_contra differs
      refine removed (strict.mpr ⟨col, dtype, known, ?_⟩)
      rw [kept]
      exact fun same => differs (Option.some.inj same).symm
  · intro how
    constructor
    · intro ⟨col, there, gone⟩
      obtain ⟨dtype, known⟩ := exists_get there
      refine ⟨col, dtype, known, ?_⟩
      rw [KeyedValues.get, AList.lookup_eq_none.mpr gone]
      exact (Option.some_ne_none dtype).symm
    · intro ⟨col, dtype, known, differs⟩
      rcases how with removed | same
      · exact removed
      · have there : col ∈ old :=
          known_of_get known
        refine ⟨col, there, ?_⟩
        intro kept
        obtain ⟨dtype', found⟩ := exists_get kept
        exact differs (same col dtype dtype' known found ▸ found)

theorem assertNoBreakingChanges_misses_retyped :
    ¬ ((∃ exc, assertNoBreakingChanges true id ⟨id, id⟩ (.dict (AList.singleton "id" "Float64"))
          (.dict (AList.singleton "id" "Int64")) = .error exc) ↔
        ∃ col dtype, get (mapValues id (AList.singleton "id" "Int64")) col = some dtype ∧
          get (mapValues id (AList.singleton "id" "Float64")) col ≠ some dtype) := by
  intro strict
  rw [assertNoBreakingChanges_raises_iff] at strict
  obtain ⟨col, there, gone⟩ := strict.mpr ⟨"id", "Int64", by decide, by decide⟩
  exact gone there

theorem detectChanges_ok (payload : DetectChangesPayload T) (response : DetectedChanges)
    (answered : detectChanges polars str methods payload = .ok response) :
    response.changes = schemaChanges (mapValues str payload.reference)
        (mapValues str payload.current) payload.addedSeverity payload.removedSeverity
        payload.retypedSeverity ∧
      (response.breaking = true ↔ breaking response.changes ≠ []) := by
  unfold detectChanges at answered
  rw [detectSchemaChanges_dict] at answered
  simp only [Results.bind_ok_iff] at answered
  obtain ⟨_, _, _, _, _, _, changes, found, same⟩ := answered
  cases found
  cases same
  refine ⟨rfl, ?_⟩
  rw [List.any_eq_true]
  constructor
  · intro ⟨c, member, severe⟩
    exact List.ne_nil_of_mem ((mem_breaking_iff c _).mpr ⟨member, beq_iff_eq.mp severe⟩)
  · intro some_
    obtain ⟨c, member⟩ := List.exists_mem_of_ne_nil _ some_
    obtain ⟨inside, severe⟩ := (mem_breaking_iff c _).mp member
    exact ⟨c, inside, beq_iff_eq.mpr severe⟩

end Gate

end StatGuardian.Py
