import StatGuardian.Py.SchemaEvolution

namespace StatGuardian.Py

open KeyedValues

def SchemaChange.toChange (c : SchemaChange) : MapDiff.Change String String :=
  ⟨c.column, c.oldDtype, c.newDtype⟩

section Changes

variable {old new : Map String String} {addedSeverity removedSeverity retypedSeverity : String}

theorem mem_addedColumns (c : SchemaChange) :
    c ∈ addedColumns old new addedSeverity ↔
      ∃ col dtype, get new col = some dtype ∧ get old col = none ∧
        c = { changeType := .added, column := col, newDtype := some dtype,
              severity := addedSeverity } := by
  unfold addedColumns
  rw [List.mem_filterMap]
  constructor
  · intro ⟨⟨col, dtype⟩, member, made⟩
    split at made
    · cases made
    · rename_i fresh
      exact ⟨col, dtype, AList.mem_lookup_iff.mpr member, AList.lookup_eq_none.mpr fresh,
        (Option.some.inj made).symm⟩
  · intro ⟨col, dtype, known, fresh, same⟩
    refine ⟨⟨col, dtype⟩, mem_of_get known, ?_⟩
    rw [if_neg (AList.lookup_eq_none.mp fresh), same]

theorem mem_oldColumns (c : SchemaChange) :
    c ∈ old.entries.filterMap (oldColumnChange new removedSeverity retypedSeverity) ↔
      ∃ col dtype, get old col = some dtype ∧
        ((get new col = none ∧
            c = { changeType := .removed, column := col, oldDtype := some dtype,
                  severity := removedSeverity }) ∨
          ∃ dtype', get new col = some dtype' ∧ dtype ≠ dtype' ∧
            c = { changeType := .retyped, column := col, oldDtype := some dtype,
                  newDtype := some dtype', severity := retypedSeverity }) := by
  rw [List.mem_filterMap]
  constructor
  · intro ⟨⟨col, dtype⟩, member, made⟩
    refine ⟨col, dtype, AList.mem_lookup_iff.mpr member, ?_⟩
    unfold oldColumnChange at made
    split at made
    · rename_i gone
      exact .inl ⟨gone, (Option.some.inj made).symm⟩
    · rename_i dtype' kept
      split at made
      · rename_i differs
        exact .inr ⟨dtype', kept, differs, (Option.some.inj made).symm⟩
      · cases made
  · intro ⟨col, dtype, known, how⟩
    refine ⟨⟨col, dtype⟩, mem_of_get known, ?_⟩
    unfold oldColumnChange
    rcases how with ⟨gone, same⟩ | ⟨dtype', kept, differs, same⟩
    · rw [gone, same]
    · rw [kept, same]
      exact if_pos differs

theorem columns_sublist (m : Map String String)
    (report : (Sigma fun _ : String => String) → Option SchemaChange)
    (named : ∀ entry c, report entry = some c → c.column = entry.1) :
    ((m.entries.filterMap report).map SchemaChange.column).Sublist m.keys := by
  change List.Sublist _ (m.entries.map Sigma.fst)
  generalize m.entries = entries
  induction entries with
  | nil => exact .slnil
  | cons entry rest ih =>
    rw [List.filterMap_cons]
    cases made : report entry with
    | none => exact ih.cons _
    | some c =>
      rw [List.map_cons, List.map_cons, named entry c made]
      exact ih.cons_cons _

theorem nodup_columns :
    ((schemaChanges old new addedSeverity removedSeverity retypedSeverity).map
      SchemaChange.column).Nodup := by
  rw [schemaChanges, List.map_append, List.nodup_append]
  refine ⟨?_, ?_, ?_⟩
  · refine (columns_sublist new _ ?_).nodup new.nodupKeys
    intro entry c made
    split at made
    · cases made
    · cases made
      rfl
  · refine (columns_sublist old _ ?_).nodup old.nodupKeys
    intro entry c made
    unfold oldColumnChange at made
    split at made
    · cases made
      rfl
    · split at made
      · cases made
        rfl
      · cases made
  · intro added inside kept within
    obtain ⟨c, member, rfl⟩ := List.mem_map.mp inside
    obtain ⟨d, other, rfl⟩ := List.mem_map.mp within
    obtain ⟨_, _, _, fresh, rfl⟩ := (mem_addedColumns c).mp member
    obtain ⟨col, dtype, known, how⟩ := (mem_oldColumns d).mp other
    intro same
    rcases how with ⟨_, rfl⟩ | ⟨_, _, _, rfl⟩
    · cases same
      rw [fresh] at known
      cases known
    · cases same
      rw [fresh] at known
      cases known

theorem dtypes_of_mem (c : SchemaChange)
    (member : c ∈ schemaChanges old new addedSeverity removedSeverity retypedSeverity) :
    c.oldDtype = get old c.column ∧ c.newDtype = get new c.column ∧
      get old c.column ≠ get new c.column := by
  rcases List.mem_append.mp member with added | older
  · obtain ⟨col, dtype, known, fresh, rfl⟩ := (mem_addedColumns c).mp added
    simp [known, fresh]
  · obtain ⟨col, dtype, known, how⟩ := (mem_oldColumns c).mp older
    rcases how with ⟨gone, rfl⟩ | ⟨dtype', kept, differs, rfl⟩
    · simp [known, gone]
    · simp [known, kept, differs]

theorem exists_change_of_ne (col : String) (differs : get old col ≠ get new col) :
    ∃ c ∈ schemaChanges old new addedSeverity removedSeverity retypedSeverity, c.column = col := by
  cases known : get old col with
  | none =>
    cases kept : get new col with
    | none => exact absurd (known.trans kept.symm) differs
    | some dtype =>
      exact ⟨_, List.mem_append_left _
        ((mem_addedColumns _).mpr ⟨col, dtype, kept, known, rfl⟩), rfl⟩
  | some dtype =>
    cases kept : get new col with
    | none =>
      exact ⟨_, List.mem_append_right _
        ((mem_oldColumns _).mpr ⟨col, dtype, known, .inl ⟨kept, rfl⟩⟩), rfl⟩
    | some dtype' =>
      have apart : dtype ≠ dtype' := by
        intro same
        exact differs (by rw [known, kept, same])
      exact ⟨_, List.mem_append_right _
        ((mem_oldColumns _).mpr ⟨col, dtype, known, .inr ⟨dtype', kept, apart, rfl⟩⟩), rfl⟩

/-- The changes are the columns on which the schemas differ, with what both hold there. -/
theorem describes_schemaChanges (old new : Map String String)
    (addedSeverity removedSeverity retypedSeverity : String) :
    MapDiff.Describes old new
      ((schemaChanges old new addedSeverity removedSeverity retypedSeverity).map
        SchemaChange.toChange) where
  once := by
    rw [List.map_map]
    exact nodup_columns
  exact_ := by
    intro x
    rw [List.mem_map]
    constructor
    · intro ⟨c, member, same⟩
      subst same
      exact dtypes_of_mem c member
    · obtain ⟨col, before, after⟩ := x
      intro ⟨held, holds, differs⟩
      have named : ∃ c ∈ schemaChanges old new addedSeverity removedSeverity retypedSeverity,
          c.column = col := exists_change_of_ne col differs
      obtain ⟨c, member, rfl⟩ := named
      obtain ⟨was, becomes, _⟩ := dtypes_of_mem c member
      refine ⟨c, member, ?_⟩
      rw [SchemaChange.toChange, was, becomes, MapDiff.Change.mk.injEq]
      exact ⟨rfl, held.symm, holds.symm⟩

end Changes

def ChangeType.inverse : ChangeType → ChangeType
  | .added => .removed
  | .removed => .added
  | .retyped => .retyped

def severityOf (addedSeverity removedSeverity retypedSeverity : String) : ChangeType → String
  | .added => addedSeverity
  | .removed => removedSeverity
  | .retyped => retypedSeverity

section Patches

variable (old new : Map String String) (addedSeverity removedSeverity retypedSeverity : String)

def SchemaChange.inverse (c : SchemaChange) : SchemaChange where
  changeType := c.changeType.inverse
  column := c.column
  oldDtype := c.newDtype
  newDtype := c.oldDtype
  severity := severityOf addedSeverity removedSeverity retypedSeverity c.changeType.inverse

def applyChange (schema : Map String String) (c : SchemaChange) : Map String String :=
  match c.changeType with
  | .added => c.newDtype.elim schema (schema.insert c.column)
  | .removed => schema.erase c.column
  | .retyped => c.newDtype.elim schema (schema.insert c.column)

/-- A change as the differences in it tell it. -/
def ofChange (x : MapDiff.Change String String) : SchemaChange where
  changeType := if x.before = none then .added else if x.after = none then .removed else .retyped
  column := x.key
  oldDtype := x.before
  newDtype := x.after
  severity := severityOf addedSeverity removedSeverity retypedSeverity
    (if x.before = none then .added else if x.after = none then .removed else .retyped)

theorem schemaChange_cases (c : SchemaChange)
    (member : c ∈ schemaChanges old new addedSeverity removedSeverity retypedSeverity) :
    (∃ col dtype, c = ⟨.added, col, none, some dtype, addedSeverity⟩) ∨
      (∃ col dtype, c = ⟨.removed, col, some dtype, none, removedSeverity⟩) ∨
      ∃ col dtype dtype', c = ⟨.retyped, col, some dtype, some dtype', retypedSeverity⟩ := by
  rcases List.mem_append.mp member with added | older
  · obtain ⟨col, dtype, _, _, same⟩ := (mem_addedColumns c).mp added
    exact .inl ⟨col, dtype, same⟩
  · obtain ⟨col, dtype, _, how⟩ := (mem_oldColumns c).mp older
    rcases how with ⟨_, same⟩ | ⟨dtype', _, _, same⟩
    · exact .inr (.inl ⟨col, dtype, same⟩)
    · exact .inr (.inr ⟨col, dtype, dtype', same⟩)

theorem ofChange_toChange (c : SchemaChange)
    (member : c ∈ schemaChanges old new addedSeverity removedSeverity retypedSeverity) :
    ofChange addedSeverity removedSeverity retypedSeverity c.toChange = c := by
  rcases schemaChange_cases old new _ _ _ c member with ⟨_, _, rfl⟩ | ⟨_, _, rfl⟩ | ⟨_, _, _, rfl⟩
  · rfl
  · rfl
  · rfl

theorem ofChange_swap (c : SchemaChange)
    (member : c ∈ schemaChanges old new addedSeverity removedSeverity retypedSeverity) :
    ofChange addedSeverity removedSeverity retypedSeverity c.toChange.swap =
      c.inverse addedSeverity removedSeverity retypedSeverity := by
  rcases schemaChange_cases old new _ _ _ c member with ⟨_, _, rfl⟩ | ⟨_, _, rfl⟩ | ⟨_, _, _, rfl⟩
  · rfl
  · rfl
  · rfl

theorem applyChange_eq (c : SchemaChange)
    (member : c ∈ schemaChanges old new addedSeverity removedSeverity retypedSeverity)
    (schema : Map String String) :
    applyChange schema c = Replay.apply schema c.toChange.op := by
  rcases schemaChange_cases old new _ _ _ c member with ⟨_, _, rfl⟩ | ⟨_, _, rfl⟩ | ⟨_, _, _, rfl⟩
  · rfl
  · rfl
  · rfl

theorem foldl_applyChange (schema : Map String String) :
    (schemaChanges old new addedSeverity removedSeverity retypedSeverity).foldl applyChange schema =
      MapDiff.patch ((schemaChanges old new addedSeverity removedSeverity retypedSeverity).map
        SchemaChange.toChange) schema := by
  rw [MapDiff.patch, List.foldl_map]
  exact List.foldl_ext _ _ schema
    (fun schema c member => applyChange_eq old new _ _ _ c member schema)

theorem schemaChanges_swap :
    (schemaChanges new old addedSeverity removedSeverity retypedSeverity).Perm
      ((schemaChanges old new addedSeverity removedSeverity retypedSeverity).map
        (SchemaChange.inverse addedSeverity removedSeverity retypedSeverity)) := by
  have swapped := (describes_schemaChanges new old addedSeverity removedSeverity
    retypedSeverity).perm (describes_schemaChanges old new addedSeverity removedSeverity
    retypedSeverity).swap
  have told := swapped.map (ofChange addedSeverity removedSeverity retypedSeverity)
  rw [List.map_map, List.map_map, List.map_map] at told
  have back : (schemaChanges new old addedSeverity removedSeverity retypedSeverity).map
      (ofChange addedSeverity removedSeverity retypedSeverity ∘ SchemaChange.toChange) =
        schemaChanges new old addedSeverity removedSeverity retypedSeverity :=
    (List.map_congr_left (ofChange_toChange new old _ _ _)).trans (List.map_id _)
  have inverse : (schemaChanges old new addedSeverity removedSeverity retypedSeverity).map
      ((ofChange addedSeverity removedSeverity retypedSeverity ∘ MapDiff.Change.swap) ∘
        SchemaChange.toChange) =
      (schemaChanges old new addedSeverity removedSeverity retypedSeverity).map
        (SchemaChange.inverse addedSeverity removedSeverity retypedSeverity) :=
    List.map_congr_left (ofChange_swap old new _ _ _)
  rwa [back, inverse] at told

/-- What the changes from one schema to another are to each schema and to the changes back. -/
structure PatchLaw (changes back : List SchemaChange) : Prop where
  applied : ∀ col, get (changes.foldl applyChange old) col = get new col
  once : (changes.map SchemaChange.column).Nodup
  changed : ∀ c ∈ changes, get old c.column ≠ get new c.column
  inverse : back.Perm
    (changes.map (SchemaChange.inverse addedSeverity removedSeverity retypedSeverity))

theorem schemaChanges_patchLaw :
    PatchLaw old new addedSeverity removedSeverity retypedSeverity
      (schemaChanges old new addedSeverity removedSeverity retypedSeverity)
      (schemaChanges new old addedSeverity removedSeverity retypedSeverity) where
  applied := by
    intro col
    rw [foldl_applyChange]
    exact MapDiff.get_patch (describes_schemaChanges old new _ _ _) col
  once := nodup_columns
  changed := by
    intro c member
    exact (dtypes_of_mem c member).2.2
  inverse := schemaChanges_swap old new _ _ _

end Patches

section Sources

variable {T : Type} (polars : Bool) (str : T → String) (current reference : Map String T)

theorem detectSchemaChanges_dict (addedSeverity removedSeverity retypedSeverity : String) :
    detectSchemaChanges polars str (.dict current) (.dict reference) addedSeverity removedSeverity
        retypedSeverity =
      .ok (schemaChanges (mapValues str reference) (mapValues str current) addedSeverity
        removedSeverity retypedSeverity) := by
  unfold detectSchemaChanges
  rw [SchemaSource.isDict, Bool.not_true, Bool.and_false]
  rfl

theorem detectSchemaChanges_isPatch (addedSeverity removedSeverity retypedSeverity : String) :
    ∃ changes back,
      detectSchemaChanges polars str (.dict current) (.dict reference) addedSeverity
        removedSeverity retypedSeverity = .ok changes ∧
      detectSchemaChanges polars str (.dict reference) (.dict current) addedSeverity
        removedSeverity retypedSeverity = .ok back ∧
      PatchLaw (mapValues str reference) (mapValues str current) addedSeverity removedSeverity
        retypedSeverity changes back :=
  ⟨_, _, detectSchemaChanges_dict polars str current reference _ _ _,
    detectSchemaChanges_dict polars str reference current _ _ _,
    schemaChanges_patchLaw _ _ _ _ _⟩

end Sources

end StatGuardian.Py
