import StatGuardian.Library.LastPart

namespace RelativePath

def parts (path : List Char) : List (List Char) :=
  (path.splitOnP (· == '/')).filter fun part => part != [] && part != ['.']

def collapse (path : String) : String :=
  String.ofList (List.intercalate ['/'] (parts path.toList))

example : collapse "./a//b/./c.md" = "a/b/c.md" := by decide

def Descends (path : String) : Prop :=
  path.toList.head? ≠ some '/' ∧ ['.', '.'] ∉ parts path.toList

instance (path : String) : Decidable (Descends path) := inferInstanceAs (Decidable (_ ∧ _))

theorem splitOnP_flat {part : List Char} (flat : '/' ∉ part) :
    part.splitOnP (· == '/') = [part] := by
  apply List.splitOnP_eq_singleton
  intro c inside
  apply beq_eq_false_iff_ne.mpr
  intro same
  exact flat (same ▸ inside)

theorem mem_parts {path part : List Char} (member : part ∈ parts path) :
    '/' ∉ part ∧ part ≠ [] ∧ part ≠ ['.'] := by
  obtain ⟨found, kept⟩ := List.mem_filter.mp member
  rw [Bool.and_eq_true, bne_iff_ne, bne_iff_ne] at kept
  refine ⟨?_, kept⟩
  intro inside
  have cut := LastPart.splitOnP_parts (· == '/') path part found '/' inside
  cases cut

theorem parts_single {part : List Char} (flat : '/' ∉ part) (empty : part ≠ [])
    (dot : part ≠ ['.']) : parts part = [part] := by
  rw [parts, splitOnP_flat flat, List.filter_cons_of_pos (by simp [empty, dot]), List.filter_nil]

theorem parts_append_cons (before after : List Char) :
    parts (before ++ '/' :: after) = parts before ++ parts after := by
  rw [parts, List.splitOnP_append_cons (p := (· == '/')) before after (beq_self_eq_true '/'),
    List.filter_append]
  rfl

theorem parts_intercalate (names : List (List Char))
    (kept : ∀ name ∈ names, '/' ∉ name ∧ name ≠ [] ∧ name ≠ ['.']) :
    parts (List.intercalate ['/'] names) = names := by
  induction names with
  | nil => rfl
  | cons name rest ih =>
    have here := kept name (List.mem_cons_self ..)
    have single := parts_single here.1 here.2.1 here.2.2
    cases rest with
    | nil => rw [List.intercalate_singleton, single]
    | cons next rest =>
      rw [List.intercalate_cons_cons, List.append_assoc, List.singleton_append, parts_append_cons,
        single, ih (fun other member => kept other (List.mem_cons_of_mem _ member)),
        List.singleton_append]

theorem parts_collapse (path : String) : parts (collapse path).toList = parts path.toList := by
  rw [collapse, String.toList_ofList]
  exact parts_intercalate _ (fun _ => mem_parts)

theorem collapse_single {path : String} (flat : '/' ∉ path.toList) (empty : path.toList ≠ [])
    (dot : path.toList ≠ ['.']) : collapse path = path := by
  rw [collapse, parts_single flat empty dot, List.intercalate_singleton, String.ofList_toList]

theorem splitOnP_append (before after : List Char) (flat : '/' ∉ after) :
    ∃ init front, (before ++ after).splitOnP (· == '/') = init ++ [front ++ after] := by
  induction before with
  | nil => exact ⟨[], [], splitOnP_flat flat⟩
  | cons c before ih =>
    obtain ⟨init, front, same⟩ := ih
    rw [List.cons_append, List.splitOnP_cons_eq_if_modifyHead, same]
    split
    · exact ⟨[] :: init, front, rfl⟩
    · cases init with
      | nil => exact ⟨[], c :: front, rfl⟩
      | cons head init => exact ⟨(c :: head) :: init, front, rfl⟩

theorem getLast_parts_append (before after : List Char) (flat : '/' ∉ after) (empty : after ≠ [])
    (dots : after.getLast? ≠ some '.') :
    ∃ front, (parts (before ++ after)).getLast? = some (front ++ after) := by
  obtain ⟨init, front, same⟩ := splitOnP_append before after flat
  have some_ : front ++ after ≠ [] := List.append_ne_nil_of_right_ne_nil _ empty
  have named : front ++ after ≠ ['.'] := by
    intro dot
    have last := congrArg List.getLast? dot
    rw [List.getLast?_append_of_ne_nil _ empty] at last
    exact dots last
  have kept : [front ++ after].filter (fun part => part != [] && part != ['.']) =
      [front ++ after] := by
    simp only [List.filter_cons, List.filter_nil, bne_iff_ne.mpr some_, bne_iff_ne.mpr named,
      Bool.and_self, if_true]
  refine ⟨front, ?_⟩
  rw [parts, same, List.filter_append, kept, List.getLast?_concat]

end RelativePath
