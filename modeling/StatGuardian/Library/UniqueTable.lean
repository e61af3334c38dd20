import Mathlib.Data.List.Nodup
import Mathlib.Data.List.Perm.Basic

/-- A table with uniqueness constraints. `clash` says that two rows agree on the columns of one of
    the constraints, so no two rows of a table clash. -/
structure UniqueTable (α : Type*) (clash : α → α → Bool) where
  rows : List α
  apart : rows.Pairwise (fun a b => clash a b = false)

namespace UniqueTable

variable {α : Type*} {clash : α → α → Bool}

def empty : UniqueTable α clash := ⟨[], List.Pairwise.nil⟩

/-- `INSERT OR REPLACE`: every row that clashes with the new one goes, whichever constraint they
    share. -/
def insertOrReplace (table : UniqueTable α clash) (row : α) : UniqueTable α clash where
  rows := table.rows.filter (fun r => !clash r row) ++ [row]
  apart := by
    rw [List.pairwise_append]
    refine ⟨table.apart.sublist List.filter_sublist, List.pairwise_singleton _ _, ?_⟩
    intro a member b last
    rw [List.mem_singleton] at last
    subst b
    simpa using (List.mem_filter.mp member).2

def insertAll (table : UniqueTable α clash) (rows : List α) : UniqueTable α clash :=
  rows.foldl insertOrReplace table

/-- The row is one of those inserted, and no later one replaces it. -/
def Survives (clash : α → α → Bool) (rows : List α) (row : α) : Prop :=
  ∃ before after, rows = before ++ row :: after ∧ ∀ later ∈ after, clash row later = false

@[simp] theorem rows_empty : (empty : UniqueTable α clash).rows = [] := rfl

@[simp] theorem insertAll_nil (table : UniqueTable α clash) : table.insertAll [] = table := rfl

@[simp] theorem insertAll_cons (table : UniqueTable α clash) (row : α) (rows : List α) :
    table.insertAll (row :: rows) = (table.insertOrReplace row).insertAll rows := rfl

theorem mem_insertOrReplace (table : UniqueTable α clash) (row r : α) :
    r ∈ (table.insertOrReplace row).rows ↔ (r ∈ table.rows ∧ clash r row = false) ∨ r = row := by
  simp [insertOrReplace]

theorem filter_insertOrReplace (table : UniqueTable α clash) (row : α) (p : α → Bool)
    (other : p row = false) (kept : ∀ r ∈ table.rows, p r = true → clash r row = false) :
    (table.insertOrReplace row).rows.filter p = table.rows.filter p := by
  have none : [row].filter p = [] := by simp [other]
  rw [insertOrReplace, List.filter_append, none, List.append_nil, List.filter_filter]
  apply List.filter_congr
  intro r member
  cases picked : p r with
  | false => rfl
  | true => simp [kept r member picked]

theorem survives_nil (row : α) : ¬ Survives clash [] row := by
  rintro ⟨before, after, split, -⟩
  exact List.append_ne_nil_of_right_ne_nil before (List.cons_ne_nil row after) split.symm

theorem survives_cons (first row : α) (rows : List α) :
    Survives clash (first :: rows) row ↔
      Survives clash rows row ∨ (row = first ∧ ∀ later ∈ rows, clash row later = false) := by
  constructor
  · rintro ⟨before, after, split, last⟩
    cases before with
    | nil =>
      rw [List.nil_append, List.cons.injEq] at split
      rw [← split.2] at last
      exact .inr ⟨split.1.symm, last⟩
    | cons head before =>
      rw [List.cons_append, List.cons.injEq] at split
      exact .inl ⟨before, after, split.2, last⟩
  · rintro (⟨before, after, split, last⟩ | ⟨rfl, last⟩)
    · exact ⟨first :: before, after, by rw [split, List.cons_append], last⟩
    · exact ⟨[], rows, rfl, last⟩

theorem survives_append_singleton (rows : List α) (last row : α) :
    Survives clash (rows ++ [last]) row ↔
      row = last ∨ (Survives clash rows row ∧ clash row last = false) := by
  constructor
  · rintro ⟨before, after, split, free⟩
    rcases List.eq_nil_or_concat after with rfl | ⟨after, final, rfl⟩
    · exact .inl (List.append_inj' split rfl |>.2 |> List.cons.inj |>.1).symm
    · rw [List.concat_eq_append, ← List.cons_append, ← List.append_assoc] at split
      obtain ⟨front, same⟩ := List.append_inj' split rfl
      rw [List.concat_eq_append, List.forall_mem_append, List.forall_mem_singleton] at free
      rw [← (List.cons.inj same).1] at free
      exact .inr ⟨⟨before, after, front, free.1⟩, free.2⟩
  · rintro (rfl | ⟨⟨before, after, split, free⟩, apart⟩)
    · exact ⟨rows, [], rfl, by simp⟩
    · refine ⟨before, after ++ [last], by simp [split], ?_⟩
      rw [List.forall_mem_append, List.forall_mem_singleton]
      exact ⟨free, apart⟩

theorem Survives.mem {rows : List α} {row : α} (survives : Survives clash rows row) :
    row ∈ rows := by
  obtain ⟨before, after, split, -⟩ := survives
  simp [split]

theorem mem_insertAll (table : UniqueTable α clash) (rows : List α) (r : α) :
    r ∈ (table.insertAll rows).rows ↔
      Survives clash rows r ∨ (r ∈ table.rows ∧ ∀ row ∈ rows, clash r row = false) := by
  induction rows generalizing table with
  | nil => simp [survives_nil]
  | cons row rows ih =>
    rw [insertAll_cons, ih, mem_insertOrReplace, survives_cons]
    simp only [List.forall_mem_cons]
    constructor
    · rintro (later | ⟨⟨old, first⟩ | rfl, rest⟩)
      · exact .inl (.inl later)
      · exact .inr ⟨old, first, rest⟩
      · exact .inl (.inr ⟨rfl, rest⟩)
    · rintro ((later | ⟨rfl, rest⟩) | ⟨old, first, rest⟩)
      · exact .inl later
      · exact .inr ⟨.inr rfl, rest⟩
      · exact .inr ⟨.inl ⟨old, first⟩, rest⟩

theorem filter_insertAll (table : UniqueTable α clash) (rows : List α) (p : α → Bool)
    (other : ∀ row ∈ rows, p row = false)
    (kept : ∀ r ∈ table.rows, p r = true → ∀ row ∈ rows, clash r row = false) :
    (table.insertAll rows).rows.filter p = table.rows.filter p := by
  induction rows generalizing table with
  | nil => rfl
  | cons row rows ih =>
    obtain ⟨first, rest⟩ := List.forall_mem_cons.mp other
    rw [insertAll_cons, ih (table.insertOrReplace row) rest, filter_insertOrReplace]
    · exact first
    · intro r member picked
      exact kept r member picked row List.mem_cons_self
    · intro r member picked later inside
      rcases (mem_insertOrReplace table row r).mp member with old | rfl
      · exact kept r old.1 picked later (List.mem_cons_of_mem _ inside)
      · exact absurd (picked.symm.trans first) (by decide)

theorem survives_of_pairwise (rows : List α)
    (apart : rows.Pairwise (fun a b => clash a b = false)) (row : α) :
    Survives clash rows row ↔ row ∈ rows := by
  refine ⟨Survives.mem, fun member => ?_⟩
  obtain ⟨before, after, split⟩ := List.append_of_mem member
  rw [split, List.pairwise_append, List.pairwise_cons] at apart
  exact ⟨before, after, split, apart.2.1.1⟩

section Keys

variable {κ : Type*} (key : α → κ) (unique : ∀ a b, key a = key b → clash a b = true)
include unique

theorem nodup_keys (table : UniqueTable α clash) : (table.rows.map key).Nodup := by
  rw [List.Nodup, List.pairwise_map]
  apply table.apart.imp
  intro a b free same
  exact Bool.false_ne_true (free.symm.trans (unique a b same))

theorem eq_of_key (table : UniqueTable α clash) {a b : α} (left : a ∈ table.rows)
    (right : b ∈ table.rows) (same : key a = key b) : a = b :=
  List.inj_on_of_nodup_map (nodup_keys key unique table) left right same

theorem nodup_rows (table : UniqueTable α clash) : table.rows.Nodup :=
  List.Nodup.of_map key (nodup_keys key unique table)

variable [DecidableEq κ]

theorem find_row_iff (table : UniqueTable α clash) (value : κ) (row : α) :
    table.rows.find? (fun r => key r = value) = some row ↔
      row ∈ table.rows ∧ key row = value := by
  constructor
  · intro found
    exact ⟨List.mem_of_find?_eq_some found, by simpa using List.find?_some found⟩
  · rintro ⟨member, keyed⟩
    cases found : table.rows.find? (fun r => key r = value) with
    | none => simpa [keyed] using List.find?_eq_none.mp found row member
    | some r =>
      have same : key r = value := by simpa using List.find?_some found
      rw [eq_of_key key unique table (List.mem_of_find?_eq_some found) member
        (same.trans keyed.symm)]

end Keys

section Views

variable {β κ : Type*} (view : α → β) (key : α → κ)
variable (unique : ∀ a b, key a = key b → clash a b = true)
variable (keyed : ∀ a b, view a = view b → key a = key b)

theorem exists_survivor (rows : List α)
    (only : ∀ a ∈ rows, ∀ b ∈ rows, clash a b = true → key a = key b) (row : α)
    (member : row ∈ rows) : ∃ last, Survives clash rows last ∧ key last = key row := by
  induction rows generalizing row with
  | nil => cases member
  | cons first rows ih =>
    have inner : ∀ a ∈ rows, ∀ b ∈ rows, clash a b = true → key a = key b :=
      fun a left b right =>
        only a (List.mem_cons_of_mem _ left) b (List.mem_cons_of_mem _ right)
    have later : ∀ next ∈ rows, ∃ last, Survives clash (first :: rows) last ∧
        key last = key next := by
      intro next inside
      obtain ⟨last, survives, same⟩ := ih inner next inside
      exact ⟨last, (survives_cons first last rows).mpr (.inl survives), same⟩
    rcases List.mem_cons.mp member with rfl | inside
    · by_cases replaced : ∃ next ∈ rows, clash row next = true
      · obtain ⟨next, inside, clashes⟩ := replaced
        obtain ⟨last, survives, same⟩ := later next inside
        exact ⟨last, survives, same.trans (only row List.mem_cons_self next
          (List.mem_cons_of_mem _ inside) clashes).symm⟩
      · refine ⟨row, (survives_cons row row rows).mpr (.inr ⟨rfl, ?_⟩), rfl⟩
        intro next inside
        rw [← Bool.not_eq_true]
        exact fun clashes => replaced ⟨next, inside, clashes⟩
    · exact later row inside

include unique keyed

theorem nodup_views (table : UniqueTable α clash) : (table.rows.map view).Nodup := by
  rw [List.Nodup, List.pairwise_map]
  apply table.apart.imp
  intro a b free same
  exact Bool.false_ne_true (free.symm.trans (unique a b (keyed a b same)))

/-- Insertions show nothing new exactly when every row they leave was shown before. -/
theorem views_insertAll_iff (table : UniqueTable α clash) (rows : List α)
    (only : ∀ a ∈ rows, ∀ b ∈ rows, clash a b = true → key a = key b)
    (fresh : ∀ r ∈ table.rows, ∀ row ∈ rows, clash r row = true → key r = key row) :
    ((table.insertAll rows).rows.map view).Perm (table.rows.map view) ↔
      ∀ row, Survives clash rows row → ∃ old ∈ table.rows, view old = view row := by
  constructor
  · intro same row survives
    have inside : row ∈ (table.insertAll rows).rows :=
      (mem_insertAll table rows row).mpr (.inl survives)
    exact List.mem_map.mp (same.mem_iff.mp (List.mem_map_of_mem inside))
  · intro held
    apply (List.perm_ext_iff_of_nodup (nodup_views view key unique keyed _)
      (nodup_views view key unique keyed table)).mpr
    intro shown
    simp only [List.mem_map, mem_insertAll]
    constructor
    · rintro ⟨row, new | old, rfl⟩
      · exact held row new
      · exact ⟨row, old.1, rfl⟩
    · rintro ⟨old, member, rfl⟩
      by_cases replaced : ∃ row ∈ rows, clash old row = true
      · obtain ⟨row, inside, clashes⟩ := replaced
        obtain ⟨last, survives, same⟩ := exists_survivor key rows only row inside
        obtain ⟨stored, found, shown⟩ := held last survives
        have keys : key stored = key old :=
          (keyed stored last shown).trans (same.trans (fresh old member row inside clashes).symm)
        have rows : stored = old := eq_of_key key unique table found member keys
        exact ⟨last, .inl survives, shown.symm.trans (congrArg view rows)⟩
      · refine ⟨old, .inr ⟨member, fun row inside => ?_⟩, rfl⟩
        rw [← Bool.not_eq_true]
        exact fun clashes => replaced ⟨row, inside, clashes⟩

end Views

end UniqueTable
