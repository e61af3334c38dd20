import Mathlib.Algebra.GroupWithZero.Nat
import StatGuardian.Library.FirstDistinct
import StatGuardian.Library.Results
import StatGuardian.Py.Validators

namespace StatGuardian.Py.Integrity

open FirstDistinct

variable {V : Type} [DecidableEq V]

/-- A frame of cells that may be null. Two values are one if a Python set takes them for one: the
    NaNs of two cells are not. -/
abbrev Frame (V : Type) := DataFrame (Option V)

structure IntegrityViolation (V : Type) where
  foreignTable : String
  foreignColumn : String
  primaryTable : String
  primaryColumn : String
  orphanedCount : Nat
  orphanedValues : List (Option V)
  severity : String
  deriving DecidableEq

structure Options where
  foreignTable : String := "current"
  primaryTable : String := "reference"
  allowNulls : Bool := true
  severity : String := "error"

def foreignValues (options : Options) (cells : List (Option V)) : List (Option V) :=
  if options.allowNulls then cells.filter Option.isSome else cells

def primaryValues (cells : List (Option V)) : List (Option V) := cells.filter Option.isSome

def orphans (options : Options) (foreign primary : List (Option V)) : List (Option V) :=
  (foreignValues options foreign).filter (· ∉ primaryValues primary)

def checkReferentialIntegrity (df referenceDf : Frame V) (foreignKey primaryKey : String)
    (options : Options) : Except String (List (IntegrityViolation V)) :=
  if foreignKey ∉ df.columns then
    .error s!"Foreign key column '{foreignKey}' not found in DataFrame"
  else if primaryKey ∉ referenceDf.columns then
    .error s!"Primary key column '{primaryKey}' not found in reference DataFrame"
  else
    let orphanedAll := orphans options (df.toList foreignKey) (referenceDf.toList primaryKey)
    if orphanedAll.isEmpty then .ok []
    else
      .ok
        [{ foreignTable := options.foreignTable
           foreignColumn := foreignKey
           primaryTable := options.primaryTable
           primaryColumn := primaryKey
           orphanedCount := orphanedAll.length
           orphanedValues := (firsts orphanedAll).take 20
           severity := options.severity }]

def checkAllForeignKeys (df referenceDf : Frame V) (options : Options) :
    List (String × String) → Except String (List (IntegrityViolation V))
  | [] => .ok []
  | (fk, pk) :: rest => do
    let found ← checkReferentialIntegrity df referenceDf fk pk options
    let violations ← checkAllForeignKeys df referenceDf options rest
    .ok (found ++ violations)

def vstack (df other : Frame V) : Frame V where
  series := df.series.map (fun column => (column.1, column.2 ++ other.toList column.1))
  distinct := by
    rw [List.map_map]
    exact df.distinct

section Frames

omit [DecidableEq V]

theorem columns_vstack (df other : Frame V) : (vstack df other).columns = df.columns := by
  rw [DataFrame.columns, DataFrame.columns, vstack, List.map_map]
  rfl

theorem lookup_vstack (other : Frame V) {column : String}
    {series : List (String × List (Option V))} (there : column ∈ series.map Prod.fst) :
    ((series.map (fun entry => (entry.1, entry.2 ++ other.toList entry.1))).lookup column).getD [] =
      (series.lookup column).getD [] ++ other.toList column := by
  induction series with
  | nil => cases there
  | cons entry rest ih =>
    obtain ⟨name, cells⟩ := entry
    rw [List.map_cons, List.lookup_cons, List.lookup_cons]
    by_cases here : column = name
    · simp [here]
    · have later : column ∈ rest.map Prod.fst := (List.mem_cons.mp there).resolve_left here
      simp only [beq_false_of_ne here]
      exact ih later

theorem toList_vstack {df : Frame V} {column : String} (there : column ∈ df.columns)
    (other : Frame V) :
    (vstack df other).toList column = df.toList column ++ other.toList column :=
  lookup_vstack other there

end Frames

section Results

variable {df referenceDf other : Frame V} {foreignKey primaryKey : String} {options : Options}

/-- A value that is looked up and is not there, or a null that is not let through. -/
def Orphaned (options : Options) (primary : List (Option V)) (value : Option V) : Prop :=
  value.elim (options.allowNulls = false) (fun v => some v ∉ primary)

theorem mem_orphans (foreign primary : List (Option V)) (value : Option V) :
    value ∈ orphans options foreign primary ↔ value ∈ foreign ∧ Orphaned options primary value := by
  unfold orphans foreignValues primaryValues Orphaned
  cases value with
  | none => cases options.allowNulls <;> simp
  | some v => cases options.allowNulls <;> simp

theorem orphans_append (foreign more primary : List (Option V)) :
    orphans options (foreign ++ more) primary =
      orphans options foreign primary ++ orphans options more primary := by
  unfold orphans foreignValues
  split <;> simp only [List.filter_append]

def total (violations : List (IntegrityViolation V)) : Nat :=
  (violations.map IntegrityViolation.orphanedCount).sum

def shown (violations : List (IntegrityViolation V)) : List (Option V) :=
  violations.flatMap IntegrityViolation.orphanedValues

theorem check_reports (options : Options) (foreign : foreignKey ∈ df.columns)
    (primary : primaryKey ∈ referenceDf.columns) :
    ∃ violations, checkReferentialIntegrity df referenceDf foreignKey primaryKey options =
        .ok violations ∧
      (violations = [] ↔
        orphans options (df.toList foreignKey) (referenceDf.toList primaryKey) = []) ∧
      total violations =
        (orphans options (df.toList foreignKey) (referenceDf.toList primaryKey)).length ∧
      shown violations =
        (firsts (orphans options (df.toList foreignKey) (referenceDf.toList primaryKey))).take
          20 := by
  rw [checkReferentialIntegrity, if_neg (not_not.mpr foreign), if_neg (not_not.mpr primary)]
  dsimp only
  split
  · rename_i none
    rw [List.isEmpty_iff.mp none]
    exact ⟨[], rfl, ⟨fun _ => rfl, fun _ => rfl⟩, rfl, rfl⟩
  · rename_i some_
    refine ⟨_, rfl, ?_, ?_, ?_⟩
    · rw [List.isEmpty_iff] at some_
      exact iff_of_false (List.cons_ne_nil _ _) some_
    · simp [total]
    · simp [shown]

theorem check_needs_columns {violations : List (IntegrityViolation V)}
    (checked : checkReferentialIntegrity df referenceDf foreignKey primaryKey options =
      .ok violations) : foreignKey ∈ df.columns ∧ primaryKey ∈ referenceDf.columns := by
  unfold checkReferentialIntegrity at checked
  split at checked
  · cases checked
  · rename_i foreign
    split at checked
    · cases checked
    · rename_i primary
      exact ⟨not_not.mp foreign, not_not.mp primary⟩

/-- One check is clean if both columns are there and no value is an orphan. -/
theorem check_clean_iff (df referenceDf : Frame V) (foreignKey primaryKey : String)
    (options : Options) :
    checkReferentialIntegrity df referenceDf foreignKey primaryKey options = .ok [] ↔
      foreignKey ∈ df.columns ∧ primaryKey ∈ referenceDf.columns ∧
        ∀ value ∈ df.toList foreignKey,
          ¬ Orphaned options (referenceDf.toList primaryKey) value := by
  have none_iff : orphans options (df.toList foreignKey) (referenceDf.toList primaryKey) = [] ↔
      ∀ value ∈ df.toList foreignKey,
        ¬ Orphaned options (referenceDf.toList primaryKey) value := by
    rw [List.eq_nil_iff_forall_not_mem]
    simp only [mem_orphans, not_and]
  constructor
  · intro checked
    obtain ⟨foreign, primary⟩ := check_needs_columns checked
    obtain ⟨violations, reported, clean, -⟩ := check_reports options foreign primary
    rw [checked] at reported
    exact ⟨foreign, primary, none_iff.mp (clean.mp (Except.ok.inj reported).symm)⟩
  · intro ⟨foreign, primary, known⟩
    obtain ⟨violations, reported, clean, -⟩ := check_reports options foreign primary
    rw [reported, clean.mpr (none_iff.mpr known)]

/-- All pairs of keys are clean only if every column is there and no value is an orphan. -/
theorem checkAllForeignKeys_clean_iff (df referenceDf : Frame V) (options : Options)
    (keyPairs : List (String × String)) :
    checkAllForeignKeys df referenceDf options keyPairs = .ok [] ↔
      ∀ pair ∈ keyPairs, pair.1 ∈ df.columns ∧ pair.2 ∈ referenceDf.columns ∧
        ∀ value ∈ df.toList pair.1, ¬ Orphaned options (referenceDf.toList pair.2) value := by
  induction keyPairs with
  | nil => simp [checkAllForeignKeys]
  | cons pair rest ih =>
    rw [checkAllForeignKeys, Results.bind_ok_iff, List.forall_mem_cons, ← check_clean_iff, ← ih]
    constructor
    · intro ⟨found, checked, after⟩
      obtain ⟨violations, others, joined⟩ := (Results.bind_ok_iff _ _ _).mp after
      obtain ⟨first, second⟩ := List.append_eq_nil_iff.mp (Except.ok.inj joined)
      rw [checked, others, first, second]
      exact ⟨rfl, rfl⟩
    · intro ⟨checked, others⟩
      refine ⟨[], checked, ?_⟩
      rw [others]
      rfl

/-- A table that is checked in two parts: the counts add up, and the values shown for the whole
    are the first of those shown for the parts. -/
theorem check_vstack (df other referenceDf : Frame V) (foreignKey primaryKey : String)
    (options : Options) (foreign : foreignKey ∈ df.columns) (foreign' : foreignKey ∈ other.columns)
    (primary : primaryKey ∈ referenceDf.columns) :
    ∃ first second whole,
      checkReferentialIntegrity df referenceDf foreignKey primaryKey options = .ok first ∧
      checkReferentialIntegrity other referenceDf foreignKey primaryKey options = .ok second ∧
      checkReferentialIntegrity (vstack df other) referenceDf foreignKey primaryKey options =
        .ok whole ∧
      total whole = total first + total second ∧
      shown whole = (firsts (shown first ++ shown second)).take 20 := by
  have both : foreignKey ∈ (vstack df other).columns := by rw [columns_vstack]; exact foreign
  obtain ⟨first, checked1, -, total1, shown1⟩ := check_reports options foreign primary
  obtain ⟨second, checked2, -, total2, shown2⟩ := check_reports options foreign' primary
  obtain ⟨whole, checked, -, totals, shows⟩ := check_reports options both primary
  refine ⟨first, second, whole, checked1, checked2, checked, ?_, ?_⟩
  · rw [totals, total1, total2, toList_vstack foreign, orphans_append, List.length_append]
  · rw [shows, shown1, shown2, toList_vstack foreign, orphans_append, take_firsts_append]

end Results

def orders : Frame Nat := ⟨[("customer", [some 1, some 7, none])], by decide⟩

def customers : Frame Nat := ⟨[("id", [some 1, some 2])], by decide⟩

theorem check_orders_twice : ∃ first second whole,
    checkReferentialIntegrity orders customers "customer" "id" {} = .ok first ∧
    checkReferentialIntegrity orders customers "customer" "id" {} = .ok second ∧
    checkReferentialIntegrity (vstack orders orders) customers "customer" "id" {} = .ok whole ∧
    total whole = total first + total second ∧
    shown whole = (firsts (shown first ++ shown second)).take 20 :=
  check_vstack orders orders customers "customer" "id" {} (by decide) (by decide) (by decide)

end StatGuardian.Py.Integrity
