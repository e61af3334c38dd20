import StatGuardian.Engine.Gate
import StatGuardian.Engine.Health

namespace StatGuardian.Engine

open StatGuardian.Core Metrics Polars Stats Validators

section Heard

variable {F : Type} [Float64 F] {env : Env F} {df : DataFrame F}

open Check

theorem report_of_heard {checks : List (Check F)} {v : Violation F}
    (member : v ∈ allHeard env df checks) : ∃ check ∈ checks, check.report env df = some v := by
  obtain ⟨i, -, said⟩ := (FirstWins.mem_allHeard ..).mp member
  obtain ⟨check, placed, reports⟩ := Option.bind_eq_some_iff.mp said
  refine ⟨check, List.mem_of_getElem? placed, ?_⟩
  split at reports
  · cases reports
  · exact reports

/-- What a blocking node hides is a report on a column that the node itself reports on. -/
theorem heard_of_report {checks : List (Check F)} {check : Check F} {v : Violation F}
    (member : check ∈ checks) (reports : check.report env df = some v) :
    ∃ w ∈ allHeard env df checks, w.column = v.column := by
  induction checks using List.reverseRecOn generalizing check v with
  | nil => cases member
  | append_singleton checks last ih =>
    rw [allHeard_append_one]
    rcases List.mem_append.mp member with earlier | here
    · obtain ⟨w, inside, same⟩ := ih earlier reports
      exact ⟨w, List.mem_append_left _ inside, same⟩
    obtain rfl := List.mem_singleton.mp here
    cases hidden : isHidden env df checks check with
    | false =>
      refine ⟨v, List.mem_append_right _ ?_, rfl⟩
      rw [if_neg Bool.false_ne_true, reports]
      exact List.mem_singleton_self v
    | true =>
      obtain ⟨blocker, inside, hides⟩ := List.any_eq_true.mp hidden
      unfold Check.hides at hides
      split at hides
      · rename_i earlier later
        obtain ⟨sameColumn, blocks⟩ := Bool.and_eq_true_iff.mp hides
        obtain ⟨w, found, -⟩ := (Option.any_eq_true ..).mp blocks
        obtain ⟨u, listed, same⟩ := ih inside found
        refine ⟨u, List.mem_append_left _ listed, ?_⟩
        rw [same, report_node_column env df earlier w found,
          report_node_column env df later v reports]
        exact beq_iff_eq.mp sameColumn
      · cases hides

end Heard

section Stated

variable {F : Type} [Float64 F] {env : Env F} {df : DataFrame F} {contract : DataContract F}

open Check

theorem constraint_report_column {f : FieldDef F} {c : Constraint F} {v : Violation F}
    (reports : (Check.constraint f c).report env df = some v) : v.column = f.name := by
  obtain ⟨_, _, own⟩ := Option.bind_eq_some_iff.mp reports
  exact (SchemaValidator.checkConstraint_key env _ f.name c v own).1

theorem stated_of_compiled {check : Check F} {v : Violation F} (member : check ∈ checksOf contract)
    (reports : check.report env df = some v) :
    ∃ stated ∈ statedChecks contract, ∃ w, stated.report env df = some w ∧ w.column = v.column := by
  rcases List.mem_append.mp member with direct | planned
  · exact ⟨check, List.mem_append_left _ direct, v, reports, rfl⟩
  obtain ⟨n, inside, rfl⟩ := List.mem_map.mp planned
  have raw := Optimizer.mem_of_mem_optimize _ n inside
  have fails : ((Check.node n).report env df).isSome = true := by rw [reports]; rfl
  have column := report_node_column env df n v reports
  obtain ⟨f, c, col, own, compiled, found, agree⟩ | ⟨rule, own, rfl⟩ | own :=
    reporting_node_cases env df raw fails
  · have failsToo := (constraint_node_report_iff env df f c n col found agree).mp fails
    obtain ⟨w, stated⟩ := Option.isSome_iff_exists.mp failsToo
    refine ⟨.constraint f c, own, w, stated, ?_⟩
    rw [constraint_report_column stated, column]
    cases c <;> cases compiled <;> rfl
  · exact ⟨.quality rule, own, v, by rw [← quality_node_report, reports], rfl⟩
  · exact ⟨.node n, own, v, reports, rfl⟩

theorem compiled_of_stated {check : Check F} (member : check ∈ statedChecks contract) :
    check ∈ checksOf contract := by
  rcases List.mem_append.mp member with direct | anomaly
  · exact List.mem_append_left _ direct
  · obtain ⟨rule, ruled, rfl⟩ := List.mem_map.mp anomaly
    refine List.mem_append_right _ (List.mem_map_of_mem ((mem_compile contract _).mpr ⟨?_, ?_⟩))
    · exact List.mem_append_right _ (List.mem_map_of_mem ruled)
    · intro complete
      unfold Compiler.anomalyNode at complete
      split at complete <;> cases complete

def Objected (env : Env F) (contract : DataContract F) (df : DataFrame F) (column : String) : Prop :=
  ∃ check ∈ statedChecks contract, ∃ v, check.report env df = some v ∧ v.column = column

theorem report_silent_iff {reference : Option (DataFrame F)} {report : ValidationReport F}
    (ran : BatchExecutor.execute env contract (Compiler.compile contract) df reference = .ok report)
    (column : String) :
    (∀ v ∈ report.violations, v.column ≠ column) ↔ ¬ Objected env contract df column := by
  obtain ⟨violations, _, _, emits, _⟩ := (execute_ok_iff ..).mp ran
  have key : ∀ v : Violation F, sameKey v v = true := fun v => by simp [sameKey]
  constructor
  · rintro silent ⟨check, stated, v, reports, here⟩
    obtain ⟨w, heard, same⟩ := heard_of_report (compiled_of_stated stated) reports
    have some_ : ((allHeard env df (checksOf contract)).find? fun x => sameKey x w).isSome = true :=
      List.find?_isSome.mpr ⟨w, heard, key w⟩
    obtain ⟨u, first⟩ := Option.isSome_iff_exists.mp some_
    have kind : sameKey u w = true := List.find?_some (p := fun x => sameKey x w) first
    have reported : u ∈ report.violations := by
      refine (reported_iff ran emits u).mpr ?_
      rw [emitted_heard env df contract violations emits u, ← first]
      congr 1
      funext x
      exact (sameKey_congr x u w kind)
    refine silent u reported ?_
    rw [← here, ← same]
    exact beq_iff_eq.mp (Bool.and_eq_true_iff.mp kind).1
  · intro clean v member here
    have found := (reported_iff ran emits v).mp member
    rw [emitted_heard env df contract violations emits v] at found
    obtain ⟨check, inside, reports⟩ := report_of_heard (List.mem_of_find?_eq_some found)
    obtain ⟨stated, declared, w, fails, same⟩ := stated_of_compiled inside reports
    exact clean ⟨stated, declared, w, fails, same.trans here⟩

end Stated

section Keys

variable {F : Type} [Float64 F]

/-- Where polars counts the unique values, nulls among them, the count is the length just for values
    that are all different. -/
def CountsDistinct (env : Env F) : Prop :=
  ∀ s n, env.nUnique s = some n → (n = s.len ↔ s.cells.Nodup)

structure IsKey (s : Series F) : Prop where
  full : none ∉ s.cells
  distinct : s.cells.Nodup

def AsksUnique (contract : DataContract F) (column : String) : Prop :=
  ∃ f ∈ contract.schema, f.name = column ∧ Constraint.unique ∈ f.constraints

def isKeyCheck : Check F → Bool
  | .constraint _ .notNull | .constraint _ .primaryKey | .constraint _ .unique => true
  | _ => false

/-- A check of the contract that asks neither for values nor for different ones rejects the
    column. -/
def OtherwiseRejected (env : Env F) (contract : DataContract F) (df : DataFrame F)
    (column : String) : Prop :=
  ∃ check ∈ statedChecks contract, isKeyCheck check = false ∧
    ∃ v, check.report env df = some v ∧ v.column = column

section Constraints

variable {env : Env F} {df : DataFrame F} {f : FieldDef F} {col : Column F}

omit [Float64 F] in
theorem nullCount_pos_iff (s : Series F) : 0 < s.nullCount ↔ none ∈ s.cells := by
  rw [Series.nullCount, List.countP_pos_iff]
  constructor
  · rintro ⟨cell, member, null⟩
    rwa [Option.isNone_iff_eq_none.mp null] at member
  · intro member
    exact ⟨none, member, rfl⟩

theorem null_report {c : Constraint F} (kind : c = .notNull ∨ c = .primaryKey)
    (found : df.column f.name = some col) : ((Check.constraint f c).report env df).isSome = true ↔
      none ∈ col.asMaterializedSeries.cells := by
  rw [← nullCount_pos_iff, constraint_report env df found]
  rcases kind with rfl | rfl <;>
  · rw [SchemaValidator.checkConstraint]
    by_cases nulls : 0 < col.asMaterializedSeries.nullCount
    · rw [if_pos nulls]
      exact iff_of_true rfl nulls
    · rw [if_neg nulls]
      exact iff_of_false Bool.false_ne_true nulls

/-- Where the count fails the schema takes it for zero, so the check fails on filled columns. -/
theorem unique_report (counts : CountsDistinct env) (found : df.column f.name = some col)
    (repeats : ¬ col.asMaterializedSeries.cells.Nodup) :
    ((Check.constraint f .unique).report env df).isSome = true := by
  have differ : (env.nUnique col.asMaterializedSeries).getD 0 ≠ col.asMaterializedSeries.len := by
    cases known : env.nUnique col.asMaterializedSeries with
    | some n => exact mt (counts _ n known).mp repeats
    | none =>
      intro empty
      apply repeats
      rw [List.length_eq_zero_iff.mp empty.symm]
      exact List.nodup_nil
  rw [constraint_report env df found, SchemaValidator.checkConstraint, if_pos differ]
  rfl

section Objections

variable {contract : DataContract F} {column : String}

theorem objected_of_fails {c : Constraint F} (declared : f ∈ contract.schema)
    (own : c ∈ f.constraints) (fails : ((Check.constraint f c).report env df).isSome = true) :
    Objected env contract df f.name := by
  obtain ⟨v, reports⟩ := Option.isSome_iff_exists.mp fails
  have stated := (mem_constraint_iff c).mpr ⟨declared, own⟩
  exact ⟨.constraint f c, stated, v, reports, constraint_report_column reports⟩

theorem objected_of_repeats (counts : CountsDistinct env) (unique : AsksUnique contract column)
    (found : df.column column = some col) (repeats : ¬ col.asMaterializedSeries.cells.Nodup) :
    Objected env contract df column := by
  obtain ⟨f, declared, rfl, own⟩ := unique
  exact objected_of_fails declared own (unique_report counts found repeats)

theorem objected_cases (found : df.column column = some col)
    (objected : Objected env contract df column) :
    none ∈ col.asMaterializedSeries.cells ∨ AsksUnique contract column ∨
      OtherwiseRejected env contract df column := by
  obtain ⟨check, stated, v, reports, here⟩ := objected
  cases kind : isKeyCheck check with
  | false => exact .inr (.inr ⟨check, stated, kind, v, reports, here⟩)
  | true =>
    have nulls : ∀ {f : FieldDef F} {c : Constraint F}, c = .notNull ∨ c = .primaryKey →
        (Check.constraint f c).report env df = some v → none ∈ col.asMaterializedSeries.cells := by
      intro f c asks reports
      have same : f.name = column := (constraint_report_column reports).symm.trans here
      exact (null_report asks (same ▸ found)).mp (by rw [reports]; rfl)
    unfold isKeyCheck at kind
    split at kind
    · exact .inl (nulls (.inl rfl) reports)
    · exact .inl (nulls (.inr rfl) reports)
    · rename_i f
      obtain ⟨declared, own⟩ := (mem_constraint_iff .unique).mp stated
      have same : f.name = column := (constraint_report_column reports).symm.trans here
      exact .inr (.inl ⟨f, declared, same, own⟩)
    · cases kind

end Objections

end Constraints

/-- A primary key that the report does not object to is one exactly when its values differ, or they
    are also asked to be unique, or something else about the column is objected to: a null, or what
    another check rejects. -/
theorem clean_key_iff (env : Env F) (counts : CountsDistinct env) (contract : DataContract F)
    (field : FieldDef F) (declared : field ∈ contract.schema) (key : .primaryKey ∈ field.constraints)
    (df : DataFrame F) (col : Column F) (found : df.column field.name = some col)
    (reference : Option (DataFrame F)) (report : ValidationReport F)
    (ran : BatchExecutor.execute env contract (Compiler.compile contract) df reference = .ok report) :
    ((∀ v ∈ report.violations, v.column ≠ field.name) → IsKey col.asMaterializedSeries) ↔
      col.asMaterializedSeries.cells.Nodup ∨ AsksUnique contract field.name ∨
        none ∈ col.asMaterializedSeries.cells ∨ OtherwiseRejected env contract df field.name := by
  rw [report_silent_iff ran]
  constructor
  · intro sound
    by_cases distinct : col.asMaterializedSeries.cells.Nodup
    · exact .inl distinct
    have objected : Objected env contract df field.name := by
      by_contra clean
      exact distinct (sound clean).distinct
    rcases objected_cases found objected with null | unique | rejected
    · exact .inr (.inr (.inl null))
    · exact .inr (.inl unique)
    · exact .inr (.inr (.inr rejected))
  · intro condition clean
    have full : none ∉ col.asMaterializedSeries.cells := fun null =>
      clean (objected_of_fails declared key ((null_report (.inr rfl) found).mpr null))
    rcases condition with distinct | unique | null | ⟨check, stated, -, objects⟩
    · exact ⟨full, distinct⟩
    · refine ⟨full, ?_⟩
      by_contra repeats
      exact clean (objected_of_repeats counts unique found repeats)
    · exact absurd null full
    · exact absurd ⟨check, stated, objects⟩ clean

end Keys

section Orders

theorem exactEnv_countsDistinct : CountsDistinct exactEnv := by
  have kept : ∀ {α : Type} [DecidableEq α] (cells : List α),
      cells.dedup.length = cells.length ↔ cells.Nodup := by
    intro α _ cells
    rw [← List.dedup_eq_self]
    exact ⟨(List.dedup_sublist cells).eq_of_length, congrArg List.length⟩
  intro series n counted
  obtain rfl := Option.some.inj counted
  exact kept series.cells

def keyedOrders (others : List (Constraint ExtRat)) : DataContract ExtRat :=
  { DataContract.new "orders" with schema := [⟨"id", .int, .primaryKey :: others⟩] }

/-- A primary key on its own is checked for nulls only. -/
theorem repeated_key_clean :
    ∃ report : ValidationReport ExtRat,
      BatchExecutor.execute exactEnv (keyedOrders []) (Compiler.compile (keyedOrders []))
        twiceTheSameId none = .ok report ∧
      ¬ ((∀ v ∈ report.violations, v.column ≠ "id") →
        IsKey (F := ExtRat) ⟨.int64, [some 7, some 7]⟩) := by
  obtain ⟨report, ran, silent⟩ := Results.ok_of_any
    (BatchExecutor.execute exactEnv (keyedOrders []) (Compiler.compile (keyedOrders []))
      twiceTheSameId none) (·.violations.isEmpty) (by decide +kernel)
  refine ⟨report, ran, fun sound => ?_⟩
  have key := sound fun v member => by
    rw [List.isEmpty_iff.mp silent] at member
    cases member
  exact absurd key.distinct (by decide)

theorem clean_key_iff_unique :
    ∃ report : ValidationReport ExtRat,
      BatchExecutor.execute exactEnv (keyedOrders [.unique])
        (Compiler.compile (keyedOrders [.unique])) twiceTheSameId none = .ok report ∧
      ((∀ v ∈ report.violations, v.column ≠ "id") →
        IsKey (F := ExtRat) ⟨.int64, [some 7, some 7]⟩) := by
  obtain ⟨report, ran, _⟩ := Results.ok_of_any
    (BatchExecutor.execute exactEnv (keyedOrders [.unique])
      (Compiler.compile (keyedOrders [.unique])) twiceTheSameId none) (! ·.violations.isEmpty)
    (by decide +kernel)
  have iff := clean_key_iff exactEnv exactEnv_countsDistinct (keyedOrders [.unique])
    ⟨"id", .int, [.primaryKey, .unique]⟩ List.mem_cons_self List.mem_cons_self twiceTheSameId
    (.series "id" ⟨.int64, [some 7, some 7]⟩) rfl none report ran
  exact ⟨report, ran, iff.mpr (.inr (.inl ⟨_, List.mem_cons_self, rfl, by simp⟩))⟩

end Orders

end StatGuardian.Engine
