import StatGuardian.Py.Validators

namespace StatGuardian.Py

variable {V World : Type}

/-- The function ran to completion and reported no failing rows. -/
inductive Clean : Outcome → Prop where
  | none : Clean (.returned .none)
  | pair {failingRows : PyObject} {message : Option String} :
      failingRows.truth = .ok false → Clean (.returned (.pair failingRows message))
  | other {value : PyObject} : value.truth = .ok false → Clean (.returned (.other value))

inductive Reports : Outcome → Prop where
  | pair {failingRows : PyObject} {message : Option String} {rows : List Int} :
      failingRows.truth = .ok true → failingRows.items = .ok rows →
      Reports (.returned (.pair failingRows message))

/-- The ways in which something that is not clean never gets the severity of its validator. -/
inductive Slips : Outcome → Prop where
  | raised (exc : String) : Slips (.raised exc)
  | untested {failingRows : PyObject} {message : Option String} {exc : String} :
      failingRows.truth = .error exc → Slips (.returned (.pair failingRows message))
  | unlisted {failingRows : PyObject} {message : Option String} {exc : String} :
      failingRows.truth = .ok true → failingRows.items = .error exc →
      Slips (.returned (.pair failingRows message))
  | ignored {value : PyObject} : value.truth ≠ .ok false → Slips (.returned (.other value))

theorem not_clean_iff (outcome : Outcome) : ¬ Clean outcome ↔ Reports outcome ∨ Slips outcome := by
  constructor
  · intro unclean
    cases outcome with
    | raised exc => exact .inr (.raised exc)
    | returned result =>
      cases result with
      | none => exact absurd .none unclean
      | other value =>
        exact .inr (.ignored fun empty => unclean (.other empty))
      | pair failingRows message =>
        cases truth : failingRows.truth with
        | error exc => exact .inr (.untested truth)
        | ok some_ =>
          cases some_ with
          | false => exact absurd (.pair truth) unclean
          | true =>
            cases items : failingRows.items with
            | error exc => exact .inr (.unlisted truth items)
            | ok rows => exact .inl (.pair truth items)
  · rintro (⟨full, _⟩ | slip) clean
    · cases clean with
      | pair empty => cases full.symm.trans empty
    · cases slip with
      | raised => cases clean
      | untested broken =>
        cases clean with
        | pair empty => cases broken.symm.trans empty
      | unlisted full _ =>
        cases clean with
        | pair empty => cases full.symm.trans empty
      | ignored some_ =>
        cases clean with
        | other empty => exact some_ empty

def log : List (Call V World) → World → List (Call V World × Outcome)
  | [], _ => []
  | call :: rest, world =>
    let (outcome, world) := call.entry.fn call.values world
    (call, outcome) :: log rest world

/-- The violation that is recorded for a call when exceptions are not passed on. -/
def recorded (record : Call V World × Outcome) : Option Violation :=
  match judge record.1.column record.1.entry record.2 with
  | .ok violation => violation
  | .error exc =>
    some ⟨record.1.column, record.1.entry.name, "error", some s!"validator raised: {exc}", []⟩

theorem runCalls_log (calls : List (Call V World)) (world : World) :
    ∃ final, runCalls false calls world =
      .ok ((log calls world).flatMap (fun record => (recorded record).toList), final) := by
  induction calls generalizing world with
  | nil => exact ⟨world, rfl⟩
  | cons call rest ih =>
    cases ran : call.entry.fn call.values world with
    | mk outcome next =>
      obtain ⟨final, tail⟩ := ih next
      have head : runCall false call world = .ok (recorded (call, outcome), next) := by
        simp only [runCall, ran, recorded]
        cases judge call.column call.entry outcome <;> rfl
      refine ⟨final, ?_⟩
      rw [runCalls, head]
      simp only [bind, Except.bind, tail, log, ran, List.flatMap_cons]
      rfl

theorem log_calls (calls : List (Call V World)) (world : World) :
    (log calls world).map Prod.fst = calls := by
  induction calls generalizing world with
  | nil => rfl
  | cons call rest ih => rw [log, List.map_cons, ih]

theorem mem_calls_iff (registry : Registry V World) (df : DataFrame V) (call : Call V World) :
    call ∈ calls registry df ↔
      ∃ item ∈ registry.items, call.entry ∈ item.2 ∧ call.column ∈ df.columns ∧
        (item.1 = "*" ∨ item.1 = call.column) ∧ call.values = df.toList call.column := by
  simp only [calls, List.mem_flatMap, List.mem_filter, List.contains_iff_mem, List.mem_map]
  constructor
  · rintro ⟨item, there, column, ⟨listed, present⟩, entry, member, rfl⟩
    refine ⟨item, there, member, present, ?_, rfl⟩
    split at listed
    · rename_i all
      exact .inl all
    · exact .inr (List.mem_singleton.mp listed).symm
  · rintro ⟨item, there, member, present, applies, values⟩
    refine ⟨item, there, call.column, ⟨?_, present⟩, call.entry, member, by rw [← values]⟩
    split
    · exact present
    · rename_i named
      exact List.mem_singleton.mpr (applies.resolve_left named).symm

theorem judge_some {column : String} {entry : Entry V World} {outcome : Outcome}
    {violation : Violation} (judged : judge column entry outcome = .ok (some violation)) :
    Reports outcome ∧ violation.severity = entry.severity := by
  cases outcome with
  | raised exc => cases judged
  | returned result =>
    cases result with
    | none => cases judged
    | other value =>
      rw [judge] at judged
      cases text : value.text <;> rw [text] at judged <;> cases judged
    | pair failingRows message =>
      rw [judge] at judged
      cases truth : failingRows.truth with
      | error exc =>
        rw [truth] at judged
        cases judged
      | ok full =>
        rw [truth] at judged
        cases full with
        | false => cases judged
        | true =>
          cases items : failingRows.items with
          | error exc =>
            rw [items] at judged
            cases judged
          | ok rows =>
            rw [items] at judged
            cases judged
            exact ⟨.pair truth items, rfl⟩

/-- A violation is blocking exactly if a blocking validator reported rows that could be read. -/
theorem recorded_blocking_iff (record : Call V World × Outcome) :
    (∃ violation, recorded record = some violation ∧ violation.severity = "blocking") ↔
      record.1.entry.severity = "blocking" ∧ Reports record.2 := by
  constructor
  · rintro ⟨violation, made, blocks⟩
    unfold recorded at made
    cases judged : judge record.1.column record.1.entry record.2 with
    | error exc =>
      rw [judged] at made
      obtain rfl := Option.some.inj made
      have other : "error" = "blocking" := blocks
      exact absurd other (by decide)
    | ok found =>
      rw [judged] at made
      obtain rfl : found = some violation := made
      obtain ⟨reports, severity⟩ := judge_some judged
      exact ⟨severity.symm.trans blocks, reports⟩
  · obtain ⟨call, outcome⟩ := record
    rintro ⟨blocks, @⟨_, message, rows, truth, items⟩⟩
    refine ⟨⟨call.column, call.entry.name, call.entry.severity, message, rows⟩, ?_, blocks⟩
    simp only [recorded, judge, truth, items]
    rfl

def blocking (record : Call V World × Outcome) : Prop := record.1.entry.severity = "blocking"

/-- The gate: what a merged report that passes says of every blocking validator and every column
    that it applies to. -/
def FailsClosed (registry : Registry V World) (df : DataFrame V) (world : World)
    (report : ValidationReport) : Prop :=
  ∃ violations final, runCustomValidators registry df false world = .ok (violations, final) ∧
    ((mergeViolations report violations).passed = true → report.passed = true ∧
      ∀ item ∈ registry.items, ∀ entry ∈ item.2, entry.severity = "blocking" →
        ∀ column ∈ df.columns, item.1 = "*" ∨ item.1 = column →
          (∃ record ∈ log (calls registry df) world,
            record.1.column = column ∧ record.1.entry = entry) ∧
          ∀ record ∈ log (calls registry df) world,
            record.1.column = column → record.1.entry = entry → Clean record.2)

theorem merged_passed_iff (registry : Registry V World) (df : DataFrame V) (world : World)
    (report : ValidationReport) :
    (mergeViolations report ((log (calls registry df) world).flatMap
      (fun record => (recorded record).toList))).passed = true ↔
      report.passed = true ∧
        ∀ record ∈ log (calls registry df) world, blocking record → ¬ Reports record.2 := by
  have flagged : ∀ records : List (Call V World × Outcome),
      (records.flatMap (fun record => (recorded record).toList)).any
          (fun v => v.severity == "blocking") = false ↔
        ∀ record ∈ records, blocking record → ¬ Reports record.2 := by
    intro records
    rw [List.any_eq_false]
    constructor
    · intro clear record member blocks reports
      obtain ⟨violation, made, severity⟩ := (recorded_blocking_iff record).mpr ⟨blocks, reports⟩
      apply clear violation (List.mem_flatMap.mpr ⟨record, member, by rw [made]; simp⟩)
      rw [severity]
      decide
    · intro quiet violation made
      obtain ⟨record, member, there⟩ := List.mem_flatMap.mp made
      have exactly := Option.mem_toList.mp there
      intro severity
      obtain ⟨blocks, reports⟩ :=
        (recorded_blocking_iff record).mp ⟨violation, exactly, beq_iff_eq.mp severity⟩
      exact quiet record member blocks reports
  rw [mergeViolations, Bool.and_eq_true, Bool.not_eq_true', flagged]

/-- The gate is closed exactly where nothing that a blocking validator does slips through, or
    something else keeps it closed. -/
theorem failsClosed_iff (registry : Registry V World) (df : DataFrame V) (world : World)
    (report : ValidationReport) :
    FailsClosed registry df world report ↔
      report.passed = false ∨
      (∃ record ∈ log (calls registry df) world, blocking record ∧ Reports record.2) ∨
      ∀ record ∈ log (calls registry df) world, blocking record → ¬ Slips record.2 := by
  obtain ⟨final, ran⟩ := runCalls_log (calls registry df) world
  have source : ∀ record ∈ log (calls registry df) world, record.1 ∈ calls registry df := by
    intro record member
    rw [← log_calls (calls registry df) world]
    exact List.mem_map_of_mem member
  constructor
  · rintro ⟨violations, final', ran', closed⟩
    obtain ⟨rfl, rfl⟩ := Prod.mk.inj (Except.ok.inj (ran.symm.trans ran'))
    rw [merged_passed_iff] at closed
    by_contra open_
    simp only [not_or, Bool.not_eq_false, not_exists, not_and] at open_
    obtain ⟨native, quiet, slipped⟩ := open_
    apply slipped
    intro record member blocks slips
    obtain ⟨item, there, entry, present, applies, _⟩ :=
      (mem_calls_iff registry df record.1).mp (source record member)
    have clean := ((closed ⟨native, quiet⟩).2 item there record.1.entry entry blocks record.1.column
      present applies).2 record member rfl rfl
    exact (not_clean_iff record.2).mpr (.inr slips) clean
  · intro holds
    refine ⟨_, final, ran, ?_⟩
    rw [merged_passed_iff]
    rintro ⟨native, quiet⟩
    have fine : ∀ record ∈ log (calls registry df) world, blocking record → ¬ Slips record.2 := by
      rcases holds with failed | ⟨record, member, blocks, reports⟩ | fine
      · cases native.symm.trans failed
      · exact absurd reports (quiet record member blocks)
      · exact fine
    refine ⟨native, ?_⟩
    intro item there entry member blocks column present applies
    constructor
    · have called : (⟨column, df.toList column, entry⟩ : Call V World) ∈ calls registry df :=
        (mem_calls_iff registry df _).mpr ⟨item, there, member, present, applies, rfl⟩
      rw [← log_calls (calls registry df) world] at called
      obtain ⟨record, logged, same⟩ := List.mem_map.mp called
      exact ⟨record, logged, by rw [same], by rw [same]⟩
    · rintro record logged _ rfl
      by_contra unclean
      rcases (not_clean_iff record.2).mp unclean with reports | slips
      · exact quiet record logged blocks reports
      · exact fine record logged blocks slips

section RaisingValidator

def raising : Registry Int Unit :=
  Registry.empty.validator "amount"
    ⟨fun _ world => (.raised "division by zero", world), "no_round_numbers", "blocking"⟩

def amounts : DataFrame Int := ⟨[("amount", [100, 2000])], List.nodup_singleton _⟩

def nativePass : ValidationReport := ⟨"r-1", "orders", 2, true, []⟩

theorem raising_validator_passes : ¬ FailsClosed raising amounts () nativePass := by
  rintro ⟨violations, final, ran, closed⟩
  obtain ⟨rfl, rfl⟩ : violations = [⟨"amount", "no_round_numbers", "error",
      some "validator raised: division by zero", []⟩] ∧ final = () :=
    ⟨(congrArg Prod.fst (Except.ok.inj ran)).symm, rfl⟩
  have gate := (closed rfl).2 _ (List.mem_singleton.mpr rfl) _ (List.mem_singleton.mpr rfl) rfl
    "amount" (List.mem_singleton.mpr rfl) (.inr rfl)
  have clean := gate.2 _ (List.mem_singleton.mpr rfl) rfl rfl
  cases clean

end RaisingValidator

end StatGuardian.Py
