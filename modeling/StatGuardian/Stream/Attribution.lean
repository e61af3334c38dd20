import StatGuardian.Engine.RowBounds
import StatGuardian.Runtime.ExactEnv
import StatGuardian.Stream.Steps

namespace StatGuardian.Stream

open StatGuardian.Core Engine Metrics Polars Validators

/-- A list cut into batches: all of them full, but the last one, which has something. -/
structure Cut {α : Type} (size : Nat) (items : List α) (batches : List (List α)) : Prop where
  whole : batches.flatten = items
  some : ∀ batch ∈ batches, batch ≠ []
  bounded : ∀ batch ∈ batches, batch.length ≤ size
  full : ∀ batch ∈ batches.dropLast, batch.length = size

structure BatchRun (F : Type) where
  records : List (Nat × Value)
  report : ValidationReport F

variable {F : Type} [Float64 F]

section Attribution

variable (env : StreamEnv F) (validator : StreamValidator F)

/-- The report of a run is the one of the engine on the frame of its records. -/
def Ran (k : Nat) (run : BatchRun F) : Prop :=
  ∃ df, materialize env k run.records = .ok df ∧
    BatchExecutor.execute env.engine validator.contract validator.dag df none = .ok run.report

/-- The findings of one violation of a batch: one for each of its rows, with the record in that
    row, or one without a record when it lists none. -/
def findingsOf (k : Nat) (run : BatchRun F) (v : Violation F) : List StreamFinding :=
  if v.rowIndices = [] then [⟨none, k, v.column, v.check, v.message, v.severity⟩]
  else v.rowIndices.map (fun row =>
    ⟨(run.records[row]?).map Prod.fst, k, v.column, v.check, v.message, v.severity⟩)

/-- One finding for every batch, violation and row index. -/
def reportedFindings (runs : List (BatchRun F)) : List StreamFinding :=
  runs.zipIdx.flatMap (fun run => run.1.report.violations.flatMap (findingsOf run.2 run.1))

/-- Where a finding about a record comes from. -/
structure Names (runs : List (BatchRun F)) (f : StreamFinding) (r : Nat) (run : BatchRun F)
    (v : Violation F) (row : Nat) : Prop where
  batch : runs[f.batch]? = some run
  reported : v ∈ run.report.violations
  listed : row ∈ v.rowIndices
  record : (run.records[row]?).map Prod.fst = some r
  column : f.column = v.column
  check : f.check = v.check

/-- `JsonReader` makes one row of each record. -/
def RowPerRecord : Prop :=
  ∀ k records buf df, encodeBatch env k records = .ok buf → env.readJsonLines buf = .ok df →
    df.height = records.length

/-- What a report says about the lines that were read and the batches that were run. -/
structure Attributed (source : NdjsonSource) (lines : List RawLine) (runs : List (BatchRun F))
    (report : StreamReport) : Prop where
  read : ∃ last, Reads source lines last
  numbered : lines.map RawLine.record = List.range lines.length
  cut : Cut (max validator.options.limits.batchSize 1) (lines.filterMap (accepted env validator))
    (runs.map BatchRun.records)
  ran : ∀ k run, runs[k]? = some run → Ran env validator k run
  batches : report.batches = runs.length
  validated : report.recordsValidated = (lines.filterMap (accepted env validator)).length
  exactly : report.findings.Perm (reportedFindings runs)
  names : ∀ f ∈ report.findings, ∀ r, f.record = some r → ∃ run v row, Names runs f r run v row
  valid : ∀ f ∈ report.findings, ∀ r, f.record = some r →
    (∃ line ∈ lines, line.record = r) ∧
      ∀ line ∈ lines, line.record = r → (accepted env validator line).isSome = true
  sorted : report.findings.Pairwise (fun a b => (RunState.findingOrder a b).isLE = true)
  passed : report.passed = false ↔
    ∃ run ∈ runs, ∃ v ∈ run.report.violations, v.severity = .blocking

end Attribution

section Findings

variable {env : StreamEnv F} {validator : StreamValidator F}

theorem materialize_height (rowPerRecord : RowPerRecord env) (k : Nat)
    (records : List (Nat × Value)) (df : DataFrame F)
    (made : materialize env k records = .ok df) : df.height = records.length := by
  obtain ⟨buf, encoded, made⟩ := (Results.bind_ok_iff ..).mp made
  cases read : env.readJsonLines buf with
  | error reason =>
    rw [read] at made
    cases made
  | ok found =>
    rw [read] at made
    obtain rfl := Except.ok.inj made
    exact rowPerRecord k records buf found encoded read

theorem ran_rows (rowPerRecord : RowPerRecord env) (k : Nat) (run : BatchRun F)
    (ran : Ran env validator k run) (v : Violation F) (reports : v ∈ run.report.violations) :
    RowsBelow run.records.length v := by
  obtain ⟨df, made, executed⟩ := ran
  rw [← materialize_height rowPerRecord k run.records df made]
  exact report_rows env.engine _ _ df none run.report executed v reports

omit [Float64 F] in
theorem violationFindings_eq (k : Nat) (run : BatchRun F) (v : Violation F)
    (below : RowsBelow run.records.length v) :
    violationFindings k (run.records.map Prod.fst) v = findingsOf k run v := by
  unfold violationFindings findingsOf
  by_cases rowless : v.rowIndices = []
  · simp [rowless]
  · have kept : ¬ v.rowIndices.isEmpty = true := by simpa using rowless
    rw [if_neg kept, if_neg rowless]
    refine (List.filterMap_congr (fun row listed => ?_)).trans
      (congrFun List.filterMap_eq_map v.rowIndices)
    obtain ⟨record, found⟩ : ∃ record, run.records[row]? = some record :=
      ⟨_, List.getElem?_eq_getElem (below row listed)⟩
    simp [found]

omit [Float64 F] in
theorem reportedFindings_snoc (runs : List (BatchRun F)) (run : BatchRun F) :
    reportedFindings (runs ++ [run])
      = reportedFindings runs ++ run.report.violations.flatMap (findingsOf runs.length run) := by
  simp [reportedFindings, List.zipIdx_append]

omit [Float64 F] in
theorem mem_reportedFindings (runs : List (BatchRun F)) (f : StreamFinding) :
    f ∈ reportedFindings runs ↔ ∃ k run, runs[k]? = some run ∧
      ∃ v ∈ run.report.violations, f ∈ findingsOf k run v := by
  simp only [reportedFindings, List.mem_flatMap, Prod.exists, List.mem_zipIdx_iff_getElem?]
  constructor
  · rintro ⟨run, k, found, rest⟩
    exact ⟨k, run, found, rest⟩
  · rintro ⟨k, run, found, rest⟩
    exact ⟨run, k, found, rest⟩

end Findings

section Steps

variable {env : StreamEnv F} {validator : StreamValidator F}

/-- How far the loop has come: the lines read, the batches run and the records that wait. -/
structure Progress (env : StreamEnv F) (validator : StreamValidator F) (source : NdjsonSource)
    (lines : List RawLine) (runs : List (BatchRun F)) (src : NdjsonSource)
    (batch : List (Nat × Value)) (state : RunState) : Prop where
  read : Reads source lines src
  whole : (runs.map BatchRun.records).flatten ++ batch = lines.filterMap (accepted env validator)
  full : ∀ run ∈ runs, run.records.length = max validator.options.limits.batchSize 1
  small : batch.length < max validator.options.limits.batchSize 1
  counted : state.batches = runs.length
  validated : state.recordsValidated = (runs.map BatchRun.records).flatten.length
  ran : ∀ k run, runs[k]? = some run → Ran env validator k run
  findings : state.findings = reportedFindings runs

variable {source : NdjsonSource} {lines : List RawLine} {runs : List (BatchRun F)}
  {src next : NdjsonSource} {batch rest : List (Nat × Value)} {state final : RunState}

theorem flush_runs (rowPerRecord : RowPerRecord env) (filled : batch ≠ [])
    (counted : state.batches = runs.length)
    (validated : state.recordsValidated = (runs.map BatchRun.records).flatten.length)
    (ran : ∀ k run, runs[k]? = some run → Ran env validator k run)
    (findings : state.findings = reportedFindings runs)
    (flushed : flushBatch env validator batch state = .ok final) :
    ∃ run : BatchRun F, run.records = batch ∧ final.batches = (runs ++ [run]).length ∧
      final.recordsValidated = ((runs ++ [run]).map BatchRun.records).flatten.length ∧
      (∀ k found, (runs ++ [run])[k]? = some found → Ran env validator k found) ∧
      final.findings = reportedFindings (runs ++ [run]) := by
  obtain ⟨df, report, made, executed, rfl⟩ :=
    (flushBatch_ok_iff env validator batch state final filled).mp flushed
  have ranLast : Ran env validator runs.length ⟨batch, report⟩ := ⟨df, counted ▸ made, executed⟩
  refine ⟨⟨batch, report⟩, rfl, by simp [ranBatch, counted], by simp [ranBatch, validated],
    fun k run here => ?_, ?_⟩
  · rw [List.getElem?_append] at here
    split at here
    case isTrue => exact ran k run here
    case isFalse past =>
      obtain ⟨position, same⟩ := List.getElem?_eq_some_iff.mp here
      rw [List.length_singleton, Nat.lt_one_iff] at position
      obtain rfl : k = runs.length := by omega
      obtain rfl : ⟨batch, report⟩ = run := by simpa [position] using same
      exact ranLast
  · show state.findings ++ report.violations.flatMap
      (violationFindings state.batches (batch.map Prod.fst)) = _
    rw [findings, counted, reportedFindings_snoc]
    congr 1
    refine List.flatMap_congr (fun v reports => ?_)
    exact violationFindings_eq runs.length ⟨batch, report⟩ v
      (ran_rows rowPerRecord runs.length _ ranLast v reports)

theorem accepted_none (line : RawLine) (rejected : accepted env validator line = none)
    (lines : List RawLine) :
    (lines ++ [line]).filterMap (accepted env validator)
      = lines.filterMap (accepted env validator) := by
  simp [List.filterMap_append, rejected]

theorem Progress.rejected (progress : Progress env validator source lines runs src batch state)
    {line : RawLine} (taken : src.nextLine = .ok (some line, next))
    (outside : accepted env validator line = none) (policy : MalformedPolicy)
    (kind : MalformedKind) (reason : String) (preview : Option String)
    (rejects : state.reject policy line.record kind reason preview = .ok final) :
    Progress env validator source (lines ++ [line]) runs next batch final := by
  obtain ⟨kept, rfl⟩ := reject_ok rejects
  exact {
    read := progress.read.snoc taken
    whole := by rw [accepted_none line outside, progress.whole]
    full := progress.full
    small := progress.small
    counted := progress.counted
    validated := progress.validated
    ran := progress.ran
    findings := progress.findings }

theorem Progress.joined (rowPerRecord : RowPerRecord env)
    (progress : Progress env validator source lines runs src batch state) {line : RawLine}
    (taken : src.nextLine = .ok (some line, next)) {record : Nat × Value}
    (joins : accepted env validator line = some record) (events : List SanitizationEvent)
    (joined : joinBatch env validator record batch (state.recordSanitization events) =
      .ok (rest, final)) :
    ∃ runs', Progress env validator source (lines ++ [line]) runs' next rest final := by
  have whole : (runs.map BatchRun.records).flatten ++ (batch ++ [record])
      = (lines ++ [line]).filterMap (accepted env validator) := by
    rw [← List.append_assoc, progress.whole, List.filterMap_append]
    simp [joins]
  unfold joinBatch at joined
  split at joined
  case isTrue large =>
    obtain ⟨state', flushed, same⟩ := (Results.bind_ok_iff ..).mp joined
    obtain ⟨rfl, rfl⟩ : [] = rest ∧ state' = final := by simpa [pure, Except.pure] using same
    have before : (state.recordSanitization events).batches = runs.length := progress.counted
    obtain ⟨run, records, counted, validated, ran, findings⟩ := flush_runs rowPerRecord
      (List.append_ne_nil_of_right_ne_nil _ (List.cons_ne_nil _ _)) before progress.validated
      progress.ran progress.findings flushed
    refine ⟨runs ++ [run], ?_⟩
    exact {
      read := progress.read.snoc taken
      whole := by
        rw [List.map_append, List.flatten_append, List.append_nil, ← whole]
        simp [records]
      full := by
        intro found member
        rcases List.mem_append.mp member with inside | last
        · exact progress.full found inside
        · obtain rfl := List.mem_singleton.mp last
          have small := progress.small
          rw [records]
          simp only [List.length_append, List.length_singleton, ge_iff_le] at large ⊢
          omega
      small := by simp
      counted := counted
      validated := validated
      ran := ran
      findings := findings }
  case isFalse small =>
    obtain ⟨rfl, rfl⟩ := Prod.mk.inj (Except.ok.inj joined)
    refine ⟨runs, ?_⟩
    exact {
      read := progress.read.snoc taken
      whole := whole
      full := progress.full
      small := by
        simp only [ge_iff_le, Nat.not_le] at small
        omega
      counted := progress.counted
      validated := progress.validated
      ran := progress.ran
      findings := progress.findings }

theorem Progress.line (rowPerRecord : RowPerRecord env)
    (progress : Progress env validator source lines runs src batch state) {line : RawLine}
    (taken : src.nextLine = .ok (some line, next))
    (processed : processLine env validator line batch state = .ok (rest, final)) :
    ∃ runs', Progress env validator source (lines ++ [line]) runs' next rest final := by
  cases joins : accepted env validator line with
  | none =>
    obtain ⟨policy, kind, reason, preview, _, rejected⟩ :=
      processLine_rejected env validator line joins
    rw [rejected] at processed
    obtain ⟨state', rejects, same⟩ := (Results.bind_ok_iff ..).mp processed
    obtain ⟨rfl, rfl⟩ : batch = rest ∧ state' = final := by simpa [pure, Except.pure] using same
    exact ⟨runs, progress.rejected taken joins policy kind reason preview rejects⟩
  | some record =>
    obtain ⟨value, _, _, accepts⟩ := processLine_accepted env validator line record joins
    rw [accepts] at processed
    exact progress.joined rowPerRecord taken joins _ processed

theorem Progress.start (env : StreamEnv F) (validator : StreamValidator F)
    (source : NdjsonSource) (dataset : String) :
    Progress env validator source [] [] source [] (RunState.new dataset) where
  read := .stop source
  whole := rfl
  full := fun _ member => absurd member List.not_mem_nil
  small := by simp
  counted := rfl
  validated := rfl
  ran := fun _ _ found => by simp at found
  findings := rfl

theorem stopAtLimit_frame (hit : StreamLimitHit) (last : NdjsonSource)
    (stops : stopAtLimit hit src state = .ok (last, final)) :
    final.findings = state.findings ∧ final.batches = state.batches ∧
      final.recordsValidated = state.recordsValidated := by
  obtain ⟨⟨line, read⟩, _, same⟩ := (Results.bind_ok_iff ..).mp stops
  obtain ⟨-, rfl⟩ := Prod.mk.inj (Except.ok.inj same)
  cases line <;> exact ⟨rfl, rfl, rfl⟩

omit [Float64 F] in
theorem ends_frame {last : NdjsonSource} (ends : Ends validator.options.limits src state last final) :
    final.findings = state.findings ∧ final.batches = state.batches ∧
      final.recordsValidated = state.recordsValidated := by
  rcases ends with ⟨_, _, rfl⟩ | ⟨hit, _, stops⟩
  · exact ⟨rfl, rfl, rfl⟩
  · exact stopAtLimit_frame hit last stops

theorem Progress.loop (rowPerRecord : RowPerRecord env)
    (progress : Progress env validator source lines runs src batch state) {last : NdjsonSource}
    (ran : runLoop env validator src batch state = .ok (last, rest, final)) :
    ∃ lines' runs' src', Progress env validator source lines' runs' src' rest final := by
  obtain ⟨lines', src', state', ⟨runs', progress⟩, ends⟩ := runLoop_rule
    (fun lines src batch state => ∃ runs, Progress env validator source lines runs src batch state)
    (fun _ _ _ _ _ _ _ _ ⟨_, progress⟩ _ taken processed =>
      progress.line rowPerRecord taken processed) ⟨runs, progress⟩ ran
  obtain ⟨findings, batches, records⟩ := ends_frame ends
  exact ⟨lines', runs', src', { progress with
    counted := batches.trans progress.counted
    validated := records.trans progress.validated
    findings := findings.trans progress.findings }⟩

end Steps

section Report

variable {env : StreamEnv F} {validator : StreamValidator F} {source : NdjsonSource}

theorem Cut.of_full {α : Type} {size : Nat} {items rest : List α} {batches : List (List α)}
    (positive : 0 < size) (whole : batches.flatten ++ rest = items)
    (full : ∀ batch ∈ batches, batch.length = size) (small : rest.length < size) :
    Cut size items (if rest = [] then batches else batches ++ [rest]) := by
  have filled : ∀ batch ∈ batches, batch ≠ [] := by
    intro batch member empty
    have length := full batch member
    rw [empty, List.length_nil] at length
    omega
  split
  case isTrue empty =>
    subst empty
    exact {
      whole := by rw [← whole, List.append_nil]
      some := filled
      bounded := fun batch member => Nat.le_of_eq (full batch member)
      full := fun batch member => full batch ((List.dropLast_sublist _).subset member) }
  case isFalse some =>
    exact {
      whole := by rw [List.flatten_append, ← whole]; simp
      some := by
        intro batch member
        rcases List.mem_append.mp member with inside | last
        · exact filled batch inside
        · exact (List.mem_singleton.mp last).symm ▸ some
      bounded := by
        intro batch member
        rcases List.mem_append.mp member with inside | last
        · exact Nat.le_of_eq (full batch inside)
        · obtain rfl := List.mem_singleton.mp last
          exact Nat.le_of_lt small
      full := by
        intro batch member
        rw [List.dropLast_concat] at member
        exact full batch member }

instance findingOrder_trans : Std.TransCmp RunState.findingOrder := by
  unfold RunState.findingOrder
  infer_instance

omit [Float64 F] in
theorem findingsOf_some (k : Nat) (run : BatchRun F) (v : Violation F) (f : StreamFinding) (r : Nat)
    (member : f ∈ findingsOf k run v) (named : f.record = some r) :
    f.batch = k ∧ f.column = v.column ∧ f.check = v.check ∧
      ∃ row ∈ v.rowIndices, (run.records[row]?).map Prod.fst = some r := by
  unfold findingsOf at member
  split at member
  · obtain rfl := List.mem_singleton.mp member
    cases named
  · obtain ⟨row, listed, rfl⟩ := List.mem_map.mp member
    exact ⟨rfl, rfl, rfl, row, listed, named⟩

omit [Float64 F] in
theorem findingsOf_severity (k : Nat) (run : BatchRun F) (v : Violation F) :
    (∃ f, f ∈ findingsOf k run v) ∧ ∀ f ∈ findingsOf k run v, f.severity = v.severity := by
  unfold findingsOf
  split
  case isTrue =>
    refine ⟨⟨_, List.mem_singleton_self _⟩, fun f member => ?_⟩
    rw [List.mem_singleton.mp member]
  case isFalse some =>
    obtain ⟨row, listed⟩ := List.exists_mem_of_ne_nil _ some
    refine ⟨⟨_, List.mem_map_of_mem listed⟩, fun f member => ?_⟩
    obtain ⟨_, _, rfl⟩ := List.mem_map.mp member
    rfl

omit [Float64 F] in
theorem blocking_iff (runs : List (BatchRun F)) :
    (∃ f ∈ reportedFindings runs, f.severity = .blocking) ↔
      ∃ run ∈ runs, ∃ v ∈ run.report.violations, v.severity = .blocking := by
  constructor
  · rintro ⟨f, member, blocking⟩
    obtain ⟨k, run, found, v, reports, inside⟩ := (mem_reportedFindings runs f).mp member
    refine ⟨run, List.mem_of_getElem? found, v, reports, ?_⟩
    rw [← (findingsOf_severity k run v).2 f inside, blocking]
  · rintro ⟨run, member, v, reports, blocking⟩
    obtain ⟨k, found⟩ := List.mem_iff_getElem?.mp member
    obtain ⟨⟨f, inside⟩, severity⟩ := findingsOf_severity k run v
    refine ⟨f, (mem_reportedFindings runs f).mpr ⟨k, run, found, v, reports, inside⟩, ?_⟩
    rw [severity f inside, blocking]

theorem accepted_record (line : RawLine) (record : Nat × Value)
    (joins : accepted env validator line = some record) : line.record = record.1 := by
  unfold accepted at joins
  split at joins
  · cases joins
  · split at joins
    · obtain rfl := Option.some.inj joins
      rfl
    · cases joins

/-- The records of the batches are those of lines that were accepted, and of no others. -/
theorem records_valid {lines : List RawLine} {runs : List (BatchRun F)} {last : NdjsonSource}
    (reads : Reads source lines last)
    (whole : (runs.map BatchRun.records).flatten = lines.filterMap (accepted env validator))
    (run : BatchRun F) (member : run ∈ runs) (record : Nat × Value) (inside : record ∈ run.records) :
    (∃ line ∈ lines, line.record = record.1) ∧
      ∀ line ∈ lines, line.record = record.1 → (accepted env validator line).isSome = true := by
  have listed : record ∈ lines.filterMap (accepted env validator) := by
    rw [← whole, List.mem_flatten]
    exact ⟨run.records, List.mem_map_of_mem member, inside⟩
  obtain ⟨line, present, joins⟩ := List.mem_filterMap.mp listed
  have number := accepted_record line record joins
  refine ⟨⟨line, present, number⟩, fun other also same => ?_⟩
  obtain rfl := List.inj_on_of_nodup_map reads.distinct also present (same.trans number.symm)
  rw [joins]
  rfl

theorem attributed {lines : List RawLine} {runs : List (BatchRun F)} {last : NdjsonSource}
    {state : RunState} (start : source.recordIndex = 0) (reads : Reads source lines last)
    (cut : Cut (max validator.options.limits.batchSize 1)
      (lines.filterMap (accepted env validator)) (runs.map BatchRun.records))
    (ran : ∀ k run, runs[k]? = some run → Ran env validator k run)
    (counted : state.batches = runs.length)
    (validated : state.recordsValidated = (runs.map BatchRun.records).flatten.length)
    (findings : state.findings = reportedFindings runs) :
    Attributed env validator source lines runs state.finish := by
  have perm : state.finish.findings.Perm (reportedFindings runs) := by
    rw [← findings]
    exact List.perm_insertionSort _ _
  have names : ∀ f ∈ state.finish.findings, ∀ r, f.record = some r →
      ∃ run v row, Names runs f r run v row := by
    intro f member r named
    obtain ⟨k, run, found, v, reports, inside⟩ :=
      (mem_reportedFindings runs f).mp (perm.subset member)
    obtain ⟨rfl, column, check, row, listed, record⟩ := findingsOf_some k run v f r inside named
    exact ⟨run, v, row, found, reports, listed, record, column, check⟩
  exact {
    read := ⟨last, reads⟩
    numbered := by rw [reads.records, start, List.range_eq_range']
    cut := cut
    ran := ran
    batches := counted
    validated := by rw [← cut.whole, ← validated]; rfl
    exactly := perm
    names := names
    valid := by
      intro f member r named
      obtain ⟨run, v, row, here⟩ := names f member r named
      obtain ⟨record, found, rfl⟩ := Option.map_eq_some_iff.mp here.record
      exact records_valid reads cut.whole run (List.mem_of_getElem? here.batch) record
        (List.mem_of_getElem? found)
    sorted := Slices.sorted_sortBy RunState.findingOrder state.findings
    passed := by
      rw [← blocking_iff]
      have gate : state.finish.passed =
          ! state.finish.findings.any (fun f => f.severity == .blocking) := rfl
      rw [gate, Bool.not_eq_false', List.any_eq_true]
      simp only [beq_iff_eq, perm.mem_iff] }

/-- Every run that returns attributes its findings to the right records. -/
theorem findings_attributed {reader : Reader} {report : StreamReport}
    (rowPerRecord : RowPerRecord env)
    (ran : validateReader env validator reader = .ok report) :
    ∃ lines runs, Attributed env validator
      (NdjsonSource.new reader validator.options.limits.maxRecordBytes) lines runs report := by
  obtain ⟨⟨src, batch, state⟩, looped, ran⟩ := (Results.bind_ok_iff ..).mp ran
  obtain ⟨state', flushed, same⟩ := (Results.bind_ok_iff ..).mp ran
  obtain rfl := Except.ok.inj same
  have start := Progress.start env validator
    (NdjsonSource.new reader validator.options.limits.maxRecordBytes) validator.contract.name
  obtain ⟨lines, runs, last, progress⟩ := start.loop rowPerRecord looped
  have positive : 0 < max validator.options.limits.batchSize 1 := by omega
  have full : ∀ records ∈ runs.map BatchRun.records,
      records.length = max validator.options.limits.batchSize 1 := by
    intro records member
    obtain ⟨run, inside, rfl⟩ := List.mem_map.mp member
    exact progress.full run inside
  have cut := Cut.of_full positive progress.whole full progress.small
  by_cases empty : batch = []
  · rw [if_pos empty] at cut
    rw [flushBatch, empty] at flushed
    obtain rfl := Except.ok.inj flushed
    exact ⟨lines, runs, attributed rfl progress.read cut progress.ran progress.counted
      progress.validated progress.findings⟩
  · rw [if_neg empty] at cut
    obtain ⟨run, records, counted, validated, ranAll, findings⟩ := flush_runs rowPerRecord empty
      progress.counted progress.validated progress.ran progress.findings flushed
    refine ⟨lines, runs ++ [run],
      attributed rfl progress.read ?_ ranAll counted validated findings⟩
    rw [List.map_append, List.map_singleton, records]
    exact cut

end Report

section Sample

def idValue (digit : String) : Value := .object [("id", .number digit)]

def idTexts : List (String × List UInt8) :=
  [("1", "\x7b\"id\":1\x7d".toUTF8.toList), ("5", "\x7b\"id\":5\x7d".toUTF8.toList),
    ("9", "\x7b\"id\":9\x7d".toUTF8.toList)]

def idFrame (ids : List Int) : DataFrame ExtRat where
  height := ids.length
  columns := [.series "id" ⟨.int64, ids.map some⟩]
  aligned := by simp [Column.len, Series.len]
  distinct := by simp

def digitValue (b : UInt8) : Option Int :=
  if 48 ≤ b && b ≤ 57 then some (b.toNat - 48) else none

/-- JSON restricted to objects with an `id` of one digit. -/
def idEnv : StreamEnv ExtRat where
  engine := exactEnv
  text := ⟨id, id, fun _ => ""⟩
  fromStr content :=
    match idTexts.find? (fun text => text.2 == content.toUTF8.toList) with
    | some text => .ok (idValue text.1)
    | none => .error "expected value at line 1 column 1"
  toWriter
    | .object [("id", .number digit)] =>
      match idTexts.find? (fun text => text.1 == digit) with
      | some text => .ok text.2
      | none => .error "unsupported"
    | _ => .error "unsupported"
  readJsonLines buf := .ok (idFrame (buf.filterMap digitValue))

theorem idEnv_line (value : Value) (bytes : List UInt8)
    (written : idEnv.toWriter value = .ok bytes) :
    ((bytes ++ [newline]).filterMap digitValue).length = 1 := by
  have each : ∀ text ∈ idTexts, ((text.2 ++ [newline]).filterMap digitValue).length = 1 := by
    decide +kernel
  simp only [idEnv] at written
  split at written
  · split at written
    case h_1 text found =>
      obtain rfl := Except.ok.inj written
      exact each text (List.mem_of_find?_eq_some found)
    case h_2 => cases written
  · cases written

theorem idEnv_rowPerRecord : RowPerRecord idEnv := by
  intro k records buf df encoded read
  obtain rfl := Except.ok.inj read
  obtain ⟨lines, written, same⟩ := (Results.bind_ok_iff ..).mp encoded
  obtain rfl := Except.ok.inj same
  have each := (Results.mapM_ok_iff ..).mp written
  clear encoded written read same
  show (lines.flatten.filterMap digitValue).length = records.length
  induction each with
  | nil => rfl
  | @cons record line records lines head tail ih =>
    have one : (line.filterMap digitValue).length = 1 := by
      split at head
      case h_1 bytes wrote =>
        obtain rfl := Except.ok.inj head
        exact idEnv_line record.2 bytes wrote
      case h_2 => cases head
    rw [List.flatten_cons, List.filterMap_append, List.length_append, ih, one, List.length_cons,
      Nat.add_comm]

def idContract : DataContract ExtRat :=
  { DataContract.new "events" with
    schema := [⟨"id", .int, [.between (Float64.ofRat 0) (Float64.ofRat 1)]⟩] }

def idValidator : StreamValidator ExtRat where
  contract := idContract
  dag := Compiler.compile idContract
  options :=
    { limits := { StreamLimits.default with batchSize := 2 }
      malformed := .skip
      oversized := .default
      sanitizer := ⟨⟨[], false⟩, ⟨[], [], [], false⟩⟩
      allowRawDiagnostics := false }

def idLines : Reader :=
  [.chunk "\x7b\"id\":1\x7d\nNOT JS".toUTF8.toList, .interrupted,
    .chunk "ON\n\x7b\"id\":5\x7d\n\n\x7b\"id\":9\x7d\n".toUTF8.toList]

theorem findings_attributed_ids :
    ∃ (report : StreamReport) (lines : List RawLine) (runs : List (BatchRun ExtRat)),
      validateReader idEnv idValidator idLines = .ok report ∧
      report.findings.map (·.record) = [some 2, some 2, some 3, some 3] ∧
      Attributed idEnv idValidator (NdjsonSource.new idLines (8 * 1024 * 1024)) lines runs report := by
  obtain ⟨report, ran, records⟩ := Results.ok_of_any (validateReader idEnv idValidator idLines)
    (fun report => report.findings.map (·.record) == [some 2, some 2, some 3, some 3])
    (by decide +kernel)
  obtain ⟨lines, runs, attributed⟩ := findings_attributed idEnv_rowPerRecord ran
  exact ⟨report, lines, runs, ran, beq_iff_eq.mp records, attributed⟩

end Sample

end StatGuardian.Stream
