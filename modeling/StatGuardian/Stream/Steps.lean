import StatGuardian.Stream.Lines
import StatGuardian.Stream.Validator

namespace StatGuardian.Stream

open StatGuardian.Core Engine Metrics Polars Validators

inductive Reads : NdjsonSource → List RawLine → NdjsonSource → Prop where
  | stop (src : NdjsonSource) : Reads src [] src
  | line {src next last : NdjsonSource} {line : RawLine} {lines : List RawLine} :
      src.nextLine = .ok (some line, next) → Reads next lines last → Reads src (line :: lines) last

section Numbering

theorem Reads.snoc {src next last : NdjsonSource} {line : RawLine} {lines : List RawLine}
    (reads : Reads src lines last) (taken : last.nextLine = .ok (some line, next)) :
    Reads src (lines ++ [line]) next := by
  induction reads with
  | stop src => exact .line taken (.stop next)
  | line first _ ih => exact .line first (ih taken)

theorem Reads.records {src last : NdjsonSource} {lines : List RawLine}
    (reads : Reads src lines last) :
    lines.map RawLine.record = List.range' src.recordIndex lines.length := by
  induction reads with
  | stop src => rfl
  | @line src next last line lines first _ ih =>
    obtain ⟨number, due, -⟩ := NdjsonSource.nextLine_some src next line first
    rw [List.map_cons, List.length_cons, List.range'_succ, number, ih, due]

theorem Reads.distinct {src last : NdjsonSource} {lines : List RawLine}
    (reads : Reads src lines last) : (lines.map RawLine.record).Nodup := by
  rw [reads.records]
  exact List.nodup_range'

theorem Reads.recordIndex {src last : NdjsonSource} {lines : List RawLine}
    (reads : Reads src lines last) : last.recordIndex = src.recordIndex + lines.length := by
  induction reads with
  | stop src => rfl
  | @line src next last line lines first _ ih =>
    obtain ⟨-, due, -⟩ := NdjsonSource.nextLine_some src next line first
    rw [ih, due, List.length_cons]
    omega

end Numbering

section Prefixes

variable {src mid last : NdjsonSource} {lines before : List RawLine}

theorem Reads.split {after : List RawLine} (reads : Reads src (before ++ after) last) :
    ∃ mid, Reads src before mid ∧ Reads mid after last := by
  induction before generalizing src with
  | nil => exact ⟨src, .stop src, reads⟩
  | cons line before ih =>
    cases reads with
    | line taken rest =>
      obtain ⟨mid, first, second⟩ := ih rest
      exact ⟨mid, .line taken first, second⟩

theorem Reads.nil_eq (reads : Reads src [] last) : last = src := by
  cases reads
  rfl

/-- What is read does not depend on who reads: the shorter run is the start of the longer one. -/
theorem Reads.prefix_of_le (longer : Reads src lines last) (shorter : Reads src before mid)
    (le : before.length ≤ lines.length) : ∃ after, lines = before ++ after ∧ Reads mid after last := by
  induction shorter generalizing lines with
  | stop src => exact ⟨lines, rfl, longer⟩
  | @line src next mid line before taken _ ih =>
    cases longer with
    | stop => simp at le
    | line taken' rest =>
      rw [taken, Except.ok.injEq, Prod.mk.injEq, Option.some.injEq] at taken'
      obtain ⟨rfl, rfl⟩ := taken'
      obtain ⟨after, rfl, more⟩ := ih rest (Nat.le_of_succ_le_succ le)
      exact ⟨after, rfl, more⟩

theorem Reads.passed (reads : Reads src lines last) :
    ∃ passed, NdjsonSource.Passed src last passed ∧
      (passed.filter (NdjsonSource.handedOut src.maxRecordBytes)).length = lines.length := by
  induction reads with
  | stop src => exact ⟨[], .refl src, rfl⟩
  | @line src next last line lines taken _ ih =>
    obtain ⟨skipped, silent, piece, passed, out, -, -⟩ :=
      NdjsonSource.nextLine_pieces src next _ taken
    obtain ⟨later, further, count⟩ := ih
    rw [passed.cap] at count
    refine ⟨_, passed.trans further, ?_⟩
    have none : skipped.filter (NdjsonSource.handedOut src.maxRecordBytes) = [] :=
      List.filter_eq_nil_iff.mpr (fun piece member => by simp [silent piece member])
    rw [List.filter_append, List.filter_append, none, List.filter_cons_of_pos out, List.length_append,
      count]
    simp only [List.filter_nil, List.nil_append, List.length_cons, List.length_nil]
    omega

end Prefixes

variable {F : Type} [Float64 F]

section Lines

variable (env : StreamEnv F) (validator : StreamValidator F)

def accepted (line : RawLine) : Option (Nat × Value) :=
  if line.exceeded || ! line.utf8 then none
  else
    match env.fromStr line.content with
    | .ok value => some (line.record, (validator.options.sanitizer.sanitize env.text value).1)
    | .error _ => none

def joinBatch (record : Nat × Value) (batch : List (Nat × Value)) (state : RunState) :
    StreamResult (List (Nat × Value) × RunState) :=
  if (batch ++ [record]).length ≥ validator.options.limits.batchSize then do
    let state ← flushBatch env validator (batch ++ [record]) state
    return ([], state)
  else .ok (batch ++ [record], state)

theorem processLine_rejected (line : RawLine) (outside : accepted env validator line = none) :
    ∃ policy kind reason preview,
      (policy = validator.options.malformed ∨ policy = validator.options.oversized) ∧
      ∀ batch state, processLine env validator line batch state = (do
        let state ← state.reject policy line.record kind reason preview
        return (batch, state)) := by
  by_cases exceeded : line.exceeded = true
  · refine ⟨validator.options.oversized, .oversized,
      s!"line exceeded max_record_bytes ({validator.options.limits.maxRecordBytes}) and was discarded",
      none, .inr rfl, fun batch state => ?_⟩
    rw [processLine, if_pos exceeded]
  by_cases invalid : (! line.utf8) = true
  · refine ⟨validator.options.malformed, .utf8, "line is not valid UTF-8", none, .inl rfl,
      fun batch state => ?_⟩
    rw [processLine, if_neg exceeded, if_pos invalid]
  have readable : ¬ (line.exceeded || ! line.utf8) = true := by simp [exceeded, invalid]
  rw [accepted, if_neg readable] at outside
  cases parsed : env.fromStr line.content with
  | error e =>
    refine ⟨validator.options.malformed, .json, s!"invalid JSON: {e}",
      if validator.options.allowRawDiagnostics then some (truncatePreview line.content 200) else none,
      .inl rfl, fun batch state => ?_⟩
    simp only [processLine, if_neg exceeded, if_neg invalid, parsed]
  | ok value => simp [parsed] at outside

theorem processLine_accepted (line : RawLine) (record : Nat × Value)
    (joins : accepted env validator line = some record) :
    ∃ value, env.fromStr line.content = .ok value ∧ record = (line.record,
        (validator.options.sanitizer.sanitize env.text value).1) ∧
      ∀ batch state, processLine env validator line batch state =
        joinBatch env validator record batch
          (state.recordSanitization (validator.options.sanitizer.sanitize env.text value).2) := by
  unfold accepted at joins
  split at joins
  · cases joins
  · rename_i readable
    rw [Bool.or_eq_true, not_or] at readable
    split at joins
    · rename_i value parsed
      obtain rfl := Option.some.inj joins
      refine ⟨value, parsed, rfl, fun batch state => ?_⟩
      simp only [processLine, if_neg readable.1, if_neg readable.2, parsed]
      rfl
    · cases joins

theorem reject_returns (state : RunState) (policy : MalformedPolicy) (record : Nat)
    (kind : MalformedKind) (reason : String) (preview : Option String)
    (tolerant : policy ≠ .failFast) :
    ∃ kept, state.reject policy record kind reason preview =
      .ok { state.countRejected kind with malformed := kept } := by
  cases policy with
  | failFast => exact absurd rfl tolerant
  | skip => exact ⟨state.malformed, rfl⟩
  | collect max =>
    simp only [RunState.reject]
    split
    · exact ⟨_, rfl⟩
    · exact ⟨state.malformed, rfl⟩

theorem reject_ok {state final : RunState} {policy : MalformedPolicy} {record : Nat}
    {kind : MalformedKind} {reason : String} {preview : Option String}
    (rejected : state.reject policy record kind reason preview = .ok final) :
    ∃ kept, final = { state.countRejected kind with malformed := kept } := by
  have tolerant : policy ≠ .failFast := by
    rintro rfl
    cases rejected
  obtain ⟨kept, returns⟩ := reject_returns state policy record kind reason preview tolerant
  exact ⟨kept, Except.ok.inj (rejected.symm.trans returns)⟩

def ranBatch (batch : List (Nat × Value)) (report : ValidationReport F) (state : RunState) :
    RunState :=
  { state with
    findings := state.findings ++
      report.violations.flatMap (violationFindings state.batches (batch.map Prod.fst))
    recordsValidated := state.recordsValidated + batch.length
    batches := state.batches + 1 }

theorem flushBatch_nil (state : RunState) : flushBatch env validator [] state = .ok state := rfl

theorem flushBatch_ok_iff (batch : List (Nat × Value)) (state final : RunState)
    (filled : batch ≠ []) :
    flushBatch env validator batch state = .ok final ↔
      ∃ df report, materialize env state.batches batch = .ok df ∧
        BatchExecutor.execute env.engine validator.contract validator.dag df none = .ok report ∧
        final = ranBatch batch report state := by
  have kept : ¬ batch.isEmpty = true := by simpa using filled
  have executed : ∀ df report, executeBatch env validator df = .ok report ↔
      BatchExecutor.execute env.engine validator.contract validator.dag df none = .ok report := by
    intro df report
    unfold executeBatch
    split
    · rename_i returned
      rw [returned, Except.ok.injEq, Except.ok.injEq]
    · rename_i failed
      simp [failed]
  rw [flushBatch, if_neg kept]
  simp only [Results.bind_ok_iff, executed]
  constructor
  · rintro ⟨df, made, report, returned, same⟩
    exact ⟨df, report, made, returned, (Except.ok.inj same).symm⟩
  · rintro ⟨df, report, made, returned, rfl⟩
    exact ⟨df, made, report, returned, rfl⟩

end Lines

section Loop

variable {env : StreamEnv F} {validator : StreamValidator F}

theorem runLoop_limited (src : NdjsonSource) (batch : List (Nat × Value)) (state : RunState)
    (hit : StreamLimitHit) (reached : limitReached validator.options.limits src = some hit) :
    runLoop env validator src batch state = (do
      let (src, state) ← stopAtLimit hit src state
      return (src, batch, state)) := by
  rw [runLoop]
  split
  · rename_i found
    obtain rfl := Option.some.inj (found.symm.trans reached)
    rfl
  · rename_i found
    cases found.symm.trans reached

theorem runLoop_ended (src last : NdjsonSource) (batch : List (Nat × Value)) (state : RunState)
    (unlimited : limitReached validator.options.limits src = none)
    (ended : src.nextLine = .ok (none, last)) :
    runLoop env validator src batch state = .ok (last, batch, state) := by
  have taken := (readLine_ok_iff src _).mpr ended
  rw [runLoop]
  split
  · rename_i found
    cases found.symm.trans unlimited
  · split
    · rename_i failed
      cases failed.symm.trans taken
    · rename_i found
      obtain ⟨-, rfl⟩ := Prod.mk.inj (Except.ok.inj (found.symm.trans taken))
      rfl
    · rename_i found
      cases found.symm.trans taken

theorem runLoop_line (src next : NdjsonSource) (line : RawLine) (batch : List (Nat × Value))
    (state : RunState) (unlimited : limitReached validator.options.limits src = none)
    (taken : src.nextLine = .ok (some line, next)) :
    runLoop env validator src batch state = (do
      let (batch, state) ← processLine env validator line batch state
      runLoop env validator next batch state) := by
  have taken := (readLine_ok_iff src _).mpr taken
  rw [runLoop]
  split
  · rename_i found
    cases found.symm.trans unlimited
  · split
    · rename_i failed
      cases failed.symm.trans taken
    · rename_i found
      cases found.symm.trans taken
    · rename_i found
      obtain ⟨same, rfl⟩ := Prod.mk.inj (Except.ok.inj (found.symm.trans taken))
      obtain rfl := Option.some.inj same
      cases processLine env validator _ batch state <;> rfl

/-- How the loop ends: the source has no further line, or a limit is reached before the next. -/
def Ends (limits : StreamLimits) (src : NdjsonSource) (state : RunState) (last : NdjsonSource)
    (final : RunState) : Prop :=
  (limitReached limits src = none ∧ src.nextLine = .ok (none, last) ∧ final = state) ∨
    ∃ hit, limitReached limits src = some hit ∧ stopAtLimit hit src state = .ok (last, final)

/-- The rule of the loop: what every line keeps holds of the lines handled when it ends. -/
theorem runLoop_rule
    (I : List RawLine → NdjsonSource → List (Nat × Value) → RunState → Prop)
    (step : ∀ lines src batch state line next batch' state', I lines src batch state →
      limitReached validator.options.limits src = none →
      src.nextLine = .ok (some line, next) →
      processLine env validator line batch state = .ok (batch', state') →
      I (lines ++ [line]) next batch' state')
    {lines : List RawLine} {src last : NdjsonSource} {batch rest : List (Nat × Value)}
    {state final : RunState} (holds : I lines src batch state)
    (ran : runLoop env validator src batch state = .ok (last, rest, final)) :
    ∃ lines' src' state', I lines' src' rest state' ∧
      Ends validator.options.limits src' state' last final := by
  fun_induction runLoop env validator src batch state generalizing lines with
  | case1 src batch state hit reached =>
    obtain ⟨⟨read, state'⟩, stops, same⟩ := (Results.bind_ok_iff ..).mp ran
    obtain ⟨rfl, rfl, rfl⟩ : read = last ∧ batch = rest ∧ state' = final := by
      simpa [pure, Except.pure] using same
    exact ⟨lines, src, state, holds, .inr ⟨hit, reached, stops⟩⟩
  | case2 src batch state unlimited halt failed => cases ran
  | case3 src batch state unlimited read taken =>
    obtain ⟨rfl, rfl, rfl⟩ : read = last ∧ batch = rest ∧ state = final := by simpa using ran
    exact ⟨lines, src, state, holds,
      .inl ⟨unlimited, (readLine_ok_iff src _).mp taken, rfl⟩⟩
  | case4 src batch state unlimited line next taken halt failed => cases ran
  | case5 src batch state unlimited line next taken batch' state' processed ih =>
    exact ih (step lines src batch state line next batch' state' holds unlimited
      ((readLine_ok_iff src _).mp taken) processed) ran

end Loop

end StatGuardian.Stream
