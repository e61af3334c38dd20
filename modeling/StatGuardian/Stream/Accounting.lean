import StatGuardian.Stream.Attribution

namespace StatGuardian.Stream

open StatGuardian.Core Engine Metrics Polars Validators

variable {F : Type} [Float64 F]

section Accounts

variable (env : StreamEnv F) (validator : StreamValidator F)

/-- The lines that a run has handled, each of them validated or counted as malformed. -/
structure Handled (source : NdjsonSource) (lines : List RawLine) (report : StreamReport) :
    Prop where
  read : ∃ last, Reads source lines last
  validated : report.recordsValidated = (lines.filterMap (accepted env validator)).length
  malformed : report.malformedCount =
    lines.countP (fun line => (accepted env validator line).isNone)

/-- The pieces of the input that come out as lines, without the first `handled` of them. -/
def unhandled (limits : StreamLimits) (reader : Reader) (handled : Nat) : List (List UInt8) :=
  (reader.pieces.filter (NdjsonSource.handedOut (max limits.maxRecordBytes 1))).drop handled

structure Accounted (limits : StreamLimits) (reader : Reader) (report : StreamReport) : Prop where
  exact : report.recordsRead = report.recordsValidated + report.malformedCount
  bounded : ∀ max, limits.maxRecords = some max → report.recordsRead ≤ max
  truncated : report.truncated = true ↔
    ∃ piece ∈ unhandled limits reader (report.recordsValidated + report.malformedCount),
      NdjsonSource.isBlank piece = false

/-- Where a limit is reached, the input has no further line. -/
def RunsOut (limits : StreamLimits) (source : NdjsonSource) : Prop :=
  ∀ lines src, Reads source lines src → limitReached limits src ≠ none →
    ∀ line next, src.nextLine ≠ .ok (some line, next)

inductive LetThrough (limits : StreamLimits) : NdjsonSource → List RawLine → Prop where
  | limited {src : NdjsonSource} : limitReached limits src ≠ none → LetThrough limits src []
  | ended {src last : NdjsonSource} : limitReached limits src = none →
      src.nextLine = .ok (none, last) → LetThrough limits src []
  | line {src next : NdjsonSource} {line : RawLine} {lines : List RawLine} :
      limitReached limits src = none → src.nextLine = .ok (some line, next) →
        LetThrough limits next lines → LetThrough limits src (line :: lines)

/-- The loop after some lines, none of which was past a limit. -/
structure Tally (source : NdjsonSource) (lines : List RawLine) (src : NdjsonSource)
    (batch : List (Nat × Value)) (state : RunState) : Prop where
  read : Reads source lines src
  validated : state.recordsValidated + batch.length =
    (lines.filterMap (accepted env validator)).length
  malformed : state.malformedCount =
    lines.countP (fun line => (accepted env validator line).isNone)
  untruncated : state.truncated = false
  unlimited : ∀ before mid, Reads source before mid → before.length < lines.length →
    limitReached validator.options.limits mid = none

end Accounts

section Steps

variable {env : StreamEnv F} {validator : StreamValidator F}

theorem flushBatch_counts (batch : List (Nat × Value)) (state final : RunState)
    (flushed : flushBatch env validator batch state = .ok final) :
    final.recordsValidated = state.recordsValidated + batch.length ∧
      final.malformedCount = state.malformedCount ∧ final.truncated = state.truncated := by
  by_cases empty : batch = []
  · subst empty
    obtain rfl := Except.ok.inj flushed
    exact ⟨rfl, rfl, rfl⟩
  · obtain ⟨df, report, _, _, rfl⟩ := (flushBatch_ok_iff _ _ batch state final empty).mp flushed
    exact ⟨rfl, rfl, rfl⟩

/-- Every accepted record is validated or waits, and every other line is counted. -/
theorem processLine_counts (line : RawLine) (batch rest : List (Nat × Value))
    (state final : RunState)
    (processed : processLine env validator line batch state = .ok (rest, final)) :
    final.recordsValidated + rest.length = state.recordsValidated + batch.length +
        (accepted env validator line).toList.length ∧
      final.malformedCount = state.malformedCount +
        (if (accepted env validator line).isNone then 1 else 0) ∧
      final.truncated = state.truncated := by
  cases joins : accepted env validator line with
  | none =>
    obtain ⟨policy, kind, reason, preview, _, rejects⟩ :=
      processLine_rejected env validator line joins
    rw [rejects] at processed
    obtain ⟨state', rejected, same⟩ := (Results.bind_ok_iff ..).mp processed
    obtain ⟨rfl, rfl⟩ : batch = rest ∧ state' = final := by simpa [pure, Except.pure] using same
    obtain ⟨kept, rfl⟩ := reject_ok rejected
    exact ⟨rfl, rfl, rfl⟩
  | some record =>
    obtain ⟨value, _, _, accepts⟩ := processLine_accepted env validator line record joins
    rw [accepts, joinBatch] at processed
    split at processed
    · obtain ⟨state', flushed, same⟩ := (Results.bind_ok_iff ..).mp processed
      obtain ⟨rfl, rfl⟩ : [] = rest ∧ state' = final := by simpa [pure, Except.pure] using same
      obtain ⟨validated, malformed, truncated⟩ := flushBatch_counts _ _ _ flushed
      rw [validated, malformed, truncated, List.length_append]
      exact ⟨(Nat.add_assoc ..).symm, rfl, rfl⟩
    · obtain ⟨rfl, rfl⟩ := Prod.mk.inj (Except.ok.inj processed)
      rw [List.length_append]
      exact ⟨(Nat.add_assoc ..).symm, rfl, rfl⟩

variable {source : NdjsonSource} {lines : List RawLine} {src next : NdjsonSource}
  {batch rest : List (Nat × Value)} {state final : RunState}

theorem Tally.line (tally : Tally env validator source lines src batch state) {line : RawLine}
    (open_ : limitReached validator.options.limits src = none)
    (taken : src.nextLine = .ok (some line, next))
    (processed : processLine env validator line batch state = .ok (rest, final)) :
    Tally env validator source (lines ++ [line]) next rest final := by
  obtain ⟨validated, malformed, truncated⟩ := processLine_counts line batch rest state final processed
  exact {
    read := tally.read.snoc taken
    validated := by
      rw [validated, tally.validated, List.filterMap_append, List.length_append]
      cases joins : accepted env validator line <;> simp [joins]
    malformed := by
      rw [malformed, tally.malformed, List.countP_append, List.countP_singleton]
    untruncated := truncated.trans tally.untruncated
    unlimited := by
      intro before mid reads short
      rw [List.length_append, List.length_singleton] at short
      rcases Nat.lt_succ_iff_lt_or_eq.mp short with inside | last
      · exact tally.unlimited before mid reads inside
      · obtain ⟨after, same, more⟩ := tally.read.prefix_of_le reads (Nat.le_of_eq last)
        obtain rfl : after = [] := by
          have lengths := congrArg List.length same
          rw [List.length_append, last] at lengths
          exact List.length_eq_zero_iff.mp (by omega)
        rwa [← more.nil_eq] }

theorem Tally.start (env : StreamEnv F) (validator : StreamValidator F) (source : NdjsonSource)
    (dataset : String) : Tally env validator source [] source [] (RunState.new dataset) where
  read := .stop source
  validated := rfl
  malformed := rfl
  untruncated := rfl
  unlimited := fun _ _ _ short => absurd short (Nat.not_lt_zero _)

omit [Float64 F] in
theorem ends_counts {limits : StreamLimits} {last : NdjsonSource}
    (ends : Ends limits src state last final) (untruncated : state.truncated = false) :
    final.recordsValidated = state.recordsValidated ∧
      final.malformedCount = state.malformedCount ∧
      ((src.nextLine = .ok (none, last) ∧ final.truncated = false ∧
          last.recordIndex = src.recordIndex) ∨
        ∃ line, limitReached limits src ≠ none ∧ src.nextLine = .ok (some line, last) ∧
          final.truncated = true ∧ last.recordIndex = src.recordIndex + 1) := by
  have stays : src.nextLine = .ok (none, last) → last.recordIndex = src.recordIndex := by
    intro taken
    obtain ⟨_, _, _, _, number⟩ := NdjsonSource.nextLine_pieces src last none taken
    exact number
  rcases ends with ⟨_, taken, rfl⟩ | ⟨hit, reached, stops⟩
  · exact ⟨rfl, rfl, .inl ⟨taken, untruncated, stays taken⟩⟩
  · obtain ⟨⟨line, read⟩, taken, same⟩ := (Results.bind_ok_iff ..).mp stops
    obtain ⟨rfl, rfl⟩ := Prod.mk.inj (Except.ok.inj same)
    rw [readLine_ok_iff] at taken
    cases line with
    | none => exact ⟨rfl, rfl, .inl ⟨taken, untruncated, stays taken⟩⟩
    | some line =>
      refine ⟨rfl, rfl, .inr ⟨line, by simp [reached], taken, rfl, ?_⟩⟩
      exact (NdjsonSource.nextLine_some src read line taken).2.1

theorem limitReached_records {limits : StreamLimits} (open_ : limitReached limits src = none)
    (max : Nat) (bound : limits.maxRecords = some max) : src.recordIndex < max := by
  by_contra reached
  have past : decide (src.recordsRead ≥ max) = true := decide_eq_true (Nat.le_of_not_lt reached)
  have hit : limits.maxRecords.filter (fun max => src.recordsRead ≥ max) = some max := by
    rw [bound, Option.filter_some, if_pos past]
  rw [limitReached, hit] at open_
  cases open_

theorem Tally.bounded (tally : Tally env validator source lines src batch state)
    (start : source.recordIndex = 0) (max : Nat)
    (bound : validator.options.limits.maxRecords = some max) : lines.length ≤ max := by
  rcases List.eq_nil_or_concat lines with rfl | ⟨before, line, rfl⟩
  · exact Nat.zero_le max
  · rw [List.concat_eq_append] at tally ⊢
    obtain ⟨mid, first, _⟩ := tally.read.split
    have short : before.length < (before ++ [line]).length := by simp
    have below := limitReached_records (tally.unlimited before mid first short) max bound
    rw [first.recordIndex, start] at below
    rw [List.length_append, List.length_singleton]
    omega

end Steps

section Report

variable {env : StreamEnv F} {validator : StreamValidator F}

theorem length_handled (lines : List RawLine) :
    (lines.filterMap (accepted env validator)).length +
      lines.countP (fun line => (accepted env validator line).isNone) = lines.length := by
  induction lines with
  | nil => rfl
  | cons line lines ih =>
    rw [List.filterMap_cons, List.countP_cons]
    cases accepted env validator line <;> simp <;> omega

theorem unhandled_eq_nil (limits : StreamLimits) (reader : Reader) (lines : List RawLine)
    (src last : NdjsonSource) (reads : Reads (NdjsonSource.new reader limits.maxRecordBytes) lines src)
    (ended : src.nextLine = .ok (none, last)) : unhandled limits reader lines.length = [] := by
  obtain ⟨passed, past, count⟩ := reads.passed
  obtain ⟨skipped, silent, further, none, _⟩ := NdjsonSource.nextLine_pieces src last _ ended
  have pieces : reader.pieces = passed ++ skipped := by
    have all := (past.trans further).pieces
    rwa [none, List.append_nil] at all
  have blank : skipped.filter (NdjsonSource.handedOut (max limits.maxRecordBytes 1)) = [] := by
    rw [List.filter_eq_nil_iff]
    intro piece member
    have quiet := silent piece member
    rw [past.cap] at quiet
    exact Bool.eq_false_iff.mp quiet
  rw [unhandled, pieces, List.filter_append, blank, List.append_nil, ← count]
  exact List.drop_length

/-- What the loop of a run has counted when it ends is what the report says. -/
theorem run_tally {reader : Reader} {report : StreamReport}
    (ran : validateReader env validator reader = .ok report) :
    ∃ lines src batch state last final,
      Tally env validator (NdjsonSource.new reader validator.options.limits.maxRecordBytes) lines src
        batch state ∧
      Ends validator.options.limits src state last final ∧
      report.recordsRead = last.recordIndex ∧ report.truncated = final.truncated ∧
      Handled env validator (NdjsonSource.new reader validator.options.limits.maxRecordBytes) lines
        report := by
  obtain ⟨⟨last, batch, final⟩, looped, ran⟩ := (Results.bind_ok_iff ..).mp ran
  obtain ⟨flushed, flushes, same⟩ := (Results.bind_ok_iff ..).mp ran
  obtain rfl := Except.ok.inj same
  have start := Tally.start env validator
    (NdjsonSource.new reader validator.options.limits.maxRecordBytes) validator.contract.name
  obtain ⟨lines, src, state, tally, ends⟩ := runLoop_rule
    (Tally env validator (NdjsonSource.new reader validator.options.limits.maxRecordBytes))
    (fun _ _ _ _ _ _ _ _ tally open_ taken processed => tally.line open_ taken processed)
    start looped
  obtain ⟨validated, malformed, _⟩ := ends_counts ends tally.untruncated
  obtain ⟨flushedValidated, flushedMalformed, flushedTruncated⟩ :=
    flushBatch_counts batch final flushed flushes
  refine ⟨lines, src, batch, state, last, final, tally, ends, rfl, flushedTruncated,
    ⟨src, tally.read⟩, ?_, ?_⟩
  · show flushed.recordsValidated = _
    rw [flushedValidated, validated, tally.validated]
  · show flushed.malformedCount = _
    rw [flushedMalformed, malformed, tally.malformed]

/-- The account of a run is exact when no limit has stopped it before the last line of the input,
    and otherwise it is not. -/
theorem accounted_iff {reader : Reader} {report : StreamReport}
    (ran : validateReader env validator reader = .ok report) :
    ∃ lines, Handled env validator
        (NdjsonSource.new reader validator.options.limits.maxRecordBytes) lines report ∧
      (Accounted validator.options.limits reader report ↔
        RunsOut validator.options.limits
          (NdjsonSource.new reader validator.options.limits.maxRecordBytes)) := by
  obtain ⟨lines, src, batch, state, last, final, tally, ends, recordsRead, truncation, handled⟩ :=
    run_tally ran
  obtain ⟨_, _, ending⟩ := ends_counts ends tally.untruncated
  have counted : report.recordsValidated + report.malformedCount = lines.length := by
    rw [handled.validated, handled.malformed, length_handled]
  have numbered : src.recordIndex = lines.length := by
    rw [tally.read.recordIndex]
    exact Nat.zero_add _
  refine ⟨lines, handled, ?_⟩
  rcases ending with ⟨ended, untruncated, number⟩ | ⟨line, reached, taken, truncated, number⟩
  · apply iff_of_true
    · exact {
        exact := by rw [recordsRead, number, numbered, counted]
        bounded := by
          intro max bound
          rw [recordsRead, number, numbered]
          exact tally.bounded rfl max bound
        truncated := by
          rw [truncation, untruncated, counted,
            unhandled_eq_nil _ reader lines src last tally.read ended]
          simp }
    · intro lines' mid reads reached line next taken
      rcases Nat.lt_or_ge lines'.length lines.length with short | long
      · exact reached (tally.unlimited lines' mid reads short)
      · obtain ⟨after, rfl, more⟩ := reads.prefix_of_le tally.read long
        cases more with
        | stop =>
          rw [ended] at taken
          cases taken
        | line first _ =>
          rw [ended] at first
          cases first
  · apply iff_of_false
    · intro accounted
      have exact_ := accounted.exact
      omega
    · intro runsOut
      exact runsOut lines src tally.read reached line last taken

theorem letThrough_of_tally {limits : StreamLimits} {source src last : NdjsonSource}
    {lines : List RawLine} {state final : RunState} (reads : Reads source lines src)
    (unlimited : ∀ before mid, Reads source before mid → before.length < lines.length →
      limitReached limits mid = none)
    (ends : Ends limits src state last final) : LetThrough limits source lines := by
  induction reads with
  | stop src =>
    rcases ends with ⟨open_, ended, _⟩ | ⟨hit, reached, _⟩
    · exact .ended open_ ended
    · exact .limited (by simp [reached])
  | @line source next src line lines taken _ ih =>
    apply LetThrough.line (unlimited [] source (.stop source) (by simp)) taken
    apply ih _ ends
    intro before mid first short
    exact unlimited (line :: before) mid (.line taken first) (by simpa using short)

theorem letThrough_exists (limits : StreamLimits) (src : NdjsonSource)
    (sound : src.reader.Sound) : ∃ lines, LetThrough limits src lines := by
  induction size : src.reader.size using Nat.strongRecOn generalizing src with
  | ind n ih =>
    cases reached : limitReached limits src with
    | some hit => exact ⟨[], .limited (by simp [reached])⟩
    | none =>
      obtain ⟨line, next, taken, later⟩ := NdjsonSource.nextLine_returns src sound
      cases line with
      | none => exact ⟨[], .ended reached taken⟩
      | some line =>
        have smaller := (NdjsonSource.nextLine_some src next line taken).2.2
        obtain ⟨lines, through⟩ := ih _ (size ▸ smaller) next later rfl
        exact ⟨line :: lines, .line reached taken through⟩

theorem LetThrough.unique {limits : StreamLimits} {source : NdjsonSource}
    {lines lines' : List RawLine} (through : LetThrough limits source lines)
    (through' : LetThrough limits source lines') : lines = lines' := by
  induction through generalizing lines' with
  | limited reached =>
    cases through' with
    | limited => rfl
    | ended => rfl
    | line open_ => exact absurd open_ reached
  | ended open_ ended =>
    cases through' with
    | limited => rfl
    | ended => rfl
    | line _ taken =>
      rw [ended] at taken
      cases taken
  | line open_ taken _ ih =>
    cases through' with
    | limited reached => exact absurd open_ reached
    | ended _ ended =>
      rw [ended] at taken
      cases taken
    | line _ taken' rest =>
      rw [taken, Except.ok.injEq, Prod.mk.injEq, Option.some.injEq] at taken'
      obtain ⟨rfl, rfl⟩ := taken'
      rw [ih rest]

end Report

section Limited

def firstOnly : StreamValidator ExtRat :=
  { idValidator with
    options := { idValidator.options with
      limits := { StreamLimits.default with maxRecords := some 1 } } }

def twoIds : Reader := [.chunk "\x7b\"id\":1\x7d\n\x7b\"id\":5\x7d\n".toUTF8.toList]

theorem peeked_record_counted :
    ∃ report : StreamReport, validateReader idEnv firstOnly twoIds = .ok report ∧
      ¬ Accounted firstOnly.options.limits twoIds report := by
  obtain ⟨report, ran, counts⟩ := Results.ok_of_any (validateReader idEnv firstOnly twoIds)
    (fun report => report.recordsRead == 2 && report.truncated) (by decide +kernel)
  refine ⟨report, ran, fun accounted => ?_⟩
  rw [Bool.and_eq_true, beq_iff_eq] at counts
  have bounded : report.recordsRead ≤ 1 := accounted.bounded 1 rfl
  omega

theorem accounted_iff_ids :
    ∃ (report : StreamReport) (lines : List RawLine),
      validateReader idEnv firstOnly twoIds = .ok report ∧
      Handled idEnv firstOnly (NdjsonSource.new twoIds (8 * 1024 * 1024)) lines report ∧
      (Accounted firstOnly.options.limits twoIds report ↔
        RunsOut firstOnly.options.limits (NdjsonSource.new twoIds (8 * 1024 * 1024))) := by
  obtain ⟨report, ran, _⟩ := Results.ok_of_any (validateReader idEnv firstOnly twoIds)
    (fun report => report.truncated) (by decide +kernel)
  obtain ⟨lines, handled, exact_⟩ := accounted_iff ran
  exact ⟨report, lines, ran, handled, exact_⟩

end Limited

end StatGuardian.Stream
