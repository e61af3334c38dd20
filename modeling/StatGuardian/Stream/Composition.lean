import StatGuardian.Library.CappedCollection
import StatGuardian.Stream.Accounting
import StatGuardian.Stream.Delivery
import StatGuardian.Stream.Summary

namespace StatGuardian.Stream

open StatGuardian.Core Engine Metrics Polars Validators CappedCollection

variable {F : Type} [Float64 F]

section Lines

def numberedLines (cap record : Nat) (pieces : List (List UInt8)) : List RawLine :=
  ((pieces.filter (NdjsonSource.handedOut cap)).zipIdx record).map
    (fun entry => NdjsonSource.lineOf cap entry.2 entry.1)

theorem numberedLines_silent (cap record : Nat) (skipped pieces : List (List UInt8))
    (silent : ∀ piece ∈ skipped, NdjsonSource.handedOut cap piece = false) :
    numberedLines cap record (skipped ++ pieces) = numberedLines cap record pieces := by
  have none : skipped.filter (NdjsonSource.handedOut cap) = [] :=
    List.filter_eq_nil_iff.mpr (fun piece member => by simp [silent piece member])
  rw [numberedLines, List.filter_append, none, List.nil_append, numberedLines]

theorem numberedLines_cons (cap record : Nat) (piece : List UInt8) (pieces : List (List UInt8))
    (out : NdjsonSource.handedOut cap piece = true) :
    numberedLines cap record (piece :: pieces) =
      NdjsonSource.lineOf cap record piece :: numberedLines cap (record + 1) pieces := by
  rw [numberedLines, List.filter_cons_of_pos out, List.zipIdx_cons, List.map_cons, numberedLines]

theorem numberedLines_append (cap record : Nat) (pieces more : List (List UInt8)) :
    numberedLines cap record (pieces ++ more) = numberedLines cap record pieces ++
      numberedLines cap (record + (numberedLines cap record pieces).length) more := by
  rw [numberedLines, List.filter_append, List.zipIdx_append, List.map_append, numberedLines,
    numberedLines, List.length_map, List.length_zipIdx]

def RawLine.later (records : Nat) (line : RawLine) : RawLine :=
  { line with record := line.record + records }

theorem lineOf_later (cap record records : Nat) (piece : List UInt8) :
    (NdjsonSource.lineOf cap record piece).later records =
      NdjsonSource.lineOf cap (record + records) piece := by
  unfold NdjsonSource.lineOf
  split
  · rfl
  · split <;> rfl

theorem numberedLines_later (cap record records : Nat) (pieces : List (List UInt8)) :
    numberedLines cap (record + records) pieces =
      (numberedLines cap record pieces).map (RawLine.later records) := by
  induction pieces generalizing record with
  | nil => rfl
  | cons piece pieces ih =>
    cases out : NdjsonSource.handedOut cap piece with
    | false =>
      rw [← List.singleton_append, numberedLines_silent _ _ _ _ (by simpa using out),
        numberedLines_silent _ _ _ _ (by simpa using out), ih]
    | true =>
      rw [numberedLines_cons _ _ _ _ out, numberedLines_cons _ _ _ _ out, List.map_cons,
        lineOf_later, Nat.add_right_comm, ih]

theorem records_numberedLines (cap record : Nat) (pieces : List (List UInt8)) :
    (numberedLines cap record pieces).map RawLine.record =
      List.range' record (numberedLines cap record pieces).length := by
  have numbered : RawLine.record ∘ (fun entry : List UInt8 × Nat =>
      NdjsonSource.lineOf cap entry.2 entry.1) = Prod.snd := by
    funext entry
    show (NdjsonSource.lineOf cap entry.2 entry.1).record = entry.2
    unfold NdjsonSource.lineOf
    split
    · rfl
    · split <;> rfl
  rw [numberedLines, List.map_map, numbered, List.length_map, List.length_zipIdx,
    List.zipIdx_map_snd]

end Lines

section Unlimited

variable (env : StreamEnv F) (validator : StreamValidator F)

def processLines : List RawLine → List (Nat × Value) → RunState →
    StreamResult (List (Nat × Value) × RunState)
  | [], batch, state => .ok (batch, state)
  | line :: lines, batch, state => do
    let (batch, state) ← processLine env validator line batch state
    processLines lines batch state

theorem processLines_append (lines more : List RawLine) (batch : List (Nat × Value))
    (state : RunState) :
    processLines env validator (lines ++ more) batch state = (do
      let (batch, state) ← processLines env validator lines batch state
      processLines env validator more batch state) := by
  induction lines generalizing batch state with
  | nil => rfl
  | cons line lines ih =>
    rw [List.cons_append, processLines, processLines]
    cases processLine env validator line batch state with
    | error halt => rfl
    | ok ended => exact ih ended.1 ended.2

def StreamLimits.Unlimited (limits : StreamLimits) : Prop :=
  limits.maxRecords = none ∧ limits.maxBytes = none

theorem limitReached_unlimited {limits : StreamLimits} (unlimited : limits.Unlimited)
    (src : NdjsonSource) : limitReached limits src = none := by
  simp only [limitReached, unlimited.1, unlimited.2, Option.filter_none, Option.map_none]

variable {env validator}

theorem runLoop_unlimited (unlimited : validator.options.limits.Unlimited) {src : NdjsonSource}
    (sound : src.reader.Sound) (batch : List (Nat × Value)) (state : RunState) :
    (runLoop env validator src batch state).map counted =
      (processLines env validator
        (numberedLines src.maxRecordBytes src.recordIndex src.reader.pieces) batch state).map
          (fun ended => (src.recordIndex +
            (numberedLines src.maxRecordBytes src.recordIndex src.reader.pieces).length,
              src.bytesConsumed + src.reader.content.length, ended)) := by
  fun_induction runLoop env validator src batch state with
  | case1 src batch state hit reached =>
    cases (limitReached_unlimited unlimited src).symm.trans reached
  | case2 src batch state _ halt failed =>
    obtain ⟨line, next, reads, -⟩ := NdjsonSource.nextLine_returns src sound
    cases failed.symm.trans ((readLine_ok_iff src _).mpr reads)
  | case3 src batch state _ last taken =>
    have reads := (readLine_ok_iff src _).mp taken
    obtain ⟨skipped, silent, passed, past, number⟩ := NdjsonSource.nextLine_pieces src last none reads
    obtain ⟨-, -, -, bytes, -⟩ := NdjsonSource.nextLine_due src last none reads
    have none : numberedLines src.maxRecordBytes src.recordIndex src.reader.pieces = [] := by
      rw [passed.pieces, past, numberedLines_silent _ _ _ _ silent]
      rfl
    rw [none, processLines]
    show Except.ok (last.recordIndex, last.bytesConsumed, batch, state) = Except.ok (_, _, batch, state)
    rw [number, bytes, List.length_nil, Nat.add_zero]
  | case4 src batch state _ line next taken halt failed =>
    have reads := (readLine_ok_iff src _).mp taken
    obtain ⟨skipped, silent, piece, passed, out, rfl, -⟩ :=
      NdjsonSource.nextLine_pieces src next _ reads
    rw [passed.pieces, List.append_assoc, numberedLines_silent _ _ _ _ silent,
      List.singleton_append, numberedLines_cons _ _ _ _ out, processLines, failed]
    rfl
  | case5 src batch state _ line next taken batch' state' processed ih =>
    have reads := (readLine_ok_iff src _).mp taken
    obtain ⟨skipped, silent, piece, passed, out, rfl, number⟩ :=
      NdjsonSource.nextLine_pieces src next _ reads
    obtain ⟨-, bytes, -⟩ := NdjsonSource.nextLine_due src next _ reads
    obtain ⟨_, nextToo, readsToo, soundToo⟩ := NdjsonSource.nextLine_returns src sound
    obtain ⟨-, rfl⟩ := Prod.mk.inj (Except.ok.inj (reads.symm.trans readsToo))
    rw [ih soundToo, passed.pieces, List.append_assoc, numberedLines_silent _ _ _ _ silent,
      List.singleton_append, numberedLines_cons _ _ _ _ out, processLines, processed, passed.cap,
      number, List.length_cons, ← bytes, Nat.add_assoc, Nat.add_comm 1]
    rfl

def inputLines (limits : StreamLimits) (input : List UInt8) : List RawLine :=
  numberedLines (max limits.maxRecordBytes 1) 0 (Pieces.splitAfter (· == newline) input)

theorem validateReader_unlimited (unlimited : validator.options.limits.Unlimited)
    {input : List UInt8} {reader : Reader} (delivers : reader.Delivers input) :
    validateReader env validator reader = (do
      let ended ← processLines env validator (inputLines validator.options.limits input) []
        (RunState.new validator.contract.name)
      closeRun env validator
        ((inputLines validator.options.limits input).length, input.length, ended)) := by
  have sound : (NdjsonSource.new reader validator.options.limits.maxRecordBytes).reader.Sound :=
    delivers.sound
  have looped := @runLoop_unlimited F _ env validator unlimited _ sound []
    (RunState.new validator.contract.name)
  have lines : numberedLines (max validator.options.limits.maxRecordBytes 1) 0
      reader.pieces = inputLines validator.options.limits input := by
    rw [inputLines, Reader.pieces, delivers.content]
  simp only [NdjsonSource.new, Nat.zero_add, lines, delivers.content] at looped
  rw [validateReader_eq, NdjsonSource.new, looped]
  cases processLines env validator (inputLines validator.options.limits input) []
    (RunState.new validator.contract.name) <;> rfl

end Unlimited

section Later

def MalformedPolicy.room : MalformedPolicy → Nat
  | .collect max => max
  | .failFast | .skip => 0

def StreamOptions.room (options : StreamOptions) (rejected : MalformedRecord) : Nat :=
  if rejected.kind = .oversized then options.oversized.room else options.malformed.room

def MalformedRecord.later (records : Nat) (rejected : MalformedRecord) : MalformedRecord :=
  { rejected with record := rejected.record + records }

def StreamFinding.later (records batches : Nat) (f : StreamFinding) : StreamFinding :=
  { f with record := f.record.map (· + records), batch := f.batch + batches }

def laterBatch (records : Nat) (batch : List (Nat × Value)) : List (Nat × Value) :=
  batch.map (fun record => (record.1 + records, record.2))

/-- A run goes on where another one has come to the end of a batch, as a run of its own does from
    the start. -/
structure Follows (options : StreamOptions) (records : Nat) (first own after : RunState) : Prop where
  dataset : after.dataset = own.dataset
  validated : after.recordsValidated = first.recordsValidated + own.recordsValidated
  malformedCount : after.malformedCount = first.malformedCount + own.malformedCount
  oversizedCount : after.oversizedCount = first.oversizedCount + own.oversizedCount
  batches : after.batches = first.batches + own.batches
  findings : after.findings =
    first.findings ++ own.findings.map (StreamFinding.later records first.batches)
  malformed : after.malformed =
    retain options.room first.malformed (own.malformed.map (MalformedRecord.later records))
  longer : own.malformed.length ≤ after.malformed.length
  sanitized : ∃ events, own.sanitization = SanitizationSummary.recordAll events ∧
    after.sanitization = events.foldl SanitizationSummary.record first.sanitization
  truncated : after.truncated = (first.truncated || own.truncated)

variable {env : StreamEnv F} {validator : StreamValidator F} {options : StreamOptions}
  {records : Nat} {first own after final : RunState}

theorem Follows.start (name : String) (same : first.dataset = name) :
    Follows options records first (RunState.new name) first where
  dataset := same
  validated := rfl
  malformedCount := rfl
  oversizedCount := rfl
  batches := rfl
  findings := (List.append_nil _).symm
  malformed := rfl
  longer := Nat.zero_le _
  sanitized := ⟨[], rfl, rfl⟩
  truncated := (Bool.or_false _).symm

theorem reject_eq (state : RunState) (policy : MalformedPolicy) (record : Nat)
    (kind : MalformedKind) (reason : String) (preview : Option String)
    (tolerant : policy ≠ .failFast)
    (used : policy = if kind = .oversized then options.oversized else options.malformed) :
    state.reject policy record kind reason preview =
      .ok { state.countRejected kind with
        malformed := keep options.room state.malformed ⟨record, kind, reason, preview⟩ } := by
  have room : options.room ⟨record, kind, reason, preview⟩ = policy.room := by
    rw [StreamOptions.room, used]
    split <;> rfl
  cases policy with
  | failFast => exact absurd rfl tolerant
  | skip =>
    rw [keep, room, MalformedPolicy.room, if_neg (Nat.not_lt_zero _)]
    rfl
  | collect max =>
    rw [keep, room, MalformedPolicy.room, RunState.reject]
    split
    · rename_i open_
      rw [if_pos (show state.malformed.length < max from open_)]
      rfl
    · rename_i full
      rw [if_neg (show ¬ state.malformed.length < max from full)]
      rfl

theorem Follows.reject (follows : Follows options records first own after)
    {policy : MalformedPolicy} {record : Nat} {kind : MalformedKind} {reason : String}
    {preview : Option String}
    (used : policy = if kind = .oversized then options.oversized else options.malformed)
    (rejected : own.reject policy record kind reason preview = .ok final) :
    ∃ next, after.reject policy (record + records) kind reason preview = .ok next ∧
      Follows options records first final next := by
  have tolerant : policy ≠ .failFast := by
    intro failFast
    rw [failFast] at rejected
    cases rejected
  rw [reject_eq own policy record kind reason preview tolerant used] at rejected
  refine ⟨_, reject_eq after policy (record + records) kind reason preview tolerant used, ?_⟩
  obtain rfl := Except.ok.inj rejected
  have room : ∀ item, options.room (MalformedRecord.later records item) = options.room item :=
    fun _ => rfl
  have same : (keep options.room own.malformed ⟨record, kind, reason, preview⟩).map
      (MalformedRecord.later records) = keep options.room
        (own.malformed.map (MalformedRecord.later records))
        ⟨record + records, kind, reason, preview⟩ :=
    map_keep (MalformedRecord.later records) room own.malformed ⟨record, kind, reason, preview⟩
  exact {
    dataset := follows.dataset
    validated := follows.validated
    malformedCount := by
      show after.malformedCount + 1 = first.malformedCount + (own.malformedCount + 1)
      rw [follows.malformedCount, Nat.add_assoc]
    oversizedCount := by
      simp only [RunState.countRejected, follows.oversizedCount]
      split <;> omega
    batches := follows.batches
    findings := follows.findings
    malformed := by
      dsimp only
      rw [same, retain_keep, follows.malformed]
      rw [← follows.malformed, List.length_map]
      exact follows.longer
    longer := length_keep_le own.malformed after.malformed rfl follows.longer
    sanitized := follows.sanitized
    truncated := follows.truncated }

omit [Float64 F] in
theorem violationFindings_later (batches batch : Nat) (ids : List Nat) (v : Violation F) :
    violationFindings (batches + batch) (ids.map (· + records)) v =
      (violationFindings batch ids v).map (StreamFinding.later records batches) := by
  unfold violationFindings
  dsimp only
  split
  · rw [List.map_singleton, StreamFinding.later, Option.map_none, Nat.add_comm]
  · rw [List.map_filterMap]
    apply List.filterMap_congr
    intro row _
    rw [List.getElem?_map]
    cases ids[row]? with
    | none => rfl
    | some record =>
      simp only [Option.map_some, StreamFinding.later, Nat.add_comm batches]

theorem materialize_later (batch batchToo : Nat) (items : List (Nat × Value)) (df : DataFrame F)
    (made : materialize env batch items = .ok df) :
    materialize env batchToo (laterBatch records items) = .ok df := by
  obtain ⟨buf, encoded, made⟩ := (Results.bind_ok_iff ..).mp made
  obtain ⟨lines, written, same⟩ := (Results.bind_ok_iff ..).mp encoded
  have each := (Results.mapM_ok_iff ..).mp written
  have again : encodeBatch env batchToo (laterBatch records items) = .ok buf := by
    apply (Results.bind_ok_iff ..).mpr
    refine ⟨lines, (Results.mapM_ok_iff ..).mpr ?_, same⟩
    rw [laterBatch, List.forall₂_map_left_iff]
    apply each.imp
    intro record line wrote
    dsimp only
    split at wrote
    · exact wrote
    · cases wrote
  rw [materialize, again]
  cases read : env.readJsonLines buf with
  | ok found =>
    rw [read] at made
    obtain rfl := Except.ok.inj made
    simp only [bind, Except.bind, read]
    rfl
  | error reason =>
    rw [read] at made
    cases made

theorem Follows.flush (follows : Follows options records first own after)
    (batch : List (Nat × Value)) (flushed : flushBatch env validator batch own = .ok final) :
    ∃ next, flushBatch env validator (laterBatch records batch) after = .ok next ∧
      Follows options records first final next := by
  by_cases empty : batch = []
  · subst empty
    obtain rfl := Except.ok.inj flushed
    exact ⟨after, rfl, follows⟩
  · obtain ⟨df, report, made, executed, rfl⟩ :=
      (flushBatch_ok_iff env validator batch own final empty).mp flushed
    have some_ : laterBatch records batch ≠ [] := by simpa [laterBatch] using empty
    have ids : (laterBatch records batch).map Prod.fst = (batch.map Prod.fst).map (· + records) := by
      rw [laterBatch, List.map_map, List.map_map]
      rfl
    refine ⟨_, (flushBatch_ok_iff env validator _ after _ some_).mpr
      ⟨df, report, materialize_later own.batches after.batches batch df made, executed, rfl⟩, ?_⟩
    exact {
      dataset := follows.dataset
      validated := by
        simp only [ranBatch, follows.validated, laterBatch, List.length_map]
        omega
      malformedCount := follows.malformedCount
      oversizedCount := follows.oversizedCount
      batches := by
        simp only [ranBatch, follows.batches]
        omega
      findings := by
        have later : violationFindings (first.batches + own.batches)
            ((batch.map Prod.fst).map (· + records)) = fun v : Violation F =>
              (violationFindings own.batches (batch.map Prod.fst) v).map
                (StreamFinding.later records first.batches) :=
          funext fun v => violationFindings_later first.batches own.batches _ v
        simp only [ranBatch, follows.findings, follows.batches, ids, later, List.map_append,
          List.map_flatMap, List.append_assoc]
      malformed := follows.malformed
      longer := follows.longer
      sanitized := follows.sanitized
      truncated := follows.truncated }

theorem Follows.sanitize (follows : Follows options records first own after)
    (events : List SanitizationEvent) :
    Follows options records first (own.recordSanitization events)
      (after.recordSanitization events) := by
  obtain ⟨earlier, ownEvents, afterEvents⟩ := follows.sanitized
  exact { follows with
    sanitized := ⟨earlier ++ events,
      by rw [RunState.recordSanitization, ownEvents, SanitizationSummary.recordAll,
        SanitizationSummary.recordAll, List.foldl_append],
      by rw [RunState.recordSanitization, afterEvents, List.foldl_append]⟩ }

end Later

section Runs

variable {env : StreamEnv F} {validator : StreamValidator F} {records : Nat}
  {first own after final : RunState} {batch rest : List (Nat × Value)}

theorem laterBatch_concat (batch : List (Nat × Value)) (record : Nat × Value) :
    laterBatch records batch ++ [(record.1 + records, record.2)] =
      laterBatch records (batch ++ [record]) := by
  rw [laterBatch, laterBatch, List.map_append, List.map_singleton]

theorem Follows.join (follows : Follows validator.options records first own after)
    (record : Nat × Value) (joined : joinBatch env validator record batch own = .ok (rest, final)) :
    ∃ next, joinBatch env validator (record.1 + records, record.2) (laterBatch records batch) after =
        .ok (laterBatch records rest, next) ∧
      Follows validator.options records first final next := by
  have length : (laterBatch records (batch ++ [record])).length = (batch ++ [record]).length :=
    List.length_map ..
  rw [joinBatch] at joined
  rw [joinBatch, laterBatch_concat, length]
  split at joined
  · rename_i full
    obtain ⟨state, flushed, same⟩ := (Results.bind_ok_iff ..).mp joined
    obtain ⟨rfl, rfl⟩ := Prod.mk.inj (Except.ok.inj same)
    obtain ⟨next, flushedToo, later⟩ := follows.flush _ flushed
    rw [if_pos full, flushedToo]
    exact ⟨next, rfl, later⟩
  · rename_i small
    obtain ⟨rfl, rfl⟩ := Prod.mk.inj (Except.ok.inj joined)
    rw [if_neg small]
    exact ⟨after, rfl, follows⟩

/-- What a line does to the run of its own, its later copy does to the longer one. -/
theorem Follows.line (follows : Follows validator.options records first own after) (line : RawLine)
    (processed : processLine env validator line batch own = .ok (rest, final)) :
    ∃ next, processLine env validator (line.later records) (laterBatch records batch) after =
        .ok (laterBatch records rest, next) ∧
      Follows validator.options records first final next := by
  have rejects : ∀ {policy kind reason preview},
      policy = (if kind = .oversized then validator.options.oversized
        else validator.options.malformed) →
      (do
        let state ← own.reject policy line.record kind reason preview
        return (batch, state) : StreamResult _) = .ok (rest, final) →
      ∃ next, (do
          let state ← after.reject policy (line.record + records) kind reason preview
          return (laterBatch records batch, state) : StreamResult _) =
            .ok (laterBatch records rest, next) ∧
        Follows validator.options records first final next := by
    intro policy kind reason preview used handled
    obtain ⟨state, rejected, same⟩ := (Results.bind_ok_iff ..).mp handled
    obtain ⟨rfl, rfl⟩ := Prod.mk.inj (Except.ok.inj same)
    obtain ⟨next, rejectedToo, later⟩ := follows.reject used rejected
    rw [rejectedToo]
    exact ⟨next, rfl, later⟩
  rw [processLine] at processed
  rw [processLine, RawLine.later]
  dsimp only at processed ⊢
  by_cases exceeded : line.exceeded = true
  · rw [if_pos exceeded] at processed ⊢
    exact rejects rfl processed
  by_cases invalid : (! line.utf8) = true
  · rw [if_neg exceeded, if_pos invalid] at processed ⊢
    exact rejects rfl processed
  rw [if_neg exceeded, if_neg invalid] at processed ⊢
  cases parsed : env.fromStr line.content with
  | error e =>
    rw [parsed] at processed
    exact rejects rfl processed
  | ok value =>
    rw [parsed] at processed
    exact (follows.sanitize _).join (line.record, _) processed

theorem Follows.lines (follows : Follows validator.options records first own after)
    (lines : List RawLine) (processed : processLines env validator lines batch own = .ok (rest, final)) :
    ∃ next, processLines env validator (lines.map (RawLine.later records))
        (laterBatch records batch) after = .ok (laterBatch records rest, next) ∧
      Follows validator.options records first final next := by
  induction lines generalizing batch own after with
  | nil =>
    obtain ⟨rfl, rfl⟩ := Prod.mk.inj (Except.ok.inj processed)
    exact ⟨after, rfl, follows⟩
  | cons line lines ih =>
    rw [processLines] at processed
    obtain ⟨⟨middle, state⟩, here, there⟩ := (Results.bind_ok_iff ..).mp processed
    obtain ⟨next, hereToo, follows⟩ := follows.line line here
    obtain ⟨last, thereToo, follows⟩ := ih follows there
    rw [List.map_cons, processLines, hereToo]
    exact ⟨last, thereToo, follows⟩

theorem processLines_rule {I : List (Nat × Value) → RunState → Prop}
    (step : ∀ line batch state rest final, I batch state →
      processLine env validator line batch state = .ok (rest, final) → I rest final)
    {lines : List RawLine} {state : RunState} (holds : I batch state)
    (processed : processLines env validator lines batch state = .ok (rest, final)) :
    I rest final := by
  induction lines generalizing batch state with
  | nil =>
    obtain ⟨rfl, rfl⟩ := Prod.mk.inj (Except.ok.inj processed)
    exact holds
  | cons line lines ih =>
    rw [processLines] at processed
    obtain ⟨⟨middle, state'⟩, here, there⟩ := (Results.bind_ok_iff ..).mp processed
    exact ih (step line batch state middle state' holds here) there

/-- A run between two lines: the records that ran fill whole batches. -/
structure Midway (name : String) (size : Nat) (batch : List (Nat × Value)) (state : RunState) :
    Prop where
  dataset : state.dataset = name
  going : state.truncated = false
  whole : size ∣ state.recordsValidated
  short : batch.length < size

theorem Midway.line {name : String} {line : RawLine} {state : RunState}
    (midway : Midway name (max validator.options.limits.batchSize 1) batch state)
    (processed : processLine env validator line batch state = .ok (rest, final)) :
    Midway name (max validator.options.limits.batchSize 1) rest final := by
  cases joins : accepted env validator line with
  | none =>
    obtain ⟨policy, kind, reason, preview, _, rejects⟩ :=
      processLine_rejected env validator line joins
    rw [rejects] at processed
    obtain ⟨state', rejected, same⟩ := (Results.bind_ok_iff ..).mp processed
    obtain ⟨rfl, rfl⟩ := Prod.mk.inj (Except.ok.inj same)
    obtain ⟨kept, rfl⟩ := reject_ok rejected
    exact ⟨midway.dataset, midway.going, midway.whole, midway.short⟩
  | some record =>
    obtain ⟨value, _, _, accepts⟩ := processLine_accepted env validator line record joins
    have short := midway.short
    rw [accepts, joinBatch] at processed
    split at processed
    · rename_i full
      obtain ⟨state', flushed, same⟩ := (Results.bind_ok_iff ..).mp processed
      obtain ⟨rfl, rfl⟩ := Prod.mk.inj (Except.ok.inj same)
      obtain ⟨df, report, -, -, rfl⟩ := (flushBatch_ok_iff env validator _ _ state'
        (List.append_ne_nil_of_right_ne_nil _ (List.cons_ne_nil _ _))).mp flushed
      have length : (batch ++ [record]).length = max validator.options.limits.batchSize 1 := by
        rw [List.length_append, List.length_singleton] at full ⊢
        omega
      refine ⟨midway.dataset, midway.going, ?_, by rw [List.length_nil]; omega⟩
      show _ ∣ state.recordsValidated + (batch ++ [record]).length
      rw [length]
      exact Nat.dvd_add_self_right.mpr midway.whole
    · rename_i small
      obtain ⟨rfl, rfl⟩ := Prod.mk.inj (Except.ok.inj processed)
      refine ⟨midway.dataset, midway.going, midway.whole, ?_⟩
      omega

theorem midway_lines {lines : List RawLine} {name : String}
    (processed : processLines env validator lines [] (RunState.new name) = .ok (rest, final)) :
    Midway name (max validator.options.limits.batchSize 1) rest final := by
  apply processLines_rule (fun _ _ _ _ _ midway => midway.line) _ processed
  refine ⟨rfl, rfl, Nat.dvd_zero _, ?_⟩
  rw [List.length_nil]
  omega

theorem reject_malformed {state : RunState} {policy : MalformedPolicy} {record : Nat}
    {kind : MalformedKind} {reason : String} {preview : Option String}
    (rejected : state.reject policy record kind reason preview = .ok final) :
    ∃ more, final.malformed = state.malformed ++ more ∧
      (more.map MalformedRecord.record).Sublist [record] := by
  cases policy with
  | failFast => cases rejected
  | skip =>
    obtain rfl := Except.ok.inj rejected
    exact ⟨[], (List.append_nil _).symm, List.nil_sublist _⟩
  | collect max =>
    rw [RunState.reject] at rejected
    split at rejected
    · obtain rfl := Except.ok.inj rejected
      exact ⟨[⟨record, kind, reason, preview⟩], rfl, .refl _⟩
    · obtain rfl := Except.ok.inj rejected
      exact ⟨[], (List.append_nil _).symm, List.nil_sublist _⟩

theorem flushBatch_malformed {state : RunState}
    (flushed : flushBatch env validator batch state = .ok final) :
    final.malformed = state.malformed := by
  by_cases empty : batch = []
  · subst empty
    obtain rfl := Except.ok.inj flushed
    rfl
  · obtain ⟨_, _, _, _, rfl⟩ := (flushBatch_ok_iff env validator batch state final empty).mp flushed
    rfl

theorem processLine_malformed {line : RawLine} {state : RunState}
    (processed : processLine env validator line batch state = .ok (rest, final)) :
    ∃ more, final.malformed = state.malformed ++ more ∧
      (more.map MalformedRecord.record).Sublist [line.record] := by
  cases joins : accepted env validator line with
  | none =>
    obtain ⟨policy, kind, reason, preview, _, rejects⟩ :=
      processLine_rejected env validator line joins
    rw [rejects] at processed
    obtain ⟨state', rejected, same⟩ := (Results.bind_ok_iff ..).mp processed
    obtain ⟨-, rfl⟩ := Prod.mk.inj (Except.ok.inj same)
    exact reject_malformed rejected
  | some record =>
    obtain ⟨value, _, _, accepts⟩ := processLine_accepted env validator line record joins
    refine ⟨[], ?_, List.nil_sublist _⟩
    rw [accepts, joinBatch] at processed
    rw [List.append_nil]
    split at processed
    · obtain ⟨state', flushed, same⟩ := (Results.bind_ok_iff ..).mp processed
      obtain ⟨-, rfl⟩ := Prod.mk.inj (Except.ok.inj same)
      rw [flushBatch_malformed flushed]
      rfl
    · obtain ⟨-, rfl⟩ := Prod.mk.inj (Except.ok.inj processed)
      rfl

theorem processLines_malformed {lines : List RawLine} {state : RunState}
    (processed : processLines env validator lines batch state = .ok (rest, final)) :
    ∃ more, final.malformed = state.malformed ++ more ∧
      (more.map MalformedRecord.record).Sublist (lines.map RawLine.record) := by
  induction lines generalizing batch state with
  | nil =>
    obtain ⟨-, rfl⟩ := Prod.mk.inj (Except.ok.inj processed)
    exact ⟨[], (List.append_nil _).symm, .refl _⟩
  | cons line lines ih =>
    rw [processLines] at processed
    obtain ⟨⟨middle, state'⟩, here, there⟩ := (Results.bind_ok_iff ..).mp processed
    obtain ⟨more, same, inOrder⟩ := processLine_malformed here
    obtain ⟨later, sameToo, inOrderToo⟩ := ih there
    refine ⟨more ++ later, by rw [sameToo, same, List.append_assoc], ?_⟩
    rw [List.map_append, List.map_cons]
    exact inOrder.append inOrderToo

end Runs

section Tallies

open SanitizationSummary

theorem count_foldl_bump (key : SanitizationEvent → String) (events : List SanitizationEvent)
    (map : List (String × Nat)) (ordered : Ordered map) :
    Ordered (events.foldl (fun map event => bump (key event) map) map) ∧
      ∀ name, count (events.foldl (fun map event => bump (key event) map) map) name =
        count map name + events.countP (fun event => key event == name) := by
  induction events generalizing map with
  | nil => exact ⟨ordered, fun _ => rfl⟩
  | cons event events ih =>
    obtain ⟨still, counts⟩ := ih (bump (key event) map) (ordered_bump ordered (key event))
    refine ⟨still, fun name => ?_⟩
    rw [List.foldl_cons, counts, count_bump ordered, List.countP_cons]
    simp only [beq_iff_eq, @eq_comm _ name]
    omega

theorem foldl_record (events : List SanitizationEvent) (summary : SanitizationSummary) :
    events.foldl SanitizationSummary.record summary =
      ⟨summary.totalEvents + events.length,
        events.foldl (fun map event => bump event.kind.asStr map) summary.byKind,
        events.foldl (fun map event => bump (leaf event.path) map) summary.byField⟩ := by
  induction events generalizing summary with
  | nil => rfl
  | cons event events ih =>
    rw [List.foldl_cons, ih, SanitizationSummary.record]
    simp only [List.length_cons, List.foldl_cons, Nat.add_assoc, Nat.add_comm 1]

structure SanitizationSummary.Adds (first second whole : SanitizationSummary) : Prop where
  all : whole.totalEvents = first.totalEvents + second.totalEvents
  kinds : ∀ name, count whole.byKind name = count first.byKind name + count second.byKind name
  fields : ∀ name, count whole.byField name = count first.byField name + count second.byField name

theorem adds_recordAll (events more : List SanitizationEvent) :
    SanitizationSummary.Adds (recordAll events) (recordAll more)
      (more.foldl SanitizationSummary.record (recordAll events)) := by
  have none : Ordered [] := .nil
  have sums : ∀ key : SanitizationEvent → String, ∀ name,
      count (more.foldl (fun map event => bump (key event) map)
          (events.foldl (fun map event => bump (key event) map) [])) name =
        count (events.foldl (fun map event => bump (key event) map) []) name +
          count (more.foldl (fun map event => bump (key event) map) []) name := by
    intro key name
    obtain ⟨ordered, -⟩ := count_foldl_bump key events [] none
    rw [(count_foldl_bump key more _ ordered).2 name, (count_foldl_bump key more [] none).2 name]
    exact congrArg _ (Nat.zero_add _).symm
  rw [foldl_record more, recordAll, recordAll, foldl_record events, foldl_record more]
  exact ⟨by simp [empty], sums _, sums _⟩

end Tallies

section Reports

variable {env : StreamEnv F} {validator : StreamValidator F}

/-- The report of a run over an input that is put together from those of runs over two parts of
    it. -/
structure Joined (options : StreamOptions) (first second whole : StreamReport) : Prop where
  dataset : whole.dataset = second.dataset
  recordsRead : whole.recordsRead = first.recordsRead + second.recordsRead
  recordsValidated : whole.recordsValidated = first.recordsValidated + second.recordsValidated
  malformedCount : whole.malformedCount = first.malformedCount + second.malformedCount
  oversizedCount : whole.oversizedCount = first.oversizedCount + second.oversizedCount
  batches : whole.batches = first.batches + second.batches
  bytesConsumed : whole.bytesConsumed = first.bytesConsumed + second.bytesConsumed
  truncated : whole.truncated = (first.truncated || second.truncated)
  passed : whole.passed = (first.passed && second.passed)
  findings : whole.findings = Slices.sortBy RunState.findingOrder (first.findings ++
    second.findings.map (StreamFinding.later first.recordsRead first.batches))
  malformed : whole.malformed = retain options.room first.malformed
    (second.malformed.map (MalformedRecord.later first.recordsRead))
  sanitization : first.sanitization.Adds second.sanitization whole.sanitization

theorem splitAfter_whole {first : List UInt8} (whole : ∀ last ∈ first.getLast?, last = newline)
    (second : List UInt8) :
    Pieces.splitAfter (· == newline) (first ++ second) =
      Pieces.splitAfter (· == newline) first ++ Pieces.splitAfter (· == newline) second := by
  obtain ⟨pieces, tail, rfl, each, inner⟩ := Pieces.exists_whole (· == newline) first
  have none : tail = [] := by
    rcases List.eq_nil_or_concat tail with empty | ⟨front, last, rfl⟩
    · exact empty
    · have final := whole last (by simp [List.concat_eq_append, ← List.append_assoc])
      have other := inner last (by simp)
      rw [final] at other
      cases other
  rw [none, List.append_nil, Pieces.splitAfter_flatten_append _ pieces each,
    Pieces.splitAfter_flatten _ pieces each]

theorem inputLines_append (limits : StreamLimits) {first : List UInt8}
    (whole : ∀ last ∈ first.getLast?, last = newline) (second : List UInt8) :
    inputLines limits (first ++ second) = inputLines limits first ++
      (inputLines limits second).map (RawLine.later (inputLines limits first).length) := by
  rw [inputLines, splitAfter_whole whole, numberedLines_append, numberedLines_later]
  rfl

theorem sortBy_append_sortBy {α : Type} (cmp : α → α → Ordering) [Std.TransCmp cmp]
    (xs ys : List α) :
    Slices.sortBy cmp (Slices.sortBy cmp xs ++ Slices.sortBy cmp ys) =
      Slices.sortBy cmp (xs ++ ys) := by
  apply Slices.sortBy_eq_of_ties
  intro a
  rw [List.filter_append, List.filter_append,
    Slices.filter_sortBy cmp _ xs (fun _ _ => Slices.isLE_of_ties cmp),
    Slices.filter_sortBy cmp _ ys (fun _ _ => Slices.isLE_of_ties cmp)]

theorem findingOrder_later (records batches : Nat) (f g : StreamFinding) :
    RunState.findingOrder (f.later records batches) (g.later records batches) =
      RunState.findingOrder f g := by
  have record : compare (f.record.map (· + records)) (g.record.map (· + records)) =
      compare f.record g.record := by
    cases f.record with
    | none => cases g.record <;> rfl
    | some a =>
      cases g.record with
      | none => rfl
      | some b =>
        show compare (a + records) (b + records) = compare a b
        rw [Nat.compare_eq_ite_lt, Nat.compare_eq_ite_lt]
        simp only [Nat.add_lt_add_iff_right]
  have batch : compare (f.batch + batches) (g.batch + batches) = compare f.batch g.batch := by
    rw [Nat.compare_eq_ite_lt, Nat.compare_eq_ite_lt]
    simp only [Nat.add_lt_add_iff_right]
  simp only [RunState.findingOrder, compareLex, compareOn, StreamFinding.later, record, batch]

theorem map_sortBy_later (records batches : Nat) (findings : List StreamFinding) :
    (Slices.sortBy RunState.findingOrder findings).map (StreamFinding.later records batches) =
      Slices.sortBy RunState.findingOrder (findings.map (StreamFinding.later records batches)) := by
  apply List.map_insertionSort
  intro f _ g _
  rw [findingOrder_later]

omit [Float64 F] in
/-- What the runs over two parts have found, the run over both has found. -/
theorem Follows.joined {first own after : RunState} {lines linesToo bytes bytesToo : Nat}
    (follows : Follows validator.options lines first own after)
    (events : ∃ events, first.sanitization = SanitizationSummary.recordAll events)
    (inOrder : (after.malformed.map MalformedRecord.record).Pairwise (· < ·))
    (inOrderFirst : (first.malformed.map MalformedRecord.record).Pairwise (· < ·))
    (inOrderOwn : (own.malformed.map MalformedRecord.record).Pairwise (· < ·)) :
    Joined validator.options
      { first with recordsRead := lines, bytesConsumed := bytes : RunState }.finish
      { own with recordsRead := linesToo, bytesConsumed := bytesToo : RunState }.finish
      { after with
        recordsRead := lines + linesToo, bytesConsumed := bytes + bytesToo : RunState }.finish := by
  have sorted : ∀ state : RunState, (state.malformed.map MalformedRecord.record).Pairwise (· < ·) →
      Slices.sortBy (compareOn MalformedRecord.record) state.malformed = state.malformed := by
    intro state ordered
    apply Slices.sortBy_of_sorted
    apply (List.pairwise_map.mp ordered).imp
    intro a b less
    rw [compareOn, Nat.isLE_compare]
    exact Nat.le_of_lt less
  have all : Slices.sortBy RunState.findingOrder after.findings =
      Slices.sortBy RunState.findingOrder (Slices.sortBy RunState.findingOrder first.findings ++
        (Slices.sortBy RunState.findingOrder own.findings).map
          (StreamFinding.later lines first.batches)) := by
    rw [map_sortBy_later, sortBy_append_sortBy, follows.findings]
  obtain ⟨earlier, firstEvents⟩ := events
  obtain ⟨more, ownEvents, afterEvents⟩ := follows.sanitized
  exact {
    dataset := follows.dataset
    recordsRead := rfl
    recordsValidated := follows.validated
    malformedCount := follows.malformedCount
    oversizedCount := follows.oversizedCount
    batches := follows.batches
    bytesConsumed := rfl
    truncated := follows.truncated
    passed := by
      have blocking : ∀ findings : List StreamFinding,
          (Slices.sortBy RunState.findingOrder findings).any (fun f => f.severity == .blocking) =
            findings.any (fun f => f.severity == .blocking) := by
        intro findings
        rw [Bool.eq_iff_iff, List.any_eq_true, List.any_eq_true]
        simp only [Slices.mem_sortBy]
      have moved : (fun f : StreamFinding => f.severity == .blocking) ∘
          StreamFinding.later lines first.batches = fun f => f.severity == .blocking := rfl
      simp only [RunState.finish, blocking, follows.findings, List.any_append, List.any_map, moved,
        Bool.not_or]
    findings := all
    malformed := by
      simp only [RunState.finish]
      rw [sorted after inOrder, sorted first inOrderFirst, sorted own inOrderOwn]
      exact follows.malformed
    sanitization := by
      simp only [RunState.finish]
      rw [firstEvents, ownEvents, afterEvents, firstEvents]
      exact adds_recordAll earlier more }

/-- Where the records of an input fill whole batches, a run that goes on with another input finds
    what the runs over both find, and numbers it on. -/
theorem validateReader_append (unlimited : validator.options.limits.Unlimited)
    {first second : List UInt8} {reader readerToo joint : Reader}
    {report reportToo : StreamReport} (delivers : reader.Delivers first)
    (deliversToo : readerToo.Delivers second) (deliversBoth : joint.Delivers (first ++ second))
    (whole : ∀ last ∈ first.getLast?, last = newline)
    (ran : validateReader env validator reader = .ok report)
    (ranToo : validateReader env validator readerToo = .ok reportToo)
    (full : max validator.options.limits.batchSize 1 ∣ report.recordsValidated) :
    ∃ joined, validateReader env validator joint = .ok joined ∧
      Joined validator.options report reportToo joined := by
  rw [validateReader_unlimited unlimited delivers] at ran
  rw [validateReader_unlimited unlimited deliversToo] at ranToo
  rw [validateReader_unlimited unlimited deliversBoth, inputLines_append _ whole]
  obtain ⟨⟨waiting, state⟩, handled, closed⟩ := (Results.bind_ok_iff ..).mp ran
  obtain ⟨⟨waitingToo, own⟩, handledToo, closedToo⟩ := (Results.bind_ok_iff ..).mp ranToo
  obtain ⟨state', flushed, same⟩ := (Results.bind_ok_iff ..).mp closed
  obtain ⟨own', flushedToo, sameToo⟩ := (Results.bind_ok_iff ..).mp closedToo
  obtain rfl := Except.ok.inj same
  obtain rfl := Except.ok.inj sameToo
  have midway := midway_lines handled
  -- nothing waits at the end of the first input
  have none : waiting = [] := by
    obtain ⟨validated, -, -⟩ := flushBatch_counts _ _ _ flushed
    have rest : max validator.options.limits.batchSize 1 ∣ waiting.length := by
      have all : max validator.options.limits.batchSize 1 ∣ state'.recordsValidated := full
      rw [validated] at all
      exact (Nat.dvd_add_right midway.whole).mp all
    exact List.length_eq_zero_iff.mp (Nat.eq_zero_of_dvd_of_lt rest midway.short)
  subst none
  obtain rfl := Except.ok.inj flushed
  have started : Follows validator.options 0 (RunState.new validator.contract.name)
      (RunState.new validator.contract.name) (RunState.new validator.contract.name) :=
    .start validator.contract.name rfl
  obtain ⟨_, -, itself⟩ := started.lines _ handled
  have resumed : Follows validator.options (inputLines validator.options.limits first).length state
      (RunState.new validator.contract.name) state :=
    .start validator.contract.name midway.dataset
  obtain ⟨after, handledAll, follows⟩ := resumed.lines _ handledToo
  obtain ⟨final, flushedAll, follows⟩ := follows.flush waitingToo flushedToo
  have ordered : ∀ input {rest last}, processLines env validator
      (inputLines validator.options.limits input) [] (RunState.new validator.contract.name) =
        .ok (rest, last) → (last.malformed.map MalformedRecord.record).Pairwise (· < ·) := by
    intro input rest last processed
    obtain ⟨more, same, inOrder⟩ := processLines_malformed processed
    rw [same]
    rw [inputLines, records_numberedLines] at inOrder
    exact (List.pairwise_lt_range').sublist inOrder
  have both : processLines env validator (inputLines validator.options.limits first ++
      (inputLines validator.options.limits second).map
        (RawLine.later (inputLines validator.options.limits first).length)) []
      (RunState.new validator.contract.name) = .ok (laterBatch
        (inputLines validator.options.limits first).length waitingToo, after) := by
    rw [processLines_append, handled]
    exact handledAll
  have length : (inputLines validator.options.limits first ++
      (inputLines validator.options.limits second).map
        (RawLine.later (inputLines validator.options.limits first).length)).length =
      (inputLines validator.options.limits first).length +
        (inputLines validator.options.limits second).length := by
    rw [List.length_append, List.length_map]
  have inOrder : (after.malformed.map MalformedRecord.record).Pairwise (· < ·) := by
    apply ordered (first ++ second)
    rw [inputLines_append _ whole]
    exact both
  refine ⟨_, (Results.bind_ok_iff ..).mpr ⟨_, both, (Results.bind_ok_iff ..).mpr
    ⟨final, flushedAll, rfl⟩⟩, ?_⟩
  rw [length, List.length_append]
  apply follows.joined
  · obtain ⟨events, same, -⟩ := itself.sanitized
    exact ⟨events, same⟩
  · rw [flushBatch_malformed flushedAll]
    exact inOrder
  · exact ordered first handled
  · rw [flushBatch_malformed flushedToo]
    exact ordered second handledToo

end Reports

section Sample

def idStart : List UInt8 := "\x7b\"id\":1\x7d\nNOT JSON\n\x7b\"id\":5\x7d\n".toUTF8.toList

def idRest : List UInt8 := "\n\x7b\"id\":9\x7d\n".toUTF8.toList

theorem validateReader_append_ids : ∃ report reportToo joined,
    validateReader idEnv idValidator [.chunk idStart] = .ok report ∧
    validateReader idEnv idValidator [.chunk idRest] = .ok reportToo ∧
    validateReader idEnv idValidator [.chunk idStart, .interrupted, .chunk idRest] = .ok joined ∧
    joined.findings.map (·.record) = [some 2, some 2, some 3, some 3] ∧
    Joined idValidator.options report reportToo joined := by
  have ends : ∀ last ∈ idStart.getLast?, last = newline := by decide +kernel
  obtain ⟨report, ran, full⟩ := Results.ok_of_any (validateReader idEnv idValidator [.chunk idStart])
    (fun report => report.recordsValidated == 2) (by decide +kernel)
  obtain ⟨reportToo, ranToo, -⟩ := Results.ok_of_any
    (validateReader idEnv idValidator [.chunk idRest]) (fun _ => true) (by decide +kernel)
  obtain ⟨all, ranBoth, records⟩ := Results.ok_of_any
    (validateReader idEnv idValidator [.chunk idStart, .interrupted, .chunk idRest])
    (fun report => report.findings.map (·.record) == [some 2, some 2, some 3, some 3])
    (by decide +kernel)
  have single : ∀ bytes : List UInt8, bytes ≠ [] → Reader.Delivers [.chunk bytes] bytes := by
    intro bytes some_
    have whole := Reader.Delivers.chunk bytes some_ .done
    rwa [List.append_nil] at whole
  have startSome : idStart ≠ [] := by decide +kernel
  have restSome : idRest ≠ [] := by decide +kernel
  obtain ⟨joined, both, parts⟩ := validateReader_append ⟨rfl, rfl⟩ (single idStart startSome)
    (single idRest restSome) (.chunk idStart startSome (.interrupted (single idRest restSome)))
    ends ran ranToo ⟨1, beq_iff_eq.mp full⟩
  obtain rfl := Except.ok.inj (ranBoth.symm.trans both)
  exact ⟨report, reportToo, all, ran, ranToo, both, beq_iff_eq.mp records, parts⟩

end Sample

end StatGuardian.Stream
