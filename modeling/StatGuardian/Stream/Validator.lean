import StatGuardian.Engine.Batch
import StatGuardian.Stream.Ndjson
import StatGuardian.Stream.Report

namespace StatGuardian.Stream

open StatGuardian.Core Engine Metrics Polars Validators

structure StreamOptions where
  limits : StreamLimits
  malformed : MalformedPolicy
  oversized : MalformedPolicy
  sanitizer : Sanitizer
  allowRawDiagnostics : Bool
  deriving DecidableEq, Repr

/-- The code outside the repository that a run of the stream calls. -/
structure StreamEnv (F : Type) [Float64 F] where
  engine : Env F
  text : TextEnv
  /-- `serde_json::from_str` with its error text. -/
  fromStr : String → Except String Value
  /-- `serde_json::to_writer` -/
  toWriter : Value → Except String (List UInt8)
  /-- `JsonReader` on JSON lines. -/
  readJsonLines : List UInt8 → Except String (DataFrame F)

structure StreamValidator (F : Type) where
  contract : DataContract F
  dag : ExecutionDag F
  options : StreamOptions

variable {F : Type} [Float64 F]

def truncatePreview (s : String) (max : Nat) : String :=
  if s.toList.length ≤ max then s else String.ofList (s.toList.take max ++ ['…'])

structure RunState where
  dataset : String
  recordsRead : Nat
  recordsValidated : Nat
  malformedCount : Nat
  oversizedCount : Nat
  batches : Nat
  bytesConsumed : Nat
  truncated : Bool
  findings : List StreamFinding
  malformed : List MalformedRecord
  sanitization : SanitizationSummary
  limitHit : Option StreamLimitHit

namespace RunState

def new (dataset : String) : RunState where
  dataset := dataset
  recordsRead := 0
  recordsValidated := 0
  malformedCount := 0
  oversizedCount := 0
  batches := 0
  bytesConsumed := 0
  truncated := false
  findings := []
  malformed := []
  sanitization := .empty
  limitHit := none

def recordSanitization (state : RunState) (events : List SanitizationEvent) : RunState :=
  { state with sanitization := events.foldl SanitizationSummary.record state.sanitization }

/-- The counters of `reject`. -/
def countRejected (state : RunState) (kind : MalformedKind) : RunState :=
  { state with
    malformedCount := state.malformedCount + 1
    oversizedCount :=
      if kind = .oversized then state.oversizedCount + 1 else state.oversizedCount }

def reject (state : RunState) (policy : MalformedPolicy) (record : Nat) (kind : MalformedKind)
    (reason : String) (preview : Option String) : StreamResult RunState :=
  let state := state.countRejected kind
  match policy with
  | .failFast => .error (.error (match kind with
    | .oversized => .oversizedRecord record 0 0
    | .utf8 => .invalidUtf8 record
    | .json => .malformed record reason))
  | .skip => .ok state
  | .collect max =>
    if state.malformed.length < max then
      .ok { state with malformed := state.malformed ++ [⟨record, kind, reason, preview⟩] }
    else .ok state

/-- The order of the findings: by record, column, check and batch. -/
def findingOrder : StreamFinding → StreamFinding → Ordering :=
  compareLex (compareOn StreamFinding.record) (compareLex (compareOn StreamFinding.column)
    (compareLex (compareOn StreamFinding.check) (compareOn StreamFinding.batch)))

def finish (state : RunState) : StreamReport :=
  let findings := Slices.sortBy findingOrder state.findings
  { dataset := state.dataset
    recordsRead := state.recordsRead
    recordsValidated := state.recordsValidated
    malformedCount := state.malformedCount
    oversizedCount := state.oversizedCount
    batches := state.batches
    bytesConsumed := state.bytesConsumed
    truncated := state.truncated
    passed := ! findings.any (fun f => f.severity == .blocking)
    findings := findings
    malformed := Slices.sortBy (compareOn MalformedRecord.record) state.malformed
    sanitization := state.sanitization
    limitHit := state.limitHit }

end RunState

/-- The findings of one violation: one for each of its rows that the batch has, or a single one
    for the whole batch. -/
def violationFindings (batch : Nat) (recordIds : List Nat) (violation : Violation F) :
    List StreamFinding :=
  let finding := fun record => ⟨record, batch, violation.column, violation.check,
    violation.message, violation.severity⟩
  if violation.rowIndices.isEmpty then [finding none]
  else violation.rowIndices.filterMap (fun row =>
    (recordIds[row]?).map (fun record => finding (some record)))

section Run

variable (env : StreamEnv F) (validator : StreamValidator F)

def encodeBatch (batch : Nat) (records : List (Nat × Value)) : StreamResult (List UInt8) := do
  let lines ← records.mapM (fun record => match env.toWriter record.2 with
    | .ok bytes => .ok (bytes ++ [newline])
    | .error reason => .error (.error (.materialize batch reason)))
  return lines.flatten

def materialize (batch : Nat) (records : List (Nat × Value)) : StreamResult (DataFrame F) := do
  let buf ← encodeBatch env batch records
  match env.readJsonLines buf with
  | .ok df => return df
  | .error reason => throw (.error (.materialize batch reason))

def executeBatch (df : DataFrame F) : StreamResult (ValidationReport F) :=
  match BatchExecutor.execute env.engine validator.contract validator.dag df none with
  | .ok report => .ok report
  | .error fault => .error (.fault fault)

def flushBatch (batch : List (Nat × Value)) (state : RunState) : StreamResult RunState :=
  if batch.isEmpty then .ok state
  else do
    let df ← materialize env state.batches batch
    let report ← executeBatch env validator df
    return { state with
      findings := state.findings ++
        report.violations.flatMap (violationFindings state.batches (batch.map Prod.fst))
      recordsValidated := state.recordsValidated + batch.length
      batches := state.batches + 1 }

/-- What the loop does with a line: it is rejected, or its record joins the batch. -/
def processLine (line : RawLine) (batch : List (Nat × Value)) (state : RunState) :
    StreamResult (List (Nat × Value) × RunState) :=
  let options := validator.options
  if line.exceeded then do
    let state ← state.reject options.oversized line.record .oversized
      s!"line exceeded max_record_bytes ({options.limits.maxRecordBytes}) and was discarded" none
    return (batch, state)
  else if ! line.utf8 then do
    let state ← state.reject options.malformed line.record .utf8 "line is not valid UTF-8" none
    return (batch, state)
  else
    match env.fromStr line.content with
    | .error e => do
      let preview :=
        if options.allowRawDiagnostics then some (truncatePreview line.content 200) else none
      let state ← state.reject options.malformed line.record .json s!"invalid JSON: {e}" preview
      return (batch, state)
    | .ok value =>
      let (sanitized, events) := options.sanitizer.sanitize env.text value
      let state := state.recordSanitization events
      let batch := batch ++ [(line.record, sanitized)]
      if batch.length ≥ options.limits.batchSize then do
        let state ← flushBatch env validator batch state
        return ([], state)
      else .ok (batch, state)

/-- The limit that ends the loop before the next line, if one does. -/
def limitReached (limits : StreamLimits) (src : NdjsonSource) : Option StreamLimitHit :=
  match limits.maxRecords.filter (fun max => src.recordsRead ≥ max) with
  | some max => some ⟨"max_records", max⟩
  | none =>
    (limits.maxBytes.filter (fun max => src.bytesConsumed ≥ max)).map
      (fun max => ⟨"max_bytes", max⟩)

def readLine (src : NdjsonSource) : StreamResult (Option RawLine × NdjsonSource) :=
  match src.nextLine with
  | .ok read => .ok read
  | .error reason => .error (.error (.io reason))

theorem readLine_ok_iff (src : NdjsonSource) (read : Option RawLine × NdjsonSource) :
    readLine src = .ok read ↔ src.nextLine = .ok read := by
  unfold readLine
  cases src.nextLine with
  | ok found => simp
  | error reason => simp

/-- A limit counts as hit only if another line is there. -/
def stopAtLimit (hit : StreamLimitHit) (src : NdjsonSource) (state : RunState) :
    StreamResult (NdjsonSource × RunState) := do
  let (line, src) ← readLine src
  return (src, if line.isSome then { state with truncated := true, limitHit := some hit } else state)

/-- The loop of `validate_reader`, with the source, the batch and the state it ends with. -/
def runLoop (src : NdjsonSource) (batch : List (Nat × Value)) (state : RunState) :
    StreamResult (NdjsonSource × List (Nat × Value) × RunState) :=
  match limitReached validator.options.limits src with
  | some hit => do
    let (src, state) ← stopAtLimit hit src state
    return (src, batch, state)
  | none =>
    match _taken : readLine src with
    | .error halt => .error halt
    | .ok (none, src) => .ok (src, batch, state)
    | .ok (some line, next) =>
      match processLine env validator line batch state with
      | .error halt => .error halt
      | .ok (batch, state) => runLoop next batch state
termination_by src.reader.size
decreasing_by exact (NdjsonSource.nextLine_some src next line
  ((readLine_ok_iff src _).mp _taken)).2.2

def validateReader (reader : Reader) : StreamResult StreamReport := do
  let src := NdjsonSource.new reader validator.options.limits.maxRecordBytes
  let (src, batch, state) ← runLoop env validator src [] (RunState.new validator.contract.name)
  let state ← flushBatch env validator batch state
  return { state with
    recordsRead := src.recordsRead
    bytesConsumed := src.bytesConsumed : RunState }.finish

end Run

end StatGuardian.Stream
