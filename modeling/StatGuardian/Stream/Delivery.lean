import StatGuardian.Stream.Attribution
import StatGuardian.Stream.Reference

namespace StatGuardian.Stream

open StatGuardian.Core Engine Metrics Polars Validators

namespace NdjsonSource

/-- Two sources with the same counters that are still to hand out the same bytes, in whatever
    chunks. -/
structure Alike (src other : NdjsonSource) : Prop where
  cap : other.maxRecordBytes = src.maxRecordBytes
  number : other.recordIndex = src.recordIndex
  bytes : other.bytesConsumed = src.bytesConsumed
  content : other.reader.content = src.reader.content
  sound : src.reader.Sound
  soundToo : other.reader.Sound

variable {src other : NdjsonSource}

theorem Alike.pieces (alike : Alike src other) : other.reader.pieces = src.reader.pieces := by
  rw [Reader.pieces, Reader.pieces, alike.content]

theorem content_eq (src : NdjsonSource) : src.reader.content = src.reader.pieces.flatten :=
  (Pieces.flatten_splitAfter _ _).symm

theorem Alike.nextLine (alike : Alike src other) :
    ∃ line next nextToo, src.nextLine = .ok (line, next) ∧ other.nextLine = .ok (line, nextToo) ∧
      Alike next nextToo := by
  obtain ⟨line, next, reads, sound⟩ := nextLine_returns src alike.sound
  obtain ⟨lineToo, nextToo, readsToo, soundToo⟩ := nextLine_returns other alike.soundToo
  obtain ⟨cap, ahead⟩ := nextLine_ahead src next line reads
  obtain ⟨capToo, aheadToo⟩ := nextLine_ahead other nextToo lineToo readsToo
  have due := nextLine_due src next line reads
  have dueToo := nextLine_due other nextToo lineToo readsToo
  have caps : nextToo.maxRecordBytes = next.maxRecordBytes := by rw [cap, capToo, alike.cap]
  have same : other.ahead = src.ahead := by
    rw [NdjsonSource.ahead, NdjsonSource.ahead, alike.pieces, alike.cap]
  cases line with
  | none =>
    cases lineToo with
    | some _ =>
      obtain ⟨piece, more, -⟩ := aheadToo
      cases same.symm.trans more |>.symm.trans ahead.1
    | none =>
      refine ⟨none, next, nextToo, reads, readsToo, caps, ?_, ?_, ?_, sound, soundToo⟩
      · rw [ahead.2.2, aheadToo.2.2, alike.number]
      · rw [due.2.2.2.1, dueToo.2.2.2.1, alike.bytes, alike.content]
      · rw [due.2.2.2.2, dueToo.2.2.2.2]
  | some _ =>
    obtain ⟨piece, more, -, rfl, number⟩ := ahead
    cases lineToo with
    | none => cases same.symm.trans aheadToo.1 |>.symm.trans more
    | some _ =>
      obtain ⟨pieceToo, moreToo, -, rfl, numberToo⟩ := aheadToo
      obtain ⟨samePiece, samePieces⟩ := List.cons.inj (moreToo.symm.trans (same.trans more))
      have content : nextToo.reader.content = next.reader.content := by
        rw [content_eq, content_eq, samePieces]
      rw [alike.cap, alike.number, samePiece] at readsToo
      refine ⟨_, next, nextToo, reads, readsToo, caps, ?_, ?_, content, sound, soundToo⟩
      · rw [number, numberToo, alike.number]
      · have bytes := due.2.1
        have bytesToo := dueToo.2.1
        rw [content, alike.content, alike.bytes] at bytesToo
        omega

end NdjsonSource

variable {F : Type} [Float64 F]

section Delivery

variable {env : StreamEnv F} {validator : StreamValidator F}

/-- What a run keeps of its loop: the counters of the source, the batch and the state. -/
def counted (ended : NdjsonSource × List (Nat × Value) × RunState) :
    Nat × Nat × List (Nat × Value) × RunState :=
  (ended.1.recordsRead, ended.1.bytesConsumed, ended.2)

def closeRun (env : StreamEnv F) (validator : StreamValidator F)
    (ended : Nat × Nat × List (Nat × Value) × RunState) : StreamResult StreamReport := do
  let state ← flushBatch env validator ended.2.2.1 ended.2.2.2
  return { state with recordsRead := ended.1, bytesConsumed := ended.2.1 : RunState }.finish

theorem validateReader_eq (reader : Reader) :
    validateReader env validator reader =
      (runLoop env validator (.new reader validator.options.limits.maxRecordBytes) []
        (RunState.new validator.contract.name)).map counted >>= closeRun env validator := by
  rw [validateReader]
  cases runLoop env validator (.new reader validator.options.limits.maxRecordBytes) []
    (RunState.new validator.contract.name) <;> rfl

theorem limitReached_alike {src other : NdjsonSource} (alike : src.Alike other)
    (limits : StreamLimits) : limitReached limits other = limitReached limits src := by
  rw [limitReached, limitReached, NdjsonSource.recordsRead, NdjsonSource.recordsRead, alike.number,
    alike.bytes]

theorem runLoop_alike {src other : NdjsonSource} (alike : src.Alike other)
    (batch : List (Nat × Value)) (state : RunState) :
    (runLoop env validator other batch state).map counted =
      (runLoop env validator src batch state).map counted := by
  fun_induction runLoop env validator src batch state generalizing other with
  | case1 src batch state hit reached =>
    obtain ⟨line, next, nextToo, reads, readsToo, after⟩ := alike.nextLine
    rw [runLoop_limited other batch state hit ((limitReached_alike alike _).trans reached),
      stopAtLimit, stopAtLimit, (readLine_ok_iff other _).mpr readsToo,
      (readLine_ok_iff src _).mpr reads]
    show Except.ok (counted (nextToo, batch, _)) = Except.ok (counted (next, batch, _))
    rw [counted, counted, NdjsonSource.recordsRead, NdjsonSource.recordsRead, after.number,
      after.bytes]
  | case2 src batch state unlimited halt failed =>
    obtain ⟨line, next, nextToo, reads, -⟩ := alike.nextLine
    cases failed.symm.trans ((readLine_ok_iff src _).mpr reads)
  | case3 src batch state unlimited last taken =>
    obtain ⟨line, next, nextToo, reads, readsToo, after⟩ := alike.nextLine
    obtain ⟨rfl, rfl⟩ := Prod.mk.inj (Except.ok.inj
      (reads.symm.trans ((readLine_ok_iff src _).mp taken)))
    rw [runLoop_ended other nextToo batch state ((limitReached_alike alike _).trans unlimited)
      readsToo]
    show Except.ok (counted (nextToo, batch, state)) = Except.ok (counted (next, batch, state))
    rw [counted, counted, NdjsonSource.recordsRead, NdjsonSource.recordsRead, after.number,
      after.bytes]
  | case4 src batch state unlimited line next taken halt failed =>
    obtain ⟨_, _, nextToo, reads, readsToo, after⟩ := alike.nextLine
    obtain ⟨rfl, rfl⟩ := Prod.mk.inj (Except.ok.inj
      (reads.symm.trans ((readLine_ok_iff src _).mp taken)))
    rw [runLoop_line other nextToo line batch state
      ((limitReached_alike alike _).trans unlimited) readsToo, failed]
    rfl
  | case5 src batch state unlimited line next taken batch' state' processed ih =>
    obtain ⟨_, _, nextToo, reads, readsToo, after⟩ := alike.nextLine
    obtain ⟨rfl, rfl⟩ := Prod.mk.inj (Except.ok.inj
      (reads.symm.trans ((readLine_ok_iff src _).mp taken)))
    rw [runLoop_line other nextToo line batch state
      ((limitReached_alike alike _).trans unlimited) readsToo, processed]
    exact ih after

theorem alike_new {input : List UInt8} {reader other : Reader} (delivers : reader.Delivers input)
    (deliversToo : other.Delivers input) (cap : Nat) :
    (NdjsonSource.new reader cap).Alike (NdjsonSource.new other cap) where
  cap := rfl
  number := rfl
  bytes := rfl
  content := deliversToo.content.trans delivers.content.symm
  sound := delivers.sound
  soundToo := deliversToo.sound

/-- What a run answers, a report or an error, depends on the bytes of the input and not on how
    they are delivered, whatever the limits are. -/
theorem validateReader_delivered {input : List UInt8} {reader other : Reader}
    (delivers : reader.Delivers input) (deliversToo : other.Delivers input) :
    validateReader env validator other = validateReader env validator reader := by
  rw [validateReader_eq, validateReader_eq, runLoop_alike (alike_new delivers deliversToo _)]

/-- A valid line, one that is not JSON and is cut in the middle, and two valid ones. -/
theorem validateReader_delivered_cut :
    validateReader idEnv idValidator [.chunk ("\x7b\"id\":1\x7d\nNOT JS".toUTF8.toList ++
        "ON\n\x7b\"id\":5\x7d\n\n\x7b\"id\":9\x7d\n".toUTF8.toList)] =
      validateReader idEnv idValidator idLines := by
  have cut : Reader.Delivers idLines _ :=
    .chunk _ (by decide +kernel) (.interrupted (.chunk _ (by decide +kernel) .done))
  have whole : Reader.Delivers [.chunk ("\x7b\"id\":1\x7d\nNOT JS".toUTF8.toList ++
      "ON\n\x7b\"id\":5\x7d\n\n\x7b\"id\":9\x7d\n".toUTF8.toList)] _ :=
    .chunk _ (by decide +kernel) .done
  rw [List.append_nil] at cut whole
  exact validateReader_delivered cut whole

end Delivery

end StatGuardian.Stream
