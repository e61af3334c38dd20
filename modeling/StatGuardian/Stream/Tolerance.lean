import StatGuardian.Engine.Returns
import StatGuardian.Stream.Accounting

namespace StatGuardian.Stream

open StatGuardian.Core Engine Metrics Polars Validators

def Value.isObject : Value → Bool
  | .object _ => true
  | _ => false

/-- The records cut into batches as the loop does it, after a batch that waits. -/
def batchesFrom {α : Type} (size : Nat) (batch : List α) : List α → List (List α)
  | [] => if batch.isEmpty then [] else [batch]
  | record :: rest =>
    if (batch ++ [record]).length ≥ size then (batch ++ [record]) :: batchesFrom size [] rest
    else batchesFrom size (batch ++ [record]) rest

variable {F : Type} [Float64 F]

/-- What `serde_json` and `JsonReader` do on JSON values: writing one into memory does not fail, a
    batch of objects is read back with a row for each, and a batch with anything else is not. -/
structure JsonLines (env : StreamEnv F) : Prop where
  writes : ∀ value, ∃ bytes, env.toWriter value = .ok bytes
  reads : ∀ k records buf, records ≠ [] → encodeBatch env k records = .ok buf →
    (∀ record ∈ records, record.2.isObject = true) →
      ∃ df, env.readJsonLines buf = .ok df ∧ df.height = records.length
  refuses : ∀ k records buf, encodeBatch env k records = .ok buf →
    (∃ record ∈ records, record.2.isObject = false) → ∃ reason, env.readJsonLines buf = .error reason

/-- The same code around another sort. -/
def StreamEnv.withSorter (env : StreamEnv F) (sorter : Sorter F) : StreamEnv F :=
  { env with engine := env.engine.withSorter sorter }

section Conditions

variable (env : StreamEnv F) (validator : StreamValidator F)

def Flushes (k : Nat) (batch : List (Nat × Value)) : Prop :=
  ∃ df, materialize env k batch = .ok df ∧ ∃ report,
    BatchExecutor.execute env.engine validator.contract validator.dag df none = .ok report

def Completes (src : NdjsonSource) (batch : List (Nat × Value)) (state : RunState) : Prop :=
  ∃ last rest final, runLoop env validator src batch state = .ok (last, rest, final) ∧
    ∃ done, flushBatch env validator rest final = .ok done

/-- Every line that is read and valid JSON holds an object, and the engine can return on the
    frame of every batch. -/
structure Harmless (lines : List RawLine) : Prop where
  objects : ∀ line ∈ lines, line.exceeded = false → line.utf8 = true →
    ∀ value, env.fromStr line.content = .ok value → value.isObject = true
  frames : ∀ (k : Nat) batch, (batchesFrom validator.options.limits.batchSize []
      (lines.filterMap (accepted env validator)))[k]? = some batch →
    ∀ df, materialize env k batch = .ok df →
      RunSafe env.engine validator.contract validator.dag df none

end Conditions

section Steps

variable {env : StreamEnv F} {validator : StreamValidator F}

theorem flushBatch_returns_iff (batch : List (Nat × Value)) (state : RunState) :
    (∃ final, flushBatch env validator batch state = .ok final) ↔
      batch = [] ∨ Flushes env validator state.batches batch := by
  by_cases empty : batch = []
  · subst empty
    exact iff_of_true ⟨state, flushBatch_nil env validator state⟩ (.inl rfl)
  · simp only [flushBatch_ok_iff env validator batch state _ empty, empty, false_or, Flushes]
    constructor
    · rintro ⟨final, df, report, made, executed, _⟩
      exact ⟨df, made, report, executed⟩
    · rintro ⟨df, made, report, executed⟩
      exact ⟨_, df, report, made, executed, rfl⟩

theorem forall_getElem?_cons {α : Type} (x : α) (xs : List α) (p : Nat → α → Prop) :
    (∀ k y, (x :: xs)[k]? = some y → p k y) ↔
      p 0 x ∧ ∀ k y, xs[k]? = some y → p (k + 1) y := by
  constructor
  · intro all
    exact ⟨all 0 x rfl, fun k y found => all (k + 1) y found⟩
  · rintro ⟨first, rest⟩ k y found
    cases k with
    | zero =>
      obtain rfl := Option.some.inj found
      exact first
    | succ k => exact rest k y found

theorem lastBatch_iff {α : Type} (size : Nat) (batch : List α) (p : Nat → List α → Prop) :
    (batch = [] ∨ p 0 batch) ↔ ∀ k b, (batchesFrom size batch [])[k]? = some b → p k b := by
  unfold batchesFrom
  cases batch with
  | nil => simp
  | cons record batch =>
    simp only [List.isEmpty_cons, Bool.false_eq_true, if_false, List.cons_ne_nil, false_or,
      forall_getElem?_cons]
    simp

theorem processLine_tolerates (json : validator.options.malformed ≠ .failFast)
    (large : validator.options.oversized ≠ .failFast) {line : RawLine}
    (outside : accepted env validator line = none)
    (batch : List (Nat × Value)) (state : RunState) :
    ∃ final, processLine env validator line batch state = .ok (batch, final) ∧
      final.batches = state.batches := by
  obtain ⟨policy, kind, reason, preview, source, rejects⟩ :=
    processLine_rejected env validator line outside
  have tolerant : policy ≠ .failFast := by
    rcases source with rfl | rfl
    · exact json
    · exact large
  obtain ⟨kept, rejected⟩ :=
    reject_returns state policy line.record kind reason preview tolerant
  refine ⟨{ state.countRejected kind with malformed := kept }, ?_, rfl⟩
  rw [rejects, rejected]
  rfl

theorem joined_completes_iff (next : NdjsonSource) (record : Nat × Value)
    (records : List (Nat × Value))
    (rest_iff : ∀ batch state, Completes env validator next batch state ↔
      ∀ k b, (batchesFrom validator.options.limits.batchSize batch records)[k]? = some b →
        Flushes env validator (state.batches + k) b)
    (batch : List (Nat × Value)) (state : RunState) :
    (∃ last rest final, (do
        let (batch, state) ← joinBatch env validator record batch state
        runLoop env validator next batch state) = .ok (last, rest, final) ∧
      ∃ done, flushBatch env validator rest final = .ok done) ↔
      ∀ k b, (batchesFrom validator.options.limits.batchSize batch (record :: records))[k]? =
        some b → Flushes env validator (state.batches + k) b := by
  rw [joinBatch, batchesFrom]
  split
  · have returns : (∃ final, flushBatch env validator (batch ++ [record]) state = .ok final) ↔ _ :=
      flushBatch_returns_iff ..
    simp only [List.append_eq_nil_iff, List.cons_ne_nil, and_false, false_or] at returns
    rw [forall_getElem?_cons, Nat.add_zero]
    cases flushed : flushBatch env validator (batch ++ [record]) state with
    | error halt =>
      rw [flushed] at returns
      apply iff_of_false
      · rintro ⟨last, rest, final, ran, _⟩
        cases ran
      · rintro ⟨first, _⟩
        obtain ⟨final, same⟩ := returns.mpr first
        cases same
    | ok state' =>
      have first := returns.mp ⟨state', flushed⟩
      obtain ⟨df, report, _, _, rfl⟩ :=
        (flushBatch_ok_iff env validator _ state state' (by simp)).mp flushed
      simp only [first, true_and]
      refine (rest_iff [] _).trans ?_
      simp only [ranBatch, Nat.add_assoc, Nat.add_comm 1]
  · exact rest_iff (batch ++ [record]) state

theorem completes_iff (json : validator.options.malformed ≠ .failFast)
    (large : validator.options.oversized ≠ .failFast) {src : NdjsonSource} {lines : List RawLine}
    (through : LetThrough validator.options.limits src lines) (sound : src.reader.Sound)
    (batch : List (Nat × Value)) (state : RunState) :
    Completes env validator src batch state ↔
      ∀ k b, (batchesFrom validator.options.limits.batchSize batch
        (lines.filterMap (accepted env validator)))[k]? = some b →
          Flushes env validator (state.batches + k) b := by
  induction through generalizing batch state with
  | @limited src reached =>
    obtain ⟨hit, reached⟩ := Option.ne_none_iff_exists'.mp reached
    obtain ⟨line, next, taken, _⟩ := NdjsonSource.nextLine_returns src sound
    have stops : ∃ final, stopAtLimit hit src state = .ok (next, final) ∧
        final.batches = state.batches := by
      rw [stopAtLimit, (readLine_ok_iff src _).mpr taken]
      cases line <;> exact ⟨_, rfl, rfl⟩
    obtain ⟨final, stops, batches⟩ := stops
    rw [List.filterMap_nil, ← lastBatch_iff _ batch
      (fun k b => Flushes env validator (state.batches + k) b), Nat.add_zero, ← batches,
      ← flushBatch_returns_iff, Completes, runLoop_limited src batch state hit reached, stops]
    simp [bind, Except.bind, pure, Except.pure]
  | @ended src last unlimited ended =>
    rw [List.filterMap_nil, ← lastBatch_iff _ batch
      (fun k b => Flushes env validator (state.batches + k) b), Nat.add_zero,
      ← flushBatch_returns_iff, Completes, runLoop_ended src last batch state unlimited ended]
    simp
  | @line src next line lines unlimited taken _ ih =>
    have later : next.reader.Sound := by
      obtain ⟨_, _, taken', later⟩ := NdjsonSource.nextLine_returns src sound
      rw [taken, Except.ok.injEq, Prod.mk.injEq] at taken'
      exact taken'.2 ▸ later
    have ih := fun batch state => ih later batch state
    unfold Completes at ih ⊢
    rw [runLoop_line src next line batch state unlimited taken]
    cases joins : accepted env validator line with
    | none =>
      obtain ⟨state', tolerates, batches⟩ := processLine_tolerates json large joins batch state
      rw [tolerates, List.filterMap_cons_none joins, ← batches]
      exact ih batch state'
    | some record =>
      obtain ⟨value, _, _, accepts⟩ := processLine_accepted env validator line record joins
      rw [accepts, List.filterMap_cons_some joins]
      exact joined_completes_iff next record _ ih batch (state.recordSanitization _)

end Steps

section Batches

theorem flatten_batchesFrom {α : Type} (size : Nat) (batch records : List α) :
    (batchesFrom size batch records).flatten = batch ++ records := by
  induction records generalizing batch with
  | nil =>
    unfold batchesFrom
    split
    · rename_i empty
      rw [List.isEmpty_iff.mp empty]
      rfl
    · simp
  | cons record rest ih =>
    unfold batchesFrom
    split
    · rw [List.flatten_cons, ih, List.nil_append, List.append_assoc, List.singleton_append]
    · rw [ih, List.append_assoc, List.singleton_append]

theorem ne_nil_of_mem_batchesFrom {α : Type} (size : Nat) (batch records b : List α)
    (member : b ∈ batchesFrom size batch records) : b ≠ [] := by
  induction records generalizing batch with
  | nil =>
    unfold batchesFrom at member
    split at member
    · cases member
    · rename_i filled
      rw [List.mem_singleton.mp member]
      simpa using filled
  | cons record rest ih =>
    unfold batchesFrom at member
    split at member
    · rcases List.mem_cons.mp member with rfl | later
      · simp
      · exact ih [] later
    · exact ih _ member

theorem sanitize_isObject (text : TextEnv) (sanitizer : Sanitizer) (value : Value) :
    (sanitizer.sanitize text value).1.isObject = value.isObject := by
  unfold Sanitizer.sanitize
  split
  · rfl
  · cases value <;> simp only [Sanitizer.walk]
    · split <;> rfl
    · rfl

end Batches

section Report

variable {env : StreamEnv F} {validator : StreamValidator F}

theorem encodeBatch_returns (json : JsonLines env) (k : Nat) (records : List (Nat × Value)) :
    ∃ buf, encodeBatch env k records = .ok buf := by
  have returns : ∀ f : Nat × Value → StreamResult (List UInt8),
      (∀ record ∈ records, ∃ line, f record = .ok line) →
        ∃ buf, (do let lines ← records.mapM f; return lines.flatten) = Except.ok buf := by
    intro f each
    obtain ⟨lines, ran⟩ := (Results.mapM_returns_iff f records).mpr each
    refine ⟨lines.flatten, ?_⟩
    rw [ran]
    rfl
  apply returns
  intro record _
  obtain ⟨bytes, wrote⟩ := json.writes record.2
  simp only [wrote]
  exact ⟨_, rfl⟩

theorem materialize_returns (json : JsonLines env) (k : Nat) (records : List (Nat × Value))
    (some : records ≠ []) (objects : ∀ record ∈ records, record.2.isObject = true) :
    ∃ df, materialize env k records = .ok df := by
  obtain ⟨buf, encoded⟩ := encodeBatch_returns json k records
  obtain ⟨df, read, _⟩ := json.reads k records buf some encoded objects
  refine ⟨df, ?_⟩
  simp only [materialize, encoded, bind, Except.bind, read]
  rfl

theorem objects_of_materialize (json : JsonLines env) (k : Nat) (records : List (Nat × Value))
    (df : DataFrame F) (made : materialize env k records = .ok df) :
    ∀ record ∈ records, record.2.isObject = true := by
  intro record member
  by_contra other
  obtain ⟨buf, encoded⟩ := encodeBatch_returns json k records
  obtain ⟨reason, failed⟩ := json.refuses k records buf encoded
    ⟨record, member, Bool.eq_false_iff.mpr other⟩
  simp only [materialize, encoded, bind, Except.bind, failed] at made
  cases made

theorem validateReader_returns_iff (reader : Reader) :
    (∃ report, validateReader env validator reader = .ok report) ↔
      Completes env validator
        (NdjsonSource.new reader validator.options.limits.maxRecordBytes) []
        (RunState.new validator.contract.name) := by
  simp only [validateReader, Results.bind_ok_iff, Completes, Prod.exists]
  constructor
  · rintro ⟨report, last, rest, final, ran, done, flushed, _⟩
    exact ⟨last, rest, final, ran, done, flushed⟩
  · rintro ⟨last, rest, final, ran, done, flushed⟩
    exact ⟨_, last, rest, final, ran, done, flushed, rfl⟩

/-- Every record that joins a batch holds an object when every value that is read does, and the
    other way round. -/
theorem objects_iff (lines : List RawLine) :
    (∀ b ∈ batchesFrom validator.options.limits.batchSize []
        (lines.filterMap (accepted env validator)), ∀ record ∈ b, record.2.isObject = true) ↔
      ∀ line ∈ lines, line.exceeded = false → line.utf8 = true →
        ∀ value, env.fromStr line.content = .ok value → value.isObject = true := by
  have flat : ∀ record, (∃ b ∈ batchesFrom validator.options.limits.batchSize []
      (lines.filterMap (accepted env validator)), record ∈ b) ↔
        ∃ line ∈ lines, accepted env validator line = some record := by
    intro record
    rw [← List.mem_flatten, flatten_batchesFrom, List.nil_append, List.mem_filterMap]
  constructor
  · intro objects line member fits valid value parsed
    have joins : accepted env validator line = some (line.record,
        (validator.options.sanitizer.sanitize env.text value).1) := by
      simp [accepted, fits, valid, parsed]
    obtain ⟨b, inside, found⟩ := (flat _).mpr ⟨line, member, joins⟩
    rw [← sanitize_isObject env.text validator.options.sanitizer value]
    exact objects b inside _ found
  · intro objects b inside record found
    obtain ⟨line, member, joins⟩ := (flat record).mp ⟨b, inside, found⟩
    obtain ⟨value, parsed, rfl, _⟩ := processLine_accepted env validator line record joins
    rw [sanitize_isObject]
    unfold accepted at joins
    split at joins
    · cases joins
    · rename_i readable
      rw [Bool.not_eq_true, Bool.or_eq_false_iff, Bool.not_eq_false'] at readable
      exact objects line member readable.1 readable.2 value parsed

/-- A run whose policies skip or collect returns, with every line validated or counted, exactly
    when nothing it lets through is other than an object and no frame panics the engine. -/
theorem tolerant_iff (reader : Reader) (sound : reader.Sound)
    (malformed : validator.options.malformed ≠ .failFast)
    (oversized : validator.options.oversized ≠ .failFast) (json : JsonLines env) :
    ∃ lines, LetThrough validator.options.limits
        (NdjsonSource.new reader validator.options.limits.maxRecordBytes) lines ∧
      ((∀ sorter, ∃ report,
          validateReader (env.withSorter sorter) validator reader = .ok report ∧
          Handled (env.withSorter sorter) validator
            (NdjsonSource.new reader validator.options.limits.maxRecordBytes) lines report) ↔
        Harmless env validator lines) := by
  obtain ⟨lines, through⟩ := letThrough_exists validator.options.limits
    (NdjsonSource.new reader validator.options.limits.maxRecordBytes) sound
  have completes : ∀ sorter, Completes (env.withSorter sorter) validator
      (NdjsonSource.new reader validator.options.limits.maxRecordBytes) []
      (RunState.new validator.contract.name) ↔ _ :=
    fun sorter => completes_iff malformed oversized through sound [] _
  have due : ∀ k, (RunState.new validator.contract.name).batches + k = k := Nat.zero_add
  simp only [due] at completes
  refine ⟨lines, through, ?_⟩
  constructor
  · intro returns
    obtain ⟨report, ran, _⟩ := returns (Sorter.strict F)
    have flushes := (completes _).mp ((validateReader_returns_iff reader).mp ⟨report, ran⟩)
    constructor
    · apply (objects_iff lines).mp
      intro b inside
      obtain ⟨k, found⟩ := List.mem_iff_getElem?.mp inside
      obtain ⟨df, made, _⟩ := flushes k b found
      exact objects_of_materialize json k b df made
    · intro k b found df made
      obtain ⟨df', made', executed⟩ := flushes k b found
      obtain rfl := Except.ok.inj (made'.symm.trans made)
      exact safe_of_strict_returns env.engine validator.contract validator.dag df' none executed
  · intro harmless sorter
    have flushes : ∀ k b, (batchesFrom validator.options.limits.batchSize []
        (lines.filterMap (accepted env validator)))[k]? = some b →
          Flushes (env.withSorter sorter) validator k b := by
      intro k b found
      have inside := List.mem_of_getElem? found
      obtain ⟨df, made⟩ := materialize_returns json k b (ne_nil_of_mem_batchesFrom _ _ _ b inside)
        ((objects_iff lines).mpr harmless.objects b inside)
      exact ⟨df, made, execute_returns_of_safe env.engine sorter validator.contract validator.dag df
        none (harmless.frames k b found df made)⟩
    obtain ⟨report, ran⟩ := (validateReader_returns_iff reader).mpr ((completes sorter).mpr flushes)
    obtain ⟨lines', src, batch, state, last, final, tally, ends, _, _, handled⟩ := run_tally ran
    have through' := letThrough_of_tally tally.read tally.unlimited ends
    obtain rfl := through.unique through'
    exact ⟨report, ran, handled⟩

end Report

section NumberLine

/-- The text of a value; of all numbers only `5` is used. -/
def writeValue : Value → List UInt8
  | .object [("id", .number digit)] =>
    ((idTexts.find? (fun text => text.1 == digit)).map Prod.snd).getD "\x7b\x7d".toUTF8.toList
  | .object _ => "\x7b\x7d".toUTF8.toList
  | .number _ => "5".toUTF8.toList
  | _ => "null".toUTF8.toList

def openBrace : UInt8 := 123

def objectEnv : StreamEnv ExtRat :=
  { idEnv with
    fromStr := fun content =>
      if content = "5" then .ok (.number "5") else idEnv.fromStr content
    toWriter := fun value => .ok (writeValue value)
    readJsonLines := fun buf =>
      let records := Pieces.splitAfter (· == newline) buf
      if records.all (fun record => record.head? == some openBrace) then
        .ok (idFrame (records.map (fun record => (record.filterMap digitValue).headD 0)))
      else .error "expected a JSON object" }

theorem writeValue_line (value : Value) :
    (∀ b ∈ writeValue value, (b == newline) = false) ∧
      ((writeValue value ++ [newline]).head? == some openBrace) = value.isObject := by
  have digits : ∀ text ∈ idTexts, (∀ b ∈ text.2, (b == newline) = false) ∧
      ((text.2 ++ [newline]).head? == some openBrace) = true := by
    decide +kernel
  have braces : (∀ b ∈ "\x7b\x7d".toUTF8.toList, (b == newline) = false) ∧
      (("\x7b\x7d".toUTF8.toList ++ [newline]).head? == some openBrace) = true := by
    decide +kernel
  have five : (∀ b ∈ "5".toUTF8.toList, (b == newline) = false) ∧
      (("5".toUTF8.toList ++ [newline]).head? == some openBrace) = false := by
    decide +kernel
  have null : (∀ b ∈ "null".toUTF8.toList, (b == newline) = false) ∧
      (("null".toUTF8.toList ++ [newline]).head? == some openBrace) = false := by
    decide +kernel
  cases value with
  | number text => exact five
  | null | bool _ | string _ | array _ => exact null
  | object fields =>
    unfold writeValue
    split
    · rename_i digit _
      cases found : idTexts.find? (fun text => text.1 == digit) with
      | none => exact braces
      | some text => exact digits text (List.mem_of_find?_eq_some found)
    · exact braces
    · rename_i same
      cases same
    · rename_i objects _
      exact (objects fields rfl).elim

theorem objectEnv_encoded (k : Nat) (records : List (Nat × Value)) (buf : List UInt8)
    (encoded : encodeBatch objectEnv k records = .ok buf) :
    Pieces.splitAfter (· == newline) buf =
      records.map (fun record => writeValue record.2 ++ [newline]) := by
  have lines : records.mapM (fun record : Nat × Value =>
      (.ok (writeValue record.2 ++ [newline]) : StreamResult (List UInt8))) =
        .ok (records.map (fun record => writeValue record.2 ++ [newline])) :=
    (Results.mapM_ok_iff _ _ _).mpr (List.forall₂_map_right_iff.mpr
      (List.forall₂_same.mpr fun _ _ => rfl))
  have same : encodeBatch objectEnv k records =
      .ok (records.map (fun record => writeValue record.2 ++ [newline])).flatten := by
    show (do let lines ← records.mapM (fun record : Nat × Value =>
      (.ok (writeValue record.2 ++ [newline]) : StreamResult (List UInt8))); return lines.flatten) = _
    rw [lines]
    rfl
  obtain rfl := Except.ok.inj (encoded.symm.trans same)
  apply Pieces.splitAfter_flatten
  intro piece member
  obtain ⟨record, _, rfl⟩ := List.mem_map.mp member
  exact ⟨writeValue record.2, newline, rfl, by decide, (writeValue_line record.2).1⟩

theorem objectEnv_json : JsonLines objectEnv where
  writes value := ⟨_, rfl⟩
  reads := by
    intro k records buf _ encoded objects
    have pieces := objectEnv_encoded k records buf encoded
    have all : (records.map (fun record => writeValue record.2 ++ [newline])).all
        (fun line => line.head? == some openBrace) = true := by
      rw [List.all_map, List.all_eq_true]
      intro record member
      exact (writeValue_line record.2).2.trans (objects record member)
    refine ⟨_, by simp only [objectEnv, pieces, all, if_true]; rfl, ?_⟩
    simp [idFrame]
  refuses := by
    rintro k records buf encoded ⟨record, member, other⟩
    have pieces := objectEnv_encoded k records buf encoded
    have some : ¬ (records.map (fun record => writeValue record.2 ++ [newline])).all
        (fun line => line.head? == some openBrace) = true := by
      rw [List.all_map, List.all_eq_true]
      intro all
      have braced := (writeValue_line record.2).2.symm.trans (all record member)
      rw [other] at braced
      cases braced
    exact ⟨_, by simp only [objectEnv, pieces, some]; rfl⟩

def numberLine : Reader :=
  [.chunk "\x7b\"id\":1\x7d\n5\n\x7b\"id\":9\x7d\n".toUTF8.toList]

theorem number_line_stops_run :
    JsonLines objectEnv ∧ numberLine.Sound ∧ idValidator.options.malformed ≠ .failFast ∧
      idValidator.options.oversized ≠ .failFast ∧
      ¬ ∃ report, validateReader objectEnv idValidator numberLine = .ok report := by
  refine ⟨objectEnv_json, .inr trivial, by decide, by decide, ?_⟩
  rintro ⟨report, ran⟩
  have stopped : (validateReader objectEnv idValidator numberLine).toOption.isNone = true := by
    decide +kernel
  rw [ran] at stopped
  cases stopped

theorem tolerant_iff_ids :
    ∃ lines, LetThrough idValidator.options.limits (NdjsonSource.new idLines (8 * 1024 * 1024))
        lines ∧
      ((∀ sorter, ∃ report,
          validateReader (objectEnv.withSorter sorter) idValidator idLines = .ok report ∧
          Handled (objectEnv.withSorter sorter) idValidator
            (NdjsonSource.new idLines (8 * 1024 * 1024)) lines report) ↔
        Harmless objectEnv idValidator lines) :=
  tolerant_iff idLines (.inr (.inr trivial)) (by decide) (by decide) objectEnv_json

end NumberLine

end StatGuardian.Stream
