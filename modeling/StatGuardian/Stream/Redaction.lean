import StatGuardian.Stream.Accounting

namespace StatGuardian.Stream

open StatGuardian.Core Engine Metrics Polars Validators

namespace Sanitizer

variable (env : TextEnv) (sanitizer : Sanitizer)

mutual

/-- A value without what the redaction policy covers: null stands for every value that is stored
    under a redacted key in the policy's scope. -/
def visible : Value → Value
  | .object fields => .object (visibleFields fields)
  | .array items =>
    if sanitizer.redaction.recursive then .array (visibleItems items) else .array items
  | value => value

def visibleFields : List (String × Value) → List (String × Value)
  | [] => []
  | (key, child) :: rest =>
    let child :=
      if (sanitizer.redactionFor key).isSome then .null
      else if sanitizer.redaction.recursive then visible child
      else child
    (key, child) :: visibleFields rest

def visibleItems : List Value → List Value
  | [] => []
  | child :: rest => visible child :: visibleItems rest

end

/-- No rule keeps a trace of the value. -/
def Erases : Prop := ∀ rule ∈ sanitizer.redaction.rules, rule.strategy ≠ .hash

variable {sanitizer}

theorem redact_erases (erases : sanitizer.Erases) (key : String) (strategy : RedactionStrategy)
    (found : sanitizer.redactionFor key = some strategy) (child child' : Value) :
    redact env strategy child = redact env strategy child' := by
  obtain ⟨rule, first, rfl⟩ := Option.map_eq_some_iff.mp found
  have kept := erases rule (List.mem_of_find?_eq_some first)
  cases strategy : rule.strategy with
  | hash => exact absurd strategy kept
  | _ => rfl

mutual

/-- What is hidden has no part in what the walk makes of a value. -/
theorem walk_visible (erases : sanitizer.Erases) (path : String) : (value : Value) →
    walk env sanitizer path (visible sanitizer value) = walk env sanitizer path value
  | .object fields => by
    rw [visible, walk, walk, walkFields_visible erases path fields]
  | .array items => by
    rw [visible]
    split
    · rename_i deep
      have recursive : sanitizer.recursive = true := by rw [Sanitizer.recursive, deep, Bool.true_or]
      simp only [walk, recursive, if_true, walkItems_visible erases path 0 items]
    · rfl
  | .null => rfl
  | .bool _ => rfl
  | .number _ => rfl
  | .string _ => rfl

theorem walkFields_visible (erases : sanitizer.Erases) (path : String) :
    (fields : List (String × Value)) →
      walkFields env sanitizer path (visibleFields sanitizer fields) =
        walkFields env sanitizer path fields
  | [] => rfl
  | (key, child) :: rest => by
    have entry : walkEntry env sanitizer path key
        (if (sanitizer.redactionFor key).isSome then .null
          else if sanitizer.redaction.recursive then visible sanitizer child else child) =
        walkEntry env sanitizer path key child := by
      cases found : sanitizer.redactionFor key with
      | some strategy =>
        simp only [walkEntry, found, redact_erases env erases key strategy found .null child,
          Option.isSome_some, if_true]
      | none =>
        simp only [Option.isSome_none, Bool.false_eq_true, if_false]
        split
        · rename_i deep
          have recursive : sanitizer.recursive = true := by
            rw [Sanitizer.recursive, deep, Bool.true_or]
          have inner := walk_visible erases (childPath path key) child
          cases child with
          | array items =>
            simp only [visible, deep, if_true] at inner ⊢
            simp only [walkEntry, found, recursive, if_true, inner]
          | object fields =>
            simp only [visible] at inner ⊢
            simp only [walkEntry, found, recursive, if_true, inner]
          | _ => rfl
        · rfl
    rw [visibleFields, walkFields_cons, walkFields_cons, walkFields_visible erases path rest, entry]

theorem walkItems_visible (erases : sanitizer.Erases) (path : String) (i : Nat) :
    (items : List Value) →
      walkItems env sanitizer path i (visibleItems sanitizer items) =
        walkItems env sanitizer path i items
  | [] => rfl
  | child :: rest => by
    rw [visibleItems, walkItems, walkItems, walk_visible erases _ child,
      walkItems_visible erases path (i + 1) rest]

end

theorem redactionFor_of_no_rules (bare : sanitizer.redaction.rules = []) (key : String) :
    sanitizer.redactionFor key = none := by
  rw [redactionFor, bare]
  rfl

mutual

theorem visible_of_no_rules (bare : sanitizer.redaction.rules = []) :
    (value : Value) → visible sanitizer value = value
  | .object fields => by rw [visible, visibleFields_of_no_rules bare fields]
  | .array items => by
    rw [visible]
    split
    · rw [visibleItems_of_no_rules bare items]
    · rfl
  | .null => rfl
  | .bool _ => rfl
  | .number _ => rfl
  | .string _ => rfl

theorem visibleFields_of_no_rules (bare : sanitizer.redaction.rules = []) :
    (fields : List (String × Value)) → visibleFields sanitizer fields = fields
  | [] => rfl
  | (key, child) :: rest => by
    rw [visibleFields, visibleFields_of_no_rules bare rest, redactionFor_of_no_rules bare key,
      visible_of_no_rules bare child]
    simp

theorem visibleItems_of_no_rules (bare : sanitizer.redaction.rules = []) :
    (items : List Value) → visibleItems sanitizer items = items
  | [] => rfl
  | child :: rest => by
    rw [visibleItems, visible_of_no_rules bare child, visibleItems_of_no_rules bare rest]

end

/-- Values that differ only in what is hidden are sanitized to the same value, with the same
    events. -/
theorem sanitize_eq_of_visible (erases : sanitizer.Erases) (value value' : Value)
    (same : visible sanitizer value = visible sanitizer value') :
    sanitizer.sanitize env value = sanitizer.sanitize env value' := by
  unfold sanitize
  split
  · rename_i noop
    have bare : sanitizer.redaction.rules = [] := by
      simp only [isNoop, Bool.and_eq_true, List.isEmpty_iff] at noop
      exact noop.1.1.1
    rw [visible_of_no_rules bare, visible_of_no_rules bare] at same
    rw [same]
  · rw [← walk_visible env erases "" value, same, walk_visible env erases "" value']

end Sanitizer

variable {F : Type} [Float64 F]

section Twins

variable (env : StreamEnv F) (validator : StreamValidator F)

/-- Lines of two inputs: both blank and on one side of the cap, or both within the cap and valid
    JSON whose values differ only in what is hidden. -/
inductive Twins (cap : Nat) (piece piece' : List UInt8) : Prop where
  | blank : NdjsonSource.isBlank piece = true → NdjsonSource.isBlank piece' = true →
      (cap < piece.length ↔ cap < piece'.length) → Twins cap piece piece'
  | record {s s' : String} {value value' : Value} :
      piece.length ≤ cap → piece'.length ≤ cap →
      NdjsonSource.isBlank piece = false → NdjsonSource.isBlank piece' = false →
      Text.fromUtf8 piece = some s → Text.fromUtf8 piece' = some s' →
      env.fromStr (Text.trimEndMatches NdjsonSource.isLineEnd s) = .ok value →
      env.fromStr (Text.trimEndMatches NdjsonSource.isLineEnd s') = .ok value' →
      validator.options.sanitizer.visible value = validator.options.sanitizer.visible value' →
        Twins cap piece piece'

variable {env validator}

theorem Twins.handedOut {cap : Nat} {piece piece' : List UInt8}
    (twins : Twins env validator cap piece piece') :
    NdjsonSource.handedOut cap piece = NdjsonSource.handedOut cap piece' := by
  cases twins with
  | blank blank blank' side =>
    simp only [NdjsonSource.handedOut, blank, blank', side]
  | record fits fits' blank blank' =>
    simp only [NdjsonSource.handedOut, blank, blank', Bool.not_false, Bool.or_true]

theorem Twins.processLine {cap record : Nat} {piece piece' : List UInt8}
    (erases : validator.options.sanitizer.Erases) (twins : Twins env validator cap piece piece')
    (out : NdjsonSource.handedOut cap piece = true) (batch : List (Nat × Value))
    (state : RunState) :
    processLine env validator (NdjsonSource.lineOf cap record piece) batch state =
      processLine env validator (NdjsonSource.lineOf cap record piece') batch state := by
  cases twins with
  | blank blank blank' side =>
    have past : cap < piece.length := by
      simpa [NdjsonSource.handedOut, blank] using out
    simp only [NdjsonSource.lineOf, past, side.mp past, if_true, Stream.processLine]
  | @record s s' value value' fits fits' blank blank' utf8 utf8' parsed parsed' same =>
    have shown := Sanitizer.sanitize_eq_of_visible env.text erases value value' same
    simp only [NdjsonSource.lineOf, Nat.not_lt.mpr fits, Nat.not_lt.mpr fits', if_false, utf8, utf8',
      Stream.processLine, parsed, parsed', shown]

end Twins

section Runs

variable {env : StreamEnv F} {validator : StreamValidator F}

/-- Two sources that have come to corresponding lines. -/
structure Paired (env : StreamEnv F) (validator : StreamValidator F) (src src' : NdjsonSource) :
    Prop where
  cap : src'.maxRecordBytes = src.maxRecordBytes
  record : src'.recordIndex = src.recordIndex
  sound : src.reader.Sound
  sound' : src'.reader.Sound
  pieces : List.Forall₂ (Twins env validator src.maxRecordBytes) src.reader.pieces
    src'.reader.pieces

theorem Paired.ahead {src src' : NdjsonSource} (paired : Paired env validator src src') :
    List.Forall₂ (Twins env validator src.maxRecordBytes) src.ahead src'.ahead := by
  unfold NdjsonSource.ahead
  rw [paired.cap]
  apply Results.forall₂_dropWhile _ paired.pieces
  intro piece piece' twins
  rw [twins.handedOut]

theorem Paired.nextLine {src src' next : NdjsonSource} {line : Option RawLine}
    (erases : validator.options.sanitizer.Erases) (paired : Paired env validator src src')
    (reads : src.nextLine = .ok (line, next)) :
    ∃ line' next', src'.nextLine = .ok (line', next') ∧ Paired env validator next next' ∧
      ((line = none ∧ line' = none) ∨
        ∃ l l', line = some l ∧ line' = some l' ∧ ∀ batch state,
          processLine env validator l batch state = processLine env validator l' batch state) := by
  obtain ⟨line', next', reads', later'⟩ := NdjsonSource.nextLine_returns src' paired.sound'
  obtain ⟨_, _, reads'', later⟩ := NdjsonSource.nextLine_returns src paired.sound
  obtain ⟨rfl, rfl⟩ := Prod.mk.inj (Except.ok.inj (reads.symm.trans reads''))
  have here := NdjsonSource.nextLine_ahead src next line reads
  have there := NdjsonSource.nextLine_ahead src' next' line' reads'
  have related := paired.ahead
  refine ⟨line', next', reads', ?_⟩
  rw [paired.cap, paired.record] at there
  obtain ⟨cap, here⟩ := here
  obtain ⟨cap', there⟩ := there
  cases line with
  | none =>
    obtain ⟨empty, past, number⟩ := here
    rw [empty, List.forall₂_nil_left_iff] at related
    cases line' with
    | none =>
      obtain ⟨_, past', number'⟩ := there
      refine ⟨⟨cap'.trans cap.symm, number'.trans number.symm, later, later', ?_⟩, .inl ⟨rfl, rfl⟩⟩
      rw [past, past']
      exact .nil
    | some l' =>
      obtain ⟨piece', found', _⟩ := there
      cases related.symm.trans found'
  | some l =>
    obtain ⟨piece, found, out, rfl, number⟩ := here
    rw [found] at related
    cases line' with
    | none =>
      obtain ⟨empty', _⟩ := there
      rw [empty'] at related
      cases related
    | some l' =>
      obtain ⟨piece', found', out', rfl, number'⟩ := there
      rw [found'] at related
      obtain ⟨twins, rest⟩ := List.forall₂_cons.mp related
      refine ⟨⟨cap'.trans cap.symm, number'.trans number.symm, later, later', ?_⟩,
        .inr ⟨_, _, rfl, rfl, twins.processLine erases out⟩⟩
      rw [cap]
      exact rest

omit [Float64 F] in
theorem limitReached_eq {limits : StreamLimits} {src src' : NdjsonSource}
    (unbounded : limits.maxBytes = none) (record : src'.recordIndex = src.recordIndex) :
    limitReached limits src' = limitReached limits src := by
  have read : src'.recordsRead = src.recordsRead := record
  rw [limitReached, limitReached, read, unbounded]
  rfl

theorem runLoop_paired (erases : validator.options.sanitizer.Erases)
    (unbounded : validator.options.limits.maxBytes = none) {src src' : NdjsonSource}
    {lines : List RawLine} (through : LetThrough validator.options.limits src lines)
    (paired : Paired env validator src src') (batch : List (Nat × Value)) (state : RunState) :
    Results.Same (fun out out' => out'.2 = out.2 ∧ out'.1.recordIndex = out.1.recordIndex)
      (runLoop env validator src batch state) (runLoop env validator src' batch state) := by
  induction through generalizing src' batch state with
  | @limited src reached =>
    obtain ⟨hit, reached⟩ := Option.ne_none_iff_exists'.mp reached
    have reached' := (limitReached_eq unbounded paired.record).trans reached
    obtain ⟨line, next, taken, _⟩ := NdjsonSource.nextLine_returns src paired.sound
    obtain ⟨line', next', taken', paired', lines⟩ := paired.nextLine erases taken
    rw [runLoop_limited src batch state hit reached, runLoop_limited src' batch state hit reached',
      stopAtLimit, stopAtLimit, (readLine_ok_iff src _).mpr taken,
      (readLine_ok_iff src' _).mpr taken']
    rcases lines with ⟨rfl, rfl⟩ | ⟨l, l', rfl, rfl, _⟩
    · exact ⟨rfl, paired'.record⟩
    · exact ⟨rfl, paired'.record⟩
  | @ended src last unlimited ended =>
    have unlimited' := (limitReached_eq unbounded paired.record).trans unlimited
    obtain ⟨line', next', taken', paired', lines⟩ := paired.nextLine erases ended
    rcases lines with ⟨_, rfl⟩ | ⟨l, l', same, _⟩
    · rw [runLoop_ended src last batch state unlimited ended,
        runLoop_ended src' next' batch state unlimited' taken']
      exact ⟨rfl, paired'.record⟩
    · cases same
  | @line src next line lines unlimited taken _ ih =>
    have unlimited' := (limitReached_eq unbounded paired.record).trans unlimited
    obtain ⟨line', next', taken', paired', both⟩ := paired.nextLine erases taken
    rcases both with ⟨same, _⟩ | ⟨l, l', same, rfl, processed⟩
    · cases same
    · obtain rfl := Option.some.inj same
      rw [runLoop_line src next line batch state unlimited taken,
        runLoop_line src' next' l' batch state unlimited' taken', processed]
      cases processLine env validator l' batch state with
      | error halt => exact rfl
      | ok out => exact ih paired' out.1 out.2

end Runs

section Report

variable {env : StreamEnv F} {validator : StreamValidator F}

/-- The report without the bytes that were consumed. -/
def StreamReport.observed (report : StreamReport) : StreamReport := { report with bytesConsumed := 0 }

/-- What is hidden has no part in the result of a run: not in the report and not in an error. -/
theorem redacted_values_hidden (reader reader' : Reader)
    (erases : validator.options.sanitizer.Erases)
    (unbounded : validator.options.limits.maxBytes = none) (sound : reader.Sound)
    (sound' : reader'.Sound)
    (twins : List.Forall₂ (Twins env validator (max validator.options.limits.maxRecordBytes 1))
      reader.pieces reader'.pieces) :
    StreamReport.observed <$> validateReader env validator reader =
      StreamReport.observed <$> validateReader env validator reader' := by
  obtain ⟨lines, through⟩ := letThrough_exists validator.options.limits
    (NdjsonSource.new reader validator.options.limits.maxRecordBytes) sound
  have paired : Paired env validator
      (NdjsonSource.new reader validator.options.limits.maxRecordBytes)
      (NdjsonSource.new reader' validator.options.limits.maxRecordBytes) :=
    ⟨rfl, rfl, sound, sound', twins⟩
  have same := runLoop_paired erases unbounded through paired []
    (RunState.new validator.contract.name)
  simp only [validateReader, map_bind]
  apply Results.bind_eq_of_same same
  rintro ⟨last, rest, final⟩ ⟨last', rest', final'⟩ ⟨ends, record⟩
  obtain ⟨rfl, rfl⟩ := Prod.mk.inj ends
  have read : last'.recordsRead = last.recordsRead := record
  congr 1
  funext done
  simp only [read]
  rfl

end Report

section MaskedIds

/-- The values under `id` are masked. -/
def maskingIds : StreamValidator ExtRat :=
  { idValidator with
    options := { idValidator.options with
      sanitizer := ⟨⟨[⟨"id", .mask⟩], false⟩, ⟨[], [], [], false⟩⟩ } }

theorem maskingIds_erases : maskingIds.options.sanitizer.Erases := by
  intro rule member
  rw [List.mem_singleton.mp member]
  nofun

def maskedFrame (rows : Nat) : DataFrame ExtRat where
  height := rows
  columns := [.series "id" ⟨.string, List.replicate rows (some "[REDACTED]")⟩]
  aligned := by simp [Column.len, Series.len]
  distinct := by simp

def maskedEnv : StreamEnv ExtRat :=
  { idEnv with
    toWriter := fun value =>
      match value with
      | .object [("id", .string "[REDACTED]")] =>
        .ok "\x7b\"id\":\"[REDACTED]\"\x7d".toUTF8.toList
      | other => idEnv.toWriter other
    readJsonLines := fun buf => .ok (maskedFrame (buf.count newline)) }

def idLine (digit : String) : String := s!"\x7b\"id\":{digit}\x7d\n"

def oneId (digit : String) : Reader := [.chunk (idLine digit).toUTF8.toList]

theorem idLine_twins (digit digit' : String) (known : digit ∈ ["1", "5"])
    (known' : digit' ∈ ["1", "5"]) :
    Twins maskedEnv maskingIds (8 * 1024 * 1024) (idLine digit).toUTF8.toList
      (idLine digit').toUTF8.toList := by
  have plain : ∀ digit ∈ ["1", "5"], (idLine digit).toUTF8.toList.length ≤ 8 * 1024 * 1024 ∧
      NdjsonSource.isBlank (idLine digit).toUTF8.toList = false ∧
      Text.fromUtf8 (idLine digit).toUTF8.toList = some (idLine digit) ∧
      (idTexts.find? (fun text => text.2 ==
        (Text.trimEndMatches NdjsonSource.isLineEnd (idLine digit)).toUTF8.toList)).map Prod.fst =
          some digit := by
    decide +kernel
  have parsed : ∀ digit ∈ ["1", "5"],
      maskedEnv.fromStr (Text.trimEndMatches NdjsonSource.isLineEnd (idLine digit)) =
        .ok (idValue digit) := by
    intro digit known
    obtain ⟨text, found, rfl⟩ := Option.map_eq_some_iff.mp (plain digit known).2.2.2
    simp only [maskedEnv, idEnv, found]
  obtain ⟨fits, filled, utf8, _⟩ := plain digit known
  obtain ⟨fits', filled', utf8', _⟩ := plain digit' known'
  exact .record fits fits' filled filled' utf8 utf8' (parsed digit known) (parsed digit' known') rfl

theorem redacted_values_hidden_ids :
    StreamReport.observed <$> validateReader maskedEnv maskingIds (oneId "1") =
      StreamReport.observed <$> validateReader maskedEnv maskingIds (oneId "5") := by
  have pieces : ∀ digit ∈ ["1", "5"], (oneId digit).pieces = [(idLine digit).toUTF8.toList] := by
    decide +kernel
  apply redacted_values_hidden (oneId "1") (oneId "5") maskingIds_erases rfl (.inr trivial) (.inr trivial)
  rw [pieces "1" (by simp), pieces "5" (by simp)]
  exact .cons (idLine_twins "1" "5" (by simp) (by simp)) .nil

end MaskedIds

section BlankLines

def shortRecords : StreamValidator ExtRat :=
  { maskingIds with
    options := { maskingIds.options with
      limits := { StreamLimits.default with maxRecordBytes := 4 } } }

def wideBlank : Reader := [.chunk "     \n".toUTF8.toList]

def narrowBlank : Reader := [.chunk "\n".toUTF8.toList]

theorem blank_over_cap_counted :
    shortRecords.options.sanitizer.Erases ∧ shortRecords.options.allowRawDiagnostics = false ∧
    shortRecords.options.limits.maxBytes = none ∧ wideBlank.Sound ∧ narrowBlank.Sound ∧
    List.Forall₂ (fun piece piece' => NdjsonSource.isBlank piece = true ∧
      NdjsonSource.isBlank piece' = true) wideBlank.pieces narrowBlank.pieces ∧
    ∃ report report', validateReader maskedEnv shortRecords wideBlank = .ok report ∧
      validateReader maskedEnv shortRecords narrowBlank = .ok report' ∧
      report.observed ≠ report'.observed := by
  have wide : wideBlank.pieces = ["     \n".toUTF8.toList] := by decide +kernel
  have narrow : narrowBlank.pieces = ["\n".toUTF8.toList] := by decide +kernel
  refine ⟨maskingIds_erases, rfl, rfl, .inr trivial, .inr trivial, ?_, ?_⟩
  · rw [wide, narrow]
    exact .cons ⟨by decide +kernel, by decide +kernel⟩ .nil
  · obtain ⟨report, ran, one⟩ := Results.ok_of_any (validateReader maskedEnv shortRecords wideBlank)
      (fun report => report.recordsRead == 1) (by decide +kernel)
    obtain ⟨report', ran', zero⟩ := Results.ok_of_any
      (validateReader maskedEnv shortRecords narrowBlank)
      (fun report => report.recordsRead == 0) (by decide +kernel)
    refine ⟨report, report', ran, ran', fun same => ?_⟩
    have counts : report.observed.recordsRead = report'.observed.recordsRead := by rw [same]
    change report.recordsRead = report'.recordsRead at counts
    rw [beq_iff_eq] at one zero
    omega

end BlankLines

end StatGuardian.Stream
