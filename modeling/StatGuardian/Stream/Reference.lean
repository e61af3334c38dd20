import Mathlib.Data.List.TakeWhile
import StatGuardian.Stream.Lines

namespace StatGuardian.Stream

/-- The reader delivers the input in chunks that are not empty, with interruptions in between. -/
inductive Reader.Delivers : Reader → List UInt8 → Prop where
  | done : Delivers [] []
  | interrupted {rest : Reader} {input : List UInt8} :
      Delivers rest input → Delivers (.interrupted :: rest) input
  | chunk {rest : Reader} {input : List UInt8} (bytes : List UInt8) :
      bytes ≠ [] → Delivers rest input → Delivers (.chunk bytes :: rest) (bytes ++ input)

theorem Reader.Delivers.content {reader : Reader} {input : List UInt8}
    (delivers : reader.Delivers input) : reader.content = input := by
  induction delivers with
  | done => rfl
  | interrupted _ ih => exact ih
  | chunk bytes some _ ih =>
    have filled : ¬ bytes.isEmpty = true := by simpa using some
    rw [Reader.content, if_neg filled, ih]

theorem Reader.Delivers.sound {reader : Reader} {input : List UInt8}
    (delivers : reader.Delivers input) : reader.Sound := by
  induction delivers with
  | done => trivial
  | interrupted _ ih => exact ih
  | chunk _ _ _ ih => exact .inr ih

namespace NdjsonSource

/-- What a call of `next_line` returns and the counters after it. -/
structure Reading where
  line : Option RawLine
  recordsRead : Nat
  bytesConsumed : Nat
  deriving DecidableEq, Repr

def readings (src : NdjsonSource) : Nat → IoResult (List Reading)
  | 0 => .ok []
  | calls + 1 => do
    let (line, next) ← src.nextLine
    let later ← readings next calls
    return Reading.mk line next.recordsRead next.bytesConsumed :: later

/-- What a piece of the input stands for, given the record number that is due. -/
def specLine (cap : Nat) (piece : List UInt8) : Option (Nat → RawLine) :=
  if cap < piece.length then some (fun record => ⟨record, piece.length, true, false, ""⟩)
  else
    match Text.fromUtf8 piece with
    | none => some (fun record => ⟨record, piece.length, false, false, ""⟩)
    | some s =>
      if s.toList.all Text.isWhitespace then none
      else
        some (fun record =>
          ⟨record, piece.length, false, true, Text.trimEndMatches isLineEnd s⟩)

/-- The lines of the pieces, numbered from `records`, with the counters after each. -/
def specReadings (cap : Nat) : List (List UInt8) → Nat → Nat → List Reading
  | [], _, _ => []
  | piece :: pieces, records, bytes =>
    match specLine cap piece with
    | none => specReadings cap pieces records (bytes + piece.length)
    | some line =>
      ⟨some (line records), records + 1, bytes + piece.length⟩ ::
        specReadings cap pieces (records + 1) (bytes + piece.length)

/-- The specification: the calls return the lines of the input, and nothing from then on. -/
def reference (cap : Nat) (input : List UInt8) (call : Nat) : Reading :=
  let lines := specReadings cap (Pieces.splitAfter (· == newline) input) 0 0
  lines[call]?.getD ⟨none, lines.length, input.length⟩

section Blank

theorem isLineEnd_isWhitespace (c : Char) (lineEnd : isLineEnd c = true) :
    Text.isWhitespace c = true := by
  simp only [isLineEnd, Bool.or_eq_true, beq_iff_eq] at lineEnd
  rcases lineEnd with rfl | rfl <;> decide

theorem dropWhile_eq_nil_iff_of_le {α : Type} (p q : α → Bool) (le : ∀ a, p a = true → q a = true)
    (items : List α) : (∀ a ∈ items.dropWhile p, q a = true) ↔ ∀ a ∈ items, q a = true := by
  constructor
  · intro kept a member
    rw [← List.takeWhile_append_dropWhile (p := p) (l := items)] at member
    rcases List.mem_append.mp member with taken | left
    · exact le a (List.mem_takeWhile_imp taken)
    · exact kept a left
  · intro all a member
    exact all a ((List.dropWhile_sublist p).subset member)

theorem trim_trimEnd_isEmpty (s : String) :
    (Text.trim (Text.trimEndMatches isLineEnd s)).isEmpty = s.toList.all Text.isWhitespace := by
  have blank : ∀ t : String, (Text.trim t).isEmpty = true ↔
      ∀ c ∈ t.toList, Text.isWhitespace c = true := by
    intro t
    rw [Text.trim, String.isEmpty_iff, ← String.toList_eq_nil_iff, String.toList_ofList,
      List.reverse_eq_nil_iff, List.dropWhile_eq_nil_iff]
    simp only [List.mem_reverse]
    exact dropWhile_eq_nil_iff_of_le _ _ (fun _ same => same) _
  rw [Bool.eq_iff_iff, blank, List.all_eq_true, Text.trimEndMatches, String.toList_ofList]
  simp only [List.mem_reverse]
  rw [dropWhile_eq_nil_iff_of_le _ _ isLineEnd_isWhitespace]
  simp only [List.mem_reverse]

end Blank

theorem specLine_eq (cap : Nat) (piece : List UInt8) :
    specLine cap piece =
      if handedOut cap piece then some (fun record => lineOf cap record piece) else none := by
  unfold specLine handedOut lineOf
  by_cases tooLong : cap < piece.length
  · simp [tooLong]
  · simp only [tooLong, if_false, decide_false, Bool.false_or, isBlank]
    cases Text.fromUtf8 piece with
    | none => simp
    | some s =>
      simp only [trim_trimEnd_isEmpty]
      cases s.toList.all Text.isWhitespace <;> simp

theorem specReadings_silent (cap : Nat) (skipped pieces : List (List UInt8)) (records bytes : Nat)
    (silent : ∀ piece ∈ skipped, handedOut cap piece = false) :
    specReadings cap (skipped ++ pieces) records bytes =
      specReadings cap pieces records (bytes + skipped.flatten.length) := by
  induction skipped generalizing bytes with
  | nil => rfl
  | cons piece skipped ih =>
    obtain ⟨here, later⟩ := List.forall_mem_cons.mp silent
    have none : specLine cap piece = none := by rw [specLine_eq, here, if_neg Bool.false_ne_true]
    rw [List.cons_append, specReadings, none]
    simp only
    rw [ih _ later, List.flatten_cons, List.length_append, Nat.add_assoc]

theorem specReadings_line (cap : Nat) (piece : List UInt8) (pieces : List (List UInt8))
    (records bytes : Nat) (out : handedOut cap piece = true) :
    specReadings cap (piece :: pieces) records bytes =
      ⟨some (lineOf cap records piece), records + 1, bytes + piece.length⟩ ::
        specReadings cap pieces (records + 1) (bytes + piece.length) := by
  have some : specLine cap piece = some (fun record => lineOf cap record piece) := by
    rw [specLine_eq, out, if_pos rfl]
  rw [specReadings, some]

def due (src : NdjsonSource) : List Reading :=
  specReadings src.maxRecordBytes src.reader.pieces src.recordIndex src.bytesConsumed

/-- One call returns the first of what is due, or nothing when the input is used up. -/
theorem nextLine_due (src next : NdjsonSource) (line : Option RawLine)
    (reads : src.nextLine = .ok (line, next)) :
    match line with
    | none => src.due = [] ∧ next.due = [] ∧ next.recordIndex = src.recordIndex ∧
        next.bytesConsumed = src.bytesConsumed + src.reader.content.length ∧
        next.reader.content = []
    | some line => src.due = ⟨some line, next.recordsRead, next.bytesConsumed⟩ :: next.due ∧
        next.bytesConsumed + next.reader.content.length =
          src.bytesConsumed + src.reader.content.length ∧
        next.recordIndex = src.recordIndex + 1 := by
  have whole : ∀ src : NdjsonSource, src.reader.content = src.reader.pieces.flatten :=
    fun src => (Pieces.flatten_splitAfter _ _).symm
  obtain ⟨skipped, silent, rest⟩ := nextLine_pieces src next line reads
  cases line with
  | none =>
    obtain ⟨passed, past, number⟩ := rest
    have pieces : src.reader.pieces = skipped := by rw [passed.pieces, past, List.append_nil]
    have nothing : specReadings src.maxRecordBytes skipped src.recordIndex src.bytesConsumed =
        [] := by
      rw [← List.append_nil skipped, specReadings_silent _ _ _ _ _ silent]
      rfl
    refine ⟨by rw [due, pieces, nothing], by rw [due, past]; rfl, number, ?_, ?_⟩
    · rw [passed.bytes, whole src, pieces]
    · rw [whole next, past, List.flatten_nil]
  | some line =>
    obtain ⟨piece, passed, out, rfl, number⟩ := rest
    have bytes : next.bytesConsumed =
        src.bytesConsumed + skipped.flatten.length + piece.length := by
      rw [passed.bytes, List.flatten_append, List.length_append, List.flatten_singleton,
        Nat.add_assoc]
    refine ⟨?_, ?_, number⟩
    · rw [due, passed.pieces, List.append_assoc, specReadings_silent _ _ _ _ _ silent,
        List.singleton_append, specReadings_line _ _ _ _ _ out, due, passed.cap, recordsRead,
        number, bytes]
    · rw [whole src, whole next, passed.pieces, passed.bytes]
      simp only [List.flatten_append, List.length_append, Nat.add_assoc]

theorem readings_eq (src : NdjsonSource) (sound : src.reader.Sound) (calls : Nat) :
    src.readings calls = .ok ((List.range calls).map (fun call => src.due[call]?.getD
      ⟨none, src.recordIndex + src.due.length,
        src.bytesConsumed + src.reader.content.length⟩)) := by
  induction calls generalizing src with
  | zero => rfl
  | succ calls ih =>
    obtain ⟨line, next, reads, later⟩ := nextLine_returns src sound
    have step := nextLine_due src next line reads
    rw [readings, reads, List.range_succ_eq_map, List.map_cons, List.map_map]
    simp only [bind, Except.bind, pure, Except.pure, ih next later, Except.ok.injEq,
      List.cons.injEq]
    cases line with
    | none =>
      obtain ⟨nothing, still, number, bytes, past⟩ := step
      refine ⟨by simp [nothing, number, bytes, recordsRead], List.map_congr_left (fun call _ => ?_)⟩
      simp [nothing, still, number, bytes, past]
    | some line =>
      obtain ⟨here, bytes, number⟩ := step
      refine ⟨by simp [here], List.map_congr_left (fun call _ => ?_)⟩
      rw [Function.comp_apply, here, List.getElem?_cons_succ, bytes, number, List.length_cons,
        Nat.add_assoc, Nat.add_comm 1]

theorem specReadings_record (cap : Nat) (pieces : List (List UInt8)) (records bytes call : Nat)
    (reading : Reading) (line : RawLine)
    (found : (specReadings cap pieces records bytes)[call]? = some reading)
    (some : reading.line = some line) : line.record = records + call := by
  induction pieces generalizing records bytes call with
  | nil => simp [specReadings] at found
  | cons piece pieces ih =>
    cases out : handedOut cap piece with
    | false =>
      rw [← List.singleton_append, specReadings_silent _ _ _ _ _ (by simpa using out)] at found
      exact ih records _ call found
    | true =>
      rw [specReadings_line _ _ _ _ _ out] at found
      cases call with
      | zero =>
        rw [List.getElem?_cons_zero, Option.some.injEq] at found
        subst found
        obtain rfl := Option.some.inj some
        unfold lineOf
        split
        · rfl
        · split <;> rfl
      | succ call =>
        rw [ih (records + 1) _ call found, Nat.add_assoc, Nat.add_comm 1]

/-- Whatever the chunks are, the calls return what the specification says of the input, whose
    lines are numbered without gaps. -/
theorem readings_eq_reference (input : List UInt8) (reader : Reader)
    (delivers : reader.Delivers input) (maxRecordBytes calls : Nat) :
    (new reader maxRecordBytes).readings calls =
        .ok ((List.range calls).map (reference (max maxRecordBytes 1) input)) ∧
      ∀ call line, (reference (max maxRecordBytes 1) input call).line = some line →
        line.record = call := by
  have lines : (new reader maxRecordBytes).due = specReadings (max maxRecordBytes 1)
      (Pieces.splitAfter (· == newline) input) 0 0 := by
    rw [← delivers.content]
    rfl
  have content : (new reader maxRecordBytes).reader.content = input := delivers.content
  constructor
  · rw [readings_eq (new reader maxRecordBytes) delivers.sound, lines, content]
    simp only [new, Nat.zero_add]
    rfl
  · intro call line some
    simp only [reference] at some
    cases found : (specReadings (max maxRecordBytes 1)
        (Pieces.splitAfter (· == newline) input) 0 0)[call]? with
    | none => simp [found] at some
    | some reading =>
      rw [found, Option.getD_some] at some
      rw [specReadings_record _ _ _ _ _ _ _ found some, Nat.zero_add]

/-- The two lines `ab` and `c`, the first cut within, and a blank line between them. -/
theorem readings_eq_reference_two_lines :
    (new [.chunk [97], .interrupted, .chunk [98, 10, 32, 10], .chunk [99]] 2).readings 3 =
        .ok ((List.range 3).map (reference 2 [97, 98, 10, 32, 10, 99])) ∧
      ∀ call line, (reference 2 [97, 98, 10, 32, 10, 99] call).line = some line →
        line.record = call :=
  readings_eq_reference _ _ (.chunk [97] (by decide) (.interrupted
    (.chunk [98, 10, 32, 10] (by decide) (.chunk [99] (by decide) .done)))) 2 3

end NdjsonSource

end StatGuardian.Stream
