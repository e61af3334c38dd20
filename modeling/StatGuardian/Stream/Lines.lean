import StatGuardian.Library.Pieces
import StatGuardian.Stream.Ndjson

namespace StatGuardian.Stream

/-- The bytes that a reader delivers before the end of the input or a failure. -/
def Reader.content : Reader → List UInt8
  | [] => []
  | .interrupted :: rest => content rest
  | .failed _ :: _ => []
  | .chunk available :: rest => if available.isEmpty then [] else available ++ content rest

def Reader.pieces (reader : Reader) : List (List UInt8) :=
  Pieces.splitAfter (· == newline) reader.content

/-- No read fails before the end of the input. -/
def Reader.Sound : Reader → Prop
  | [] => True
  | .interrupted :: rest => Sound rest
  | .failed _ :: _ => False
  | .chunk available :: rest => available = [] ∨ Sound rest

section Capped

theorem Reader.content_consume (used : Nat) (available : List UInt8) (rest : Reader) :
    (Reader.consume used available rest).content = available.drop used ++ rest.content := by
  unfold consume
  split
  · rename_i more
    have some : ¬ (available.drop used).isEmpty = true := by simpa using more
    rw [content, if_neg some]
  · rename_i all
    rw [List.drop_eq_nil_of_le (Nat.le_of_not_lt all), List.nil_append]

section Buffer

variable {cap used : Nat} {out : List UInt8} {exceeded : Bool}

theorem exceeded_iff (room : exceeded = false → out.length ≤ cap) :
    (exceeded || decide (min used (cap - out.length) < used)) =
      (exceeded || decide (cap < out.length + used)) := by
  cases exceeded with
  | true => rfl
  | false =>
    have bound := room rfl
    simp only [Bool.false_or, decide_eq_decide]
    omega

theorem buffer_eq (available : List UInt8) (room : exceeded = false → out.length ≤ cap)
    (open_ : exceeded = false) (fits : out.length + used ≤ cap) :
    (if exceeded then out else out ++ available.take (min used (cap - out.length))) =
      out ++ available.take used := by
  have bound := room open_
  rw [open_, if_neg Bool.false_ne_true, Nat.min_eq_left (by omega)]

theorem buffer_whole (available : List UInt8) (room : exceeded = false → out.length ≤ cap)
    (within : (exceeded || decide (cap < out.length + available.length)) = false) :
    (if exceeded then out else out ++ available.take (min available.length (cap - out.length))) =
        out ++ available ∧ (out ++ available).length ≤ cap := by
  rw [Bool.or_eq_false_iff, decide_eq_false_iff_not, Nat.not_lt] at within
  rw [buffer_eq available room within.1 within.2, List.take_length, List.length_append]
  exact ⟨rfl, within.2⟩

theorem exceeded_append (available : List UInt8) (room : exceeded = false → out.length ≤ cap)
    (more : Nat) :
    (exceeded || decide (cap < out.length + available.length) || decide (cap <
        (if exceeded then out
          else out ++ available.take (min available.length (cap - out.length))).length + more)) =
      (exceeded || decide (cap < out.length + available.length + more)) := by
  cases past : exceeded || decide (cap < out.length + available.length) with
  | true =>
    rw [Bool.or_eq_true, decide_eq_true_iff] at past
    rw [Bool.true_or, eq_comm, Bool.or_eq_true, decide_eq_true_iff]
    rcases past with before | past
    · exact .inl before
    · exact .inr (Nat.lt_of_lt_of_le past (Nat.le_add_right _ more))
  | false =>
    rw [(buffer_whole available room past).1, (Bool.or_eq_false_iff.mp past).1, List.length_append]

end Buffer

/-- Whatever the chunks are, a call takes the next piece of the input. It is kept whole when it
    fits. -/
theorem readLineCapped_pieces (cap : Nat) (out : List UInt8) (total : Nat) (exceeded : Bool)
    (reader : Reader) (line : LineRead) (room : exceeded = false → out.length ≤ cap)
    (reads : readLineCapped cap out total exceeded reader = .ok line) :
    (reader.pieces = [] ∧ line.read = (if total = 0 then none else some (total, exceeded)) ∧
        line.buf = out ∧ line.reader.pieces = []) ∨
      ∃ piece, reader.pieces = piece :: line.reader.pieces ∧
        line.read = some (total + piece.length, exceeded || decide (cap < out.length + piece.length)) ∧
        (exceeded = false → out.length + piece.length ≤ cap → line.buf = out ++ piece) := by
  induction reader generalizing out total exceeded with
  | nil =>
    obtain rfl := Except.ok.inj reads
    exact .inl ⟨rfl, rfl, rfl, rfl⟩
  | cons fill rest ih =>
    cases fill with
    | interrupted => exact ih out total exceeded room reads
    | failed reason => cases reads
    | chunk available =>
      simp only [readLineCapped] at reads
      split at reads
      · rename_i empty
        obtain rfl := Except.ok.inj reads
        have pieces : Reader.pieces (.chunk available :: rest) = [] := by
          simp [Reader.pieces, Reader.content, empty, Pieces.splitAfter]
        exact .inl ⟨pieces, rfl, rfl, pieces⟩
      · rename_i filled
        have some : available ≠ [] := by simpa using filled
        have positive : 0 < available.length := List.length_pos_iff.mpr some
        have pieces : Reader.pieces (.chunk available :: rest) =
            Pieces.splitAfter (· == newline) (available ++ Reader.content rest) := by
          rw [Reader.pieces, Reader.content, if_neg filled]
        split at reads
        case h_1 _ i found =>
          obtain rfl := Except.ok.inj reads
          have inside : i < available.length := (List.findIdx?_eq_some_iff_getElem.mp found).1
          have length : (available.take (i + 1)).length = i + 1 := by
            rw [List.length_take]
            omega
          right
          refine ⟨available.take (i + 1), ?_, ?_, ?_⟩
          · rw [pieces, Pieces.splitAfter_append_of_some _ found, Reader.pieces,
              Reader.content_consume]
          · rw [length, exceeded_iff room]
          · intro open_ fits
            rw [length] at fits
            exact buffer_eq available room open_ fits
        case h_2 _ found =>
          rw [Pieces.splitAfter_append_of_none _ found some] at pieces
          rw [exceeded_iff room] at reads
          have room' : (exceeded || decide (cap < out.length + available.length)) = false →
              (if exceeded then out
                else out ++ available.take (min available.length (cap - out.length))).length ≤
                cap := by
            intro within
            obtain ⟨whole, short⟩ := buffer_whole available room within
            rwa [whole]
          rcases ih _ _ _ room' reads with ⟨none, read, held, past⟩ | ⟨piece, more, read, held⟩
          · rw [Reader.pieces] at none
            rw [none, List.headD_nil, List.append_nil, List.tail_nil] at pieces
            have positive : total + available.length ≠ 0 := by
              have := List.length_pos_iff.mpr some
              omega
            right
            refine ⟨available, by rw [pieces, past], by rw [read, if_neg positive], ?_⟩
            intro open_ fits
            rw [held, buffer_eq available room open_ fits, List.take_length]
          · rw [Reader.pieces] at more
            rw [more, List.headD_cons, List.tail_cons] at pieces
            right
            refine ⟨available ++ piece, pieces, ?_, ?_⟩
            · rw [read, List.length_append, ← Nat.add_assoc, ← Nat.add_assoc,
                exceeded_append available room]
            · intro open_ fits
              rw [List.length_append, ← Nat.add_assoc] at fits
              have within : (exceeded || decide (cap < out.length + available.length)) = false := by
                simp only [open_, Bool.false_or, decide_eq_false_iff_not]
                omega
              have whole := (buffer_whole available room within).1
              rw [held within (by rw [whole, List.length_append]; exact fits), whole,
                List.append_assoc]

theorem readLineCapped_returns (cap : Nat) (out : List UInt8) (total : Nat) (exceeded : Bool)
    (reader : Reader) (sound : reader.Sound) :
    ∃ line, readLineCapped cap out total exceeded reader = .ok line ∧ line.reader.Sound := by
  induction reader generalizing out total exceeded with
  | nil => exact ⟨_, rfl, trivial⟩
  | cons fill rest ih =>
    cases fill with
    | interrupted => exact ih out total exceeded sound
    | failed reason => exact sound.elim
    | chunk available =>
      simp only [readLineCapped]
      split
      · exact ⟨_, rfl, sound⟩
      · rename_i filled
        have later : Reader.Sound rest := by
          rcases sound with empty | later
          · simp [empty] at filled
          · exact later
        cases available.findIdx? (· == newline) with
        | none => exact ih _ _ _ later
        | some i =>
          refine ⟨_, rfl, ?_⟩
          show (Reader.consume (i + 1) available rest).Sound
          unfold Reader.consume
          split
          · exact Or.inr later
          · exact later

theorem readLineCapped_sound {cap total : Nat} {out : List UInt8} {exceeded : Bool}
    {reader : Reader} {line : LineRead} (sound : reader.Sound)
    (reads : readLineCapped cap out total exceeded reader = .ok line) : line.reader.Sound := by
  obtain ⟨line', reads', later⟩ := readLineCapped_returns cap out total exceeded reader sound
  obtain rfl := Except.ok.inj (reads.symm.trans reads')
  exact later

end Capped

namespace NdjsonSource

/-- Nothing but whitespace, so far as that can be read. -/
def isBlank (piece : List UInt8) : Bool :=
  match Text.fromUtf8 piece with
  | none => false
  | some s => (Text.trim (Text.trimEndMatches isLineEnd s)).isEmpty

def handedOut (cap : Nat) (piece : List UInt8) : Bool :=
  decide (cap < piece.length) || ! isBlank piece

def lineOf (cap record : Nat) (piece : List UInt8) : RawLine :=
  if cap < piece.length then ⟨record, piece.length, true, false, ""⟩
  else
    match Text.fromUtf8 piece with
    | none => ⟨record, piece.length, false, false, ""⟩
    | some s => ⟨record, piece.length, false, true, Text.trimEndMatches isLineEnd s⟩

/-- The source has gone on over the pieces. -/
structure Passed (src next : NdjsonSource) (passed : List (List UInt8)) : Prop where
  cap : next.maxRecordBytes = src.maxRecordBytes
  pieces : src.reader.pieces = passed ++ next.reader.pieces
  bytes : next.bytesConsumed = src.bytesConsumed + passed.flatten.length

theorem Passed.refl (src : NdjsonSource) : Passed src src [] := ⟨rfl, rfl, rfl⟩

theorem Passed.trans {src mid next : NdjsonSource} {first second : List (List UInt8)}
    (here : Passed src mid first) (there : Passed mid next second) :
    Passed src next (first ++ second) where
  cap := there.cap.trans here.cap
  pieces := by rw [here.pieces, there.pieces, List.append_assoc]
  bytes := by
    rw [there.bytes, here.bytes, List.flatten_append, List.length_append, Nat.add_assoc]

theorem took_passed (src : NdjsonSource) (bytes : Nat) (exceeded : Bool) (buf : List UInt8)
    (reader : Reader)
    (taken : readLineCapped src.maxRecordBytes [] 0 false src.reader =
      .ok ⟨some (bytes, exceeded), buf, reader⟩) :
    ∃ piece, Passed src (src.took reader bytes) [piece] ∧ bytes = piece.length ∧
      exceeded = decide (src.maxRecordBytes < piece.length) ∧ (exceeded = false → buf = piece) := by
  rcases readLineCapped_pieces _ [] 0 false _ _ (fun _ => Nat.zero_le _) taken with
    ⟨_, none, _⟩ | ⟨piece, pieces, read, held⟩
  · cases none
  · rw [Option.some.injEq, Prod.mk.injEq, Bool.false_or, Nat.zero_add, List.length_nil,
      Nat.zero_add] at read
    obtain ⟨rfl, rfl⟩ := read
    refine ⟨piece, ⟨rfl, pieces, by simp [took]⟩, rfl, rfl, fun open_ => ?_⟩
    rw [decide_eq_false_iff_not, Nat.not_lt] at open_
    exact held rfl (by simpa using open_)

/-- One call goes over the blank pieces to the next one that comes out as a line, or to the
    end. -/
theorem nextLine_pieces (src next : NdjsonSource) (line : Option RawLine)
    (reads : src.nextLine = .ok (line, next)) :
    ∃ skipped, (∀ piece ∈ skipped, handedOut src.maxRecordBytes piece = false) ∧
      match line with
      | none => Passed src next skipped ∧ next.reader.pieces = [] ∧
          next.recordIndex = src.recordIndex
      | some line => ∃ piece, Passed src next (skipped ++ [piece]) ∧
          handedOut src.maxRecordBytes piece = true ∧
          line = lineOf src.maxRecordBytes src.recordIndex piece ∧
          next.recordIndex = src.recordIndex + 1 := by
  fun_induction nextLine src with
  | case1 src reason taken => cases reads
  | case2 src buf reader taken =>
    obtain ⟨rfl, rfl⟩ := Prod.mk.inj (Except.ok.inj reads)
    rcases readLineCapped_pieces _ [] 0 false _ _ (fun _ => Nat.zero_le _) taken with
      ⟨before, _, _, after⟩ | ⟨_, _, read, _⟩
    · exact ⟨[], by simp, ⟨rfl, by rw [before]; exact after.symm, rfl⟩, after, rfl⟩
    · cases read
  | case3 src bytes buf reader taken =>
    obtain ⟨rfl, rfl⟩ := Prod.mk.inj (Except.ok.inj reads)
    obtain ⟨piece, passed, rfl, past, -⟩ := took_passed src bytes true buf reader taken
    refine ⟨[], by simp, piece, ⟨passed.cap, passed.pieces, passed.bytes⟩, ?_, ?_, rfl⟩
    · rw [handedOut, ← past, Bool.true_or]
    · rw [lineOf, if_pos (of_decide_eq_true past.symm)]
  | case4 src bytes buf reader taken invalid =>
    obtain ⟨rfl, rfl⟩ := Prod.mk.inj (Except.ok.inj reads)
    obtain ⟨piece, passed, rfl, past, held⟩ := took_passed src bytes false buf reader taken
    obtain rfl := held rfl
    refine ⟨[], by simp, buf, ⟨passed.cap, passed.pieces, passed.bytes⟩, ?_, ?_, rfl⟩
    · simp only [handedOut, isBlank, invalid, Bool.not_false, Bool.or_true]
    · rw [lineOf, if_neg (of_decide_eq_false past.symm), invalid]
  | case5 src bytes buf reader taken s valid trimmed blank ih =>
    obtain ⟨piece, passed, rfl, past, held⟩ := took_passed src bytes false buf reader taken
    obtain rfl := held rfl
    have silent : handedOut src.maxRecordBytes buf = false := by
      rw [handedOut, ← past, Bool.false_or, isBlank, valid]
      exact (Bool.not_eq_false' ..).mpr blank
    obtain ⟨skipped, silentAll, rest⟩ := ih reads
    refine ⟨buf :: skipped, List.forall_mem_cons.mpr ⟨silent, silentAll⟩, ?_⟩
    cases line with
    | none => exact ⟨passed.trans rest.1, rest.2⟩
    | some line =>
      obtain ⟨piece, further, rest⟩ := rest
      exact ⟨piece, passed.trans further, rest⟩
  | case6 src bytes buf reader taken s valid trimmed filled =>
    obtain ⟨rfl, rfl⟩ := Prod.mk.inj (Except.ok.inj reads)
    obtain ⟨piece, passed, rfl, past, held⟩ := took_passed src bytes false buf reader taken
    obtain rfl := held rfl
    refine ⟨[], by simp, buf, ⟨passed.cap, passed.pieces, passed.bytes⟩, ?_, ?_, rfl⟩
    · rw [handedOut, ← past, Bool.false_or, isBlank, valid]
      exact (Bool.not_eq_true' ..).mpr (Bool.eq_false_iff.mpr filled)
    · rw [lineOf, if_neg (of_decide_eq_false past.symm), valid]

def ahead (src : NdjsonSource) : List (List UInt8) :=
  src.reader.pieces.dropWhile (fun piece => ! handedOut src.maxRecordBytes piece)

theorem nextLine_ahead (src next : NdjsonSource) (line : Option RawLine)
    (reads : src.nextLine = .ok (line, next)) :
    next.maxRecordBytes = src.maxRecordBytes ∧
      match line with
      | none => src.ahead = [] ∧ next.reader.pieces = [] ∧ next.recordIndex = src.recordIndex
      | some line => ∃ piece, src.ahead = piece :: next.reader.pieces ∧
          handedOut src.maxRecordBytes piece = true ∧
          line = lineOf src.maxRecordBytes src.recordIndex piece ∧
          next.recordIndex = src.recordIndex + 1 := by
  obtain ⟨skipped, silent, rest⟩ := nextLine_pieces src next line reads
  have quiet : ∀ piece ∈ skipped, (! handedOut src.maxRecordBytes piece) = true := by
    intro piece member
    rw [silent piece member, Bool.not_false]
  cases line with
  | none =>
    obtain ⟨passed, past, number⟩ := rest
    refine ⟨passed.cap, ?_, past, number⟩
    rw [ahead, passed.pieces, past, List.dropWhile_append_of_pos quiet, List.dropWhile_nil]
  | some line =>
    obtain ⟨piece, passed, out, rfl, number⟩ := rest
    refine ⟨passed.cap, piece, ?_, out, rfl, number⟩
    rw [ahead, passed.pieces, List.append_assoc, List.dropWhile_append_of_pos quiet,
      List.singleton_append, List.dropWhile_cons_of_neg (by simp [out])]

theorem nextLine_returns (src : NdjsonSource) (sound : src.reader.Sound) :
    ∃ line next, src.nextLine = .ok (line, next) ∧ next.reader.Sound := by
  fun_induction nextLine src with
  | case1 src reason taken =>
    obtain ⟨line, reads, _⟩ := readLineCapped_returns src.maxRecordBytes [] 0 false _ sound
    rw [taken] at reads
    cases reads
  | case5 src bytes buf reader taken s valid trimmed blank ih =>
    exact ih (readLineCapped_sound sound taken)
  | case2 src buf reader taken => exact ⟨_, _, rfl, readLineCapped_sound sound taken⟩
  | case3 src bytes buf reader taken => exact ⟨_, _, rfl, readLineCapped_sound sound taken⟩
  | case4 src bytes buf reader taken invalid => exact ⟨_, _, rfl, readLineCapped_sound sound taken⟩
  | case6 src bytes buf reader taken s valid trimmed filled =>
    exact ⟨_, _, rfl, readLineCapped_sound sound taken⟩

end NdjsonSource

end StatGuardian.Stream
