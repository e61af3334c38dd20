import StatGuardian.Runtime.Text

namespace StatGuardian.Stream

/-- What a call of `fill_buf` comes upon: bytes, an interruption or another error. -/
inductive Fill where
  | chunk (bytes : List UInt8)
  | interrupted
  | failed (reason : String)
  deriving DecidableEq, Repr

/-- A `BufRead`, as the sequence of what `fill_buf` comes upon. An empty chunk and the end of the
    list are the end of the input. -/
abbrev Reader := List Fill

/-- The reader after `consume(used)` on its first chunk. -/
def Reader.consume (used : Nat) (available : List UInt8) (rest : Reader) : Reader :=
  if used < available.length then .chunk (available.drop used) :: rest else rest

abbrev IoResult := Except String

structure RawLine where
  record : Nat
  bytes : Nat
  exceeded : Bool
  utf8 : Bool
  content : String
  deriving DecidableEq, Repr

/-- What `read_line_capped` leaves behind: its result, the buffer and the reader. -/
structure LineRead where
  read : Option (Nat × Bool)
  buf : List UInt8
  reader : Reader
  deriving DecidableEq, Repr

def newline : UInt8 := 10

def readLineCapped (cap : Nat) (out : List UInt8) (total : Nat) (exceeded : Bool) :
    Reader → IoResult LineRead
  | [] => .ok ⟨if total = 0 then none else some (total, exceeded), out, []⟩
  | .interrupted :: rest => readLineCapped cap out total exceeded rest
  | .failed reason :: _ => .error reason
  | .chunk available :: rest =>
    if available.isEmpty then
      .ok ⟨if total = 0 then none else some (total, exceeded), out, .chunk available :: rest⟩
    else
      let position := available.findIdx? (· == newline)
      let used := match position with
        | some i => i + 1
        | none => available.length
      let copy := min used (cap - out.length)
      let out := if exceeded then out else out ++ available.take copy
      let exceeded := exceeded || copy < used
      match position with
      | some _ => .ok ⟨some (total + used, exceeded), out, Reader.consume used available rest⟩
      | none => readLineCapped cap out (total + used) exceeded rest

section Size

def Fill.size : Fill → Nat
  | .chunk bytes => bytes.length + 1
  | _ => 1

def Reader.size : Reader → Nat
  | [] => 0
  | fill :: rest => fill.size + Reader.size rest

@[simp] theorem Reader.size_cons (fill : Fill) (rest : Reader) :
    Reader.size (fill :: rest) = fill.size + Reader.size rest := rfl

theorem Reader.consume_size (used : Nat) (available : List UInt8) (rest : Reader)
    (positive : 0 < used) :
    (Reader.consume used available rest).size < Reader.size (.chunk available :: rest) := by
  unfold Reader.consume
  split
  · simp only [size_cons, Fill.size, List.length_drop]
    omega
  · simp only [size_cons, Fill.size]
    omega

/-- Reading never gives back what it took, and a line takes something. -/
theorem readLineCapped_size (cap : Nat) (out : List UInt8) (total : Nat) (exceeded : Bool)
    (reader : Reader) (line : LineRead)
    (reads : readLineCapped cap out total exceeded reader = .ok line) :
    line.reader.size ≤ Reader.size reader ∧
      (total = 0 → line.read.isSome = true → line.reader.size < Reader.size reader) := by
  induction reader generalizing out total exceeded with
  | nil =>
    simp only [readLineCapped, Except.ok.injEq] at reads
    subst reads
    refine ⟨Nat.le_refl _, fun none some => ?_⟩
    simp [none] at some
  | cons fill rest ih =>
    cases fill with
    | interrupted =>
      have inner := (ih out total exceeded reads).1
      simp only [Reader.size_cons, Fill.size]
      exact ⟨by omega, fun _ _ => by omega⟩
    | failed reason => cases reads
    | chunk available =>
      simp only [readLineCapped] at reads
      split at reads
      · rw [Except.ok.injEq] at reads
        subst reads
        refine ⟨Nat.le_refl _, fun none some => ?_⟩
        simp [none] at some
      · split at reads
        case h_1 _ i _ =>
          rw [Except.ok.injEq] at reads
          subst reads
          have smaller := Reader.consume_size (i + 1) available rest (Nat.succ_pos i)
          exact ⟨Nat.le_of_lt smaller, fun _ _ => smaller⟩
        case h_2 =>
          have inner := (ih _ _ _ reads).1
          simp only [Reader.size_cons, Fill.size]
          exact ⟨by omega, fun _ _ => by omega⟩

end Size

structure NdjsonSource where
  reader : Reader
  maxRecordBytes : Nat
  recordIndex : Nat
  bytesConsumed : Nat
  deriving DecidableEq, Repr

namespace NdjsonSource

def new (reader : Reader) (maxRecordBytes : Nat) : NdjsonSource where
  reader := reader
  maxRecordBytes := max maxRecordBytes 1
  recordIndex := 0
  bytesConsumed := 0

def recordsRead (src : NdjsonSource) : Nat := src.recordIndex

/-- The source after a line of `bytes` bytes. -/
def took (src : NdjsonSource) (reader : Reader) (bytes : Nat) : NdjsonSource :=
  { src with reader := reader, bytesConsumed := src.bytesConsumed + bytes }

def numbered (src : NdjsonSource) : NdjsonSource :=
  { src with recordIndex := src.recordIndex + 1 }

def isLineEnd (c : Char) : Bool := c == '\n' || c == '\r'

/-- The next line that is not blank, or nothing at the end of the input. -/
def nextLine (src : NdjsonSource) : IoResult (Option RawLine × NdjsonSource) :=
  match _taken : readLineCapped src.maxRecordBytes [] 0 false src.reader with
  | .error reason => .error reason
  | .ok ⟨none, _, reader⟩ => .ok (none, { src with reader := reader })
  | .ok ⟨some (bytes, true), _, reader⟩ =>
    .ok (some ⟨src.recordIndex, bytes, true, false, ""⟩, (src.took reader bytes).numbered)
  | .ok ⟨some (bytes, false), buf, reader⟩ =>
    match Text.fromUtf8 buf with
    | none =>
      .ok (some ⟨src.recordIndex, bytes, false, false, ""⟩, (src.took reader bytes).numbered)
    | some s =>
      let trimmed := Text.trimEndMatches isLineEnd s
      if (Text.trim trimmed).isEmpty then nextLine (src.took reader bytes)
      else
        .ok (some ⟨src.recordIndex, bytes, false, true, trimmed⟩, (src.took reader bytes).numbered)
termination_by src.reader.size
decreasing_by exact (readLineCapped_size _ _ _ _ _ _ _taken).2 rfl rfl

theorem nextLine_some (src next : NdjsonSource) (line : RawLine)
    (reads : src.nextLine = .ok (some line, next)) :
    line.record = src.recordIndex ∧ next.recordIndex = src.recordIndex + 1 ∧
      next.reader.size < src.reader.size := by
  fun_induction nextLine src with
  | case1 src reason taken => cases reads
  | case2 src buf reader taken => simp at reads
  | case3 src bytes buf reader taken =>
    simp only [Except.ok.injEq, Prod.mk.injEq, Option.some.injEq] at reads
    obtain ⟨rfl, rfl⟩ := reads
    exact ⟨rfl, rfl, (readLineCapped_size _ _ _ _ _ _ taken).2 rfl rfl⟩
  | case4 src bytes buf reader taken invalid =>
    simp only [Except.ok.injEq, Prod.mk.injEq, Option.some.injEq] at reads
    obtain ⟨rfl, rfl⟩ := reads
    exact ⟨rfl, rfl, (readLineCapped_size _ _ _ _ _ _ taken).2 rfl rfl⟩
  | case5 src bytes buf reader taken s valid trimmed blank ih =>
    obtain ⟨number, due, smaller⟩ := ih reads
    exact ⟨number, due, Nat.lt_trans smaller ((readLineCapped_size _ _ _ _ _ _ taken).2 rfl rfl)⟩
  | case6 src bytes buf reader taken s valid trimmed filled =>
    simp only [Except.ok.injEq, Prod.mk.injEq, Option.some.injEq] at reads
    obtain ⟨rfl, rfl⟩ := reads
    exact ⟨rfl, rfl, (readLineCapped_size _ _ _ _ _ _ taken).2 rfl rfl⟩

end NdjsonSource

end StatGuardian.Stream
