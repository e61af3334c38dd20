import Mathlib.Data.List.DropRight

/-! Functions of `str`. -/

namespace StatGuardian.Text

/-- `char::is_whitespace`: the code points with the Unicode property `White_Space`. -/
def isWhitespace (c : Char) : Bool :=
  let n := c.toNat
  (9 ≤ n && n ≤ 13) || n == 0x20 || n == 0x85 || n == 0xA0 || n == 0x1680 ||
    (0x2000 ≤ n && n ≤ 0x200A) || n == 0x2028 || n == 0x2029 || n == 0x202F || n == 0x205F ||
    n == 0x3000

/-- `str::contains`, and `in` on a Python string. -/
def contains (s pattern : String) : Bool := s.toList.tails.any pattern.toList.isPrefixOf

def trimEndMatches (p : Char → Bool) (s : String) : String :=
  String.ofList (s.toList.reverse.dropWhile p).reverse

def trim (s : String) : String :=
  String.ofList ((s.toList.dropWhile isWhitespace).reverse.dropWhile isWhitespace).reverse

theorem trim_trim (s : String) : trim (trim s) = trim s := by
  have kept : ∀ chars : List Char,
      ((chars.dropWhile isWhitespace).rdropWhile isWhitespace).dropWhile isWhitespace =
        (chars.dropWhile isWhitespace).rdropWhile isWhitespace := by
    intro chars
    obtain ⟨after, split⟩ := List.rdropWhile_prefix isWhitespace (chars.dropWhile isWhitespace)
    cases front : (chars.dropWhile isWhitespace).rdropWhile isWhitespace with
    | nil => rfl
    | cons c rest =>
      rw [front] at split
      have solid := List.head_dropWhile_not isWhitespace (l := chars) (by rw [← split]; simp)
      simp only [← split, List.cons_append, List.head_cons] at solid
      rw [List.dropWhile_cons, solid, if_neg Bool.false_ne_true]
  have trimmed : ∀ s : String,
      (trim s).toList = (s.toList.dropWhile isWhitespace).rdropWhile isWhitespace := by
    intro s
    rw [trim, String.toList_ofList, List.rdropWhile]
  apply String.toList_injective
  rw [trimmed, trimmed, kept, List.rdropWhile_idempotent]

def fromUtf8 (bytes : List UInt8) : Option String := String.fromUTF8? ⟨bytes.toArray⟩

theorem isValidUTF8_append_newline (bytes : ByteArray) :
    ByteArray.IsValidUTF8 (bytes ++ [10].toByteArray) ↔ ByteArray.IsValidUTF8 bytes := by
  constructor
  · intro valid
    let whole : String := ⟨_, valid⟩
    have inside : bytes.size < whole.toByteArray.size := by
      show bytes.size < (bytes ++ [10].toByteArray).size
      rw [ByteArray.size_append]
      exact Nat.lt_succ_self _
    -- the newline starts a character, so what is before it ends one
    have start : String.Pos.Raw.IsValid whole ⟨bytes.size⟩ := by
      have byte : whole.getUTF8Byte ⟨bytes.size⟩ inside = 10 := by
        show (bytes ++ [10].toByteArray)[bytes.size] = 10
        rw [ByteArray.getElem_append_right (Nat.le_refl _)]
        simp
      refine String.Pos.Raw.isValid_iff_isUTF8FirstByte.mpr (.inr ⟨inside, ?_⟩)
      rw [byte]
      decide
    have cut := (String.Pos.Raw.isValid_iff_isValidUTF8_extract_zero.mp start).2
    have front : whole.toByteArray.extract 0 bytes.size = bytes :=
      ByteArray.extract_append_eq_left rfl
    rwa [front] at cut
  · intro valid
    have line : ByteArray.IsValidUTF8 [10].toByteArray := .intro ['\n'] rfl
    exact valid.append line

theorem fromUtf8_append_newline (bytes : List UInt8) :
    fromUtf8 (bytes ++ [10]) = (fromUtf8 bytes).map (· ++ "\n") := by
  have joined : (⟨(bytes ++ [10]).toArray⟩ : ByteArray) = ⟨bytes.toArray⟩ ++ [10].toByteArray := by
    apply ByteArray.ext
    simp
  unfold fromUtf8 String.fromUTF8?
  rw [joined]
  by_cases valid : ByteArray.IsValidUTF8 ⟨bytes.toArray⟩
  · rw [dif_pos valid, dif_pos ((isValidUTF8_append_newline _).mpr valid), Option.map_some]
    apply congrArg some
    rw [← String.toByteArray_inj, String.toByteArray_append]
    rfl
  · have longer : ¬ ByteArray.IsValidUTF8 (⟨bytes.toArray⟩ ++ [10].toByteArray) :=
      mt (isValidUTF8_append_newline _).mp valid
    rw [dif_neg valid, dif_neg longer, Option.map_none]

theorem toUTF8_bytes (s : String) :
    s.toUTF8.data.toList = s.toList.flatMap String.utf8EncodeChar := by
  have bytes : (String.ofList s.toList).toByteArray =
      (s.toList.flatMap String.utf8EncodeChar).toByteArray := String.toByteArray_ofList
  rw [String.ofList_toList] at bytes
  rw [String.toUTF8, bytes, List.data_toByteArray]

theorem length_le_utf8ByteSize (s : String) : s.length ≤ s.utf8ByteSize := by
  have size : s.utf8ByteSize = s.toUTF8.data.toList.length := rfl
  rw [size, toUTF8_bytes, ← String.length_toList]
  induction s.toList with
  | nil => exact Nat.le_refl 0
  | cons c rest ih =>
    have filled := List.length_pos_of_ne_nil (String.utf8EncodeChar_ne_nil (c := c))
    rw [List.flatMap_cons, List.length_append, List.length_cons]
    omega

end StatGuardian.Text
