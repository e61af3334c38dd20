import Mathlib.Data.List.Basic
import StatGuardian.Library.TextCodes

/-! The `Debug` texts of `str`, `Option` and `Vec`, as lists of characters. -/

namespace StatGuardian.DebugText

open TextCodes

/-- `escape_debug` inside of the text of a string; `printable` stands for the Unicode tables of the
    standard library. -/
def escapeChar (printable : Char → Bool) (c : Char) : List Char :=
  if c = '\x00' then ['\x5c', '0']
  else if c = '\t' then ['\x5c', 't']
  else if c = '\r' then ['\x5c', 'r']
  else if c = '\n' then ['\x5c', 'n']
  else if c = '\x5c' then ['\x5c', '\x5c']
  else if c = '\x22' then ['\x5c', '\x22']
  else if printable c then [c]
  else ['\x5c', 'u', '\x7b'] ++ Nat.toDigits 16 c.toNat ++ ['\x7d']

def str (printable : Char → Bool) (s : String) : List Char :=
  '\x22' :: (s.toList.flatMap (escapeChar printable) ++ ['\x22'])

def list {α : Type} (text : α → List Char) (items : List α) : List Char :=
  '[' :: ([',', ' '].intercalate (items.map text) ++ [']'])

def option {α : Type} (text : α → List Char) : Option α → List Char
  | none => "None".toList
  | some x => "Some(".toList ++ text x ++ [')']

section Escapes

def hexDigit (c : Char) : Nat := if c.isDigit then c.toNat - 48 else c.toNat - 87

def hexValue (digits : List Char) : Nat := digits.foldl (fun n c => 16 * n + hexDigit c) 0

theorem digitChar_spec : ∀ d < 16, hexDigit d.digitChar = d ∧ d.digitChar ≠ '\x7d' := by
  decide

theorem toDigits_spec (n : Nat) :
    hexValue (Nat.toDigits 16 n) = n ∧ ∀ c ∈ Nat.toDigits 16 n, c ≠ '\x7d' := by
  induction n using Nat.strongRecOn with
  | ind n ih =>
    rw [Nat.toDigits_eq_if (by decide)]
    split
    · rename_i small
      obtain ⟨value, plain⟩ := digitChar_spec n small
      refine ⟨?_, List.forall_mem_singleton.mpr plain⟩
      simp [hexValue, value]
    · rename_i large
      obtain ⟨value, plain⟩ := ih (n / 16) (by omega)
      obtain ⟨value', plain'⟩ := digitChar_spec (n % 16) (Nat.mod_lt n (by decide))
      refine ⟨?_, ?_⟩
      · rw [hexValue] at value
        rw [hexValue, List.foldl_append, value, List.foldl_cons, List.foldl_nil, value']
        exact Nat.div_add_mod n 16
      · rw [List.forall_mem_append, List.forall_mem_singleton]
        exact ⟨plain, plain'⟩

def readChar : List Char → Option (Char × List Char)
  | '\x5c' :: '0' :: rest => some ('\x00', rest)
  | '\x5c' :: 't' :: rest => some ('\t', rest)
  | '\x5c' :: 'r' :: rest => some ('\r', rest)
  | '\x5c' :: 'n' :: rest => some ('\n', rest)
  | '\x5c' :: 'u' :: '\x7b' :: rest =>
    some (Char.ofNat (hexValue (rest.takeWhile (· != '\x7d'))),
      (rest.dropWhile (· != '\x7d')).tail)
  | '\x5c' :: c :: rest => some (c, rest)
  | c :: rest => some (c, rest)
  | [] => none

theorem readChar_plain {c : Char} (plain : c ≠ '\x5c') (rest : List Char) :
    readChar (c :: rest) = some (c, rest) := by
  unfold readChar
  split <;> simp_all

theorem readChar_code (c : Char) (rest : List Char) :
    readChar (['\x5c', 'u', '\x7b'] ++ Nat.toDigits 16 c.toNat ++ ['\x7d'] ++ rest) =
      some (c, rest) := by
  obtain ⟨value, plain⟩ := toDigits_spec c.toNat
  have digits : ∀ a ∈ Nat.toDigits 16 c.toNat, (a != '\x7d') = true :=
    fun a member => bne_iff_ne.mpr (plain a member)
  have taken : (Nat.toDigits 16 c.toNat ++ '\x7d' :: rest).takeWhile (· != '\x7d') =
      Nat.toDigits 16 c.toNat := by
    rw [List.takeWhile_append_of_pos digits]
    simp
  have left : (Nat.toDigits 16 c.toNat ++ '\x7d' :: rest).dropWhile (· != '\x7d') =
      '\x7d' :: rest := by
    rw [List.dropWhile_append_of_pos digits]
    simp
  simp only [List.cons_append, List.nil_append, List.append_assoc, readChar]
  rw [taken, left, value, Char.ofNat_toNat]
  rfl

theorem readChar_escapeChar (printable : Char → Bool) (c : Char) (rest : List Char) :
    readChar (escapeChar printable c ++ rest) = some (c, rest) := by
  unfold escapeChar
  split_ifs with null tab ret line slash quote plain
  · subst null
    rfl
  · subst tab
    rfl
  · subst ret
    rfl
  · subst line
    rfl
  · subst slash
    rfl
  · subst quote
    rfl
  · exact readChar_plain slash rest
  · exact readChar_code c rest

theorem escapeChar_closed (printable : Char → Bool) : Closed (escapeChar printable) := by
  intro c d rest rest' same
  have read := congrArg readChar same
  rw [readChar_escapeChar, readChar_escapeChar] at read
  exact Prod.mk.inj (Option.some.inj read)

theorem escapeChar_head (printable : Char → Bool) (c : Char) (rest : List Char) :
    (escapeChar printable c ++ rest).head? ≠ some '\x22' := by
  unfold escapeChar
  split_ifs with null tab ret line slash quote plain
  · simp
  · simp
  · simp
  · simp
  · simp
  · simp
  · simpa using quote
  · simp

end Escapes

theorem str_closed (printable : Char → Bool) : Closed (str printable) := by
  intro s t rest rest' same
  obtain ⟨texts, tails⟩ := closed_flatMap (escapeChar_closed printable) '\x22'
    (escapeChar_head printable) (List.cons.inj same).2
  exact ⟨String.toList_injective texts, tails⟩

theorem list_closed {α : Type} {text : α → List Char} (item : Closed text)
    (opens : ∀ x rest, (text x ++ rest).head? ≠ some ']') : Closed (list text) :=
  fun _ _ _ _ same => closed_intercalate item [' '] (by decide) opens (List.cons.inj same).2

theorem option_injective {α : Type} {text : α → List Char} (injective : Function.Injective text) :
    Function.Injective (option text) := by
  intro x y same
  cases x with
  | none =>
    cases y with
    | none => rfl
    | some y => cases same
  | some x =>
    cases y with
    | none => cases same
    | some y =>
      have texts := List.append_cancel_left (List.append_cancel_right same)
      exact congrArg some (injective texts)

end StatGuardian.DebugText
