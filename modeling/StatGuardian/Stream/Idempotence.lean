import Mathlib
import StatGuardian.Stream.Positions
import StatGuardian.Stream.Redaction

namespace StatGuardian.Stream

/-- What the Unicode case mappings are taken to satisfy. -/
structure CaseLaws (env : TextEnv) : Prop where
  lower : ∀ s, env.toLowercase (env.toLowercase s) = env.toLowercase s
  upper : ∀ s, env.toUppercase (env.toUppercase s) = env.toUppercase s
  lowerTrimmed : ∀ s, Text.trim s = s → Text.trim (env.toLowercase s) = env.toLowercase s
  upperTrimmed : ∀ s, Text.trim s = s → Text.trim (env.toUppercase s) = env.toUppercase s
  upperLower : ∀ s, env.toUppercase (env.toLowercase (env.toUppercase (env.toLowercase s))) =
    env.toUppercase (env.toLowercase s)

namespace Sanitizer

variable {env : TextEnv} {sanitizer : Sanitizer}

theorem cased_cased (laws : CaseLaws env) (key s : String) :
    uppercased env sanitizer key (lowercased env sanitizer key
      (uppercased env sanitizer key (lowercased env sanitizer key s))) =
    uppercased env sanitizer key (lowercased env sanitizer key s) := by
  unfold uppercased lowercased
  cases sanitizer.normalization.lowercaseFields.contains key with
  | false =>
    cases sanitizer.normalization.uppercaseFields.contains key with
    | false => rfl
    | true => exact laws.upper s
  | true =>
    cases sanitizer.normalization.uppercaseFields.contains key with
    | false => exact laws.lower s
    | true => exact laws.upperLower s

theorem trim_cased (laws : CaseLaws env) (key s : String) (trim : Text.trim s = s) :
    Text.trim (uppercased env sanitizer key (lowercased env sanitizer key s)) =
      uppercased env sanitizer key (lowercased env sanitizer key s) := by
  have lowered : Text.trim (lowercased env sanitizer key s) = lowercased env sanitizer key s := by
    unfold lowercased
    split
    · exact laws.lowerTrimmed s trim
    · exact trim
  unfold uppercased
  split
  · exact laws.upperTrimmed _ lowered
  · exact lowered

theorem normalForm_normalForm (laws : CaseLaws env) (key s : String) :
    normalForm env sanitizer key (normalForm env sanitizer key s) = normalForm env sanitizer key s := by
  have kept : trimmed sanitizer key (normalForm env sanitizer key s) =
      normalForm env sanitizer key s := by
    unfold normalForm trimmed
    split
    · exact trim_cased laws key _ (Text.trim_trim s)
    · rfl
  rw [normalForm, kept, normalForm, cased_cased laws]

theorem walk_ne_string {value : Value} (other : ∀ s, value ≠ .string s) (path s : String) :
    (walk env sanitizer path value).1 ≠ .string s := by
  cases value with
  | string t => exact absurd rfl (other t)
  | array items =>
    rw [walk]
    split <;> nofun
  | _ => nofun

theorem walkEntry_settled (erases : sanitizer.Erases) (laws : CaseLaws env) {path key : String}
    {child value : Value}
    (again : (walk env sanitizer (childPath path key)
      (walk env sanitizer (childPath path key) child).1).1 =
        (walk env sanitizer (childPath path key) child).1)
    (kept : (walkEntry env sanitizer path key child).1 = some value) :
    (walkEntry env sanitizer path key value).1 = some value := by
  have treated : Treated env sanitizer path (.key key) child _ :=
    walkChild_treated env sanitizer path (.key key) child
  rw [walkChild] at treated
  generalize walkEntry env sanitizer path key child = out at treated kept
  cases treated with
  | redacted _ rule =>
    rw [walkEntry_redacted rule, redact_erases env erases key _ rule value child]
    exact kept
  | normalized s free =>
    obtain rfl := Option.some.inj kept
    rw [walkEntry_string free, normalForm_normalForm laws]
  | descended _ plain deep =>
    obtain rfl := Option.some.inj kept
    obtain ⟨free, other⟩ := plain key rfl
    rw [walkEntry_other free path (walk_ne_string other _), deep, if_pos rfl]
    exact congrArg some again
  | left _ plain shallow =>
    obtain rfl := Option.some.inj kept
    obtain ⟨free, other⟩ := plain key rfl
    rw [walkEntry_other free path other, shallow, if_neg Bool.false_ne_true]

mutual

/-- The second walk finds nothing left to do, whatever the shape of the value. -/
theorem walk_walk (erases : sanitizer.Erases) (laws : CaseLaws env) (path : String) :
    (value : Value) →
      (walk env sanitizer path (walk env sanitizer path value).1).1 =
        (walk env sanitizer path value).1
  | .object fields => by
    simp only [walk, walkFields_walkFields erases laws path fields]
  | .array items => by
    rw [walk]
    split
    · rename_i deep
      simp only [walk, deep, if_true, walkItems_walkItems erases laws path 0 items]
    · rename_i shallow
      rw [walk, if_neg shallow]
  | .null => rfl
  | .bool _ => rfl
  | .number _ => rfl
  | .string _ => rfl

theorem walkFields_walkFields (erases : sanitizer.Erases) (laws : CaseLaws env) (path : String) :
    (fields : List (String × Value)) →
      (walkFields env sanitizer path (walkFields env sanitizer path fields).1).1 =
        (walkFields env sanitizer path fields).1
  | [] => rfl
  | (key, child) :: rest => by
    have again := walk_walk erases laws (childPath path key) child
    have others := walkFields_walkFields erases laws path rest
    rw [walkFields_cons]
    cases kept : (walkEntry env sanitizer path key child).1 with
    | none => exact others
    | some value =>
      have settled := walkEntry_settled erases laws again kept
      simp only [Option.map_some, Option.toList_some, List.cons_append, List.nil_append,
        walkFields_cons, settled, others]

theorem walkItems_walkItems (erases : sanitizer.Erases) (laws : CaseLaws env) (path : String)
    (i : Nat) : (items : List Value) →
      (walkItems env sanitizer path i (walkItems env sanitizer path i items).1).1 =
        (walkItems env sanitizer path i items).1
  | [] => rfl
  | child :: rest => by
    simp only [walkItems, walk_walk erases laws _ child, walkItems_walkItems erases laws path (i + 1) rest]

end

/-- Without a rule that hashes, sanitizing what has been sanitized changes nothing. -/
theorem sanitize_sanitize (erases : sanitizer.Erases) (laws : CaseLaws env) (value : Value) :
    (sanitizer.sanitize env (sanitizer.sanitize env value).1).1 =
      (sanitizer.sanitize env value).1 := by
  unfold sanitize
  split
  · rfl
  · exact walk_walk erases laws "" value

section Contacts

-- the library's lemmas on the case of ASCII letters are in no module of it but the whole
theorem isWhitespace_of_isAlpha {c : Char} (letter : c.isAlpha = true) : Text.isWhitespace c = false := by
  rw [Char.isAlpha, Bool.or_eq_true] at letter
  simp only [Char.isUpper, Char.isLower, Bool.and_eq_true, decide_eq_true_eq, ge_iff_le,
    UInt32.le_iff_toNat_le, Char.toNat_val, Char.reduceToNat] at letter
  have least : 65 ≤ c.toNat := by omega
  have most : c.toNat ≤ 122 := by omega
  simp only [Text.isWhitespace, Bool.or_eq_false_iff, Bool.and_eq_false_iff, decide_eq_false_iff_not,
    beq_eq_false_iff_ne]
  omega

theorem isWhitespace_toLower (c : Char) : Text.isWhitespace c.toLower = Text.isWhitespace c := by
  by_cases letter : c.isAlpha = true
  · rw [isWhitespace_of_isAlpha letter, isWhitespace_of_isAlpha (by rwa [Char.isAlpha_toLower_eq_isAlpha])]
  · rw [Char.toLower_eq_of_not_isUpper fun upper => letter (by rw [Char.isAlpha, upper, Bool.true_or])]

theorem isWhitespace_toUpper (c : Char) : Text.isWhitespace c.toUpper = Text.isWhitespace c := by
  by_cases letter : c.isAlpha = true
  · rw [isWhitespace_of_isAlpha letter, isWhitespace_of_isAlpha (by rwa [Char.isAlpha_toUpper_eq_isAlpha])]
  · rw [Char.toUpper_eq_of_not_isLower fun lower => letter (by rw [Char.isAlpha, lower, Bool.or_true])]

theorem trim_map (change : Char → Char)
    (kept : ∀ c, Text.isWhitespace (change c) = Text.isWhitespace c) (s : String)
    (trim : Text.trim s = s) :
    Text.trim (String.ofList (s.toList.map change)) = String.ofList (s.toList.map change) := by
  have same : Text.isWhitespace ∘ change = Text.isWhitespace := funext kept
  have mapped : Text.trim (String.ofList (s.toList.map change)) =
      String.ofList ((Text.trim s).toList.map change) := by
    simp only [Text.trim, String.toList_ofList, List.dropWhile_map, same, ← List.map_reverse]
  rw [mapped, trim]

theorem asciiText_laws : CaseLaws asciiText where
  lower s := by simp [asciiText, Function.comp_def, Char.toLower_toLower_eq_toLower]
  upper s := by simp [asciiText, Function.comp_def, Char.toUpper_toUpper_eq_toUpper]
  lowerTrimmed s trim := trim_map Char.toLower isWhitespace_toLower s trim
  upperTrimmed s trim := trim_map Char.toUpper isWhitespace_toUpper s trim
  upperLower s := by
    simp [asciiText, Function.comp_def, Char.toUpper_toLower_eq_toUpper]

/-- Tokens are dropped and whole addresses masked; mails are trimmed and put in lower case. -/
def contacts : Sanitizer :=
  ⟨⟨[⟨"token", .drop⟩, ⟨"address", .mask⟩], true⟩, ⟨["mail"], ["mail"], [], false⟩⟩

def contact : Value :=
  .object [("user", .object [("mail", .string " Ada@X.org "), ("token", .number "7")]),
    ("address", .object [("city", .string "Turin")])]

theorem contacts_sanitize_sanitize :
    (contacts.sanitize asciiText (contacts.sanitize asciiText contact).1).1 =
      (contacts.sanitize asciiText contact).1 := by
  apply sanitize_sanitize _ asciiText_laws contact
  intro rule member
  rcases List.mem_cons.mp member with rfl | member
  · nofun
  · rw [List.mem_singleton.mp member]
    nofun

end Contacts

end Sanitizer

end StatGuardian.Stream
