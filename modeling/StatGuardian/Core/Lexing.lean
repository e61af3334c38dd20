import StatGuardian.Core.Acceptance

namespace StatGuardian.Core.Lexing

open Grammar Peg Rendering

def signs : List String :=
  ["==", ">=", "<=", "!=", ">", "<", "\x7b", "\x7d", "(", ")", "[", "]", ",", ":", ".", "=", "@"]

/-- The text of a lexical token. Keywords are words like identifiers. -/
inductive Token : List Char → Prop where
  | word (name : Identifier) : Token name.text
  | number (n : Numeral) : Token n.text
  | string (q : Quoted) : Token q.text
  | sign (text : String) (member : text ∈ signs) : Token text.toList

/-- The longest match: no longer token starts where a token does. -/
def Longest (t s : List Char) : Prop :=
  ∀ other, Token other → other <+: t ++ s → other.length ≤ t.length

def nest (depth : Nat) (t : List Char) : Nat :=
  if t = ['('] then depth + 1 else if t = [')'] then depth - 1 else depth

/-- A text that is read, token by token, up to a position between two tokens (outside of comments).
    The position has a number of open parentheses and a token before it. -/
inductive Lexes (v : List Char) (depth : Nat) (last : List Char) :
    Nat → List Char → List Char → Prop where
  | here : Lexes v depth last depth last v
  | space {d l s} (c : Char) (space : isSpace c = true) (rest : Lexes v depth last d l s) :
      Lexes v depth last d l (c :: s)
  | comment {d l s} (body : List Char) (line : '\n' ∉ body) (rest : Lexes v depth last d l s) :
      Lexes v depth last d l ("//".toList ++ (body ++ '\n' :: s))
  | token {d l s} (t : List Char) (token : Token t) (longest : Longest t s)
      (rest : Lexes v depth last (nest d t) t s) : Lexes v depth last d l (t ++ s)

/-- What can be put between two tokens: a character of whitespace or a comment with its newline. -/
inductive Gap : List Char → Prop where
  | space (c : Char) (space : isSpace c = true) : Gap [c]
  | comment (body : List Char) (line : '\n' ∉ body) : Gap ("//".toList ++ (body ++ ['\n']))

def callWords : List String := ["foreign_key", "between", "len"]

def settingWords : List String := ["min", "max", "regex", "enum", "window", "watermark", "emit"]

/-- The token before a position and the one after it are in one literal of the grammar. The words
    before an equals sign are names of arguments inside of parentheses. -/
inductive Glued (depth : Nat) (last v : List Char) : Prop where
  | call (word : String) (member : word ∈ callWords) (before : last = word.toList)
      (after : v.head? = some '(')
  | setting (word : String) (member : word ∈ settingWords) (before : last = word.toList)
      (outside : depth = 0) (after : v.head? = some '=') (single : v[1]? ≠ some '=')
  | list (before : last = ['=']) (after : v.head? = some '[')

section Heads

def Blank (s : List Char) : Prop := ∀ c, s.head? = some c → isSpace c = true ∨ c = '/'

theorem Gap.cases_head {w : List Char} (gap : Gap w) :
    ∃ c rest, w = c :: rest ∧ (isSpace c = true ∨ c = '/') := by
  cases gap with
  | space c space => exact ⟨c, [], rfl, .inl space⟩
  | comment body line => exact ⟨'/', _, rfl, .inr rfl⟩

theorem Gap.blank {w : List Char} (gap : Gap w) (v : List Char) : Blank (w ++ v) := by
  obtain ⟨c, rest, rfl, blank⟩ := gap.cases_head
  intro d head
  obtain rfl : c = d := by simpa using head
  exact blank

theorem plain_of_word {c : Char} (word : isWordChar c = true) : isSpace c = false ∧ c ≠ '/' := by
  constructor
  · by_contra space
    simp only [Bool.not_eq_false, isSpace, Bool.or_eq_true, beq_iff_eq] at space
    rcases space with ((rfl | rfl) | rfl) | rfl <;> revert word <;> decide
  · rintro rfl
    revert word
    decide

theorem signs_plain : ∀ text ∈ signs, ∀ c ∈ text.toList, isSpace c = false ∧ c ≠ '/' ∧
    isWordChar c = false ∧ c ≠ '-' ∧ c ≠ '"' := by
  have all : signs.all (fun text => text.toList.all fun c =>
      ! isSpace c && c != '/' && ! isWordChar c && c != '-' && c != '"') = true := by
    decide
  intro text member c inside
  simpa [and_assoc] using List.all_eq_true.mp (List.all_eq_true.mp all text member) c inside

theorem signs_some : ∀ text ∈ signs, text.toList ≠ [] := by decide

theorem digits_plain (ds : Digits) : ∀ c ∈ ds.text, isSpace c = false ∧ c ≠ '/' :=
  fun c member => plain_of_word (isWordChar_of_isDigit (ds.digit c member))

theorem numeral_plain (n : Numeral) : ∀ c ∈ n.text, isSpace c = false ∧ c ≠ '/' := by
  obtain ⟨negative, whole, fraction, exponent⟩ := n
  have minus : ∀ c ∈ (if negative then ['-'] else []), isSpace c = false ∧ c ≠ '/' := by
    cases negative
    · exact List.forall_mem_nil _
    · exact List.forall_mem_singleton.mpr (by decide)
  have decimals : ∀ c ∈ fraction.elim [] (fun d => '.' :: d.text), isSpace c = false ∧ c ≠ '/' := by
    cases fraction with
    | none => exact List.forall_mem_nil _
    | some ds => exact List.forall_mem_cons.mpr ⟨by decide, digits_plain ds⟩
  have power : ∀ c ∈ exponent.elim [] Exponent.text, isSpace c = false ∧ c ≠ '/' := by
    cases exponent with
    | none => exact List.forall_mem_nil _
    | some e =>
      obtain ⟨upper, sign, ds⟩ := e
      have mark : ∀ upper : Bool, isSpace (if upper then 'E' else 'e') = false ∧
          (if upper then 'E' else 'e') ≠ '/' := by decide
      refine List.forall_mem_append.mpr ⟨List.forall_mem_cons.mpr ⟨mark upper, ?_⟩, digits_plain ds⟩
      cases sign <;> simp [Sign.text] <;> decide
  exact List.forall_mem_append.mpr ⟨List.forall_mem_append.mpr
    ⟨List.forall_mem_append.mpr ⟨minus, digits_plain whole⟩, decimals⟩, power⟩

theorem identifier_word (name : Identifier) : ∀ c ∈ name.text, isWordChar c = true :=
  List.forall_mem_cons.mpr ⟨isWordChar_of_isAlpha name.alpha, name.word⟩

theorem token_string_or_plain {t : List Char} (token : Token t) :
    (∃ q : Quoted, t = q.text) ∨ ∀ c ∈ t, isSpace c = false ∧ c ≠ '/' := by
  cases token with
  | word name => exact .inr fun c member => plain_of_word (identifier_word name c member)
  | number n => exact .inr (numeral_plain n)
  | string q => exact .inl ⟨q, rfl⟩
  | sign text member =>
    exact .inr fun c inside => ⟨(signs_plain text member c inside).1, (signs_plain text member c inside).2.1⟩

end Heads

section LongestMatch

theorem prefix_of_longer {a b s : List Char} (first : a <+: s) (second : b <+: s)
    (shorter : a.length ≤ b.length) : a <+: b :=
  List.prefix_of_prefix_length_le first second shorter

theorem quoted_head {q q' : Quoted} (starts : q.text <+: q'.text) : q'.text.length = q.text.length := by
  obtain ⟨rest, same⟩ := starts
  have inner : q.chars ++ '"' :: rest = q'.chars ++ ['"'] := by
    simpa [Quoted.text] using same
  have size : rest = [] := by
    rcases List.append_eq_append_iff.mp inner with ⟨more, chars, tail⟩ | ⟨more, _, tail⟩
    · cases more with
      | nil => exact (List.cons.inj tail).2
      | cons c more =>
        obtain ⟨rfl, _⟩ := List.cons.inj tail
        exact absurd (chars ▸ List.mem_append_right _ List.mem_cons_self) q'.plain
    · cases more with
      | nil => exact (List.cons.inj tail).2.symm
      | cons c more => simp at tail
  rw [← same, size, List.append_nil]

theorem Token.some {t : List Char} (token : Token t) : t ≠ [] := by
  cases token with
  | word name => exact List.cons_ne_nil _ _
  | number n =>
    obtain ⟨d, text, starts, _⟩ := n.whole.cons
    simp [Numeral.text, starts]
  | string q => exact List.cons_ne_nil _ _
  | sign text member => exact signs_some text member

theorem token_string_of_head {t : List Char} (token : Token t) (head : t.head? = .some '"') :
    ∃ q : Quoted, t = q.text := by
  cases token with
  | word name =>
    obtain same : name.first = '"' := by simpa [Identifier.text] using head
    exact absurd name.alpha (by rw [same]; decide)
  | number n =>
    obtain ⟨d, text, starts, digit⟩ := n.whole.cons
    cases negative : n.negative with
    | true => simp [Numeral.text, negative] at head
    | false =>
      obtain rfl : d = '"' := by simpa [Numeral.text, negative, starts] using head
      cases digit
  | string q => exact ⟨q, rfl⟩
  | sign text member =>
    exact absurd rfl (signs_plain text member '"' (List.mem_of_head? head)).2.2.2.2

/-- A token that is the longest one before some text is also the longest before a text that goes on
    with a blank, from whatever position on. -/
theorem Longest.cut {t y r b : List Char} (token : Token t) (longest : Longest t (y ++ r))
    (blank : Blank b) : Longest t (y ++ b) := by
  intro other isToken starts
  by_contra longer
  have inside : t <+: other := prefix_of_longer (List.prefix_append t _) starts (by omega)
  rcases token_string_or_plain isToken with ⟨q, rfl⟩ | plain
  · have head : t.head? = .some '"' := by
      obtain ⟨more, same⟩ := inside
      cases t with
      | nil => exact absurd rfl token.some
      | cons c t => exact congrArg Option.some (List.cons.inj same).1
    obtain ⟨q', rfl⟩ := token_string_of_head token head
    exact longer (quoted_head inside).le
  · rw [← List.append_assoc] at starts
    by_cases fits : other.length ≤ (t ++ y).length
    · have early := prefix_of_longer starts (List.prefix_append _ _) fits
      refine longer (longest other isToken ?_)
      rw [← List.append_assoc]
      exact early.trans (List.prefix_append _ _)
    · obtain ⟨more, rfl⟩ := prefix_of_longer (List.prefix_append _ _) starts (by omega)
      obtain ⟨rest, same⟩ := (List.prefix_append_right_inj _).mp starts
      cases more with
      | nil => simp at fits
      | cons c more =>
        have solid := plain c (by simp)
        rcases blank c (by rw [← same]; rfl) with space | slash
        · rw [solid.1] at space
          cases space
        · exact solid.2 slash

end LongestMatch

section Reading

def NoWord (s : List Char) : Prop := ∀ c, s.head? = some c → isWordChar c = false

theorem word_ends {name : Identifier} {s : List Char} (longest : Longest name.text s) : NoWord s := by
  intro c head
  by_contra word
  obtain ⟨rest, rfl⟩ : ∃ rest, s = c :: rest := by
    cases s with
    | nil => cases head
    | cons d rest => exact ⟨rest, by rw [Option.some.inj head]⟩
  let longer : Identifier := ⟨name.first, name.rest ++ [c], name.alpha, List.forall_mem_append.mpr
    ⟨name.word, List.forall_mem_singleton.mpr (Bool.not_eq_false _ ▸ word)⟩⟩
  have size := longest longer.text (.word longer) ⟨rest, by simp [longer, Identifier.text]⟩
  simp [longer, Identifier.text] at size

theorem numeral_head (n : Numeral) : ∃ c rest, n.text = c :: rest ∧ (c.isDigit = true ∨ c = '-') := by
  obtain ⟨d, text, starts, digit⟩ := n.whole.cons
  cases negative : n.negative with
  | true => exact ⟨'-', n.whole.text ++ (n.fractionText ++ n.exponentText), by
      simp [Numeral.text, negative], .inr rfl⟩
  | false => exact ⟨d, text ++ (n.fractionText ++ n.exponentText), by
      simp [Numeral.text, negative, starts], .inl digit⟩

theorem isDigit_of_isAlpha {c : Char} (alpha : c.isAlpha = true) : c.isDigit = false := by
  by_contra digit
  rw [Bool.not_eq_false] at digit
  have low : c.val ≤ '9'.val := of_decide_eq_true (Bool.and_eq_true_iff.mp digit).2
  rcases (Bool.or_eq_true ..).mp alpha with upper | lower
  · have high : 'A'.val ≤ c.val := (of_decide_eq_true upper).1
    exact absurd (UInt32.le_trans high low) (by decide)
  · have high : 'a'.val ≤ c.val := of_decide_eq_true (Bool.and_eq_true_iff.mp lower).1
    exact absurd (UInt32.le_trans high low) (by decide)

theorem word_of_head {t : List Char} (token : Token t) {c : Char} (head : t.head? = some c)
    (alpha : c.isAlpha = true) : ∃ name : Identifier, t = name.text := by
  cases token with
  | word name => exact ⟨name, rfl⟩
  | number n =>
    obtain ⟨d, rest, starts, kind⟩ := numeral_head n
    rw [starts, List.head?_cons, Option.some.injEq] at head
    subst head
    rcases kind with digit | rfl
    · rw [isDigit_of_isAlpha alpha] at digit
      cases digit
    · cases alpha
  | string q =>
    obtain rfl : '"' = c := by simpa [Quoted.text] using head
    cases alpha
  | sign text member =>
    have solid := (signs_plain text member c (List.mem_of_head? head)).2.2.1
    rw [isWordChar_of_isAlpha alpha] at solid
    cases solid

theorem longest_word (name : Identifier) {s : List Char} (ends : NoWord s) : Longest name.text s := by
  intro other token starts
  by_contra longer
  obtain ⟨x, rfl⟩ := prefix_of_longer (List.prefix_append name.text s) starts (by omega)
  obtain ⟨rest, rfl⟩ := (List.prefix_append_right_inj _).mp starts
  obtain ⟨whole, same⟩ := word_of_head token (c := name.first) rfl name.alpha
  cases x with
  | nil => simp at longer
  | cons c x =>
    have word := identifier_word whole c (same ▸ by simp)
    rw [ends c rfl] at word
    cases word

theorem sign_of_head {t : List Char} (token : Token t) {c : Char} (head : t.head? = some c)
    (word : isWordChar c = false) (minus : c ≠ '-') (quote : c ≠ '"') :
    ∃ text ∈ signs, t = text.toList := by
  cases token with
  | word name =>
    obtain rfl : name.first = c := by simpa [Identifier.text] using head
    rw [isWordChar_of_isAlpha name.alpha] at word
    cases word
  | number n =>
    obtain ⟨d, rest, starts, kind⟩ := numeral_head n
    rw [starts, List.head?_cons, Option.some.injEq] at head
    subst head
    rcases kind with digit | same
    · rw [isWordChar_of_isDigit digit] at word
      cases word
    · exact absurd same minus
  | string q =>
    obtain rfl : '"' = c := by simpa [Quoted.text] using head
    exact absurd rfl quote
  | sign text member => exact ⟨text, member, rfl⟩

section Literals

variable {k : String} {t s : List Char}

theorem lit_longest_none (isToken : Token k.toList) (longest : Longest t s) (other : ¬ k.toList <+: t) :
    lit (R := Rule) k (t ++ s) = none := by
  rw [lit_none_iff]
  intro starts
  exact other (prefix_of_longer starts (List.prefix_append t s) (longest k.toList isToken starts))

theorem lit_head_none {c : Char} {rest : List Char} (other : k.toList.head? ≠ some c)
    (some_ : k.toList ≠ []) : lit (R := Rule) k (c :: rest) = none := by
  rw [lit_none_iff]
  rintro ⟨more, same⟩
  cases chars : k.toList with
  | nil => exact some_ chars
  | cons d text =>
    rw [chars] at same other
    exact other (congrArg some (List.cons.inj same).1)

end Literals

section Numbers

variable {n : Numeral} {s : List Char}

theorem no_longer (longest : Longest n.text s) (n' : Numeral) {more rest : List Char}
    (extends_ : n'.text = n.text ++ more) (starts : s = more ++ rest) : more = [] := by
  have size := longest n'.text (.number n') ⟨rest, by rw [extends_, starts, List.append_assoc]⟩
  rw [extends_, List.length_append] at size
  exact List.length_eq_zero_iff.mp (by omega)

theorem exponent_head (e : Exponent) (s : List Char) (c : Char) (head : (e.text ++ s).head? = some c) :
    c.isDigit = false ∧ c ≠ '.' := by
  obtain ⟨upper, sign, ds⟩ := e
  obtain rfl : (if upper then 'E' else 'e') = c := by simpa [Exponent.text] using head
  cases upper <;> decide

def digitsSnoc (ds : Digits) (d : Char) (digit : d.isDigit = true) : Digits where
  text := ds.text ++ [d]
  some := by simp
  digit := List.forall_mem_append.mpr ⟨ds.digit, List.forall_mem_singleton.mpr digit⟩

theorem longest_digit (longest : Longest n.text s) (c : Char) (head : s.head? = some c) :
    c.isDigit = false := by
  by_contra digit
  rw [Bool.not_eq_false] at digit
  obtain ⟨rest, rfl⟩ : ∃ rest, s = [c] ++ rest := by
    cases s with
    | nil => cases head
    | cons d rest => exact ⟨rest, by rw [Option.some.inj head]; rfl⟩
  obtain ⟨negative, whole, fraction, exponent⟩ := n
  have grows : ∃ n' : Numeral, n'.text = Numeral.text ⟨negative, whole, fraction, exponent⟩ ++ [c] := by
    cases exponent with
    | some e =>
      exact ⟨⟨negative, whole, fraction, some ⟨e.upper, e.sign, digitsSnoc e.digits c digit⟩⟩, by
        simp [Numeral.text, Numeral.exponentText, Exponent.text, digitsSnoc, Numeral.fractionText]⟩
    | none =>
      cases fraction with
      | some ds =>
        exact ⟨⟨negative, whole, some (digitsSnoc ds c digit), none⟩, by
          simp [Numeral.text, Numeral.exponentText, digitsSnoc, Numeral.fractionText]⟩
      | none =>
        exact ⟨⟨negative, digitsSnoc whole c digit, none, none⟩, by
          simp [Numeral.text, Numeral.exponentText, digitsSnoc, Numeral.fractionText]⟩
  obtain ⟨n', extends_⟩ := grows
  exact absurd (no_longer longest n' extends_ rfl) (by simp)

theorem longest_fraction (longest : Longest n.text s) (whole : n.fraction = none)
    (plain : n.exponent = none) : seq (R := Rule) (lit ".") digits s = none := by
  cases found : seq (R := Rule) (lit ".") digits s with
  | none => rfl
  | some taken =>
    obtain ⟨as, rest⟩ := taken
    obtain ⟨_, rfl, _, _, rfl, rfl, ds, rfl⟩ :=
      ((Consumes.lit ".").seq Core.Parser.digits_consumes) s as rest found
    have grows : Numeral.text { n with fraction := some ds } = n.text ++ (".".toList ++ ds.text) := by
      simp [Numeral.text, Numeral.fractionText, Numeral.exponentText, whole, plain]
    exact absurd (no_longer longest _ grows rfl) (by simp)

theorem longest_exponent (longest : Longest n.text s) (plain : n.exponent = none) :
    atomically [charIf (fun c => c == 'e' || c == 'E'), optional (choice [lit "+", lit "-"]), digits] s =
      none := by
  cases found : atomically [charIf (fun c => c == 'e' || c == 'E'),
    optional (choice [lit "+", lit "-"]), digits] s with
  | none => rfl
  | some taken =>
    obtain ⟨as, rest⟩ := taken
    obtain ⟨_, rfl, e, rfl⟩ := Core.Parser.exponent_consumes s as rest found
    have grows : Numeral.text { n with exponent := some e } = n.text ++ e.text := by
      simp [Numeral.text, Numeral.fractionText, Numeral.exponentText, plain]
    exact absurd (no_longer longest _ grows rfl) (by simp [Exponent.text])

theorem number_of_longest (longest : Longest n.text s) :
    number (n.text ++ s) = some ([.mk .number n.text []], s) := by
  have follows : ∀ c, (n.exponentText ++ s).head? = some c → c.isDigit = false := by
    intro c head
    rw [Numeral.exponentText] at head
    cases exponent : n.exponent with
    | none =>
      rw [exponent] at head
      exact longest_digit longest c head
    | some e =>
      rw [exponent] at head
      exact (exponent_head e s c head).1
  have power : optional (R := Rule) (atomically [charIf (fun c => c == 'e' || c == 'E'),
      optional (choice [lit "+", lit "-"]), digits]) (n.exponentText ++ s) = some ([], s) := by
    rw [Numeral.exponentText]
    cases exponent : n.exponent with
    | none => exact optional_none (longest_exponent longest exponent)
    | some e =>
      refine optional_some ?_
      have marked : charIf (R := Rule) (fun c => c == 'e' || c == 'E')
          (e.text ++ s) = some ([], e.sign.text ++ (e.digits.text ++ s)) := by
        cases upper : e.upper <;> simp [Exponent.text, charIf, upper]
      refine sequence_cons (by simp) marked ?_
      refine sequence_cons (by simp) (sign_choice_reads e.sign e.digits s) ?_
      exact digits_reads e.digits s fun c => longest_digit longest c
  have decimals : optional (R := Rule) (seq (lit ".") digits)
      (n.fractionText ++ (n.exponentText ++ s)) = some ([], n.exponentText ++ s) := by
    rw [Numeral.fractionText]
    cases fraction : n.fraction with
    | some ds =>
      have digits := digits_reads ds (n.exponentText ++ s) follows
      exact optional_some (seq_some (lit_append "." (ds.text ++ (n.exponentText ++ s))) digits)
    | none =>
      refine optional_none ?_
      rw [Option.elim_none, List.nil_append, Numeral.exponentText]
      cases exponent : n.exponent with
      | none => exact longest_fraction longest fraction exponent
      | some e => exact seq_none_left (lit_refuses '.' _ fun c head => (exponent_head e s c head).2)
  have whole : digits (n.whole.text ++ (n.fractionText ++ (n.exponentText ++ s))) =
      some ([], n.fractionText ++ (n.exponentText ++ s)) := by
    refine digits_reads n.whole _ fun c head => ?_
    rw [Numeral.fractionText] at head
    cases fraction : n.fraction with
    | none =>
      rw [fraction] at head
      exact follows c head
    | some ds =>
      rw [fraction] at head
      obtain rfl : '.' = c := by simpa using head
      rfl
  have shape : n.text ++ s = (if n.negative then ['-'] else []) ++
      (n.whole.text ++ (n.fractionText ++ (n.exponentText ++ s))) := by
    simp [Numeral.text]
  have parts : atomically [optional (lit "-"), digits, optional (seq (lit ".") digits),
      optional (atomically [charIf (fun c => c == 'e' || c == 'E'),
        optional (choice [lit "+", lit "-"]), digits])] (n.text ++ s) = some ([], s) := by
    rw [shape]
    refine sequence_cons (by simp) (sign_reads n _) (sequence_cons (by simp) whole ?_)
    exact sequence_cons (by simp) decimals power
  exact atomic_some Rule.number n.text parts

end Numbers

end Reading

end StatGuardian.Core.Lexing
