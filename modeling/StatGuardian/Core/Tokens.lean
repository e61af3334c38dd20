import StatGuardian.Core.Rendering

namespace StatGuardian.Core.Rendering

open Grammar Core.Parser Peg

section Skip

theorem skip_space (c : Char) (s : List Char) (space : isSpace c = true) :
    skip (c :: s) = skip s := by
  obtain ⟨as, more, spaces⟩ := star_total whitespace s
  have first : whitespace (c :: s) = some ([], s) := by simp [whitespace, charIf, space]
  have both : star whitespace (c :: s) = some ([] ++ as, more) :=
    star_some first (by simp) spaces
  obtain ⟨bs, rest, comments⟩ := star_total (seq comment (star whitespace)) more
  simp only [skip, seq, both, spaces, comments]

theorem skip_solid (c : Char) (s : List Char) (solid : isSpace c = false) (text : c ≠ '/') :
    skip (c :: s) = c :: s := by
  have noSpace : star whitespace (c :: s) = some ([], c :: s) :=
    star_stop (by simp [whitespace, charIf, solid])
  have noSlash : lit (R := Rule) "//" (c :: s) = none := by
    rw [lit_none_iff]
    intro starts
    rw [show "//".toList = ['/', '/'] from rfl, List.cons_prefix_cons] at starts
    exact text starts.1.symm
  have noComment : star (seq comment (star whitespace)) (c :: s) = some ([], c :: s) :=
    star_stop (seq_none_left (seq_none_left noSlash))
  simp only [skip, seq, noSpace, noComment]

theorem skip_newline (s : List Char) : skip ('\n' :: s) = skip s := skip_space _ _ rfl

theorem skip_word (c : Char) (s : List Char) (word : isWordChar c = true) :
    skip (c :: s) = c :: s := by
  refine skip_solid c s ?_ ?_
  · by_contra space
    simp only [Bool.not_eq_false, isSpace, Bool.or_eq_true, beq_iff_eq] at space
    rcases space with ((rfl | rfl) | rfl) | rfl <;> revert word <;> decide
  · rintro rfl
    revert word
    decide

theorem isWordChar_of_isAlpha {c : Char} (alpha : c.isAlpha = true) : isWordChar c = true := by
  simp [isWordChar, Char.isAlphanum, alpha]

theorem isWordChar_of_isDigit {c : Char} (digit : c.isDigit = true) : isWordChar c = true := by
  simp [isWordChar, Char.isAlphanum, digit]

end Skip

section Words

def Ends (rest : List Char) : Prop :=
  ∀ c, rest.head? = some c → isWordChar c = false ∧ c ≠ '.'

theorem ends_cons {c : Char} (rest : List Char) (word : isWordChar c = false) (dot : c ≠ '.') :
    Ends (c :: rest) := by
  intro d head
  obtain rfl : c = d := by simpa using head
  exact ⟨word, dot⟩

theorem identifier_reads (name : Identifier) (rest : List Char)
    (stop : ∀ c, rest.head? = some c → isWordChar c = false) :
    identifier (name.text ++ rest) = some ([.mk .identifier name.text []], rest) := by
  have first : charIf (R := Rule) Char.isAlpha (name.text ++ rest) = some ([], name.rest ++ rest) := by
    simp [Identifier.text, charIf, name.alpha]
  exact atomic_some Rule.identifier name.text
    (seq_some first (star_charIf _ _ _ name.word stop))

theorem identifier_refuses (c : Char) (s : List Char) (other : c.isAlpha = false) :
    identifier (c :: s) = none :=
  atomic_none _ (seq_none_left (by simp [charIf, other]))

theorem innerStr_reads (chars rest : List Char) (plain : '"' ∉ chars) :
    innerStr (chars ++ '"' :: rest) = some ([], '"' :: rest) := by
  induction chars with
  | nil =>
    refine star_stop (seq_none_left ?_)
    rfl
  | cons c chars ih =>
    have other : c ≠ '"' := fun same => plain (same ▸ List.mem_cons_self)
    have noQuote : lit (R := Rule) "\"" (c :: (chars ++ '"' :: rest)) = none := by
      rw [lit_none_iff]
      intro starts
      rw [show "\"".toList = ['"'] from rfl, List.cons_prefix_cons] at starts
      exact other starts.1.symm
    have round : seq (notFollowedBy (lit "\"")) any (c :: (chars ++ '"' :: rest))
        = some ([], chars ++ '"' :: rest) := by
      simp [seq, notFollowedBy, noQuote, any, charIf]
    exact star_some round (by simp) (ih (fun inside => plain (List.mem_cons_of_mem _ inside)))

theorem stringLiteral_reads (q : Quoted) (rest : List Char) :
    stringLiteral (q.text ++ rest) = some ([.mk .stringLiteral q.text []], rest) := by
  have close : lit (R := Rule) "\"" ('"' :: rest) = some ([], rest) := lit_append "\"" rest
  have inner : seq innerStr (after id (lit "\"")) (q.chars ++ '"' :: rest) = some ([], rest) :=
    seq_some (innerStr_reads q.chars rest q.plain) close
  have shape : q.text ++ rest = "\"".toList ++ (q.chars ++ '"' :: rest) := by
    simp [Quoted.text]
  have whole : atomically [lit "\"", innerStr, lit "\""] (q.text ++ rest) = some ([], rest) := by
    rw [shape]
    exact seq_some (lit_append "\"" _) inner
  exact atomic_some Rule.stringLiteral q.text whole

theorem unquote_text (q : Quoted) : unquote q.text = q.value := by
  simp [unquote, Quoted.text, Quoted.value]

end Words

section Numbers

theorem digits_reads (ds : Digits) (rest : List Char)
    (stop : ∀ c, rest.head? = some c → c.isDigit = false) :
    digits (ds.text ++ rest) = some ([], rest) := by
  obtain ⟨text, some, digit⟩ := ds
  cases text with
  | nil => exact absurd rfl some
  | cons d text =>
    have first : charIf (R := Rule) Char.isDigit (d :: (text ++ rest)) = .some ([], text ++ rest) := by
      simp [charIf, digit d List.mem_cons_self]
    exact seq_some first
      (star_charIf _ _ _ (fun c inside => digit c (List.mem_cons_of_mem _ inside)) stop)

theorem Digits.cons (ds : Digits) :
    ∃ d text, ds.text = d :: text ∧ d.isDigit = true := by
  obtain ⟨text, some, digit⟩ := ds
  cases text with
  | nil => exact absurd rfl some
  | cons d text => exact ⟨d, text, rfl, digit d List.mem_cons_self⟩

theorem lit_refuses (sign : Char) (s : List Char) (other : ∀ c, s.head? = some c → c ≠ sign) :
    lit (R := Rule) (String.singleton sign) s = none := by
  rw [lit_none_iff]
  rintro ⟨rest, rfl⟩
  exact other sign (by simp) rfl

theorem digits_head (ds : Digits) (s : List Char) (sign c : Char) (mark : sign.isDigit = false)
    (head : (ds.text ++ s).head? = some c) : c ≠ sign := by
  obtain ⟨d, text, starts, digit⟩ := ds.cons
  rw [starts, List.cons_append, List.head?_cons, Option.some.injEq] at head
  rintro rfl
  rw [← head, digit] at mark
  cases mark

theorem sign_reads (n : Numeral) (s : List Char) :
    optional (R := Rule) (lit "-") ((if n.negative then ['-'] else []) ++ (n.whole.text ++ s))
      = some ([], n.whole.text ++ s) := by
  cases n.negative with
  | true => exact optional_some (lit_append "-" _)
  | false =>
    exact optional_none (lit_refuses '-' _ (fun c => digits_head n.whole s '-' c rfl))

def EndsDigits (s : List Char) : Prop := ∀ c, s.head? = some c → c.isDigit = false ∧ c ≠ '.'

theorem isDigit_of_not_word {c : Char} (word : isWordChar c = false) : c.isDigit = false := by
  by_contra digit
  rw [Bool.not_eq_false] at digit
  rw [isWordChar_of_isDigit digit] at word
  cases word

theorem exponent_stop (exponent : Option Exponent) (rest : List Char) (stop : Ends rest) :
    EndsDigits (exponent.elim [] Exponent.text ++ rest) := by
  intro c head
  cases exponent with
  | none => exact ⟨isDigit_of_not_word (stop c head).1, (stop c head).2⟩
  | some e =>
    obtain ⟨upper, sign, ds⟩ := e
    obtain rfl : (if upper then 'E' else 'e') = c := by simpa [Exponent.text] using head
    cases upper <;> decide

theorem fraction_stop (fraction : Option Digits) (s : List Char) (stop : EndsDigits s) (c : Char)
    (head : (fraction.elim [] (fun d => '.' :: d.text) ++ s).head? = some c) :
    c.isDigit = false := by
  cases fraction with
  | none => exact (stop c head).1
  | some ds =>
    obtain rfl : '.' = c := by simpa using head
    rfl

theorem fraction_reads (fraction : Option Digits) (s : List Char) (stop : EndsDigits s) :
    optional (seq (lit ".") digits) (fraction.elim [] (fun d => '.' :: d.text) ++ s)
      = some ([], s) := by
  cases fraction with
  | none => exact optional_none (seq_none_left (lit_refuses '.' s (fun c head => (stop c head).2)))
  | some ds =>
    have digits := digits_reads ds s (fun c head => (stop c head).1)
    exact optional_some (seq_some (lit_append "." (ds.text ++ s)) digits)

theorem sign_choice_reads (sign : Sign) (ds : Digits) (rest : List Char) :
    optional (R := Rule) (choice [lit "+", lit "-"]) (sign.text ++ (ds.text ++ rest))
      = some ([], ds.text ++ rest) := by
  cases sign with
  | plus => exact optional_some (choice_here _ (lit_append "+" _))
  | minus =>
    refine optional_some ?_
    rw [choice_next _ rfl]
    exact choice_here _ (lit_append "-" _)
  | unsigned =>
    refine optional_none (choice_none (fun p member => ?_))
    rcases List.mem_cons.mp member with rfl | member
    · exact lit_refuses '+' _ (fun c => digits_head ds rest '+' c rfl)
    · obtain rfl := List.mem_singleton.mp member
      exact lit_refuses '-' _ (fun c => digits_head ds rest '-' c rfl)

theorem exponent_reads (exponent : Option Exponent) (rest : List Char) (stop : Ends rest) :
    optional (R := Rule) (atomically [charIf (fun c => c == 'e' || c == 'E'),
      optional (choice [lit "+", lit "-"]), digits]) (exponent.elim [] Exponent.text ++ rest)
      = some ([], rest) := by
  cases exponent with
  | none =>
    refine optional_none (sequence_none ?_)
    cases rest with
    | nil => rfl
    | cons c rest =>
      have word := (stop c rfl).1
      have other : (c == 'e' || c == 'E') = false := by
        by_contra mark
        simp only [Bool.not_eq_false, Bool.or_eq_true, beq_iff_eq] at mark
        rcases mark with rfl | rfl <;> revert word <;> decide
      simp [charIf, other]
  | some e =>
    refine optional_some ?_
    have marked : charIf (R := Rule) (fun c => c == 'e' || c == 'E')
        (e.text ++ rest) = some ([], e.sign.text ++ (e.digits.text ++ rest)) := by
      cases upper : e.upper <;> simp [Exponent.text, charIf, upper]
    refine sequence_cons (by simp) marked ?_
    refine sequence_cons (by simp) (sign_choice_reads e.sign e.digits rest) ?_
    exact digits_reads e.digits rest (fun c head => isDigit_of_not_word (stop c head).1)

theorem number_reads (n : Numeral) (rest : List Char) (stop : Ends rest) :
    number (n.text ++ rest) = some ([.mk .number n.text []], rest) := by
  have shape : n.text ++ rest = (if n.negative then ['-'] else []) ++
      (n.whole.text ++ (n.fractionText ++ (n.exponentText ++ rest))) := by
    simp [Numeral.text]
  have ending := exponent_stop n.exponent rest stop
  have fraction := fraction_reads n.fraction _ ending
  have whole := digits_reads n.whole _ (fraction_stop n.fraction _ ending)
  have parts : atomically [optional (lit "-"), digits, optional (seq (lit ".") digits),
      optional (atomically [charIf (fun c => c == 'e' || c == 'E'),
        optional (choice [lit "+", lit "-"]), digits])] (n.text ++ rest) = some ([], rest) := by
    rw [shape]
    refine sequence_cons (by simp) (sign_reads n _) (sequence_cons (by simp) whole ?_)
    exact sequence_cons (by simp) fraction (exponent_reads n.exponent rest stop)
  exact atomic_some Rule.number n.text parts

theorem takeWhile_digits (text rest : List Char) (digit : ∀ c ∈ text, c.isDigit = true)
    (stop : ∀ c, rest.head? = some c → c.isDigit = false) :
    (text ++ rest).takeWhile Char.isDigit = text ∧ (text ++ rest).dropWhile Char.isDigit = rest := by
  have none : rest.takeWhile Char.isDigit = [] ∧ rest.dropWhile Char.isDigit = rest := by
    cases rest with
    | nil => exact ⟨rfl, rfl⟩
    | cons c rest => simp [stop c rfl]
  rw [List.takeWhile_append_of_pos digit, List.dropWhile_append_of_pos digit, none.1, none.2]
  exact ⟨List.append_nil _, rfl⟩

theorem Digits.not_empty (ds : Digits) : ds.text.isEmpty = false := by
  obtain ⟨d, text, starts, -⟩ := ds.cons
  rw [starts]
  rfl

theorem Digits.all (ds : Digits) : ds.text.all Char.isDigit = true :=
  List.all_eq_true.mpr ds.digit

theorem exponentOf_text (exponent : Option Exponent) :
    exponentOf (exponent.elim [] Exponent.text) = some (exponent.elim 0 Exponent.value) := by
  cases exponent with
  | none => rfl
  | some e =>
    obtain ⟨upper, sign, ds⟩ := e
    have mark : ((if upper then 'E' else 'e') == 'e' || (if upper then 'E' else 'e') == 'E')
        = true := by
      cases upper <;> rfl
    obtain ⟨d, text, starts, digit⟩ := ds.cons
    have notMinus : d ≠ '-' := by
      rintro rfl
      exact absurd digit (by decide)
    have notPlus : d ≠ '+' := by
      rintro rfl
      exact absurd digit (by decide)
    cases sign with
    | plus => simp [Exponent.text, Exponent.value, exponentOf, mark, Sign.text, ds.not_empty, ds.all]
    | minus => simp [Exponent.text, Exponent.value, exponentOf, mark, Sign.text, ds.not_empty, ds.all]
    | unsigned =>
      have all := ds.all
      rw [starts] at all
      simp only [Exponent.text, Exponent.value, Sign.text, Option.elim, starts, List.cons_append,
        List.nil_append, exponentOf, mark, List.head?_cons, Option.some.injEq, notMinus, notPlus,
        ↓reduceIte]
      simpa using all

theorem unsignedDecimal_text (whole : Digits) (fraction : Option Digits)
    (exponent : Option Exponent) :
    unsignedDecimal (whole.text ++ (fraction.elim [] (fun d => '.' :: d.text) ++
      exponent.elim [] Exponent.text))
      = some (scale (digitsValue (whole.text ++ fraction.elim [] Digits.text))
        (exponent.elim 0 Exponent.value - (fraction.elim [] Digits.text).length)) := by
  have ending : EndsDigits (exponent.elim [] Exponent.text) := by
    have stop := exponent_stop exponent [] (fun c head => by simp at head)
    rwa [List.append_nil] at stop
  have wholeParts := takeWhile_digits whole.text _ whole.digit (fraction_stop fraction _ ending)
  unfold unsignedDecimal
  simp only [wholeParts.1, wholeParts.2]
  obtain ⟨d, text, starts, -⟩ := whole.cons
  cases fraction with
  | none =>
    have noDot : ¬ (exponent.elim [] Exponent.text).head? = some '.' :=
      fun head => (ending '.' head).2 rfl
    simp [noDot, starts, exponentOf_text]
  | some ds =>
    have parts := takeWhile_digits ds.text _ ds.digit (fun c head => (ending c head).1)
    simp [parts.1, parts.2, starts, exponentOf_text]

theorem decimal_text (n : Numeral) : decimal n.text = some n.value := by
  obtain ⟨negative, whole, fraction, exponent⟩ := n
  have read := unsignedDecimal_text whole fraction exponent
  obtain ⟨d, text, starts, digit⟩ := whole.cons
  cases negative with
  | true =>
    simp [Numeral.text, Numeral.value, Numeral.fractionText, Numeral.fractionDigits,
      Numeral.exponentText, decimal, read]
  | false =>
    have notMinus : d ≠ '-' := by
      rintro rfl
      exact absurd digit (by decide)
    have notPlus : d ≠ '+' := by
      rintro rfl
      exact absurd digit (by decide)
    have plain : ∀ rest, decimal (d :: rest) = unsignedDecimal (d :: rest) := by
      intro rest
      unfold decimal
      split
      · simp_all
      · simp_all
      · rfl
    rw [starts, List.cons_append] at read
    simp [Numeral.text, Numeral.value, Numeral.fractionText, Numeral.fractionDigits,
      Numeral.exponentText, starts, plain, read]

def Numeral.ofNat (n : Nat) : Numeral where
  negative := false
  whole := ⟨Nat.toDigits 10 n, Nat.toDigits_ne_nil,
    fun _ inside => Nat.isDigit_of_mem_toDigits (by decide) (by decide) inside⟩
  fraction := none
  exponent := none

theorem Numeral.text_ofNat (n : Nat) : (Numeral.ofNat n).text = Nat.toDigits 10 n := by
  simp [Numeral.ofNat, Numeral.text, Numeral.fractionText, Numeral.exponentText]

theorem Numeral.value_ofNat (n : Nat) : (Numeral.ofNat n).value = n := by
  simp [Numeral.ofNat, Numeral.value, Numeral.fractionDigits, digitsValue, scale,
    Nat.ofDigitChars_ten_toDigits]

end Numbers

end StatGuardian.Core.Rendering
