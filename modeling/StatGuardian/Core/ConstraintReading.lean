import StatGuardian.Core.Tokens

namespace StatGuardian.Core.Rendering

open Grammar Core.Parser Peg

namespace WrittenConstraint

def quotedPair (q : Quoted) : Pair Rule := .mk .stringLiteral q.text []
def numberPair (n : Numeral) : Pair Rule := .mk .number n.text []
def identifierPair (name : Identifier) : Pair Rule := .mk .identifier name.text []

def innerPair (c : WrittenConstraint) : Pair Rule :=
  match c with
  | notNull => .mk .notNull c.text []
  | unique => .mk .unique c.text []
  | positive => .mk .positive c.text []
  | negative => .mk .negative c.text []
  | primaryKey => .mk .primaryKey c.text []
  | coerce => .mk .coerceConstraint c.text []
  | regex pattern => .mk .regexConstraint c.text [quotedPair pattern]
  | between lo hi => .mk .betweenConstraint c.text [numberPair lo, numberPair hi]
  | min value => .mk .minConstraint c.text [numberPair value]
  | max value => .mk .maxConstraint c.text [numberPair value]
  | len lo hi =>
    .mk .lenConstraint c.text [numberPair (Numeral.ofNat lo), numberPair (Numeral.ofNat hi)]
  | enum first rest => .mk .enumConstraint c.text (quotedPair first :: rest.map quotedPair)
  | foreignKey table column =>
    .mk .foreignKey c.text [identifierPair table, identifierPair column]

def pair (c : WrittenConstraint) : Pair Rule := .mk .constraint c.text [c.innerPair]

variable (F : Type) [Float64 F]

def reading (c : WrittenConstraint) : Constraint F :=
  match c with
  | len lo hi =>
    .len (Float64.toUsize (Float64.ofNat lo : F)) (Float64.toUsize (Float64.ofNat hi : F))
  | _ => c.value F

theorem reading_eq_value_iff (c : WrittenConstraint) : c.reading F = c.value F ↔ c.Exact F := by
  cases c <;> simp [reading, value, Exact]

end WrittenConstraint

section Pairs

variable {F : Type} [Float64 F]

theorem number_numeral (n : Numeral) :
    Core.Parser.number (WrittenConstraint.numberPair n) = .ok (Float64.ofRat n.value : F) := by
  simp [Core.Parser.number, WrittenConstraint.numberPair, Pair.text, parseF64, decimal_text, unwrap]

theorem number_nat (n : Nat) : Core.Parser.number (WrittenConstraint.numberPair (.ofNat n))
    = .ok (Float64.ofNat n : F) := by
  rw [number_numeral, Numeral.value_ofNat]
  rfl

theorem unquote_pair (q : Quoted) : unquote (WrittenConstraint.quotedPair q).text = q.value :=
  unquote_text q

theorem parseConstraint_pair (c : WrittenConstraint) :
    parseConstraint c.pair = .ok (c.reading F) := by
  cases c with
  | regex pattern =>
    simp only [parseConstraint, WrittenConstraint.pair, WrittenConstraint.innerPair, Pair.inner,
      next, bind, Except.bind, Pair.rule, unquote_pair]
    rfl
  | between lo hi =>
    simp only [parseConstraint, WrittenConstraint.pair, WrittenConstraint.innerPair, Pair.inner,
      next, bind, Except.bind, Pair.rule, number_numeral]
    rfl
  | min value =>
    simp only [parseConstraint, WrittenConstraint.pair, WrittenConstraint.innerPair, Pair.inner,
      next, bind, Except.bind, Pair.rule, number_numeral]
    rfl
  | max value =>
    simp only [parseConstraint, WrittenConstraint.pair, WrittenConstraint.innerPair, Pair.inner,
      next, bind, Except.bind, Pair.rule, number_numeral]
    rfl
  | len lo hi =>
    simp only [parseConstraint, WrittenConstraint.pair, WrittenConstraint.innerPair, Pair.inner,
      next, bind, Except.bind, Pair.rule, number_nat]
    rfl
  | enum first rest =>
    simp [parseConstraint, WrittenConstraint.pair, WrittenConstraint.innerPair, Pair.inner,
      next, bind, Except.bind, Pair.rule, unquote_pair, pure, Except.pure,
      WrittenConstraint.reading, WrittenConstraint.value]
  | _ => rfl

end Pairs

section Alternatives

/-- The alternatives of `constraint`, each with the text it starts with. -/
def alternatives : List (String × Matcher) :=
  [("between(", betweenConstraint), ("enum=[", enumConstraint), ("len(", lenConstraint),
    ("regex=", regexConstraint), ("min=", minConstraint), ("max=", maxConstraint),
    ("coerce", coerceConstraint), ("not_null", notNull), ("unique", unique),
    ("positive", positive), ("negative", negative), ("primary_key", primaryKey),
    ("foreign_key(", foreignKey)]

theorem constraint_eq : constraint = rule .constraint (choice (alternatives.map Prod.snd)) := rfl

theorem alternatives_keyed :
    ∀ a ∈ alternatives, ∀ s, lit (R := Rule) a.1 s = none → a.2 s = none := by
  intro a member s refused
  simp only [alternatives, List.mem_cons, List.not_mem_nil, or_false] at member
  rcases member with rfl | rfl | rfl | rfl | rfl | rfl | rfl | rfl | rfl | rfl | rfl | rfl | rfl
  all_goals first
    | exact rule_none _ refused
    | exact rule_none _ (sequence_none refused)

theorem alternatives_distinct : alternatives.Pairwise (fun a b =>
    ¬ a.1.toList <+: b.1.toList ∧ ¬ b.1.toList <+: a.1.toList) := by
  have keys : (alternatives.map Prod.fst).Pairwise (fun a b =>
      ¬ a.toList <+: b.toList ∧ ¬ b.toList <+: a.toList) := by
    decide +kernel
  exact List.pairwise_map.mp keys

theorem constraint_of_alternative {keyword : String} {p : Matcher} {s : List Char} {inner : Pair Rule}
    (text : List Char) (member : (keyword, p) ∈ alternatives)
    (starts : keyword.toList <+: text ++ s) (reads : p (text ++ s) = some ([inner], s)) :
    constraint (text ++ s) = some ([.mk .constraint text [inner]], s) := by
  rw [constraint_eq]
  refine rule_some _ text ?_
  exact choice_keyed alternatives_keyed alternatives_distinct member starts reads

end Alternatives

section Arguments

theorem skip_digits (ds : Digits) (s : List Char) : skip (ds.text ++ s) = ds.text ++ s := by
  obtain ⟨d, text, starts, digit⟩ := ds.cons
  rw [starts, List.cons_append]
  exact skip_word _ _ (isWordChar_of_isDigit digit)

theorem skip_numeral (n : Numeral) (s : List Char) : skip (n.text ++ s) = n.text ++ s := by
  obtain ⟨negative, whole, fraction, exponent⟩ := n
  cases negative with
  | true => exact skip_solid '-' _ rfl (by decide)
  | false =>
    simp only [Numeral.text, Bool.false_eq_true, ↓reduceIte, List.nil_append, List.append_assoc]
    exact skip_digits whole _

theorem skip_identifier (name : Identifier) (s : List Char) :
    skip (name.text ++ s) = name.text ++ s :=
  skip_word _ _ (isWordChar_of_isAlpha name.alpha)

theorem skip_quoted (q : Quoted) (s : List Char) : skip (q.text ++ s) = q.text ++ s :=
  skip_solid '"' _ rfl (by decide)

theorem skip_comma (s : List Char) : skip (", ".toList ++ s) = ",".toList ++ (' ' :: s) :=
  skip_solid ',' _ rfl (by decide)

theorem ends_comma (s : List Char) : Ends (", ".toList ++ s) := ends_cons _ rfl (by decide)

theorem ends_paren (s : List Char) : Ends (")".toList ++ s) := ends_cons _ rfl (by decide)

theorem range_reads (keyword : String) (lo hi : Numeral) (s : List Char) :
    phrase [lit keyword, number, lit ",", number, lit ")"]
      (keyword.toList ++ (lo.text ++ (", ".toList ++ (hi.text ++ (")".toList ++ s)))))
      = some ([WrittenConstraint.numberPair lo, WrittenConstraint.numberPair hi], s) := by
  refine sequence_cons (by simp) (lit_append keyword _) ?_
  rw [skip_numeral]
  refine sequence_cons (by simp) (number_reads lo _ (ends_comma _)) ?_
  rw [skip_comma]
  refine sequence_cons (by simp) (lit_append "," _) ?_
  rw [skip_space ' ' _ rfl, skip_numeral]
  refine sequence_cons (by simp) (number_reads hi _ (ends_paren _)) ?_
  rw [show ")".toList = [')'] from rfl, List.cons_append, skip_solid ')' _ rfl (by decide)]
  exact lit_append ")" s

theorem bound_reads (keyword : String) (n : Numeral) (s : List Char) (stop : Ends s) :
    phrase [lit keyword, number] (keyword.toList ++ (n.text ++ s))
      = some ([WrittenConstraint.numberPair n], s) := by
  refine sequence_cons (by simp) (lit_append keyword _) ?_
  rw [skip_numeral]
  exact number_reads n s stop

theorem regex_reads (q : Quoted) (s : List Char) :
    phrase [lit "regex=", stringLiteral] ("regex=".toList ++ (q.text ++ s))
      = some ([WrittenConstraint.quotedPair q], s) := by
  refine sequence_cons (by simp) (lit_append "regex=" _) ?_
  rw [skip_quoted]
  exact stringLiteral_reads q s

theorem foreignKey_reads (table column : Identifier) (s : List Char) :
    phrase [lit "foreign_key(", identifier, lit ".", identifier, lit ")"]
      ("foreign_key(".toList ++ (table.text ++ (".".toList ++ (column.text ++ (")".toList ++ s)))))
      = some ([WrittenConstraint.identifierPair table, WrittenConstraint.identifierPair column], s)
    := by
  refine sequence_cons (by simp) (lit_append "foreign_key(" _) ?_
  rw [skip_identifier]
  refine sequence_cons (by simp) (identifier_reads table _ ?_) ?_
  · intro c head
    obtain rfl : '.' = c := by simpa using head
    rfl
  rw [show ".".toList = ['.'] from rfl, List.cons_append, skip_solid '.' _ rfl (by decide)]
  refine sequence_cons (by simp) (lit_append "." _) ?_
  rw [skip_identifier]
  refine sequence_cons (by simp) (identifier_reads column _ ?_) ?_
  · intro c head
    obtain rfl : ')' = c := by simpa using head
    rfl
  rw [show ")".toList = [')'] from rfl, List.cons_append, skip_solid ')' _ rfl (by decide)]
  exact lit_append ")" s

def itemText (q : Quoted) : List Char := ", ".toList ++ q.text

theorem item_reads (q : Quoted) (s : List Char) :
    phrase [lit ",", stringLiteral] (itemText q ++ s)
      = some ([WrittenConstraint.quotedPair q], s) := by
  have comma : lit (R := Rule) "," (itemText q ++ s) = some ([], ' ' :: (q.text ++ s)) :=
    lit_append "," _
  refine sequence_cons (by simp) comma ?_
  rw [skip_space ' ' _ rfl, skip_quoted]
  exact stringLiteral_reads q s

theorem enum_reads (first : Quoted) (others : List Quoted) (s : List Char) :
    phrase [lit "enum=[", stringLiteral, zeroOrMore (phrase [lit ",", stringLiteral]), lit "]"]
      ("enum=[".toList ++ (first.text ++ (others.flatMap itemText ++ ("]".toList ++ s))))
      = some ((first :: others).map WrittenConstraint.quotedPair, s) := by
  have close : skip ("]".toList ++ s) = "]".toList ++ s := skip_solid ']' _ rfl (by decide)
  have refused : phrase [lit ",", stringLiteral] (skip ("]".toList ++ s)) = none := by
    rw [close]
    exact sequence_none rfl
  obtain ⟨rest, items, left⟩ := repeated_items skip itemText
    (fun q => [WrittenConstraint.quotedPair q]) (fun _ => True) others ("]".toList ++ s)
    (fun _ => List.cons_ne_nil _ _) (fun _ _ => trivial) trivial
    (fun _ _ => skip_solid ',' _ rfl (by decide)) (fun q s _ => item_reads q s)
    (by rw [close, close]) (fun as s' found => by rw [refused] at found; cases found)
    (star_stop refused)
  have shape : (first :: others).map WrittenConstraint.quotedPair =
      [] ++ ([WrittenConstraint.quotedPair first] ++
        (others.flatMap (fun q => [WrittenConstraint.quotedPair q]) ++ [] ++ [])) := by
    simp [List.map_eq_flatMap]
  rw [shape]
  refine sequence_cons (by simp) (lit_append "enum=[" _) ?_
  rw [skip_quoted]
  refine sequence_cons (by simp) (stringLiteral_reads first _) ?_
  refine sequence_cons (by simp) items ?_
  rw [left, close]
  exact lit_append "]" s

def EndsConstraint (s : List Char) : Prop := s.head? = some ',' ∨ s.head? = some '\n'

theorem ends_of_endsConstraint {s : List Char} (ending : EndsConstraint s) : Ends s := by
  intro c head
  rcases ending with comma | newline
  · obtain rfl : ',' = c := by simpa [comma] using head
    decide
  · obtain rfl : '\n' = c := by simpa [newline] using head
    decide

theorem argument_reads (c : WrittenConstraint) (keyword : String) (m p : Matcher) (r : Rule)
    (argument s : List Char) (inner : List (Pair Rule))
    (text : c.text = keyword.toList ++ argument) (pair : c.innerPair = .mk r c.text inner)
    (member : (keyword, m) ∈ alternatives) (matcher : m = rule r p)
    (reads : p (keyword.toList ++ (argument ++ s)) = some (inner, s)) :
    constraint (c.text ++ s) = some ([c.pair], s) := by
  refine constraint_of_alternative c.text member ?_ ?_
  · rw [text, List.append_assoc]
    exact List.prefix_append _ _
  rw [pair, matcher]
  refine rule_some r c.text ?_
  rw [text, List.append_assoc]
  exact reads

theorem bare_reads (c : WrittenConstraint) (keyword : String) (m : Matcher) (r : Rule)
    (s : List Char) (text : c.text = keyword.toList) (pair : c.innerPair = .mk r c.text [])
    (member : (keyword, m) ∈ alternatives) (matcher : m = rule r (lit keyword)) :
    constraint (c.text ++ s) = some ([c.pair], s) :=
  argument_reads c keyword m (lit keyword) r [] s [] (by rw [text, List.append_nil]) pair member
    matcher (lit_append keyword s)

theorem notNull_reads (s : List Char) :
    constraint (WrittenConstraint.notNull.text ++ s) = some ([WrittenConstraint.notNull.pair], s) :=
  bare_reads _ "not_null" notNull .notNull s rfl rfl (by simp [alternatives]) rfl

theorem unique_reads (s : List Char) :
    constraint (WrittenConstraint.unique.text ++ s) = some ([WrittenConstraint.unique.pair], s) :=
  bare_reads _ "unique" unique .unique s rfl rfl (by simp [alternatives]) rfl

theorem positive_reads (s : List Char) : constraint (WrittenConstraint.positive.text ++ s)
    = some ([WrittenConstraint.positive.pair], s) :=
  bare_reads _ "positive" positive .positive s rfl rfl (by simp [alternatives]) rfl

theorem negative_reads (s : List Char) : constraint (WrittenConstraint.negative.text ++ s)
    = some ([WrittenConstraint.negative.pair], s) :=
  bare_reads _ "negative" negative .negative s rfl rfl (by simp [alternatives]) rfl

theorem primaryKey_reads (s : List Char) : constraint (WrittenConstraint.primaryKey.text ++ s)
    = some ([WrittenConstraint.primaryKey.pair], s) :=
  bare_reads _ "primary_key" primaryKey .primaryKey s rfl rfl (by simp [alternatives]) rfl

theorem coerce_reads (s : List Char) :
    constraint (WrittenConstraint.coerce.text ++ s) = some ([WrittenConstraint.coerce.pair], s) :=
  bare_reads _ "coerce" coerceConstraint .coerceConstraint s rfl rfl (by simp [alternatives]) rfl

theorem constraint_reads (c : WrittenConstraint) (s : List Char) (ending : EndsConstraint s) :
    constraint (c.text ++ s) = some ([c.pair], s) := by
  have stop := ends_of_endsConstraint ending
  cases c with
  | notNull => exact notNull_reads s
  | unique => exact unique_reads s
  | positive => exact positive_reads s
  | negative => exact negative_reads s
  | primaryKey => exact primaryKey_reads s
  | coerce => exact coerce_reads s
  | regex pattern =>
    exact argument_reads _ "regex=" regexConstraint _ .regexConstraint _ s _ rfl rfl
      (by simp [alternatives]) rfl (regex_reads pattern s)
  | between lo hi =>
    refine argument_reads _ "between(" betweenConstraint _ .betweenConstraint _ s _ rfl rfl
      (by simp [alternatives]) rfl ?_
    simpa using range_reads "between(" lo hi s
  | min value =>
    exact argument_reads _ "min=" minConstraint _ .minConstraint _ s _ rfl rfl
      (by simp [alternatives]) rfl (bound_reads "min=" value s stop)
  | max value =>
    exact argument_reads _ "max=" maxConstraint _ .maxConstraint _ s _ rfl rfl
      (by simp [alternatives]) rfl (bound_reads "max=" value s stop)
  | len lo hi =>
    refine argument_reads _ "len(" lenConstraint _ .lenConstraint _ s _ rfl rfl
      (by simp [alternatives]) rfl ?_
    simpa [Numeral.text_ofNat] using range_reads "len(" (.ofNat lo) (.ofNat hi) s
  | enum first rest =>
    refine argument_reads _ "enum=[" enumConstraint _ .enumConstraint _ s _ rfl rfl
      (by simp [alternatives]) rfl ?_
    have reads := enum_reads first rest s
    rw [show itemText = fun q => ", ".toList ++ q.text from rfl] at reads
    simpa using reads
  | foreignKey table column =>
    refine argument_reads _ "foreign_key(" foreignKey _ .foreignKey _ s _ rfl rfl
      (by simp [alternatives]) rfl ?_
    simpa using foreignKey_reads table column s

end Arguments

end StatGuardian.Core.Rendering
