import StatGuardian.Core.ConstraintReading
import StatGuardian.Library.Results

namespace StatGuardian.Core.Rendering

open Grammar Core.Parser Peg

section Names

theorem keyword_in_name (name : Identifier) (keyword : String) (rest : List Char)
    (noColon : ':' ∉ keyword.toList)
    (starts : keyword.toList <+: name.text ++ (": ".toList ++ rest)) :
    keyword.toList <+: name.text := by
  have colon : name.text ++ [':'] <+: name.text ++ (": ".toList ++ rest) :=
    (List.prefix_append_right_inj _).mpr ⟨' ' :: rest, rfl⟩
  rcases List.prefix_or_prefix_of_prefix starts colon with shorter | longer
  · rcases List.prefix_concat_iff.mp shorter with same | inside
    · exact absurd (same ▸ List.mem_append_right _ List.mem_cons_self) noColon
    · exact inside
  · exact absurd (longer.subset (List.mem_append_right _ List.mem_cons_self)) noColon

theorem Identifier.word_text (name : Identifier) : ∀ c ∈ name.text, isWordChar c = true := by
  intro c inside
  rcases List.mem_cons.mp inside with rfl | inside
  · exact isWordChar_of_isAlpha name.alpha
  · exact name.word c inside

theorem keywords_plain :
    ∀ keyword ∈ alternatives.map Prod.fst, ':' ∉ keyword.toList ∧
      (keyword.toList.all isWordChar = true → keyword ∈ bareKeywords) := by
  decide +kernel

theorem constraint_refuses_name (name : Identifier) (rest : List Char)
    (other : ¬ StartsWithKeyword name) :
    constraint (name.text ++ (": ".toList ++ rest)) = none := by
  refine rule_none _ (choice_keyed_none alternatives_keyed ?_)
  intro a member starts
  obtain ⟨noColon, bare⟩ := keywords_plain a.1 (List.mem_map_of_mem member)
  have inside := keyword_in_name name a.1 rest noColon starts
  refine other ⟨a.1, bare (List.all_eq_true.mpr ?_), inside⟩
  exact fun c found => name.word_text c (inside.subset found)

theorem bareKeywords_read (keyword : String) (member : keyword ∈ bareKeywords) :
    ∃ c : WrittenConstraint, c.text = keyword.toList ∧
      ∀ s, constraint (c.text ++ s) = some ([c.pair], s) := by
  simp only [bareKeywords, List.mem_cons, List.not_mem_nil, or_false] at member
  rcases member with rfl | rfl | rfl | rfl | rfl | rfl
  · exact ⟨.coerce, rfl, coerce_reads⟩
  · exact ⟨.notNull, rfl, notNull_reads⟩
  · exact ⟨.unique, rfl, unique_reads⟩
  · exact ⟨.positive, rfl, positive_reads⟩
  · exact ⟨.negative, rfl, negative_reads⟩
  · exact ⟨.primaryKey, rfl, primaryKey_reads⟩

theorem constraint_takes_keyword (name : Identifier) (starts : StartsWithKeyword name) :
    ∃ (c : WrittenConstraint) (word : List Char), name.text = c.text ++ word ∧
      ∀ s, constraint (name.text ++ s) = some ([c.pair], word ++ s) := by
  obtain ⟨keyword, member, word, split⟩ := starts
  obtain ⟨c, text, reads⟩ := bareKeywords_read keyword member
  refine ⟨c, word, by rw [text, split], fun s => ?_⟩
  rw [← split, ← text, List.append_assoc]
  exact reads _

end Names

section Following

def Following (s : List Char) : Prop := ∃ c t, s = c :: t ∧ (c.isAlpha = true ∨ c = '}')

theorem following_field (name : Identifier) (s : List Char) : Following (name.text ++ s) :=
  ⟨name.first, name.rest ++ s, rfl, .inl name.alpha⟩

theorem skip_following {s : List Char} (next : Following s) : skip s = s := by
  obtain ⟨c, t, rfl, alpha | rfl⟩ := next
  · exact skip_word _ _ (isWordChar_of_isAlpha alpha)
  · exact skip_solid '}' _ rfl (by decide)

theorem comma_following {s : List Char} (next : Following s) : lit (R := Rule) "," s = none := by
  refine lit_refuses ',' s (fun d head => ?_)
  obtain ⟨c, t, rfl, alpha | rfl⟩ := next
  · obtain rfl : c = d := by simpa using head
    rintro rfl
    revert alpha
    decide
  · obtain rfl : '}' = d := by simpa using head
    decide

end Following

namespace WrittenField

def pairs (field : WrittenField) (extra : List WrittenConstraint) : List (Pair Rule) :=
  WrittenConstraint.identifierPair field.name :: .mk .dataType (typeText field.dataType) [] ::
    (field.constraints ++ extra).map WrittenConstraint.pair

variable (F : Type) [Float64 F]

def reading (field : WrittenField) (extra : List WrittenConstraint) : FieldDef F where
  name := field.name.value
  dataType := field.dataType
  constraints := (field.constraints ++ extra).map (WrittenConstraint.reading F)

theorem reading_eq_value_iff (field : WrittenField) :
    field.reading F [] = field.value F ↔ ∀ c ∈ field.constraints, c.Exact F := by
  simp only [reading, value, FieldDef.mk.injEq, true_and, List.append_nil]
  rw [List.map_inj_left]
  exact forall₂_congr (fun c _ => WrittenConstraint.reading_eq_value_iff F c)

theorem reading_extra (field : WrittenField) (c : WrittenConstraint) :
    field.reading F [c] ≠ field.value F := by
  intro same
  have lengths := congrArg (fun f => f.constraints.length) same
  simp [reading, value] at lengths

end WrittenField

section Fields

variable {F : Type} [Float64 F]

theorem parseDataType_text (type : DataType) (inner : List (Pair Rule)) :
    parseDataType (.mk .dataType (typeText type) inner) = .ok type := by
  cases type <;> rfl

theorem parseField_pairs (field : WrittenField) (extra : List WrittenConstraint)
    (text : List Char) :
    parseField (.mk .fieldDef text (field.pairs extra)) = .ok (field.reading F extra) := by
  have kept : ((field.constraints ++ extra).map WrittenConstraint.pair).filter
      (fun c => c.rule == .constraint) = (field.constraints ++ extra).map WrittenConstraint.pair := by
    rw [List.filter_eq_self]
    intro pair member
    obtain ⟨c, -, rfl⟩ := List.mem_map.mp member
    rfl
  have constraints : ((field.constraints ++ extra).map WrittenConstraint.pair).mapM
      (parseConstraint (F := F))
      = .ok ((field.constraints ++ extra).map (WrittenConstraint.reading F)) := by
    rw [Results.mapM_ok_iff, List.forall₂_map_left_iff, List.forall₂_map_right_iff,
      List.forall₂_same]
    exact fun c _ => parseConstraint_pair c
  simp only [parseField, Pair.inner, WrittenField.pairs, next, bind, Except.bind,
    parseDataType_text, kept, constraints]
  rfl

theorem dataType_reads (type : DataType) (s : List Char) (ending : EndsConstraint s) :
    dataType (typeText type ++ s) = some ([.mk .dataType (typeText type) []], s) := by
  refine rule_some Rule.dataType (typeText type) ?_
  cases s with
  | nil => rcases ending with comma | newline <;> contradiction
  | cons c s =>
    rcases ending with comma | newline
    · obtain rfl : c = ',' := by simpa using comma
      cases type <;> rfl
    · obtain rfl : c = '\n' := by simpa using newline
      cases type <;> rfl

def constraintRound : Matcher := phrase [lit ",", constraint]

theorem fieldDef_eq : fieldDef =
    rule .fieldDef (phrase [identifier, lit ":", dataType, zeroOrMore constraintRound,
      optional (lit ",")]) := rfl

theorem round_reads (c : WrittenConstraint) (s : List Char) (ending : EndsConstraint s) :
    constraintRound (", ".toList ++ c.text ++ s) = some ([c.pair], s) := by
  have comma : lit (R := Rule) "," (", ".toList ++ c.text ++ s) = some ([], ' ' :: (c.text ++ s)) :=
    lit_append "," _
  have solid : skip (c.text ++ s) = c.text ++ s := by
    cases c <;> exact skip_solid _ _ rfl (by decide)
  refine sequence_cons (by simp) comma ?_
  rw [skip_space ' ' _ rfl, solid]
  exact constraint_reads c s ending

theorem ending_endsConstraint (field : WrittenField) (s : List Char) :
    EndsConstraint (field.ending ++ s) := by
  unfold WrittenField.ending
  split
  · exact .inl rfl
  · exact .inr rfl

theorem skip_ending (field : WrittenField) {s : List Char} (next : Following s) :
    skip (field.ending ++ s) = if field.trailingComma then ',' :: '\n' :: s else s := by
  unfold WrittenField.ending
  split
  · exact skip_solid ',' _ rfl (by decide)
  · exact (skip_newline s).trans (skip_following next)

theorem fieldDef_reads (field : WrittenField) (s rest final : List Char)
    (extra : List WrittenConstraint) (next : Following s)
    (shorter : ∀ as s', constraintRound (skip (field.ending ++ s)) = some (as, s') →
      s'.length < (field.ending ++ s).length)
    (rounds : star (after skip constraintRound) (field.ending ++ s)
      = some (extra.map WrittenConstraint.pair, rest))
    (last : optional (R := Rule) (lit ",") (skip rest) = some ([], final)) :
    ∃ text, fieldDef (field.text ++ s) = some ([.mk .fieldDef text (field.pairs extra)], final) := by
  have again : skip (skip (field.ending ++ s)) = skip (field.ending ++ s) := by
    rw [skip_ending field next]
    split
    · exact skip_solid ',' _ rfl (by decide)
    · exact skip_following next
  obtain ⟨rest', items, left⟩ := repeated_items skip (fun c => ", ".toList ++ c.text)
    (fun c => [WrittenConstraint.pair c]) EndsConstraint field.constraints (field.ending ++ s)
    (fun _ => List.cons_ne_nil _ _) (fun _ _ => .inl rfl) (ending_endsConstraint field s)
    (fun _ _ => skip_solid ',' _ rfl (by decide)) round_reads again shorter rounds
  have comma : ∀ c s, EndsConstraint (", ".toList ++ WrittenConstraint.text c ++ s) :=
    fun _ _ => .inl rfl
  have ends : EndsConstraint (WrittenField.constraintsText field.constraints ++
      (field.ending ++ s)) :=
    follows_items comma field.constraints (ending_endsConstraint field s)
  have colon : skip (": ".toList ++ (typeText field.dataType ++
      (WrittenField.constraintsText field.constraints ++ (field.ending ++ s))))
      = ":".toList ++ (' ' :: (typeText field.dataType ++
        (WrittenField.constraintsText field.constraints ++ (field.ending ++ s)))) :=
    skip_solid ':' _ rfl (by decide)
  have word : skip (' ' :: (typeText field.dataType ++
      (WrittenField.constraintsText field.constraints ++ (field.ending ++ s))))
      = typeText field.dataType ++
        (WrittenField.constraintsText field.constraints ++ (field.ending ++ s)) := by
    rw [skip_space ' ' _ rfl]
    cases field.dataType <;> exact skip_solid _ _ rfl (by decide)
  have text : field.text ++ s = field.name.text ++ (": ".toList ++ (typeText field.dataType ++
      (WrittenField.constraintsText field.constraints ++ (field.ending ++ s)))) := by
    simp [WrittenField.text]
  have shape : field.pairs extra = [WrittenConstraint.identifierPair field.name] ++ ([] ++
      ([.mk .dataType (typeText field.dataType) []] ++
        (field.constraints.flatMap (fun c => [c.pair]) ++ extra.map WrittenConstraint.pair ++
          []))) := by
    simp [WrittenField.pairs, List.map_eq_flatMap]
  rw [fieldDef_eq]
  refine rule_reads Rule.fieldDef ?_
  rw [shape, text]
  refine sequence_cons (by simp) (identifier_reads field.name _ ?_) ?_
  · intro c head
    obtain rfl : ':' = c := by simpa using head
    rfl
  rw [colon]
  refine sequence_cons (by simp) (lit_append ":" _) ?_
  rw [word]
  refine sequence_cons (by simp) (dataType_reads field.dataType _ ends) ?_
  refine sequence_cons (by simp) items ?_
  rw [left]
  exact last

theorem fieldDef_whole (field : WrittenField) (s : List Char) (next : Following s)
    (safe : field.trailingComma = true → constraint s = none) :
    ∃ text final, fieldDef (field.text ++ s) = some ([.mk .fieldDef text (field.pairs [])], final) ∧
      (final = s ∨ final = '\n' :: s) := by
  have refused : constraintRound (skip (field.ending ++ s)) = none := by
    rw [skip_ending field next]
    split
    case isTrue comma =>
      refine sequence_none_right (by simp) (lit_append "," ('\n' :: s)) ?_
      rw [skip_newline, skip_following next]
      exact safe comma
    case isFalse => exact sequence_none (comma_following next)
  have shorter : ∀ as s', constraintRound (skip (field.ending ++ s)) = some (as, s') →
      s'.length < (field.ending ++ s).length := by
    intro as s' found
    rw [refused] at found
    cases found
  have rounds : star (after skip constraintRound) (field.ending ++ s)
      = some (([] : List WrittenConstraint).map WrittenConstraint.pair, field.ending ++ s) :=
    star_stop refused
  cases comma : field.trailingComma with
  | true =>
    have last : optional (R := Rule) (lit ",") (skip (field.ending ++ s)) = some ([], '\n' :: s) := by
      rw [skip_ending field next, comma]
      exact optional_some (lit_append "," ('\n' :: s))
    obtain ⟨text, reads⟩ := fieldDef_reads field s _ _ [] next shorter rounds last
    exact ⟨text, _, reads, .inr rfl⟩
  | false =>
    have last : optional (R := Rule) (lit ",") (skip (field.ending ++ s)) = some ([], s) := by
      rw [skip_ending field next, comma]
      exact optional_none (comma_following next)
    obtain ⟨text, reads⟩ := fieldDef_reads field s _ _ [] next shorter rounds last
    exact ⟨text, _, reads, .inl rfl⟩

theorem skip_word_colon (word s : List Char) (chars : ∀ c ∈ word, isWordChar c = true) :
    skip (word ++ (": ".toList ++ s)) = word ++ (": ".toList ++ s) := by
  cases word with
  | nil => exact skip_solid ':' _ rfl (by decide)
  | cons c word => exact skip_word _ _ (chars c List.mem_cons_self)

theorem lit_word_colon (sign : Char) (word s : List Char)
    (chars : ∀ c ∈ word, isWordChar c = true) (other : isWordChar sign = false) (colon : sign ≠ ':') :
    lit (R := Rule) (String.singleton sign) (word ++ (": ".toList ++ s)) = none := by
  refine lit_refuses sign _ (fun d head => ?_)
  cases word with
  | nil =>
    obtain rfl : ':' = d := by simpa using head
    exact colon.symm
  | cons c word =>
    obtain rfl : c = d := by simpa using head
    rintro rfl
    rw [chars c List.mem_cons_self] at other
    cases other

/-- With a comma at its end, a field takes the keyword that the next name starts with. -/
theorem fieldDef_swallows (field : WrittenField) (name : Identifier) (s : List Char)
    (comma : field.trailingComma = true) (starts : StartsWithKeyword name) :
    ∃ text c word, (∀ c ∈ word, isWordChar c = true) ∧
      word.length < name.text.length ∧
      fieldDef (field.text ++ (name.text ++ (": ".toList ++ s)))
        = some ([.mk .fieldDef text (field.pairs [c])], word ++ (": ".toList ++ s)) := by
  obtain ⟨c, word, split, takes⟩ := constraint_takes_keyword name starts
  have chars : ∀ d ∈ word, isWordChar d = true := fun d inside =>
    name.word_text d (split ▸ List.mem_append_right _ inside)
  have positive : 0 < c.text.length := by
    cases c <;> exact Nat.succ_pos _
  have lengths := congrArg List.length split
  rw [List.length_append] at lengths
  have next := following_field name (": ".toList ++ s)
  have ends : field.ending ++ (name.text ++ (": ".toList ++ s))
      = ',' :: '\n' :: (name.text ++ (": ".toList ++ s)) := by
    simp [WrittenField.ending, comma]
  have round : constraintRound (',' :: '\n' :: (name.text ++ (": ".toList ++ s)))
      = some ([c.pair], word ++ (": ".toList ++ s)) := by
    refine sequence_cons (by simp) (lit_append "," ('\n' :: _)) ?_
    rw [skip_newline, skip_following next]
    exact takes _
  have skipped : skip (',' :: '\n' :: (name.text ++ (": ".toList ++ s)))
      = ',' :: '\n' :: (name.text ++ (": ".toList ++ s)) :=
    skip_solid ',' _ rfl (by decide)
  have refused : after skip constraintRound (word ++ (": ".toList ++ s)) = none := by
    rw [after, skip_word_colon word s chars]
    exact sequence_none (lit_word_colon ',' word s chars rfl (by decide))
  have rounds : star (after skip constraintRound) (field.ending ++ (name.text ++ (": ".toList ++ s)))
      = some ([c].map WrittenConstraint.pair, word ++ (": ".toList ++ s)) := by
    rw [ends]
    have first : after skip constraintRound (',' :: '\n' :: (name.text ++ (": ".toList ++ s)))
        = some ([c.pair], word ++ (": ".toList ++ s)) := by
      rw [after, skipped]
      exact round
    refine star_some first ?_ (star_stop refused)
    simp only [List.length_append, List.length_cons]
    omega
  have last : optional (R := Rule) (lit ",") (skip (word ++ (": ".toList ++ s)))
      = some ([], word ++ (": ".toList ++ s)) := by
    rw [skip_word_colon word s chars]
    exact optional_none (lit_word_colon ',' word s chars rfl (by decide))
  have shorter : ∀ as s', constraintRound
      (skip (field.ending ++ (name.text ++ (": ".toList ++ s)))) = some (as, s') →
      s'.length < (field.ending ++ (name.text ++ (": ".toList ++ s))).length := by
    intro as s' found
    rw [ends, skipped, round] at found
    obtain ⟨-, rfl⟩ : _ ∧ word ++ (": ".toList ++ s) = s' := by simpa using found
    rw [ends]
    simp only [List.length_append, List.length_cons]
    omega
  obtain ⟨text, reads⟩ := fieldDef_reads field _ _ _ [c] next shorter rounds last
  exact ⟨text, c, word, chars, by omega, reads⟩

end Fields

end StatGuardian.Core.Rendering
