import StatGuardian.Core.FieldReading
import StatGuardian.Runtime.ExtRat

namespace StatGuardian.Core.Rendering

open Grammar Core.Parser Peg

variable {F : Type} [Float64 F]

def closing : List Char := "\x7d\n\x7d\n".toList

def fieldsText (fields : List WrittenField) : List Char :=
  fields.flatMap WrittenField.text ++ closing

/-- The text that is left when `s` is next: `s`, or the end of a line before it. -/
def Leads (left s : List Char) : Prop := left = s ∨ left = '\n' :: s

section Loop

theorem fieldsText_cons (field : WrittenField) (fields : List WrittenField) :
    fieldsText (field :: fields) = field.text ++ fieldsText fields := by
  simp [fieldsText]

def typeOn (field : WrittenField) (s : List Char) : List Char :=
  typeText field.dataType ++ (WrittenField.constraintsText field.constraints ++ (field.ending ++ s))

theorem text_append (field : WrittenField) (s : List Char) :
    field.text ++ s = field.name.text ++ (": ".toList ++ typeOn field s) := by
  simp [WrittenField.text, typeOn]

theorem following_fields (fields : List WrittenField) : Following (fieldsText fields) := by
  cases fields with
  | nil => exact ⟨'}', _, rfl, .inr rfl⟩
  | cons field fields =>
    rw [fieldsText_cons, text_append]
    exact following_field field.name _

theorem skip_leads {left s : List Char} (leads : Leads left s) (next : Following s) :
    skip left = s := by
  rcases leads with rfl | rfl
  · exact skip_following next
  · exact (skip_newline s).trans (skip_following next)

theorem leads_length {left s : List Char} (leads : Leads left s) :
    s.length ≤ left.length ∧ left.length ≤ s.length + 1 := by
  rcases leads with rfl | rfl <;> simp

theorem text_length (field : WrittenField) : 2 ≤ field.text.length := by
  have colon : ": ".toList.length = 2 := rfl
  simp only [WrittenField.text, Identifier.text, List.length_append, List.length_cons]
  omega

/-- The next name starts with a keyword and a comma stands before it. -/
def Swallows (field : WrittenField) : List WrittenField → Prop
  | [] => False
  | following :: _ => field.trailingComma = true ∧ StartsWithKeyword following.name

theorem commasSafe_cons (field : WrittenField) (fields : List WrittenField) :
    CommasSafe (field :: fields) ↔ ¬ Swallows field fields ∧ CommasSafe fields := by
  cases fields with
  | nil => simp [CommasSafe, Swallows]
  | cons following fields => simp [CommasSafe, Swallows, List.isChain_cons_cons]

theorem constraint_refuses_fields (field : WrittenField) (fields : List WrittenField)
    (safe : ¬ Swallows field fields) (comma : field.trailingComma = true) :
    constraint (fieldsText fields) = none := by
  cases fields with
  | nil => rfl
  | cons following fields =>
    rw [fieldsText_cons, text_append]
    exact constraint_refuses_name following.name _ (fun starts => safe ⟨comma, starts⟩)

theorem field_round (field : WrittenField) (fields : List WrittenField) (left : List Char)
    (leads : Leads left (fieldsText (field :: fields))) (safe : ¬ Swallows field fields) :
    ∃ text final, after skip fieldDef left = some ([.mk .fieldDef text (field.pairs [])], final) ∧
      Leads final (fieldsText fields) ∧ final.length < left.length := by
  obtain ⟨text, final, reads, next⟩ := fieldDef_whole field (fieldsText fields)
    (following_fields fields) (constraint_refuses_fields field fields safe)
  refine ⟨text, final, ?_, next, ?_⟩
  · rw [after, skip_leads leads (following_fields _), fieldsText_cons]
    exact reads
  · have size := (leads_length leads).1
    have short := (leads_length next).2
    have long := text_length field
    rw [fieldsText_cons, List.length_append] at size
    omega

theorem fields_stop (left : List Char) (leads : Leads left closing) :
    star (after skip fieldDef) left = some ([], left) := by
  refine star_stop ?_
  rw [after, skip_leads leads (following_fields [])]
  rfl

theorem swallow_round (field : WrittenField) (fields : List WrittenField) (left : List Char)
    (leads : Leads left (fieldsText (field :: fields))) (swallows : Swallows field fields) :
    ∃ text c final, after skip fieldDef left = some ([.mk .fieldDef text (field.pairs [c])], final) ∧
      final.length < left.length ∧
      ((∃ renamed, renamed.length = fields.length ∧ Leads final (fieldsText renamed)) ∨
        (after skip fieldDef final = none ∧ lit (R := Rule) "\x7d" (skip final) = none)) := by
  cases fields with
  | nil => exact absurd swallows not_false
  | cons following fields =>
    obtain ⟨comma, starts⟩ := swallows
    have tail : fieldsText (following :: fields)
        = following.name.text ++ (": ".toList ++ typeOn following (fieldsText fields)) := by
      rw [fieldsText_cons, text_append]
    obtain ⟨text, c, word, chars, shorter, reads⟩ := fieldDef_swallows field following.name
      (typeOn following (fieldsText fields)) comma starts
    refine ⟨text, c, word ++ (": ".toList ++ typeOn following (fieldsText fields)), ?_, ?_, ?_⟩
    · rw [after, skip_leads leads (following_fields _), fieldsText_cons, tail]
      exact reads
    · have size := (leads_length leads).1
      rw [fieldsText_cons, tail] at size
      simp only [List.length_append] at size ⊢
      omega
    · have refuse := lit_word_colon '}' word (typeOn following (fieldsText fields)) chars rfl
        (by decide)
      have solid := skip_word_colon word (typeOn following (fieldsText fields)) chars
      cases word with
      | nil =>
        refine .inr ⟨?_, by rw [solid]; exact refuse⟩
        rw [after, solid]
        exact rule_none _ (sequence_none (identifier_refuses ':' _ rfl))
      | cons d word =>
        cases alpha : d.isAlpha with
        | true =>
          refine .inl ⟨{ following with name := ⟨d, word, alpha,
            fun e inside => chars e (List.mem_cons_of_mem _ inside)⟩ } :: fields, rfl, .inl ?_⟩
          rw [fieldsText_cons, text_append]
          rfl
        | false =>
          refine .inr ⟨?_, by rw [solid]; exact refuse⟩
          rw [after, solid]
          exact rule_none _ (sequence_none (identifier_refuses d _ alpha))

theorem fields_end (n : Nat) (fields : List WrittenField) (size : fields.length = n)
    (left : List Char) (leads : Leads left (fieldsText fields)) :
    ∃ pairs rest, star (after skip fieldDef) left = some (pairs, rest) ∧
      (Leads rest closing ∨ lit (R := Rule) "\x7d" (skip rest) = none) := by
  induction n generalizing fields left with
  | zero =>
    obtain rfl := List.length_eq_zero_iff.mp size
    exact ⟨[], left, fields_stop left leads, .inl leads⟩
  | succ n ih =>
    cases fields with
    | nil => cases size
    | cons field fields =>
      rw [List.length_cons, Nat.succ_inj] at size
      by_cases swallows : Swallows field fields
      · obtain ⟨text, c, final, first, shorter, next⟩ := swallow_round field fields left leads swallows
        rcases next with ⟨renamed, same, leads⟩ | ⟨refused, stuck⟩
        · obtain ⟨pairs, rest, more, ends⟩ := ih renamed (same.trans size) final leads
          exact ⟨_, rest, star_some first shorter more, ends⟩
        · exact ⟨_, final, star_some first shorter (star_stop refused), .inr stuck⟩
      · obtain ⟨text, final, first, next, shorter⟩ := field_round field fields left leads swallows
        obtain ⟨pairs, rest, more, ends⟩ := ih fields size final next
        exact ⟨_, rest, star_some first shorter more, ends⟩

def fieldsOf (F : Type) [Float64 F] (pairs : List (Pair Rule)) : CoreResult (List (FieldDef F)) :=
  (pairs.filter (fun field => field.rule == .fieldDef)).mapM parseField

theorem fieldsOf_cons (field : WrittenField) (extra : List WrittenConstraint) (text : List Char)
    (pairs : List (Pair Rule)) :
    fieldsOf F (.mk .fieldDef text (field.pairs extra) :: pairs)
      = (fun fields => field.reading F extra :: fields) <$> fieldsOf F pairs := by
  rw [fieldsOf, List.filter_cons_of_pos rfl, List.mapM_cons, parseField_pairs]
  rfl

/-- The loop over the fields: all of them are read as they were meant if every comma is safe and
    every length survives, and not otherwise. -/
theorem fields_read (fields : List WrittenField) (left : List Char)
    (leads : Leads left (fieldsText fields)) :
    ∃ pairs rest, star (after skip fieldDef) left = some (pairs, rest) ∧
      (Leads rest closing ∨ lit (R := Rule) "\x7d" (skip rest) = none) ∧
      (CommasSafe fields → Leads rest closing) ∧
      (fieldsOf F pairs = .ok (fields.map (WrittenField.value F)) ↔
        CommasSafe fields ∧ ∀ f ∈ fields, ∀ c ∈ f.constraints, c.Exact F) := by
  induction fields generalizing left with
  | nil =>
    refine ⟨[], left, fields_stop left leads, .inl leads, fun _ => leads, ?_⟩
    simp [fieldsOf, CommasSafe, pure, Except.pure]
  | cons field fields ih =>
    rw [commasSafe_cons]
    by_cases swallows : Swallows field fields
    · obtain ⟨pairs, rest, more, ends⟩ := fields_end _ (field :: fields) rfl left leads
      obtain ⟨text, c, final, first, shorter, -⟩ := swallow_round field fields left leads swallows
      obtain ⟨others, rest', loop⟩ := star_total (after skip fieldDef) final
      have all := star_some first shorter loop
      rw [more] at all
      simp only [Option.some.injEq, Prod.mk.injEq] at all
      obtain ⟨rfl, rfl⟩ := all
      refine ⟨_, rest, more, ends, fun safe => absurd swallows safe.1, ?_⟩
      rw [List.singleton_append, fieldsOf_cons, Results.map_ok_iff]
      constructor
      · rintro ⟨read, -, same⟩
        rw [List.map_cons, List.cons.injEq] at same
        exact absurd same.1 (field.reading_extra F c)
      · rintro ⟨⟨safe, -⟩, -⟩
        exact absurd swallows safe
    · obtain ⟨text, final, first, next, shorter⟩ := field_round field fields left leads swallows
      obtain ⟨pairs, rest, more, ends, safely, reads⟩ := ih final next
      refine ⟨_, rest, star_some first shorter more, ends, fun safe => safely safe.2, ?_⟩
      rw [List.singleton_append, fieldsOf_cons, Results.map_ok_iff, List.forall_mem_cons,
        ← field.reading_eq_value_iff F]
      constructor
      · rintro ⟨read, found, same⟩
        rw [List.map_cons, List.cons.injEq] at same
        obtain ⟨own, rfl⟩ := same
        obtain ⟨safe, survives⟩ := reads.mp found
        exact ⟨⟨swallows, safe⟩, own, survives⟩
      · rintro ⟨⟨-, safe⟩, own, survives⟩
        exact ⟨_, reads.mpr ⟨safe, survives⟩, by rw [own, List.map_cons]⟩

end Loop

section Document

def sectionText (fields : List WrittenField) : List Char :=
  "schema \x7b\n".toList ++ fieldsText fields

theorem opening_split : " \x7b\nschema \x7b\n".toList = " \x7b\n".toList ++ "schema \x7b\n".toList := by
  decide

theorem schemaChars_eq (dataset : Identifier) (fields : List WrittenField) :
    schemaChars dataset fields
      = "dataset ".toList ++ (dataset.text ++ (" \x7b\n".toList ++ sectionText fields)) := by
  unfold schemaChars
  rw [opening_split, List.append_assoc " \x7b\n".toList]
  rfl

theorem field_shorter (fields : List WrittenField) (left : List Char)
    (leads : Leads left (fieldsText fields)) (as : List (Pair Rule)) (s' : List Char)
    (found : after skip fieldDef left = some (as, s')) : s'.length < left.length := by
  cases fields with
  | nil =>
    rw [after, skip_leads leads (following_fields [])] at found
    cases found
  | cons field fields =>
    by_cases swallows : Swallows field fields
    · obtain ⟨text, c, final, first, shorter, -⟩ := swallow_round field fields left leads swallows
      rw [found] at first
      obtain ⟨-, rfl⟩ : _ ∧ s' = final := by simpa using first
      exact shorter
    · obtain ⟨text, final, first, -, shorter⟩ := field_round field fields left leads swallows
      rw [found] at first
      obtain ⟨-, rfl⟩ : _ ∧ s' = final := by simpa using first
      exact shorter

theorem schemaSection_reads (fields : List WrittenField) (pairs : List (Pair Rule))
    (rest : List Char) (loop : star (after skip fieldDef) ('\n' :: fieldsText fields)
      = some (pairs, rest)) :
    (Leads rest closing → ∃ text, schemaSection (sectionText fields)
      = some ([.mk .schemaSection text pairs], "\n\x7d\n".toList)) ∧
    (lit (R := Rule) "\x7d" (skip rest) = none → schemaSection (sectionText fields) = none) := by
  have next := following_fields fields
  have start : skip ('\n' :: fieldsText fields) = fieldsText fields :=
    skip_leads (.inr rfl) next
  obtain ⟨rest', items, left⟩ := repeated_of_star skip (by rw [start, skip_following next])
    (field_shorter fields _ (.inr rfl)) loop
  have word : lit (R := Rule) "schema" (sectionText fields)
      = some ([], ' ' :: '{' :: '\n' :: fieldsText fields) := lit_append "schema" _
  have bracket : skip (' ' :: '{' :: '\n' :: fieldsText fields)
      = "\x7b".toList ++ ('\n' :: fieldsText fields) :=
    (skip_space ' ' _ rfl).trans (skip_solid '{' _ rfl (by decide))
  constructor
  · intro leads
    refine rule_reads Rule.schemaSection ?_
    have shape : pairs = [] ++ ([] ++ (pairs ++ [])) := by simp
    rw [shape]
    refine sequence_cons (by simp) word ?_
    rw [bracket]
    refine sequence_cons (by simp) (lit_append "\x7b" _) ?_
    refine sequence_cons (by simp) items ?_
    rw [left, skip_leads leads (following_fields [])]
    exact lit_append "\x7d" _
  · intro stuck
    refine rule_none _ (sequence_none_right (by simp) word ?_)
    rw [bracket]
    refine sequence_none_right (by simp) (lit_append "\x7b" _) ?_
    refine sequence_none_right (by simp) items ?_
    rw [left]
    exact stuck

theorem skip_section (fields : List WrittenField) :
    skip (sectionText fields) = sectionText fields :=
  skip_solid 's' _ rfl (by decide)

theorem sectionRule_reads (fields : List WrittenField) (inner : Pair Rule) (s : List Char)
    (reads : schemaSection (sectionText fields) = some ([inner], s)) :
    ∃ text, sectionRule (sectionText fields) = some ([.mk .sectionRule text [inner]], s) :=
  rule_reads Rule.sectionRule (choice_here _ reads)

theorem sectionRule_refuses (fields : List WrittenField)
    (refused : schemaSection (sectionText fields) = none) :
    sectionRule (sectionText fields) = none := by
  refine rule_none _ ?_
  rw [choice_next _ refused]
  rfl

def bodyText (fields : List WrittenField) : List Char := " \x7b\n".toList ++ sectionText fields

theorem skip_body (fields : List WrittenField) :
    skip (bodyText fields) = "\x7b".toList ++ ('\n' :: sectionText fields) :=
  (skip_space ' ' _ rfl).trans (skip_solid '{' _ rfl (by decide))

theorem datasetName_reads (dataset : Identifier) (fields : List WrittenField) :
    lit (R := Rule) "dataset" (schemaChars dataset fields)
      = some ([], ' ' :: (dataset.text ++ bodyText fields)) ∧
    identifier (skip (' ' :: (dataset.text ++ bodyText fields)))
      = some ([WrittenConstraint.identifierPair dataset], bodyText fields) := by
  constructor
  · rw [schemaChars_eq]
    exact lit_append "dataset" _
  · rw [skip_space ' ' _ rfl, skip_identifier]
    refine identifier_reads dataset _ (fun c head => ?_)
    obtain rfl : ' ' = c := by simpa [bodyText] using head
    rfl

theorem datasetDef_reads (dataset : Identifier) (fields : List WrittenField) (inner : Pair Rule)
    (reads : schemaSection (sectionText fields) = some ([inner], "\n\x7d\n".toList)) :
    ∃ text outer, datasetDef (schemaChars dataset fields) = some ([.mk .datasetDef text
      [WrittenConstraint.identifierPair dataset, .mk .sectionRule outer [inner]]],
        "\n".toList) := by
  obtain ⟨word, name⟩ := datasetName_reads dataset fields
  obtain ⟨outer, first⟩ := sectionRule_reads fields inner _ reads
  have stop : star (after skip sectionRule) "\n\x7d\n".toList = some ([], "\n\x7d\n".toList) :=
    star_stop rfl
  have sections := repeated_some skip first stop
  have parts : phrase [lit "dataset", identifier, lit "\x7b", zeroOrMore sectionRule, lit "\x7d"]
      (schemaChars dataset fields) = some ([] ++ ([WrittenConstraint.identifierPair dataset] ++
        ([] ++ ([.mk .sectionRule outer [inner]] ++ [] ++ []))), "\n".toList) := by
    refine sequence_cons (by simp) word (sequence_cons (by simp) name ?_)
    rw [skip_body]
    refine sequence_cons (by simp) (lit_append "\x7b" _) ?_
    rw [skip_newline, skip_section]
    exact sequence_cons (by simp) sections rfl
  obtain ⟨text, found⟩ := rule_reads Rule.datasetDef parts
  exact ⟨text, outer, found⟩

theorem datasetDef_refuses (dataset : Identifier) (fields : List WrittenField)
    (refused : schemaSection (sectionText fields) = none) :
    datasetDef (schemaChars dataset fields) = none := by
  obtain ⟨word, name⟩ := datasetName_reads dataset fields
  have sections := repeated_stop skip (sectionRule_refuses fields refused)
  refine rule_none _ ?_
  refine sequence_none_right (by simp) word (sequence_none_right (by simp) name ?_)
  rw [skip_body]
  refine sequence_none_right (by simp) (lit_append "\x7b" _) ?_
  rw [skip_newline, skip_section]
  refine sequence_none_right (by simp) sections ?_
  rw [skip_section]
  rfl

theorem skip_document (dataset : Identifier) (fields : List WrittenField) :
    skip (schemaChars dataset fields) = schemaChars dataset fields :=
  skip_solid 'd' _ rfl (by decide)

theorem contract_reads (dataset : Identifier) (fields : List WrittenField) (pair : Pair Rule)
    (reads : datasetDef (schemaChars dataset fields) = some ([pair], "\n".toList)) :
    ∃ text, contract (schemaChars dataset fields)
      = some ([.mk .contract text [pair, .mk .eoi [] []]], []) := by
  have stop : star (after skip datasetDef) "\n".toList = some ([], "\n".toList) := star_stop rfl
  have parts : phrase [nothing, zeroOrMore datasetDef, endOfInput] (schemaChars dataset fields)
      = some ([] ++ ([pair] ++ [] ++ [.mk .eoi [] []]), []) := by
    refine sequence_cons (by simp) (show nothing _ = some ([], _) from rfl) ?_
    rw [skip_document]
    exact sequence_cons (by simp) (repeated_some skip reads stop) rfl
  exact rule_reads Rule.contract parts

theorem contract_refuses (dataset : Identifier) (fields : List WrittenField)
    (refused : datasetDef (schemaChars dataset fields) = none) :
    contract (schemaChars dataset fields) = none := by
  refine rule_none _ ?_
  refine sequence_none_right (by simp) (show nothing _ = some ([], _) from rfl) ?_
  rw [skip_document]
  refine sequence_none_right (by simp) (repeated_stop skip refused) ?_
  rw [skip_document]
  rfl

theorem parseDataset_schema (dataset : Identifier) (pairs : List (Pair Rule))
    (text outer schema : List Char) :
    parseDataset (F := F) (.mk .datasetDef text [WrittenConstraint.identifierPair dataset,
      .mk .sectionRule outer [.mk .schemaSection schema pairs]])
      = (fun fields => { DataContract.new dataset.value with schema := fields })
          <$> fieldsOf F pairs := by
  cases read : fieldsOf F pairs with
  | error e =>
    have schemaRead : parseSchema (F := F) (.mk .schemaSection schema pairs) = .error e := read
    simp [parseDataset, Pair.inner, next, bind, Except.bind, parseSection, Pair.rule,
      parseSectionBody, schemaRead, List.foldlM]
  | ok fields =>
    have schemaRead : parseSchema (F := F) (.mk .schemaSection schema pairs) = .ok fields := read
    simp [parseDataset, Pair.inner, next, bind, Except.bind, parseSection, Pair.rule,
      parseSectionBody, schemaRead, List.foldlM]
    rfl

end Document

theorem parse_small (input : String) (small : input.utf8ByteSize ≤ maxInputSize) :
    parse (F := F) input = match contractPairs input with
      | none => .error (.error (.parse none))
      | some pairs => (datasets pairs).mapM parseDataset :=
  if_neg (Nat.not_lt.mpr small)

theorem contractPairs_schemaText (dataset : Identifier) (fields : List WrittenField) :
    contractPairs (schemaText dataset fields)
      = (contract (schemaChars dataset fields)).map Prod.fst := by
  rw [contractPairs, schemaText, String.toList_ofList]

theorem parse_schemaText (dataset : Identifier) (fields : List WrittenField)
    (small : (schemaText dataset fields).utf8ByteSize ≤ maxInputSize) :
    ∃ pairs, (fieldsOf F pairs = .ok (fields.map (WrittenField.value F)) ↔
        CommasSafe fields ∧ ∀ f ∈ fields, ∀ c ∈ f.constraints, c.Exact F) ∧
      ((parse (F := F) (schemaText dataset fields)
          = (fun fs => [{ DataContract.new dataset.value with schema := fs }]) <$> fieldsOf F pairs) ∨
        ¬ CommasSafe fields ∧
          parse (F := F) (schemaText dataset fields) = .error (.error (.parse none))) := by
  obtain ⟨pairs, rest, loop, ends, safely, reads⟩ := fields_read (F := F) fields _ (.inr rfl)
  refine ⟨pairs, reads, ?_⟩
  obtain ⟨goesOn, stops⟩ := schemaSection_reads fields pairs rest loop
  rw [parse_small _ small, contractPairs_schemaText]
  by_cases leads : Leads rest closing
  · obtain ⟨schema, inner⟩ := goesOn leads
    obtain ⟨text, outer, whole⟩ := datasetDef_reads dataset fields _ inner
    obtain ⟨all, document⟩ := contract_reads dataset fields _ whole
    left
    rw [document]
    show List.mapM (parseDataset (F := F)) [_] = _
    rw [List.mapM_cons, parseDataset_schema]
    cases fieldsOf F pairs <;> rfl
  · right
    have stuck := ends.resolve_left leads
    have document := contract_refuses dataset fields
      (datasetDef_refuses dataset fields (stops stuck))
    refine ⟨fun safe => leads (safely safe), ?_⟩
    rw [document]
    rfl

/-- A schema section parses back to what was written exactly if it fits into the input limit,
    every length survives an `f64`, and no comma at the end of a line stands before a name that
    starts with a keyword. -/
theorem schema_round_trip_iff (dataset : Identifier) (fields : List WrittenField) :
    parse (schemaText dataset fields)
        = .ok [{ DataContract.new dataset.value with
            schema := fields.map (WrittenField.value F) }] ↔
      (schemaText dataset fields).utf8ByteSize ≤ maxInputSize ∧
        (∀ f ∈ fields, ∀ c ∈ f.constraints, c.Exact F) ∧ CommasSafe fields := by
  by_cases small : (schemaText dataset fields).utf8ByteSize ≤ maxInputSize
  case neg =>
    have large : parse (F := F) (schemaText dataset fields) = .error (.error (.parse
        (some s!"Input exceeds maximum size of {maxInputSize} bytes"))) :=
      if_pos (Nat.lt_of_not_le small)
    rw [large]
    exact ⟨fun same => (by cases same), fun meets => absurd meets.1 small⟩
  case pos =>
    obtain ⟨pairs, reads, parsed | ⟨caught, failed⟩⟩ := parse_schemaText (F := F) dataset fields small
    · rw [parsed, Results.map_ok_iff]
      constructor
      · rintro ⟨read, found, same⟩
        have fieldsSame : read = fields.map (WrittenField.value F) := by
          simpa using same
        obtain ⟨safe, survives⟩ := reads.mp (found.trans (congrArg _ fieldsSame))
        exact ⟨small, survives, safe⟩
      · rintro ⟨-, survives, safe⟩
        exact ⟨_, reads.mpr ⟨safe, survives⟩, rfl⟩
    · rw [failed]
      exact ⟨fun same => (by cases same), fun meets => absurd meets.2.2 caught⟩

def sampleName : Identifier := ⟨'d', [], rfl, List.all_eq_true.mp rfl⟩

/-- `id: int,` and, on the next line, `uniquex: int`. -/
def commaFields : List WrittenField :=
  [⟨⟨'i', ['d'], rfl, List.all_eq_true.mp rfl⟩, .int, [], true⟩,
    ⟨⟨'u', "niquex".toList, rfl, List.all_eq_true.mp rfl⟩, .int, [], false⟩]

/-- The first field becomes unique, and the second one loses the start of its name. -/
theorem comma_takes_name :
    schemaText sampleName commaFields = "dataset d \x7b\nschema \x7b\nid: int,\nuniquex: int\n\x7d\n\x7d\n" ∧
      parse (F := ExtRat) (schemaText sampleName commaFields) = .ok [{ DataContract.new "d" with
        schema := [⟨"id", .int, [.unique]⟩, ⟨"x", .int, []⟩] }] ∧
      parse (F := ExtRat) (schemaText sampleName commaFields) ≠ .ok [{
        DataContract.new sampleName.value with
          schema := commaFields.map (WrittenField.value ExtRat) }] := by
  decide +kernel

end StatGuardian.Core.Rendering
