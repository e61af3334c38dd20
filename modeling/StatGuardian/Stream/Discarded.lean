import StatGuardian.Stream.EventFields

namespace StatGuardian.Stream

open StatGuardian.Core

section Keeping

variable (F : Type) [Float64 F]

def Kept (env : TextEnv) (obj : Fields) (key : String) (v : Value) (event : AgentEvent F) : Prop :=
  (key, env.display v) ∈ event.metadata ∨
    (∃ field : EventField, key ∈ field.aliases ∧ field.reads F v = true ∧ field.Follows F env obj key) ∨
    key = "provenance" ∧ Labelled v ∧ ∃ m : Metric, m.Follows F env obj

/-- The key is the first one there for a field, which can be read from its value; the event's
    provenance is one of a metric without its own. -/
def Taken (obj : Fields) (key : String) (v : Value) : Prop :=
  (∃ field : EventField, (field.aliases.find? fun k => (obj.lookup k).isSome) = some key ∧
      field.reads F v = true) ∨
    key = "provenance" ∧ Labelled v ∧ ∃ m : Metric, m.Bare F obj

variable {F} {env : TextEnv} {obj : Fields} {key : String} {v : Value}

theorem lookup_isSome_of_mem (member : (key, v) ∈ obj) : (obj.lookup key).isSome = true :=
  List.lookup_isSome_iff.mpr ⟨_, member, beq_iff_eq.mpr rfl⟩

theorem followed_iff : (∃ field : EventField, key ∈ field.aliases ∧ field.reads F v = true ∧
      field.Follows F env obj key) ↔
    ∃ field : EventField, (field.aliases.find? fun k => (obj.lookup k).isSome) = some key ∧
      field.reads F v = true := by
  constructor
  · rintro ⟨field, own, reads, follows⟩
    exact ⟨field, (EventField.follows_iff own).mp follows, reads⟩
  · rintro ⟨field, first, reads⟩
    have own := List.mem_of_find?_eq_some first
    exact ⟨field, own, reads, (EventField.follows_iff own).mpr first⟩

theorem kept_iff (distinct : (obj.map Prod.fst).Nodup) (member : (key, v) ∈ obj)
    {event : AgentEvent F} (parsed : AgentEvent.fromJson env (.object obj) = .ok event) :
    Kept F env obj key v event ↔ key ∉ knownFields ∨ Taken F obj key v := by
  have label : (key = "provenance" ∧ Labelled v ∧ ∃ m : Metric, m.Follows F env obj) ↔
      key = "provenance" ∧ Labelled v ∧ ∃ m : Metric, m.Bare F obj := by
    refine and_congr_right fun is => and_congr_right fun _ => exists_congr fun m => ?_
    exact Metric.follows_iff (is ▸ lookup_isSome_of_mem member)
  rw [Kept, mem_metadata_iff env distinct parsed member, followed_iff, label, Taken]

end Keeping

section Numbers

variable (F : Type) [Float64 F]

def Value.asInt (v : Value) : Option Int := (v.asU64.map Int.ofNat).or v.asI64

/-- Two texts of one number. Integers of 64 bits are compared as such, other numbers as floats. -/
def SameNumber (text text' : String) : Prop :=
  match (Value.number text).asInt, (Value.number text').asInt with
  | some n, some n' => n = n'
  | _, _ => (Value.asF64 (.number text) : Option F) = Value.asF64 (.number text')

/-- The values differ in nothing but the formatting of numbers and the order of keys. -/
inductive Alike : Value → Value → Prop where
  | null : Alike .null .null
  | bool (b : Bool) : Alike (.bool b) (.bool b)
  | number {text text' : String} : SameNumber F text text' → Alike (.number text) (.number text')
  | string (s : String) : Alike (.string s) (.string s)
  | array {items items' : List Value} : items.length = items'.length →
      (∀ (i : Nat) (v v' : Value), items[i]? = some v → items'[i]? = some v' → Alike v v') →
      Alike (.array items) (.array items')
  | object {fields fields' : Fields} :
      (∀ key, (fields.lookup key).isSome = (fields'.lookup key).isSome) →
      (∀ (key : String) (v v' : Value), fields.lookup key = some v → fields'.lookup key = some v' →
        Alike v v') →
      Alike (.object fields) (.object fields')

variable {F} {v v' : Value}

theorem alike_of_asInt {n : Int} (here : v.asInt = some n) (there : v'.asInt = some n) :
    Alike F v v' := by
  cases v with
  | number text =>
    cases v' with
    | number text' =>
      refine .number ?_
      rw [SameNumber, here, there]
    | _ => cases there
  | _ => cases here

theorem asInt_of_asU64 {n : Nat} (value : v.asU64 = some n) : v.asInt = some (n : Int) := by
  rw [Value.asInt, value]
  rfl

theorem asInt_of_asI64 {n : Int} (value : v.asI64 = some n) : v.asInt = some n := by
  cases v with
  | number text =>
    rw [Value.asInt]
    cases unsigned : Value.asU64 (.number text) with
    | none => exact value
    | some k =>
      -- a text without a sign is read by its digits both times
      have digits : text.toList.all Char.isDigit = true ∧ Parser.digitsValue text.toList = k := by
        unfold Value.asU64 at unsigned
        grind
      unfold Value.asI64 at value
      dsimp only at value
      split at value
      · rename_i rest signed
        rw [signed] at digits
        exact absurd (List.all_eq_true.mp digits.1 '-' List.mem_cons_self) (by decide)
      · rw [digits.2] at value
        split at value
        · exact value
        · cases value
  | _ => cases value

theorem alike_of_asStr {s : String} (here : v.asStr = some s) (there : v'.asStr = some s) :
    Alike F v v' := by
  cases v with
  | string text =>
    cases v' with
    | string text' =>
      rw [Option.some.inj here, Option.some.inj there]
      exact .string s
    | _ => cases there
  | _ => cases here

end Numbers

section Telling

variable {F : Type} [Float64 F]

/-- The field keeps all of the value, which is not what the field holds without one. -/
def EventField.Tells (v : Value) : EventField → Prop
  | executionId => v.asStr ≠ some "unknown"
  | seq => v.asU64 ≠ some 0
  | kind | metric _ => False
  | timestampMs | tool | callSignature | retryOf | error => True

def withMore (value provenance : Value) (more : Fields) : Value :=
  .object (("value", value) :: ("provenance", provenance) :: more)

theorem measure_withMore {T : Type} (read : Value → Option T) (default : Provenance)
    (value provenance : Value) (more : Fields) :
    measure read default (withMore value provenance more) =
      (read value).map fun x => ⟨x, parseProvenance (some provenance) default⟩ := rfl

theorem exists_remeasured {T : Type} (read : Value → Option T) {v : Value}
    (reads : (measure read .measured v).isSome = true) :
    ∃ v', ¬ Alike F v v' ∧ ∀ default, measure read default v' = measure read default v := by
  cases v with
  | number text => exact ⟨withMore (.number text) .null [], nofun, fun _ => rfl⟩
  | object fields =>
    rw [measure, Option.isSome_map] at reads
    cases found : fields.lookup "value" with
    | none =>
      rw [found] at reads
      cases reads
    | some x =>
      have spelled : ∀ more default,
          measure read default (withMore x ((fields.lookup "provenance").getD .null) more) =
            measure read default (.object fields) := by
        intro more default
        rw [measure_withMore, measure, found, Option.bind_some]
        cases fields.lookup "provenance" <;> rfl
      cases unit : (fields.lookup "unit").isSome with
      | true =>
        refine ⟨_, ?_, spelled []⟩
        rintro ⟨⟩
        rename_i names _
        have lacks : (fields.lookup "unit").isSome = false := names "unit"
        rw [unit] at lacks
        cases lacks
      | false =>
        refine ⟨_, ?_, spelled [("unit", .null)]⟩
        rintro ⟨⟩
        rename_i names _
        have holds : (fields.lookup "unit").isSome = true := names "unit"
        rw [unit] at holds
        cases holds
  | _ => cases reads

theorem exists_respelled (s : String) :
    ∃ s', s' ≠ s ∧ AgentEventKind.parse s' = AgentEventKind.parse s := by
  have spellings : ∀ kind : AgentEventKind, ∃ a b, a ≠ b ∧ AgentEventKind.parse a = kind ∧
      AgentEventKind.parse b = kind := by
    intro kind
    cases kind with
    | toolCall => exact ⟨"tool_call", "call", by decide +kernel⟩
    | toolResult => exact ⟨"tool_result", "result", by decide +kernel⟩
    | llmCall => exact ⟨"llm_call", "llm", by decide +kernel⟩
    | retry => exact ⟨"retry", "Retry", by decide +kernel⟩
    | error => exact ⟨"error", "failure", by decide +kernel⟩
    | policyViolation => exact ⟨"policy_violation", "Policy_violation", by decide +kernel⟩
    | other => exact ⟨"banana", "apple", by decide +kernel⟩
  obtain ⟨a, b, apart, here, there⟩ := spellings (.parse s)
  by_cases same : s = a
  · exact ⟨b, fun is => apart (same ▸ is.symm), there⟩
  · exact ⟨a, fun is => same is.symm, here⟩

namespace EventField

variable {field : EventField} {v v' : Value}

theorem exists_unlike (reads : field.reads F v = true) (untold : ¬ field.Tells v) :
    ∃ v', ¬ Alike F v v' ∧ ∀ default,
      (field.filled default (some v') : FieldValue F) = field.filled default (some v) := by
  cases field with
  | executionId =>
    have unknown := Classical.not_not.mp untold
    refine ⟨.null, ?_, fun default => ?_⟩
    · rintro ⟨⟩
      cases unknown
    · rw [filled, filled, Option.bind_some, Option.bind_some, unknown]
      rfl
  | seq =>
    have zero := Classical.not_not.mp untold
    refine ⟨.null, ?_, fun default => ?_⟩
    · rintro ⟨⟩
      cases zero
    · rw [filled, filled, Option.bind_some, Option.bind_some, zero]
      rfl
  | kind =>
    cases v with
    | string s =>
      obtain ⟨s', apart, same⟩ := exists_respelled s
      refine ⟨.string s', ?_, fun default => congrArg FieldValue.kind same⟩
      rintro ⟨⟩
      exact apart rfl
    | _ => cases reads
  | metric m =>
    cases m with
    | costUsd =>
      obtain ⟨v', apart, same⟩ := exists_remeasured (F := F) (Value.asF64 (F := F)) reads
      exact ⟨v', apart, fun default => congrArg FieldValue.cost (same default)⟩
    | _ =>
      obtain ⟨v', apart, same⟩ := exists_remeasured (F := F) readU64 reads
      exact ⟨v', apart, fun default => congrArg FieldValue.amount (same default)⟩
  | _ => exact absurd trivial untold

theorem alike_of_filled {default default' : Provenance} (reads : field.reads F v = true)
    (tells : field.Tells v)
    (same : (field.filled default' (some v') : FieldValue F) = field.filled default (some v)) :
    Alike F v v' := by
  cases field with
  | executionId =>
    obtain ⟨s, here⟩ := Option.isSome_iff_exists.mp reads
    have text := Option.some.inj (FieldValue.text.inj same)
    rw [Option.bind_some, Option.bind_some, here, Option.getD_some] at text
    cases there : v'.asStr with
    | none =>
      rw [there] at text
      exact absurd (here.trans (congrArg some text.symm)) tells
    | some s' =>
      rw [there, Option.getD_some] at text
      exact alike_of_asStr here (text ▸ there)
  | seq =>
    obtain ⟨n, here⟩ := Option.isSome_iff_exists.mp reads
    have count := Option.some.inj (FieldValue.count.inj same)
    rw [Option.bind_some, Option.bind_some, here, Option.getD_some] at count
    cases there : v'.asU64 with
    | none =>
      rw [there] at count
      exact absurd (here.trans (congrArg some count.symm)) tells
    | some n' =>
      rw [there, Option.getD_some] at count
      exact alike_of_asInt (asInt_of_asU64 here) (asInt_of_asU64 (count ▸ there))
  | timestampMs =>
    obtain ⟨t, here⟩ := Option.isSome_iff_exists.mp reads
    have there : v'.asI64 = v.asI64 := FieldValue.time.inj same
    exact alike_of_asInt (asInt_of_asI64 here) (asInt_of_asI64 (there.trans here))
  | retryOf =>
    obtain ⟨n, here⟩ := Option.isSome_iff_exists.mp reads
    have there : v'.asU64 = v.asU64 := FieldValue.count.inj same
    exact alike_of_asInt (asInt_of_asU64 here) (asInt_of_asU64 (there.trans here))
  | kind => exact absurd tells id
  | metric m => exact absurd tells id
  | _ =>
    obtain ⟨s, here⟩ := Option.isSome_iff_exists.mp reads
    have there : v'.asStr = v.asStr := FieldValue.text.inj same
    exact alike_of_asStr here (there.trans here)

end EventField

omit [Float64 F] in
theorem event_ext {event event' : AgentEvent F} (metadata : event'.metadata = event.metadata)
    (fields : ∀ field : EventField, field.held event' = field.held event) : event' = event := by
  have executionId := Option.some.inj (FieldValue.text.inj (fields .executionId))
  have seq := Option.some.inj (FieldValue.count.inj (fields .seq))
  have timestampMs := FieldValue.time.inj (fields .timestampMs)
  have kind := FieldValue.kind.inj (fields .kind)
  have tool := FieldValue.text.inj (fields .tool)
  have callSignature := FieldValue.text.inj (fields .callSignature)
  have tokensIn := FieldValue.amount.inj (fields (.metric .tokensIn))
  have tokensOut := FieldValue.amount.inj (fields (.metric .tokensOut))
  have costUsd := FieldValue.cost.inj (fields (.metric .costUsd))
  have durationMs := FieldValue.amount.inj (fields (.metric .durationMs))
  have retryOf := FieldValue.count.inj (fields .retryOf)
  have error := FieldValue.text.inj (fields .error)
  cases event
  cases event'
  simp_all

variable {env : TextEnv} {obj : Fields} {key : String} {v v' : Value}

theorem fromJson_setField (known : key ∈ knownFields)
    (fills : ∀ field : EventField,
      (field.filled (defaultProvenance (setField obj key v'))
          (getFirst (setField obj key v') field.aliases) : FieldValue F) =
        field.filled (defaultProvenance obj) (getFirst obj field.aliases)) :
    (AgentEvent.fromJson env (.object (setField obj key v')) : Except String (AgentEvent F)) =
      AgentEvent.fromJson env (.object obj) := by
  refine congrArg Except.ok (event_ext ?_ fun field => ?_)
  · dsimp only
    rw [unknown_setField known]
  · exact (EventField.held_eq rfl field).trans ((fills field).trans (EventField.held_eq rfl field).symm)

theorem fills_eq {field : EventField}
    (first : (field.aliases.find? fun k => (obj.lookup k).isSome) = some key)
    (found : getFirst obj field.aliases = some v)
    (same : ∀ default, (field.filled default (some v') : FieldValue F) = field.filled default (some v))
    (other : EventField) :
    (other.filled (defaultProvenance (setField obj key v'))
        (getFirst (setField obj key v') other.aliases) : FieldValue F) =
      other.filled (defaultProvenance obj) (getFirst obj other.aliases) := by
  have own := List.mem_of_find?_eq_some first
  rw [EventField.defaultProvenance_setField (EventField.ne_provenance own)]
  by_cases is : other = field
  · rw [is, getFirst_setField_first first, found, same]
  · rw [getFirst_setField_other]
    intro there
    exact is (EventField.eq_of_alias (List.mem_of_find?_eq_some there) own)

theorem said_estimated (word : said (some v) = some .estimated) : v = .string "estimated" := by
  cases v with
  | string s =>
    unfold said at word
    split at word
    · cases word
    · rename_i is
      exact congrArg Value.string (Option.some.inj is)
    · cases word
    · cases word
  | _ => cases word

variable (F)

/-- The value is in the metadata, or no unlike value under its key gives the same event. -/
def ToldApart (env : TextEnv) (obj : Fields) (key : String) (v : Value) (event : AgentEvent F) : Prop :=
  (key, env.display v) ∈ event.metadata ∨ ∀ v', ¬ Alike F v v' →
    AgentEvent.fromJson env (.object (setField obj key v')) ≠ .ok event

/-- The key is the first one there for a field that tells its value; the event's provenance is an
    estimate, and that of a metric without its own. -/
def Told (obj : Fields) (key : String) (v : Value) : Prop :=
  (∃ field : EventField, (field.aliases.find? fun k => (obj.lookup k).isSome) = some key ∧
      field.reads F v = true ∧ field.Tells v) ∨
    key = "provenance" ∧ said (some v) = some .estimated ∧ ∃ m : Metric, m.Bare F obj

variable {F} {event : AgentEvent F}

theorem lookup_of_mem (distinct : (obj.map Prod.fst).Nodup) (member : (key, v) ∈ obj) :
    obj.lookup key = some v := by
  obtain ⟨before, after, rfl⟩ := List.append_of_mem member
  rw [List.lookup_eq_some_iff]
  refine ⟨before, after, rfl, fun field earlier => bne_iff_ne.mpr fun same => ?_⟩
  rw [List.map_append, List.map_cons] at distinct
  have fresh := (List.nodup_cons.mp (List.perm_middle.nodup_iff.mp distinct)).1
  exact fresh (List.mem_append_left _ (List.mem_map.mpr ⟨field, earlier, same.symm⟩))

theorem getFirst_of_first (distinct : (obj.map Prod.fst).Nodup) (member : (key, v) ∈ obj)
    {keys : List String} (first : (keys.find? fun k => (obj.lookup k).isSome) = some key) :
    getFirst obj keys = some v := by
  rw [getFirst_eq, first, Option.bind_some, lookup_of_mem distinct member]

theorem taken_of_told (told : Told F obj key v) : Taken F obj key v := by
  rcases told with ⟨field, first, reads, -⟩ | ⟨is, word, bare⟩
  · exact .inl ⟨field, first, reads⟩
  · exact .inr ⟨is, .inr word, bare⟩

theorem differs_of_told (distinct : (obj.map Prod.fst).Nodup) (member : (key, v) ∈ obj)
    (parsed : AgentEvent.fromJson env (.object obj) = .ok event) (told : Told F obj key v)
    (apart : ¬ Alike F v v') :
    AgentEvent.fromJson env (.object (setField obj key v')) ≠ .ok event := by
  intro same
  refine apart ?_
  rcases told with ⟨field, first, reads, tells⟩ | ⟨rfl, word, m, bare⟩
  · have before := EventField.held_eq parsed field
    have after := EventField.held_eq same field
    rw [getFirst_of_first distinct member first] at before
    rw [getFirst_setField_first first] at after
    exact EventField.alike_of_filled reads tells (after.symm.trans before)
  · have present := lookup_isSome_of_mem member
    obtain ⟨_, is, label⟩ := fromJson_provenance (F := F) env obj
    obtain rfl := Except.ok.inj (parsed.symm.trans is)
    have estimated := label m
    rw [provenance_setField present m same, bare.1, bare.2, if_pos rfl, if_pos rfl,
      Option.getD_none, Option.getD_none, defaultProvenance_eq, lookup_of_mem distinct member,
      if_pos word] at estimated
    by_cases word' : said (some v') = some .estimated
    · rw [said_estimated word, said_estimated word']
      exact .string "estimated"
    · rw [if_neg word'] at estimated
      cases estimated

theorem exists_same_event (env : TextEnv) (distinct : (obj.map Prod.fst).Nodup) (member : (key, v) ∈ obj)
    (taken : Taken F obj key v) (untold : ¬ Told F obj key v) :
    ∃ v', ¬ Alike F v v' ∧
      (AgentEvent.fromJson env (.object (setField obj key v')) : Except String (AgentEvent F)) =
        AgentEvent.fromJson env (.object obj) := by
  rcases taken with ⟨field, first, reads⟩ | ⟨rfl, label, bare⟩
  · have untold' : ¬ field.Tells v := fun tells => untold (.inl ⟨field, first, reads, tells⟩)
    obtain ⟨v', apart, same⟩ := EventField.exists_unlike reads untold'
    have known := EventField.known_of_alias (List.mem_of_find?_eq_some first)
    exact ⟨v', apart, fromJson_setField known
      (fills_eq first (getFirst_of_first distinct member first) same)⟩
  · have measured : said (some v) = some .measured :=
      label.resolve_right fun word => untold (.inr ⟨rfl, word, bare⟩)
    refine ⟨.null, ?_, fromJson_setField (by decide) fun field => ?_⟩
    · rintro ⟨⟩
      cases measured
    · rw [getFirst_setField_other fun found =>
        EventField.provenance_not_alias field (List.mem_of_find?_eq_some found)]
      rw [defaultProvenance_eq, defaultProvenance_eq, lookup_setField, lookup_of_mem distinct member,
        measured]
      rfl

end Telling

/-- The text of the values without a structure. -/
def scalarText : TextEnv where
  toLowercase := id
  toUppercase := id
  display
    | .null => "null"
    | .bool b => toString b
    | .number text => text
    | .string s => s.quote
    | _ => ""

def notedCall : Fields :=
  [("run_id", .string "r7"), ("step", .number "3"), ("tool_name", .string "search"), ("note", .null)]

def negativeTokens : Fields := [("tokens_in", .number "-5")]

example : AgentEvent.fromJson (F := ExtRat) scalarText (.object [("kind", .string "banana")]) =
    AgentEvent.fromJson scalarText (.object [("kind", .string "apple")]) := by decide +kernel

end StatGuardian.Stream
