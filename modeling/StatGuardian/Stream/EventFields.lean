import StatGuardian.Stream.Honesty

namespace StatGuardian.Stream

section Keys

def setField (obj : Fields) (key : String) (v : Value) : Fields :=
  obj.map fun field => if field.1 = key then (key, v) else field

theorem lookup_setField (obj : Fields) (key : String) (v : Value) (k : String) :
    (setField obj key v).lookup k = (obj.lookup k).map fun old => if k = key then v else old := by
  induction obj with
  | nil => rfl
  | cons field obj ih =>
    obtain ⟨name, old⟩ := field
    rw [setField] at ih
    rw [setField, List.map_cons]
    have names : (if name = key then (key, v) else (name, old)) =
        (name, if name = key then v else old) := by
      split
      · rename_i changed
        rw [changed]
      · rfl
    rw [names, List.lookup_cons, List.lookup_cons, ih]
    by_cases same : k = name
    · rw [beq_iff_eq.mpr same, same]
      rfl
    · rw [beq_false_of_ne same]

theorem getFirst_eq (obj : Fields) (keys : List String) :
    getFirst obj keys =
      (keys.find? fun k => (obj.lookup k).isSome).bind fun k => obj.lookup k := by
  induction keys with
  | nil => rfl
  | cons k keys ih =>
    rw [getFirst, List.findSome?_cons, List.find?_cons]
    cases found : obj.lookup k with
    | none => exact ih
    | some v => simp [found]

theorem find?_setField (obj : Fields) (key : String) (v : Value) (keys : List String) :
    (keys.find? fun k => ((setField obj key v).lookup k).isSome) =
      keys.find? fun k => (obj.lookup k).isSome := by
  simp only [lookup_setField, Option.isSome_map]

theorem getFirst_setField_first {obj : Fields} {key : String} {keys : List String}
    (first : (keys.find? fun k => (obj.lookup k).isSome) = some key) (v : Value) :
    getFirst (setField obj key v) keys = some v := by
  have present := List.find?_some first
  obtain ⟨old, found⟩ := Option.isSome_iff_exists.mp present
  rw [getFirst_eq, find?_setField, first, Option.bind_some, lookup_setField, found, Option.map_some,
    if_pos rfl]

theorem getFirst_setField_other {obj : Fields} {key : String} {keys : List String}
    (other : (keys.find? fun k => (obj.lookup k).isSome) ≠ some key) (v : Value) :
    getFirst (setField obj key v) keys = getFirst obj keys := by
  rw [getFirst_eq, getFirst_eq, find?_setField]
  cases first : keys.find? fun k => (obj.lookup k).isSome with
  | none => rfl
  | some k =>
    have apart : k ≠ key := fun same => other (by rw [first, same])
    rw [Option.bind_some, Option.bind_some, lookup_setField]
    simp [apart]

end Keys

section Metadata

theorem insertText_perm {key value : String} {metadata : List (String × String)}
    (fresh : key ∉ metadata.map Prod.fst) :
    (insertText key value metadata).Perm ((key, value) :: metadata) := by
  induction metadata with
  | nil => exact .refl _
  | cons entry metadata ih =>
    obtain ⟨k, v⟩ := entry
    have apart : key ≠ k := fun same => fresh (same ▸ List.mem_cons_self)
    have later : key ∉ metadata.map Prod.fst := fun member => fresh (List.mem_cons_of_mem _ member)
    rw [insertText]
    split
    · exact .refl _
    · rename_i same
      exact absurd (Std.LawfulEqOrd.eq_of_compare same) apart
    · exact ((ih later).cons _).trans (.swap ..)

/-- With different keys all the texts are kept. -/
theorem foldl_insertText_perm (text : Value → String) {fields : Fields}
    {metadata : List (String × String)}
    (distinct : (metadata.map Prod.fst ++ fields.map Prod.fst).Nodup) :
    (fields.foldl (fun metadata field => insertText field.1 (text field.2) metadata) metadata).Perm
      (metadata ++ fields.map fun field => (field.1, text field.2)) := by
  induction fields generalizing metadata with
  | nil => rw [List.map_nil, List.append_nil, List.foldl_nil]
  | cons field fields ih =>
    rw [List.map_cons] at distinct
    obtain ⟨key, v⟩ := field
    have front := List.perm_middle.nodup_iff.mp distinct
    have fresh : key ∉ metadata.map Prod.fst := fun member =>
      (List.nodup_cons.mp front).1 (List.mem_append_left _ member)
    have inserted : (insertText key (text v) metadata).Perm ((key, text v) :: metadata) :=
      insertText_perm fresh
    have keys := (inserted.map Prod.fst).append_right (fields.map Prod.fst)
    rw [List.foldl_cons, List.map_cons]
    refine (ih (keys.nodup_iff.mpr front)).trans ?_
    exact (inserted.append_right _).trans List.perm_middle.symm

theorem unknown_setField {key : String} (known : key ∈ knownFields) (obj : Fields) (v : Value) :
    ((setField obj key v).filter fun field => ! knownFields.contains field.1) =
      obj.filter fun field => ! knownFields.contains field.1 := by
  induction obj with
  | nil => rfl
  | cons field obj ih =>
    rw [setField] at ih
    rw [setField, List.map_cons]
    split
    · rename_i changed
      rw [List.filter_cons_of_neg (by simpa using known), ih,
        List.filter_cons_of_neg (by simpa [changed] using known)]
    · rw [List.filter_cons, List.filter_cons, ih]

theorem mem_metadata_iff {F : Type} [Float64 F] (env : TextEnv) {obj : Fields}
    (distinct : (obj.map Prod.fst).Nodup) {event : AgentEvent F}
    (parsed : AgentEvent.fromJson env (.object obj) = .ok event) {key : String} {v : Value}
    (member : (key, v) ∈ obj) :
    (key, env.display v) ∈ event.metadata ↔ key ∉ knownFields := by
  obtain rfl := Except.ok.inj parsed
  have unknown : (([] : List (String × String)).map Prod.fst ++
      (obj.filter fun field => ! knownFields.contains field.1).map Prod.fst).Nodup :=
    distinct.sublist (List.filter_sublist.map _)
  have texts := foldl_insertText_perm env.display unknown
  rw [List.nil_append] at texts
  show (key, env.display v) ∈ List.foldl _ [] _ ↔ _
  rw [texts.mem_iff, List.mem_map]
  constructor
  · rintro ⟨field, kept, same⟩
    have unlisted := (List.mem_filter.mp kept).2
    rw [← (Prod.mk.inj same).1]
    simpa using unlisted
  · intro unlisted
    exact ⟨(key, v), List.mem_filter.mpr ⟨member, by simpa using unlisted⟩, rfl⟩

end Metadata

section Typed

variable (F : Type) [Float64 F]

/-- A value of a metric, as `parse_measured_u64` and `parse_measured_f64` read it. -/
def measure {T : Type} (read : Value → Option T) (default : Provenance) : Value → Option (Measured T)
  | .number text => (read (.number text)).map fun value => ⟨value, default⟩
  | .object fields => ((fields.lookup "value").bind read).map fun value =>
      ⟨value, parseProvenance (fields.lookup "provenance") default⟩
  | _ => none

def readU64 (v : Value) : Option UInt64 := v.asU64.map UInt64.ofNat

theorem parseMeasured_eq {T : Type} (read : Value → Option T) (obj : Fields) (keys : List String)
    (default : Provenance) :
    parseMeasured read obj keys default = (getFirst obj keys).bind (measure read default) := by
  unfold parseMeasured
  cases getFirst obj keys with
  | none => rfl
  | some v =>
    cases v with
    | object fields =>
      simp only [Option.bind_eq_bind, Option.bind_some, measure]
      cases (fields.lookup "value").bind read <;> rfl
    | _ => rfl

/-- The fields that the known keys are for. The event's provenance goes into its metrics. -/
inductive EventField where
  | executionId | seq | timestampMs | kind | tool | callSignature
  | metric (m : Metric)
  | retryOf | error
  deriving DecidableEq, Repr

inductive FieldValue where
  | text (s : Option String)
  | count (n : Option Nat)
  | time (t : Option Int)
  | kind (k : AgentEventKind)
  | amount (m : Option (Measured UInt64))
  | cost (m : Option (Measured F))

namespace EventField

def all : List EventField :=
  [executionId, seq, timestampMs, kind, tool, callSignature, metric .tokensIn, metric .tokensOut,
    metric .costUsd, metric .durationMs, retryOf, error]

def aliases : EventField → List String
  | executionId => ["execution_id", "run_id", "trace_id", "session_id"]
  | seq => ["seq", "step", "index"]
  | timestampMs => ["timestamp_ms", "ts_ms"]
  | kind => ["kind", "type", "event"]
  | tool => ["tool", "tool_name", "name"]
  | callSignature => ["call_signature", "args_hash", "signature"]
  | metric m => m.keys
  | retryOf => ["retry_of", "retry_index"]
  | error => ["error"]

/-- The value has the type, and the sign, of the field. -/
def reads (v : Value) : EventField → Bool
  | executionId | kind | tool | callSignature | error => v.asStr.isSome
  | seq | retryOf => v.asU64.isSome
  | timestampMs => v.asI64.isSome
  | metric .costUsd => (measure (Value.asF64 (F := F)) .measured v).isSome
  | metric _ => (measure readU64 .measured v).isSome

variable {F}

/-- How `from_json` fills the field from the value that its keys lead to. -/
def filled (default : Provenance) (v : Option Value) : EventField → FieldValue F
  | executionId => .text (some ((v.bind Value.asStr).getD "unknown"))
  | seq => .count (some ((v.bind Value.asU64).getD 0))
  | timestampMs => .time (v.bind Value.asI64)
  | kind => .kind (.parse ((v.bind Value.asStr).getD "other"))
  | tool | callSignature | error => .text (v.bind Value.asStr)
  | metric .costUsd => .cost (v.bind (measure Value.asF64 default))
  | metric _ => .amount (v.bind (measure readU64 default))
  | retryOf => .count (v.bind Value.asU64)

def held (event : AgentEvent F) : EventField → FieldValue F
  | executionId => .text (some event.executionId)
  | seq => .count (some event.seq)
  | timestampMs => .time event.timestampMs
  | kind => .kind event.kind
  | tool => .text event.tool
  | callSignature => .text event.callSignature
  | metric .tokensIn => .amount event.tokensIn
  | metric .tokensOut => .amount event.tokensOut
  | metric .costUsd => .cost event.costUsd
  | metric .durationMs => .amount event.durationMs
  | retryOf => .count event.retryOf
  | error => .text event.error

/-- The field is computed from the value under the key: it follows the value through every change,
    a metric without its own provenance with some other. -/
def Follows (F : Type) [Float64 F] (env : TextEnv) (obj : Fields) (key : String) (field : EventField) :
    Prop :=
  ∀ v, field.reads F v = true → ∀ event : AgentEvent F,
    AgentEvent.fromJson env (.object (setField obj key v)) = .ok event →
      ∃ default, field.held event = field.filled default (some v)

variable {env : TextEnv} {obj : Fields} {key : String} {field : EventField} {v : Value}

theorem mem_all (field : EventField) : field ∈ all := by
  cases field with
  | metric m => cases m <;> decide
  | _ => decide

theorem known_eq : knownFields = all.flatMap aliases ++ ["provenance"] := rfl

theorem known_of_alias (own : key ∈ field.aliases) : key ∈ knownFields := by
  rw [known_eq]
  exact List.mem_append_left _ (List.mem_flatMap.mpr ⟨field, field.mem_all, own⟩)

theorem provenance_not_alias (field : EventField) : "provenance" ∉ field.aliases := by
  have apart := (List.nodup_append.mp (known_eq ▸ (by decide : knownFields.Nodup))).2.2
  intro own
  exact apart _ (List.mem_flatMap.mpr ⟨field, field.mem_all, own⟩) _ (List.mem_singleton_self _) rfl

theorem eq_of_alias {other : EventField} (own : key ∈ field.aliases) (also : key ∈ other.aliases) :
    field = other := by
  by_contra different
  have nodup := (List.nodup_append.mp (known_eq ▸ (by decide : knownFields.Nodup))).1
  have symmetric : Std.Symm (Function.onFun List.Disjoint aliases) := ⟨fun _ _ apart => apart.symm⟩
  exact (List.nodup_flatMap.mp nodup).2.forall field.mem_all other.mem_all different own also

theorem held_eq {event : AgentEvent F} (parsed : AgentEvent.fromJson env (.object obj) = .ok event)
    (field : EventField) :
    field.held event = field.filled (defaultProvenance obj) (getFirst obj field.aliases) := by
  obtain rfl := Except.ok.inj parsed
  cases field with
  | metric m =>
    cases m with
    | tokensIn => exact congrArg FieldValue.amount (parseMeasured_eq readU64 obj _ _)
    | tokensOut => exact congrArg FieldValue.amount (parseMeasured_eq readU64 obj _ _)
    | costUsd => exact congrArg FieldValue.cost (parseMeasured_eq Value.asF64 obj _ _)
    | durationMs => exact congrArg FieldValue.amount (parseMeasured_eq readU64 obj _ _)
  | _ => rfl

theorem defaultProvenance_setField (elsewhere : key ≠ "provenance") :
    defaultProvenance (setField obj key v) = defaultProvenance obj := by
  rw [defaultProvenance_eq, defaultProvenance_eq, lookup_setField]
  simp [elsewhere.symm]

theorem ne_provenance (own : key ∈ field.aliases) : key ≠ "provenance" := by
  rintro rfl
  exact provenance_not_alias field own

def labelledZero (provenance : String) : Value :=
  .object [("value", .number "0"), ("provenance", .string provenance)]

theorem measure_apart {T : Type} (read : Value → Option T) (zero : (read (.number "0")).isSome = true) :
    (measure read .measured (labelledZero "measured")).isSome = true ∧
      (measure read .measured (labelledZero "estimated")).isSome = true ∧
      ∀ default default' : Provenance, measure read default (labelledZero "measured") ≠
        measure read default' (labelledZero "estimated") := by
  obtain ⟨x, value⟩ := Option.isSome_iff_exists.mp zero
  have measured : ∀ default, measure read default (labelledZero "measured") = some ⟨x, .measured⟩ := by
    intro default
    rw [labelledZero, measure, List.lookup_cons_self, Option.bind_some, value]
    rfl
  have estimated : ∀ default, measure read default (labelledZero "estimated") = some ⟨x, .estimated⟩ := by
    intro default
    rw [labelledZero, measure, List.lookup_cons_self, Option.bind_some, value]
    rfl
  refine ⟨by rw [measured]; rfl, by rw [estimated]; rfl, fun default default' same => ?_⟩
  rw [measured, estimated] at same
  cases same

theorem exists_apart (F : Type) [Float64 F] (field : EventField) :
    ∃ v v', field.reads F v = true ∧ field.reads F v' = true ∧
      ∀ default default' : Provenance,
        (field.filled default (some v) : FieldValue F) ≠ field.filled default' (some v') := by
  have words : some "a" ≠ some "b" := by decide
  have amounts := measure_apart readU64 rfl
  have costs := measure_apart (Value.asF64 (F := F)) rfl
  cases field with
  | executionId =>
    exact ⟨.string "a", .string "b", rfl, rfl, fun _ _ same => words (FieldValue.text.inj same)⟩
  | seq => exact ⟨.number "0", .number "1", rfl, rfl, fun _ _ same => nomatch same⟩
  | timestampMs => exact ⟨.number "0", .number "1", rfl, rfl, fun _ _ same => nomatch same⟩
  | kind =>
    refine ⟨.string "retry", .string "error", rfl, rfl, fun _ _ same => ?_⟩
    exact absurd (FieldValue.kind.inj same) (by decide +kernel)
  | tool =>
    exact ⟨.string "a", .string "b", rfl, rfl, fun _ _ same => words (FieldValue.text.inj same)⟩
  | callSignature =>
    exact ⟨.string "a", .string "b", rfl, rfl, fun _ _ same => words (FieldValue.text.inj same)⟩
  | metric m =>
    refine ⟨labelledZero "measured", labelledZero "estimated", ?_⟩
    cases m with
    | costUsd =>
      exact ⟨costs.1, costs.2.1, fun _ _ same => costs.2.2 _ _ (FieldValue.cost.inj same)⟩
    | _ =>
      exact ⟨amounts.1, amounts.2.1, fun _ _ same => amounts.2.2 _ _ (FieldValue.amount.inj same)⟩
  | retryOf => exact ⟨.number "0", .number "1", rfl, rfl, fun _ _ same => nomatch same⟩
  | error =>
    exact ⟨.string "a", .string "b", rfl, rfl, fun _ _ same => words (FieldValue.text.inj same)⟩

/-- A field follows a key exactly when it is the first of the field's keys that is there. -/
theorem follows_iff (own : key ∈ field.aliases) : field.Follows F env obj key ↔
    (field.aliases.find? fun k => (obj.lookup k).isSome) = some key := by
  constructor
  · intro follows
    by_contra other
    obtain ⟨v, v', reads, reads', apart⟩ := exists_apart F field
    have fixed : ∀ w (event : AgentEvent F),
        AgentEvent.fromJson env (.object (setField obj key w)) = .ok event →
          field.held event = field.filled (defaultProvenance obj) (getFirst obj field.aliases) := by
      intro w event parsed
      rw [held_eq parsed, defaultProvenance_setField (ne_provenance own), getFirst_setField_other other]
    obtain ⟨default, here⟩ := follows v reads _ rfl
    obtain ⟨default', there⟩ := follows v' reads' _ rfl
    rw [fixed v _ rfl] at here
    rw [fixed v' _ rfl] at there
    exact apart default default' (here.symm.trans there)
  · intro first v _ event parsed
    exact ⟨_, by rw [held_eq parsed, getFirst_setField_first first]⟩

end EventField

section Labels

variable {F} {env : TextEnv} {obj : Fields} {m : Metric} {event : AgentEvent F} {v : Value}

def Labelled (v : Value) : Prop := said (some v) = some .measured ∨ said (some v) = some .estimated

/-- The provenance of the metric follows that of the event. -/
def Metric.Follows (F : Type) [Float64 F] (env : TextEnv) (obj : Fields) (m : Metric) : Prop :=
  ∀ v, Labelled v → ∀ event : AgentEvent F,
    AgentEvent.fromJson env (.object (setField obj "provenance" v)) = .ok event →
      m.provenance event = said (some v)

theorem provenance_setField (present : (obj.lookup "provenance").isSome = true) (m : Metric)
    (parsed : AgentEvent.fromJson env (.object (setField obj "provenance" v)) = .ok event) :
    m.provenance event = if m.present F obj then
      some ((ownProvenance obj m.keys).getD
        (if said (some v) = some .estimated then .estimated else .measured)) else none := by
  have elsewhere : getFirst (setField obj "provenance" v) m.keys = getFirst obj m.keys := by
    refine getFirst_setField_other (fun found => ?_) v
    exact EventField.provenance_not_alias (.metric m) (List.mem_of_find?_eq_some found)
  have held : m.present F (setField obj "provenance" v) = m.present F obj := by
    cases m <;> simp only [Metric.present, holdsNumber, elsewhere]
  have own : ownProvenance (setField obj "provenance" v) m.keys = ownProvenance obj m.keys := by
    rw [ownProvenance, ownProvenance, elsewhere]
  have default : defaultProvenance (setField obj "provenance" v) =
      if said (some v) = some .estimated then .estimated else .measured := by
    obtain ⟨old, here⟩ := Option.isSome_iff_exists.mp present
    rw [defaultProvenance_eq, lookup_setField, here, Option.map_some, if_pos rfl]
  obtain ⟨event', parsed', label⟩ := fromJson_provenance (F := F) env (setField obj "provenance" v)
  obtain rfl := Except.ok.inj (parsed.symm.trans parsed')
  rw [label m, held, own, default]

theorem Metric.follows_iff (present : (obj.lookup "provenance").isSome = true) :
    m.Follows F env obj ↔ m.Bare F obj := by
  constructor
  · intro follows
    have label := follows (.string "measured") (.inl rfl) _ rfl
    have label' := follows (.string "estimated") (.inr rfl) _ rfl
    rw [provenance_setField present m rfl] at label label'
    cases here : m.present F obj with
    | false =>
      rw [here, if_neg Bool.false_ne_true] at label
      cases label
    | true =>
      rw [here, if_pos rfl] at label label'
      refine ⟨here, ?_⟩
      cases named : ownProvenance obj m.keys with
      | none => rfl
      | some q =>
        rw [named, Option.getD_some] at label label'
        exact absurd (label.symm.trans label') (by decide)
  · rintro ⟨here, named⟩ v word event parsed
    rw [provenance_setField present m parsed, here, if_pos rfl, named, Option.getD_none]
    rcases word with word | word
    · rw [word, if_neg (by decide)]
    · rw [word, if_pos rfl]

end Labels

end Typed

end StatGuardian.Stream
