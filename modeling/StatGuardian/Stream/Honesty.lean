import StatGuardian.Stream.Budgets

namespace StatGuardian.Stream

inductive Metric where
  | tokensIn | tokensOut | costUsd | durationMs
  deriving DecidableEq, Repr

def said (v : Option Value) : Option Provenance :=
  match v.bind Value.asStr with
  | some "measured" => some .measured
  | some "estimated" => some .estimated
  | some "unknown" => some .unknown
  | _ => none

def ownProvenance (obj : Fields) (keys : List String) : Option Provenance :=
  match getFirst obj keys with
  | some (.object fields) => said (fields.lookup "provenance")
  | _ => none

/-- The first of the keys holds a number, plain or with its provenance. -/
def holdsNumber {T : Type} (read : Value → Option T) (obj : Fields) (keys : List String) : Bool :=
  match getFirst obj keys with
  | some (.number text) => (read (.number text)).isSome
  | some (.object fields) => ((fields.lookup "value").bind read).isSome
  | _ => false

def defaultProvenance (obj : Fields) : Provenance :=
  match getStr obj ["provenance"] with
  | some "measured" => .measured
  | some "estimated" => .estimated
  | _ => .measured

namespace Metric

def keys : Metric → List String
  | tokensIn => ["tokens_in", "input_tokens", "prompt_tokens"]
  | tokensOut => ["tokens_out", "output_tokens", "completion_tokens"]
  | costUsd => ["cost_usd", "cost"]
  | durationMs => ["duration_ms", "latency_ms", "elapsed_ms"]

def provenance {F : Type} (event : AgentEvent F) : Metric → Option Provenance
  | tokensIn => event.tokensIn.map Measured.provenance
  | tokensOut => event.tokensOut.map Measured.provenance
  | costUsd => event.costUsd.map Measured.provenance
  | durationMs => event.durationMs.map Measured.provenance

/-- The object has a value for the metric, which is a float for the cost. -/
def present (F : Type) [Float64 F] (obj : Fields) (m : Metric) : Bool :=
  match m with
  | costUsd => holdsNumber (Value.asF64 (F := F)) obj m.keys
  | tokensIn | tokensOut | durationMs => holdsNumber Value.asU64 obj m.keys

/-- A metric that names no provenance itself. -/
def Bare (F : Type) [Float64 F] (obj : Fields) (m : Metric) : Prop :=
  m.present F obj = true ∧ ownProvenance obj m.keys = none

end Metric

/-- No metric is measured against its own word, or against that of the event where it has none. -/
def Honest {F : Type} (obj : Fields) (event : AgentEvent F) : Prop :=
  ∀ m p word, m.provenance event = some p →
    (ownProvenance obj (Metric.keys m)).or (said (obj.lookup "provenance")) = some word →
      word ≠ .measured → p ≠ .measured

theorem getFirst_one (obj : Fields) (key : String) : getFirst obj [key] = obj.lookup key := by
  rw [getFirst, List.findSome?_cons, List.findSome?_nil]
  cases obj.lookup key <;> rfl

theorem parseProvenance_eq (v : Option Value) (default : Provenance) :
    parseProvenance v default = (said v).getD default := by
  unfold parseProvenance said
  split <;> simp_all

theorem parseMeasured_provenance {T : Type} (read : Value → Option T) (obj : Fields)
    (keys : List String) (default : Provenance) :
    (parseMeasured read obj keys default).map Measured.provenance =
      if holdsNumber read obj keys then some ((ownProvenance obj keys).getD default) else none := by
  unfold parseMeasured holdsNumber ownProvenance
  cases getFirst obj keys with
  | none => rfl
  | some v =>
    cases v with
    | number text =>
      simp only [Option.bind_eq_bind, Option.bind_some]
      cases read (.number text) <;> rfl
    | object fields =>
      simp only [Option.bind_eq_bind, Option.bind_some, parseProvenance_eq]
      cases (fields.lookup "value").bind read <;> rfl
    | _ => rfl

theorem holdsNumber_map {T U : Type} (read : Value → Option T) (f : T → U) (obj : Fields)
    (keys : List String) :
    holdsNumber (fun v => (read v).map f) obj keys = holdsNumber read obj keys := by
  unfold holdsNumber
  split
  · exact Option.isSome_map
  · rename_i fields _
    cases fields.lookup "value" with
    | none => rfl
    | some v => exact Option.isSome_map
  · rfl

/-- Of the provenances of an event only an estimate is passed on. -/
theorem defaultProvenance_eq (obj : Fields) : defaultProvenance obj =
    if said (obj.lookup "provenance") = some .estimated then .estimated else .measured := by
  unfold defaultProvenance said getStr
  rw [getFirst_one]
  split <;> simp_all
  split <;> simp_all

section Parsing

variable {F : Type} [Float64 F]

theorem fromJson_provenance (env : TextEnv) (obj : Fields) :
    ∃ event : AgentEvent F, AgentEvent.fromJson env (.object obj) = .ok event ∧
      ∀ m : Metric, m.provenance event = if m.present F obj then
        some ((ownProvenance obj m.keys).getD (defaultProvenance obj)) else none := by
  refine ⟨_, rfl, fun m => ?_⟩
  have u64 : ∀ keys : List String,
      (parseMeasuredU64 obj keys (defaultProvenance obj)).map Measured.provenance =
        if holdsNumber Value.asU64 obj keys then
          some ((ownProvenance obj keys).getD (defaultProvenance obj)) else none := by
    intro keys
    rw [parseMeasuredU64, parseMeasured_provenance, holdsNumber_map]
  cases m with
  | tokensIn => exact u64 _
  | tokensOut => exact u64 _
  | costUsd => exact parseMeasured_provenance Value.asF64 obj _ _
  | durationMs => exact u64 _

/-- A metric is mislabelled exactly when it names no provenance itself and that of the event is
    unknown. -/
theorem honest_iff (env : TextEnv) (obj : Fields) :
    ∃ event : AgentEvent F, AgentEvent.fromJson env (.object obj) = .ok event ∧
      (Honest obj event ↔
        (said (obj.lookup "provenance") = some .unknown → ∀ m : Metric, ¬ m.Bare F obj)) := by
  obtain ⟨event, parsed, labels⟩ := fromJson_provenance (F := F) env obj
  refine ⟨event, parsed, ?_⟩
  constructor
  · rintro honest unknown m ⟨present, bare⟩
    have label := labels m
    rw [present, if_pos rfl, bare, Option.getD_none, defaultProvenance_eq, unknown] at label
    have word : (ownProvenance obj m.keys).or (said (obj.lookup "provenance")) = some .unknown := by
      rw [bare, unknown, Option.none_or]
    exact honest m .measured .unknown label word (by decide) rfl
  · intro clear m p word label told doubted
    rw [labels] at label
    split at label
    · rename_i present
      have named := Option.some.inj label
      cases own : ownProvenance obj m.keys with
      | some q =>
        rw [own, Option.some_or] at told
        rw [own, Option.getD_some] at named
        rw [← named, Option.some.inj told]
        exact doubted
      | none =>
        rw [own, Option.none_or] at told
        rw [own, Option.getD_none, defaultProvenance_eq, told] at named
        cases word with
        | measured => exact absurd rfl doubted
        | estimated =>
          rw [← named]
          decide
        | unknown => exact absurd ⟨present, own⟩ (clear told m)
    · cases label

end Parsing

/-- An event that told that it does not know where its numbers come from. -/
def unknownTokens : Fields := [("tokens_in", .number "5"), ("provenance", .string "unknown")]

theorem unknown_tokens_measured :
    ∃ event : AgentEvent ExtRat, AgentEvent.fromJson plainText (.object unknownTokens) = .ok event ∧
      event.tokensIn = some ⟨5, .measured⟩ ∧ ¬ Honest unknownTokens event := by
  refine ⟨_, rfl, by decide +kernel, fun honest => ?_⟩
  exact honest .tokensIn .measured .unknown (by decide +kernel) rfl (by decide) rfl

end StatGuardian.Stream
