import StatGuardian.Runtime.Text

namespace StatGuardian.Stream

/-- A `serde_json::Value`. A number is kept by its text, an object as its entries in the order of
    the map. -/
inductive Value where
  | null
  | bool (b : Bool)
  | number (text : String)
  | string (s : String)
  | array (items : List Value)
  | object (fields : List (String × Value))

/-- The string functions whose results the Unicode tables decide, and the text of a value. -/
structure TextEnv where
  toLowercase : String → String
  toUppercase : String → String
  /-- `Value::to_string` -/
  display : Value → String

inductive RedactionStrategy where
  | mask
  | maskWith (token : String)
  | hash
  | null
  | drop
  deriving DecidableEq, Repr

structure RedactionRule where
  field : String
  strategy : RedactionStrategy
  deriving DecidableEq, Repr

structure RedactionPolicy where
  rules : List RedactionRule
  recursive : Bool
  deriving DecidableEq, Repr

structure NormalizationPolicy where
  trimFields : List String
  lowercaseFields : List String
  uppercaseFields : List String
  recursive : Bool
  deriving DecidableEq, Repr

inductive SanitizationKind where
  | masked | hashed | nulled | dropped | trimmed | lowercased | uppercased
  deriving DecidableEq, Repr

def SanitizationKind.asStr : SanitizationKind → String
  | masked => "masked"
  | hashed => "hashed"
  | nulled => "nulled"
  | dropped => "dropped"
  | trimmed => "trimmed"
  | lowercased => "lowercased"
  | uppercased => "uppercased"

structure SanitizationEvent where
  path : String
  kind : SanitizationKind
  deriving DecidableEq, Repr

structure SanitizationSummary where
  totalEvents : Nat
  byKind : List (String × Nat)
  byField : List (String × Nat)
  deriving DecidableEq, Repr

namespace SanitizationSummary

def empty : SanitizationSummary := ⟨0, [], []⟩

/-- `*map.entry(key).or_insert(0) += 1` on a map that is ordered by its keys. -/
def bump (key : String) : List (String × Nat) → List (String × Nat)
  | [] => [(key, 1)]
  | (k, n) :: rest =>
    match compare key k with
    | .lt => (key, 1) :: (k, n) :: rest
    | .eq => (k, n + 1) :: rest
    | .gt => (k, n) :: bump key rest

def leaf (path : String) : String :=
  let parts := (path.toList.splitOnP (fun c => c == '.' || c == '[')).reverse
  ((parts.find? (fun s => ! s.isEmpty)).map String.ofList).getD path

def record (summary : SanitizationSummary) (event : SanitizationEvent) : SanitizationSummary where
  totalEvents := summary.totalEvents + 1
  byKind := bump event.kind.asStr summary.byKind
  byField := bump (leaf event.path) summary.byField

end SanitizationSummary

def fnv1a64 (bytes : List UInt8) : UInt64 :=
  bytes.foldl (fun hash b => (hash ^^^ b.toUInt64) * 0x100000001b3) 0xcbf29ce484222325

def hex16 (hash : UInt64) : String :=
  let digits := Nat.toDigits 16 hash.toNat
  String.ofList (List.replicate (16 - digits.length) '0' ++ digits)

def hashValue (env : TextEnv) (value : Value) : String :=
  let material := match value with
    | .string s => s
    | other => env.display other
  hex16 (fnv1a64 material.toUTF8.toList)

structure Sanitizer where
  redaction : RedactionPolicy
  normalization : NormalizationPolicy
  deriving DecidableEq, Repr

namespace Sanitizer

variable (env : TextEnv) (sanitizer : Sanitizer)

def isNoop : Bool :=
  sanitizer.redaction.rules.isEmpty && sanitizer.normalization.trimFields.isEmpty &&
    sanitizer.normalization.lowercaseFields.isEmpty &&
    sanitizer.normalization.uppercaseFields.isEmpty

def redactionFor (key : String) : Option RedactionStrategy :=
  (sanitizer.redaction.rules.find? (fun r => r.field == key)).map RedactionRule.strategy

def recursive : Bool := sanitizer.redaction.recursive || sanitizer.normalization.recursive

/-- One of the three steps of `normalize_value`. -/
def normalizeStep (fields : List String) (change : String → String) (kind : SanitizationKind)
    (key path s : String) : String × List SanitizationEvent :=
  if fields.contains key && change s != s then (change s, [⟨path, kind⟩]) else (s, [])

def normalizeString (key path s : String) : String × List SanitizationEvent :=
  let (s, trimmed) :=
    normalizeStep sanitizer.normalization.trimFields Text.trim .trimmed key path s
  let (s, lowered) := normalizeStep sanitizer.normalization.lowercaseFields env.toLowercase
    .lowercased key path s
  let (s, uppered) := normalizeStep sanitizer.normalization.uppercaseFields env.toUppercase
    .uppercased key path s
  (s, trimmed ++ lowered ++ uppered)

/-- What becomes of a redacted value: nothing if it is dropped. -/
def redact (strategy : RedactionStrategy) (child : Value) : Option Value × SanitizationKind :=
  match strategy with
  | .drop => (none, .dropped)
  | .mask => (some (.string "[REDACTED]"), .masked)
  | .maskWith token => (some (.string token), .masked)
  | .null => (some .null, .nulled)
  | .hash => (some (.string (hashValue env child)), .hashed)

def childPath (path key : String) : String := if path.isEmpty then key else s!"{path}.{key}"

mutual

def walk (path : String) : Value → Value × List SanitizationEvent
  | .object fields =>
    let (fields, events) := walkFields path fields
    (.object fields, events)
  | .array items =>
    if sanitizer.recursive then
      let (items, events) := walkItems path 0 items
      (.array items, events)
    else (.array items, [])
  | value => (value, [])

/-- The loop over the entries of an object. A drop keeps the order of the others, where
    `Map::remove` puts the last entry in the place of the one that goes. Only a string is
    normalized, and a string has nothing to walk into. -/
def walkFields (path : String) :
    List (String × Value) → List (String × Value) × List SanitizationEvent
  | [] => ([], [])
  | (key, child) :: rest =>
    let (kept, events) : Option Value × List SanitizationEvent :=
      match sanitizer.redactionFor key with
      | some strategy =>
        let (kept, kind) := redact env strategy child
        (kept, [⟨childPath path key, kind⟩])
      | none =>
        match child with
        | .string s =>
          let (s, events) := normalizeString env sanitizer key (childPath path key) s
          (some (.string s), events)
        | other =>
          if sanitizer.recursive then
            let (walked, events) := walk (childPath path key) other
            (some walked, events)
          else (some other, [])
    let (others, more) := walkFields path rest
    ((kept.map (fun value => (key, value))).toList ++ others, events ++ more)

def walkItems (path : String) (i : Nat) : List Value → List Value × List SanitizationEvent
  | [] => ([], [])
  | child :: rest =>
    let (walked, events) := walk s!"{path}[{i}]" child
    let (others, more) := walkItems path (i + 1) rest
    (walked :: others, events ++ more)

end

def walkEntry (path key : String) (child : Value) : Option Value × List SanitizationEvent :=
  match sanitizer.redactionFor key with
  | some strategy =>
    let (kept, kind) := redact env strategy child
    (kept, [⟨childPath path key, kind⟩])
  | none =>
    match child with
    | .string s =>
      let (s, events) := normalizeString env sanitizer key (childPath path key) s
      (some (.string s), events)
    | other =>
      if sanitizer.recursive then
        let (walked, events) := walk env sanitizer (childPath path key) other
        (some walked, events)
      else (some other, [])

theorem walkFields_cons (path key : String) (child : Value) (rest : List (String × Value)) :
    walkFields env sanitizer path ((key, child) :: rest) =
      (((walkEntry env sanitizer path key child).1.map (fun value => (key, value))).toList ++
          (walkFields env sanitizer path rest).1,
        (walkEntry env sanitizer path key child).2 ++ (walkFields env sanitizer path rest).2) := by
  cases child <;> simp only [walkFields, walkEntry]

def sanitize (value : Value) : Value × List SanitizationEvent :=
  if sanitizer.isNoop then (value, []) else walk env sanitizer "" value

end Sanitizer

end StatGuardian.Stream
