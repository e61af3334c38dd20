import StatGuardian.Stream.Sanitize

namespace StatGuardian.Stream

/-- One step into a value: to the value under a key or to an item. -/
inductive Step where
  | key (name : String)
  | index (i : Nat)
  deriving DecidableEq, Repr

abbrev Position := List Step

namespace Value

def child? : Value → Step → Option Value
  | .object fields, .key name => fields.lookup name
  | .array items, .index i => items[i]?
  | _, _ => none

def get? (value : Value) : Position → Option Value
  | [] => some value
  | step :: rest => (value.child? step).bind (fun child => child.get? rest)

@[simp] theorem get?_nil (value : Value) : value.get? [] = some value := rfl

@[simp] theorem get?_cons (value : Value) (step : Step) (rest : Position) :
    value.get? (step :: rest) = (value.child? step).bind (fun child => child.get? rest) := rfl

theorem get?_append (value : Value) (position rest : Position) :
    value.get? (position ++ rest) = (value.get? position).bind (fun child => child.get? rest) := by
  induction position generalizing value with
  | nil => rfl
  | cons step position ih =>
    rw [List.cons_append, get?_cons, get?_cons, Option.bind_assoc]
    simp only [ih]

end Value

namespace Sanitizer

variable (env : TextEnv) (sanitizer : Sanitizer)

def renderFrom (path : String) : Position → String
  | [] => path
  | .key name :: rest => renderFrom (childPath path name) rest
  | .index i :: rest => renderFrom s!"{path}[{i}]" rest

def render (position : Position) : String := renderFrom "" position

theorem renderFrom_append (path : String) (position rest : Position) :
    renderFrom path (position ++ rest) = renderFrom (renderFrom path position) rest := by
  induction position generalizing path with
  | nil => rfl
  | cons step position ih => cases step <;> exact ih _

def redacts (key : String) : Bool := (sanitizer.redactionFor key).isSome

def redactsStep : Step → Bool
  | .key name => sanitizer.redacts name
  | .index _ => false

def normalizes (key : String) : Bool :=
  sanitizer.normalization.trimFields.contains key ||
    sanitizer.normalization.lowercaseFields.contains key ||
    sanitizer.normalization.uppercaseFields.contains key

def trimmed (key s : String) : String :=
  if sanitizer.normalization.trimFields.contains key then Text.trim s else s

def lowercased (key s : String) : String :=
  if sanitizer.normalization.lowercaseFields.contains key then env.toLowercase s else s

def uppercased (key s : String) : String :=
  if sanitizer.normalization.uppercaseFields.contains key then env.toUppercase s else s

def normalForm (key s : String) : String :=
  uppercased env sanitizer key (lowercased env sanitizer key (trimmed sanitizer key s))

theorem normalizeStep_eq (fields : List String) (change : String → String)
    (kind : SanitizationKind) (key path s : String) :
    normalizeStep fields change kind key path s =
      (if fields.contains key then change s else s,
        if (if fields.contains key then change s else s) = s then [] else [⟨path, kind⟩]) := by
  unfold normalizeStep
  cases fields.contains key with
  | false => simp
  | true => by_cases same : change s = s <;> simp [same]

theorem normalizeString_eq (key path s : String) :
    normalizeString env sanitizer key path s =
      (normalForm env sanitizer key s,
        (if trimmed sanitizer key s = s then [] else [⟨path, .trimmed⟩]) ++
        (if lowercased env sanitizer key (trimmed sanitizer key s) = trimmed sanitizer key s then []
          else [⟨path, .lowercased⟩]) ++
        (if normalForm env sanitizer key s =
            lowercased env sanitizer key (trimmed sanitizer key s) then []
          else [⟨path, .uppercased⟩])) := by
  simp only [normalizeString, normalizeStep_eq]
  rfl

theorem normalForm_of_unlisted (key s : String) (unlisted : sanitizer.normalizes key = false) :
    normalForm env sanitizer key s = s := by
  simp only [normalizes, Bool.or_eq_false_iff] at unlisted
  obtain ⟨⟨trim, lower⟩, upper⟩ := unlisted
  simp only [normalForm, trimmed, lowercased, uppercased, trim, lower, upper, Bool.false_eq_true,
    if_false]

variable {sanitizer} in
theorem noop_redacts (noop : sanitizer.isNoop = true) (key : String) :
    sanitizer.redactionFor key = none := by
  simp only [isNoop, Bool.and_eq_true, List.isEmpty_iff] at noop
  rw [redactionFor, noop.1.1.1]
  rfl

variable {sanitizer} in
theorem noop_normalizes (noop : sanitizer.isNoop = true) (key : String) :
    sanitizer.normalizes key = false := by
  simp only [isNoop, Bool.and_eq_true, List.isEmpty_iff] at noop
  obtain ⟨⟨⟨_, trim⟩, lower⟩, upper⟩ := noop
  rw [normalizes, trim, lower, upper]
  rfl

section Walk

variable {env sanitizer}

theorem walkEntry_redacted {key : String} {strategy : RedactionStrategy}
    (found : sanitizer.redactionFor key = some strategy) (path : String) (child : Value) :
    walkEntry env sanitizer path key child =
      ((redact env strategy child).1, [⟨childPath path key, (redact env strategy child).2⟩]) := by
  simp only [walkEntry, found]

theorem walkEntry_string {key : String} (free : sanitizer.redactionFor key = none)
    (path s : String) :
    walkEntry env sanitizer path key (.string s) =
      (some (.string (normalForm env sanitizer key s)),
        (normalizeString env sanitizer key (childPath path key) s).2) := by
  simp only [walkEntry, free, normalizeString_eq]

theorem walkEntry_other {key : String} (free : sanitizer.redactionFor key = none) (path : String)
    {child : Value} (other : ∀ s, child ≠ .string s) :
    walkEntry env sanitizer path key child =
      if sanitizer.recursive then
        (some (walk env sanitizer (childPath path key) child).1,
          (walk env sanitizer (childPath path key) child).2)
      else (some child, []) := by
  cases child with
  | string s => exact absurd rfl (other s)
  | _ => simp only [walkEntry, free]

variable (env sanitizer) in
def walkChild (path : String) (step : Step) (child : Value) :
    Option Value × List SanitizationEvent :=
  match step with
  | .key name => walkEntry env sanitizer path name child
  | .index i =>
    if sanitizer.recursive then
      (some (walk env sanitizer s!"{path}[{i}]" child).1,
        (walk env sanitizer s!"{path}[{i}]" child).2)
    else (some child, [])

variable (env sanitizer) in
/-- The four ways in which the walk treats a value. -/
inductive Treated (path : String) : Step → Value → Option Value × List SanitizationEvent → Prop where
  | redacted {key : String} {strategy : RedactionStrategy} (child : Value) :
      sanitizer.redactionFor key = some strategy →
      Treated path (.key key) child ((redact env strategy child).1,
        [⟨childPath path key, (redact env strategy child).2⟩])
  | normalized {key : String} (s : String) :
      sanitizer.redactionFor key = none →
      Treated path (.key key) (.string s) (some (.string (normalForm env sanitizer key s)),
        (normalizeString env sanitizer key (childPath path key) s).2)
  | descended {step : Step} (child : Value) :
      (∀ key, step = .key key → sanitizer.redactionFor key = none ∧ ∀ s, child ≠ .string s) →
      sanitizer.recursive = true →
      Treated path step child (some (walk env sanitizer (renderFrom path [step]) child).1,
        (walk env sanitizer (renderFrom path [step]) child).2)
  | left {step : Step} (child : Value) :
      (∀ key, step = .key key → sanitizer.redactionFor key = none ∧ ∀ s, child ≠ .string s) →
      sanitizer.recursive = false →
      Treated path step child (some child, [])

variable (env sanitizer) in
theorem walkChild_treated (path : String) (step : Step) (child : Value) :
    Treated env sanitizer path step child (walkChild env sanitizer path step child) := by
  cases step with
  | index i =>
    cases deep : sanitizer.recursive with
    | true =>
      simp only [walkChild, deep, if_true]
      exact .descended child nofun deep
    | false =>
      simp only [walkChild, deep, Bool.false_eq_true, if_false]
      exact .left child nofun deep
  | key name =>
    cases found : sanitizer.redactionFor name with
    | some strategy =>
      rw [walkChild, walkEntry_redacted found]
      exact .redacted child found
    | none =>
      by_cases text : ∃ s, child = .string s
      · obtain ⟨s, rfl⟩ := text
        rw [walkChild, walkEntry_string found]
        exact .normalized s found
      · have other : ∀ s, child ≠ .string s := fun s same => text ⟨s, same⟩
        have plain : ∀ key, Step.key name = .key key →
            sanitizer.redactionFor key = none ∧ ∀ s, child ≠ .string s := by
          intro key same
          cases same
          exact ⟨found, other⟩
        rw [walkChild, walkEntry_other found path other]
        cases deep : sanitizer.recursive with
        | true => exact .descended child plain deep
        | false => exact .left child plain deep

theorem walkEntry_dropped {path key : String} {child : Value}
    (dropped : (walkEntry env sanitizer path key child).1 = none) (other : Value) :
    (walkEntry env sanitizer path key other).1 = none := by
  have treated : Treated env sanitizer path (.key key) child _ :=
    walkChild_treated env sanitizer path (.key key) child
  rw [walkChild] at treated
  generalize walkEntry env sanitizer path key child = out at treated dropped
  cases treated with
  | redacted _ found =>
    rw [walkEntry_redacted found]
    rename_i strategy
    cases strategy with
    | drop => rfl
    | _ => cases dropped
  | normalized => cases dropped
  | descended => cases dropped
  | left => cases dropped

theorem lookup_walkFields (path name : String) (fields : List (String × Value)) :
    (walkFields env sanitizer path fields).1.lookup name =
      (fields.lookup name).bind (fun child => (walkEntry env sanitizer path name child).1) := by
  induction fields with
  | nil => rfl
  | cons field rest ih =>
    obtain ⟨key, child⟩ := field
    rw [walkFields_cons, List.lookup_append, ih, List.lookup_cons]
    by_cases same : name = key
    · subst same
      rw [beq_self_eq_true]
      cases kept : (walkEntry env sanitizer path name child).1 with
      | some value => simp [kept]
      | none =>
        -- what is dropped once is dropped under every entry of that key
        have gone : ∀ other, (walkEntry env sanitizer path name other).1 = none :=
          walkEntry_dropped kept
        cases rest.lookup name <;> simp [gone]
    · have apart : (name == key) = false := beq_eq_false_iff_ne.mpr same
      rw [apart]
      cases (walkEntry env sanitizer path key child).1 <;> simp [List.lookup_cons, apart]

variable (env sanitizer) in
theorem getElem?_walkItems (path : String) (start i : Nat) (items : List Value) :
    (walkItems env sanitizer path start items).1[i]? =
      items[i]?.map (fun child => (walk env sanitizer s!"{path}[{start + i}]" child).1) := by
  induction items generalizing start i with
  | nil => rfl
  | cons child rest ih =>
    rw [walkItems]
    cases i with
    | zero => rfl
    | succ i =>
      have next := ih (start + 1) i
      rw [Nat.add_assoc, Nat.add_comm 1 i] at next
      exact next

variable (env sanitizer) in
theorem walk_child? (path : String) (value : Value) (step : Step) :
    (walk env sanitizer path value).1.child? step =
      (value.child? step).bind (fun child => (walkChild env sanitizer path step child).1) := by
  cases value with
  | object fields =>
    cases step with
    | key name => exact lookup_walkFields path name fields
    | index i => rfl
  | array items =>
    rw [walk]
    cases deep : sanitizer.recursive with
    | true =>
      cases step with
      | key name => rfl
      | index i =>
        have item := getElem?_walkItems env sanitizer path 0 i items
        rw [Nat.zero_add] at item
        simp only [if_true, Value.child?, item, walkChild, deep]
        cases items[i]? <;> rfl
    | false =>
      cases step with
      | key name => rfl
      | index i =>
        simp only [Bool.false_eq_true, if_false, Value.child?, walkChild, deep]
        cases items[i]? <;> rfl
  | _ => cases step <;> rfl

theorem mem_walkFields {path name : String} {child : Value} {fields : List (String × Value)}
    (found : fields.lookup name = some child) {event : SanitizationEvent}
    (member : event ∈ (walkEntry env sanitizer path name child).2) :
    event ∈ (walkFields env sanitizer path fields).2 := by
  induction fields with
  | nil => cases found
  | cons field rest ih =>
    obtain ⟨key, first⟩ := field
    rw [walkFields_cons]
    rw [List.lookup_cons] at found
    by_cases same : name = key
    · subst same
      rw [beq_self_eq_true] at found
      cases found
      exact List.mem_append_left _ member
    · rw [beq_eq_false_iff_ne.mpr same] at found
      exact List.mem_append_right _ (ih found)

theorem mem_walkItems {path : String} {start i : Nat} {child : Value} {items : List Value}
    (found : items[i]? = some child) {event : SanitizationEvent}
    (member : event ∈ (walk env sanitizer s!"{path}[{start + i}]" child).2) :
    event ∈ (walkItems env sanitizer path start items).2 := by
  induction items generalizing start i with
  | nil => cases found
  | cons first rest ih =>
    rw [walkItems]
    cases i with
    | zero =>
      cases found
      exact List.mem_append_left _ member
    | succ i =>
      rw [show start + (i + 1) = start + 1 + i by omega] at member
      exact List.mem_append_right _ (ih found member)

theorem mem_walk {path : String} {value child : Value} {step : Step}
    (found : value.child? step = some child) {event : SanitizationEvent}
    (member : event ∈ (walkChild env sanitizer path step child).2) :
    event ∈ (walk env sanitizer path value).2 := by
  cases value with
  | object fields =>
    cases step with
    | key name => exact mem_walkFields found member
    | index i => cases found
  | array items =>
    cases step with
    | key name => cases found
    | index i =>
      rw [walkChild] at member
      rw [walk]
      cases deep : sanitizer.recursive with
      | true =>
        rw [deep, if_pos rfl] at member
        rw [← Nat.zero_add i] at member
        exact mem_walkItems found member
      | false =>
        rw [deep] at member
        cases member
  | _ => cases step <;> cases found

end Walk

end Sanitizer

def asciiText : TextEnv where
  toLowercase s := String.ofList (s.toList.map Char.toLower)
  toUppercase s := String.ofList (s.toList.map Char.toUpper)
  display _ := ""

end StatGuardian.Stream
