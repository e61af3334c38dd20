import StatGuardian.Stream.Positions

namespace StatGuardian.Stream

inductive Node where
  | null
  | bool (b : Bool)
  | number (text : String)
  | string (s : String)
  | array (length : Nat)
  | object
  deriving DecidableEq, Repr

def Value.node : Value → Node
  | .null => .null
  | .bool b => .bool b
  | .number text => .number text
  | .string s => .string s
  | .array items => .array items.length
  | .object _ => .object

/-- Something else stands at a position than before, or nothing where there was something. -/
def Value.DiffersAt (position : Position) (before after : Value) : Prop :=
  (after.get? position).map Value.node ≠ (before.get? position).map Value.node

namespace Sanitizer

variable (env : TextEnv) (sanitizer : Sanitizer)

/-- What stands under a key after the walk comes from a rule or from the lists, and an event says
    so for each change that was made. -/
inductive Disclosed (key path : String) (events : List SanitizationEvent) :
    Value → Option Value → Prop where
  | redacted {strategy : RedactionStrategy} (before : Value) :
      sanitizer.redactionFor key = some strategy →
      ⟨path, (redact env strategy before).2⟩ ∈ events →
      Disclosed key path events before (redact env strategy before).1
  | normalized {s : String} :
      sanitizer.redactionFor key = none →
      sanitizer.normalizes key = true →
      normalForm env sanitizer key s ≠ s →
      (trimmed sanitizer key s ≠ s → ⟨path, .trimmed⟩ ∈ events) →
      (lowercased env sanitizer key (trimmed sanitizer key s) ≠ trimmed sanitizer key s →
        ⟨path, .lowercased⟩ ∈ events) →
      (normalForm env sanitizer key s ≠ lowercased env sanitizer key (trimmed sanitizer key s) →
        ⟨path, .uppercased⟩ ∈ events) →
      Disclosed key path events (.string s) (some (.string (normalForm env sanitizer key s)))

variable {env sanitizer}

theorem Disclosed.mono {key path : String} {events more : List SanitizationEvent} {before : Value}
    {after : Option Value} (disclosed : Disclosed env sanitizer key path events before after)
    (subset : ∀ event ∈ events, event ∈ more) : Disclosed env sanitizer key path more before after := by
  cases disclosed with
  | redacted before found recorded => exact .redacted before found (subset _ recorded)
  | normalized free listed changed trim lower upper =>
    exact .normalized free listed changed (fun h => subset _ (trim h)) (fun h => subset _ (lower h))
      (fun h => subset _ (upper h))

theorem normalizeString_discloses {key s : String} (free : sanitizer.redactionFor key = none)
    (changed : normalForm env sanitizer key s ≠ s) (path : String) :
    Disclosed env sanitizer key path (normalizeString env sanitizer key path s).2 (.string s)
      (some (.string (normalForm env sanitizer key s))) := by
  have listed : sanitizer.normalizes key = true := by
    by_contra unlisted
    exact changed (normalForm_of_unlisted env sanitizer key s (Bool.eq_false_iff.mpr unlisted))
  rw [normalizeString_eq]
  apply Disclosed.normalized free listed changed
  · intro trim
    simp [trim]
  · intro lower
    simp [lower]
  · intro upper
    simp [upper]

theorem length_walkItems (path : String) (i : Nat) (items : List Value) :
    (walkItems env sanitizer path i items).1.length = items.length := by
  induction items generalizing i with
  | nil => rfl
  | cons child rest ih =>
    rw [walkItems, List.length_cons, List.length_cons, ← ih (i + 1)]

/-- A position at which the walk changes something is at or below a key whose change it
    discloses. -/
theorem walk_discloses {position : Position} {path : String} {value : Value}
    (differs : Value.DiffersAt position value (walk env sanitizer path value).1) :
    ∃ parent key rest before, position = parent ++ .key key :: rest ∧
      value.get? (parent ++ [.key key]) = some before ∧
      Disclosed env sanitizer key (renderFrom path (parent ++ [.key key]))
        (walk env sanitizer path value).2 before
        ((walk env sanitizer path value).1.get? (parent ++ [.key key])) := by
  induction position generalizing path value with
  | nil =>
    refine absurd ?_ differs
    cases value with
    | array items =>
      rw [walk]
      split
      · simp only [Value.get?_nil, Option.map_some, Value.node, length_walkItems]
      · rfl
    | object fields => rfl
    | _ => rfl
  | cons step rest ih =>
    have after := walk_child? env sanitizer path value step
    rw [Value.DiffersAt, Value.get?_cons, Value.get?_cons, after] at differs
    cases found : value.child? step with
    | none => simp [found] at differs
    | some child =>
      have kept : ∀ event ∈ (walkChild env sanitizer path step child).2, event ∈ (walk env sanitizer path value).2 :=
        fun event => mem_walk found
      have treated := walkChild_treated env sanitizer path step child
      rw [found, Option.bind_some] at after
      rw [found, Option.bind_some, Option.bind_some] at differs
      generalize walkChild env sanitizer path step child = out at treated differs after kept
      cases treated with
      | @redacted key strategy _ rule =>
        refine ⟨[], key, rest, child, rfl, by simp [found], ?_⟩
        rw [List.nil_append, Value.get?_cons, after]
        simp only [Value.get?_nil, Option.bind_fun_some]
        exact .redacted child rule (kept _ (List.mem_singleton.mpr rfl))
      | @normalized key s free =>
        have changed : normalForm env sanitizer key s ≠ s := by
          intro same
          rw [same] at differs
          exact differs rfl
        refine ⟨[], key, rest, .string s, rfl, by simp [found], ?_⟩
        rw [List.nil_append, Value.get?_cons, after]
        exact (normalizeString_discloses free changed _).mono kept
      | descended =>
        obtain ⟨parent, key, below, before, rfl, here, disclosed⟩ := ih differs
        refine ⟨step :: parent, key, below, before, rfl, ?_, ?_⟩
        · rw [List.cons_append, Value.get?_cons, found]
          exact here
        · rw [List.cons_append, Value.get?_cons, after]
          rw [← renderFrom_append] at disclosed
          exact disclosed.mono kept
      | left => exact absurd rfl differs

/-- No change is silent: where a sanitized value differs from the value, a rule or a list names a
    key at or above the position, and the events tell what was done under that key. -/
theorem sanitize_discloses (value : Value) :
    (∀ position, Value.DiffersAt position value (sanitizer.sanitize env value).1 →
      ∃ parent key rest before, position = parent ++ .key key :: rest ∧
        value.get? (parent ++ [.key key]) = some before ∧
        Disclosed env sanitizer key (render (parent ++ [.key key]))
          (sanitizer.sanitize env value).2 before
          ((sanitizer.sanitize env value).1.get? (parent ++ [.key key]))) ∧
      (sanitizer.isNoop = true → sanitizer.sanitize env value = (value, [])) := by
  constructor
  · intro position differs
    unfold sanitize at differs ⊢
    split at differs
    · exact absurd rfl differs
    · rename_i active
      simp only [active, Bool.false_eq_true, if_false]
      exact walk_discloses differs
  · intro noop
    rw [sanitize, noop, if_pos rfl]

end Sanitizer

end StatGuardian.Stream
