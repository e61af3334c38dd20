import StatGuardian.Stream.Positions

namespace StatGuardian.Stream

namespace Sanitizer

variable (env : TextEnv) (sanitizer : Sanitizer)

/-- A redacted key is on the way, at a depth that the redaction policy is about. -/
def covered (position : Position) : Bool :=
  (if sanitizer.redaction.recursive then position else position.take 1).any sanitizer.redactsStep

/-- Each policy without its recursive flag leaves alone what is deeper than the first step. -/
structure ScopesKept (value : Value) : Prop where
  redaction : sanitizer.redaction.recursive = false →
    ∀ position key, position ≠ [] → sanitizer.redacts key = true →
      sanitizer.covered position = false →
      (sanitizer.sanitize env value).1.get? (position ++ [.key key]) =
        value.get? (position ++ [.key key])
  normalization : sanitizer.normalization.recursive = false →
    ∀ position key s, position ≠ [] → sanitizer.normalizes key = true →
      sanitizer.covered (position ++ [.key key]) = false →
      value.get? (position ++ [.key key]) = some (.string s) →
      (sanitizer.sanitize env value).1.get? (position ++ [.key key]) = some (.string s)

/-- Where only the other policy is recursive, what it leads the walk to is already as the walk
    would leave it. -/
structure Settled (value : Value) : Prop where
  redaction : sanitizer.redaction.recursive = false → sanitizer.normalization.recursive = true →
    ∀ position key strategy child, position ≠ [] → sanitizer.redactionFor key = some strategy →
      (∀ step ∈ position, sanitizer.redactsStep step = false) →
      value.get? (position ++ [.key key]) = some child →
      (redact env strategy child).1 = some child
  normalization : sanitizer.normalization.recursive = false → sanitizer.redaction.recursive = true →
    ∀ position key s, position ≠ [] → sanitizer.normalizes key = true →
      (∀ step ∈ position ++ [.key key], sanitizer.redactsStep step = false) →
      value.get? (position ++ [.key key]) = some (.string s) →
      normalForm env sanitizer key s = s

variable {env sanitizer}

theorem redactionFor_of_not_redacts {key : String} (free : sanitizer.redactsStep (.key key) = false) :
    sanitizer.redactionFor key = none := by
  simpa [redactsStep, redacts] using free

theorem get?_string_append (s : String) (position : Position) (step : Step) :
    (Value.string s).get? (position ++ [step]) = none := by
  cases position <;> rfl

/-- A recursive walk comes to every position that no redacted key leads to. -/
theorem walk_reaches (deep : sanitizer.recursive = true) {position : Position}
    (free : ∀ step ∈ position, sanitizer.redactsStep step = false) (path : String) (value : Value)
    (step : Step) :
    (walk env sanitizer path value).1.get? (position ++ [step]) =
      (value.get? (position ++ [step])).bind
        (fun child => (walkChild env sanitizer (renderFrom path position) step child).1) := by
  induction position generalizing path value with
  | nil =>
    simp only [List.nil_append, Value.get?_cons, Value.get?_nil, Option.bind_fun_some, walk_child?]
    rfl
  | cons first rest ih =>
    have open_ := free first (List.mem_cons_self ..)
    rw [List.cons_append, Value.get?_cons, Value.get?_cons, walk_child?]
    cases value.child? first with
    | none => rfl
    | some child =>
      have treated := walkChild_treated env sanitizer path first child
      simp only [Option.bind_some]
      generalize walkChild env sanitizer path first child = out at treated ⊢
      cases treated with
      | redacted _ rule =>
        rw [redactionFor_of_not_redacts open_] at rule
        cases rule
      | normalized s => simp only [Option.bind_some, get?_string_append, Option.bind_none]
      | descended =>
        rw [show first :: rest = [first] ++ rest from rfl, renderFrom_append]
        exact ih (fun step member => free step (List.mem_cons_of_mem _ member)) _ child
      | left _ _ shallow => exact absurd (shallow.symm.trans deep) nofun

theorem walk_shallow (shallow : sanitizer.recursive = false) {first : Step}
    (free : sanitizer.redactsStep first = false) (path : String) (value : Value)
    (rest : Position) (step : Step) :
    (walk env sanitizer path value).1.get? (first :: (rest ++ [step])) =
      value.get? (first :: (rest ++ [step])) := by
  rw [Value.get?_cons, Value.get?_cons, walk_child?]
  cases value.child? first with
  | none => rfl
  | some child =>
    have treated := walkChild_treated env sanitizer path first child
    simp only [Option.bind_some]
    generalize walkChild env sanitizer path first child = out at treated ⊢
    cases treated with
    | redacted _ rule =>
      rw [redactionFor_of_not_redacts free] at rule
      cases rule
    | normalized s => simp only [Option.bind_some, get?_string_append]
    | descended _ _ deep => exact absurd (shallow.symm.trans deep) nofun
    | left => rfl

theorem covered_of_recursive (deep : sanitizer.redaction.recursive = true) (position : Position) :
    sanitizer.covered position = false ↔ ∀ step ∈ position, sanitizer.redactsStep step = false := by
  simp [covered, deep]

theorem covered_of_shallow (shallow : sanitizer.redaction.recursive = false) (first : Step)
    (rest : Position) : sanitizer.covered (first :: rest) = sanitizer.redactsStep first := by
  simp [covered, shallow]

theorem covered_of_free {position : Position}
    (free : ∀ step ∈ position, sanitizer.redactsStep step = false) :
    sanitizer.covered position = false := by
  unfold covered
  split
  · exact List.any_eq_false.mpr (fun step member => by rw [free step member]; nofun)
  · exact List.any_eq_false.mpr
      (fun step member => by rw [free step (List.mem_of_mem_take member)]; nofun)

theorem first_redacted (position : Position) {key : String} (redacted : sanitizer.redacts key = true) :
    ∃ before name after, position ++ [.key key] = before ++ .key name :: after ∧
      sanitizer.redacts name = true ∧ ∀ step ∈ before, sanitizer.redactsStep step = false := by
  have present : ((position ++ [Step.key key]).find? sanitizer.redactsStep).isSome := by
    rw [List.find?_isSome]
    exact ⟨.key key, by simp, redacted⟩
  obtain ⟨step, found⟩ := Option.isSome_iff_exists.mp present
  obtain ⟨holds, before, after, split, free⟩ := List.find?_eq_some_iff_append.mp found
  cases step with
  | index i => cases holds
  | key name =>
    exact ⟨before, name, after, split, holds, fun step member => by simpa using free step member⟩

/-- Where redaction is shallow in a recursive walk, what is under redacted keys is left alone
    exactly if it is what the rules make of it. -/
theorem redaction_kept_iff (value : Value) (shallow : sanitizer.redaction.recursive = false)
    (deep : sanitizer.recursive = true) :
    (∀ position key, position ≠ [] → sanitizer.redacts key = true →
      sanitizer.covered position = false →
      (walk env sanitizer "" value).1.get? (position ++ [.key key]) =
        value.get? (position ++ [.key key])) ↔
    ∀ position key strategy child, position ≠ [] → sanitizer.redactionFor key = some strategy →
      (∀ step ∈ position, sanitizer.redactsStep step = false) →
      value.get? (position ++ [.key key]) = some child →
      (redact env strategy child).1 = some child := by
  constructor
  · intro kept position key strategy child below rule free found
    have redacted : sanitizer.redacts key = true := by rw [redacts, rule]; rfl
    have same := kept position key below redacted (covered_of_free free)
    rw [walk_reaches deep free, found, Option.bind_some, walkChild, walkEntry_redacted rule] at same
    exact same
  · intro settled position key below redacted uncovered
    obtain ⟨before, name, after, split, first, free⟩ := first_redacted position redacted
    have inner : before ≠ [] := by
      rintro rfl
      obtain ⟨head, rest, rfl⟩ := List.exists_cons_of_ne_nil below
      obtain ⟨rfl, _⟩ := List.cons.inj split
      rw [covered_of_shallow shallow] at uncovered
      exact absurd (uncovered.symm.trans first) Bool.false_ne_true
    obtain ⟨strategy, rule⟩ := Option.isSome_iff_exists.mp first
    have same : (walk env sanitizer "" value).1.get? (before ++ [.key name]) =
        value.get? (before ++ [.key name]) := by
      rw [walk_reaches deep free]
      cases found : value.get? (before ++ [.key name]) with
      | none => rfl
      | some child =>
        rw [Option.bind_some, walkChild, walkEntry_redacted rule]
        exact settled before name strategy child inner rule free found
    rw [split, List.append_cons, Value.get?_append, Value.get?_append _ (before ++ _), same]

theorem normalization_kept_iff (value : Value) (deep : sanitizer.redaction.recursive = true) :
    (∀ position key s, position ≠ [] → sanitizer.normalizes key = true →
      sanitizer.covered (position ++ [.key key]) = false →
      value.get? (position ++ [.key key]) = some (.string s) →
      (walk env sanitizer "" value).1.get? (position ++ [.key key]) = some (.string s)) ↔
    ∀ position key s, position ≠ [] → sanitizer.normalizes key = true →
      (∀ step ∈ position ++ [.key key], sanitizer.redactsStep step = false) →
      value.get? (position ++ [.key key]) = some (.string s) →
      normalForm env sanitizer key s = s := by
  have recursive : sanitizer.recursive = true := by rw [Sanitizer.recursive, deep, Bool.true_or]
  have after : ∀ (position : Position) (key s : String),
      (∀ step ∈ position ++ [.key key], sanitizer.redactsStep step = false) →
      value.get? (position ++ [.key key]) = some (.string s) →
      (walk env sanitizer "" value).1.get? (position ++ [.key key]) =
        some (.string (normalForm env sanitizer key s)) := by
    intro position key s free found
    rw [walk_reaches recursive (fun step member => free step (List.mem_append_left _ member)), found,
      Option.bind_some, walkChild, walkEntry_string (redactionFor_of_not_redacts (free _ (by simp)))]
  simp only [covered_of_recursive deep]
  constructor
  · intro kept position key s below listed free found
    have same := (after position key s free found).symm.trans
      (kept position key s below listed free found)
    exact Value.string.inj (Option.some.inj same)
  · intro settled position key s below listed free found
    rw [after position key s free found, settled position key s below listed free found]

theorem shallow_kept (value : Value) (shallow : sanitizer.recursive = false) {position : Position}
    (below : position ≠ []) (uncovered : sanitizer.covered position = false) (key : String) :
    (walk env sanitizer "" value).1.get? (position ++ [.key key]) =
      value.get? (position ++ [.key key]) := by
  obtain ⟨first, rest, rfl⟩ := List.exists_cons_of_ne_nil below
  rw [Sanitizer.recursive, Bool.or_eq_false_iff] at shallow
  rw [covered_of_shallow shallow.1] at uncovered
  exact walk_shallow (Bool.or_eq_false_iff.mpr shallow) uncovered "" value rest (.key key)

theorem uncovered_ancestor {position : Position} {step : Step}
    (uncovered : sanitizer.covered (position ++ [step]) = false) :
    sanitizer.covered position = false := by
  cases deep : sanitizer.redaction.recursive with
  | true =>
    rw [covered_of_recursive deep] at uncovered ⊢
    exact fun step member => uncovered step (List.mem_append_left _ member)
  | false =>
    cases position with
    | nil => simp [covered]
    | cons first rest =>
      rw [List.cons_append, covered_of_shallow deep] at uncovered
      rw [covered_of_shallow deep, uncovered]

/-- Each policy keeps to its own scope exactly where both have the same scope or the wider one
    comes to nothing that would change. -/
theorem scopesKept_iff (value : Value) :
    ScopesKept env sanitizer value ↔ Settled env sanitizer value := by
  cases noop : sanitizer.isNoop with
  | true =>
    have same : (sanitizer.sanitize env value).1 = value := by rw [sanitize, noop, if_pos rfl]
    constructor
    · intro _
      constructor
      · intro _ _ _ key _ _ _ rule
        cases (noop_redacts noop key).symm.trans rule
      · intro _ _ _ key _ _ listed
        cases (noop_normalizes noop key).symm.trans listed
    · intro _
      constructor
      · intro _ _ _ _ _ _
        rw [same]
      · intro _ _ _ _ _ _ _ found
        rw [same, found]
  | false =>
    have same : (sanitizer.sanitize env value).1 = (walk env sanitizer "" value).1 := by
      rw [sanitize, noop, if_neg Bool.false_ne_true]
    constructor
    · intro kept
      constructor
      · intro shallow deep
        apply (redaction_kept_iff value shallow (by rw [Sanitizer.recursive, deep, Bool.or_true])).mp
        rw [← same]
        exact kept.redaction shallow
      · intro shallow deep
        apply (normalization_kept_iff value deep).mp
        rw [← same]
        exact kept.normalization shallow
    · intro settled
      constructor
      · intro shallow
        rw [same]
        cases deep : sanitizer.normalization.recursive with
        | true =>
          have recursive : sanitizer.recursive = true := by
            rw [Sanitizer.recursive, deep, Bool.or_true]
          exact (redaction_kept_iff value shallow recursive).mpr (settled.redaction shallow deep)
        | false =>
          intro position key below _ uncovered
          exact shallow_kept value (by rw [Sanitizer.recursive, deep, shallow]; rfl) below uncovered key
      · intro shallow
        rw [same]
        cases deep : sanitizer.redaction.recursive with
        | true => exact (normalization_kept_iff value deep).mpr (settled.normalization shallow deep)
        | false =>
          intro position key s below _ uncovered found
          rw [shallow_kept value (by rw [Sanitizer.recursive, deep, shallow]; rfl) below
            (uncovered_ancestor uncovered) key, found]

section NestedPassword

def topPasswords : Sanitizer :=
  ⟨⟨[⟨"password", .mask⟩], false⟩, ⟨["city"], [], [], true⟩⟩

def nestedPassword : Value := .object [("user", .object [("password", .string "hunter2")])]

theorem nested_password_masked : ¬ ScopesKept asciiText topPasswords nestedPassword := by
  intro kept
  have same : some (Value.string "[REDACTED]") = some (Value.string "hunter2") :=
    kept.redaction rfl [.key "user"] "password" nofun (by decide) (by decide)
  exact absurd (Value.string.inj (Option.some.inj same)) (by decide)

end NestedPassword

end Sanitizer

end StatGuardian.Stream
