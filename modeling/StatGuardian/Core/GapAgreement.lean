import StatGuardian.Core.JoinedTokens

namespace StatGuardian.Core.Lexing

open Grammar Peg Rendering
open StatGuardian.Core.Parser (CoreResult)

/-- Two pairs of one rule that a part of the parser reads alike. -/
def Reads {β : Type} (r : Rule) (f : Pair Rule → β) (a a' : Pair Rule) : Prop :=
  a.rule = r ∧ a'.rule = r ∧ f a = f a'

section Reading

variable {β : Type} {r : Rule} {f : Pair Rule → β} {as as' : List (Pair Rule)}

theorem filter_reads (alike : List.Forall₂ (Reads r f) as as') :
    as.filter (fun a => a.rule == r) = as ∧ as'.filter (fun a => a.rule == r) = as' := by
  induction alike with
  | nil => exact ⟨rfl, rfl⟩
  | cons head _ ih =>
    exact ⟨by rw [List.filter_cons_of_pos (by simp [head.1]), ih.1],
      by rw [List.filter_cons_of_pos (by simp [head.2.1]), ih.2]⟩

theorem mapM_alike {f : Pair Rule → CoreResult β} (alike : List.Forall₂ (fun a a' => f a = f a') as as') :
    as.mapM f = as'.mapM f := by
  induction alike with
  | nil => rfl
  | cons head _ ih => rw [List.mapM_cons, List.mapM_cons, head, ih]

theorem mapM_reads {f : Pair Rule → CoreResult β} (alike : List.Forall₂ (Reads r f) as as') :
    (as.filter (fun a => a.rule == r)).mapM f = (as'.filter (fun a => a.rule == r)).mapM f := by
  rw [(filter_reads alike).1, (filter_reads alike).2]
  exact mapM_alike (alike.imp fun _ _ => (·.2.2))

theorem foldlM_alike {f : β → Pair Rule → CoreResult β}
    (alike : List.Forall₂ (fun a a' => ∀ b, f b a = f b a') as as') (b : β) :
    as.foldlM f b = as'.foldlM f b := by
  induction alike generalizing b with
  | nil => rfl
  | cons head _ ih => simp only [List.foldlM_cons, head, ih]

theorem rule_alike {n : Nat} {ρ σ : InputRel} {Q : PairsRel Rule} {p : Matcher} (agrees : Agrees n ρ σ Q p)
    (some_ : 1 ≤ n) (same : ∀ text text' inner inner', Q inner inner' →
      f (.mk r text inner) = f (.mk r text' inner')) :
    Agrees 1 ρ σ (One₂ (Reads r f)) (rule r p) :=
  agrees.rule r some_ fun text text' inner inner' pairs => ⟨rfl, rfl, same text text' inner inner' pairs⟩

end Reading

namespace Cut

variable {cut : Cut} {d : Nat} {k : String}

section Tokens

theorem sign_agrees {e : Nat} (k : String) (plain : k ∈ plainSigns) (level : nest d k.toList = e) :
    Agrees 1 (cut.solidIn d) (cut.start e) Silent₂ (lit (R := Rule) k) :=
  level ▸ (plainSign_steps plain).silent (.lit k)

theorem keyword_agrees (keyword : isKeyword k = true) :
    Agrees 1 (cut.solidIn d) (cut.startIn d) Silent₂ (lit (R := Rule) k) :=
  (keyword_steps keyword).silent (.lit k)

theorem rule_one (r : Rule) (p : Matcher) : Produces (rule r p) (One (·.rule = r)) :=
  Produces.rule (Q := fun _ => True) (fun _ _ _ _ => trivial) fun _ _ _ => rfl

theorem keywords_agrees (r : Rule) (texts : List String) (keywords : ∀ k ∈ texts, isKeyword k = true) :
    Agrees 1 (cut.solidIn d) (cut.startIn d) (One₂ (Equal₂ (·.rule = r)))
      (rule r (choice (texts.map lit))) :=
  ((keywords_step texts keywords).rule r).one (rule_one r _)

theorem identifier_agrees :
    Agrees 1 (cut.solidIn d) (cut.start d) (One₂ (Equal₂ (·.rule = .identifier))) identifier :=
  identifier_steps.one Parser.identifier_produces

theorem stringLiteral_agrees :
    Agrees 1 (cut.solidEq d) (cut.start d) (One₂ (Equal₂ (·.rule = .stringLiteral))) stringLiteral :=
  stringLiteral_steps.one Parser.stringLiteral_produces

theorem number_agrees :
    Agrees 1 (cut.solidEq d) (cut.start d) (One₂ (Equal₂ (·.rule = .number))) Grammar.number :=
  number_steps.one (Produces.atomic fun _ => rfl)

theorem comparisonOp_agrees :
    Agrees 1 (cut.solidIn d) (cut.start d) (One₂ (Equal₂ (·.rule = .comparisonOp))) comparisonOp :=
  comparisonOp_steps.one (rule_one _ _)

theorem call_agrees {word : String} (member : word ∈ callWords)
    (spelled : k.toList = word.toList ++ ['(']) :
    Agrees 1 (cut.solid d) (cut.start (d + 1)) Silent₂ (lit (R := Rule) k) :=
  (call_steps member spelled).silent (.lit k)

theorem solid_solidIn (s s' : List Char) (solid : cut.solid d s s') : cut.solidIn d s s' := .inl solid

theorem solid_solidEq (s s' : List Char) (solid : cut.solid d s s') : cut.solidEq d s s' := .inl solid

theorem start_startIn (s s' : List Char) (start : cut.start d s s') : cut.startIn d s s' := .inl start

variable {n : Nat} {ρ σ : InputRel} {Q : PairsRel Rule} {p : Matcher}

theorem startIn_agrees (agrees : Agrees n ρ (cut.start d) Q p) : Agrees n ρ (cut.startIn d) Q p :=
  agrees.imp (Nat.le_refl n) (fun _ _ => id) start_startIn fun _ _ => id

theorem solid_agrees (agrees : Agrees n (cut.solidIn d) σ Q p) : Agrees n (cut.solid d) σ Q p :=
  agrees.imp (Nat.le_refl n) solid_solidIn (fun _ _ => id) fun _ _ => id

end Tokens

section Schema

variable {F : Type} [Float64 F]

/-- The parts of a constraint are read by their rules and what they contain. -/
def Inner₂ (a a' : Pair Rule) : Prop := a.rule = a'.rule ∧ a.inner = a'.inner

theorem inner_agrees {n : Nat} {ρ σ : InputRel} {Q : PairsRel Rule} {p : Matcher} (r : Rule)
    (agrees : Agrees n ρ σ Q p) (some_ : 1 ≤ n) (same : ∀ as as', Q as as' → as = as') :
    Agrees 1 ρ σ (One₂ Inner₂) (rule r p) :=
  agrees.rule r some_ fun _ _ inner inner' pairs => ⟨rfl, same inner inner' pairs⟩

theorem bare_agrees (r : Rule) (keyword : isKeyword k = true) :
    Agrees 1 (cut.solid 0) (cut.startIn 0) (One₂ Inner₂) (rule r (lit k)) :=
  inner_agrees r (solid_agrees (keyword_agrees keyword)) (Nat.le_refl 1) fun _ _ ⟨silent, silent'⟩ => silent.trans silent'.symm

theorem call_parts_agrees {sign : String} {P : Pair Rule → Prop} {part : Matcher} (r : Rule) (word : String)
    (member : word ∈ callWords) (spelled : k.toList = word.toList ++ ['(']) (plain : sign ∈ plainSigns)
    (level : nest 1 sign.toList = 1)
    (agrees : Agrees 1 (cut.solid 1) (cut.start 1) (One₂ (Equal₂ P)) part) :
    Agrees 1 (cut.solid 0) (cut.startIn 0) (One₂ Inner₂)
      (rule r (phrase [lit k, part, lit sign, part, lit ")"])) := by
  have close : Agrees 1 (cut.solidIn 1) (cut.start 0) Silent₂ (lit (R := Rule) ")") :=
    sign_agrees ")" (by decide) rfl
  have second := Agrees.cons skip_shrinks agrees solidIn_of_start close.last
  have middle := Agrees.cons skip_shrinks (sign_agrees sign plain level) solid_skip second
  have first := Agrees.cons skip_shrinks agrees solidIn_of_start middle
  have whole := Agrees.cons skip_shrinks (call_agrees member spelled) solid_skip first
  refine inner_agrees r (startIn_agrees whole) (by omega) ?_
  intro as as' pairs
  rw [join_silent, join_one] at pairs
  obtain ⟨a, b, a', b', rfl, rfl, ⟨rfl, _⟩, pairs⟩ := pairs
  rw [join_silent, join_one] at pairs
  obtain ⟨c, e, c', e', rfl, rfl, ⟨rfl, _⟩, rfl, rfl⟩ := pairs
  rfl

theorem setting_part_agrees {P : Pair Rule → Prop} {part : Matcher} (r : Rule) (word : String)
    (member : word ∈ settingWords) (spelled : k.toList = word.toList ++ ['='])
    (agrees : Agrees 1 (cut.solidEq 0) (cut.start 0) (One₂ (Equal₂ P)) part)
    (refuses : ∀ rest, part ('=' :: rest) = none) :
    Agrees 1 (cut.solid 0) (cut.start 0) (One₂ Inner₂) (rule r (phrase [lit k, part])) :=
  inner_agrees r (setting_agrees member spelled agrees refuses) (by omega)
    fun _ _ ⟨_, _, same, same', equal, _⟩ => by rw [same, same', equal]

theorem enum_agrees : Agrees 1 (cut.solid 0) (cut.startIn 0) (One₂ Inner₂) enumConstraint := by
  have item : Agrees 2 (cut.solidIn 0) (cut.start 0) (One₂ (Equal₂ (·.rule = .stringLiteral)))
      (phrase [lit ",", stringLiteral]) :=
    (Agrees.cons skip_shrinks (sign_agrees "," (by decide) rfl) solidEq_of_start
      stringLiteral_agrees.last).pairs fun _ _ => join_silent.mp
  have items : Agrees 0 (cut.solidIn 0) (cut.startIn 0) (List.Forall₂ (Equal₂ (·.rule = .stringLiteral)))
      (zeroOrMore (phrase [lit ",", stringLiteral])) :=
    (startIn_agrees item).many_of_one.repeated skip_shrinks (by omega) solidIn_skip solidIn_startIn
  have close : Agrees 1 (cut.solidIn 0) (cut.startIn 0) Silent₂ (lit (R := Rule) "]") :=
    startIn_agrees (sign_agrees "]" (by decide) rfl)
  have later := Agrees.cons skip_shrinks items solidIn_skip close.last
  have first := Agrees.cons skip_shrinks stringLiteral_agrees solidIn_of_start later
  have open_ : Agrees 1 (cut.solid 0) (cut.start 0) Silent₂ (lit (R := Rule) "enum=[") :=
    enum_steps.silent (.lit _)
  refine inner_agrees _ (Agrees.cons skip_shrinks open_ solidEq_of_start first) (by omega) ?_
  intro as as' pairs
  rw [join_silent, join_one] at pairs
  obtain ⟨a, b, a', b', rfl, rfl, ⟨rfl, _⟩, pairs⟩ := pairs
  rw [join_silent_right] at pairs
  rw [all_equal pairs]

theorem constraint_agrees :
    Agrees 1 (cut.solid 0) (cut.startIn 0)
      (One₂ (Reads .constraint (Parser.parseConstraint (F := F)))) constraint := by
  have numbers : Agrees 1 (cut.solid 1) (cut.start 1) (One₂ (Equal₂ (·.rule = .number))) Grammar.number :=
    number_agrees.imp (Nat.le_refl 1) solid_solidEq (fun _ _ => id) fun _ _ => id
  have names : Agrees 1 (cut.solid 1) (cut.start 1) (One₂ (Equal₂ (·.rule = .identifier))) identifier :=
    solid_agrees identifier_agrees
  have noNumber : ∀ rest, Grammar.number ('=' :: rest) = none := fun _ => number_refuses rfl (by decide)
  have noString : ∀ rest, stringLiteral ('=' :: rest) = none := fun _ => stringLiteral_refuses (by decide)
  refine rule_alike (Agrees.choice (Q := One₂ Inner₂) (n := 1) fun p member => ?_) (Nat.le_refl 1) ?_
  · simp only [List.mem_cons, List.not_mem_nil, or_false] at member
    rcases member with rfl | rfl | rfl | rfl | rfl | rfl | rfl | rfl | rfl | rfl | rfl | rfl | rfl
    · exact call_parts_agrees _ "between" (by decide) rfl (by decide) rfl numbers
    · exact enum_agrees
    · exact call_parts_agrees _ "len" (by decide) rfl (by decide) rfl numbers
    · exact startIn_agrees (setting_part_agrees _ "regex" (by decide) rfl stringLiteral_agrees noString)
    · exact startIn_agrees (setting_part_agrees _ "min" (by decide) rfl number_agrees noNumber)
    · exact startIn_agrees (setting_part_agrees _ "max" (by decide) rfl number_agrees noNumber)
    · exact bare_agrees _ rfl
    · exact bare_agrees _ rfl
    · exact bare_agrees _ rfl
    · exact bare_agrees _ rfl
    · exact bare_agrees _ rfl
    · exact bare_agrees _ rfl
    · exact call_parts_agrees _ "foreign_key" (by decide) rfl (by decide) rfl names
  · rintro text text' _ _ ⟨⟨r, t, inner⟩, ⟨r', t', inner'⟩, rfl, rfl, rule, inside⟩
    obtain rfl : r = r' := rule
    obtain rfl : inner = inner' := inside
    rfl

theorem comma_constraint_agrees :
    Agrees 2 (cut.solidIn 0) (cut.startIn 0) (One₂ (Reads .constraint (Parser.parseConstraint (F := F))))
      (phrase [lit ",", constraint]) :=
  (Agrees.cons skip_shrinks (sign_agrees "," (by decide) rfl) solid_skip constraint_agrees.last).pairs
    fun _ _ => join_silent.mp

theorem fieldDef_agrees :
    Agrees 1 (cut.solidIn 0) (cut.startIn 0) (One₂ (Reads .fieldDef (Parser.parseField (F := F)))) fieldDef := by
  have trailing : Agrees 0 (cut.solidIn 0) (cut.startIn 0) Silent₂ (optional (lit (R := Rule) ",")) :=
    (startIn_agrees (sign_agrees "," (by decide) rfl)).optional_silent solidIn_startIn
  have constraints : Agrees 0 (cut.solidIn 0) (cut.startIn 0)
      (List.Forall₂ (Reads .constraint (Parser.parseConstraint (F := F))))
      (zeroOrMore (phrase [lit ",", constraint])) :=
    comma_constraint_agrees.many_of_one.repeated skip_shrinks (by omega) solidIn_skip solidIn_startIn
  have type : Agrees 1 (cut.solidIn 0) (cut.startIn 0) (One₂ (Equal₂ (·.rule = .dataType))) Grammar.dataType :=
    keywords_agrees .dataType ["datetime", "string", "float", "bool", "bytes", "date", "int"]
      (by decide)
  have later := Agrees.cons skip_shrinks constraints solidIn_skip trailing.last
  have typed := Agrees.cons skip_shrinks type solidIn_skip later
  have colon := Agrees.cons skip_shrinks (sign_agrees ":" (by decide) rfl) solidIn_of_start typed
  have named := Agrees.cons skip_shrinks identifier_agrees solidIn_of_start colon
  refine rule_alike named (by omega) fun text text' inner inner' pairs => ?_
  simp only [join_one, join_silent, join_silent_right] at pairs
  obtain ⟨name, _, name', _, rfl, rfl, ⟨rfl, _⟩, type, cs, type', cs', rfl, rfl, ⟨rfl, _⟩, pairs⟩ := pairs
  simp only [Parser.parseField, Pair.inner, Parser.next, bind, Except.bind, mapM_reads pairs]

theorem section_agrees {β : Type} {f : Pair Rule → β} {P : Pair Rule → Pair Rule → Prop} {item : Matcher}
    {n : Nat} {ρ σ : InputRel} (r : Rule) (keyword : isKeyword k = true) (agrees : Agrees n ρ σ (One₂ P) item)
    (some_ : 0 < n) (less : ∀ s s', cut.solid 0 s s' → ρ s s')
    (more : ∀ s s', σ s s' → ρ (skip s) (skip s')) (close : ∀ s s', σ s s' → cut.startIn 0 s s')
    (stays : ∀ s s', ρ s s' → σ s s')
    (same : ∀ text text' inner inner', List.Forall₂ P inner inner' →
      f (.mk r text inner) = f (.mk r text' inner')) :
    Agrees 1 (cut.solidIn 0) (cut.start 0) (One₂ (Reads r f))
      (rule r (phrase [lit k, lit "\x7b", zeroOrMore item, lit "\x7d"])) := by
  have items : Agrees 0 (cut.solid 0) (cut.startIn 0) (List.Forall₂ P) (zeroOrMore item) :=
    (agrees.many_of_one.repeated skip_shrinks some_ more stays).imp (Nat.le_refl 0) less close fun _ _ => id
  have ended : Agrees 1 (cut.solidIn 0) (cut.start 0) Silent₂ (lit (R := Rule) "\x7d") :=
    sign_agrees "\x7d" (by decide) rfl
  have later := Agrees.cons skip_shrinks items solidIn_skip ended.last
  have opened := Agrees.cons skip_shrinks (sign_agrees "\x7b" (by decide) rfl) solid_skip later
  have whole := Agrees.cons skip_shrinks (keyword_agrees keyword) solidIn_skip opened
  refine rule_alike whole (by omega) fun text text' inner inner' pairs => ?_
  simp only [join_silent, join_silent_right] at pairs
  exact same text text' inner inner' pairs

theorem schemaSection_agrees :
    Agrees 1 (cut.solidIn 0) (cut.start 0) (One₂ (Reads .schemaSection (Parser.parseSchema (F := F))))
      schemaSection :=
  section_agrees .schemaSection rfl fieldDef_agrees (by omega) solid_solidIn solidIn_skip
    (fun _ _ => id) solidIn_startIn fun _ _ _ _ alike => mapM_reads alike

end Schema

section Severities

/-- The parts that a rule starts with are a severity, perhaps, and a part that is none. -/
def Leads (P : Pair Rule → Pair Rule → Prop) (Q : PairsRel Rule) : PairsRel Rule :=
  Join (Maybe₂ (Reads .severityPrefix Parser.parseSeverity))
    (Join (One₂ fun a a' => a.rule ≠ .severityPrefix ∧ a'.rule ≠ .severityPrefix ∧ P a a') Q)

theorem severityPrefix_agrees :
    Agrees 1 (cut.solidIn 0) (cut.start 0) (One₂ (Reads .severityPrefix Parser.parseSeverity))
      severityPrefix := by
  have level : Agrees 1 (cut.solidIn 0) (cut.startIn 0) (One₂ (Equal₂ (·.rule = .severityLevel)))
      severityLevel :=
    keywords_agrees .severityLevel ["blocking", "error", "warning", "info"] (by decide)
  have colon : Agrees 1 (cut.solidIn 0) (cut.start 0) Silent₂ (lit (R := Rule) ":") :=
    sign_agrees ":" (by decide) rfl
  have later := Agrees.cons skip_shrinks level solidIn_skip colon.last
  have whole := Agrees.cons skip_shrinks (sign_agrees "@" (by decide) rfl) solidIn_of_start later
  refine rule_alike whole (by omega) fun text text' inner inner' pairs => ?_
  simp only [join_silent, join_silent_right] at pairs
  obtain ⟨a, _, rfl, rfl, rfl, _⟩ := pairs
  rfl

theorem prefixed_agrees {m : Nat} {τ : InputRel} {P : Pair Rule → Pair Rule → Prop} {Q : PairsRel Rule}
    {p : Matcher} {ps : List Matcher} (later : Agrees m (cut.solidIn 0) τ (Join (One₂ fun a a' =>
      a.rule ≠ .severityPrefix ∧ a'.rule ≠ .severityPrefix ∧ P a a') Q) (phrase (p :: ps))) :
    Agrees m (cut.solidIn 0) τ (Leads P Q) (phrase (optional severityPrefix :: p :: ps)) := by
  have prefix_ : Agrees 0 (cut.solidIn 0) (cut.startIn 0) (Maybe₂ (Reads .severityPrefix Parser.parseSeverity))
      (optional severityPrefix) :=
    (startIn_agrees severityPrefix_agrees).optional solidIn_startIn
  have whole := Agrees.cons skip_shrinks prefix_ solidIn_skip later
  exact whole.imp (by omega) (fun _ _ => id) (fun _ _ => id) fun _ _ => id

theorem equal_unprefixed {n : Nat} {ρ σ : InputRel} {r : Rule} {p : Matcher} (other : r ≠ .severityPrefix)
    (agrees : Agrees n ρ σ (One₂ (Equal₂ (·.rule = r))) p) :
    Agrees n ρ σ (One₂ fun a a' => a.rule ≠ .severityPrefix ∧ a'.rule ≠ .severityPrefix ∧ a = a') p := by
  refine agrees.pairs ?_
  rintro _ _ ⟨a, _, rfl, rfl, rfl, kind⟩
  exact ⟨a, a, rfl, rfl, kind ▸ other, kind ▸ other, rfl⟩

theorem leading_alike {β : Type} {P : Pair Rule → Pair Rule → Prop} {Q : PairsRel Rule} {as as' : List (Pair Rule)}
    (leads : Leads P Q as as') (f : Severity × Pair Rule × List (Pair Rule) → CoreResult β)
    (alike : ∀ severity a a' rest rest', P a a' → Q rest rest' →
      f (severity, a, rest) = f (severity, a', rest')) :
    (Parser.leadingSeverity as >>= f) = (Parser.leadingSeverity as' >>= f) := by
  obtain ⟨x, y, x', y', rfl, rfl, severity, leads⟩ := leads
  rw [join_one] at leads
  obtain ⟨a, rest, a', rest', rfl, rfl, ⟨other, other', holds⟩, pairs⟩ := leads
  rcases severity with ⟨rfl, rfl⟩ | ⟨p, p', rfl, rfl, kind, kind', same⟩
  · simp only [Parser.leadingSeverity, List.nil_append, Parser.next, bind, Except.bind, beq_iff_eq, other,
      other', if_false, pure, Except.pure]
    exact alike _ _ _ _ _ holds pairs
  · simp only [Parser.leadingSeverity, List.cons_append, List.nil_append, Parser.next, bind, Except.bind,
      beq_iff_eq, kind, kind', if_true, same]
    cases Parser.parseSeverity p' with
    | error e => rfl
    | ok level => exact alike _ _ _ _ _ holds pairs

end Severities

section Quality

variable {F : Type} [Float64 F]

theorem callers_agrees (r : Rule) (texts : List String) (all : ∀ k ∈ texts, k ∈ callers) :
    Agrees 1 (cut.solidIn d) (cut.startCall d) (One₂ (Equal₂ (·.rule = r)))
      (rule r (choice (texts.map lit))) := by
  have steps : Lockstep (cut.solidIn d) (cut.startCall d) (choice (texts.map (lit (R := Rule)))) := by
    refine Lockstep.choice fun p member => ?_
    obtain ⟨k, inside, rfl⟩ := List.mem_map.mp member
    exact caller_steps (all k inside)
  exact (steps.rule r).one (rule_one r _)

theorem open_agrees : Agrees 1 (cut.solidCall d) (cut.start (d + 1)) Silent₂ (lit (R := Rule) "(") :=
  open_steps.silent (.lit _)

theorem qualityMetric_agrees :
    Agrees 1 (cut.solidIn 0) (cut.start 0) (One₂ (Reads .qualityMetric Pair.inner)) Grammar.qualityMetric := by
  have fn : Agrees 1 (cut.solidIn 0) (cut.startCall 0) (One₂ (Equal₂ (·.rule = .metricFn))) Grammar.metricFn :=
    callers_agrees .metricFn ["completeness", "uniqueness", "validity", "consistency", "freshness",
      "non_null_rate"] (by decide)
  have close : Agrees 1 (cut.solidIn 1) (cut.start 0) Silent₂ (lit (R := Rule) ")") :=
    sign_agrees ")" (by decide) rfl
  have named := Agrees.cons skip_shrinks identifier_agrees solidIn_of_start close.last
  have opened := Agrees.cons skip_shrinks open_agrees solidIn_of_start named
  refine rule_alike (Agrees.cons skip_shrinks fn solidCall_skip opened) (by omega)
    fun text text' inner inner' pairs => ?_
  simp only [join_one, join_silent, join_silent_right] at pairs
  obtain ⟨a, _, a', _, rfl, rfl, ⟨rfl, _⟩, b, _, rfl, rfl, rfl, _⟩ := pairs
  rfl

theorem threshold_agrees :
    Agrees 2 (cut.solidIn d) (cut.start d)
      (Join (One₂ (Equal₂ (·.rule = .comparisonOp))) (One₂ (Equal₂ (·.rule = .number))))
      (phrase [comparisonOp, Grammar.number]) :=
  Agrees.cons skip_shrinks comparisonOp_agrees solidEq_of_start number_agrees.last

theorem qualityRule_agrees :
    Agrees 1 (cut.solidIn 0) (cut.startIn 0)
      (One₂ (Reads .qualityRule (Parser.parseQualityRule (F := F)))) qualityRule := by
  have metric : Agrees 1 (cut.solidIn 0) (cut.start 0) (One₂ fun a a' => a.rule ≠ .severityPrefix ∧
      a'.rule ≠ .severityPrefix ∧ a.inner = a'.inner) Grammar.qualityMetric := by
    refine qualityMetric_agrees.pairs ?_
    rintro _ _ ⟨a, a', rfl, rfl, kind, kind', same⟩
    exact ⟨a, a', rfl, rfl, by rw [kind]; decide, by rw [kind']; decide, same⟩
  have whole := prefixed_agrees (Agrees.cons skip_shrinks metric solidIn_of_start threshold_agrees)
  refine rule_alike (startIn_agrees whole) (by omega)
    fun text text' inner inner' pairs => leading_alike pairs _ ?_
  intro severity a a' rest rest' same pairs
  rw [join_one] at pairs
  obtain ⟨op, _, _, _, rfl, rfl, ⟨rfl, _⟩, threshold, _, rfl, rfl, rfl, _⟩ := pairs
  simp only [same]

theorem literalValue_agrees :
    Agrees 1 (cut.solidEq d) (cut.startIn d) (One₂ (Equal₂ (·.rule = .literalValue))) literalValue := by
  have steps : Lockstep (cut.solidEq d) (cut.startIn d) (choice [stringLiteral, boolean, Grammar.number]) := by
    refine Lockstep.choice fun p member => ?_
    simp only [List.mem_cons, List.not_mem_nil, or_false] at member
    rcases member with rfl | rfl | rfl
    · exact stringLiteral_steps.imp (fun _ _ => id) start_startIn
    · exact boolean_steps
    · exact number_steps.imp (fun _ _ => id) start_startIn
  exact (steps.rule _).one (rule_one _ _)

theorem crossColumnRule_agrees :
    Agrees 1 (cut.solidIn 0) (cut.startIn 0)
      (One₂ (Reads .crossColumnRule (Parser.parseCrossColumnRule (F := F)))) crossColumnRule := by
  have value : Agrees 2 (cut.solidIn 0) (cut.startIn 0)
      (Join (One₂ (Equal₂ (·.rule = .comparisonOp))) (One₂ (Equal₂ (·.rule = .literalValue))))
      (phrase [comparisonOp, literalValue]) :=
    Agrees.cons skip_shrinks comparisonOp_agrees solidEq_of_start literalValue_agrees.last
  have when_ : Agrees 1 (cut.solidIn 0) (cut.startIn 0) Silent₂ (lit (R := Rule) "when") :=
    keyword_agrees rfl
  have assert_ : Agrees 1 (cut.solidIn 0) (cut.startIn 0) Silent₂ (lit (R := Rule) "assert") :=
    keyword_agrees rfl
  have column := Agrees.cons skip_shrinks identifier_agrees solidIn_of_start value
  have later := Agrees.cons skip_shrinks when_ solidIn_skip column
  have literal := Agrees.cons skip_shrinks literalValue_agrees solidIn_skip later
  have compared := Agrees.cons skip_shrinks comparisonOp_agrees solidEq_of_start literal
  have name := Agrees.cons skip_shrinks (equal_unprefixed (by decide) identifier_agrees) solidIn_of_start compared
  have assert := Agrees.cons skip_shrinks assert_ solidIn_skip name
  have whole := prefixed_agrees (assert.pairs fun _ _ => join_silent.mp)
  refine rule_alike whole (by omega) fun text text' inner inner' pairs => leading_alike pairs _ ?_
  rintro severity a a' rest rest' rfl pairs
  simp only [join_one, join_silent] at pairs
  obtain ⟨op, _, _, _, rfl, rfl, ⟨rfl, _⟩, value, _, _, _, rfl, rfl, ⟨rfl, _⟩, column, _, _, _, rfl, rfl,
    ⟨rfl, _⟩, op', _, _, _, rfl, rfl, ⟨rfl, _⟩, value', _, rfl, rfl, rfl, _⟩ := pairs
  rfl

theorem qualitySection_agrees :
    Agrees 1 (cut.solidIn 0) (cut.start 0) (One₂ (Reads .qualitySection (Parser.parseQuality (F := F))))
      qualitySection := by
  have item : Agrees 1 (cut.solidIn 0) (cut.startIn 0)
      (One₂ fun a a' => Parser.qualityItem (F := F) a = Parser.qualityItem a')
      (choice [crossColumnRule, qualityRule]) := by
    refine Agrees.choice fun p member => ?_
    simp only [List.mem_cons, List.not_mem_nil, or_false] at member
    rcases member with rfl | rfl
    · refine (crossColumnRule_agrees (F := F)).pairs ?_
      rintro _ _ ⟨a, a', rfl, rfl, kind, kind', same⟩
      exact ⟨a, a', rfl, rfl, by simp only [Parser.qualityItem, kind, kind', same]⟩
    · refine (qualityRule_agrees (F := F)).pairs ?_
      rintro _ _ ⟨a, a', rfl, rfl, kind, kind', same⟩
      exact ⟨a, a', rfl, rfl, by simp only [Parser.qualityItem, kind, kind', same]⟩
  refine section_agrees .qualitySection rfl item (by omega) solid_solidIn solidIn_skip
    (fun _ _ => id) solidIn_startIn fun _ _ _ _ alike => ?_
  simp only [Parser.parseQuality, Pair.inner, mapM_alike alike]

end Quality

section Stats

variable {F : Type} [Float64 F]

theorem statsRule_agrees :
    Agrees 1 (cut.solidIn 0) (cut.startIn 0)
      (One₂ (Reads .statsRule (Parser.parseStatsRule (F := F)))) statsRule := by
  have fn : Agrees 1 (cut.solidIn 0) (cut.startIn 0) (One₂ (Equal₂ (·.rule = .statFn))) Grammar.statFn :=
    keywords_agrees .statFn ["median", "mean", "p999", "p99", "p95", "p05", "p01", "std", "min", "max"]
      (by decide)
  have drift : Agrees 1 (cut.solidIn 0) (cut.startIn 0) Silent₂ (lit (R := Rule) "drift") :=
    keyword_agrees rfl
  have drifts := Agrees.cons skip_shrinks drift solidIn_skip threshold_agrees
  have stat := Agrees.cons skip_shrinks fn solidIn_skip drifts
  have dot := Agrees.cons skip_shrinks (sign_agrees "." (by decide) rfl) solidIn_of_start stat
  have name := Agrees.cons skip_shrinks (equal_unprefixed (by decide) identifier_agrees) solidIn_of_start dot
  refine rule_alike (startIn_agrees (prefixed_agrees name)) (by omega)
    fun text text' inner inner' pairs => leading_alike pairs _ ?_
  rintro severity a a' rest rest' rfl pairs
  simp only [join_one, join_silent] at pairs
  obtain ⟨stat, _, _, _, rfl, rfl, ⟨rfl, _⟩, op, _, _, _, rfl, rfl, ⟨rfl, _⟩, threshold, _, rfl, rfl, rfl,
    _⟩ := pairs
  rfl

theorem statsSection_agrees :
    Agrees 1 (cut.solidIn 0) (cut.start 0) (One₂ (Reads .statsSection (Parser.parseStats (F := F))))
      statsSection :=
  section_agrees .statsSection rfl statsRule_agrees (by omega) solid_solidIn solidIn_skip
    (fun _ _ => id) solidIn_startIn fun _ _ _ _ alike => mapM_reads alike

end Stats

section Anomalies

theorem namedArg_agrees :
    Agrees 1 (cut.solidIn (d + 1)) (cut.startIn (d + 1))
      (One₂ (Reads .namedArg fun arg args => Parser.parseNamedArg args arg)) namedArg := by
  have steps : Lockstep (cut.solidEq (d + 1)) (cut.startIn (d + 1))
      (choice [stringLiteral, Grammar.number, boolean]) := by
    refine Lockstep.choice fun p member => ?_
    simp only [List.mem_cons, List.not_mem_nil, or_false] at member
    rcases member with rfl | rfl | rfl
    · exact stringLiteral_steps.imp (fun _ _ => id) start_startIn
    · exact number_steps.imp (fun _ _ => id) start_startIn
    · exact boolean_steps
  have one : Produces (choice [stringLiteral, Grammar.number, boolean]) (One fun _ => True) := by
    refine Produces.choice fun p member => ?_
    simp only [List.mem_cons, List.not_mem_nil, or_false] at member
    rcases member with rfl | rfl | rfl <;> exact Produces.atomic fun _ => trivial
  have equals : Agrees 1 (cut.solid (d + 1)) (cut.startEq (d + 1)) Silent₂ (lit (R := Rule) "=") :=
    equals_steps.silent (.lit _)
  have later := Agrees.cons skip_shrinks equals solidEq_skip (steps.one one).last
  refine rule_alike (Agrees.cons skip_shrinks identifier_agrees solid_skip later) (by omega)
    fun text text' inner inner' pairs => ?_
  simp only [join_one, join_silent] at pairs
  obtain ⟨key, _, _, _, rfl, rfl, ⟨rfl, _⟩, value, _, rfl, rfl, rfl, _⟩ := pairs
  rfl

theorem anomalyRule_agrees :
    Agrees 1 (cut.solidIn 0) (cut.startIn 0) (One₂ (Reads .anomalyRule Parser.parseAnomalyRule))
      anomalyRule := by
  have fn : Agrees 1 (cut.solidIn 0) (cut.startCall 0) (One₂ (Equal₂ (·.rule = .anomalyFn)))
      Grammar.anomalyFn :=
    callers_agrees .anomalyFn ["detect_outliers", "detect_nulls", "detect_duplicates",
      "detect_pattern_breaks", "detect_cardinality_explosion"] (by decide)
  have item : Agrees 2 (cut.solidIn 1) (cut.startIn 1)
      (One₂ (Reads .namedArg fun arg args => Parser.parseNamedArg args arg)) (phrase [lit ",", namedArg]) :=
    (Agrees.cons skip_shrinks (sign_agrees "," (by decide) rfl) solidIn_of_start
      namedArg_agrees.last).pairs fun _ _ => join_silent.mp
  have items : Agrees 0 (cut.solidIn 1) (cut.startIn 1)
      (List.Forall₂ (Reads .namedArg fun arg args => Parser.parseNamedArg args arg))
      (zeroOrMore (phrase [lit ",", namedArg])) :=
    item.many_of_one.repeated skip_shrinks (by omega) solidIn_skip solidIn_startIn
  have close : Agrees 1 (cut.solidIn 1) (cut.start 0) Silent₂ (lit (R := Rule) ")") :=
    sign_agrees ")" (by decide) rfl
  have args := Agrees.cons skip_shrinks items solidIn_skip close.last
  have column := Agrees.cons skip_shrinks identifier_agrees solidIn_of_start args
  have opened := Agrees.cons skip_shrinks open_agrees solidIn_of_start column
  have called := Agrees.cons skip_shrinks (equal_unprefixed (by decide) fn) solidCall_skip opened
  refine rule_alike (startIn_agrees (prefixed_agrees called)) (by omega)
    fun text text' inner inner' pairs => leading_alike pairs _ ?_
  rintro severity a a' rest rest' rfl pairs
  simp only [join_one, join_silent, join_silent_right] at pairs
  obtain ⟨column, cs, _, cs', rfl, rfl, ⟨rfl, _⟩, alike⟩ := pairs
  have same : cs.foldlM Parser.parseNamedArg [] = cs'.foldlM Parser.parseNamedArg [] :=
    foldlM_alike (alike.imp fun _ _ reads args => congrFun reads.2.2 args) []
  simp only [Parser.next, bind, Except.bind, (filter_reads alike).1, (filter_reads alike).2, same]

theorem anomalySection_agrees :
    Agrees 1 (cut.solidIn 0) (cut.start 0) (One₂ (Reads .anomalySection Parser.parseAnomalies))
      anomalySection :=
  section_agrees .anomalySection rfl anomalyRule_agrees (by omega) solid_solidIn
    solidIn_skip (fun _ _ => id) solidIn_startIn fun _ _ _ _ alike => mapM_reads alike

end Anomalies

section Stream

theorem streamOption_agrees :
    Agrees 1 (cut.solid 0) (cut.start 0)
      (One₂ fun a a' => ∀ cfg, Parser.streamOption cfg a = Parser.streamOption cfg a') streamOption := by
  have noString : ∀ rest, stringLiteral ('=' :: rest) = none := fun _ => stringLiteral_refuses (by decide)
  refine Agrees.rule _ (Agrees.choice (Q := One₂ Inner₂) (n := 1) fun p member => ?_) (Nat.le_refl 1) ?_
  · simp only [List.mem_cons, List.not_mem_nil, or_false] at member
    rcases member with rfl | rfl | rfl
    · exact setting_part_agrees _ "window" (by decide) rfl stringLiteral_agrees noString
    · exact setting_part_agrees _ "watermark" (by decide) rfl stringLiteral_agrees noString
    · exact setting_part_agrees _ "emit" (by decide) rfl stringLiteral_agrees noString
  · rintro text text' _ _ ⟨⟨r, t, inner⟩, ⟨r', t', inner'⟩, rfl, rfl, rule, inside⟩ cfg
    obtain rfl : r = r' := rule
    obtain rfl : inner = inner' := inside
    rfl

theorem streamSection_agrees :
    Agrees 1 (cut.solidIn 0) (cut.start 0) (One₂ (Reads .streamSection Parser.parseStream)) streamSection :=
  section_agrees .streamSection rfl streamOption_agrees (by omega) (fun _ _ => id) solid_skip
    start_startIn solid_start fun _ _ _ _ alike => foldlM_alike alike _

end Stream

section Datasets

variable {F : Type} [Float64 F]

theorem sectionRule_agrees :
    Agrees 1 (cut.solid 0) (cut.start 0)
      (One₂ fun a a' => ∀ contract : DataContract F,
        Parser.parseSection contract a = Parser.parseSection contract a') sectionRule := by
  refine Agrees.rule _ (Agrees.choice (Q := One₂ fun a a' => ∀ contract : DataContract F,
    Parser.parseSectionBody contract a = Parser.parseSectionBody contract a') (n := 1)
    fun p member => ?_) (Nat.le_refl 1) ?_
  · have body : ∀ {β : Type} {r : Rule} {f : Pair Rule → β} {p : Matcher},
        Agrees 1 (cut.solidIn 0) (cut.start 0) (One₂ (Reads r f)) p →
        (∀ a a', a.rule = r → a'.rule = r → f a = f a' → ∀ contract : DataContract F,
          Parser.parseSectionBody contract a = Parser.parseSectionBody contract a') →
        Agrees 1 (cut.solid 0) (cut.start 0) (One₂ fun a a' => ∀ contract : DataContract F,
          Parser.parseSectionBody contract a = Parser.parseSectionBody contract a') p := by
      intro β r f p agrees same
      refine (solid_agrees agrees).pairs ?_
      rintro _ _ ⟨a, a', rfl, rfl, kind, kind', alike⟩
      exact ⟨a, a', rfl, rfl, same a a' kind kind' alike⟩
    simp only [List.mem_cons, List.not_mem_nil, or_false] at member
    rcases member with rfl | rfl | rfl | rfl | rfl
    · exact body (schemaSection_agrees (F := F)) fun a a' kind kind' same contract => by
        simp only [Parser.parseSectionBody, kind, kind', same]
    · exact body (qualitySection_agrees (F := F)) fun a a' kind kind' same contract => by
        simp only [Parser.parseSectionBody, kind, kind', same]
    · exact body (statsSection_agrees (F := F)) fun a a' kind kind' same contract => by
        simp only [Parser.parseSectionBody, kind, kind', same]
    · exact body anomalySection_agrees fun a a' kind kind' same contract => by
        simp only [Parser.parseSectionBody, kind, kind', same]
    · exact body streamSection_agrees fun a a' kind kind' same contract => by
        simp only [Parser.parseSectionBody, kind, kind', same]
  · rintro text text' _ _ ⟨a, a', rfl, rfl, same⟩ contract
    exact same contract

theorem datasetDef_agrees :
    Agrees 1 (cut.solid 0) (cut.start 0) (One₂ (Reads .datasetDef (Parser.parseDataset (F := F)))) datasetDef := by
  have keyword : Agrees 1 (cut.solid 0) (cut.startIn 0) Silent₂ (lit (R := Rule) "dataset") :=
    solid_agrees (keyword_agrees rfl)
  have items : Agrees 0 (cut.solid 0) (cut.start 0) (List.Forall₂ fun a a' => ∀ contract : DataContract F,
      Parser.parseSection contract a = Parser.parseSection contract a') (zeroOrMore sectionRule) :=
    sectionRule_agrees.many_of_one.repeated skip_shrinks (by omega) solid_skip solid_start
  have close : Agrees 1 (cut.solidIn 0) (cut.start 0) Silent₂ (lit (R := Rule) "\x7d") :=
    sign_agrees "\x7d" (by decide) rfl
  have sections := Agrees.cons skip_shrinks items solidIn_of_start close.last
  have opened := Agrees.cons skip_shrinks (sign_agrees "\x7b" (by decide) rfl) solid_skip sections
  have named := Agrees.cons skip_shrinks identifier_agrees solidIn_of_start opened
  refine rule_alike (Agrees.cons skip_shrinks keyword solidIn_skip named) (by omega)
    fun text text' inner inner' pairs => ?_
  simp only [join_one, join_silent, join_silent_right] at pairs
  obtain ⟨name, _, _, _, rfl, rfl, ⟨rfl, _⟩, alike⟩ := pairs
  exact foldlM_alike alike _

/-- Two texts that differ in the gap are refused both, or they have the same contracts. -/
theorem contract_agrees {s s' : List Char} (start : cut.start 0 s s') :
    (contract s = none ∧ contract s' = none) ∨
      ∃ pairs pairs' rest rest', contract s = some (pairs, rest) ∧ contract s' = some (pairs', rest') ∧
        cut.moved = true ∧ (Parser.datasets pairs).mapM (Parser.parseDataset (F := F)) =
          (Parser.datasets pairs').mapM Parser.parseDataset := by
  have items : Agrees 0 (cut.solid 0) (cut.start 0)
      (List.Forall₂ (Reads .datasetDef (Parser.parseDataset (F := F)))) (zeroOrMore datasetDef) :=
    datasetDef_agrees.many_of_one.repeated skip_shrinks (by omega) solid_skip solid_start
  have later := Agrees.cons skip_shrinks items solidIn_of_start endOfInput_agrees.last
  have whole := Agrees.cons skip_shrinks Agrees.nothing solid_skip later
  rcases whole s s' start with ⟨refused, refused'⟩ | ⟨as, as', rest, rest', found, found', pairs, isMoved,
    size, size'⟩
  · exact .inl ⟨rule_none Rule.contract refused, rule_none Rule.contract refused'⟩
  · rw [join_silent] at pairs
    obtain ⟨ds, _, ds', _, rfl, rfl, alike, eoi, _, rfl, rfl, rfl, kind⟩ := pairs
    obtain ⟨text, here⟩ := rule_reads Rule.contract found
    obtain ⟨text', there⟩ := rule_reads Rule.contract found'
    refine .inr ⟨_, _, rest, rest', here, there, isMoved, ?_⟩
    have defs : ∀ (text : List Char) (ds : List (Pair Rule)),
        Parser.datasets [.mk .contract text (ds ++ [eoi])] = ds.filter (fun a => a.rule == .datasetDef) := by
      intro text ds
      simp [Parser.datasets, Pair.inner, kind]
    rw [defs, defs]
    exact mapM_reads alike

end Datasets

end Cut

end StatGuardian.Core.Lexing
