import StatGuardian.Core.Sections
import StatGuardian.Core.Tokens
import StatGuardian.Library.PegOutput

namespace StatGuardian.Core.Parser

open Grammar Peg Rendering

section Numerals

theorem digits_consumes : Consumes (R := Rule) digits (fun text => ∃ ds : Digits, text = ds.text) := by
  have digit : Consumes (R := Rule) (charIf Char.isDigit)
      (fun text => ∀ c ∈ text, c.isDigit = true) := by
    refine (Consumes.charIf Char.isDigit).imp fun text single => ?_
    obtain ⟨c, rfl, holds⟩ := single
    exact List.forall_mem_singleton.mpr holds
  refine ((Consumes.charIf Char.isDigit).seq digit.star).imp fun text both => ?_
  obtain ⟨_, more, rfl, ⟨c, rfl, first⟩, rest⟩ := both
  exact ⟨⟨c :: more, List.cons_ne_nil c more, List.forall_mem_cons.mpr ⟨first, rest⟩⟩, rfl⟩

theorem sign_consumes :
    Consumes (R := Rule) (optional (choice [lit "+", lit "-"]))
      (fun text => ∃ sign : Sign, text = sign.text) := by
  refine (Consumes.keywords ["+", "-"]).optional.imp fun text either => ?_
  rcases either with rfl | ⟨t, member, rfl⟩
  · exact ⟨.unsigned, rfl⟩
  · simp only [List.mem_cons, List.not_mem_nil, or_false] at member
    rcases member with rfl | rfl
    · exact ⟨.plus, rfl⟩
    · exact ⟨.minus, rfl⟩

theorem exponent_consumes :
    Consumes (R := Rule) (atomically [charIf (fun c => c == 'e' || c == 'E'),
      optional (choice [lit "+", lit "-"]), digits])
      (fun text => ∃ e : Exponent, text = e.text) := by
  refine (Consumes.sequence (.cons (Consumes.charIf _) (.cons sign_consumes
    (.cons digits_consumes .nil)))).imp fun text parts => ?_
  obtain ⟨_, _, rfl, ⟨c, rfl, mark⟩, _, _, rfl, ⟨sign, rfl⟩, _, _, rfl, ⟨ds, rfl⟩, rfl⟩ := parts
  rw [Bool.or_eq_true, beq_iff_eq, beq_iff_eq] at mark
  rcases mark with rfl | rfl
  · exact ⟨⟨false, sign, ds⟩, by simp [Exponent.text]⟩
  · exact ⟨⟨true, sign, ds⟩, by simp [Exponent.text]⟩

theorem number_consumes :
    Consumes (R := Rule) (atomically [optional (lit "-"), digits, optional (seq (lit ".") digits),
      optional (atomically [charIf (fun c => c == 'e' || c == 'E'),
        optional (choice [lit "+", lit "-"]), digits])])
      (fun text => ∃ n : Numeral, text = n.text) := by
  refine (Consumes.sequence (.cons (Consumes.lit "-").optional (.cons digits_consumes
    (.cons ((Consumes.lit ".").seq digits_consumes).optional
      (.cons exponent_consumes.optional .nil))))).imp fun text parts => ?_
  obtain ⟨mark, _, rfl, minus, _, _, rfl, ⟨whole, rfl⟩, decimals, _, rfl, fraction, power, _, rfl,
    exponent, rfl⟩ := parts
  have signed : ∃ negative : Bool, mark = if negative then ['-'] else [] := by
    rcases minus with rfl | rfl
    · exact ⟨false, rfl⟩
    · exact ⟨true, rfl⟩
  have fractional : ∃ ds : Option Digits, decimals = ds.elim [] (fun d => '.' :: d.text) := by
    rcases fraction with rfl | ⟨_, _, rfl, rfl, ds, rfl⟩
    · exact ⟨none, rfl⟩
    · exact ⟨some ds, rfl⟩
  have scaled : ∃ e : Option Exponent, power = e.elim [] Exponent.text := by
    rcases exponent with rfl | ⟨e, rfl⟩
    · exact ⟨none, rfl⟩
    · exact ⟨some e, rfl⟩
  obtain ⟨negative, rfl⟩ := signed
  obtain ⟨ds, rfl⟩ := fractional
  obtain ⟨e, rfl⟩ := scaled
  exact ⟨⟨negative, whole, ds, e⟩, by
    simp [Numeral.text, Numeral.fractionText, Numeral.exponentText]⟩

end Numerals

variable (F : Type) [Float64 F]

section Tokens

def IsNumber (pair : Pair Rule) : Prop :=
  pair.rule = .number ∧ ∃ x : F, Core.Parser.number pair = .ok x

theorem number_produces : Produces Grammar.number (One (IsNumber F)) := by
  refine Produces.atomic_text number_consumes fun text shape => ⟨rfl, ?_⟩
  obtain ⟨n, rfl⟩ := shape
  exact ⟨Float64.ofRat n.value, by
    simp [Core.Parser.number, Pair.text, parseF64, decimal_text, unwrap]⟩

theorem identifier_produces : Produces identifier (One (·.rule = .identifier)) :=
  Produces.atomic fun _ => rfl

theorem stringLiteral_produces : Produces stringLiteral (One (·.rule = .stringLiteral)) :=
  Produces.atomic fun _ => rfl

end Tokens

section Schema

def Constrains (inner : Pair Rule) : Prop :=
  ∀ text, ∃ c : Constraint F, parseConstraint (.mk .constraint text [inner]) = .ok c

theorem constrains_bare (r : Rule) (keyword : String)
    (plain : ∀ taken, Constrains F (.mk r taken [])) :
    Produces (rule r (lit keyword)) (One (Constrains F)) :=
  Produces.rule (Produces.lit keyword) fun taken inner silent => by
    rw [show inner = [] from silent]
    exact plain taken

theorem constrains_number (r : Rule) (keyword : String) (build : F → Constraint F)
    (reads : ∀ text taken pair, parseConstraint (.mk .constraint text [.mk r taken [pair]]) =
      (Core.Parser.number pair >>= fun x => pure (build x))) :
    Produces (rule r (phrase [lit keyword, Grammar.number])) (One (Constrains F)) := by
  refine Produces.rule (Produces.sequence skip (.cons (.lit _)
    (.cons (number_produces F) .nil))) fun taken inner shape => ?_
  simp only [concat_silent, concat_one, concat_nil] at shape
  obtain ⟨pair, _, rfl, ⟨-, x, converts⟩, rfl⟩ := shape
  exact fun text => ⟨build x, by rw [reads, converts]; rfl⟩

theorem constrains_numbers (r : Rule) (keyword : String) (build : F → F → Constraint F)
    (reads : ∀ text taken pair pair',
      parseConstraint (.mk .constraint text [.mk r taken [pair, pair']]) =
        (Core.Parser.number pair >>= fun x => Core.Parser.number pair' >>= fun y =>
          pure (build x y))) :
    Produces (rule r (phrase [lit keyword, Grammar.number, lit ",", Grammar.number, lit ")"]))
      (One (Constrains F)) := by
  refine Produces.rule (Produces.sequence skip (.cons (.lit _) (.cons (number_produces F)
    (.cons (.lit _) (.cons (number_produces F) (.cons (.lit _) .nil)))))) fun taken inner shape => ?_
  simp only [concat_silent, concat_one, concat_nil] at shape
  obtain ⟨pair, _, rfl, ⟨-, x, converts⟩, pair', _, rfl, ⟨-, y, converts'⟩, rfl⟩ := shape
  exact fun text => ⟨build x y, by
    simp only [reads, converts, converts', bind, Except.bind, pure, Except.pure]⟩

theorem constrains_enum : Produces enumConstraint (One (Constrains F)) :=
  Produces.rule (Q := fun _ => True) (fun _ _ _ _ => trivial) fun _ inner _ _ =>
    ⟨.enum (inner.map (fun p => unquote p.text)), rfl⟩

theorem constrains_regex : Produces regexConstraint (One (Constrains F)) := by
  refine Produces.rule (Produces.sequence skip (.cons (.lit _)
    (.cons stringLiteral_produces .nil))) fun taken inner shape => ?_
  simp only [concat_silent, concat_one, concat_nil] at shape
  obtain ⟨pair, _, rfl, -, rfl⟩ := shape
  exact fun text => ⟨.regex (unquote pair.text), rfl⟩

theorem constrains_foreignKey : Produces foreignKey (One (Constrains F)) := by
  refine Produces.rule (Produces.sequence skip (.cons (.lit _) (.cons identifier_produces
    (.cons (.lit _) (.cons identifier_produces (.cons (.lit _) .nil)))))) fun taken inner shape => ?_
  simp only [concat_silent, concat_one, concat_nil] at shape
  obtain ⟨table, _, rfl, -, column, _, rfl, -, rfl⟩ := shape
  exact fun text => ⟨.foreignKey (asStr table) (asStr column), rfl⟩

theorem constraint_produces :
    Produces constraint (One fun pair => pair.rule = .constraint ∧
      ∃ c : Constraint F, parseConstraint pair = .ok c) := by
  have alternatives : Produces (choice [betweenConstraint, enumConstraint, lenConstraint,
      regexConstraint, minConstraint, maxConstraint, coerceConstraint, notNull, unique, positive,
      negative, primaryKey, foreignKey]) (One (Constrains F)) := by
    refine Produces.choice fun p member => ?_
    simp only [List.mem_cons, List.not_mem_nil, or_false] at member
    rcases member with rfl | rfl | rfl | rfl | rfl | rfl | rfl | rfl | rfl | rfl | rfl | rfl | rfl
    · exact constrains_numbers F _ _ .between fun _ _ _ _ => rfl
    · exact constrains_enum F
    · exact constrains_numbers F _ _ (fun min max => .len (Float64.toUsize min)
        (Float64.toUsize max)) fun _ _ _ _ => rfl
    · exact constrains_regex F
    · exact constrains_number F _ _ .min fun _ _ _ => rfl
    · exact constrains_number F _ _ .max fun _ _ _ => rfl
    · exact constrains_bare F _ _ fun taken text => ⟨.coerce, rfl⟩
    · exact constrains_bare F _ _ fun taken text => ⟨.notNull, rfl⟩
    · exact constrains_bare F _ _ fun taken text => ⟨.unique, rfl⟩
    · exact constrains_bare F _ _ fun taken text => ⟨.positive, rfl⟩
    · exact constrains_bare F _ _ fun taken text => ⟨.negative, rfl⟩
    · exact constrains_bare F _ _ fun taken text => ⟨.primaryKey, rfl⟩
    · exact constrains_foreignKey F
  refine Produces.rule alternatives fun text inner one => ⟨rfl, ?_⟩
  obtain ⟨pair, rfl, constrains⟩ := one
  exact constrains text

theorem dataType_produces :
    Produces Grammar.dataType (One fun pair => ∃ t, parseDataType pair = .ok t) := by
  refine Produces.keywords ["datetime", "string", "float", "bool", "bytes", "date",
    "int"] fun t member => ?_
  simp only [List.mem_cons, List.not_mem_nil, or_false] at member
  rcases member with rfl | rfl | rfl | rfl | rfl | rfl | rfl <;> exact ⟨_, rfl⟩

theorem parseField_constraints (text : List Char) (name type : Pair Rule) {t : DataType}
    (typed : parseDataType type = .ok t) (pairs : List (Pair Rule))
    (all : ∀ pair ∈ pairs, ∃ c : Constraint F, parseConstraint pair = .ok c) :
    ∃ field : FieldDef F, parseField (.mk .fieldDef text (name :: type :: pairs)) = .ok field := by
  obtain ⟨constraints, read⟩ := (Results.mapM_returns_iff parseConstraint
    (pairs.filter (fun c => c.rule == .constraint))).mpr fun pair member =>
      all pair (List.mem_filter.mp member).1
  refine ⟨⟨asStr name, t, constraints⟩, ?_⟩
  simp only [parseField, Pair.inner, next, typed, read, bind, Except.bind, pure, Except.pure]

theorem fieldDef_produces :
    Produces fieldDef (One fun pair => ∃ field : FieldDef F, parseField pair = .ok field) := by
  have more : Produces (zeroOrMore (phrase [lit ",", constraint]))
      (Many fun pair => ∃ c : Constraint F, parseConstraint pair = .ok c) := by
    refine Produces.repeated skip (Produces.many_of_one ?_)
    refine (Produces.sequence skip (.cons (.lit _) (.cons (constraint_produces F) .nil))).imp
      fun as shape => ?_
    simp only [concat_silent, concat_one, concat_nil] at shape
    obtain ⟨pair, _, rfl, ⟨-, converts⟩, rfl⟩ := shape
    exact ⟨pair, rfl, converts⟩
  have comma : Produces (optional (lit (R := Rule) ",")) Silent :=
    (Produces.lit ",").optional.imp fun as either => either.elim id id
  refine Produces.rule (Produces.sequence skip (.cons identifier_produces (.cons (.lit _)
    (.cons dataType_produces (.cons more (.cons comma .nil)))))) fun text inner shape => ?_
  simp only [concat_silent, concat_one, concat_many, concat_nil] at shape
  obtain ⟨name, _, rfl, -, type, _, rfl, ⟨t, typed⟩, pairs, _, rfl, all, rfl⟩ := shape
  rw [List.append_nil]
  exact parseField_constraints F text name type typed pairs all

theorem schemaSection_produces :
    Produces schemaSection (One fun pair => pair.rule = .schemaSection ∧
      ∃ fields : List (FieldDef F), parseSchema pair = .ok fields) := by
  refine Produces.rule (Produces.sequence skip (.cons (.lit _) (.cons (.lit _)
    (.cons (Produces.repeated skip (fieldDef_produces F).many_of_one) (.cons (.lit _) .nil)))))
    fun text inner shape => ⟨rfl, ?_⟩
  simp only [concat_silent, concat_many, concat_nil] at shape
  obtain ⟨pairs, _, rfl, all, rfl⟩ := shape
  rw [List.append_nil]
  exact (Results.mapM_returns_iff parseField _).mpr fun pair member =>
    all pair (List.mem_filter.mp member).1

end Schema

section Quality

theorem severityLevel_produces :
    Produces severityLevel (One fun pair => ∀ text, ∃ severity,
      parseSeverity (.mk .severityPrefix text [pair]) = .ok severity) := by
  refine Produces.keywords ["blocking", "error", "warning", "info"] fun t member => ?_
  simp only [List.mem_cons, List.not_mem_nil, or_false] at member
  rcases member with rfl | rfl | rfl | rfl <;> exact fun _ => ⟨_, rfl⟩

theorem severityPrefix_produces :
    Produces Grammar.severityPrefix (One fun pair => pair.rule = .severityPrefix ∧
      ∃ severity, parseSeverity pair = .ok severity) := by
  refine Produces.rule (Produces.sequence skip (.cons (.lit _) (.cons severityLevel_produces
    (.cons (.lit _) .nil)))) fun text inner shape => ⟨rfl, ?_⟩
  simp only [concat_silent, concat_one, concat_nil] at shape
  obtain ⟨level, _, rfl, reads, rfl⟩ := shape
  exact reads text

theorem metricFn_produces :
    Produces Grammar.metricFn (One fun pair => ∃ metric, parseMetricFn pair = .ok metric) := by
  refine Produces.keywords ["completeness", "uniqueness", "validity", "consistency",
    "freshness", "non_null_rate"] fun t member => ?_
  simp only [List.mem_cons, List.not_mem_nil, or_false] at member
  rcases member with rfl | rfl | rfl | rfl | rfl | rfl <;> exact ⟨_, rfl⟩

theorem comparisonOp_produces :
    Produces Grammar.comparisonOp (One fun pair => pair.rule = .comparisonOp ∧
      ∃ op, parseComparisonOp pair = .ok op) := by
  refine Produces.keywords [">=", "<=", "==", "!=", ">", "<"] fun t member => ⟨rfl, ?_⟩
  simp only [List.mem_cons, List.not_mem_nil, or_false] at member
  rcases member with rfl | rfl | rfl | rfl | rfl | rfl <;> exact ⟨_, rfl⟩

theorem identifier_starts {Rest : List (List (Pair Rule) → Prop)} {as : List (Pair Rule)}
    (shape : Concat (One (·.rule = .identifier) :: Rest) as) :
    ∃ first rest, as = first :: rest ∧
      (first.rule ≠ .severityPrefix ∧ first.rule = .identifier) ∧ Concat Rest rest := by
  obtain ⟨first, rest, same, kind, more⟩ := concat_one.mp shape
  refine ⟨first, rest, same, ⟨?_, kind⟩, more⟩
  rw [kind]
  exact nofun

theorem leadingSeverity_reads {Qs Rest : List (List (Pair Rule) → Prop)} {Q : Pair Rule → Prop}
    {inner : List (Pair Rule)}
    (shape : Concat (Maybe (fun pair => pair.rule = .severityPrefix ∧
      ∃ severity, parseSeverity pair = .ok severity) :: Qs) inner)
    (starts : ∀ as, Concat Qs as →
      ∃ first rest, as = first :: rest ∧ (first.rule ≠ .severityPrefix ∧ Q first) ∧
        Concat Rest rest) :
    ∃ severity first rest, leadingSeverity inner = .ok (severity, first, rest) ∧
      (∃ lead, inner = lead ++ first :: rest ∧ ∀ pair ∈ lead, pair.rule = .severityPrefix) ∧
      Q first ∧ Concat Rest rest := by
  rcases concat_maybe.mp shape with shape | ⟨pair, as, rfl, ⟨kind, severity, read⟩, shape⟩
  · obtain ⟨first, rest, rfl, ⟨other, holds⟩, more⟩ := starts inner shape
    refine ⟨Severity.default, first, rest, ?_, ⟨[], rfl, List.forall_mem_nil _⟩, holds, more⟩
    simp [leadingSeverity, next, other, bind, Except.bind, pure, Except.pure]
  · obtain ⟨first, rest, rfl, ⟨-, holds⟩, more⟩ := starts as shape
    refine ⟨severity, first, rest, ?_, ⟨[pair], rfl, List.forall_mem_singleton.mpr kind⟩, holds,
      more⟩
    simp [leadingSeverity, next, kind, read, bind, Except.bind, pure, Except.pure]

theorem qualityMetric_produces :
    Produces Grammar.qualityMetric (One fun pair => pair.rule ≠ .severityPrefix ∧
      ∃ fn column, pair.inner = [fn, column] ∧ ∃ metric, parseMetricFn fn = .ok metric) := by
  refine Produces.rule (Produces.sequence skip (.cons metricFn_produces (.cons (.lit _)
    (.cons identifier_produces (.cons (.lit _) .nil))))) fun text inner shape => ⟨nofun, ?_⟩
  simp only [concat_silent, concat_one, concat_nil] at shape
  obtain ⟨fn, _, rfl, reads, column, _, rfl, -, rfl⟩ := shape
  exact ⟨fn, column, rfl, reads⟩

theorem qualityRule_produces :
    Produces qualityRule (One fun pair => pair.rule = .qualityRule ∧
      ∃ rule : QualityRule F, parseQualityRule pair = .ok rule) := by
  refine Produces.rule (Produces.sequence skip (.cons severityPrefix_produces.maybe
    (.cons qualityMetric_produces (.cons comparisonOp_produces (.cons (number_produces F) .nil)))))
    fun text inner shape => ⟨rfl, ?_⟩
  obtain ⟨severity, metricPair, rest, leads, -, ⟨fn, column, parts, metric, read⟩, shape⟩ :=
    leadingSeverity_reads shape fun _ => concat_one.mp
  simp only [concat_one, concat_nil] at shape
  obtain ⟨op, _, rfl, ⟨-, comparison, compares⟩, threshold, _, rfl, ⟨-, x, converts⟩, rfl⟩ := shape
  refine ⟨⟨metric, asStr column, comparison, x, severity⟩, ?_⟩
  have inside : Pair.inner (.mk .qualityRule text inner) = inner := rfl
  simp only [parseQualityRule, inside, leads, parts, next, read, compares, converts, bind,
    Except.bind, pure, Except.pure]

theorem literalValue_produces :
    Produces literalValue (One fun pair => ∃ value : LiteralValue F,
      parseLiteralValue pair = .ok value) := by
  have alternatives : Produces (choice [stringLiteral, boolean, Grammar.number])
      (One fun pair => ∀ text, ∃ value : LiteralValue F,
        parseLiteralValue (.mk .literalValue text [pair]) = .ok value) := by
    refine Produces.choice fun p member => ?_
    simp only [List.mem_cons, List.not_mem_nil, or_false] at member
    rcases member with rfl | rfl | rfl
    · exact Produces.atomic fun taken text => ⟨_, rfl⟩
    · exact Produces.atomic fun taken text => ⟨_, rfl⟩
    · refine (number_produces F).imp fun as one => ?_
      obtain ⟨pair, rfl, kind, x, converts⟩ := one
      refine ⟨pair, rfl, fun text => ⟨.number x, ?_⟩⟩
      have inside : Pair.inner (.mk .literalValue text [pair]) = [pair] := rfl
      simp only [parseLiteralValue, inside, next, kind, converts, bind, Except.bind, pure,
        Except.pure]
  refine Produces.rule alternatives fun text inner one => ?_
  obtain ⟨pair, rfl, reads⟩ := one
  exact reads text

theorem crossColumnRule_produces :
    Produces crossColumnRule (One fun pair => pair.rule = .crossColumnRule ∧
      ∃ rule : CrossColumnRule F, parseCrossColumnRule pair = .ok rule) := by
  refine Produces.rule (Produces.sequence skip (.cons severityPrefix_produces.maybe
    (.cons (.lit _) (.cons identifier_produces (.cons comparisonOp_produces
    (.cons (literalValue_produces F) (.cons (.lit _) (.cons identifier_produces
    (.cons comparisonOp_produces (.cons (literalValue_produces F) .nil))))))))))
    fun text inner shape => ⟨rfl, ?_⟩
  obtain ⟨severity, column, rest, leads, -, -, shape⟩ :=
    leadingSeverity_reads shape fun _ shape => identifier_starts (concat_silent.mp shape)
  simp only [concat_one, concat_silent, concat_nil] at shape
  obtain ⟨op, _, rfl, ⟨-, assertOp, asserts⟩, value, _, rfl, ⟨assertValue, reads⟩, column', _, rfl, -,
    op', _, rfl, ⟨-, whenOp, asks⟩, value', _, rfl, ⟨whenValue, reads'⟩, rfl⟩ := shape
  refine ⟨⟨asStr column, assertOp, assertValue, asStr column', whenOp, whenValue, severity⟩, ?_⟩
  have inside : Pair.inner (.mk .crossColumnRule text inner) = inner := rfl
  simp only [parseCrossColumnRule, inside, leads, next, asserts, reads, asks, reads', bind,
    Except.bind, pure, Except.pure]

theorem qualitySection_produces :
    Produces qualitySection (One fun pair => pair.rule = .qualitySection ∧
      ∃ rules : List (QualityRule F) × List (CrossColumnRule F), parseQuality pair = .ok rules) := by
  have item : Produces (choice [crossColumnRule, qualityRule])
      (Many fun pair => ∃ item, qualityItem (F := F) pair = .ok item) := by
    refine Produces.many_of_one (Produces.choice fun p member => ?_)
    simp only [List.mem_cons, List.not_mem_nil, or_false] at member
    rcases member with rfl | rfl
    · refine (crossColumnRule_produces F).imp fun as one => ?_
      obtain ⟨pair, rfl, kind, rule, read⟩ := one
      exact ⟨pair, rfl, (none, some rule), by rw [qualityItem, kind, read]; rfl⟩
    · refine (qualityRule_produces F).imp fun as one => ?_
      obtain ⟨pair, rfl, kind, rule, read⟩ := one
      exact ⟨pair, rfl, (some rule, none), by rw [qualityItem, kind, read]; rfl⟩
  refine Produces.rule (Produces.sequence skip (.cons (.lit _) (.cons (.lit _)
    (.cons (Produces.repeated skip item) (.cons (.lit _) .nil)))))
    fun text inner shape => ⟨rfl, ?_⟩
  simp only [concat_silent, concat_many, concat_nil] at shape
  obtain ⟨pairs, _, rfl, all, rfl⟩ := shape
  rw [List.append_nil]
  obtain ⟨items, read⟩ := (Results.mapM_returns_iff qualityItem pairs).mpr all
  refine ⟨(items.filterMap Prod.fst, items.filterMap Prod.snd), ?_⟩
  have inside : Pair.inner (.mk .qualitySection text pairs) = pairs := rfl
  simp only [parseQuality, inside, read, bind, Except.bind, pure, Except.pure]

end Quality

section Stats

def StatKnown (rule : Pair Rule) : Prop := ∀ fn ∈ itemsOf .statFn rule, asStr fn ≠ "p01"

theorem statFn_produces :
    Produces statFn (One fun pair => pair.rule = .statFn ∧
      ((∃ stat, parseStatFn pair = .ok stat) ↔ asStr pair ≠ "p01")) := by
  refine Produces.keywords ["median", "mean", "p999", "p99", "p95", "p05", "p01", "std",
    "min", "max"] fun t member => ⟨rfl, ?_⟩
  simp only [List.mem_cons, List.not_mem_nil, or_false] at member
  rcases member with rfl | rfl | rfl | rfl | rfl | rfl | rfl | rfl | rfl | rfl
  case inr.inr.inr.inr.inr.inr.inl =>
    exact iff_of_false (fun read => by obtain ⟨stat, read⟩ := read; cases read) (fun other => other rfl)
  all_goals exact iff_of_true ⟨_, rfl⟩ (by decide)

theorem statsRule_produces :
    Produces statsRule (One fun pair => pair.rule = .statsRule ∧
      ((∃ rule : StatsRule F, parseStatsRule pair = .ok rule) ↔ StatKnown pair)) := by
  refine Produces.rule (Produces.sequence skip (.cons severityPrefix_produces.maybe
    (.cons identifier_produces (.cons (.lit _) (.cons statFn_produces (.cons (.lit _)
    (.cons comparisonOp_produces (.cons (number_produces F) .nil))))))))
    fun text inner shape => ⟨rfl, ?_⟩
  obtain ⟨severity, column, rest, leads, ⟨lead, parts, prefixed⟩, named, shape⟩ :=
    leadingSeverity_reads shape fun _ => identifier_starts
  simp only [concat_one, concat_silent, concat_nil] at shape
  obtain ⟨fn, _, rfl, ⟨stat, known⟩, op, _, rfl, ⟨compared, comparison, compares⟩, threshold, _, rfl,
    ⟨numeric, x, converts⟩, rfl⟩ := shape
  have inside : Pair.inner (.mk .statsRule text inner) = inner := rfl
  have only : itemsOf .statFn (.mk .statsRule text inner) = [fn] := by
    have none : lead.filter (fun pair => pair.rule == .statFn) = [] := by
      refine List.filter_eq_nil_iff.mpr fun pair member => ?_
      rw [prefixed pair member]
      decide
    rw [itemsOf, inside, parts, List.filter_append, none]
    simp [named, stat, compared, numeric]
  rw [StatKnown, only, List.forall_mem_singleton, ← known]
  simp only [parseStatsRule, inside, leads, next, compares, converts, bind, Except.bind, pure,
    Except.pure]
  cases parseStatFn fn with
  | error failure => simp
  | ok found => simp

theorem statsSection_produces :
    Produces statsSection (One fun pair => pair.rule = .statsSection ∧
      ((∃ rules : List (StatsRule F), parseStats pair = .ok rules) ↔
        ∀ rule ∈ itemsOf .statsRule pair, StatKnown rule)) := by
  refine Produces.rule (Produces.sequence skip (.cons (.lit _) (.cons (.lit _)
    (.cons (Produces.repeated skip (statsRule_produces F).many_of_one) (.cons (.lit _) .nil)))))
    fun text inner shape => ⟨rfl, ?_⟩
  simp only [concat_silent, concat_many, concat_nil] at shape
  obtain ⟨pairs, _, rfl, all, rfl⟩ := shape
  rw [List.append_nil]
  refine (Results.mapM_returns_iff parseStatsRule _).trans ?_
  refine forall₂_congr fun rule member => ?_
  exact (all rule (List.mem_filter.mp member).1).2

end Stats

section Anomalies

theorem anomalyFn_produces :
    Produces Grammar.anomalyFn (One fun pair => pair.rule ≠ .severityPrefix ∧
      ∃ fn, parseAnomalyFn pair = .ok fn) := by
  refine Produces.keywords ["detect_outliers", "detect_nulls", "detect_duplicates",
    "detect_pattern_breaks", "detect_cardinality_explosion"] fun t member => ⟨nofun, ?_⟩
  simp only [List.mem_cons, List.not_mem_nil, or_false] at member
  rcases member with rfl | rfl | rfl | rfl | rfl <;> exact ⟨_, rfl⟩

theorem namedArg_produces :
    Produces namedArg (One fun pair => ∀ args, ∃ args', parseNamedArg args pair = .ok args') := by
  have value : Produces (choice [stringLiteral, Grammar.number, boolean]) (One fun _ => True) := by
    refine Produces.choice fun p member => ?_
    simp only [List.mem_cons, List.not_mem_nil, or_false] at member
    rcases member with rfl | rfl | rfl <;> exact Produces.atomic fun _ => trivial
  refine Produces.rule (Produces.sequence skip (.cons identifier_produces (.cons (.lit _)
    (.cons value .nil)))) fun text inner shape args => ?_
  simp only [concat_silent, concat_one, concat_nil] at shape
  obtain ⟨key, _, rfl, -, pair, _, rfl, -, rfl⟩ := shape
  exact ⟨insertArg (asStr key) (unquote pair.text) args, rfl⟩

theorem anomalyRule_produces :
    Produces anomalyRule (One fun pair => ∃ rule, parseAnomalyRule pair = .ok rule) := by
  have more : Produces (zeroOrMore (phrase [lit ",", namedArg]))
      (Many fun pair => ∀ args, ∃ args', parseNamedArg args pair = .ok args') := by
    refine Produces.repeated skip (Produces.many_of_one ?_)
    refine (Produces.sequence skip (.cons (.lit _) (.cons namedArg_produces .nil))).imp
      fun as shape => ?_
    simp only [concat_silent, concat_one, concat_nil] at shape
    obtain ⟨pair, _, rfl, reads, rfl⟩ := shape
    exact ⟨pair, rfl, reads⟩
  refine Produces.rule (Produces.sequence skip (.cons severityPrefix_produces.maybe
    (.cons anomalyFn_produces (.cons (.lit _) (.cons identifier_produces (.cons more
    (.cons (.lit _) .nil))))))) fun text inner shape => ?_
  obtain ⟨severity, fn, rest, leads, -, ⟨function, read⟩, shape⟩ :=
    leadingSeverity_reads shape fun _ => concat_one.mp
  simp only [concat_silent, concat_one, concat_many, concat_nil] at shape
  obtain ⟨column, _, rfl, -, pairs, _, rfl, all, rfl⟩ := shape
  obtain ⟨args, folded⟩ := (Results.foldlM_returns_iff parseNamedArg (fun _ => True)
    ((pairs ++ []).filter (fun arg => arg.rule == Rule.namedArg)) (fun arg member args => iff_true_intro
      (all arg (by simpa using (List.mem_filter.mp member).1) args)) []).mpr fun _ _ => trivial
  refine ⟨⟨function, asStr column, args, severity⟩, ?_⟩
  have inside : Pair.inner (.mk .anomalyRule text inner) = inner := rfl
  simp only [parseAnomalyRule, inside, leads, next, read, folded, bind, Except.bind, pure,
    Except.pure]

theorem anomalySection_produces :
    Produces anomalySection (One fun pair => pair.rule = .anomalySection ∧
      ∃ rules, parseAnomalies pair = .ok rules) := by
  refine Produces.rule (Produces.sequence skip (.cons (.lit _) (.cons (.lit _)
    (.cons (Produces.repeated skip anomalyRule_produces.many_of_one) (.cons (.lit _) .nil)))))
    fun text inner shape => ⟨rfl, ?_⟩
  simp only [concat_silent, concat_many, concat_nil] at shape
  obtain ⟨pairs, _, rfl, all, rfl⟩ := shape
  rw [List.append_nil]
  exact (Results.mapM_returns_iff parseAnomalyRule _).mpr fun pair member =>
    all pair (List.mem_filter.mp member).1

end Anomalies

section Stream

theorem streamOption_produces :
    Produces Grammar.streamOption (One fun pair => ∀ config, ∃ config',
      Core.Parser.streamOption config pair = .ok config') := by
  have option : ∀ r keyword, (r = .streamWindow ∨ r = .streamWatermark ∨ r = .streamEmit) →
      Produces (rule r (phrase [lit keyword, stringLiteral]))
        (One fun opt => ∀ text config, ∃ config',
          Core.Parser.streamOption config (.mk .streamOption text [opt]) = .ok config') := by
    intro r keyword kind
    refine Produces.rule (Produces.sequence skip (.cons (.lit _) (.cons stringLiteral_produces .nil)))
      fun taken inner shape text config => ?_
    simp only [concat_silent, concat_one, concat_nil] at shape
    obtain ⟨value, _, rfl, -, rfl⟩ := shape
    rcases kind with rfl | rfl | rfl <;> exact ⟨_, rfl⟩
  have alternatives : Produces (choice [streamWindow, streamWatermark, streamEmit])
      (One fun opt => ∀ text config, ∃ config',
        Core.Parser.streamOption config (.mk .streamOption text [opt]) = .ok config') := by
    refine Produces.choice fun p member => ?_
    simp only [List.mem_cons, List.not_mem_nil, or_false] at member
    rcases member with rfl | rfl | rfl
    · exact option .streamWindow _ (.inl rfl)
    · exact option .streamWatermark _ (.inr (.inl rfl))
    · exact option .streamEmit _ (.inr (.inr rfl))
  refine Produces.rule alternatives fun text inner one => ?_
  obtain ⟨opt, rfl, reads⟩ := one
  exact reads text

theorem streamSection_produces :
    Produces streamSection (One fun pair => pair.rule = .streamSection ∧
      ∃ config, parseStream pair = .ok config) := by
  refine Produces.rule (Produces.sequence skip (.cons (.lit _) (.cons (.lit _)
    (.cons (Produces.repeated skip streamOption_produces.many_of_one) (.cons (.lit _) .nil)))))
    fun text inner shape => ⟨rfl, ?_⟩
  simp only [concat_silent, concat_many, concat_nil] at shape
  obtain ⟨pairs, _, rfl, all, rfl⟩ := shape
  rw [List.append_nil]
  exact (Results.foldlM_returns_iff Core.Parser.streamOption (fun _ => True) pairs
    (fun pair member config => iff_true_intro (all pair member config)) _).mpr fun _ _ => trivial

end Stream

section Datasets

/-- The statistics that the stats rules of a section name, if it is for them. -/
def BodyKnown (body : Pair Rule) : Prop :=
  body.rule = .statsSection → ∀ rule ∈ itemsOf .statsRule body, StatKnown rule

/-- A section, inside of its wrapper, that converts if the statistics are known. -/
def SectionReads (body : Pair Rule) : Prop :=
  ∀ contract : DataContract F,
    (∃ contract', parseSectionBody contract body = .ok contract') ↔ BodyKnown body

theorem sectionReads_of_other {α : Type} {kind : Rule} {read : Pair Rule → CoreResult α}
    {p : Matcher}
    (produces : Produces p (One fun pair => pair.rule = kind ∧ ∃ found, read pair = .ok found))
    (other : kind ≠ .statsSection) (write : DataContract F → α → DataContract F)
    (body : ∀ contract pair, pair.rule = kind → parseSectionBody contract pair =
      (read pair >>= fun found => pure (write contract found))) :
    Produces p (One (SectionReads F)) := by
  refine produces.imp fun as one => ?_
  obtain ⟨pair, rfl, same, found, reads⟩ := one
  refine ⟨pair, rfl, fun contract => iff_of_true ⟨write contract found, ?_⟩ ?_⟩
  · rw [body contract pair same, reads]
    rfl
  · exact fun stats => absurd (same.symm.trans stats) other

theorem sectionReads_of_stats : Produces statsSection (One (SectionReads F)) := by
  refine (statsSection_produces F).imp fun as one => ?_
  obtain ⟨pair, rfl, kind, known⟩ := one
  refine ⟨pair, rfl, fun contract => ?_⟩
  rw [BodyKnown, kind, ← known]
  simp only [parseSectionBody, kind, forall_const]
  cases parseStats (F := F) pair with
  | error failure => simp [bind, Except.bind]
  | ok rules => simp [bind, Except.bind, pure, Except.pure]

theorem sectionRule_produces :
    Produces sectionRule (One fun pair => pair.rule = .sectionRule ∧ ∃ body, pair.inner = [body] ∧
      SectionReads F body) := by
  have alternatives : Produces (choice [schemaSection, qualitySection, statsSection,
      anomalySection, streamSection]) (One (SectionReads F)) := by
    refine Produces.choice fun p member => ?_
    simp only [List.mem_cons, List.not_mem_nil, or_false] at member
    rcases member with rfl | rfl | rfl | rfl | rfl
    · refine sectionReads_of_other F (schemaSection_produces F) (by decide)
        (fun contract fields => { contract with schema := fields }) fun contract pair kind => ?_
      simp only [parseSectionBody, kind]
    · refine sectionReads_of_other F (qualitySection_produces F) (by decide)
        (fun contract rules =>
          { contract with qualityRules := rules.1, crossColumnRules := rules.2 })
        fun contract pair kind => ?_
      simp only [parseSectionBody, kind]
    · exact sectionReads_of_stats F
    · refine sectionReads_of_other F anomalySection_produces (by decide)
        (fun contract rules => { contract with anomalyRules := rules }) fun contract pair kind => ?_
      simp only [parseSectionBody, kind]
    · refine sectionReads_of_other F streamSection_produces (by decide)
        (fun contract config => { contract with streamConfig := some config })
        fun contract pair kind => ?_
      simp only [parseSectionBody, kind]
  refine Produces.rule alternatives fun text inner one => ⟨rfl, ?_⟩
  obtain ⟨body, rfl, reads⟩ := one
  exact ⟨body, rfl, reads⟩

theorem datasetDef_produces :
    Produces datasetDef (One fun pair => (∃ contract : DataContract F,
      parseDataset pair = .ok contract) ↔
        ∀ rule ∈ written pair .statsSection .statsRule, StatKnown rule) := by
  refine Produces.rule (Produces.sequence skip (.cons (.lit _) (.cons identifier_produces
    (.cons (.lit _) (.cons (Produces.repeated skip (sectionRule_produces F).many_of_one)
    (.cons (.lit _) .nil)))))) fun text inner shape => ?_
  simp only [concat_silent, concat_one, concat_many, concat_nil] at shape
  obtain ⟨name, _, rfl, -, sections, _, rfl, all, rfl⟩ := shape
  rw [List.append_nil]
  have each : ∀ pair ∈ sections, ∀ contract : DataContract F,
      (∃ contract', parseSection contract pair = .ok contract') ↔
        ∀ body, sectionBody pair = some body → BodyKnown body := by
    intro pair member contract
    obtain ⟨kind, body, inside, reads⟩ := all pair member
    have found : sectionBody pair = some body := by simp [sectionBody, kind, inside]
    rw [found]
    simp only [Option.some.injEq, forall_eq']
    rw [← reads contract]
    simp [parseSection, kind, inside, next, bind, Except.bind]
  have folds := Results.foldlM_returns_iff parseSection _ sections each (DataContract.new (asStr name))
  refine folds.trans ?_
  simp only [written, sectionsOf, Pair.inner, List.tail_cons, List.mem_flatMap, List.mem_filter,
    List.mem_filterMap, BodyKnown, beq_iff_eq]
  constructor
  · rintro known rule ⟨body, ⟨⟨pair, member, found⟩, kind⟩, inside⟩
    exact known pair member body found kind rule inside
  · intro known pair member body found kind rule inside
    exact known rule ⟨body, ⟨⟨pair, member, found⟩, kind⟩, inside⟩

theorem contract_produces :
    Produces Grammar.contract (One fun pair => ∀ dataset ∈ pair.inner, dataset.rule = .datasetDef →
      ((∃ contract : DataContract F, parseDataset dataset = .ok contract) ↔
        ∀ rule ∈ written dataset .statsSection .statsRule, StatKnown rule)) := by
  have ending : Produces endOfInput (One fun pair => pair.rule = .eoi) := by
    intro s as rest found
    cases s with
    | nil =>
      cases found
      exact ⟨_, rfl, rfl⟩
    | cons c s => cases found
  refine Produces.rule (Produces.sequence skip (.cons Produces.nothing
    (.cons (Produces.repeated skip (datasetDef_produces F).many_of_one) (.cons ending .nil))))
    fun text inner shape => ?_
  simp only [concat_silent, concat_one, concat_many, concat_nil] at shape
  obtain ⟨pairs, _, rfl, all, last, _, rfl, kind, rfl⟩ := shape
  intro dataset member isDataset
  rcases List.mem_append.mp member with inside | final
  · exact all dataset inside
  · rw [List.mem_singleton.mp final, kind] at isDataset
    cases isDataset

end Datasets

def statFunctions (pairs : List (Pair Rule)) : List String :=
  (datasets pairs).flatMap fun dataset =>
    (written dataset .statsSection .statsRule).flatMap fun rule =>
      (itemsOf .statFn rule).map asStr

/-- What the grammar matches converts, unless a stats rule names the first percentile. -/
theorem parse_returns_iff (input : String) (small : input.utf8ByteSize ≤ maxInputSize)
    (pairs : List (Pair Rule)) (matched : contractPairs input = some pairs) :
    (∃ contracts : List (DataContract F), parse input = .ok contracts) ↔
      "p01" ∉ statFunctions pairs := by
  obtain ⟨⟨found, rest⟩, parsed, rfl⟩ := Option.map_eq_some_iff.mp matched
  obtain ⟨pair, rfl, all⟩ := contract_produces F _ _ _ parsed
  rw [parse, if_neg (Nat.not_lt.mpr small), matched]
  refine (Results.mapM_returns_iff parseDataset _).trans ?_
  have each : ∀ dataset ∈ datasets [pair],
      (∃ contract : DataContract F, parseDataset dataset = .ok contract) ↔
        ∀ rule ∈ written dataset .statsSection .statsRule, StatKnown rule := by
    intro dataset member
    obtain ⟨inside, kind⟩ := List.mem_filter.mp member
    rw [List.flatMap_singleton] at inside
    exact all dataset inside (beq_iff_eq.mp kind)
  refine (forall₂_congr each).trans ?_
  simp only [statFunctions, List.mem_flatMap, List.mem_map, StatKnown, not_exists, not_and]

def fifthPercentile : String :=
  "dataset d \x7b stats \x7b x.p05 drift < 1 \x7d \x7d"

def firstPercentile : String :=
  "dataset d \x7b stats \x7b x.p01 drift < 1 \x7d \x7d"

theorem fifth_percentile_accepted :
    ∃ contracts : List (DataContract ExtRat), parse fifthPercentile = .ok contracts := by
  have known : (contractPairs fifthPercentile).any (fun pairs => "p01" ∉ statFunctions pairs) =
      true := by
    decide +kernel
  obtain ⟨pairs, matched, known⟩ := (Option.any_eq_true ..).mp known
  exact (parse_returns_iff ExtRat fifthPercentile (by decide +kernel) pairs matched).mpr
    (of_decide_eq_true known)

/-- The grammar has the first percentile, the conversion does not. -/
theorem first_percentile_refused :
    ∃ pairs, contractPairs firstPercentile = some pairs ∧
      parse (F := ExtRat) firstPercentile =
        .error (.error (.unsupported "unknown stat fn: p01")) := by
  have matched : (contractPairs firstPercentile).isSome = true := by decide +kernel
  obtain ⟨pairs, matched⟩ := Option.isSome_iff_exists.mp matched
  exact ⟨pairs, matched, by decide +kernel⟩

end StatGuardian.Core.Parser
