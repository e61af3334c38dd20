import StatGuardian.Core.Ast
import StatGuardian.Core.Grammar

namespace StatGuardian.Core.Parser

open Grammar Peg

/-- The errors the parser raises. The text of pest's own syntax errors is left out. -/
inductive CoreError where
  | parse (message : Option String)
  | unsupported (construct : String)
  deriving DecidableEq, Repr

/-- The ways a parse ends without a result: an error, or a panic in an `unwrap`. -/
inductive Failure where
  | error (e : CoreError)
  | unwrapNone
  deriving DecidableEq, Repr

abbrev CoreResult := Except Failure

def maxInputSize : Nat := 10 * 1024 * 1024

def unsupported {α : Type} (construct : String) : CoreResult α :=
  .error (.error (.unsupported construct))

def unwrap {α : Type} : Option α → CoreResult α
  | some a => .ok a
  | none => .error .unwrapNone

def next : List (Pair Rule) → CoreResult (Pair Rule × List (Pair Rule))
  | [] => .error .unwrapNone
  | pair :: rest => .ok (pair, rest)

def asStr (pair : Pair Rule) : String := String.ofList pair.text

def debugRule : Rule → String
  | .identifier => "identifier" | .stringLiteral => "string_literal" | .number => "number"
  | .boolean => "boolean" | .literalValue => "literal_value" | .contract => "contract"
  | .datasetDef => "dataset_def" | .sectionRule => "section" | .schemaSection => "schema_section"
  | .fieldDef => "field_def" | .dataType => "data_type" | .constraint => "constraint"
  | .notNull => "not_null" | .unique => "unique" | .positive => "positive"
  | .negative => "negative" | .primaryKey => "primary_key" | .foreignKey => "foreign_key"
  | .coerceConstraint => "coerce_constraint" | .betweenConstraint => "between_constraint"
  | .minConstraint => "min_constraint" | .maxConstraint => "max_constraint"
  | .lenConstraint => "len_constraint" | .regexConstraint => "regex_constraint"
  | .enumConstraint => "enum_constraint" | .qualitySection => "quality_section"
  | .qualityRule => "quality_rule" | .crossColumnRule => "cross_column_rule"
  | .severityPrefix => "severity_prefix" | .severityLevel => "severity_level"
  | .qualityMetric => "quality_metric" | .metricFn => "metric_fn"
  | .comparisonOp => "comparison_op" | .statsSection => "stats_section"
  | .statsRule => "stats_rule" | .statFn => "stat_fn" | .anomalySection => "anomaly_section"
  | .anomalyRule => "anomaly_rule" | .anomalyFn => "anomaly_fn" | .namedArg => "named_arg"
  | .streamSection => "stream_section" | .streamOption => "stream_option"
  | .streamWindow => "stream_window" | .streamWatermark => "stream_watermark"
  | .streamEmit => "stream_emit" | .eoi => "EOI"

def unquote (raw : List Char) : String :=
  match raw with
  | '"' :: rest =>
    if rest.getLast? = some '"' then String.ofList rest.dropLast else String.ofList raw
  | _ => String.ofList raw

section Numbers

def digitsValue (digits : List Char) : Nat := Nat.ofDigitChars 10 digits 0

/-- `mantissa` times ten to the `exponent`. -/
def scale (mantissa : Nat) (exponent : Int) : ℚ :=
  match exponent with
  | .ofNat n => mantissa * 10 ^ n
  | .negSucc n => mantissa / 10 ^ (n + 1)

def exponentOf : List Char → Option Int
  | [] => some 0
  | e :: rest =>
    if e == 'e' || e == 'E' then
      let sign : Int := if rest.head? = some '-' then -1 else 1
      let digits := if rest.head? = some '-' || rest.head? = some '+' then rest.tail else rest
      if digits.isEmpty || ! digits.all Char.isDigit then none
      else some (sign * digitsValue digits)
    else none

/-- The number a decimal literal denotes: digits, a fraction and an exponent. -/
def unsignedDecimal (text : List Char) : Option ℚ :=
  let whole := text.takeWhile Char.isDigit
  let rest := text.dropWhile Char.isDigit
  let frac := if rest.head? = some '.' then rest.tail.takeWhile Char.isDigit else []
  let rest := if rest.head? = some '.' then rest.tail.dropWhile Char.isDigit else rest
  if (whole ++ frac).isEmpty then none
  else (exponentOf rest).map (fun e => scale (digitsValue (whole ++ frac)) (e - frac.length))

def decimal : List Char → Option ℚ
  | '-' :: rest => (unsignedDecimal rest).map (fun q => -q)
  | '+' :: rest => unsignedDecimal rest
  | text => unsignedDecimal text

end Numbers

variable {F : Type} [Float64 F]

/-- `str::parse::<f64>` on the spellings the grammar lets through. -/
def parseF64 (text : List Char) : Option F := (decimal text).map Float64.ofRat

def number (pair : Pair Rule) : CoreResult F := unwrap (parseF64 pair.text)

section Schema

def parseDataType (pair : Pair Rule) : CoreResult DataType :=
  match asStr pair with
  | "int" => .ok .int
  | "float" => .ok .float
  | "string" => .ok .string
  | "bool" => .ok .bool
  | "date" => .ok .date
  | "datetime" => .ok .datetime
  | "bytes" => .ok .bytes
  | other => unsupported s!"unknown type: {other}"

def parseConstraint (pair : Pair Rule) : CoreResult (Constraint F) := do
  let (inner, _) ← next pair.inner
  match inner.rule with
  | .notNull => return .notNull
  | .unique => return .unique
  | .positive => return .positive
  | .negative => return .negative
  | .primaryKey => return .primaryKey
  | .coerceConstraint => return .coerce
  | .regexConstraint =>
    let (s, _) ← next inner.inner
    return .regex (unquote s.text)
  | .betweenConstraint =>
    let (min, nums) ← next inner.inner
    let min ← number min
    let (max, _) ← next nums
    let max ← number max
    return .between min max
  | .minConstraint =>
    let (v, _) ← next inner.inner
    let v ← number v
    return .min v
  | .maxConstraint =>
    let (v, _) ← next inner.inner
    let v ← number v
    return .max v
  | .lenConstraint =>
    let (min, nums) ← next inner.inner
    let min : F ← number min
    let (max, _) ← next nums
    let max : F ← number max
    return .len (Float64.toUsize min) (Float64.toUsize max)
  | .enumConstraint => return .enum (inner.inner.map (fun p => unquote p.text))
  | .foreignKey =>
    let (table, parts) ← next inner.inner
    let (column, _) ← next parts
    return .foreignKey (asStr table) (asStr column)
  | other => unsupported s!"unknown constraint: {debugRule other}"

def parseField (pair : Pair Rule) : CoreResult (FieldDef F) := do
  let (name, inner) ← next pair.inner
  let (type, inner) ← next inner
  let dataType ← parseDataType type
  let constraints ← (inner.filter (fun c => c.rule == .constraint)).mapM parseConstraint
  return ⟨asStr name, dataType, constraints⟩

def parseSchema (pair : Pair Rule) : CoreResult (List (FieldDef F)) :=
  (pair.inner.filter (fun field => field.rule == .fieldDef)).mapM parseField

end Schema

section Quality

def parseSeverity (pair : Pair Rule) : CoreResult Severity := do
  let (level, _) ← next pair.inner
  match asStr level with
  | "info" => return .info
  | "warning" => return .warning
  | "error" => return .error
  | "blocking" => return .blocking
  | other => unsupported s!"unknown severity: {other}"

/-- The severity a rule starts with, the default one if it has none, and the rest of the rule. -/
def leadingSeverity (inner : List (Pair Rule)) :
    CoreResult (Severity × Pair Rule × List (Pair Rule)) := do
  let (first, rest) ← next inner
  if first.rule == .severityPrefix then
    let severity ← parseSeverity first
    let (second, rest) ← next rest
    return (severity, second, rest)
  else return (Severity.default, first, rest)

def parseComparisonOp (pair : Pair Rule) : CoreResult ComparisonOp :=
  match asStr pair with
  | ">" => .ok .gt
  | "<" => .ok .lt
  | ">=" => .ok .gte
  | "<=" => .ok .lte
  | "==" => .ok .eq
  | "!=" => .ok .neq
  | other => unsupported s!"unknown op: {other}"

def parseMetricFn (pair : Pair Rule) : CoreResult MetricFn :=
  match asStr pair with
  | "completeness" => .ok .completeness
  | "uniqueness" => .ok .uniqueness
  | "validity" => .ok .validity
  | "consistency" => .ok .consistency
  | "freshness" => .ok .freshness
  | "non_null_rate" => .ok .nonNullRate
  | other => unsupported s!"unknown metric: {other}"

def parseQualityRule (pair : Pair Rule) : CoreResult (QualityRule F) := do
  let (severity, metricPair, inner) ← leadingSeverity pair.inner
  let (metricFn, metricInner) ← next metricPair.inner
  let metric ← parseMetricFn metricFn
  let (column, _) ← next metricInner
  let (op, inner) ← next inner
  let op ← parseComparisonOp op
  let (threshold, _) ← next inner
  let threshold ← number threshold
  return ⟨metric, asStr column, op, threshold, severity⟩

def parseLiteralValue (pair : Pair Rule) : CoreResult (LiteralValue F) := do
  let (inner, _) ← next pair.inner
  match inner.rule with
  | .number =>
    let n ← number inner
    return .number n
  | .stringLiteral => return .str (unquote inner.text)
  | .boolean => return .bool (asStr inner == "true")
  | other => unsupported s!"unknown literal: {debugRule other}"

def parseCrossColumnRule (pair : Pair Rule) : CoreResult (CrossColumnRule F) := do
  let (severity, assertColumn, inner) ← leadingSeverity pair.inner
  let (assertOp, inner) ← next inner
  let assertOp ← parseComparisonOp assertOp
  let (assertValue, inner) ← next inner
  let assertValue ← parseLiteralValue assertValue
  let (whenColumn, inner) ← next inner
  let (whenOp, inner) ← next inner
  let whenOp ← parseComparisonOp whenOp
  let (whenValue, _) ← next inner
  let whenValue ← parseLiteralValue whenValue
  return ⟨asStr assertColumn, assertOp, assertValue, asStr whenColumn, whenOp, whenValue, severity⟩

def qualityItem (pair : Pair Rule) :
    CoreResult (Option (QualityRule F) × Option (CrossColumnRule F)) :=
  match pair.rule with
  | .qualityRule => (fun rule => (some rule, none)) <$> parseQualityRule pair
  | .crossColumnRule => (fun rule => (none, some rule)) <$> parseCrossColumnRule pair
  | _ => .ok (none, none)

def parseQuality (pair : Pair Rule) :
    CoreResult (List (QualityRule F) × List (CrossColumnRule F)) := do
  let items ← pair.inner.mapM qualityItem
  return (items.filterMap Prod.fst, items.filterMap Prod.snd)

end Quality

section Stats

def parseStatFn (pair : Pair Rule) : CoreResult StatFn :=
  match asStr pair with
  | "mean" => .ok .mean
  | "std" => .ok .std
  | "median" => .ok .median
  | "min" => .ok .min
  | "max" => .ok .max
  | "p05" => .ok .p05
  | "p95" => .ok .p95
  | "p99" => .ok .p99
  | "p999" => .ok .p999
  | other => unsupported s!"unknown stat fn: {other}"

def parseStatsRule (pair : Pair Rule) : CoreResult (StatsRule F) := do
  let (severity, column, inner) ← leadingSeverity pair.inner
  let (stat, inner) ← next inner
  let stat ← parseStatFn stat
  let (op, inner) ← next inner
  let op ← parseComparisonOp op
  let (threshold, _) ← next inner
  let threshold ← number threshold
  return ⟨asStr column, stat, op, threshold, severity⟩

def parseStats (pair : Pair Rule) : CoreResult (List (StatsRule F)) :=
  (pair.inner.filter (fun r => r.rule == .statsRule)).mapM parseStatsRule

end Stats

section Anomalies

def parseAnomalyFn (pair : Pair Rule) : CoreResult AnomalyFn :=
  match asStr pair with
  | "detect_outliers" => .ok .detectOutliers
  | "detect_nulls" => .ok .detectNulls
  | "detect_duplicates" => .ok .detectDuplicates
  | "detect_pattern_breaks" => .ok .detectPatternBreaks
  | "detect_cardinality_explosion" => .ok .detectCardinalityExplosion
  | other => unsupported s!"unknown anomaly fn: {other}"

def insertArg (key value : String) : List (String × String) → List (String × String)
  | [] => [(key, value)]
  | (k, v) :: rest => if k = key then (k, value) :: rest else (k, v) :: insertArg key value rest

def parseNamedArg (args : List (String × String)) (arg : Pair Rule) :
    CoreResult (List (String × String)) := do
  let (k, parts) ← next arg.inner
  let (v, _) ← next parts
  return insertArg (asStr k) (unquote v.text) args

def parseAnomalyRule (pair : Pair Rule) : CoreResult AnomalyRule := do
  let (severity, fnPair, inner) ← leadingSeverity pair.inner
  let function ← parseAnomalyFn fnPair
  let (column, inner) ← next inner
  let args ← (inner.filter (fun arg => arg.rule == .namedArg)).foldlM parseNamedArg []
  return ⟨function, asStr column, args, severity⟩

def parseAnomalies (pair : Pair Rule) : CoreResult (List AnomalyRule) :=
  (pair.inner.filter (fun r => r.rule == .anomalyRule)).mapM parseAnomalyRule

end Anomalies

section Stream

def streamOption (cfg : StreamConfig) (wrapper : Pair Rule) : CoreResult StreamConfig := do
  let (opt, _) ← next wrapper.inner
  match opt.rule with
  | .streamWindow =>
    let (value, _) ← next opt.inner
    return { cfg with window := some (unquote value.text) }
  | .streamWatermark =>
    let (value, _) ← next opt.inner
    return { cfg with watermark := some (unquote value.text) }
  | .streamEmit =>
    let (value, _) ← next opt.inner
    return { cfg with emit := some (unquote value.text) }
  | _ => return cfg

def parseStream (pair : Pair Rule) : CoreResult StreamConfig :=
  pair.inner.foldlM streamOption ⟨none, none, none⟩

end Stream

def parseSectionBody (contract : DataContract F) (inner : Pair Rule) :
    CoreResult (DataContract F) :=
  match inner.rule with
  | .schemaSection => do
    let fields ← parseSchema inner
    return { contract with schema := fields }
  | .qualitySection => do
    let (rules, crossColumn) ← parseQuality inner
    return { contract with qualityRules := rules, crossColumnRules := crossColumn }
  | .statsSection => do
    let rules ← parseStats inner
    return { contract with statsRules := rules }
  | .anomalySection => do
    let rules ← parseAnomalies inner
    return { contract with anomalyRules := rules }
  | .streamSection => do
    let config ← parseStream inner
    return { contract with streamConfig := some config }
  | _ => .ok contract

def parseSection (contract : DataContract F) (pair : Pair Rule) : CoreResult (DataContract F) :=
  if pair.rule == .sectionRule then do
    let (inner, _) ← next pair.inner
    parseSectionBody contract inner
  else .ok contract

def parseDataset (pair : Pair Rule) : CoreResult (DataContract F) := do
  let (name, sections) ← next pair.inner
  sections.foldlM parseSection (DataContract.new (asStr name))

/-- `ContractParser::parse(Rule::contract, input)` -/
def contractPairs (input : String) : Option (List (Pair Rule)) :=
  (Grammar.contract input.toList).map Prod.fst

def datasets (pairs : List (Pair Rule)) : List (Pair Rule) :=
  (pairs.flatMap Pair.inner).filter (fun pair => pair.rule == .datasetDef)

def parse (input : String) : CoreResult (List (DataContract F)) :=
  if input.utf8ByteSize > maxInputSize then
    .error (.error (.parse (some s!"Input exceeds maximum size of {maxInputSize} bytes")))
  else
    match contractPairs input with
    | none => .error (.error (.parse none))
    | some pairs => (datasets pairs).mapM parseDataset

end StatGuardian.Core.Parser
