import StatGuardian.Library.Peg

namespace StatGuardian.Core.Grammar

open Peg

inductive Rule where
  | identifier | stringLiteral | number | boolean | literalValue
  | contract | datasetDef | sectionRule
  | schemaSection | fieldDef | dataType | constraint
  | notNull | unique | positive | negative | primaryKey | foreignKey
  | coerceConstraint | betweenConstraint | minConstraint | maxConstraint | lenConstraint
  | regexConstraint | enumConstraint
  | qualitySection | qualityRule | crossColumnRule | severityPrefix | severityLevel
  | qualityMetric | metricFn | comparisonOp
  | statsSection | statsRule | statFn
  | anomalySection | anomalyRule | anomalyFn | namedArg
  | streamSection | streamOption | streamWindow | streamWatermark | streamEmit
  | eoi
  deriving DecidableEq, Repr

abbrev Matcher := Parser Rule

def isSpace (c : Char) : Bool := c == ' ' || c == '\t' || c == '\r' || c == '\n'

def whitespace : Matcher := charIf isSpace

def endOfInput : Matcher
  | [] => some ([.mk .eoi [] []], [])
  | _ :: _ => none

def any : Matcher := charIf (fun _ => true)

def comment : Matcher :=
  seq (lit "//") (seq (star (seq (notFollowedBy (lit "\n")) any))
    (choice [lit "\n", endOfInput]))

/-- The implicit skip between the parts of a rule that is not atomic. -/
def skip (s : List Char) : List Char :=
  match seq (star whitespace) (star (seq comment (star whitespace))) s with
  | some (_, rest) => rest
  | none => s

def phrase : List Matcher → Matcher := sequence skip

def zeroOrMore : Matcher → Matcher := repeated skip

def atomically : List Matcher → Matcher := sequence id

def oneOrMore (p : Matcher) : Matcher := seq p (star p)

section Primitives

def isWordChar (c : Char) : Bool := c.isAlphanum || c == '_'

def identifier : Matcher :=
  atomic .identifier (seq (charIf Char.isAlpha) (star (charIf isWordChar)))

def innerStr : Matcher := star (seq (notFollowedBy (lit "\"")) any)

def stringLiteral : Matcher := atomic .stringLiteral (atomically [lit "\"", innerStr, lit "\""])

def digits : Matcher := oneOrMore (charIf Char.isDigit)

def number : Matcher :=
  atomic .number (atomically [optional (lit "-"), digits, optional (seq (lit ".") digits),
    optional (atomically [charIf (fun c => c == 'e' || c == 'E'),
      optional (choice [lit "+", lit "-"]), digits])])

def boolean : Matcher := atomic .boolean (choice [lit "true", lit "false"])

def literalValue : Matcher := rule .literalValue (choice [stringLiteral, boolean, number])

end Primitives

/-! The curly brackets are written by their code points. -/

section Schema

def notNull : Matcher := rule .notNull (lit "not_null")
def unique : Matcher := rule .unique (lit "unique")
def positive : Matcher := rule .positive (lit "positive")
def negative : Matcher := rule .negative (lit "negative")
def primaryKey : Matcher := rule .primaryKey (lit "primary_key")
def foreignKey : Matcher :=
  rule .foreignKey (phrase [lit "foreign_key(", identifier, lit ".", identifier, lit ")"])
def coerceConstraint : Matcher := rule .coerceConstraint (lit "coerce")
def betweenConstraint : Matcher :=
  rule .betweenConstraint (phrase [lit "between(", number, lit ",", number, lit ")"])
def minConstraint : Matcher := rule .minConstraint (phrase [lit "min=", number])
def maxConstraint : Matcher := rule .maxConstraint (phrase [lit "max=", number])
def lenConstraint : Matcher :=
  rule .lenConstraint (phrase [lit "len(", number, lit ",", number, lit ")"])
def regexConstraint : Matcher := rule .regexConstraint (phrase [lit "regex=", stringLiteral])
def enumConstraint : Matcher :=
  rule .enumConstraint (phrase [lit "enum=[", stringLiteral,
    zeroOrMore (phrase [lit ",", stringLiteral]), lit "]"])

def constraint : Matcher :=
  rule .constraint (choice [betweenConstraint, enumConstraint, lenConstraint, regexConstraint,
    minConstraint, maxConstraint, coerceConstraint, notNull, unique, positive, negative,
    primaryKey, foreignKey])

def dataType : Matcher :=
  rule .dataType (choice [lit "datetime", lit "string", lit "float", lit "bool", lit "bytes",
    lit "date", lit "int"])

def fieldDef : Matcher :=
  rule .fieldDef (phrase [identifier, lit ":", dataType,
    zeroOrMore (phrase [lit ",", constraint]), optional (lit ",")])

def schemaSection : Matcher :=
  rule .schemaSection (phrase [lit "schema", lit "\x7b", zeroOrMore fieldDef, lit "\x7d"])

end Schema

section Quality

def severityLevel : Matcher :=
  rule .severityLevel (choice [lit "blocking", lit "error", lit "warning", lit "info"])

def severityPrefix : Matcher := rule .severityPrefix (phrase [lit "@", severityLevel, lit ":"])

def metricFn : Matcher :=
  rule .metricFn (choice [lit "completeness", lit "uniqueness", lit "validity",
    lit "consistency", lit "freshness", lit "non_null_rate"])

def qualityMetric : Matcher :=
  rule .qualityMetric (phrase [metricFn, lit "(", identifier, lit ")"])

def comparisonOp : Matcher :=
  rule .comparisonOp (choice [lit ">=", lit "<=", lit "==", lit "!=", lit ">", lit "<"])

def qualityRule : Matcher :=
  rule .qualityRule (phrase [optional severityPrefix, qualityMetric, comparisonOp, number])

def crossColumnRule : Matcher :=
  rule .crossColumnRule (phrase [optional severityPrefix, lit "assert", identifier, comparisonOp,
    literalValue, lit "when", identifier, comparisonOp, literalValue])

def qualitySection : Matcher :=
  rule .qualitySection (phrase [lit "quality", lit "\x7b",
    zeroOrMore (choice [crossColumnRule, qualityRule]), lit "\x7d"])

end Quality

section Stats

def statFn : Matcher :=
  rule .statFn (choice [lit "median", lit "mean", lit "p999", lit "p99", lit "p95", lit "p05",
    lit "p01", lit "std", lit "min", lit "max"])

def statsRule : Matcher :=
  rule .statsRule (phrase [optional severityPrefix, identifier, lit ".", statFn, lit "drift",
    comparisonOp, number])

def statsSection : Matcher :=
  rule .statsSection (phrase [lit "stats", lit "\x7b", zeroOrMore statsRule, lit "\x7d"])

end Stats

section Anomalies

def anomalyFn : Matcher :=
  rule .anomalyFn (choice [lit "detect_outliers", lit "detect_nulls", lit "detect_duplicates",
    lit "detect_pattern_breaks", lit "detect_cardinality_explosion"])

def namedArg : Matcher :=
  rule .namedArg (phrase [identifier, lit "=", choice [stringLiteral, number, boolean]])

def anomalyRule : Matcher :=
  rule .anomalyRule (phrase [optional severityPrefix, anomalyFn, lit "(", identifier,
    zeroOrMore (phrase [lit ",", namedArg]), lit ")"])

def anomalySection : Matcher :=
  rule .anomalySection (phrase [lit "anomalies", lit "\x7b", zeroOrMore anomalyRule, lit "\x7d"])

end Anomalies

section Stream

def streamWindow : Matcher := rule .streamWindow (phrase [lit "window=", stringLiteral])
def streamWatermark : Matcher := rule .streamWatermark (phrase [lit "watermark=", stringLiteral])
def streamEmit : Matcher := rule .streamEmit (phrase [lit "emit=", stringLiteral])

def streamOption : Matcher :=
  rule .streamOption (choice [streamWindow, streamWatermark, streamEmit])

def streamSection : Matcher :=
  rule .streamSection (phrase [lit "stream", lit "\x7b", zeroOrMore streamOption, lit "\x7d"])

end Stream

def sectionRule : Matcher :=
  rule .sectionRule (choice [schemaSection, qualitySection, statsSection, anomalySection,
    streamSection])

def datasetDef : Matcher :=
  rule .datasetDef (phrase [lit "dataset", identifier, lit "\x7b", zeroOrMore sectionRule, lit "\x7d"])

/-- The start of the input matches nothing, so the rule begins with the skip that follows it. -/
def contract : Matcher := rule .contract (phrase [nothing, zeroOrMore datasetDef, endOfInput])

end StatGuardian.Core.Grammar
