import StatGuardian.Core.Parser

namespace StatGuardian.Core.Rendering

open Grammar Core.Parser

structure Identifier where
  first : Char
  rest : List Char
  alpha : first.isAlpha = true
  word : ∀ c ∈ rest, isWordChar c = true

def Identifier.text (name : Identifier) : List Char := name.first :: name.rest

def Identifier.value (name : Identifier) : String := String.ofList name.text

structure Digits where
  text : List Char
  some : text ≠ []
  digit : ∀ c ∈ text, c.isDigit = true

/-- Text without a double quote: the grammar has no escape for one. -/
structure Quoted where
  chars : List Char
  plain : '"' ∉ chars

def Quoted.text (q : Quoted) : List Char := '"' :: q.chars ++ ['"']

def Quoted.value (q : Quoted) : String := String.ofList q.chars

inductive Sign where
  | unsigned | plus | minus
  deriving DecidableEq

def Sign.text : Sign → List Char
  | unsigned => []
  | plus => ['+']
  | minus => ['-']

structure Exponent where
  upper : Bool
  sign : Sign
  digits : Digits

def Exponent.text (e : Exponent) : List Char :=
  (if e.upper then 'E' else 'e') :: e.sign.text ++ e.digits.text

def Exponent.value (e : Exponent) : Int :=
  match e.sign with
  | .minus => -digitsValue e.digits.text
  | _ => digitsValue e.digits.text

structure Numeral where
  negative : Bool
  whole : Digits
  fraction : Option Digits
  exponent : Option Exponent

namespace Numeral

def fractionDigits (n : Numeral) : List Char := n.fraction.elim [] Digits.text

def fractionText (n : Numeral) : List Char := n.fraction.elim [] (fun d => '.' :: d.text)

def exponentText (n : Numeral) : List Char := n.exponent.elim [] Exponent.text

def text (n : Numeral) : List Char :=
  (if n.negative then ['-'] else []) ++ n.whole.text ++ n.fractionText ++ n.exponentText

def value (n : Numeral) : ℚ :=
  let magnitude := scale (digitsValue (n.whole.text ++ n.fractionDigits))
    (n.exponent.elim 0 Exponent.value - n.fractionDigits.length)
  if n.negative then -magnitude else magnitude

end Numeral

inductive WrittenConstraint where
  | notNull | unique | positive | negative | primaryKey | coerce
  | regex (pattern : Quoted)
  | between (min max : Numeral)
  | min (value : Numeral)
  | max (value : Numeral)
  | len (min max : Nat)
  | enum (first : Quoted) (rest : List Quoted)
  | foreignKey (table column : Identifier)

namespace WrittenConstraint

def text : WrittenConstraint → List Char
  | notNull => "not_null".toList
  | unique => "unique".toList
  | positive => "positive".toList
  | negative => "negative".toList
  | primaryKey => "primary_key".toList
  | coerce => "coerce".toList
  | regex pattern => "regex=".toList ++ pattern.text
  | between lo hi => "between(".toList ++ (lo.text ++ (", ".toList ++ (hi.text ++ ")".toList)))
  | min value => "min=".toList ++ value.text
  | max value => "max=".toList ++ value.text
  | len lo hi =>
    "len(".toList ++ (Nat.toDigits 10 lo ++ (", ".toList ++ (Nat.toDigits 10 hi ++ ")".toList)))
  | enum first rest =>
    "enum=[".toList ++ (first.text ++ (rest.flatMap (fun q => ", ".toList ++ q.text) ++ "]".toList))
  | foreignKey table column =>
    "foreign_key(".toList ++ (table.text ++ (".".toList ++ (column.text ++ ")".toList)))

variable (F : Type) [Float64 F]

def value : WrittenConstraint → Constraint F
  | notNull => .notNull
  | unique => .unique
  | positive => .positive
  | negative => .negative
  | primaryKey => .primaryKey
  | coerce => .coerce
  | regex pattern => .regex pattern.value
  | between lo hi => .between (Float64.ofRat lo.value) (Float64.ofRat hi.value)
  | min value => .min (Float64.ofRat value.value)
  | max value => .max (Float64.ofRat value.value)
  | len lo hi => .len lo hi
  | enum first rest => .enum (first.value :: rest.map Quoted.value)
  | foreignKey table column => .foreignKey table.value column.value

/-- The bounds of a length go through an `f64`; here they come back as they were. -/
def Exact : WrittenConstraint → Prop
  | len lo hi => Float64.toUsize (Float64.ofNat lo : F) = lo ∧
      Float64.toUsize (Float64.ofNat hi : F) = hi
  | _ => True

end WrittenConstraint

def typeText (type : DataType) : List Char := type.display.toList

structure WrittenField where
  name : Identifier
  dataType : DataType
  constraints : List WrittenConstraint
  trailingComma : Bool

namespace WrittenField

def constraintsText (constraints : List WrittenConstraint) : List Char :=
  constraints.flatMap (fun c => ", ".toList ++ c.text)

def ending (field : WrittenField) : List Char := if field.trailingComma then [',', '\n'] else ['\n']

def text (field : WrittenField) : List Char :=
  field.name.text ++ (": ".toList ++ (typeText field.dataType ++
    (constraintsText field.constraints ++ field.ending)))

variable (F : Type) [Float64 F]

def value (field : WrittenField) : FieldDef F where
  name := field.name.value
  dataType := field.dataType
  constraints := field.constraints.map (WrittenConstraint.value F)

end WrittenField

def schemaChars (dataset : Identifier) (fields : List WrittenField) : List Char :=
  "dataset ".toList ++ (dataset.text ++ (" \x7b\nschema \x7b\n".toList ++
    (fields.flatMap WrittenField.text ++ "\x7d\n\x7d\n".toList)))

def schemaText (dataset : Identifier) (fields : List WrittenField) : String :=
  String.ofList (schemaChars dataset fields)

def bareKeywords : List String :=
  ["coerce", "not_null", "unique", "positive", "negative", "primary_key"]

def StartsWithKeyword (name : Identifier) : Prop :=
  ∃ keyword ∈ bareKeywords, keyword.toList <+: name.text

/-- No comma at the end of a line is followed by a name that starts with a keyword. -/
def CommasSafe (fields : List WrittenField) : Prop :=
  fields.IsChain (fun field following =>
    field.trailingComma = true → ¬ StartsWithKeyword following.name)

end StatGuardian.Core.Rendering
