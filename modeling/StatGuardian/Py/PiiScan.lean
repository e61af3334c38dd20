import StatGuardian.Library.FirstByKey
import StatGuardian.Library.RegexBoundaries
import StatGuardian.Runtime.Float64
import StatGuardian.Runtime.Text

namespace StatGuardian.Py.Pii

variable {F : Type} [Float64 F]

/-- `str.lower` and the classes `\w` and `\d` of Unicode. -/
structure PyText where
  lower : String → String
  isWord : Char → Bool
  isDecimal : Char → Bool

section Patterns

open Regex

def span (first last : Char) : Regex Char :=
  .cls (fun c => decide (first ≤ c) && decide (c ≤ last))

def among (chars : List Char) : Regex Char := .cls (fun c => chars.contains c)

def upper : Regex Char := span 'A' 'Z'

def letter : Regex Char := .alt (span 'a' 'z') upper

def digit : Regex Char := span '0' '9'

def isAsciiWord (c : Char) : Bool := c.isAlphanum || c == '_'

/-- `[-.\s]?` with the white space of ASCII. -/
def gap : Regex Char := opt (among ['-', '.', ' ', '\t', '\n', '\r', '\x0b', '\x0c'])

def email (text : String) : Bool :=
  (concat
    [atLeast (.alt letter (.alt digit (among ['.', '_', '%', '+', '-']))) 1, .literal ['@'],
      atLeast (.alt letter (.alt digit (among ['.', '-']))) 1, .literal ['.'],
      atLeast letter 2]).search text.toList

def phone (text : String) : Bool :=
  (concat
    [opt (concat [opt (.literal ['+']), .literal ['1'], gap]), opt (.literal ['(']),
      times digit 3, opt (.literal [')']), gap, times digit 3, gap, times digit 4]).search
    text.toList

def ssn (text : String) : Bool :=
  searchWord isAsciiWord
    (concat [times digit 3, .literal ['-'], times digit 2, .literal ['-'], times digit 4])
    text.toList

def creditCard (text : String) : Bool :=
  searchWord isAsciiWord
    (oneOf
      [concat [.literal ['4'], times digit 12, opt (times digit 3)],
        concat [.literal ['5'], span '1' '5', times digit 14],
        concat [.literal ['3'], among ['4', '7'], times digit 13],
        concat
          [.literal ['6'], .alt (.literal ['0', '1', '1']) (.seq (.literal ['5']) (times digit 2)),
            times digit 12]])
    text.toList

def octet : Regex Char :=
  oneOf
    [.seq (.literal ['2', '5']) (span '0' '5'),
      concat [.literal ['2'], span '0' '4', digit],
      concat [opt (among ['0', '1']), digit, opt digit]]

def ipAddress (text : String) : Bool :=
  searchWord isAsciiWord (.seq (times (.seq octet (.literal ['.'])) 3) octet) text.toList

def dateOfBirth (env : PyText) (text : String) : Bool :=
  let separator := among ['/', '-']
  searchWord env.isWord
    (concat
      [.alt (.seq (.literal ['0']) (span '1' '9')) (.seq (.literal ['1']) (span '0' '2')),
        separator,
        oneOf
          [.seq (.literal ['0']) (span '1' '9'), .seq (among ['1', '2']) (.cls env.isDecimal),
            .seq (.literal ['3']) (among ['0', '1'])],
        separator, .alt (.literal ['1', '9']) (.literal ['2', '0']), times (.cls env.isDecimal) 2])
    text.toList

def passport (env : PyText) (text : String) : Bool :=
  searchWord env.isWord (.seq (repeat_ upper 1 2) (repeat_ (.cls env.isDecimal) 6 9)) text.toList

def iban (env : PyText) (text : String) : Bool :=
  searchWord env.isWord
    (concat [times upper 2, times (.cls env.isDecimal) 2, repeat_ (.alt upper digit) 4 30])
    text.toList

end Patterns

def patterns (env : PyText) : List (String × (String → Bool)) :=
  [("email", email), ("phone", phone), ("ssn", ssn), ("credit_card", creditCard),
    ("ip_address", ipAddress), ("date_of_birth", dateOfBirth env), ("passport", passport env),
    ("iban", iban env)]

def nameHints : List (String × List String) :=
  [("email", ["email", "e_mail", "email_address", "mail"]),
    ("phone",
      ["phone", "mobile", "cell", "telephone", "tel", "phone_number", "contact_number"]),
    ("ssn", ["ssn", "social_security", "social_security_number", "tax_id", "national_id"]),
    ("credit_card", ["credit_card", "card_number", "cc_number", "card_no", "payment_card"]),
    ("ip_address", ["ip", "ip_address", "ipv4", "client_ip", "user_ip", "remote_addr"]),
    ("name", ["first_name", "last_name", "full_name", "surname", "given_name", "family_name"]),
    ("date_of_birth", ["dob", "date_of_birth", "birthdate", "birth_date", "birthday"]),
    ("address", ["address", "street", "city", "zip", "postal_code", "postcode", "addr"]),
    ("gender", ["gender", "sex"]),
    ("nationality", ["nationality", "citizenship", "country_of_birth"]),
    ("passport", ["passport", "passport_number", "travel_document"]),
    ("iban", ["iban", "bank_account", "account_number", "sort_code"])]

inductive DetectionMethod where
  | nameHeuristic
  | patternMatch
  deriving DecidableEq, Repr

inductive Risk where
  | high
  | medium
  | low
  deriving DecidableEq, Repr

structure PiiFinding where
  column : String
  piiType : String
  detectionMethod : DetectionMethod
  risk : Risk
  sampleMatches : Nat := 0
  sampleSize : Nat := 0
  deriving DecidableEq, Repr

inductive Cells where
  | strings (values : List (Option String))
  | other

structure Frame where
  columns : List (String × Cells)
  distinct : (columns.map Prod.fst).Nodup

structure Progress where
  findings : List PiiFinding
  seen : List (String × String)

def Progress.add (progress : Progress) (finding : PiiFinding) : Progress :=
  if (finding.column, finding.piiType) ∈ progress.seen then progress
  else
    ⟨progress.findings ++ [finding], progress.seen ++ [(finding.column, finding.piiType)]⟩

def columnKey (env : PyText) (colName : String) : String :=
  String.ofList ((env.lower colName).toList.map (fun c => if c = ' ' ∨ c = '-' then '_' else c))

def hintedType (env : PyText) (colName : String) : Option String :=
  (nameHints.find? (fun entry => entry.2.any (Text.contains (columnKey env colName)))).map Prod.fst

def nameFinding (colName piiType : String) : PiiFinding :=
  { column := colName, piiType := piiType, detectionMethod := .nameHeuristic, risk := .medium }

def fraction (values : List String) (pattern : String → Bool) : F :=
  Float64.ofRat (values.countP pattern / values.length)

def patternFinding (F : Type) [Float64 F] (colName : String) (values : List String)
    (piiType : String) (pattern : String → Bool) : PiiFinding where
  column := colName
  piiType := piiType
  detectionMethod := .patternMatch
  risk := if Float64.ge (fraction values pattern : F) (Float64.ofRat (1 / 2)) then .high
    else .medium
  sampleMatches := values.countP pattern
  sampleSize := values.length

def nonNull (sampleRows : Nat) : Cells → List String
  | .strings values => (values.take sampleRows).filterMap id
  | .other => []

def scanColumn (env : PyText) (sampleRows : Nat) (patternThreshold : F) (progress : Progress)
    (col : String × Cells) : Progress :=
  let named := (hintedType env col.1).elim progress
    (fun piiType => progress.add (nameFinding col.1 piiType))
  let values := nonNull sampleRows col.2
  if values.length = 0 then named
  else
    (patterns env).foldl
      (fun progress entry =>
        if Float64.ge (fraction values entry.2) patternThreshold then
          progress.add (patternFinding F col.1 values entry.1 entry.2)
        else progress)
      named

def scanPii (env : PyText) (df : Frame) (sampleRows : Nat) (patternThreshold : F) :
    List PiiFinding :=
  (df.columns.foldl (scanColumn env sampleRows patternThreshold) ⟨[], []⟩).findings

end StatGuardian.Py.Pii
