import StatGuardian.Library.Regex
import StatGuardian.Runtime.Text

namespace StatGuardian.Text

/-- `str::matches(pattern).count()` for a pattern that is not empty: an occurrence is looked for
    after the end of the one before. -/
def matchCount (pattern : List Char) : Nat → List Char → Nat
  | _, [] => 0
  | skip + 1, _ :: rest => matchCount pattern skip rest
  | 0, c :: rest =>
    if pattern.isPrefixOf (c :: rest) then 1 + matchCount pattern (pattern.length - 1) rest
    else matchCount pattern 0 rest

end StatGuardian.Text

namespace StatGuardian.Py

/-! The checks of the binding. -/

namespace Binding

def nestingStep (depth : Int × Int) (ch : Char) : Int × Int :=
  let (maxDepth, currentDepth) := depth
  if ch = '\x7b' ∨ ch = '(' ∨ ch = '[' then
    let currentDepth := currentDepth + 1
    (if currentDepth > maxDepth then currentDepth else maxDepth, currentDepth)
  else if ch = '\x7d' ∨ ch = ')' ∨ ch = ']' then (maxDepth, currentDepth - 1)
  else (maxDepth, currentDepth)

def nestingDepth (chars : List Char) : Int := (chars.foldl nestingStep (0, 0)).1

/-- `u8::is_ascii_whitespace` -/
def isAsciiWhitespace (b : UInt8) : Bool :=
  b == 0x20 || b == 0x09 || b == 0x0A || b == 0x0C || b == 0x0D

def multipleSemicolons : List UInt8 → Bool
  | [] => false
  | b :: rest =>
    (b == 0x3B && (rest.dropWhile isAsciiWhitespace).head? == some 0x3B) || multipleSemicolons rest

def validateDslSafety (dsl : String) : Except String Unit :=
  if (Text.trim dsl).isEmpty then .error "Empty contract"
  else if dsl.utf8ByteSize > 1000000 then .error "Contract too large (max 1MB)"
  else if !Text.contains dsl "dataset" then .error "Contract must contain 'dataset' keyword"
  else if nestingDepth dsl.toList > 50 then
    .error s!"Nesting too deep (max 50, got {nestingDepth dsl.toList})"
  else if Text.matchCount ['_', '_'] 0 dsl.toList ≥ 2 then
    .error "Suspicious pattern: Double underscore (reserved)"
  else if multipleSemicolons dsl.toUTF8.data.toList then
    .error "Suspicious pattern: Multiple semicolons"
  else if dsl.toList.contains '\x00' then .error "Suspicious pattern: Null byte"
  else .ok ()

end Binding

/-! The checks of the Python package. -/

namespace DslValidator

/-- `str.isspace` of one character, which is also what the class `\s` matches. -/
def isSpace (c : Char) : Bool := Text.isWhitespace c || (0x1C ≤ c.toNat && c.toNat ≤ 0x1F)

def strip (s : String) : String :=
  String.ofList ((s.toList.dropWhile isSpace).reverse.dropWhile isSpace).reverse

def nestingStep (depth : Int × Int) (char : Char) : Int × Int :=
  let (maxDepth, currentDepth) := depth
  if char ∈ ['\x7b', '(', '['] then (max maxDepth (currentDepth + 1), currentDepth + 1)
  else if char ∈ ['\x7d', ')', ']'] then (maxDepth, currentDepth - 1)
  else (maxDepth, currentDepth)

def nestingDepth (chars : List Char) : Int := (chars.foldl nestingStep (0, 0)).1

/-- `__.*__`: a dot matches every character but a newline. -/
def doubleUnderscore : Regex Char :=
  .seq (.literal ['_', '_']) (.seq (.star (.cls (fun c => c != '\n'))) (.literal ['_', '_']))

/-- `;\s*;` -/
def multipleSemicolons : Regex Char :=
  .seq (.literal [';']) (.seq (.star (.cls isSpace)) (.literal [';']))

def nullByte : Regex Char := .literal ['\x00']

def suspicious : List (Regex Char × String) :=
  [(doubleUnderscore, "Double underscore (reserved)"), (multipleSemicolons, "Multiple semicolons"),
    (nullByte, "Null byte")]

def validateDslContract (dslContent : String) : Bool × String :=
  if dslContent.isEmpty || (strip dslContent).isEmpty then (false, "Empty contract")
  else if dslContent.length > 1000000 then (false, "Contract too large (max 1MB)")
  else if !Text.contains dslContent "dataset" then
    (false, "Contract must contain 'dataset' keyword")
  else if nestingDepth dslContent.toList > 50 then
    (false, s!"Nesting too deep (max 50, got {nestingDepth dslContent.toList})")
  else
    (suspicious.find? (fun pattern => pattern.1.search dslContent.toList)).elim (true, "")
      (fun pattern => (false, s!"Suspicious pattern: {pattern.2}"))

end DslValidator

end StatGuardian.Py
