import StatGuardian.Library.Markup
import StatGuardian.Metrics.Report

namespace StatGuardian.Py.Html

open StatGuardian.Core StatGuardian.Stats StatGuardian.Metrics StatGuardian.Validators Markup

variable {F : Type} [Float64 F]

/-- `str.replace` of one character. -/
def replace (c : Char) (text : String) (s : String) : String :=
  String.ofList (s.toList.flatMap (fun d => if d = c then text.toList else [d]))

def htmlEscape (s : String) : String :=
  replace '\'' "&#x27;" (replace '"' "&quot;" (replace '>' "&gt;" (replace '<' "&lt;"
    (replace '&' "&amp;" s))))

/-- How Python writes a `float`; none of its letters is a sign of the markup. -/
structure FloatFormat (F : Type) where
  /-- `.4f` -/
  fixed4 : F → String
  /-- `.0%` -/
  percent : F → String
  str : F → String
  plain_fixed4 : ∀ x, Plain (fixed4 x)
  plain_percent : ∀ x, Plain (percent x)
  plain_str : ∀ x, Plain (str x)

/-- The identifier and the clock readings of a report. -/
structure RunStamp where
  id : String
  executedAt : String
  durationMs : Nat
  plain_id : Plain id
  plain_executedAt : Plain executedAt

def isFinite (x : F) : Bool := Float64.lt Float64.negInfinity x && Float64.lt x Float64.infinity

/-- A number after `to_json` and `json.loads`: what is not finite is written as `null`. -/
def jsonNumber (x : F) : Option F := if isFinite x then some x else none

def severityName : Severity → String
  | .info => "info"
  | .warning => "warning"
  | .error => "error"
  | .blocking => "blocking"

def badge (passed : Bool) : String :=
  if passed then
    "<span style=\"background:#16a34a;color:#fff;padding:3px 10px;border-radius:4px;font-weight:700\">PASS ✓</span>"
  else
    "<span style=\"background:#dc2626;color:#fff;padding:3px 10px;border-radius:4px;font-weight:700\">FAIL ✗</span>"

def gradeColor : String → String
  | "A" => "#16a34a"
  | "B" => "#65a30d"
  | "C" => "#d97706"
  | "D" => "#ea580c"
  | "F" => "#dc2626"
  | _ => "#6b7280"

def sevColor : String → String
  | "Blocking" => "#dc2626"
  | "Error" => "#ea580c"
  | "Warning" => "#d97706"
  | "Info" => "#6b7280"
  | _ => "#6b7280"

/-- `:,` of reversed digits. -/
def groupDigits : List Char → List Char
  | a :: b :: c :: d :: rest => a :: b :: c :: ',' :: groupDigits (d :: rest)
  | digits => digits

def grouped (n : Nat) : String := String.ofList (groupDigits (toString n).toList.reverse).reverse

def prefixOf (n : Nat) (s : String) : String := String.ofList (s.toList.take n)

def td (attributes content : String) : String := "<td" ++ attributes ++ ">" ++ content ++ "</td>"

def violationRow (v : Validators.Violation F) : String :=
  let sev := severityName v.severity
  "<tr>" ++ td "" (htmlEscape v.column) ++ td "" (htmlEscape v.check) ++
    td (" style='color:" ++ sevColor sev ++ ";font-weight:600'") (htmlEscape sev) ++
    td "" (htmlEscape v.message) ++ "</tr>"

def violHtml (violations : List (Validators.Violation F)) : String :=
  let rows := violations.foldl (fun rows v => rows ++ violationRow v) ""
  if violations.isEmpty then "<p style='color:#6b7280'>No violations.</p>"
  else
    "<table><thead><tr><th>Column</th><th>Check</th><th>Severity</th><th>Message</th></tr></thead>" ++
      "<tbody>" ++ rows ++ "</tbody></table>"

variable (format : FloatFormat F)

/-- The format fails on the `None` that stands for a number that is not finite. -/
def formatted (write : F → String) (x : F) : Except String String :=
  match jsonNumber x with
  | some number => .ok (write number)
  | none => .error "unsupported format string passed to NoneType.__format__"

/-- `dr.get('psi') or '—'` -/
def psiText (psi : Option F) : String :=
  match psi.bind jsonNumber with
  | some number => if Float64.eq number Float64.zero then "—" else format.str number
  | none => "—"

/-- A number or `None` -/
def numberText (x : Option F) : String :=
  match x.bind jsonNumber with
  | some number => format.str number
  | none => "None"

def passedIcon (passed : Bool) : String := if passed then "✓" else "✗"

def passedColor (passed : Bool) : String := if passed then "#16a34a" else "#dc2626"

def driftRow (dr : DriftResult F) : Except String String := do
  let reference ← formatted format.fixed4 dr.referenceValue
  let current ← formatted format.fixed4 dr.currentValue
  let drift ← formatted format.fixed4 dr.drift
  return "<tr>" ++ td "" (htmlEscape dr.column) ++ td "" (htmlEscape dr.stat) ++
    td "" reference ++ td "" current ++ td "" drift ++ td "" (psiText format dr.psi) ++
    td (" style='color:" ++ passedColor dr.passed ++ ";font-weight:700'") (passedIcon dr.passed) ++
    "</tr>"

def driftHtml (drift : List (DriftResult F)) : Except String String := do
  let rows ← drift.foldlM (fun rows dr => return rows ++ (← driftRow format dr)) ""
  return if drift.isEmpty then
      "<p style='color:#6b7280'>No drift analysis (no reference dataset provided).</p>"
    else
      "<table><thead><tr><th>Column</th><th>Stat</th><th>Reference</th>" ++
        "<th>Current</th><th>Drift</th><th>PSI</th><th>Passed</th></tr></thead>" ++
        "<tbody>" ++ rows ++ "</tbody></table>"

def profileRow (p : ColumnProfile F) : String :=
  "<tr>" ++ td "" (htmlEscape p.name) ++ td "" (numberText format p.numeric.mean) ++
    td "" (numberText format p.numeric.std) ++ td "" (numberText format p.numeric.p95) ++
    td "" (numberText format (some p.nullRate)) ++ td "" (toString p.distinctCount) ++ "</tr>"

def profilesHtml (profiles : List (ColumnProfile F)) : String :=
  let rows := profiles.foldl (fun rows p => rows ++ profileRow format p) ""
  if profiles.isEmpty then "<p style='color:#6b7280'>No column profiles.</p>"
  else
    "<table><thead><tr><th>Column</th><th>Mean</th><th>Std</th>" ++
      "<th>P95</th><th>Null rate</th><th>Distinct</th></tr></thead>" ++
      "<tbody>" ++ rows ++ "</tbody></table>"

def pageHead (dataset : String) (stamp : RunStamp) : String :=
  "<!DOCTYPE html>
<html lang=\"en\">
<head>
<meta charset=\"utf-8\">
<meta name=\"viewport\" content=\"width=device-width,initial-scale=1\">
<title>StatGuard — " ++ htmlEscape dataset ++ " — " ++ prefixOf 10 stamp.executedAt ++ "</title>
<style>
  body\x7bfont-family:system-ui,sans-serif;margin:0;padding:24px 32px;color:#1f2937;background:#f9fafb\x7d
  h1\x7bfont-size:1.5rem;margin:0 0 4px\x7d
  h2\x7bfont-size:1.1rem;margin:28px 0 8px;border-bottom:1px solid #e5e7eb;padding-bottom:4px\x7d
  .meta\x7bcolor:#6b7280;font-size:.875rem;margin-bottom:20px\x7d
  .cards\x7bdisplay:flex;gap:16px;flex-wrap:wrap;margin-bottom:24px\x7d
  .card\x7bbackground:#fff;border:1px solid #e5e7eb;border-radius:8px;padding:16px 20px;min-width:140px\x7d
  .card .label\x7bfont-size:.75rem;color:#6b7280;text-transform:uppercase;letter-spacing:.05em\x7d
  .card .value\x7bfont-size:1.75rem;font-weight:700;margin-top:4px\x7d
  table\x7bwidth:100%;border-collapse:collapse;background:#fff;border:1px solid #e5e7eb;border-radius:6px;overflow:hidden;font-size:.875rem\x7d
  th\x7bbackground:#f3f4f6;text-align:left;padding:8px 12px;font-weight:600;border-bottom:1px solid #e5e7eb\x7d
  td\x7bpadding:7px 12px;border-bottom:1px solid #f3f4f6\x7d
  tr:last-child td\x7bborder-bottom:none\x7d
  tr:hover td\x7bbackground:#f9fafb\x7d
</style>
</head>
<body>
<h1>StatGuard Validation Report</h1>
"

def pageMeta (report : Metrics.ValidationReport F) (stamp : RunStamp) : String :=
  "<div class=\"meta\">
  Dataset: <strong>" ++ htmlEscape report.dataset ++ "</strong> &nbsp;·&nbsp;
  Executed: " ++ replace 'T' " " (prefixOf 19 stamp.executedAt) ++ " UTC &nbsp;·&nbsp;
  Duration: " ++ toString stamp.durationMs ++ " ms &nbsp;·&nbsp;
  Rows: " ++ grouped report.rowCount ++ " &nbsp;·&nbsp;
  ID: <code style=\"font-size:.8rem\">" ++ stamp.id ++ "</code>
</div>

"

def valueCard (label style content : String) : String :=
  "  <div class=\"card\">
    <div class=\"label\">" ++ label ++ ("</div>
    <div class=\"value\"" ++ style ++ ">") ++ content ++ "</div>
  </div>
"

def cards (report : Metrics.ValidationReport F) (score : String) : String :=
  let grade := report.health.grade
  let drift := report.driftResults
  let failed := drift.countP (fun dr => !dr.passed)
  "<div class=\"cards\">
" ++ valueCard "Status" " style=\"font-size:1rem;padding-top:8px\"" (badge report.passed) ++
    valueCard "Health score" (" style=\"color:" ++ gradeColor grade ++ "\"") score ++
    valueCard "Grade" (" style=\"color:" ++ gradeColor grade ++ "\"") grade ++
    valueCard "Violations" "" (toString report.violations.length) ++
    valueCard "Drift checks" "" (toString failed ++ "/" ++ toString drift.length ++ " failed") ++
    "</div>

"

def section_ (title : String) (count : Nat) (content : String) : String :=
  "<h2>" ++ title ++ " (" ++ toString count ++ ")</h2>
" ++ content ++ "

"

def pageFoot : String :=
  "<p style=\"margin-top:32px;color:#9ca3af;font-size:.8rem\">
  Generated by <strong>StatGuard</strong> · <a href=\"https://github.com/Mullassery/statguardian\" style=\"color:#6b7280\">github.com/Mullassery/statguardian</a>
</p>
</body>
</html>"

/-- `to_html`, with the report as `json.loads(report.to_json())` has it -/
def toHtml (report : Metrics.ValidationReport F) (stamp : RunStamp) : Except String String := do
  let drift ← driftHtml format report.driftResults
  let score ← formatted format.percent report.health.score
  return pageHead report.dataset stamp ++ pageMeta report stamp ++ cards report score ++
    section_ "Violations" report.violations.length (violHtml report.violations) ++
    section_ "Drift results" report.driftResults.length drift ++
    section_ "Column profiles" report.columnProfiles.length
      (profilesHtml format report.columnProfiles) ++
    pageFoot

end StatGuardian.Py.Html
