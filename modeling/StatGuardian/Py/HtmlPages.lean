import StatGuardian.Library.Results
import StatGuardian.Py.HtmlReport
import StatGuardian.Runtime.ExtRat

namespace StatGuardian.Py.Html

open StatGuardian.Core StatGuardian.Stats StatGuardian.Metrics StatGuardian.Validators Markup

/-- No sign of the text begins a tag. -/
def NoTag (text : String) : Prop := ∀ c ∈ text.toList, c ≠ '<'

instance (text : String) : Decidable (NoTag text) :=
  List.decidableBAll (fun c => c ≠ '<') text.toList

def NoEnd (text : String) : Prop := ∀ c ∈ text.toList, c ≠ '>'

instance (text : String) : Decidable (NoEnd text) :=
  List.decidableBAll (fun c => c ≠ '>') text.toList

theorem noTag_of_plain {text : String} (plain : Plain text) : NoTag text := by
  intro c member same
  have sign := plain c member
  rw [same] at sign
  cases sign

theorem noTag_append {text other : String} (noTag : NoTag text) (noTagToo : NoTag other) :
    NoTag (text ++ other) := by
  intro c member
  rw [String.toList_append, List.mem_append] at member
  exact member.elim (noTag c) (noTagToo c)

theorem htmlEscape_toList (s : String) : (htmlEscape s).toList = s.toList.flatMap escapeChar := by
  simp only [htmlEscape, replace, String.toList_ofList, List.flatMap_assoc]
  congr 1
  funext c
  by_cases amp : c = '&'
  · rw [amp]
    rfl
  by_cases lt : c = '<'
  · rw [lt]
    rfl
  by_cases gt : c = '>'
  · rw [gt]
    rfl
  by_cases quot : c = '"'
  · rw [quot]
    rfl
  by_cases apos : c = '\''
  · rw [apos]
    rfl
  simp only [escapeChar, if_neg amp, if_neg lt, if_neg gt, if_neg quot, if_neg apos,
    List.flatMap_cons, List.flatMap_nil, List.append_nil]

theorem noTag_htmlEscape (s : String) : NoTag (htmlEscape s) := by
  intro c member
  rw [htmlEscape_toList] at member
  obtain ⟨d, -, escaped⟩ := List.mem_flatMap.mp member
  exact not_tag_escapeChar d c escaped

theorem plain_toString (n : Nat) : Plain (toString n) := by
  intro c member
  rw [Nat.toString_eq_repr, Nat.toList_repr] at member
  have digit : c.isDigit = true := Nat.isDigit_of_mem_toDigits (by decide) (by decide) member
  unfold plain
  rw [Bool.and_eq_true, bne_iff_ne, bne_iff_ne]
  refine ⟨?_, ?_⟩ <;>
  · intro same
    rw [same] at digit
    cases digit

theorem mem_groupDigits (digits : List Char) :
    ∀ c ∈ groupDigits digits, c ∈ digits ∨ c = ',' := by
  fun_induction groupDigits digits with
  | case1 a b c d rest ih =>
    intro e member
    simp only [List.mem_cons] at member ih ⊢
    grind
  | case2 digits => exact fun c member => .inl member

theorem noTag_grouped (n : Nat) : NoTag (grouped n) := by
  intro c member
  rw [grouped, String.toList_ofList, List.mem_reverse] at member
  obtain digit | rfl := mem_groupDigits _ c member
  · exact noTag_of_plain (plain_toString n) c (List.mem_reverse.mp digit)
  · decide

theorem noTag_prefixOf {s : String} (noTag : NoTag s) (n : Nat) : NoTag (prefixOf n s) := by
  intro c member
  rw [prefixOf, String.toList_ofList] at member
  exact noTag c (List.mem_of_mem_take member)

theorem noTag_replace {text s : String} (noTag : NoTag s) (noTagToo : NoTag text) (c : Char) :
    NoTag (replace c text s) := by
  intro d member
  rw [replace, String.toList_ofList, List.mem_flatMap] at member
  obtain ⟨e, inside, written⟩ := member
  split at written
  · exact noTagToo d written
  · rw [List.mem_singleton.mp written]
    exact noTag e inside

variable {F : Type} [Float64 F] (format : FloatFormat F)

theorem plain_psiText (psi : Option F) : Plain (psiText format psi) := by
  unfold psiText
  split
  · split
    · decide
    · exact format.plain_str _
  · decide

theorem plain_numberText (x : Option F) : Plain (numberText format x) := by
  unfold numberText
  split
  · exact format.plain_str _
  · decide

theorem formatted_ok_iff (write : F → String) (x : F) (text : String) :
    formatted write x = .ok text ↔ isFinite x = true ∧ write x = text := by
  unfold formatted jsonNumber
  by_cases finite : isFinite x = true <;> simp [finite]

/-- Whatever its severity is, no violation has a colour of its own: the JSON report writes the
    names of the severities in small letters. -/
theorem sevColor_severityName (severity : Severity) :
    sevColor (severityName severity) = "#6b7280" := by
  cases severity <;> rfl

def cellAttributes : List String :=
  ["", " style='color:#6b7280;font-weight:600'", " style='color:#16a34a;font-weight:700'",
    " style='color:#dc2626;font-weight:700'"]

theorem opened_td {attributes : String} (listed : attributes ∈ cellAttributes) :
    read ("<td" ++ attributes ++ ">") = ⟨[("td" ++ attributes).toList], none, [], some []⟩ := by
  simp only [cellAttributes, List.mem_cons, List.not_mem_nil, or_false] at listed
  obtain rfl | rfl | rfl | rfl := listed <;> decide

theorem alike_td (attributes : String) (listed : attributes ∈ cellAttributes)
    {content other : String} (noTag : NoTag content) (noTagToo : NoTag other) :
    Alike (td attributes content) (td attributes other) [content.toList] [other.toList] :=
  .cell (opened_td listed) noTag noTagToo

theorem alike_escaped (attributes : String) (listed : attributes ∈ cellAttributes)
    (content other : String) :
    Alike (td attributes (htmlEscape content)) (td attributes (htmlEscape other))
      [(htmlEscape content).toList] [(htmlEscape other).toList] :=
  alike_td attributes listed (noTag_htmlEscape content) (noTag_htmlEscape other)

theorem alike_tr : Alike "<tr>" "<tr>" [] [] := .literal (by decide)

theorem alike_endTr : Alike "</tr>" "</tr>" [] [] := .literal (by decide)

def violationCells (v : Validators.Violation F) : List (List Char) :=
  [(htmlEscape v.column).toList, (htmlEscape v.check).toList,
    (htmlEscape (severityName v.severity)).toList, (htmlEscape v.message).toList]

omit [Float64 F] in
theorem alike_violationRow (v w : Validators.Violation F) :
    Alike (violationRow v) (violationRow w) (violationCells v) (violationCells w) := by
  unfold violationRow
  simp only [sevColor_severityName]
  have row := alike_tr.append (alike_escaped "" (by decide) v.column w.column)
  have row := row.append (alike_escaped "" (by decide) v.check w.check)
  have row := row.append (alike_escaped (" style='color:" ++ "#6b7280" ++ ";font-weight:600'")
    (by decide) (severityName v.severity) (severityName w.severity))
  have row := row.append (alike_escaped "" (by decide) v.message w.message)
  exact row.append alike_endTr

def driftCells (dr : DriftResult F) : List (List Char) :=
  [(htmlEscape dr.column).toList, (htmlEscape dr.stat).toList,
    (format.fixed4 dr.referenceValue).toList, (format.fixed4 dr.currentValue).toList,
    (format.fixed4 dr.drift).toList, (psiText format dr.psi).toList,
    (passedIcon dr.passed).toList]

def driftRowText (dr : DriftResult F) : String :=
  "<tr>" ++ td "" (htmlEscape dr.column) ++ td "" (htmlEscape dr.stat) ++
    td "" (format.fixed4 dr.referenceValue) ++ td "" (format.fixed4 dr.currentValue) ++
    td "" (format.fixed4 dr.drift) ++ td "" (psiText format dr.psi) ++
    td (" style='color:" ++ passedColor dr.passed ++ ";font-weight:700'") (passedIcon dr.passed) ++
    "</tr>"

/-- The numbers of a drift result that the page formats. -/
def Readable (dr : DriftResult F) : Prop :=
  isFinite dr.referenceValue = true ∧ isFinite dr.currentValue = true ∧ isFinite dr.drift = true

theorem driftRow_ok_iff (dr : DriftResult F) (row : String) :
    driftRow format dr = .ok row ↔ Readable dr ∧ row = driftRowText format dr := by
  simp only [driftRow, Results.bind_ok_iff, formatted_ok_iff]
  constructor
  · rintro ⟨_, ⟨first, rfl⟩, _, ⟨second, rfl⟩, _, ⟨third, rfl⟩, same⟩
    exact ⟨⟨first, second, third⟩, (Except.ok.inj same).symm⟩
  · rintro ⟨⟨first, second, third⟩, rfl⟩
    exact ⟨_, ⟨first, rfl⟩, _, ⟨second, rfl⟩, _, ⟨third, rfl⟩, rfl⟩

theorem driftRows_ok_iff (drift : List (DriftResult F)) (start_ rows : String) :
    drift.foldlM (fun rows dr => return rows ++ (← driftRow format dr)) start_ = .ok rows ↔
      (∀ dr ∈ drift, Readable dr) ∧
        rows = drift.foldl (fun rows dr => rows ++ driftRowText format dr) start_ := by
  induction drift generalizing start_ with
  | nil => simp [pure, Except.pure, eq_comm]
  | cons dr drift ih =>
    simp only [List.foldlM_cons, List.foldl_cons, List.forall_mem_cons, Results.bind_ok_iff,
      driftRow_ok_iff, ih]
    constructor
    · rintro ⟨_, ⟨_, ⟨first, rfl⟩, same⟩, rest, rfl⟩
      obtain rfl := Except.ok.inj same
      exact ⟨⟨first, rest⟩, rfl⟩
    · rintro ⟨⟨first, rest⟩, rfl⟩
      exact ⟨_, ⟨_, ⟨first, rfl⟩, rfl⟩, rest, rfl⟩

theorem alike_driftRowText {dr ds : DriftResult F} (verdict : dr.passed = ds.passed) :
    Alike (driftRowText format dr) (driftRowText format ds) (driftCells format dr)
      (driftCells format ds) := by
  have number : ∀ x, NoTag (format.fixed4 x) := fun x => noTag_of_plain (format.plain_fixed4 x)
  have psi : ∀ x, NoTag (psiText format x) := fun x => noTag_of_plain (plain_psiText format x)
  have icon : ∀ passed, NoTag (passedIcon passed) := by decide
  have colored : " style='color:" ++ passedColor dr.passed ++ ";font-weight:700'" ∈
      cellAttributes := by
    cases dr.passed <;> decide
  unfold driftRowText driftCells
  rw [← verdict]
  have row := alike_tr.append (alike_escaped "" (by decide) dr.column ds.column)
  have row := row.append (alike_escaped "" (by decide) dr.stat ds.stat)
  have row := row.append (alike_td "" (by decide) (number dr.referenceValue)
    (number ds.referenceValue))
  have row := row.append (alike_td "" (by decide) (number dr.currentValue) (number ds.currentValue))
  have row := row.append (alike_td "" (by decide) (number dr.drift) (number ds.drift))
  have row := row.append (alike_td "" (by decide) (psi dr.psi) (psi ds.psi))
  have row := row.append (alike_td _ colored (icon dr.passed) (icon dr.passed))
  exact row.append alike_endTr

def profileCells (p : ColumnProfile F) : List (List Char) :=
  [(htmlEscape p.name).toList, (numberText format p.numeric.mean).toList,
    (numberText format p.numeric.std).toList, (numberText format p.numeric.p95).toList,
    (numberText format (some p.nullRate)).toList, (toString p.distinctCount).toList]

theorem alike_profileRow (p q : ColumnProfile F) :
    Alike (profileRow format p) (profileRow format q) (profileCells format p)
      (profileCells format q) := by
  have number : ∀ x, NoTag (numberText format x) :=
    fun x => noTag_of_plain (plain_numberText format x)
  have count : ∀ n : Nat, NoTag (toString n) := fun n => noTag_of_plain (plain_toString n)
  have row := alike_tr.append (alike_escaped "" (by decide) p.name q.name)
  have row := row.append (alike_td "" (by decide) (number p.numeric.mean) (number q.numeric.mean))
  have row := row.append (alike_td "" (by decide) (number p.numeric.std) (number q.numeric.std))
  have row := row.append (alike_td "" (by decide) (number p.numeric.p95) (number q.numeric.p95))
  have row := row.append (alike_td "" (by decide) (number (some p.nullRate))
    (number (some q.nullRate)))
  have row := row.append (alike_td "" (by decide) (count p.distinctCount) (count q.distinctCount))
  exact row.append alike_endTr

theorem alike_table {α : Type} {row : α → String} {cellsOf : α → List (List Char)}
    {items others : List α} {note header : String}
    (each : List.Forall₂ (fun a b => Alike (row a) (row b) (cellsOf a) (cellsOf b)) items others)
    (noted : Alike note note [] []) (headed : Alike header header [] []) :
    Alike
      (if items.isEmpty then note
        else header ++ items.foldl (fun rows a => rows ++ row a) "" ++ "</tbody></table>")
      (if others.isEmpty then note
        else header ++ others.foldl (fun rows a => rows ++ row a) "" ++ "</tbody></table>")
      (items.flatMap cellsOf) (others.flatMap cellsOf) := by
  have ended : Alike "</tbody></table>" "</tbody></table>" [] [] :=
    .literal (by decide)
  have none : Alike "" "" [] [] := .literal (by decide)
  have table := (headed.append (none.rows each)).append ended
  rw [List.append_nil, List.append_nil] at table
  cases each with
  | nil => exact noted
  | cons => exact table

set_option maxRecDepth 4000 in
omit [Float64 F] in
theorem alike_violHtml {violations others : List (Validators.Violation F)}
    (many : violations.length = others.length) :
    Alike (violHtml violations) (violHtml others) (violations.flatMap violationCells)
      (others.flatMap violationCells) := by
  apply alike_table
  · exact List.forall₂_iff_zip.mpr ⟨many, fun _ => alike_violationRow _ _⟩
  · exact .literal (by decide)
  · exact .beside (.literal (by decide)) (.literal (by decide))

theorem alike_profilesHtml {profiles others : List (ColumnProfile F)}
    (many : profiles.length = others.length) :
    Alike (profilesHtml format profiles) (profilesHtml format others)
      (profiles.flatMap (profileCells format)) (others.flatMap (profileCells format)) := by
  apply alike_table
  · exact List.forall₂_iff_zip.mpr ⟨many, fun _ => alike_profileRow format _ _⟩
  · exact .literal (by decide)
  · exact .beside (.beside (.literal (by decide)) (.literal (by decide)))
      (.literal (by decide))

def driftText (drift : List (DriftResult F)) : String :=
  if drift.isEmpty then
    "<p style='color:#6b7280'>No drift analysis (no reference dataset provided).</p>"
  else
    "<table><thead><tr><th>Column</th><th>Stat</th><th>Reference</th>" ++
      "<th>Current</th><th>Drift</th><th>PSI</th><th>Passed</th></tr></thead>" ++
      "<tbody>" ++ drift.foldl (fun rows dr => rows ++ driftRowText format dr) "" ++
      "</tbody></table>"

theorem driftHtml_ok_iff (drift : List (DriftResult F)) (text : String) :
    driftHtml format drift = .ok text ↔
      (∀ dr ∈ drift, Readable dr) ∧ text = driftText format drift := by
  simp only [driftHtml, Results.bind_ok_iff, driftRows_ok_iff]
  constructor
  · rintro ⟨_, ⟨readable, rfl⟩, same⟩
    exact ⟨readable, (Except.ok.inj same).symm⟩
  · rintro ⟨readable, rfl⟩
    exact ⟨_, ⟨readable, rfl⟩, rfl⟩

set_option maxRecDepth 4000 in
theorem alike_driftText {drift others : List (DriftResult F)}
    (verdicts : drift.map DriftResult.passed = others.map DriftResult.passed) :
    Alike (driftText format drift) (driftText format others)
      (drift.flatMap (driftCells format)) (others.flatMap (driftCells format)) := by
  have each : List.Forall₂ (fun dr ds => dr.passed = ds.passed) drift others := by
    rwa [← List.forall₂_eq_eq_eq, List.forall₂_map_left_iff, List.forall₂_map_right_iff] at verdicts
  apply alike_table
  · exact each.imp (fun _ _ same => alike_driftRowText format same)
  · exact .literal (by decide)
  · exact .beside (.beside (.literal (by decide)) (.literal (by decide)))
      (.literal (by decide))

section Page

set_option maxRecDepth 10000 in
theorem alike_pageHead (dataset datasetToo : String) (stamp other : RunStamp) :
    Alike (pageHead dataset stamp) (pageHead datasetToo other) [] [] := by
  have title : Alike (htmlEscape dataset) (htmlEscape datasetToo) [] [] :=
    .plainText (noTag_htmlEscape dataset) (noTag_htmlEscape datasetToo)
  have day : ∀ stamp : RunStamp, NoTag (prefixOf 10 stamp.executedAt) :=
    fun stamp => noTag_prefixOf (noTag_of_plain stamp.plain_executedAt) 10
  refine .beside (.beside (.beside (.beside ?_ title) ?_) (.plainText (day stamp) (day other))) ?_
  all_goals exact .literal (by decide)

omit [Float64 F] in
theorem alike_pageMeta (report another : Metrics.ValidationReport F) (stamp other : RunStamp) :
    Alike (pageMeta report stamp) (pageMeta another other) [] [] := by
  have title : Alike (htmlEscape report.dataset) (htmlEscape another.dataset) [] [] :=
    .plainText (noTag_htmlEscape report.dataset) (noTag_htmlEscape another.dataset)
  have time : ∀ stamp : RunStamp, NoTag (replace 'T' " " (prefixOf 19 stamp.executedAt)) :=
    fun stamp => noTag_replace (noTag_prefixOf (noTag_of_plain stamp.plain_executedAt) 19)
      (by decide) 'T'
  have count : ∀ n : Nat, NoTag (toString n) := fun n => noTag_of_plain (plain_toString n)
  have id : ∀ stamp : RunStamp, NoTag stamp.id := fun stamp => noTag_of_plain stamp.plain_id
  refine .beside (.beside (.beside (.beside (.beside (.beside (.beside (.beside (.beside (.beside ?_
    title) ?_) (.plainText (time stamp) (time other))) ?_)
    (.plainText (count stamp.durationMs) (count other.durationMs))) ?_)
    (.plainText (noTag_grouped report.rowCount) (noTag_grouped another.rowCount))) ?_)
    (.plainText (id stamp) (id other))) ?_
  all_goals exact .literal (by decide)

theorem alike_valueCard {label style content other : String} (labelled : NoTag label)
    (noEnd : NoEnd style) (inside : Alike content other [] []) :
    Alike (valueCard label style content) (valueCard label style other) [] [] := by
  unfold valueCard
  refine .beside (.beside (.beside (.beside ?_ (.plainText labelled labelled)) ?_) inside) ?_
  · exact .literal (by decide)
  · exact .opening (by rfl) noEnd (by rfl)
  · exact .literal (by decide)

theorem noTag_gradeOf (score : F) : NoTag (gradeOf score) := by
  unfold gradeOf
  split_ifs <;> decide

theorem noEnd_gradeColor (grade : String) :
    NoEnd (" style=\"color:" ++ gradeColor grade ++ "\"") := by
  unfold gradeColor
  split <;> decide

/-- Two reports whose pages show the same verdicts and tables of the same lengths. -/
structure SameShape (report other : Metrics.ValidationReport F) : Prop where
  passed : report.passed = other.passed
  grade : report.health.grade = other.health.grade
  violations : report.violations.length = other.violations.length
  drift : report.driftResults.map DriftResult.passed = other.driftResults.map DriftResult.passed
  profiles : report.columnProfiles.length = other.columnProfiles.length

variable {report other : Metrics.ValidationReport F}

set_option maxRecDepth 4000 in
omit [Float64 F] in
theorem alike_cards (same : SameShape report other) (noTag : NoTag report.health.grade)
    {score scoreToo : String} (plain : NoTag score) (plainToo : NoTag scoreToo) :
    Alike (cards report score) (cards other scoreToo) [] [] := by
  have count : ∀ n : Nat, NoTag (toString n) := fun n => noTag_of_plain (plain_toString n)
  have badged : Alike (badge report.passed) (badge report.passed) [] [] := by
    cases report.passed
    · exact .literal (by decide)
    · exact .literal (by decide)
  have failed : ∀ m n : Nat, NoTag (toString m ++ "/" ++ toString n ++ " failed") :=
    fun m n => noTag_append (noTag_append (noTag_append (count m) (by decide)) (count n)) (by decide)
  unfold cards
  dsimp only
  rw [← same.passed, ← same.grade]
  refine .beside (.beside (.beside (.beside (.beside (.beside ?_
    (alike_valueCard (by decide) (by decide) badged))
    (alike_valueCard (by decide) (noEnd_gradeColor _) (.plainText plain plainToo)))
    (alike_valueCard (by decide) (noEnd_gradeColor _) (.plainText noTag noTag)))
    (alike_valueCard (by decide) (by decide) (.plainText (count _) (count _))))
    (alike_valueCard (by decide) (by decide) (.plainText (failed _ _) (failed _ _)))) ?_
  · exact .literal (by decide)
  · exact .literal (by decide)

theorem alike_section (title : String) (titled : NoTag title) (m n : Nat)
    {content contentToo : String} {cells cellsToo : List (List Char)}
    (inside : Alike content contentToo cells cellsToo) :
    Alike (section_ title m content) (section_ title n contentToo) cells cellsToo := by
  have count : ∀ n : Nat, NoTag (toString n) := fun n => noTag_of_plain (plain_toString n)
  have head : Alike ("<h2>" ++ title ++ " (" ++ toString m ++ ")</h2>\n")
      ("<h2>" ++ title ++ " (" ++ toString n ++ ")</h2>\n") [] [] := by
    refine .beside (.beside (.beside (.beside ?_ (.plainText titled titled)) ?_)
      (.plainText (count m) (count n))) ?_
    all_goals exact .literal (by decide)
  have whole := (head.beside inside).append
    (.literal (by decide) : Alike "\n\n" "\n\n" [] [])
  rw [List.append_nil, List.append_nil] at whole
  exact whole

set_option maxRecDepth 4000 in
theorem alike_pageFoot : Alike pageFoot pageFoot [] [] := by
  unfold pageFoot
  exact .literal (by decide)

def pageText (report : Metrics.ValidationReport F) (stamp : RunStamp) : String :=
  pageHead report.dataset stamp ++ pageMeta report stamp ++
    cards report (format.percent report.health.score) ++
    section_ "Violations" report.violations.length (violHtml report.violations) ++
    section_ "Drift results" report.driftResults.length (driftText format report.driftResults) ++
    section_ "Column profiles" report.columnProfiles.length
      (profilesHtml format report.columnProfiles) ++
    pageFoot

theorem toHtml_ok_iff (report : Metrics.ValidationReport F) (stamp : RunStamp) (page : String) :
    toHtml format report stamp = .ok page ↔
      ((∀ dr ∈ report.driftResults, Readable dr) ∧ isFinite report.health.score = true) ∧
        page = pageText format report stamp := by
  simp only [toHtml, Results.bind_ok_iff, driftHtml_ok_iff, formatted_ok_iff]
  constructor
  · rintro ⟨_, ⟨readable, rfl⟩, _, ⟨finite, rfl⟩, same⟩
    exact ⟨⟨readable, finite⟩, (Except.ok.inj same).symm⟩
  · rintro ⟨⟨readable, finite⟩, rfl⟩
    exact ⟨_, ⟨readable, rfl⟩, _, ⟨finite, rfl⟩, rfl⟩

def pageCells (report : Metrics.ValidationReport F) : List (List Char) :=
  report.violations.flatMap violationCells ++ report.driftResults.flatMap (driftCells format) ++
    report.columnProfiles.flatMap (profileCells format)

theorem alike_page (same : SameShape report other) (noTag : NoTag report.health.grade)
    (stamp stampToo : RunStamp) :
    Alike (pageText format report stamp) (pageText format other stampToo)
      (pageCells format report) (pageCells format other) := by
  have score : ∀ x, NoTag (format.percent x) := fun x => noTag_of_plain (format.plain_percent x)
  have page := (alike_pageHead report.dataset other.dataset stamp stampToo).beside
    (alike_pageMeta report other stamp stampToo)
  have page := page.beside (alike_cards same noTag (score report.health.score)
    (score other.health.score))
  have page := page.append (alike_section "Violations" (by decide)
    report.violations.length other.violations.length (alike_violHtml same.violations))
  have page := page.append (alike_section "Drift results" (by decide)
    report.driftResults.length other.driftResults.length (alike_driftText format same.drift))
  have page := page.append (alike_section "Column profiles" (by decide)
    report.columnProfiles.length other.columnProfiles.length (alike_profilesHtml format same.profiles))
  have page := page.append alike_pageFoot
  rw [List.append_nil, List.append_nil] at page
  exact page

def tableTexts (report : Metrics.ValidationReport F) : List String :=
  report.violations.flatMap (fun v =>
      [v.column, v.check, severityName v.severity, v.message]) ++
    report.driftResults.flatMap (fun dr =>
      [dr.column, dr.stat, format.fixed4 dr.referenceValue, format.fixed4 dr.currentValue,
        format.fixed4 dr.drift, psiText format dr.psi, passedIcon dr.passed]) ++
    report.columnProfiles.flatMap (fun p =>
      [p.name, numberText format p.numeric.mean, numberText format p.numeric.std,
        numberText format p.numeric.p95, numberText format (some p.nullRate),
        toString p.distinctCount])

theorem unescape_htmlEscape (text : String) :
    String.ofList (unescape (htmlEscape text).toList) = text := by
  rw [htmlEscape_toList, unescape_escape, String.ofList_toList]

theorem unescape_of_plain {text : String} (plain : Plain text) :
    String.ofList (unescape text.toList) = text := by
  rw [unescape_plain plain, String.ofList_toList]

theorem unescape_pageCells (report : Metrics.ValidationReport F) :
    (pageCells format report).map (fun cell => String.ofList (unescape cell)) =
      tableTexts format report := by
  have number : ∀ x, String.ofList (unescape (format.fixed4 x).toList) = format.fixed4 x :=
    fun x => unescape_of_plain (format.plain_fixed4 x)
  have icon : ∀ passed, String.ofList (unescape (passedIcon passed).toList) = passedIcon passed :=
    fun passed => unescape_of_plain (by cases passed <;> decide)
  simp only [pageCells, tableTexts, List.map_append, List.map_flatMap, violationCells, driftCells,
    profileCells, List.map_cons, List.map_nil, unescape_htmlEscape, number, icon,
    unescape_of_plain (plain_psiText format _), unescape_of_plain (plain_numberText format _),
    unescape_of_plain (plain_toString _)]

variable {dataset : String} {rowCount totalChecks : Nat}
  {violations : List (Validators.Violation F)}
  {drift : List (DriftResult F)} {profiles : List (ColumnProfile F)} {stamp : RunStamp}

theorem noTag_grade :
    NoTag (.new dataset rowCount violations drift profiles totalChecks :
      Metrics.ValidationReport F).health.grade := noTag_gradeOf _

omit [Float64 F] in
theorem SameShape.refl (report : Metrics.ValidationReport F) : SameShape report report :=
  ⟨rfl, rfl, rfl, rfl, rfl⟩

/-- Whatever the texts of a report are, a reader of its page finds them unchanged in the cells of
    the tables, and no cell more. -/
theorem page_cells {page : String}
    (written : toHtml format (.new dataset rowCount violations drift profiles totalChecks) stamp =
      .ok page) :
    (read page).tag = none ∧ (read page).cells.map (fun cell => String.ofList (unescape cell)) =
      tableTexts format (.new dataset rowCount violations drift profiles totalChecks) := by
  obtain ⟨-, rfl⟩ := (toHtml_ok_iff ..).mp written
  obtain ⟨tags, reads, -⟩ := alike_page format (.refl _) noTag_grade stamp stamp
  rw [reads]
  exact ⟨rfl, unescape_pageCells format _⟩

/-- No text of a report adds a tag to its page or changes one. -/
theorem page_tags {datasetToo : String} {rowCountToo totalChecksToo : Nat}
    {violationsToo : List (Validators.Violation F)} {driftToo : List (DriftResult F)}
    {profilesToo : List (ColumnProfile F)} {stampToo : RunStamp} {page pageToo : String}
    (same : SameShape
      (.new dataset rowCount violations drift profiles totalChecks)
      (.new datasetToo rowCountToo violationsToo driftToo profilesToo totalChecksToo))
    (written : toHtml format (.new dataset rowCount violations drift profiles totalChecks) stamp =
      .ok page)
    (writtenToo : toHtml format (.new datasetToo rowCountToo violationsToo driftToo profilesToo
      totalChecksToo) stampToo = .ok pageToo) :
    (read pageToo).tags = (read page).tags := by
  obtain ⟨-, rfl⟩ := (toHtml_ok_iff ..).mp written
  obtain ⟨-, rfl⟩ := (toHtml_ok_iff ..).mp writtenToo
  obtain ⟨tags, reads, readsToo⟩ := alike_page format same noTag_grade stamp stampToo
  rw [reads, readsToo]

/-- There is no page of a report with a number that is not finite, other than a share of a column
    or a PSI. -/
theorem toHtml_returns_iff (report : Metrics.ValidationReport F) :
    (∃ page, toHtml format report stamp = .ok page) ↔
      (∀ dr ∈ report.driftResults, Readable dr) ∧ isFinite report.health.score = true := by
  simp only [toHtml_ok_iff]
  exact ⟨fun ⟨_, fine, _⟩ => fine, fun fine => ⟨_, fine, rfl⟩⟩

end Page

section Sample

def sampleFormat : FloatFormat ExtRat where
  fixed4 x := if x = Float64.zero then "0.0000" else "1.0000"
  percent x := if x = Float64.zero then "0%" else "100%"
  str x := if x = Float64.zero then "0.0" else "1.0"
  plain_fixed4 x := by split <;> decide
  plain_percent x := by split <;> decide
  plain_str x := by split <;> decide

def sampleStamp : RunStamp where
  id := "7c9e6679-7425-40de-944b-e07fc1f90ae7"
  executedAt := "2026-01-15T09:30:00.123456789Z"
  durationMs := 12
  plain_id := by decide
  plain_executedAt := by decide

def markupReport : Metrics.ValidationReport ExtRat :=
  .new "</title>" 1234567 [.new "<td>" "not_null" "1 < 2 & \"more\"" .info] [] [] 1

def plainReport : Metrics.ValidationReport ExtRat :=
  .new "orders" 5 [.new "id" "not_null" "id is null" .info] [] [] 1

theorem sample_scores : isFinite markupReport.health.score = true ∧
    isFinite plainReport.health.score = true ∧
      plainReport.health.grade = markupReport.health.grade := by
  decide +kernel

theorem markup_written : ∃ page, toHtml sampleFormat markupReport sampleStamp = .ok page :=
  ⟨_, (toHtml_ok_iff ..).mpr ⟨⟨List.forall_mem_nil _, sample_scores.1⟩, rfl⟩⟩

theorem plain_written : ∃ page, toHtml sampleFormat plainReport sampleStamp = .ok page :=
  ⟨_, (toHtml_ok_iff ..).mpr ⟨⟨List.forall_mem_nil _, sample_scores.2.1⟩, rfl⟩⟩

theorem page_cells_markup : ∃ page,
    toHtml sampleFormat markupReport sampleStamp = .ok page ∧
      (read page).cells.map (fun cell => String.ofList (unescape cell)) =
        ["<td>", "not_null", "info", "1 < 2 & \"more\""] := by
  obtain ⟨page, written⟩ := markup_written
  exact ⟨page, written, (page_cells sampleFormat written).2⟩

theorem page_tags_markup : ∃ page pageToo,
    toHtml sampleFormat markupReport sampleStamp = .ok page ∧
      toHtml sampleFormat plainReport sampleStamp = .ok pageToo ∧
      (read page).tags = (read pageToo).tags := by
  obtain ⟨page, written⟩ := markup_written
  obtain ⟨pageToo, writtenToo⟩ := plain_written
  have same : SameShape plainReport markupReport :=
    ⟨rfl, sample_scores.2.2, rfl, rfl, rfl⟩
  exact ⟨page, pageToo, written, writtenToo, page_tags sampleFormat same writtenToo written⟩

end Sample

end StatGuardian.Py.Html
