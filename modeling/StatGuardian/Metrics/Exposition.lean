import StatGuardian.Library.LineText
import StatGuardian.Metrics.Prometheus

namespace StatGuardian.Metrics

open StatGuardian.Core Stats

variable {F : Type} [Float64 F] (env : Env F)

namespace Sample

theorem labelText_dataset (dataset : String) :
    labelText [("dataset", dataset)] = datasetLabel dataset := rfl

theorem labelText_column (dataset column : String) :
    labelText [("dataset", dataset), ("column", column)] = columnLabels dataset column := by
  have glue : "\",column=\"" = "\"" ++ ("," ++ ("column" ++ "=\"")) := by decide
  change ("dataset" ++ "=\"" ++ dataset ++ "\"") ++ "," ++ ("column" ++ "=\"" ++ column ++ "\"") =
    "dataset=\"" ++ dataset ++ "\",column=\"" ++ column ++ "\""
  rw [glue]
  simp only [String.append_assoc]
  rfl

theorem labelText_stat (dataset column stat : String) :
    labelText [("dataset", dataset), ("column", column), ("stat", stat)] =
      columnLabels dataset column ++ (",stat=\"" ++ stat ++ "\"") := by
  have glue : ",stat=\"" = "," ++ ("stat" ++ "=\"") := by decide
  rw [← labelText_column]
  change _ = labelText [("dataset", dataset), ("column", column)] ++ (",stat=\"" ++ stat ++ "\"")
  rw [glue]
  change ("dataset" ++ "=\"" ++ dataset ++ "\"") ++ "," ++
      ("column" ++ "=\"" ++ column ++ "\"") ++ "," ++ ("stat" ++ "=\"" ++ stat ++ "\"") =
    (("dataset" ++ "=\"" ++ dataset ++ "\"") ++ "," ++ ("column" ++ "=\"" ++ column ++ "\"")) ++
      (("," ++ ("stat" ++ "=\"")) ++ stat ++ "\"")
  simp only [String.append_assoc]

theorem toList_head (s : Sample) :
    s.head.toList = s.metric.toList ++ '\x7b' :: ((labelText s.labels).toList ++ ['\x7d']) := by
  change (s.metric ++ "\x7b" ++ labelText s.labels ++ "\x7d").toList = _
  simp only [String.toList_append, List.append_assoc]
  rfl

theorem toList_line (s : Sample) : s.line.toList = s.head.toList ++ ' ' :: s.value.toList := by
  change (s.head ++ " " ++ s.value).toList = _
  simp only [String.toList_append, List.append_assoc]
  rfl

theorem line_eq (s : Sample) :
    s.line = s.metric ++ "\x7b" ++ labelText s.labels ++ "\x7d " ++ s.value := by
  have glue : "\x7d " = "\x7d" ++ " " := by decide
  change (s.metric ++ "\x7b" ++ labelText s.labels ++ "\x7d") ++ " " ++ s.value = _
  rw [glue]
  simp only [String.append_assoc]

end Sample

def render (lines : List String) : String := String.join (lines.map (· ++ "\n"))

theorem render_append (lines more : List String) :
    render (lines ++ more) = render lines ++ render more := by
  induction lines with
  | nil => exact (String.empty_append).symm
  | cons line rest ih =>
    simp only [render, List.cons_append, List.map_cons, String.join_cons] at ih ⊢
    rw [ih, ← String.append_assoc]

theorem render_cons (line : String) (rest : List String) :
    render (line :: rest) = (line ++ "\n") ++ render rest := String.join_cons

theorem toList_render (lines : List String) :
    (render lines).toList = LineText.ended '\n' (lines.map String.toList) := by
  rw [render, String.toList_join, List.flatMap_map, LineText.ended, List.flatMap_map]
  simp only [String.toList_append]
  rfl

def blockLines (about : String × String) (s : Sample) : List String :=
  [s!"# HELP {s.metric} {about.1}", s!"# TYPE {s.metric} {about.2}", s.line]

def headAbout : List (String × String) :=
  [("Dataset health score (0–1)", "gauge"), ("Total violations", "counter"),
    ("Rows processed", "gauge"), ("Execution time in milliseconds", "gauge")]

def headLines (report : ValidationReport F) (durationMs : Nat) : List String :=
  (headAbout.zip (headSamples env report durationMs)).flatMap (fun pair => blockLines pair.1 pair.2)

def reportLines (report : ValidationReport F) (durationMs : Nat) : List String :=
  headLines env report durationMs ++
    (report.driftResults.flatMap (driftSamples env report.dataset)).map Sample.line

theorem metricBlock_eq (metric help kind dataset value : String) :
    metricBlock metric help kind (datasetLabel dataset) value =
      render (blockLines (help, kind) ⟨metric, [("dataset", dataset)], value⟩) := by
  rw [blockLines, render_cons, render_cons, render_cons, Sample.line_eq, Sample.labelText_dataset]
  change _ = _ ++ (_ ++ (_ ++ ""))
  rw [String.append_empty, ← String.append_assoc]
  rfl

theorem driftSample_line (dataset : String) (drift : DriftResult F) :
    driftLine (columnLabels dataset drift.column) drift.stat (env.fixed 6 drift.drift) =
      (driftSample env dataset drift).line ++ "\n" := by
  have opening : "statguard_drift\x7b" = "statguard_drift" ++ "\x7b" := by decide
  have closing : "\"\x7d " = "\"" ++ "\x7d " := by decide
  rw [Sample.line_eq, driftSample, Sample.labelText_stat]
  generalize columnLabels dataset drift.column = dlabels
  change "statguard_drift\x7b" ++ dlabels ++ ",stat=\"" ++ drift.stat ++ "\"\x7d " ++
      env.fixed 6 drift.drift ++ "\n" =
    "statguard_drift" ++ "\x7b" ++ (dlabels ++ (",stat=\"" ++ drift.stat ++ "\"")) ++ "\x7d " ++
      env.fixed 6 drift.drift ++ "\n"
  rw [opening, closing]
  simp only [String.append_assoc]

theorem psiSample_line (dataset : String) (drift : DriftResult F) (psi : F) :
    psiLine (columnLabels dataset drift.column) (env.fixed 6 psi) =
      (psiSample env dataset drift psi).line ++ "\n" := by
  have opening : "statguard_psi\x7b" = "statguard_psi" ++ "\x7b" := by decide
  rw [Sample.line_eq, psiSample, Sample.labelText_column]
  generalize columnLabels dataset drift.column = dlabels
  change "statguard_psi\x7b" ++ dlabels ++ "\x7d " ++ env.fixed 6 psi ++ "\n" =
    "statguard_psi" ++ "\x7b" ++ dlabels ++ "\x7d " ++ env.fixed 6 psi ++ "\n"
  rw [opening]

theorem driftText_eq (dataset : String) (drift : DriftResult F) :
    driftText env dataset drift = render ((driftSamples env dataset drift).map Sample.line) := by
  have ends : render [] = "" := rfl
  simp only [driftText, driftSamples]
  rw [driftSample_line, List.map_cons, render_cons]
  cases drift.psi with
  | none => rfl
  | some psi =>
    simp only [Option.map_some, Option.getD_some, Option.toList_some, List.map_cons, List.map_nil]
    rw [psiSample_line, render_cons, ends, String.append_empty]

theorem driftTexts_eq (dataset : String) (results : List (DriftResult F)) :
    String.join (results.map (driftText env dataset)) =
      render ((results.flatMap (driftSamples env dataset)).map Sample.line) := by
  induction results with
  | nil => rfl
  | cons drift rest ih =>
    rw [List.map_cons, String.join_cons, List.flatMap_cons, List.map_append, render_append, ih,
      driftText_eq]

theorem headLines_eq (report : ValidationReport F) (durationMs : Nat) :
    headLines env report durationMs =
      blockLines ("Dataset health score (0–1)", "gauge")
          ⟨"statguard_health_score", [("dataset", report.dataset)],
            env.fixed 4 report.health.score⟩ ++
        (blockLines ("Total violations", "counter")
            ⟨"statguard_violations_total", [("dataset", report.dataset)],
              toString report.violations.length⟩ ++
          (blockLines ("Rows processed", "gauge")
              ⟨"statguard_row_count", [("dataset", report.dataset)], toString report.rowCount⟩ ++
            blockLines ("Execution time in milliseconds", "gauge")
              ⟨"statguard_execution_ms", [("dataset", report.dataset)], toString durationMs⟩)) := rfl

theorem toPrometheus_eq (report : ValidationReport F) (durationMs : Nat) :
    report.toPrometheus env durationMs = render (reportLines env report durationMs) := by
  unfold ValidationReport.toPrometheus
  rw [reportLines, headLines_eq, render_append, render_append, render_append, render_append,
    driftTexts_eq]
  simp only [metricBlock_eq, String.append_assoc]

/-- A line that is neither empty nor a comment. -/
def isSample (line : List Char) : Bool := line.head?.any (· != '#')

def textSeries (text : String) : List (List Char) :=
  ((LineText.split '\n' text.toList).filter isSample).map (LineText.beforeLast ' ')

theorem samples_metric (report : ValidationReport F) (durationMs : Nat) (s : Sample)
    (member : s ∈ report.samples env durationMs) :
    s.metric ∈ ["statguard_health_score", "statguard_violations_total", "statguard_row_count",
      "statguard_execution_ms", "statguard_drift", "statguard_psi"] := by
  rcases List.mem_append.mp member with head | drift
  · have metric := (headSamples_metric env report durationMs s head).2
    exact List.mem_append_left ["statguard_drift", "statguard_psi"] metric
  · obtain ⟨drift, _, inside⟩ := List.mem_flatMap.mp drift
    have metric := driftSamples_metric env report.dataset drift s inside
    exact List.mem_append_right ["statguard_health_score", "statguard_violations_total",
      "statguard_row_count", "statguard_execution_ms"] metric

theorem metric_plain (metric : String)
    (member : metric ∈ ["statguard_health_score", "statguard_violations_total",
      "statguard_row_count", "statguard_execution_ms", "statguard_drift", "statguard_psi"]) :
    metric.toList.head? = some 's' ∧ '\x7b' ∉ metric.toList ∧ '\n' ∉ metric.toList := by
  simp only [List.mem_cons, List.not_mem_nil, or_false] at member
  rcases member with rfl | rfl | rfl | rfl | rfl | rfl <;> decide

theorem isSample_line (s : Sample) (letter : s.metric.toList.head? = some 's') :
    isSample s.line.toList = true := by
  obtain ⟨rest, split⟩ : ∃ rest, s.metric.toList = 's' :: rest := by
    obtain ⟨rest, split⟩ := List.head?_eq_some_iff.mp letter
    exact ⟨rest, split⟩
  rw [isSample, Sample.toList_line, Sample.toList_head, split]
  rfl

theorem isSample_comment (mark rest : String) (hash : mark.toList.head? = some '#') :
    isSample (mark ++ rest).toList = false := by
  obtain ⟨tail, split⟩ := List.head?_eq_some_iff.mp hash
  rw [isSample, String.toList_append, split]
  rfl

theorem filter_blockLines (about : String × String) (s : Sample)
    (letter : s.metric.toList.head? = some 's') :
    ((blockLines about s).map String.toList).filter isSample = [s.line.toList] := by
  have help : isSample (s!"# HELP {s.metric} {about.1}").toList = false := by
    change isSample ("# HELP " ++ s.metric ++ " " ++ about.1).toList = false
    simp only [String.append_assoc]
    exact isSample_comment _ _ rfl
  have kind : isSample (s!"# TYPE {s.metric} {about.2}").toList = false := by
    change isSample ("# TYPE " ++ s.metric ++ " " ++ about.2).toList = false
    simp only [String.append_assoc]
    exact isSample_comment _ _ rfl
  rw [blockLines, List.map_cons, List.map_cons, List.map_cons, List.map_nil,
    List.filter_cons_of_neg (by rw [help]; decide), List.filter_cons_of_neg (by rw [kind]; decide),
    List.filter_cons_of_pos (isSample_line s letter), List.filter_nil]

theorem filter_reportLines (report : ValidationReport F) (durationMs : Nat) :
    ((reportLines env report durationMs).map String.toList).filter isSample =
      (report.samples env durationMs).map (fun s => s.line.toList) := by
  have letters := fun s member =>
    (metric_plain _ (samples_metric env report durationMs s member)).1
  have drifts : (((report.driftResults.flatMap (driftSamples env report.dataset)).map
      Sample.line).map String.toList).filter isSample =
        (report.driftResults.flatMap (driftSamples env report.dataset)).map
          (fun s => s.line.toList) := by
    rw [List.map_map]
    apply List.filter_eq_self.mpr
    intro line member
    obtain ⟨s, inside, rfl⟩ := List.mem_map.mp member
    exact isSample_line s (letters s (List.mem_append_right _ inside))
  rw [reportLines, headLines_eq]
  simp only [List.map_append, List.filter_append, drifts]
  have block : ∀ (about : String × String) (metric value : String),
      metric.toList.head? = some 's' →
      ((blockLines about ⟨metric, [("dataset", report.dataset)], value⟩).map
        String.toList).filter isSample =
        [(⟨metric, [("dataset", report.dataset)], value⟩ : Sample).line.toList] :=
    fun about metric value letter => filter_blockLines about ⟨metric, _, value⟩ letter
  rw [block _ "statguard_health_score" _ (by decide),
    block _ "statguard_violations_total" _ (by decide),
    block _ "statguard_row_count" _ (by decide), block _ "statguard_execution_ms" _ (by decide)]
  rfl

/-- The parts of a report that its text takes over as they are. -/
structure Plain (report : ValidationReport F) : Prop where
  numbers : ∀ n x, ' ' ∉ (env.fixed n x).toList ∧ '\n' ∉ (env.fixed n x).toList
  dataset : '\n' ∉ report.dataset.toList
  columns : ∀ drift ∈ report.driftResults, '\n' ∉ drift.column.toList
  stats : ∀ drift ∈ report.driftResults, ∃ stat : StatFn, drift.stat = stat.display

theorem toString_plain (n : Nat) : ' ' ∉ (toString n).toList ∧ '\n' ∉ (toString n).toList := by
  have digits : ∀ c ∈ (toString n).toList, c.isDigit = true := by
    intro c member
    rw [Nat.toString_eq_repr, Nat.toList_repr] at member
    exact Nat.isDigit_of_mem_toDigits (by decide) (by decide) member
  constructor
  · intro member
    exact absurd (digits ' ' member) (by decide)
  · intro member
    exact absurd (digits '\n' member) (by decide)

theorem display_plain (stat : StatFn) :
    '"' ∉ stat.display.toList ∧ '\n' ∉ stat.display.toList := by
  cases stat <;> decide

theorem columnLabels_plain (dataset column : String) (first : '\n' ∉ dataset.toList)
    (second : '\n' ∉ column.toList) : '\n' ∉ (columnLabels dataset column).toList := by
  change '\n' ∉ ("dataset=\"" ++ dataset ++ "\",column=\"" ++ column ++ "\"").toList
  simp only [String.toList_append, List.mem_append, not_or]
  exact ⟨⟨⟨⟨by decide, first⟩, by decide⟩, second⟩, by decide⟩

section PlainText

variable {env} {report : ValidationReport F} (plain : Plain env report) (durationMs : Nat)

include plain

theorem sample_labels_plain (s : Sample) (member : s ∈ report.samples env durationMs) :
    '\n' ∉ (Sample.labelText s.labels).toList := by
  rcases List.mem_append.mp member with head | later
  · rw [(headSamples_metric env report durationMs s head).1, Sample.labelText_dataset]
    change '\n' ∉ ("dataset=\"" ++ report.dataset ++ "\"").toList
    simp only [String.toList_append, List.mem_append, not_or]
    exact ⟨⟨by decide, plain.dataset⟩, by decide⟩
  · obtain ⟨drift, reported, inside⟩ := List.mem_flatMap.mp later
    have labels := columnLabels_plain _ _ plain.dataset (plain.columns drift reported)
    rcases (mem_driftSamples env report.dataset drift s).mp inside with rfl | ⟨psi, _, rfl⟩
    · obtain ⟨stat, named⟩ := plain.stats drift reported
      rw [driftSample, Sample.labelText_stat, named]
      simp only [String.toList_append, List.mem_append, not_or]
      exact ⟨labels, ⟨by decide, (display_plain stat).2⟩, by decide⟩
    · rwa [psiSample, Sample.labelText_column]

theorem sample_value_plain (s : Sample) (member : s ∈ report.samples env durationMs) :
    ' ' ∉ s.value.toList ∧ '\n' ∉ s.value.toList := by
  rcases List.mem_append.mp member with head | drift
  · simp only [headSamples, List.mem_cons, List.not_mem_nil, or_false] at head
    rcases head with rfl | rfl | rfl | rfl
    · exact plain.numbers _ _
    · exact toString_plain _
    · exact toString_plain _
    · exact toString_plain _
  · obtain ⟨drift, _, inside⟩ := List.mem_flatMap.mp drift
    rcases (mem_driftSamples env report.dataset drift s).mp inside with rfl | ⟨psi, _, rfl⟩
    · exact plain.numbers _ _
    · exact plain.numbers _ _

theorem sample_line_plain (s : Sample) (member : s ∈ report.samples env durationMs) :
    '\n' ∉ s.line.toList := by
  have metric := (metric_plain _ (samples_metric env report durationMs s member)).2.2
  have labels := sample_labels_plain plain durationMs s member
  have value := (sample_value_plain plain durationMs s member).2
  rw [Sample.line_eq]
  simp only [String.toList_append, List.mem_append, not_or]
  exact ⟨⟨⟨⟨metric, by decide⟩, labels⟩, by decide⟩, value⟩

theorem blockLines_plain (about : String × String) (listed : about ∈ headAbout) (s : Sample)
    (member : s ∈ report.samples env durationMs) :
    ∀ line ∈ blockLines about s, '\n' ∉ line.toList := by
  have metric := (metric_plain _ (samples_metric env report durationMs s member)).2.2
  have texts : '\n' ∉ about.1.toList ∧ '\n' ∉ about.2.toList := by
    simp only [headAbout, List.mem_cons, List.not_mem_nil, or_false] at listed
    rcases listed with rfl | rfl | rfl | rfl <;> decide
  intro line inside
  simp only [blockLines, List.mem_cons, List.not_mem_nil, or_false] at inside
  rcases inside with rfl | rfl | rfl
  · change '\n' ∉ ("# HELP " ++ s.metric ++ " " ++ about.1).toList
    simp only [String.toList_append, List.mem_append, not_or]
    exact ⟨⟨⟨by decide, metric⟩, by decide⟩, texts.1⟩
  · change '\n' ∉ ("# TYPE " ++ s.metric ++ " " ++ about.2).toList
    simp only [String.toList_append, List.mem_append, not_or]
    exact ⟨⟨⟨by decide, metric⟩, by decide⟩, texts.2⟩
  · exact sample_line_plain plain durationMs s member

theorem reportLines_plain :
    ∀ line ∈ (reportLines env report durationMs).map String.toList, '\n' ∉ line := by
  intro chars listed
  obtain ⟨line, member, rfl⟩ := List.mem_map.mp listed
  rcases List.mem_append.mp member with head | drift
  · obtain ⟨⟨about, s⟩, zipped, inside⟩ := List.mem_flatMap.mp head
    obtain ⟨listed, sampled⟩ := List.of_mem_zip zipped
    exact blockLines_plain plain durationMs about listed s (List.mem_append_left _ sampled) line
      inside
  · obtain ⟨s, inside, rfl⟩ := List.mem_map.mp drift
    exact sample_line_plain plain durationMs s (List.mem_append_right _ inside)

/-- What the sample lines of the text have before their values is what the samples have. -/
theorem textSeries_toPrometheus :
    textSeries (report.toPrometheus env durationMs) =
      (report.samples env durationMs).map (fun s => s.head.toList) := by
  rw [textSeries, toPrometheus_eq, toList_render,
    LineText.split_ended _ _ (reportLines_plain plain durationMs), List.filter_append,
    filter_reportLines, List.map_append, List.map_map]
  change _ ++ [] = _
  rw [List.append_nil]
  apply List.map_congr_left
  intro s member
  rw [Function.comp_apply, Sample.toList_line]
  exact LineText.beforeLast_append_cons _ _ _ (sample_value_plain plain durationMs s member).1

theorem sample_kinds (s : Sample) (member : s ∈ report.samples env durationMs) :
    (s.metric ∉ ["statguard_drift", "statguard_psi"] ∧ s.labels = [("dataset", report.dataset)]) ∨
      (∃ column stat, s.metric = "statguard_drift" ∧
        s.labels = [("dataset", report.dataset), ("column", column), ("stat", StatFn.display stat)]) ∨
      ∃ column, s.metric = "statguard_psi" ∧
        s.labels = [("dataset", report.dataset), ("column", column)] := by
  rcases List.mem_append.mp member with head | later
  · obtain ⟨labels, metric⟩ := headSamples_metric env report durationMs s head
    refine .inl ⟨?_, labels⟩
    intro other
    simp only [List.mem_cons, List.not_mem_nil, or_false] at other
    rcases other with same | same <;> exact absurd (same ▸ metric) (by decide)
  · obtain ⟨drift, reported, inside⟩ := List.mem_flatMap.mp later
    obtain ⟨stat, named⟩ := plain.stats drift reported
    rcases (mem_driftSamples env report.dataset drift s).mp inside with rfl | ⟨psi, _, rfl⟩
    · exact .inr (.inl ⟨drift.column, stat, rfl, by rw [driftSample, named]⟩)
    · exact .inr (.inr ⟨drift.column, rfl, rfl⟩)

end PlainText

theorem columnLabels_inj (dataset column column' : String)
    (same : columnLabels dataset column = columnLabels dataset column') : column = column' := by
  have chars := congrArg String.toList same
  change ("dataset=\"" ++ dataset ++ "\",column=\"" ++ column ++ "\"").toList =
    ("dataset=\"" ++ dataset ++ "\",column=\"" ++ column' ++ "\"").toList at chars
  simp only [String.toList_append, List.append_assoc, List.append_cancel_left_eq] at chars
  exact String.toList_injective (List.append_cancel_right chars)

theorem statLabels_inj (dataset column column' : String) (stat stat' : StatFn)
    (same : columnLabels dataset column ++ (",stat=\"" ++ stat.display ++ "\"") =
      columnLabels dataset column' ++ (",stat=\"" ++ stat'.display ++ "\"")) :
    column = column' ∧ stat.display = stat'.display := by
  have chars := congrArg String.toList same
  have opening : ",stat=\"".toList = ",stat=".toList ++ ['"'] := by decide
  simp only [String.toList_append, opening, ← List.append_assoc] at chars
  have open_ := List.append_cancel_right chars
  simp only [List.append_assoc, List.singleton_append] at open_
  rw [← List.append_assoc, ← List.append_assoc] at open_
  obtain ⟨before, after⟩ := LineText.append_cons_inj_last '"' (display_plain stat).1
    (display_plain stat').1 open_
  refine ⟨?_, String.toList_injective after⟩
  have labels := List.append_cancel_right before
  exact columnLabels_inj dataset column column' (String.toList_injective labels)

section PlainText

variable {env} {report : ValidationReport F} (plain : Plain env report) (durationMs : Nat)

include plain

theorem series_of_head (s t : Sample) (left : s ∈ report.samples env durationMs)
    (right : t ∈ report.samples env durationMs) (same : s.head.toList = t.head.toList) :
    s.series = t.series := by
  rw [Sample.toList_head, Sample.toList_head] at same
  have brace := (metric_plain _ (samples_metric env report durationMs s left)).2.1
  have brace' := (metric_plain _ (samples_metric env report durationMs t right)).2.1
  have metric : s.metric = t.metric := by
    have cut := congrArg (List.takeWhile (· != '\x7b')) same
    rw [LineText.takeWhile_append_cons _ _ _ brace, LineText.takeWhile_append_cons _ _ _ brace']
      at cut
    exact String.toList_injective cut
  have labels : Sample.labelText s.labels = Sample.labelText t.labels := by
    rw [metric] at same
    have rest := (List.cons.inj (List.append_cancel_left same)).2
    exact String.toList_injective (List.append_cancel_right rest)
  have kinds := sample_kinds plain durationMs t right
  rw [← metric] at kinds
  rw [Sample.series, Sample.series, metric, Prod.mk.injEq]
  refine ⟨rfl, ?_⟩
  rcases sample_kinds plain durationMs s left with ⟨other, held⟩ | ⟨column, stat, named, held⟩ |
      ⟨column, named, held⟩
  · rcases kinds with ⟨_, held'⟩ | ⟨_, _, named', _⟩ | ⟨_, named', _⟩
    · rw [held, held']
    · exact absurd (named' ▸ List.mem_cons_self ..) other
    · exact absurd (named' ▸ List.mem_cons_of_mem _ (List.mem_singleton_self _)) other
  · rw [named] at kinds
    rcases kinds with ⟨other, _⟩ | ⟨column', stat', _, held'⟩ | ⟨_, named', _⟩
    · exact absurd (List.mem_cons_self ..) other
    · rw [held, held', Sample.labelText_stat, Sample.labelText_stat] at labels
      obtain ⟨columns, stats⟩ := statLabels_inj _ _ _ _ _ labels
      rw [held, held', columns, stats]
    · exact absurd named' (by decide)
  · rw [named] at kinds
    rcases kinds with ⟨other, _⟩ | ⟨_, _, named', _⟩ | ⟨column', _, held'⟩
    · exact absurd (List.mem_cons_of_mem _ (List.mem_singleton_self _)) other
    · exact absurd named' (by decide)
    · rw [held, held', Sample.labelText_column, Sample.labelText_column] at labels
      rw [held, held', columnLabels_inj _ _ _ labels]

/-- The text repeats a series exactly when two samples have one. -/
theorem textSeries_nodup_iff :
    (textSeries (report.toPrometheus env durationMs)).Nodup ↔
      report.UniqueSeries env durationMs := by
  rw [textSeries_toPrometheus plain, ValidationReport.UniqueSeries]
  constructor
  · intro distinct
    have through : (report.samples env durationMs).map (fun s => s.head.toList) =
        ((report.samples env durationMs).map Sample.series).map
          (fun series => (⟨series.1, series.2, ""⟩ : Sample).head.toList) := by
      rw [List.map_map]
      rfl
    rw [through] at distinct
    exact distinct.of_map _
  · intro distinct
    apply List.Nodup.map_on _ (distinct.of_map _)
    intro s left t right same
    exact List.inj_on_of_nodup_map distinct left right
      (series_of_head plain durationMs s t left right same)

end PlainText

end StatGuardian.Metrics
