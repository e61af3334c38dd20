import Mathlib.Data.List.Nodup
import StatGuardian.Metrics.Report

namespace StatGuardian.Metrics

open StatGuardian.Core Stats

variable {F : Type} [Float64 F] (env : Env F)

def metricBlock (metric help kind labels value : String) : String :=
  s!"# HELP {metric} {help}\n" ++ s!"# TYPE {metric} {kind}\n" ++
    s!"{metric}\x7b{labels}\x7d {value}\n"

def datasetLabel (dataset : String) : String := s!"dataset=\"{dataset}\""

def columnLabels (dataset column : String) : String := s!"dataset=\"{dataset}\",column=\"{column}\""

def driftLine (dlabels stat value : String) : String :=
  s!"statguard_drift\x7b{dlabels},stat=\"{stat}\"\x7d {value}\n"

def psiLine (dlabels value : String) : String := s!"statguard_psi\x7b{dlabels}\x7d {value}\n"

def driftText (dataset : String) (drift : DriftResult F) : String :=
  let dlabels := columnLabels dataset drift.column
  driftLine dlabels drift.stat (env.fixed 6 drift.drift) ++
    (drift.psi.map (fun psi => psiLine dlabels (env.fixed 6 psi))).getD ""

def ValidationReport.toPrometheus (report : ValidationReport F) (durationMs : Nat) : String :=
  let labels := datasetLabel report.dataset
  metricBlock "statguard_health_score" "Dataset health score (0–1)" "gauge" labels
      (env.fixed 4 report.health.score) ++
    metricBlock "statguard_violations_total" "Total violations" "counter" labels
      (toString report.violations.length) ++
    metricBlock "statguard_row_count" "Rows processed" "gauge" labels (toString report.rowCount) ++
    metricBlock "statguard_execution_ms" "Execution time in milliseconds" "gauge" labels
      (toString durationMs) ++
    String.join (report.driftResults.map (driftText env report.dataset))

structure Sample where
  metric : String
  labels : List (String × String)
  value : String
  deriving DecidableEq, Repr

namespace Sample

def labelText (labels : List (String × String)) : String :=
  ",".intercalate (labels.map (fun label => s!"{label.1}=\"{label.2}\""))

def head (s : Sample) : String := s!"{s.metric}\x7b{labelText s.labels}\x7d"

def line (s : Sample) : String := s!"{s.head} {s.value}"

/-- What the scraper tells samples apart by. -/
def series (s : Sample) : String × List (String × String) := (s.metric, s.labels)

end Sample

def driftSample (dataset : String) (drift : DriftResult F) : Sample where
  metric := "statguard_drift"
  labels := [("dataset", dataset), ("column", drift.column), ("stat", drift.stat)]
  value := env.fixed 6 drift.drift

def psiSample (dataset : String) (drift : DriftResult F) (psi : F) : Sample where
  metric := "statguard_psi"
  labels := [("dataset", dataset), ("column", drift.column)]
  value := env.fixed 6 psi

def driftSamples (dataset : String) (drift : DriftResult F) : List Sample :=
  driftSample env dataset drift :: (drift.psi.map (psiSample env dataset drift)).toList

def headSamples (report : ValidationReport F) (durationMs : Nat) : List Sample :=
  [⟨"statguard_health_score", [("dataset", report.dataset)], env.fixed 4 report.health.score⟩,
    ⟨"statguard_violations_total", [("dataset", report.dataset)],
      toString report.violations.length⟩,
    ⟨"statguard_row_count", [("dataset", report.dataset)], toString report.rowCount⟩,
    ⟨"statguard_execution_ms", [("dataset", report.dataset)], toString durationMs⟩]

def ValidationReport.samples (report : ValidationReport F) (durationMs : Nat) : List Sample :=
  headSamples env report durationMs ++ report.driftResults.flatMap (driftSamples env report.dataset)

def ValidationReport.UniqueSeries (report : ValidationReport F) (durationMs : Nat) : Prop :=
  ((report.samples env durationMs).map Sample.series).Nodup

def Apart (a b : DriftResult F) : Prop :=
  a.column = b.column → a.stat ≠ b.stat ∧ ¬ (a.psi.isSome = true ∧ b.psi.isSome = true)

theorem mem_driftSamples (dataset : String) (drift : DriftResult F) (s : Sample) :
    s ∈ driftSamples env dataset drift ↔
      s = driftSample env dataset drift ∨
        ∃ psi, drift.psi = some psi ∧ s = psiSample env dataset drift psi := by
  rw [driftSamples, List.mem_cons, Option.mem_toList, Option.map_eq_some_iff]
  simp only [eq_comm]

theorem driftSample_series_ne (dataset : String) (a b : DriftResult F) (psi : F) :
    (driftSample env dataset a).series ≠ (psiSample env dataset b psi).series := by
  intro same
  exact absurd (congrArg Prod.fst same) (show "statguard_drift" ≠ "statguard_psi" by decide)

theorem driftSample_series_eq_iff (dataset : String) (a b : DriftResult F) :
    (driftSample env dataset a).series = (driftSample env dataset b).series ↔
      a.column = b.column ∧ a.stat = b.stat := by
  simp [driftSample, Sample.series]

theorem psiSample_series_eq_iff (dataset : String) (a b : DriftResult F) (p q : F) :
    (psiSample env dataset a p).series = (psiSample env dataset b q).series ↔
      a.column = b.column := by
  simp [psiSample, Sample.series]

theorem nodup_driftSamples (dataset : String) (drift : DriftResult F) :
    ((driftSamples env dataset drift).map Sample.series).Nodup := by
  unfold driftSamples
  cases drift.psi with
  | none => exact List.nodup_singleton _
  | some psi =>
    refine List.nodup_cons.mpr ⟨?_, List.nodup_singleton _⟩
    intro member
    exact driftSample_series_ne env dataset drift drift psi (List.mem_singleton.mp member)

theorem disjoint_driftSamples_iff (dataset : String) (a b : DriftResult F) :
    List.Disjoint ((driftSamples env dataset a).map Sample.series)
        ((driftSamples env dataset b).map Sample.series) ↔ Apart a b := by
  constructor
  · intro disjoint column
    constructor
    · intro stat
      have same := (driftSample_series_eq_iff env dataset a b).mpr ⟨column, stat⟩
      refine disjoint (List.mem_map_of_mem (List.mem_cons_self ..)) ?_
      rw [same]
      exact List.mem_map_of_mem (List.mem_cons_self ..)
    · intro ⟨first, second⟩
      obtain ⟨p, psiA⟩ := Option.isSome_iff_exists.mp first
      obtain ⟨q, psiB⟩ := Option.isSome_iff_exists.mp second
      have same := (psiSample_series_eq_iff env dataset a b p q).mpr column
      refine disjoint (List.mem_map_of_mem
        ((mem_driftSamples env dataset a _).mpr (.inr ⟨p, psiA, rfl⟩))) ?_
      rw [same]
      exact List.mem_map_of_mem ((mem_driftSamples env dataset b _).mpr (.inr ⟨q, psiB, rfl⟩))
  · intro apart series inA inB
    obtain ⟨s, ofA, rfl⟩ := List.mem_map.mp inA
    obtain ⟨t, ofB, same⟩ := List.mem_map.mp inB
    rcases (mem_driftSamples env dataset a s).mp ofA with rfl | ⟨p, psiA, rfl⟩
    · rcases (mem_driftSamples env dataset b t).mp ofB with rfl | ⟨q, _, rfl⟩
      · obtain ⟨column, stat⟩ := (driftSample_series_eq_iff env dataset b a).mp same
        exact (apart column.symm).1 stat.symm
      · exact driftSample_series_ne env dataset a b q same.symm
    · rcases (mem_driftSamples env dataset b t).mp ofB with rfl | ⟨q, psiB, rfl⟩
      · exact driftSample_series_ne env dataset b a p same
      · have column := (psiSample_series_eq_iff env dataset b a q p).mp same
        refine (apart column.symm).2 ⟨?_, ?_⟩
        · rw [psiA]
          rfl
        · rw [psiB]
          rfl

theorem nodup_headSamples (report : ValidationReport F) (durationMs : Nat) :
    ((headSamples env report durationMs).map Sample.series).Nodup := by
  refine List.Nodup.of_map Prod.fst ?_
  change ["statguard_health_score", "statguard_violations_total", "statguard_row_count",
    "statguard_execution_ms"].Nodup
  decide

theorem headSamples_metric (report : ValidationReport F) (durationMs : Nat) (s : Sample)
    (member : s ∈ headSamples env report durationMs) :
    s.labels = [("dataset", report.dataset)] ∧
      s.metric ∈ ["statguard_health_score", "statguard_violations_total", "statguard_row_count",
        "statguard_execution_ms"] := by
  simp only [headSamples, List.mem_cons, List.not_mem_nil, or_false] at member
  rcases member with rfl | rfl | rfl | rfl <;> simp

theorem driftSamples_metric (dataset : String) (drift : DriftResult F) (s : Sample)
    (member : s ∈ driftSamples env dataset drift) :
    s.metric ∈ ["statguard_drift", "statguard_psi"] := by
  rcases (mem_driftSamples env dataset drift s).mp member with rfl | ⟨psi, _, rfl⟩
  · exact List.mem_cons_self ..
  · exact List.mem_cons_of_mem _ (List.mem_singleton_self _)

/-- The series of a report are all different when those of every two results are. -/
theorem uniqueSeries_iff (report : ValidationReport F) (durationMs : Nat) :
    report.UniqueSeries env durationMs ↔ report.driftResults.Pairwise Apart := by
  rw [ValidationReport.UniqueSeries, ValidationReport.samples, List.map_append, List.map_flatMap,
    List.nodup_append', List.nodup_flatMap]
  have apart : List.Disjoint ((headSamples env report durationMs).map Sample.series)
      (report.driftResults.flatMap
        (fun drift => (driftSamples env report.dataset drift).map Sample.series)) := by
    intro series inHead inDrift
    obtain ⟨s, first, rfl⟩ := List.mem_map.mp inHead
    obtain ⟨drift, _, inside⟩ := List.mem_flatMap.mp inDrift
    obtain ⟨t, second, same⟩ := List.mem_map.mp inside
    have metric := (headSamples_metric env report durationMs s first).2
    have other := driftSamples_metric env report.dataset drift t second
    rw [show t.metric = s.metric from congrArg Prod.fst same] at other
    revert metric
    simp only [List.mem_cons, List.not_mem_nil, or_false] at other ⊢
    rcases other with metric | metric <;> rw [metric] <;> decide
  constructor
  · intro ⟨_, ⟨_, pairs⟩, _⟩
    exact pairs.imp (fun disjoint => (disjoint_driftSamples_iff env report.dataset _ _).mp disjoint)
  · intro pairs
    refine ⟨nodup_headSamples env report durationMs, ⟨?_, ?_⟩, apart⟩
    · intro drift _
      exact nodup_driftSamples env report.dataset drift
    · exact pairs.imp (fun apart => (disjoint_driftSamples_iff env report.dataset _ _).mpr apart)

end StatGuardian.Metrics
