import StatGuardian.Py.PiiScan

namespace StatGuardian.Py.Pii

open FirstByKey

variable {F : Type} [Float64 F]

def PiiFinding.key (finding : PiiFinding) : String × String := (finding.column, finding.piiType)

theorem foldl_add (findings : List PiiFinding) (progress : Progress)
    (known : progress.seen = progress.findings.map PiiFinding.key) :
    (findings.foldl Progress.add progress).findings =
        collect PiiFinding.key progress.findings findings ∧
      (findings.foldl Progress.add progress).seen =
        (collect PiiFinding.key progress.findings findings).map PiiFinding.key := by
  induction findings generalizing progress with
  | nil => exact ⟨rfl, known⟩
  | cons finding rest ih =>
    rw [List.foldl_cons, collect, Progress.add, known]
    by_cases seen : finding.key ∈ progress.findings.map PiiFinding.key
    · rw [if_pos seen, if_pos (show (finding.column, finding.piiType) ∈ _ from seen)]
      exact ih progress known
    · rw [if_neg seen, if_neg (show (finding.column, finding.piiType) ∉ _ from seen)]
      apply ih
      rw [List.map_append]
      rfl

theorem key_nameFinding (colName piiType : String) :
    (nameFinding colName piiType).key = (colName, piiType) := rfl

theorem key_patternFinding (colName : String) (values : List String)
    (entry : String × (String → Bool)) :
    (patternFinding F colName values entry.1 entry.2).key = (colName, entry.1) := rfl

section Columns

variable (env : PyText) (sampleRows : Nat) (patternThreshold : F)

def matched (col : String × Cells) : List (String × (String → Bool)) :=
  let values := nonNull sampleRows col.2
  if values.length = 0 then []
  else
    (patterns env).filter (fun entry => Float64.ge (fraction values entry.2) patternThreshold)

def candidates (col : String × Cells) : List PiiFinding :=
  (hintedType env col.1).toList.map (nameFinding col.1) ++
    (matched env sampleRows patternThreshold col).map (fun entry =>
      patternFinding F col.1 (nonNull sampleRows col.2) entry.1 entry.2)

theorem foldl_filter (values : List String) (colName : String)
    (entries : List (String × (String → Bool))) (progress : Progress) :
    entries.foldl
        (fun progress entry =>
          if Float64.ge (fraction values entry.2) patternThreshold then
            progress.add (patternFinding F colName values entry.1 entry.2)
          else progress)
        progress =
      ((entries.filter (fun entry =>
          Float64.ge (fraction values entry.2) patternThreshold)).map (fun entry =>
        patternFinding F colName values entry.1 entry.2)).foldl Progress.add progress := by
  induction entries generalizing progress with
  | nil => rfl
  | cons entry rest ih =>
    rw [List.foldl_cons, ih]
    by_cases enough : Float64.ge (fraction values entry.2) patternThreshold = true
    · simp only [enough, if_true, List.filter_cons, List.map_cons, List.foldl_cons]
    · simp only [enough, List.filter_cons, Bool.false_eq_true, if_false]

theorem scanColumn_eq (progress : Progress) (col : String × Cells) :
    scanColumn env sampleRows patternThreshold progress col =
      (candidates env sampleRows patternThreshold col).foldl Progress.add progress := by
  have named : ((hintedType env col.1).elim progress
      (fun piiType => progress.add (nameFinding col.1 piiType))) =
      ((hintedType env col.1).toList.map (nameFinding col.1)).foldl Progress.add progress := by
    cases hintedType env col.1 <;> rfl
  unfold scanColumn candidates matched
  dsimp only
  rw [named, List.foldl_append]
  split
  · rfl
  · exact foldl_filter patternThreshold _ _ _ _

theorem scanPii_eq (df : Frame) :
    scanPii env df sampleRows patternThreshold =
      collect PiiFinding.key [] (df.columns.flatMap (candidates env sampleRows patternThreshold)) := by
  have steps : scanColumn env sampleRows patternThreshold = fun progress col =>
      (candidates env sampleRows patternThreshold col).foldl Progress.add progress :=
    funext fun progress => funext fun col =>
      scanColumn_eq env sampleRows patternThreshold progress col
  rw [scanPii, steps, ← List.foldl_flatMap]
  exact (foldl_add _ ⟨[], []⟩ rfl).1

theorem column_of_candidate {col : String × Cells} {finding : PiiFinding}
    (member : finding ∈ candidates env sampleRows patternThreshold col) :
    finding.column = col.1 := by
  rcases List.mem_append.mp member with named | bySample
  · obtain ⟨piiType, _, same⟩ := List.mem_map.mp named
    rw [← same]
    rfl
  · obtain ⟨entry, _, same⟩ := List.mem_map.mp bySample
    rw [← same]
    rfl

theorem scan_blocks (df : Frame) :
    scanPii env df sampleRows patternThreshold = df.columns.flatMap (fun col =>
      collect PiiFinding.key [] (candidates env sampleRows patternThreshold col)) := by
  rw [scanPii_eq]
  apply collect_flatMap
  have names : df.columns.Pairwise (fun a b => a.1 ≠ b.1) := List.pairwise_map.mp df.distinct
  apply names.imp
  intro a b apart x first y second same
  apply apart
  rw [← column_of_candidate env sampleRows patternThreshold first,
    ← column_of_candidate env sampleRows patternThreshold second]
  exact congrArg Prod.fst same

def Frame.single (col : String × Cells) : Frame := ⟨[col], List.nodup_singleton _⟩

/-- What a column is reported for does not depend on the other columns. -/
theorem scanPii_columns (df : Frame) :
    scanPii env df sampleRows patternThreshold = df.columns.flatMap (fun col =>
      scanPii env (.single col) sampleRows patternThreshold) := by
  rw [scan_blocks]
  congr 1
  funext col
  rw [scan_blocks, Frame.single, List.flatMap_singleton]

theorem nodup_patterns : ((patterns env).map Prod.fst).Nodup := by
  have types : (patterns env).map Prod.fst = ["email", "phone", "ssn", "credit_card", "ip_address",
      "date_of_birth", "passport", "iban"] := rfl
  rw [types]
  decide

theorem nodup_matched (col : String × Cells) :
    (((matched env sampleRows patternThreshold col).map (fun entry =>
      patternFinding F col.1 (nonNull sampleRows col.2) entry.1 entry.2)).map
        PiiFinding.key).Nodup := by
  have types : ((matched env sampleRows patternThreshold col).map Prod.fst).Nodup := by
    unfold matched
    dsimp only
    split
    · exact .nil
    · exact (nodup_patterns env).sublist (List.filter_sublist.map Prod.fst)
  rw [List.map_map]
  have keys : PiiFinding.key ∘ (fun entry : String × (String → Bool) =>
      patternFinding F col.1 (nonNull sampleRows col.2) entry.1 entry.2) =
      (fun piiType => (col.1, piiType)) ∘ Prod.fst := rfl
  rw [keys, ← List.map_map]
  exact types.map (fun _ _ same => congrArg Prod.snd same)

/-- A column is reported for the type that its name hints at, and for the other types that enough
    values match. -/
theorem collect_candidates (col : String × Cells) :
    collect PiiFinding.key [] (candidates env sampleRows patternThreshold col) =
      (hintedType env col.1).toList.map (nameFinding col.1) ++
        ((matched env sampleRows patternThreshold col).filter (fun entry =>
          hintedType env col.1 ≠ some entry.1)).map (fun entry =>
            patternFinding F col.1 (nonNull sampleRows col.2) entry.1 entry.2) := by
  have single : ∀ hint : Option String,
      collect PiiFinding.key [] (hint.toList.map (nameFinding col.1)) =
        hint.toList.map (nameFinding col.1) := by
    intro hint
    have nodup : ((hint.toList.map (nameFinding col.1)).map PiiFinding.key).Nodup := by
      cases hint with
      | none => exact .nil
      | some piiType => exact List.nodup_singleton _
    rw [collect_of_nodup nodup, List.nil_append]
    exact List.filter_eq_self.mpr (fun finding _ => by simp)
  have known : ∀ (hint : Option String) (entry : String × (String → Bool)),
      (patternFinding F col.1 (nonNull sampleRows col.2) entry.1 entry.2).key ∈
        (hint.toList.map (nameFinding col.1)).map PiiFinding.key ↔ hint = some entry.1 := by
    intro hint entry
    rw [key_patternFinding]
    cases hint with
    | none => simp
    | some piiType =>
      rw [Option.toList_some, List.map_singleton, List.map_singleton, key_nameFinding,
        List.mem_singleton, Prod.mk.injEq, Option.some.injEq, and_iff_right rfl, eq_comm]
  unfold candidates
  rw [collect_append, single, collect_of_nodup (nodup_matched env sampleRows patternThreshold col),
    List.append_right_inj, List.filter_map]
  apply congrArg
  apply List.filter_congr
  intro entry _
  simp only [Function.comp_apply, known]

theorem mem_scan (df : Frame) (finding : PiiFinding) :
    finding ∈ scanPii env df sampleRows patternThreshold ↔ ∃ col ∈ df.columns,
      (∃ piiType, hintedType env col.1 = some piiType ∧ finding = nameFinding col.1 piiType) ∨
        ∃ entry ∈ matched env sampleRows patternThreshold col,
          hintedType env col.1 ≠ some entry.1 ∧
            finding = patternFinding F col.1 (nonNull sampleRows col.2) entry.1 entry.2 := by
  have flip : ∀ x : PiiFinding, (x = finding) = (finding = x) := fun x => propext eq_comm
  simp only [scan_blocks, collect_candidates, List.mem_flatMap, List.mem_append, List.mem_map,
    Option.mem_toList, List.mem_filter, decide_eq_true_eq, flip, and_assoc]

/-- A scan reports each column once for each type: for the type that its name hints at, and from
    the sample for any other type that enough of the values match. -/
theorem mem_scanPii_iff (df : Frame) :
    ((scanPii env df sampleRows patternThreshold).map PiiFinding.key).Nodup ∧
      ∀ finding, finding ∈ scanPii env df sampleRows patternThreshold ↔ ∃ col ∈ df.columns,
        (∃ piiType, hintedType env col.1 = some piiType ∧ finding = nameFinding col.1 piiType) ∨
          ∃ entry ∈ matched env sampleRows patternThreshold col,
            hintedType env col.1 ≠ some entry.1 ∧
              finding = patternFinding F col.1 (nonNull sampleRows col.2) entry.1 entry.2 := by
  constructor
  · rw [scanPii_eq]
    apply nodup_collect
    rw [List.map_nil]
    exact List.nodup_nil
  · exact mem_scan env sampleRows patternThreshold df

theorem hinted_never_high (df : Frame) (finding : PiiFinding)
    (member : finding ∈ scanPii env df sampleRows patternThreshold)
    (hinted : hintedType env finding.column = some finding.piiType) :
    finding = nameFinding finding.column finding.piiType := by
  obtain ⟨col, _, ⟨piiType, _, same⟩ | ⟨entry, _, other, same⟩⟩ :=
    (mem_scan env sampleRows patternThreshold df finding).mp member
  · rw [same]
    rfl
  · rw [same] at hinted
    exact absurd hinted other

end Columns

end StatGuardian.Py.Pii
