import StatGuardian.Core.Parser
import StatGuardian.Library.Results
import StatGuardian.Runtime.ExtRat

namespace StatGuardian.Core.Parser

open Grammar Peg

variable {F : Type} [Float64 F]

/-- The section inside a `section` pair. -/
def sectionBody (pair : Pair Rule) : Option (Pair Rule) :=
  if pair.rule == .sectionRule then pair.inner.head? else none

def sectionsOf (kind : Rule) (pairs : List (Pair Rule)) : List (Pair Rule) :=
  (pairs.filterMap sectionBody).filter (fun body => body.rule == kind)

def itemsOf (item : Rule) (body : Pair Rule) : List (Pair Rule) :=
  body.inner.filter (fun pair => pair.rule == item)

/-- The items of one kind written in all sections of a dataset. -/
def written (dataset : Pair Rule) (kind item : Rule) : List (Pair Rule) :=
  (sectionsOf kind dataset.inner.tail).flatMap (itemsOf item)

/-- Every rule written in the dataset is in the contract, in source order. -/
structure Complete (dataset : Pair Rule) (contract : DataContract F) : Prop where
  fields : List.Forall₂ (fun pair field => parseField pair = .ok field)
    (written dataset .schemaSection .fieldDef) contract.schema
  quality : List.Forall₂ (fun pair rule => parseQualityRule pair = .ok rule)
    (written dataset .qualitySection .qualityRule) contract.qualityRules
  crossColumn : List.Forall₂ (fun pair rule => parseCrossColumnRule pair = .ok rule)
    (written dataset .qualitySection .crossColumnRule) contract.crossColumnRules
  stats : List.Forall₂ (fun pair rule => parseStatsRule pair = .ok rule)
    (written dataset .statsSection .statsRule) contract.statsRules
  anomalies : List.Forall₂ (fun pair rule => parseAnomalyRule pair = .ok rule)
    (written dataset .anomalySection .anomalyRule) contract.anomalyRules

/-- The kinds of sections that hold rules, with the rules they hold. -/
def ruleKinds : List (Rule × Rule) :=
  [(.schemaSection, .fieldDef), (.qualitySection, .qualityRule),
    (.qualitySection, .crossColumnRule), (.statsSection, .statsRule),
    (.anomalySection, .anomalyRule)]

def OnlyLastFilled (dataset : Pair Rule) : Prop :=
  ∀ kinds ∈ ruleKinds, ∀ body ∈ (sectionsOf kinds.1 dataset.inner.tail).dropLast,
    itemsOf kinds.2 body = []

section LastSection

/-- What one round of the section loop does to a part of the contract: a section of the kind sets
    it, everything else leaves it alone. -/
structure Sets {α : Type} (kind : Rule) (get : DataContract F → α)
    (reads : Pair Rule → α → Prop) : Prop where
  here : ∀ contract pair after body, parseSection contract pair = .ok after →
    sectionBody pair = some body → body.rule = kind → reads body (get after)
  elsewhere : ∀ contract pair after, parseSection contract pair = .ok after →
    (∀ body, sectionBody pair = some body → body.rule ≠ kind) → get after = get contract

theorem parseSection_ok (contract after : DataContract F) (pair : Pair Rule)
    (ran : parseSection contract pair = .ok after) :
    (sectionBody pair = none ∧ after = contract) ∨
      ∃ body, sectionBody pair = some body ∧ parseSectionBody contract body = .ok after := by
  unfold parseSection at ran
  unfold sectionBody
  split at ran
  case isTrue here =>
    obtain ⟨⟨body, rest⟩, first, ran⟩ := (Results.bind_ok_iff ..).mp ran
    right
    refine ⟨body, ?_, ran⟩
    rw [if_pos here]
    cases inner : pair.inner with
    | nil => rw [inner] at first; cases first
    | cons head tail => rw [inner] at first; cases first; rfl
  case isFalse elsewhere =>
    cases ran
    exact .inl ⟨if_neg elsewhere, rfl⟩

theorem sets_of_body {α : Type} {kind : Rule} {get : DataContract F → α}
    {reads : Pair Rule → α → Prop}
    (here : ∀ contract body after, parseSectionBody contract body = .ok after → body.rule = kind →
      reads body (get after))
    (elsewhere : ∀ contract body after, parseSectionBody contract body = .ok after →
      body.rule ≠ kind → get after = get contract) : Sets kind get reads where
  here contract pair after body ran found same := by
    rcases parseSection_ok contract after pair ran with ⟨none, _⟩ | ⟨other, found', ran⟩
    · rw [none] at found; cases found
    · rw [found, Option.some.injEq] at found'
      subst found'
      exact here contract body after ran same
  elsewhere contract pair after ran other := by
    rcases parseSection_ok contract after pair ran with ⟨_, rfl⟩ | ⟨body, found, ran⟩
    · rfl
    · exact elsewhere contract body after ran (other body found)

/-- After all sections, a part holds what the last section of its kind reads as. -/
theorem foldlM_sections {α : Type} {kind : Rule} {get : DataContract F → α}
    {reads : Pair Rule → α → Prop} (sets : Sets kind get reads) (pairs : List (Pair Rule))
    (contract final : DataContract F) (ran : pairs.foldlM parseSection contract = .ok final) :
    (∀ body, (sectionsOf kind pairs).getLast? = some body → reads body (get final)) ∧
      (sectionsOf kind pairs = [] → get final = get contract) := by
  induction pairs generalizing contract with
  | nil => cases ran; exact ⟨nofun, fun _ => rfl⟩
  | cons pair rest ih =>
    rw [List.foldlM_cons] at ran
    obtain ⟨after, first, ran⟩ := (Results.bind_ok_iff ..).mp ran
    obtain ⟨later, untouched⟩ := ih after ran
    have split : sectionsOf kind (pair :: rest) =
        (sectionBody pair).toList.filter (fun body => body.rule == kind) ++
          sectionsOf kind rest := by
      unfold sectionsOf
      cases found : sectionBody pair with
      | none => simp [found]
      | some body =>
        rw [List.filterMap_cons_some found, Option.toList_some, List.filter_cons]
        cases same : body.rule == kind <;> simp [same]
    rw [split]
    by_cases last : sectionsOf kind rest = []
    · rw [last, List.append_nil, untouched last]
      cases found : sectionBody pair with
      | none => exact ⟨nofun, fun _ => sets.elsewhere contract pair after first (by simp [found])⟩
      | some body =>
        by_cases same : body.rule = kind
        · have here := sets.here contract pair after body first found same
          simp [same, here]
        · have elsewhere := sets.elsewhere contract pair after first (by
            intro other found'
            rw [found, Option.some.injEq] at found'
            subst found'
            exact same)
          simp [same, elsewhere]
    · obtain ⟨body, found⟩ := Option.ne_none_iff_exists'.mp
        (fun none => last (List.getLast?_eq_none_iff.mp none))
      constructor
      · intro given isLast
        rw [List.getLast?_append, found, Option.some_or, Option.some.injEq] at isLast
        subst isLast
        exact later _ found
      · intro empty
        exact absurd (List.append_eq_nil_iff.mp empty).2 last

end LastSection

section Parts

theorem parseSectionBody_cases (contract after : DataContract F) (body : Pair Rule)
    (ran : parseSectionBody contract body = .ok after) :
    (body.rule = .schemaSection ∧ ∃ fields, parseSchema body = .ok fields ∧
      after = { contract with schema := fields }) ∨
    (body.rule = .qualitySection ∧ ∃ rules crossColumn,
      parseQuality body = .ok (rules, crossColumn) ∧
      after = { contract with qualityRules := rules, crossColumnRules := crossColumn }) ∨
    (body.rule = .statsSection ∧ ∃ rules, parseStats body = .ok rules ∧
      after = { contract with statsRules := rules }) ∨
    (body.rule = .anomalySection ∧ ∃ rules, parseAnomalies body = .ok rules ∧
      after = { contract with anomalyRules := rules }) ∨
    (body.rule ≠ .schemaSection ∧ body.rule ≠ .qualitySection ∧ body.rule ≠ .statsSection ∧
      body.rule ≠ .anomalySection ∧
      ∃ config, after = { contract with streamConfig := config }) := by
  unfold parseSectionBody at ran
  split at ran
  case h_1 kind =>
    obtain ⟨fields, parsed, ran⟩ := (Results.bind_ok_iff ..).mp ran
    cases ran
    exact .inl ⟨kind, fields, parsed, rfl⟩
  case h_2 kind =>
    obtain ⟨⟨rules, crossColumn⟩, parsed, ran⟩ := (Results.bind_ok_iff ..).mp ran
    cases ran
    exact .inr (.inl ⟨kind, rules, crossColumn, parsed, rfl⟩)
  case h_3 kind =>
    obtain ⟨rules, parsed, ran⟩ := (Results.bind_ok_iff ..).mp ran
    cases ran
    exact .inr (.inr (.inl ⟨kind, rules, parsed, rfl⟩))
  case h_4 kind =>
    obtain ⟨rules, parsed, ran⟩ := (Results.bind_ok_iff ..).mp ran
    cases ran
    exact .inr (.inr (.inr (.inl ⟨kind, rules, parsed, rfl⟩)))
  case h_5 kind =>
    obtain ⟨config, _, ran⟩ := (Results.bind_ok_iff ..).mp ran
    cases ran
    right; right; right; right
    simp only [kind]
    exact ⟨by decide, by decide, by decide, by decide, some config, rfl⟩
  case h_6 schema quality stats anomalies _ =>
    cases ran
    exact .inr (.inr (.inr (.inr ⟨schema, quality, stats, anomalies, contract.streamConfig, rfl⟩)))

def Reads {α : Type} (item : Rule) (parse : Pair Rule → CoreResult α) (body : Pair Rule)
    (rules : List α) : Prop :=
  List.Forall₂ (fun pair rule => parse pair = .ok rule) (itemsOf item body) rules

theorem qualityItems_read (pairs : List (Pair Rule))
    (items : List (Option (QualityRule F) × Option (CrossColumnRule F)))
    (parsed : pairs.mapM qualityItem = .ok items) :
    List.Forall₂ (fun pair rule => parseQualityRule pair = .ok rule)
        (pairs.filter (fun pair => pair.rule == .qualityRule)) (items.filterMap Prod.fst) ∧
      List.Forall₂ (fun pair rule => parseCrossColumnRule pair = .ok rule)
        (pairs.filter (fun pair => pair.rule == .crossColumnRule)) (items.filterMap Prod.snd) := by
  rw [Results.mapM_ok_iff] at parsed
  induction parsed with
  | nil => exact ⟨.nil, .nil⟩
  | @cons pair item pairs items head _ ih =>
    unfold qualityItem at head
    split at head
    case h_1 kind =>
      obtain ⟨rule, parsed, rfl⟩ := (Results.map_ok_iff ..).mp head
      simp only [List.filter_cons, kind, List.filterMap_cons]
      exact ⟨.cons parsed ih.1, ih.2⟩
    case h_2 kind =>
      obtain ⟨rule, parsed, rfl⟩ := (Results.map_ok_iff ..).mp head
      simp only [List.filter_cons, kind, List.filterMap_cons]
      exact ⟨ih.1, .cons parsed ih.2⟩
    case h_3 quality crossColumn =>
      cases head
      rw [List.filter_cons_of_neg (by simpa using quality),
        List.filter_cons_of_neg (by simpa using crossColumn)]
      exact ih

theorem parseQuality_reads (body : Pair Rule) (rules : List (QualityRule F))
    (crossColumn : List (CrossColumnRule F)) (parsed : parseQuality body = .ok (rules, crossColumn)) :
    Reads .qualityRule parseQualityRule body rules ∧
      Reads .crossColumnRule parseCrossColumnRule body crossColumn := by
  obtain ⟨items, itemsParsed, same⟩ := (Results.bind_ok_iff ..).mp parsed
  cases same
  exact qualityItems_read body.inner items itemsParsed

/-- What reading one section body does to each part: the parts of its kind hold what it reads as,
the other parts are as they were. -/
structure BodyEffect (contract after : DataContract F) (body : Pair Rule) : Prop where
  schema : if body.rule = .schemaSection then Reads .fieldDef parseField body after.schema
    else after.schema = contract.schema
  quality : if body.rule = .qualitySection then
      Reads .qualityRule parseQualityRule body after.qualityRules
    else after.qualityRules = contract.qualityRules
  crossColumn : if body.rule = .qualitySection then
      Reads .crossColumnRule parseCrossColumnRule body after.crossColumnRules
    else after.crossColumnRules = contract.crossColumnRules
  stats : if body.rule = .statsSection then Reads .statsRule parseStatsRule body after.statsRules
    else after.statsRules = contract.statsRules
  anomalies : if body.rule = .anomalySection then
      Reads .anomalyRule parseAnomalyRule body after.anomalyRules
    else after.anomalyRules = contract.anomalyRules

theorem parseSectionBody_effect (contract after : DataContract F) (body : Pair Rule)
    (ran : parseSectionBody contract body = .ok after) : BodyEffect contract after body := by
  rcases parseSectionBody_cases contract after body ran with
    ⟨kind, fields, parsed, rfl⟩ | ⟨kind, rules, crossColumn, parsed, rfl⟩ |
    ⟨kind, rules, parsed, rfl⟩ | ⟨kind, rules, parsed, rfl⟩ |
    ⟨schema, quality, stats, anomalies, config, rfl⟩
  · have reads : Reads .fieldDef parseField body fields := (Results.mapM_ok_iff ..).mp parsed
    constructor <;> simp [kind, reads]
  · have ⟨reads, crossReads⟩ := parseQuality_reads body rules crossColumn parsed
    constructor <;> simp [kind, reads, crossReads]
  · have reads : Reads .statsRule parseStatsRule body rules := (Results.mapM_ok_iff ..).mp parsed
    constructor <;> simp [kind, reads]
  · have reads : Reads .anomalyRule parseAnomalyRule body rules :=
      (Results.mapM_ok_iff ..).mp parsed
    constructor <;> simp [kind, reads]
  · constructor <;> simp [schema, quality, stats, anomalies]

theorem sets_of_effect {α : Type} {kind : Rule} {get : DataContract F → α}
    {reads : Pair Rule → α → Prop}
    (effect : ∀ contract after body, BodyEffect contract after body →
      if body.rule = kind then reads body (get after) else get after = get contract) :
    Sets kind get reads := by
  refine sets_of_body ?_ ?_
  · intro contract body after ran same
    have here := effect contract after body (parseSectionBody_effect contract after body ran)
    rwa [if_pos same] at here
  · intro contract body after ran other
    have elsewhere := effect contract after body (parseSectionBody_effect contract after body ran)
    rwa [if_neg other] at elsewhere

theorem schema_sets :
    Sets .schemaSection (DataContract.schema (F := F)) (Reads .fieldDef parseField) :=
  sets_of_effect (fun _ _ _ effect => effect.schema)

theorem quality_sets :
    Sets .qualitySection (DataContract.qualityRules (F := F))
      (Reads .qualityRule parseQualityRule) :=
  sets_of_effect (fun _ _ _ effect => effect.quality)

theorem crossColumn_sets :
    Sets .qualitySection (DataContract.crossColumnRules (F := F))
      (Reads .crossColumnRule parseCrossColumnRule) :=
  sets_of_effect (fun _ _ _ effect => effect.crossColumn)

theorem stats_sets :
    Sets .statsSection (DataContract.statsRules (F := F)) (Reads .statsRule parseStatsRule) :=
  sets_of_effect (fun _ _ _ effect => effect.stats)

theorem anomaly_sets :
    Sets .anomalySection (DataContract.anomalyRules (F := F))
      (Reads .anomalyRule parseAnomalyRule) :=
  sets_of_effect (fun _ _ _ effect => effect.anomalies)

end Parts

section Datasets

/-- A part is complete exactly when every section of its kind but the last has no such rules. -/
theorem complete_part_iff {α : Type} {kind item : Rule} {get : DataContract F → List α}
    {parse : Pair Rule → CoreResult α} (sets : Sets kind get (Reads item parse))
    (empty : ∀ name, get (DataContract.new name) = []) (dataset : Pair Rule)
    (contract : DataContract F) (parsed : parseDataset dataset = .ok contract) :
    List.Forall₂ (fun pair rule => parse pair = .ok rule) (written dataset kind item)
        (get contract) ↔
      ∀ body ∈ (sectionsOf kind dataset.inner.tail).dropLast, itemsOf item body = [] := by
  obtain ⟨⟨name, sections⟩, split, ran⟩ := (Results.bind_ok_iff ..).mp parsed
  have tail : dataset.inner.tail = sections := by
    cases inner : dataset.inner with
    | nil => rw [inner] at split; cases split
    | cons head rest => rw [inner] at split; cases split; rfl
  obtain ⟨last, untouched⟩ := foldlM_sections sets sections _ contract ran
  unfold written
  rw [tail]
  by_cases none : sectionsOf kind sections = []
  · rw [none, untouched none, empty]
    simp
  · obtain ⟨body, found⟩ := Option.ne_none_iff_exists'.mp
      (fun missing => none (List.getLast?_eq_none_iff.mp missing))
    have reads := last body found
    obtain ⟨before, split⟩ := List.getLast?_eq_some_iff.mp found
    rw [split, List.dropLast_concat, List.flatMap_append, List.flatMap_singleton]
    constructor
    · intro all earlier member
      have size := all.length_eq
      rw [List.length_append, reads.length_eq] at size
      have nothing : before.flatMap (itemsOf item) = [] :=
        List.length_eq_zero_iff.mp (by omega)
      exact List.flatMap_eq_nil_iff.mp nothing earlier member
    · intro earlier
      rw [List.flatMap_eq_nil_iff.mpr earlier, List.nil_append]
      exact reads

theorem complete_iff (dataset : Pair Rule) (contract : DataContract F)
    (parsed : parseDataset dataset = .ok contract) :
    Complete dataset contract ↔ OnlyLastFilled dataset := by
  have fields := complete_part_iff schema_sets (fun _ => rfl) dataset contract parsed
  have quality := complete_part_iff quality_sets (fun _ => rfl) dataset contract parsed
  have crossColumn := complete_part_iff crossColumn_sets (fun _ => rfl) dataset contract parsed
  have stats := complete_part_iff stats_sets (fun _ => rfl) dataset contract parsed
  have anomalies := complete_part_iff anomaly_sets (fun _ => rfl) dataset contract parsed
  simp only [OnlyLastFilled, ruleKinds, List.forall_mem_cons, ← fields, ← quality, ← crossColumn,
    ← stats, ← anomalies]
  constructor
  · rintro ⟨fields, quality, crossColumn, stats, anomalies⟩
    exact ⟨fields, quality, crossColumn, stats, anomalies, List.forall_mem_nil _⟩
  · rintro ⟨fields, quality, crossColumn, stats, anomalies, _⟩
    exact ⟨fields, quality, crossColumn, stats, anomalies⟩

theorem parse_datasets {input : String} {contracts : List (DataContract F)}
    (parsed : parse input = .ok contracts) :
    ∃ pairs, contractPairs input = some pairs ∧
      List.Forall₂ (fun dataset contract => parseDataset dataset = .ok contract) (datasets pairs)
        contracts := by
  unfold parse at parsed
  split at parsed
  · cases parsed
  · split at parsed
    · cases parsed
    · exact ⟨_, by assumption, (Results.mapM_ok_iff ..).mp parsed⟩

/-- A parse loses no rule exactly when in every dataset, of each kind of section, only the last
    one holds rules. -/
theorem parse_complete_iff {input : String} {pairs : List (Pair Rule)}
    {contracts : List (DataContract F)} (accepted : contractPairs input = some pairs)
    (parsed : parse input = .ok contracts) :
    List.Forall₂ Complete (datasets pairs) contracts ↔
      ∀ dataset ∈ datasets pairs, OnlyLastFilled dataset := by
  obtain ⟨_, accepted', each⟩ := parse_datasets parsed
  rw [accepted, Option.some.injEq] at accepted'
  subst accepted'
  exact Results.forall₂_iff_left (each.imp (fun dataset contract => complete_iff dataset contract))

def twoSchemas : String := "dataset d \x7b schema \x7b a: int \x7d schema \x7b b: int \x7d \x7d"

def lastSchemaOnly : DataContract ExtRat :=
  { DataContract.new "d" with schema := [⟨"b", .int, []⟩] }

/-- The field of the first schema section is lost. -/
theorem second_schema_overwrites :
    ∃ pairs, contractPairs twoSchemas = some pairs ∧
      parse twoSchemas = .ok [lastSchemaOnly] ∧
      ¬ List.Forall₂ Complete (datasets pairs) [lastSchemaOnly] := by
  have counted : (contractPairs twoSchemas).any (fun pairs => (datasets pairs).map
      (fun dataset => (written dataset .schemaSection .fieldDef).length) == [2]) = true := by
    decide +kernel
  obtain ⟨pairs, accepted, counts⟩ := (Option.any_eq_true ..).mp counted
  refine ⟨pairs, accepted, by decide +kernel, fun complete => ?_⟩
  obtain ⟨dataset, member, fields⟩ := Results.forall₂_right complete lastSchemaOnly
    (List.mem_singleton_self _)
  have size : (written dataset .schemaSection .fieldDef).length ∈ (datasets pairs).map
      (fun dataset => (written dataset .schemaSection .fieldDef).length) :=
    List.mem_map.mpr ⟨dataset, member, rfl⟩
  rw [beq_iff_eq.mp counts, List.mem_singleton, fields.fields.length_eq] at size
  cases size

theorem parse_complete_iff_two :
    ∃ pairs, contractPairs twoSchemas = some pairs ∧
      (List.Forall₂ Complete (datasets pairs) [lastSchemaOnly] ↔
        ∀ dataset ∈ datasets pairs, OnlyLastFilled dataset) := by
  have some : (contractPairs twoSchemas).isSome = true := by decide +kernel
  obtain ⟨pairs, accepted⟩ := Option.isSome_iff_exists.mp some
  exact ⟨pairs, accepted, parse_complete_iff accepted (by decide +kernel)⟩

end Datasets

end StatGuardian.Core.Parser
