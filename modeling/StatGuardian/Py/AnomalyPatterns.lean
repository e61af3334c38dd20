import Mathlib.Algebra.BigOperators.Group.List.Basic
import Mathlib.Algebra.Ring.Int.Defs
import Mathlib.Data.String.Basic
import StatGuardian.Library.Descending
import StatGuardian.Library.Grouping
import StatGuardian.Library.LineText
import StatGuardian.Py.OkfFiles

namespace StatGuardian.Py.Okf

inductive AnomalySeverity where
  | warning
  | error
  | critical
  deriving DecidableEq, Repr

namespace AnomalySeverity

def text : AnomalySeverity → String
  | warning => "warning"
  | error => "error"
  | critical => "critical"

def rank : AnomalySeverity → Nat
  | warning => 0
  | error => 1
  | critical => 2

/-- The texts stand in the opposite order. -/
theorem text_le_iff (a b : AnomalySeverity) : a.text ≤ b.text ↔ b.rank ≤ a.rank := by
  cases a <;> cases b <;> decide

theorem rank_inj {a b : AnomalySeverity} (same : a.rank = b.rank) : a = b := by
  cases a <;> cases b <;> first | rfl | cases same

theorem text_inj {a b : AnomalySeverity} (same : a.text = b.text) : a = b := by
  apply rank_inj
  have less := (text_le_iff a b).mp same.le
  have more := (text_le_iff b a).mp same.ge
  omega

end AnomalySeverity

structure Timestamp where
  text : String
  plain : '_' ∉ text.toList ∧ '/' ∉ text.toList
  deriving DecidableEq, Repr

/-- A call of `record_anomaly`, with the two readings of the clock. -/
structure AnomalyCall where
  contractName : String
  anomalyType : String
  severity : AnomalySeverity
  description : String
  affectedRows : Int := 0
  now : String := ""
  timestamp : Timestamp
  deriving DecidableEq, Repr

structure AnomalyPost where
  contractName : String
  anomalyType : String
  severity : String
  affectedRows : Int
  timestamp : String
  content : String
  deriving DecidableEq, Repr

structure RecurringAnomaly where
  anomalyType : String
  occurrences : Nat
  severity : String
  totalAffectedRows : Int
  deriving DecidableEq, Repr

namespace AnomalyPattern

def anomalyContent (call : AnomalyCall) : String :=
  s!"# Anomaly Detection\n\n**Contract:** {call.contractName}\n**Type:** {call.anomalyType}\n" ++
    s!"**Severity:** {call.severity.text}\n**Affected Rows:** {call.affectedRows}\n\n" ++
    s!"## Description\n{call.description}\n"

def anomalyPost (call : AnomalyCall) : AnomalyPost where
  contractName := call.contractName
  anomalyType := call.anomalyType
  severity := call.severity.text
  affectedRows := call.affectedRows
  timestamp := call.now
  content := anomalyContent call

def anomalyFile (call : AnomalyCall) : String :=
  s!"{call.contractName}_{call.anomalyType}_{call.timestamp.text}.md"

def recordAnomaly (fs : FileSystem AnomalyPost) (anomalies : Files AnomalyPost) (call : AnomalyCall) :
    Except OkfError (Files AnomalyPost) :=
  writeText fs anomalies (anomalyFile call) (anomalyPost call)

def anomalyPattern (contractName : String) : String := s!"{contractName}_*.md"

def summary (group : String × List AnomalyPost) : RecurringAnomaly where
  anomalyType := group.1
  occurrences := group.2.length
  severity := (group.2.map (·.severity)).max?.getD ""
  totalAffectedRows := (group.2.map (·.affectedRows)).sum

/-- The listing of the recurring anomalies among the documents that were found. -/
def recurring (posts : List AnomalyPost) (minOccurrences : Int) : List RecurringAnomaly :=
  let groups := (Grouping.groups (·.anomalyType) posts).filter
    (fun group => decide (minOccurrences ≤ group.2.length))
  (groups.map summary).mergeSort (fun a b => decide (b.occurrences ≤ a.occurrences))

def getRecurringAnomalies (fs : FileSystem AnomalyPost) (order : ListingOrder)
    (anomalies : Files AnomalyPost) (contractName : String) (minOccurrences : Int := 2) :
    Except OkfError (List RecurringAnomaly) := do
  let found ← glob fs order anomalies (anomalyPattern contractName)
  return recurring (found.map Prod.snd) minOccurrences

def afterCall (fs : FileSystem AnomalyPost) (anomalies : Files AnomalyPost) (call : AnomalyCall) :
    Files AnomalyPost :=
  (recordAnomaly fs anomalies call).toOption.getD anomalies

structure AnomalyRun where
  calls : List AnomalyCall
  apart : (calls.map (fun call => call.timestamp.text)).Nodup

def afterCalls (fs : FileSystem AnomalyPost) (run : AnomalyRun) : Files AnomalyPost :=
  run.calls.foldl (afterCall fs) ∅

def recorded (fs : FileSystem AnomalyPost) (run : AnomalyRun) : List AnomalyCall :=
  run.calls.filter (fun call => fs.target (anomalyFile call) ≠ .refused)

/-- The anomalies of a type of exactly this contract. -/
def own (history : List AnomalyCall) (contractName anomalyType : String) : List AnomalyCall :=
  history.filter (fun call =>
    decide (call.contractName = contractName ∧ call.anomalyType = anomalyType))

def found (fs : FileSystem AnomalyPost) (contractName : String) (call : AnomalyCall) : Bool :=
  match fs.target (anomalyFile call) with
  | .below path => Glob.fnmatch (RelativePath.collapse (anomalyPattern contractName)) path
  | _ => false

def foundOf (fs : FileSystem AnomalyPost) (history : List AnomalyCall)
    (contractName anomalyType : String) : List AnomalyCall :=
  history.filter (fun call =>
    found fs contractName call && decide (call.anomalyType = anomalyType))

def Recurs (minOccurrences : Int) (group : List AnomalyCall) : Prop :=
  group ≠ [] ∧ minOccurrences ≤ group.length

/-- The text is that of the most severe severity in the group. -/
def IsWorst (group : List AnomalyCall) (text : String) : Prop :=
  ∃ worst ∈ group.map (·.severity), worst.text = text ∧
    ∀ call ∈ group, call.severity.rank ≤ worst.rank

def OneSeverity (group : List AnomalyCall) : Prop :=
  ∀ call ∈ group, ∀ other ∈ group, call.severity = other.severity

/-- The recurring anomalies of a contract, each once and with its exact figures, most frequent
    first. -/
structure CountsRecurring (history : List AnomalyCall) (contractName : String)
    (minOccurrences : Int) (listed : List RecurringAnomaly) : Prop where
  exactly : ∀ anomalyType, anomalyType ∈ listed.map (·.anomalyType) ↔
    Recurs minOccurrences (own history contractName anomalyType)
  once : (listed.map (·.anomalyType)).Nodup
  occurrences : ∀ entry ∈ listed,
    entry.occurrences = (own history contractName entry.anomalyType).length
  affectedRows : ∀ entry ∈ listed, entry.totalAffectedRows =
    ((own history contractName entry.anomalyType).map (·.affectedRows)).sum
  severity : ∀ entry ∈ listed,
    IsWorst (own history contractName entry.anomalyType) entry.severity
  sorted : listed.Pairwise (fun entry later => later.occurrences ≤ entry.occurrences)

/-- The contract's pattern stays in the directory, and of each type that recurs it finds just the
    contract's own anomalies, which are all of one severity. -/
structure Undisturbed (fs : FileSystem AnomalyPost) (history : List AnomalyCall)
    (contractName : String) (minOccurrences : Int) : Prop where
  level : Level (anomalyPattern contractName)
  agree : ∀ anomalyType, Recurs minOccurrences (foundOf fs history contractName anomalyType) ∨
      Recurs minOccurrences (own history contractName anomalyType) →
    foundOf fs history contractName anomalyType = own history contractName anomalyType ∧
      OneSeverity (own history contractName anomalyType)

structure FindsOwn (fs : FileSystem AnomalyPost) (history : List AnomalyCall)
    (contractName : String) : Prop where
  level : Level (anomalyPattern contractName)
  finds : ∀ call ∈ history, call.contractName = contractName → found fs contractName call = true

theorem anomalyPattern_toList (contractName : String) : (anomalyPattern contractName).toList =
    (contractName.toList ++ ['_']) ++ '*' :: ".md".toList := by
  simp [anomalyPattern, toString]

theorem anomalyFile_toList (call : AnomalyCall) : (anomalyFile call).toList =
    (call.contractName.toList ++ '_' :: call.anomalyType.toList) ++
      '_' :: (call.timestamp.text.toList ++ ".md".toList) := by
  simp [anomalyFile, toString]

theorem level_anomalyPattern {contractName : String} (plain : Glob.Plain contractName.toList)
    (flat : '/' ∉ contractName.toList) : Level (anomalyPattern contractName) := by
  have star : '*' ∈ (anomalyPattern contractName).toList := by
    simp [anomalyPattern_toList]
  apply level_single
  · rw [anomalyPattern_toList]
    simpa using flat
  · exact List.ne_nil_of_mem star
  · intro same
    exact absurd (same ▸ star) (by decide)
  · intro same
    exact absurd (same ▸ star) (by decide)
  · intro stars
    have none_ : contractName.toList.count '*' = 0 :=
      List.count_eq_zero.mpr (fun inside => (plain '*' inside).1 rfl)
    have two : 2 ≤ (anomalyPattern contractName).toList.count '*' := stars.sublist.count_le '*'
    rw [anomalyPattern_toList, List.count_append, List.count_append, none_] at two
    exact absurd two (by decide)

theorem target_anomalyFile {fs : FileSystem AnomalyPost} {call : AnomalyCall}
    (flat : '/' ∉ (anomalyFile call).toList) (kept : fs.target (anomalyFile call) ≠ .refused) :
    fs.target (anomalyFile call) = .below (anomalyFile call) := by
  have named : '_' ∈ (anomalyFile call).toList := by
    simp [anomalyFile_toList]
  have dot : (anomalyFile call).toList ≠ ['.'] := fun same => absurd (same ▸ named) (by decide)
  have climb : (anomalyFile call).toList ≠ ['.', '.'] :=
    fun same => absurd (same ▸ named) (by decide)
  have descends : RelativePath.Descends (anomalyFile call) := by
    refine ⟨fun root => flat (List.mem_of_head? root), ?_⟩
    rw [RelativePath.parts_single flat (List.ne_nil_of_mem named) dot, List.mem_singleton]
    exact climb.symm
  have collapsed := RelativePath.collapse_single flat (List.ne_nil_of_mem named) dot
  have either := fs.descends _ descends
  rw [collapsed] at either
  exact either.resolve_right kept

theorem collapse_anomalyPattern {contractName : String} (flat : '/' ∉ contractName.toList) :
    RelativePath.collapse (anomalyPattern contractName) = anomalyPattern contractName := by
  have star : '*' ∈ (anomalyPattern contractName).toList := by
    simp [anomalyPattern_toList]
  apply RelativePath.collapse_single
  · rw [anomalyPattern_toList]
    simpa using flat
  · exact List.ne_nil_of_mem star
  · intro same
    exact absurd (same ▸ star) (by decide)

/-- A contract whose name is one path component without the characters of a pattern is found, if
    the names of its files are too. -/
theorem findsOwn_of_plain (fs : FileSystem AnomalyPost) (run : AnomalyRun) (contractName : String)
    (plain : Glob.Plain contractName.toList) (flat : '/' ∉ contractName.toList)
    (files : ∀ call ∈ recorded fs run, '/' ∉ (anomalyFile call).toList) :
    FindsOwn fs (recorded fs run) contractName := by
  have level := level_anomalyPattern plain flat
  have first : Glob.Plain (contractName.toList ++ ['_']) := by
    intro c inside
    rcases List.mem_append.mp inside with early | late
    · exact plain c early
    · rw [List.mem_singleton.mp late]
      decide
  refine ⟨level, ?_⟩
  intro call member mine
  have kept := of_decide_eq_true (List.mem_filter.mp member).2
  rw [found, target_anomalyFile (files call member) kept]
  change Glob.fnmatch (RelativePath.collapse (anomalyPattern contractName)) _ = true
  rw [collapse_anomalyPattern flat, Glob.fnmatch_star_iff _ _ _ _ (anomalyPattern_toList contractName) first plain_suffix]
  refine ⟨call.anomalyType.toList ++ '_' :: call.timestamp.text.toList, ?_, ?_⟩
  · rw [anomalyFile_toList, ← mine]
    simp
  · intro c inside slash
    apply files call member
    rw [anomalyFile_toList, ← slash]
    rcases List.mem_append.mp inside with early | late
    · simp [early]
    · rcases List.mem_cons.mp late with rfl | late
      · simp
      · simp [late]

section Recurring

variable (fs : FileSystem AnomalyPost) (order : ListingOrder) (run : AnomalyRun)
  (contractName : String) (minOccurrences : Int)

theorem timestamp_of_target {call other : AnomalyCall} {path : String}
    (leads : fs.target (anomalyFile call) = .below path)
    (also : fs.target (anomalyFile other) = .below path) :
    call.timestamp.text = other.timestamp.text := by
  have ending : ∀ time : Timestamp, '_' ∉ time.text.toList ++ ".md".toList := by
    intro time inside
    rcases List.mem_append.mp inside with early | late
    · exact time.plain.1 early
    · revert late
      decide
  have last : ∀ call : AnomalyCall, fs.target (anomalyFile call) = .below path →
      ∃ front, (RelativePath.parts path.toList).getLast? =
        some (front ++ '_' :: (call.timestamp.text.toList ++ ".md".toList)) := by
    intro call leads
    rw [fs.last _ _ leads, anomalyFile_toList]
    apply RelativePath.getLast_parts_append
    · intro inside
      rcases List.mem_cons.mp inside with underscore | inside
      · exact absurd underscore (by decide)
      · rcases List.mem_append.mp inside with early | late
        · exact call.timestamp.plain.2 early
        · revert late
          decide
    · exact List.cons_ne_nil _ _
    · rw [List.getLast?_cons, List.getLast?_append_of_ne_nil _ (by decide)]
      decide
  obtain ⟨front, here⟩ := last call leads
  obtain ⟨front', there⟩ := last other also
  rw [here] at there
  have ends := (LineText.append_cons_inj_last '_' (ending _) (ending _) (Option.some.inj there)).2
  exact String.toList_inj.mp (List.append_cancel_right ends)

def entryFor (call : AnomalyCall) : Option (String × AnomalyPost) :=
  entryAt fs (anomalyFile call) (anomalyPost call)

theorem afterCalls_eq :
    afterCalls fs run = written ((recorded fs run).filterMap (entryFor fs)) :=
  foldl_writeText fs anomalyFile anomalyPost run.calls

theorem nodup_entries : (((recorded fs run).filterMap (entryFor fs)).map Prod.fst).Nodup := by
  have times : ((recorded fs run).map (fun call => call.timestamp.text)).Nodup :=
    run.apart.sublist (List.filter_sublist.map _)
  rw [List.Nodup, List.pairwise_map, List.pairwise_filterMap]
  apply (List.pairwise_map.mp times).imp
  intro call other apart ⟨path, post⟩ made ⟨path', post'⟩ made' same
  obtain ⟨leads, _⟩ := entryAt_eq_some.mp made
  obtain ⟨also, _⟩ := entryAt_eq_some.mp made'
  change path = path' at same
  exact apart (timestamp_of_target fs leads (same ▸ also))

theorem posts_found (history : List AnomalyCall) :
    ((history.filterMap (entryFor fs)).filter (fun entry =>
        Glob.fnmatch (RelativePath.collapse (anomalyPattern contractName)) entry.1)).map Prod.snd =
      (history.filter (found fs contractName)).map anomalyPost := by
  induction history with
  | nil => rfl
  | cons call rest ih =>
    cases leads : fs.target (anomalyFile call) with
    | below path =>
      have made : entryFor fs call = some (path, anomalyPost call) :=
        entryAt_eq_some.mpr ⟨leads, rfl⟩
      have same : found fs contractName call =
          Glob.fnmatch (RelativePath.collapse (anomalyPattern contractName)) path := by
        rw [found, leads]
      rw [List.filterMap_cons_some made, List.filter_cons, List.filter_cons, same]
      split
      · rw [List.map_cons, List.map_cons, ih]
      · exact ih
    | outside =>
      have away : entryFor fs call = none := by rw [entryFor, entryAt, leads]
      have lost : found fs contractName call = false := by rw [found, leads]
      rw [List.filterMap_cons_none away, List.filter_cons_of_neg (by simp [lost])]
      exact ih
    | refused =>
      have away : entryFor fs call = none := by rw [entryFor, entryAt, leads]
      have lost : found fs contractName call = false := by rw [found, leads]
      rw [List.filterMap_cons_none away, List.filter_cons_of_neg (by simp [lost])]
      exact ih

def posts : List AnomalyPost :=
  (listing order (afterCalls fs run)
    (RelativePath.collapse (anomalyPattern contractName))).map Prod.snd

theorem posts_perm : (posts fs order run contractName).Perm
    (((recorded fs run).filter (found fs contractName)).map anomalyPost) := by
  rw [posts, afterCalls_eq, ← posts_found]
  exact (listing_written_perm order _ (nodup_entries fs run)).map Prod.snd

theorem getRecurringAnomalies_level (level : Level (anomalyPattern contractName)) :
    getRecurringAnomalies fs order (afterCalls fs run) contractName minOccurrences =
      .ok (recurring (posts fs order run contractName) minOccurrences) := by
  rw [getRecurringAnomalies, glob_level fs order _ level]
  rfl

theorem summary_perm {anomalyType : String} {group group' : List AnomalyPost}
    (same : group.Perm group') : summary (anomalyType, group) = summary (anomalyType, group') := by
  have worst : (group.map (·.severity)).max? = (group'.map (·.severity)).max? := by
    apply Option.ext
    intro text
    rw [List.max?_eq_some_iff, List.max?_eq_some_iff]
    simp only [(same.map (·.severity)).mem_iff]
  unfold summary
  rw [worst, same.length_eq, (same.map (·.affectedRows)).sum_eq]

def listedFor (history : List AnomalyCall) (contractName anomalyType : String) :
    RecurringAnomaly :=
  summary (anomalyType, (foundOf fs history contractName anomalyType).map anomalyPost)

theorem group_perm (anomalyType : String) :
    ((posts fs order run contractName).filter (fun post => post.anomalyType = anomalyType)).Perm
      ((foundOf fs (recorded fs run) contractName anomalyType).map anomalyPost) := by
  have kept := (posts_perm fs order run contractName).filter
    (fun post => post.anomalyType = anomalyType)
  apply kept.trans
  rw [List.filter_map, List.filter_filter]
  apply List.Perm.of_eq
  congr 2
  funext call
  exact Bool.and_comm ..

/-- A type is listed exactly if enough files of it are found, with the figures of these. -/
theorem mem_recurring (entry : RecurringAnomaly) :
    entry ∈ recurring (posts fs order run contractName) minOccurrences ↔
      Recurs minOccurrences (foundOf fs (recorded fs run) contractName entry.anomalyType) ∧
        entry = listedFor fs (recorded fs run) contractName entry.anomalyType := by
  rw [recurring, (List.mergeSort_perm _ _).mem_iff, List.mem_map]
  simp only [List.mem_filter, decide_eq_true_eq, Prod.exists, Grouping.mem_groups]
  constructor
  · intro ⟨anomalyType, group, ⟨⟨whole, some_⟩, enough⟩, made⟩
    have same := group_perm fs order run contractName anomalyType
    rw [← whole] at same
    subst made
    refine ⟨⟨?_, ?_⟩, summary_perm same⟩
    · intro nothing
      change foundOf _ _ _ anomalyType = [] at nothing
      rw [nothing] at same
      exact some_ same.eq_nil
    · have count := same.length_eq
      rw [List.length_map] at count
      change minOccurrences ≤ (foundOf _ _ _ anomalyType).length
      rw [← count]
      exact enough
  · intro ⟨⟨some_, enough⟩, made⟩
    have same := group_perm fs order run contractName entry.anomalyType
    refine ⟨entry.anomalyType, _, ⟨⟨rfl, ?_⟩, ?_⟩, (summary_perm same).trans made.symm⟩
    · intro nothing
      rw [nothing] at same
      exact some_ (List.map_eq_nil_iff.mp same.symm.eq_nil)
    · rw [same.length_eq, List.length_map]
      exact enough

theorem nodup_types :
    ((recurring (posts fs order run contractName) minOccurrences).map
      (·.anomalyType)).Nodup := by
  rw [recurring, ((List.mergeSort_perm _ _).map _).nodup_iff, List.map_map]
  exact (Grouping.nodup_groups _ _).sublist (List.filter_sublist.map _)

theorem sorted_occurrences :
    (recurring (posts fs order run contractName) minOccurrences).Pairwise
      (fun entry later => later.occurrences ≤ entry.occurrences) :=
  Descending.sort_sorted RecurringAnomaly.occurrences _

theorem mem_types_iff (anomalyType : String) :
    anomalyType ∈ (recurring (posts fs order run contractName) minOccurrences).map
        (·.anomalyType) ↔
      Recurs minOccurrences (foundOf fs (recorded fs run) contractName anomalyType) := by
  rw [List.mem_map]
  constructor
  · intro ⟨entry, listed, same⟩
    subst same
    exact ((mem_recurring ..).mp listed).1
  · intro enough
    exact ⟨listedFor fs (recorded fs run) contractName anomalyType,
      (mem_recurring ..).mpr ⟨enough, rfl⟩, rfl⟩

end Recurring

section Listed

variable (fs : FileSystem AnomalyPost) (history : List AnomalyCall) (contractName anomalyType : String)

theorem listedFor_occurrences : (listedFor fs history contractName anomalyType).occurrences =
    (foundOf fs history contractName anomalyType).length :=
  List.length_map _

theorem listedFor_affectedRows : (listedFor fs history contractName anomalyType).totalAffectedRows =
    ((foundOf fs history contractName anomalyType).map (·.affectedRows)).sum := by
  change (((foundOf fs history contractName anomalyType).map anomalyPost).map
    (·.affectedRows)).sum = _
  rw [List.map_map]
  rfl

theorem listedFor_severity (some_ : foundOf fs history contractName anomalyType ≠ []) :
    ∃ least ∈ (foundOf fs history contractName anomalyType).map (·.severity),
      least.text = (listedFor fs history contractName anomalyType).severity ∧
        ∀ call ∈ foundOf fs history contractName anomalyType, least.rank ≤ call.severity.rank := by
  rw [listedFor, summary, List.map_map]
  generalize foundOf fs history contractName anomalyType = group at some_ ⊢
  cases largest : (group.map ((·.severity) ∘ anomalyPost)).max? with
  | none => exact absurd (List.map_eq_nil_iff.mp (List.max?_eq_none_iff.mp largest)) some_
  | some text =>
    obtain ⟨inside, above⟩ := List.max?_eq_some_iff.mp largest
    obtain ⟨call, member, made⟩ := List.mem_map.mp inside
    refine ⟨call.severity, List.mem_map_of_mem member, made, ?_⟩
    intro other also
    apply (AnomalySeverity.text_le_iff _ _).mp
    change _ ≤ (anomalyPost call).severity
    rw [← Function.comp_apply (f := AnomalyPost.severity), made]
    exact above _ (List.mem_map_of_mem also)

/-- The least severe severity is the most severe just if there is only one. -/
theorem isWorst_iff (some_ : foundOf fs history contractName anomalyType ≠ []) :
    IsWorst (foundOf fs history contractName anomalyType)
        (listedFor fs history contractName anomalyType).severity ↔
      OneSeverity (foundOf fs history contractName anomalyType) := by
  obtain ⟨least, inside, text, below⟩ := listedFor_severity fs history contractName anomalyType some_
  rw [← text]
  constructor
  · intro ⟨worst, _, same, above⟩ call member other also
    have equal := AnomalySeverity.text_inj same
    subst equal
    apply AnomalySeverity.rank_inj
    have first := below call member
    have second := above call member
    have third := below other also
    have fourth := above other also
    omega
  · intro one
    obtain ⟨call, member, made⟩ := List.mem_map.mp inside
    refine ⟨least, inside, rfl, ?_⟩
    intro other also
    rw [← made, one call member other also]

end Listed

theorem own_sublist (fs : FileSystem AnomalyPost) (history : List AnomalyCall)
    (contractName anomalyType : String) (own_ : FindsOwn fs history contractName) :
    (own history contractName anomalyType).Sublist
      (foundOf fs history contractName anomalyType) := by
  have within : own history contractName anomalyType =
      (foundOf fs history contractName anomalyType).filter
        (fun call => decide (call.contractName = contractName)) := by
    rw [own, foundOf, List.filter_filter]
    apply List.filter_congr
    intro call member
    by_cases mine : call.contractName = contractName
    · simp [mine, own_.finds call member mine]
    · simp [mine]
  rw [within]
  exact List.filter_sublist

section Recurring

variable (fs : FileSystem AnomalyPost) (order : ListingOrder) (run : AnomalyRun)
  (contractName : String) (minOccurrences : Int)

theorem countsRecurring_undisturbed
    (undisturbed : Undisturbed fs (recorded fs run) contractName minOccurrences) :
    CountsRecurring (recorded fs run) contractName minOccurrences
      (recurring (posts fs order run contractName) minOccurrences) := by
  have figures : ∀ entry ∈ recurring (posts fs order run contractName) minOccurrences,
      foundOf fs (recorded fs run) contractName entry.anomalyType ≠ [] ∧
        entry = listedFor fs (recorded fs run) contractName entry.anomalyType ∧
        foundOf fs (recorded fs run) contractName entry.anomalyType =
          own (recorded fs run) contractName entry.anomalyType ∧
        OneSeverity (foundOf fs (recorded fs run) contractName entry.anomalyType) := by
    intro entry listed
    obtain ⟨enough, made⟩ := (mem_recurring ..).mp listed
    obtain ⟨same, one⟩ := undisturbed.agree entry.anomalyType (.inl enough)
    exact ⟨enough.1, made, same, same ▸ one⟩
  exact
    { exactly := by
        intro anomalyType
        rw [mem_types_iff]
        constructor
        · intro enough
          rw [← (undisturbed.agree anomalyType (.inl enough)).1]
          exact enough
        · intro enough
          rw [(undisturbed.agree anomalyType (.inr enough)).1]
          exact enough
      once := nodup_types fs order run contractName minOccurrences
      occurrences := by
        intro entry listed
        obtain ⟨_, made, same, _⟩ := figures entry listed
        rw [← same, ← listedFor_occurrences, ← made]
      affectedRows := by
        intro entry listed
        obtain ⟨_, made, same, _⟩ := figures entry listed
        rw [← same, ← listedFor_affectedRows, ← made]
      severity := by
        intro entry listed
        obtain ⟨some_, made, same, one⟩ := figures entry listed
        have worst := (isWorst_iff _ _ _ _ some_).mpr one
        rw [← made, same] at worst
        exact worst
      sorted := sorted_occurrences fs order run contractName minOccurrences }

theorem undisturbed_of_countsRecurring (own_ : FindsOwn fs (recorded fs run) contractName)
    (counts : CountsRecurring (recorded fs run) contractName minOccurrences
      (recurring (posts fs order run contractName) minOccurrences)) :
    Undisturbed fs (recorded fs run) contractName minOccurrences := by
  refine ⟨own_.level, ?_⟩
  intro anomalyType either
  have enough :
      Recurs minOccurrences (foundOf fs (recorded fs run) contractName anomalyType) := by
    apply either.elim id
    intro mine
    exact (mem_types_iff fs order ..).mp ((counts.exactly anomalyType).mpr mine)
  have listed := (mem_recurring fs order run contractName minOccurrences
    (listedFor fs (recorded fs run) contractName anomalyType)).mpr ⟨enough, rfl⟩
  have count := counts.occurrences _ listed
  rw [listedFor_occurrences] at count
  have same : own (recorded fs run) contractName anomalyType =
      foundOf fs (recorded fs run) contractName anomalyType :=
    (own_sublist _ _ _ _ own_).eq_of_length count.symm
  refine ⟨same.symm, ?_⟩
  have worst := counts.severity _ listed
  change IsWorst (own _ _ anomalyType) _ at worst
  rw [same] at worst ⊢
  exact (isWorst_iff _ _ _ _ enough.1).mp worst

/-- An undisturbed contract has its recurring anomalies listed, and no other whose own files the
    pattern finds. -/
theorem recurringAnomalies_counted :
    (Undisturbed fs (recorded fs run) contractName minOccurrences →
        ∃ listed, getRecurringAnomalies fs order (afterCalls fs run) contractName minOccurrences =
            .ok listed ∧
          CountsRecurring (recorded fs run) contractName minOccurrences listed) ∧
      (FindsOwn fs (recorded fs run) contractName →
        (∃ listed, getRecurringAnomalies fs order (afterCalls fs run) contractName minOccurrences =
            .ok listed ∧
          CountsRecurring (recorded fs run) contractName minOccurrences listed) →
        Undisturbed fs (recorded fs run) contractName minOccurrences) := by
  constructor
  · intro undisturbed
    exact ⟨_, getRecurringAnomalies_level fs order run contractName minOccurrences
      undisturbed.level, countsRecurring_undisturbed fs order run contractName minOccurrences
      undisturbed⟩
  · intro own_ ⟨listed, answered, counts⟩
    rw [getRecurringAnomalies_level fs order run contractName minOccurrences own_.level] at answered
    cases answered
    exact undisturbed_of_countsRecurring fs order run contractName minOccurrences own_ counts

end Recurring

/-- A warning and a critical anomaly of one type are listed as a warning. -/
theorem recurringAnomalies_least_severe :
    ¬ ∃ listed, getRecurringAnomalies (flatFileSystem _) ⟨id, fun _ => .refl _⟩
        (afterCalls (flatFileSystem _)
          ⟨[⟨"customers", "drift", .warning, "", 1, "", ⟨"1.0", by decide⟩⟩,
            ⟨"customers", "drift", .critical, "", 2, "", ⟨"2.0", by decide⟩⟩], by decide⟩)
        "customers" = .ok listed ∧
      CountsRecurring
        (recorded (flatFileSystem _)
          ⟨[⟨"customers", "drift", .warning, "", 1, "", ⟨"1.0", by decide⟩⟩,
            ⟨"customers", "drift", .critical, "", 2, "", ⟨"2.0", by decide⟩⟩], by decide⟩)
        "customers" 2 listed := by
  intro ⟨listed, answered, counts⟩
  have answer : getRecurringAnomalies (flatFileSystem _) ⟨id, fun _ => .refl _⟩
      (afterCalls (flatFileSystem _)
        ⟨[⟨"customers", "drift", .warning, "", 1, "", ⟨"1.0", by decide⟩⟩,
          ⟨"customers", "drift", .critical, "", 2, "", ⟨"2.0", by decide⟩⟩], by decide⟩)
      "customers" = .ok [⟨"drift", 2, "warning", 3⟩] := by
    decide +kernel
  rw [answer] at answered
  cases answered
  obtain ⟨worst, _, text, above⟩ := counts.severity _ (List.mem_cons_self ..)
  have kept : (⟨"customers", "drift", .critical, "", 2, "", ⟨"2.0", by decide⟩⟩ : AnomalyCall) ∈
      own (recorded (flatFileSystem _)
        ⟨[⟨"customers", "drift", .warning, "", 1, "", ⟨"1.0", by decide⟩⟩,
          ⟨"customers", "drift", .critical, "", 2, "", ⟨"2.0", by decide⟩⟩], by decide⟩)
        "customers" "drift" := by
    decide +kernel
  have high := above _ kept
  cases worst with
  | critical => exact absurd text (by decide)
  | error => exact absurd text (by decide)
  | warning => exact absurd high (by decide)

end AnomalyPattern

end StatGuardian.Py.Okf
