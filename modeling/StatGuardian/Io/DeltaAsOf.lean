import StatGuardian.Io.DeltaRefusal
import StatGuardian.Stream.Agent

namespace StatGuardian.Io

open StatGuardian.Stream

def field (value : Value) (key : String) : Option Value :=
  match value with
  | .object fields => fields.lookup key
  | _ => none

namespace DeltaReader

/-- `serde_json::from_str::<Value>`, without the text of its error. -/
abbrev ReadsJson := String → Option Value

variable (fromStr : ReadsJson)

def lineTimestamp (line : String) : Option Int := do
  let v ← fromStr line
  let info ← field v "commitInfo"
  let timestamp ← field info "timestamp"
  timestamp.asI64

/-- A file that cannot be read counts as empty. -/
def commitTimestamp (entry : DirEntry) : Option Int :=
  (Text.lines (entry.content.toOption.getD "")).findSome? (lineTimestamp fromStr)

def bestVersion (timestampMs : Int) (best : Nat) : List (Nat × DirEntry) → Nat
  | [] => best
  | (ver, entry) :: rest =>
    match commitTimestamp fromStr entry with
    | some ts => if ts ≤ timestampMs then bestVersion timestampMs ver rest else best
    | none => bestVersion timestampMs ver rest

def findVersionForTimestamp (logDir : LogDir) (timestampMs : Int) : Except IoError Nat :=
  match logDir.readDir with
  | .error msg => .error (.io msg)
  | .ok listing => .ok (bestVersion fromStr timestampMs 0 (commitFiles listing))

section AsOf

variable (timestampMs : Int)

def later (commit : Nat × DirEntry) : Bool :=
  (commitTimestamp fromStr commit.2).any (timestampMs < ·)

def upTo (logDir : LogDir) : List (Nat × DirEntry) :=
  (commits logDir).takeWhile (fun commit => ! later fromStr timestampMs commit)

/-- The version of the last commit before the first later one, which no later commit has, or an
    error where every timestamp is later. -/
def AsOf (logDir : LogDir) : Except IoError Nat → Prop
  | .ok version =>
    (∃ commit ∈ upTo fromStr timestampMs logDir, commit.1 = version) ∧
      (∀ commit ∈ upTo fromStr timestampMs logDir, commit.1 ≤ version) ∧
      ∀ commit ∈ commits logDir, commit.1 = version → later fromStr timestampMs commit = false
  | .error _ => ∀ commit ∈ commits logDir, ∀ ts,
      commitTimestamp fromStr commit.2 = some ts → timestampMs < ts

/-- The log starts with a commit that is not later, and the number of the last one before the
    first later one is its own. -/
def StartsBefore (logDir : LogDir) : Prop :=
  ∃ last, (upTo fromStr timestampMs logDir).getLast? = some last ∧
    ∀ commit ∈ commits logDir, commit.1 = last.1 → later fromStr timestampMs commit = false

variable {timestampMs}

theorem bestVersion_cons (best : Nat) (commit : Nat × DirEntry) (rest : List (Nat × DirEntry)) :
    bestVersion fromStr timestampMs best (commit :: rest) =
      if later fromStr timestampMs commit then best
      else bestVersion fromStr timestampMs commit.1 rest := by
  rw [bestVersion, later]
  cases commitTimestamp fromStr commit.2 with
  | none => rfl
  | some ts =>
    by_cases reached : ts ≤ timestampMs
    · simp [reached, Int.not_lt.mpr reached]
    · simp [reached, Int.not_le.mp reached]

theorem bestVersion_eq (best : Nat) (commits : List (Nat × DirEntry)) :
    bestVersion fromStr timestampMs best commits =
      ((commits.takeWhile fun commit => ! later fromStr timestampMs commit).getLast?.map
        Prod.fst).getD best := by
  induction commits generalizing best with
  | nil => rfl
  | cons commit rest ih =>
    rw [bestVersion_cons, List.takeWhile_cons]
    cases later fromStr timestampMs commit with
    | true => rfl
    | false =>
      simp only [Bool.not_false, ↓reduceIte, Bool.false_eq_true, List.getLast?_cons,
        Option.map_some, Option.getD_some]
      rw [ih, Option.getD_map]

theorem commits_sorted (logDir : LogDir) :
    (commits logDir).Pairwise (fun a b => a.1 ≤ b.1) := by
  unfold commits
  cases logDir.readDir with
  | error => exact List.Pairwise.nil
  | ok listing => exact commitFiles_sorted listing

theorem le_getLast {commits : List (Nat × DirEntry)} {last : Nat × DirEntry}
    (sorted : commits.Pairwise (fun a b => a.1 ≤ b.1)) (found : commits.getLast? = some last) :
    ∀ commit ∈ commits, commit.1 ≤ last.1 := by
  obtain ⟨init, rfl⟩ := List.getLast?_eq_some_iff.mp found
  intro commit member
  rcases List.mem_append.mp member with before | here
  · exact (List.pairwise_append.mp sorted).2.2 commit before last (List.mem_singleton_self _)
  · rw [List.mem_singleton.mp here]

/-- A reader that starts from version zero answers for the time asked just where the log itself
    starts before it. -/
theorem findVersionForTimestamp_asOf_iff (logDir : LogDir) :
    AsOf fromStr timestampMs logDir (findVersionForTimestamp fromStr logDir timestampMs) ↔
      (∃ msg, logDir.readDir = .error msg) ∨ StartsBefore fromStr timestampMs logDir := by
  cases listed : logDir.readDir with
  | error msg =>
    have none : commits logDir = [] := by
      rw [commits, listed]
      rfl
    refine iff_of_true ?_ (.inl ⟨msg, rfl⟩)
    simp only [findVersionForTimestamp, listed, AsOf, none]
    intro commit member
    cases member
  | ok listing =>
    have all : commits logDir = commitFiles listing := by
      rw [commits, listed]
      rfl
    have found : findVersionForTimestamp fromStr logDir timestampMs =
        .ok (((upTo fromStr timestampMs logDir).getLast?.map Prod.fst).getD 0) := by
      rw [upTo, all, ← bestVersion_eq]
      simp only [findVersionForTimestamp, listed]
    rw [found, or_iff_right (by simp)]
    unfold AsOf StartsBefore
    cases last : (upTo fromStr timestampMs logDir).getLast? with
    | none =>
      rw [List.getLast?_eq_none_iff] at last
      simp [last]
    | some commit =>
      have sorted := (commits_sorted logDir).sublist
        (List.takeWhile_sublist fun commit => ! later fromStr timestampMs commit)
      simp only [Option.map_some, Option.getD_some, Option.some.injEq, exists_eq_left']
      refine ⟨fun asOf => asOf.2.2, fun alone => ⟨?_, le_getLast sorted last, alone⟩⟩
      exact ⟨commit, List.mem_of_getLast? last, rfl⟩

end AsOf

section FirstCommit

def stamped : String := "\x7b\"commitInfo\":\x7b\"timestamp\":5\x7d\x7d"

def readStamped (line : String) : Option Value :=
  if line = stamped then
    some (.object [("commitInfo", .object [("timestamp", .number "5")])])
  else none

/-- Asked for three, the reader answers with the commit made at five. -/
theorem first_commit_later :
    ¬ AsOf readStamped 3 (single "00.json" stamped)
      (findVersionForTimestamp readStamped (single "00.json" stamped) 3) := by
  intro asOf
  obtain ⟨⟨commit, member, -⟩, -⟩ := asOf
  have zeroth : commitVersion "00.json" = some 0 := by decide +kernel
  have passed : later readStamped 3 (0, ⟨"00.json", "t/_delta_log", .ok stamped⟩) = true := by
    decide +kernel
  rw [upTo, commits_single zeroth, List.takeWhile_cons_of_neg (by rw [passed]; decide)] at member
  cases member

end FirstCommit

end DeltaReader

end StatGuardian.Io
