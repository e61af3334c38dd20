import StatGuardian.Io.DeltaReplay

namespace StatGuardian.Io

open KeyedValues Replay

namespace DeltaReader

variable {D : Type} (env : DeltaEnv D) (logDir : LogDir) (tablePath : String) (version : Nat)

def commits : List (Nat × DirEntry) := (logDir.readDir.toOption.map commitFiles).getD []

/-- What keeps the log from telling the state of the table at a version. The largest version stands
    for the last one there is. -/
inductive Damaged : Prop where
  | missing (absent : Nat) (within : absent ≤ version)
      (gap : ∀ commit ∈ commits logDir, commit.1 ≠ absent)
      (before : version = u64Max → ∃ commit ∈ commits logDir, absent < commit.1)
  | unparsable (commit : Nat × DirEntry) (member : commit ∈ retain version (commits logDir))
      (content : String) (read : commit.2.content = .ok content) (line : String)
      (there : line ∈ Text.lines content) (filled : (Text.trim line).isEmpty = false)
      (unknown : env.fromStr (Text.trim line) = none)
  | beyond (asked : version ≠ u64Max) (above : ∀ commit ∈ commits logDir, commit.1 < version)

/-- The files that the actions leave active, each under the raw path of its last add, in any order. -/
def ActiveFiles (tableRoot : String) (ops : List (Op String String)) (files : List String) : Prop :=
  ∃ raws : List String, raws.Nodup ∧
    (∀ raw, raw ∈ raws ↔ ∃ value, lastOn raw ops = some (.put raw value)) ∧
    files.Perm (raws.map (fullPath tableRoot))

inductive Refused : Prop where
  | noLog (absent : logDir.isThere = false)
  | notListed (msg : String) (failed : logDir.readDir = .error msg)
  | unread (commit : Nat × DirEntry) (member : commit ∈ retain version (commits logDir))
      (msg : String) (failed : commit.2.content = .error msg)
  | noFrame (fails : ∀ files,
      ActiveFiles tablePath (history env tablePath (retain version (commits logDir))) files →
        files = [] ∨ ∀ dfs, files.mapM env.readParquet = .ok dfs → ∃ e, vstackAll env dfs = .error e)

variable {env logDir tablePath version}

theorem readAndConcat_error_iff (files : List String) :
    (∃ e, readAndConcat env files = .error e) ↔
      ∀ dfs, files.mapM env.readParquet = .ok dfs → ∃ e, vstackAll env dfs = .error e := by
  rw [readAndConcat]
  cases files.mapM env.readParquet with
  | error e => exact ⟨fun _ _ read => (nomatch read), fun _ => ⟨e, rfl⟩⟩
  | ok dfs =>
    constructor
    · intro fails _ same
      cases same
      exact fails
    · exact fun fails => fails dfs rfl

theorem keys_activeFiles (tracked : List (Nat × DirEntry)) (files : List String) :
    ActiveFiles tablePath (history env tablePath tracked) files ↔
      files.Perm (values (replay (history env tablePath tracked))) := by
  set ops := history env tablePath tracked with actions
  have full : ∀ raw value, get (replay ops) raw = some value → value = fullPath tablePath raw := by
    intro raw value found
    have last := (get_replay_eq_some_iff ops raw value).mp found
    exact put_value env tablePath (actions ▸ (mem_of_lastWith last).1)
  have keys : (replay ops).keys.Nodup := (replay ops).nodupKeys
  have mem_keys : ∀ raw,
      raw ∈ (replay ops).keys ↔ ∃ value, lastOn raw ops = some (.put raw value) := by
    intro raw
    rw [← AList.mem_keys, ← AList.lookup_isSome, Option.isSome_iff_exists]
    exact exists_congr fun value => get_replay_eq_some_iff ops raw value
  have same : values (replay ops) = (replay ops).keys.map (fullPath tablePath) := by
    rw [values, AList.keys, List.keys, List.map_map]
    apply List.map_congr_left
    rintro ⟨raw, value⟩ member
    exact full raw value (AList.mem_lookup_iff.mpr member)
  rw [same]
  constructor
  · rintro ⟨raws, distinct, mem_raws, perm⟩
    have equal : raws.Perm (replay ops).keys := by
      rw [List.perm_ext_iff_of_nodup distinct keys]
      exact fun raw => (mem_raws raw).trans (mem_keys raw).symm
    exact perm.trans (equal.map _)
  · exact fun perm => ⟨_, keys, mem_keys, perm⟩

/-- A hash map may hand out its values in any order. -/
theorem exists_order {items arranged : List String} (perm : arranged.Perm items) :
    ∃ order : HashOrder, order.arrange items = arranged := by
  refine ⟨⟨fun values => if values = items then arranged else values, ?_⟩, if_pos rfl⟩
  intro values
  by_cases same : values = items
  · rw [if_pos same, same]
    exact perm
  · rw [if_neg same]

variable (env tablePath) in
theorem readVersion_listed {listing : List (Except String DirEntry)} (order : HashOrder)
    (present : logDir.isThere = true) (listed : logDir.readDir = .ok listing)
    (readable : ∀ commit ∈ retain version (commitFiles listing),
      ∃ content, commit.2.content = .ok content) :
    (∃ e, readVersion env order logDir tablePath (some version) = .error e) ↔
      order.arrange (values (replay (history env tablePath (retain version (commitFiles listing))))) = [] ∨
      ∃ e, readAndConcat env (order.arrange (values (replay
        (history env tablePath (retain version (commitFiles listing)))))) = .error e := by
  have resolved := resolveActiveFiles_ok env tablePath order listed (some version) readable
  rw [Option.getD_some] at resolved
  rw [readVersion, resolved, present]
  cases files : order.arrange (values (replay
    (history env tablePath (retain version (commitFiles listing))))) with
  | nil => exact ⟨fun _ => .inl rfl, fun _ => ⟨_, rfl⟩⟩
  | cons file rest =>
    constructor
    · exact fun fails => .inr fails
    · rintro (empty | fails)
      · cases empty
      · exact fails

theorem readVersion_unread {listing : List (Except String DirEntry)} (order : HashOrder)
    (present : logDir.isThere = true) (listed : logDir.readDir = .ok listing)
    {commit : Nat × DirEntry} (member : commit ∈ retain version (commitFiles listing)) {msg : String}
    (failed : commit.2.content = .error msg) :
    ∃ e, readVersion env order logDir tablePath (some version) = .error e := by
  obtain ⟨e, stopped⟩ := foldlM_replayCommit_error env tablePath member failed ∅
  rw [readVersion, present, resolveActiveFiles, listed]
  simp only [Option.getD_some, stopped]
  exact ⟨e, rfl⟩

/-- The reader returns an error, whatever the order of its map, exactly on what it refuses. -/
theorem readVersion_error_iff :
    (∀ order, ∃ e, readVersion env order logDir tablePath (some version) = .error e) ↔
      Refused env logDir tablePath version := by
  cases present : logDir.isThere with
  | false =>
    refine ⟨fun _ => .noLog present, fun _ order => ?_⟩
    rw [readVersion, present]
    exact ⟨_, rfl⟩
  | true =>
    cases listed : logDir.readDir with
    | error msg =>
      refine ⟨fun _ => .notListed msg listed, fun _ order => ?_⟩
      rw [readVersion, present, resolveActiveFiles, listed]
      exact ⟨_, rfl⟩
    | ok listing =>
      have held : commits logDir = commitFiles listing := by
        rw [commits, listed]
        rfl
      by_cases readable : ∀ commit ∈ retain version (commitFiles listing),
          ∃ content, commit.2.content = .ok content
      · have reads := fun order => readVersion_listed env tablePath order
          present listed readable
        constructor
        · intro refuses
          refine .noFrame fun files active => ?_
          rw [held, keys_activeFiles] at active
          obtain ⟨order, rfl⟩ := exists_order active
          exact ((reads order).mp (refuses order)).imp_right (readAndConcat_error_iff _).mp
        · intro refused order
          cases refused with
          | noLog absent => cases present.symm.trans absent
          | notListed msg failed => cases listed.symm.trans failed
          | unread commit member msg failed =>
            obtain ⟨content, read⟩ := readable commit (held ▸ member)
            cases read.symm.trans failed
          | noFrame fails =>
            rw [held] at fails
            exact (reads order).mpr ((fails _ ((keys_activeFiles _ _).mpr (order.perm _))).imp_right
              (readAndConcat_error_iff _).mpr)
      · obtain ⟨commit, member, msg, failed⟩ : ∃ commit ∈ retain version (commitFiles listing),
            ∃ msg, commit.2.content = .error msg := by
          push Not at readable
          obtain ⟨commit, member, unread⟩ := readable
          cases content : commit.2.content with
          | error msg => exact ⟨commit, member, msg, content⟩
          | ok text => exact absurd content (unread text)
        exact ⟨fun _ => .unread commit (held ▸ member) msg failed,
          fun _ order => readVersion_unread order present listed member failed⟩

/-- A damaged log is refused exactly if it is refused for what the reader does check. -/
theorem damaged_refused_iff :
    (∀ order, Damaged env logDir version →
      ∃ e, readVersion env order logDir tablePath (some version) = .error e) ↔
    (Damaged env logDir version → Refused env logDir tablePath version) := by
  rw [← readVersion_error_iff]
  exact ⟨fun refuses damaged order => refuses order damaged,
    fun refuses order damaged => refuses damaged order⟩

section SingleCommit

def single (name content : String) : LogDir :=
  ⟨"t/_delta_log", true, .ok [.ok ⟨name, "t/_delta_log", .ok content⟩]⟩

def partEnv : DeltaEnv (List String) where
  fromStr line := if line == adds "part-0.parquet" then some { add := some ⟨"part-0.parquet"⟩ } else none
  readParquet path := .ok [path]
  vstackMut acc df := .ok (acc ++ df)
  empty := []

def brokenOff : String := adds "part-0.parquet" ++ "\n\x7b\"add\":\x7b\"path\":"

theorem commits_single {name : String} {number : Nat} (named : commitVersion name = some number)
    (content : String) :
    commits (single name content) = [(number, ⟨name, "t/_delta_log", .ok content⟩)] := by
  have entries : numbered [.ok ⟨name, "t/_delta_log", .ok content⟩] =
      [(number, ⟨name, "t/_delta_log", .ok content⟩)] := by
    simp [numbered, Except.toOption, named]
  change commitFiles _ = _
  rw [commitFiles, entries, List.mergeSort_singleton]

theorem retain_single {name : String} {version number : Nat}
    (named : commitVersion name = some number) (within : number ≤ version) (content : String) :
    retain version (commits (single name content)) =
      [(number, ⟨name, "t/_delta_log", .ok content⟩)] := by
  rw [commits_single named]
  exact List.filter_cons_of_pos (decide_eq_true within)

theorem single_reads {name content : String} {version number : Nat}
    (named : commitVersion name = some number) (within : number ≤ version)
    (ops : contentOps partEnv "t" content = [.put "part-0.parquet" "t/part-0.parquet"]) :
    readVersion partEnv inPlace (single name content) "t" (some version) =
      .ok ["t/part-0.parquet"] := by
  have kept : retain ((some version).getD u64Max)
      (commitFiles [.ok ⟨name, "t/_delta_log", .ok content⟩]) =
      [(number, ⟨name, "t/_delta_log", .ok content⟩)] := retain_single named within content
  have listed : (single name content).readDir = .ok [.ok ⟨name, "t/_delta_log", .ok content⟩] := rfl
  have resolved := resolveActiveFiles_ok partEnv "t" inPlace listed (some version) <| by
      rw [kept]
      exact fun commit member => ⟨content, by rw [List.mem_singleton.mp member]⟩
  have actions : history partEnv "t" [(number, ⟨name, "t/_delta_log", .ok content⟩)] =
      [.put "part-0.parquet" "t/part-0.parquet"] := by
    rw [← ops]
    exact List.append_nil _
  rw [kept, actions] at resolved
  rw [readVersion, resolved]
  rfl

/-- The first part of the table is read for a commit that breaks off, for a version that is not
    there yet and for one whose predecessor is missing. -/
theorem damaged_reads :
    (Damaged partEnv (single "00.json" brokenOff) 0 ∧
      readVersion partEnv inPlace (single "00.json" brokenOff) "t" (some 0) = .ok ["t/part-0.parquet"]) ∧
    (Damaged partEnv (single "00.json" (adds "part-0.parquet")) 7 ∧
      readVersion partEnv inPlace (single "00.json" (adds "part-0.parquet")) "t" (some 7) =
        .ok ["t/part-0.parquet"]) ∧
    (Damaged partEnv (single "01.json" (adds "part-0.parquet")) 1 ∧
      readVersion partEnv inPlace (single "01.json" (adds "part-0.parquet")) "t" (some 1) =
        .ok ["t/part-0.parquet"]) := by
  have zeroth : commitVersion "00.json" = some 0 := by decide +kernel
  have first : commitVersion "01.json" = some 1 := by decide +kernel
  have added : contentOps partEnv "t" (adds "part-0.parquet") =
      [.put "part-0.parquet" "t/part-0.parquet"] := by decide +kernel
  have broken : contentOps partEnv "t" brokenOff = [.put "part-0.parquet" "t/part-0.parquet"] := by
    decide +kernel
  refine ⟨⟨.unparsable (0, ⟨"00.json", "t/_delta_log", .ok brokenOff⟩) ?_ brokenOff rfl
      "\x7b\"add\":\x7b\"path\":" ?_ ?_ ?_, single_reads zeroth (Nat.le_refl 0) broken⟩,
    ⟨.beyond (by decide) ?_, single_reads zeroth (Nat.zero_le 7) added⟩,
    ⟨.missing 0 (Nat.zero_le 1) ?_ ?_, single_reads first (Nat.le_refl 1) added⟩⟩
  · rw [retain_single zeroth (Nat.le_refl 0)]
    exact List.mem_singleton_self _
  · decide +kernel
  · decide +kernel
  · decide +kernel
  · rw [commits_single zeroth]
    exact fun commit member => by rw [List.mem_singleton.mp member]; decide
  · rw [commits_single first]
    exact fun commit member => by rw [List.mem_singleton.mp member]; decide
  · exact fun largest => absurd largest (by decide)

end SingleCommit

end DeltaReader

end StatGuardian.Io
