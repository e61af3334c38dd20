import Mathlib.Data.List.Nodup
import StatGuardian.Io.Delta
import StatGuardian.Library.Descending

namespace StatGuardian.Io

open KeyedValues Replay

namespace DeltaReader

variable {D : Type} (env : DeltaEnv D) (tableRoot : String)

def lineOps (line : String) : List (Op String String) :=
  if (Text.trim line).isEmpty then []
  else
    let action := (env.fromStr (Text.trim line)).getD {}
    (action.add.map (fun add => Op.put add.path (fullPath tableRoot add.path))).toList ++
      (action.remove.map (fun remove => Op.drop remove.path)).toList

def contentOps (content : String) : List (Op String String) :=
  (Text.lines content).flatMap (lineOps env tableRoot)

def history (commits : List (Nat × DirEntry)) : List (Op String String) :=
  commits.flatMap (fun commit => (commit.2.content.toOption.map (contentOps env tableRoot)).getD [])

theorem replayLine_eq (active : Map String String) (line : String) :
    replayLine env tableRoot active line = (lineOps env tableRoot line).foldl apply active := by
  simp only [replayLine, lineOps]
  cases (Text.trim line).isEmpty with
  | true => rfl
  | false =>
    cases (env.fromStr (Text.trim line)).getD {} with
    | mk add remove => cases add <;> cases remove <;> rfl

theorem foldl_replayLine (lines : List String) (active : Map String String) :
    lines.foldl (replayLine env tableRoot) active =
      (lines.flatMap (lineOps env tableRoot)).foldl apply active := by
  induction lines generalizing active with
  | nil => rfl
  | cons line rest ih =>
    rw [List.foldl_cons, List.flatMap_cons, List.foldl_append, ih, replayLine_eq]

theorem foldlM_replayCommit {commits : List (Nat × DirEntry)}
    (readable : ∀ commit ∈ commits, ∃ content, commit.2.content = .ok content)
    (active : Map String String) :
    commits.foldlM (replayCommit env tableRoot) active =
      .ok ((history env tableRoot commits).foldl apply active) := by
  induction commits generalizing active with
  | nil => rfl
  | cons commit rest ih =>
    obtain ⟨content, read⟩ := readable commit (List.mem_cons_self ..)
    have here : replayCommit env tableRoot active commit =
        .ok ((contentOps env tableRoot content).foldl apply active) := by
      rw [replayCommit, read]
      simp only [foldl_replayLine, contentOps]
    have ops : history env tableRoot (commit :: rest) =
        contentOps env tableRoot content ++ history env tableRoot rest := by
      rw [history, List.flatMap_cons, read]
      rfl
    rw [List.foldlM_cons, here, ops, List.foldl_append]
    exact ih (fun later member => readable later (List.mem_cons_of_mem _ member)) _

theorem foldlM_replayCommit_error {commits : List (Nat × DirEntry)} {commit : Nat × DirEntry}
    (member : commit ∈ commits) {msg : String} (unread : commit.2.content = .error msg)
    (active : Map String String) :
    ∃ e, commits.foldlM (replayCommit env tableRoot) active = .error e := by
  induction commits generalizing active with
  | nil => cases member
  | cons first rest ih =>
    rw [List.foldlM_cons]
    cases read : first.2.content with
    | error msg =>
      rw [replayCommit, read]
      exact ⟨_, rfl⟩
    | ok content =>
      rw [replayCommit, read]
      rcases List.mem_cons.mp member with rfl | later
      · cases unread.symm.trans read
      · exact ih later _

theorem put_value {commits : List (Nat × DirEntry)} {key value : String}
    (member : Op.put key value ∈ history env tableRoot commits) : value = fullPath tableRoot key := by
  rw [history, List.mem_flatMap] at member
  obtain ⟨commit, _, member⟩ := member
  cases read : commit.2.content with
  | error msg =>
    rw [read] at member
    cases member
  | ok content =>
    rw [read] at member
    obtain ⟨line, _, member⟩ := List.mem_flatMap.mp member
    unfold lineOps at member
    split at member
    · cases member
    · rcases List.mem_append.mp member with added | removed
      · obtain ⟨add, _, same⟩ := Option.map_eq_some_iff.mp (Option.mem_toList.mp added)
        cases same
        rfl
      · obtain ⟨remove, _, same⟩ := Option.map_eq_some_iff.mp (Option.mem_toList.mp removed)
        cases same

theorem resolveActiveFiles_ok (order : HashOrder) {logDir : LogDir}
    {listing : List (Except String DirEntry)} (listed : logDir.readDir = .ok listing)
    (version : Option Nat)
    (readable : ∀ commit ∈ retain (version.getD u64Max) (commitFiles listing),
      ∃ content, commit.2.content = .ok content) :
    resolveActiveFiles env order logDir tableRoot version =
      .ok (order.arrange (values (replay
        (history env tableRoot (retain (version.getD u64Max) (commitFiles listing)))))) := by
  rw [resolveActiveFiles, listed]
  simp only [foldlM_replayCommit env tableRoot readable]
  rfl

section WellFormed

variable {env tableRoot}

/-- The commits of a directory are the given contents, numbered from zero, and each line that is
    not blank is an action. -/
structure WellFormed (env : DeltaEnv D) (listing : List (Except String DirEntry))
    (contents : List String) : Prop where
  numbered : ((numbered listing).map (fun commit => (commit.2.content, commit.1))).Perm
    ((contents.map Except.ok).zipIdx)
  parsable : ∀ content ∈ contents, ∀ line ∈ Text.lines content,
    (Text.trim line).isEmpty = false → (env.fromStr (Text.trim line)).isSome = true

theorem filter_zipIdx {α : Type} (items : List α) (start limit : Nat) :
    (items.zipIdx start).filter (fun item => item.2 ≤ limit) =
      (items.take (limit + 1 - start)).zipIdx start := by
  induction items generalizing start with
  | nil => simp
  | cons item rest ih =>
    rw [List.zipIdx_cons, List.filter_cons, ih]
    by_cases within : start ≤ limit
    · rw [if_pos (by simpa using within), show limit + 1 - start = limit + 1 - (start + 1) + 1 by omega,
        List.take_succ_cons, List.zipIdx_cons]
    · rw [if_neg (by simpa using within), show limit + 1 - start = 0 by omega,
        show limit + 1 - (start + 1) = 0 by omega]
      simp

theorem commitFiles_sorted (listing : List (Except String DirEntry)) :
    (commitFiles listing).Pairwise (fun a b => a.1 ≤ b.1) := by
  -- the smallest number first is the largest first in the dual order
  exact Descending.sort_sorted (fun commit => OrderDual.toDual commit.1) (numbered listing)

theorem retain_wellFormed {listing : List (Except String DirEntry)} {contents : List String}
    (formed : WellFormed env listing contents) (limit : Nat) :
    (retain limit (commitFiles listing)).map (fun commit => (commit.2.content, commit.1)) =
      ((contents.take (limit + 1)).map Except.ok).zipIdx := by
  have sorted : ((commitFiles listing).map (fun commit => (commit.2.content, commit.1))).Pairwise
      (fun a b => a.2 ≤ b.2) := by
    rw [List.pairwise_map]
    exact commitFiles_sorted listing
  have target : ((contents.map Except.ok).zipIdx : List (Except String String × Nat)).Pairwise
      (fun a b => a.2 ≤ b.2) := by
    have indices := List.pairwise_le_range' (s := 0) (n := (contents.map (Except.ok (ε := String))).length)
    rw [← List.zipIdx_map_snd 0, List.pairwise_map] at indices
    exact indices
  have commits : (commitFiles listing).Perm (numbered listing) := List.mergeSort_perm _ _
  have perm := (commits.map (fun commit => (commit.2.content, commit.1))).trans formed.numbered
  have same : (commitFiles listing).map (fun commit => (commit.2.content, commit.1)) =
      (contents.map Except.ok).zipIdx := by
    apply List.Perm.eq_of_pairwise _ sorted target perm
    intro a b left right below above
    have here := List.mem_zipIdx_iff_getElem?.mp (perm.subset left)
    have there := List.mem_zipIdx_iff_getElem?.mp right
    have index : a.2 = b.2 := Nat.le_antisymm below above
    rw [index] at here
    exact Prod.ext (Option.some.inj (here.symm.trans there)) index
  have filtered := congrArg (List.filter (fun item => item.2 ≤ limit)) same
  rw [filter_zipIdx, List.filter_map, Nat.sub_zero, ← List.map_take] at filtered
  exact filtered

theorem history_wellFormed {listing : List (Except String DirEntry)} {contents : List String}
    (formed : WellFormed env listing contents) (limit : Nat) :
    history env tableRoot (retain limit (commitFiles listing)) =
      (contents.take (limit + 1)).flatMap (contentOps env tableRoot) := by
  have commits := congrArg (List.map Prod.fst) (retain_wellFormed formed limit)
  rw [List.zipIdx_map_fst, List.map_map] at commits
  have contentsOnly : history env tableRoot (retain limit (commitFiles listing)) =
      (((retain limit (commitFiles listing)).map (fun commit => commit.2.content)).flatMap
        (fun content => (content.toOption.map (contentOps env tableRoot)).getD [])) := by
    rw [history, List.flatMap_map]
  have same : (retain limit (commitFiles listing)).map (fun commit => commit.2.content) =
      (contents.take (limit + 1)).map Except.ok := commits
  rw [contentsOnly, same, List.flatMap_map]
  rfl

theorem readable_wellFormed {listing : List (Except String DirEntry)} {contents : List String}
    (formed : WellFormed env listing contents) (limit : Nat) :
    ∀ commit ∈ retain limit (commitFiles listing), ∃ content, commit.2.content = .ok content := by
  intro commit member
  have there := List.mem_map_of_mem (f := fun commit => (commit.2.content, commit.1)) member
  rw [retain_wellFormed formed limit] at there
  have fst := List.fst_mem_of_mem_zipIdx there
  obtain ⟨content, _, same⟩ := List.mem_map.mp fst
  exact ⟨content, same.symm⟩

/-- The last action on a file, under whatever raw path. -/
def lastOnFile (tableRoot path : String) (ops : List (Op String String)) :
    Option (Op String String) :=
  lastWith (fun op => decide (fullPath tableRoot op.key = path)) ops

structure Exact (tableRoot : String) (ops : List (Op String String)) (files : List String) :
    Prop where
  nodup : files.Nodup
  mem_iff : ∀ path, path ∈ files ↔ ∃ raw, lastOnFile tableRoot path ops = some (.put raw path)

/-- An add that is the last action under its raw path is the last action on its file. -/
def Settles (tableRoot : String) (ops : List (Op String String)) : Prop :=
  ∀ raw path, lastOn raw ops = some (.put raw path) →
    lastOnFile tableRoot (fullPath tableRoot raw) ops = some (.put raw path)

theorem lastOn_of_lastOnFile {ops : List (Op String String)} {raw path : String}
    (last : lastOnFile tableRoot (fullPath tableRoot raw) ops = some (.put raw path)) :
    lastOn raw ops = some (.put raw path) := by
  apply lastWith_of_narrower _ last (decide_eq_true rfl)
  intro op same
  rw [of_decide_eq_true same]
  exact decide_eq_true rfl

theorem Exact.perm {ops : List (Op String String)} {files more : List String}
    (exact_ : Exact tableRoot ops files) (perm : files.Perm more) : Exact tableRoot ops more :=
  ⟨perm.nodup_iff.mp exact_.nodup, fun path => perm.mem_iff.symm.trans (exact_.mem_iff path)⟩

theorem exact_iff (ops : List (Op String String))
    (full : ∀ raw path, Op.put raw path ∈ ops → path = fullPath tableRoot raw) :
    Exact tableRoot ops (values (replay ops)) ↔ Settles tableRoot ops := by
  constructor
  · intro exact_ raw path last
    have found := (get_replay_eq_some_iff ops raw path).mpr last
    obtain rfl := full raw path (mem_of_lastWith last).1
    obtain ⟨raw', lastFile⟩ :=
      (exact_.mem_iff _).mp ((mem_values_iff _ _).mpr ⟨raw, found⟩)
    have file := full raw' _ (mem_of_lastWith lastFile).1
    have last' : lastOn raw' ops = some (.put raw' (fullPath tableRoot raw)) := by
      rw [file] at lastFile ⊢
      exact lastOn_of_lastOnFile lastFile
    obtain rfl := (values_nodup_iff _).mp exact_.nodup raw raw' _ found
      ((get_replay_eq_some_iff ops raw' _).mpr last')
    exact lastFile
  · intro settles
    have settled : ∀ raw path, get (replay ops) raw = some path →
        lastOnFile tableRoot path ops = some (.put raw path) := by
      intro raw path found
      have last := (get_replay_eq_some_iff ops raw path).mp found
      have file := settles raw path last
      rwa [← full raw path (mem_of_lastWith last).1] at file
    constructor
    · apply (values_nodup_iff _).mpr
      intro raw raw' path found found'
      have same := (settled raw path found).symm.trans (settled raw' path found')
      exact (Op.put.inj (Option.some.inj same)).1
    · intro path
      rw [mem_values_iff]
      constructor
      · rintro ⟨raw, found⟩
        exact ⟨raw, settled raw path found⟩
      · rintro ⟨raw, lastFile⟩
        refine ⟨raw, (get_replay_eq_some_iff ops raw path).mpr ?_⟩
        have file := full raw path (mem_of_lastWith lastFile).1
        rw [file] at lastFile ⊢
        exact lastOn_of_lastOnFile lastFile

/-- On a well-formed log the replay is exact precisely where no two spellings of one file get in
    each other's way. -/
theorem replay_exact_iff (order : HashOrder) {logDir : LogDir}
    {listing : List (Except String DirEntry)} {contents : List String}
    (listed : logDir.readDir = .ok listing) (formed : WellFormed env listing contents)
    (version : Nat) :
    (∃ files, resolveActiveFiles env order logDir tableRoot (some version) = .ok files ∧
      Exact tableRoot ((contents.take (version + 1)).flatMap (contentOps env tableRoot)) files) ↔
    Settles tableRoot ((contents.take (version + 1)).flatMap (contentOps env tableRoot)) := by
  have resolved := resolveActiveFiles_ok env tableRoot order listed (some version)
    (readable_wellFormed formed version)
  rw [Option.getD_some, history_wellFormed formed version] at resolved
  have full : ∀ raw path,
      Op.put raw path ∈ (contents.take (version + 1)).flatMap (contentOps env tableRoot) →
        path = fullPath tableRoot raw := by
    intro raw path member
    rw [← history_wellFormed formed version] at member
    exact put_value env tableRoot member
  rw [← exact_iff _ full, resolved]
  constructor
  · rintro ⟨files, same, exact_⟩
    obtain rfl := Except.ok.inj same
    exact exact_.perm (order.perm _)
  · intro exact_
    exact ⟨_, rfl, exact_.perm (order.perm _).symm⟩

section Spellings

def adds (path : String) : String := s!"\x7b\"add\":\x7b\"path\":\"{path}\"\x7d\x7d"

def spellingsEnv : DeltaEnv (List String) where
  fromStr line :=
    (["a%20b.parquet", "a b.parquet"].find? (fun path => adds path == line)).map
      (fun path => { add := some ⟨path⟩ })
  readParquet path := .ok [path]
  vstackMut acc df := .ok (acc ++ df)
  empty := []

def spellingsListing : List (Except String DirEntry) :=
  [.ok ⟨"00000000000000000001.json", "t/_delta_log/00000000000000000001.json",
      .ok (adds "a b.parquet")⟩,
    .ok ⟨"00000000000000000000.json", "t/_delta_log/00000000000000000000.json",
      .ok (adds "a%20b.parquet")⟩]

def spellingsContents : List String := [adds "a%20b.parquet", adds "a b.parquet"]

def spellings : LogDir := ⟨"t/_delta_log", true, .ok spellingsListing⟩

def inPlace : HashOrder := ⟨id, fun _ => .refl _⟩

theorem spellings_wellFormed : WellFormed spellingsEnv spellingsListing spellingsContents where
  numbered := by
    have commits : (numbered spellingsListing).map (fun commit => (commit.2.content, commit.1)) =
        [(.ok (adds "a b.parquet"), 1), (.ok (adds "a%20b.parquet"), 0)] := by decide +kernel
    rw [commits]
    exact .swap _ _ _
  parsable := by decide +kernel

theorem spellings_first_exact :
    ∃ files, resolveActiveFiles spellingsEnv inPlace spellings "t" (some 0) = .ok files ∧
      Exact "t" ((spellingsContents.take 1).flatMap (contentOps spellingsEnv "t")) files := by
  apply (replay_exact_iff inPlace rfl spellings_wellFormed 0).mpr
  have ops : (spellingsContents.take 1).flatMap (contentOps spellingsEnv "t") =
      [.put "a%20b.parquet" "t/a b.parquet"] := by decide +kernel
  rw [Nat.zero_add, ops]
  intro raw path last
  cases List.mem_singleton.mp (mem_of_lastWith last).1
  decide +kernel

theorem spellings_read_twice :
    WellFormed spellingsEnv spellingsListing spellingsContents ∧
    ¬ ∃ files, resolveActiveFiles spellingsEnv inPlace spellings "t" (some 1) = .ok files ∧
      Exact "t" ((spellingsContents.take 2).flatMap (contentOps spellingsEnv "t")) files := by
  refine ⟨spellings_wellFormed, ?_⟩
  rintro ⟨files, resolved, exact_⟩
  have ran := resolveActiveFiles_ok spellingsEnv "t" inPlace
    (rfl : spellings.readDir = .ok spellingsListing) (some 1)
    (readable_wellFormed spellings_wellFormed 1)
  rw [Option.getD_some, history_wellFormed spellings_wellFormed 1] at ran
  obtain rfl := Except.ok.inj (ran.symm.trans resolved)
  have twice : inPlace.arrange (values (replay ((spellingsContents.take 2).flatMap
      (contentOps spellingsEnv "t")))) = ["t/a b.parquet", "t/a b.parquet"] := by decide +kernel
  have distinct := exact_.nodup
  rw [twice] at distinct
  exact absurd distinct (by decide)

end Spellings

end WellFormed

end DeltaReader

end StatGuardian.Io
