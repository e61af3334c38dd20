import Mathlib.Logic.Relation
import StatGuardian.Io.DeltaAsOf

namespace StatGuardian.Io

open KeyedValues StatGuardian.Stream

namespace DeltaReader

variable {D : Type} (env : DeltaEnv D) (order : HashOrder) (fromStr : ReadsJson)

def readAsOfTimestamp (logDir : LogDir) (tablePath : String) (timestampMs : Int) :
    Except IoError D :=
  if !logDir.isThere then
    .error (.readError tablePath "no _delta_log directory found — not a Delta table")
  else do
    let version ← findVersionForTimestamp fromStr logDir timestampMs
    readVersion env order logDir tablePath (some version)

/-- The directory with more files in it, listed in any order: all numbers of the new commits are
    larger than the ones there were, and no two of them are the same. -/
structure Grows (log grown : LogDir) : Prop where
  path : grown.path = log.path
  isThere : grown.isThere = log.isThere
  added : ∃ listing more listingToo, log.readDir = .ok listing ∧ grown.readDir = .ok listingToo ∧
    listingToo.Perm (listing ++ more) ∧
    (∀ old ∈ numbered listing, ∀ new ∈ numbered more, old.1 < new.1) ∧
    ((numbered more).map Prod.fst).Nodup

def Distinct (log : LogDir) : Prop := ((commits log).map Prod.fst).Nodup

/-- The log of a table as it was and as it became: the same commits, and behind them later ones. -/
structure Continues (log grown : LogDir) : Prop where
  path : grown.path = log.path
  isThere : grown.isThere = log.isThere
  readDir : (∃ listing, grown.readDir = .ok listing) ∨ grown.readDir = log.readDir
  commits : ∃ new, commits grown = commits log ++ new ∧
    ∀ old ∈ commits log, ∀ commit ∈ new, old.1 < commit.1

variable {log grown : LogDir}

theorem commits_of_listed {listing : List (Except String DirEntry)}
    (listed : log.readDir = .ok listing) : commits log = commitFiles listing := by
  rw [commits, listed]
  rfl

theorem commitFiles_perm (listing : List (Except String DirEntry)) :
    (commitFiles listing).Perm (numbered listing) := List.mergeSort_perm _ _

theorem eq_of_commits_perm {found others : List (Nat × DirEntry)}
    (sorted : found.Pairwise (fun a b => a.1 ≤ b.1)) (sortedToo : others.Pairwise (fun a b => a.1 ≤ b.1))
    (distinct : (others.map Prod.fst).Nodup) (perm : found.Perm others) : found = others := by
  apply List.Perm.eq_of_pairwise _ sorted sortedToo perm
  intro a b left right below above
  exact List.inj_on_of_nodup_map distinct (perm.subset left) right (Nat.le_antisymm below above)

theorem Grows.continues (grows : Grows log grown) (distinct : Distinct log) :
    Distinct grown ∧ Continues log grown := by
  obtain ⟨listing, more, listingToo, listed, listedToo, perm, newer, nodup⟩ := grows.added
  have old : commits log = commitFiles listing := commits_of_listed listed
  have all : (numbered listingToo).Perm (numbered listing ++ numbered more) := by
    have entries := (perm.filterMap Except.toOption).filterMap
      (fun entry => (commitVersion entry.name).map (fun version => (version, entry)))
    rw [List.filterMap_append, List.filterMap_append] at entries
    exact entries
  have apart : ∀ a ∈ commitFiles listing, ∀ b ∈ commitFiles more, a.1 < b.1 := by
    intro a left b right
    exact newer a ((commitFiles_perm listing).subset left) b ((commitFiles_perm more).subset right)
  have numbers : ((commitFiles listing ++ commitFiles more).map Prod.fst).Nodup := by
    rw [List.map_append, List.nodup_append]
    refine ⟨?_, ?_, ?_⟩
    · rw [← old]
      exact distinct
    · exact ((commitFiles_perm more).map Prod.fst).nodup_iff.mpr nodup
    · intro n first m second same
      obtain ⟨a, left, rfl⟩ := List.mem_map.mp first
      obtain ⟨b, right, rfl⟩ := List.mem_map.mp second
      have less := apart a left b right
      omega
  have sorted : (commitFiles listing ++ commitFiles more).Pairwise (fun a b => a.1 ≤ b.1) := by
    rw [List.pairwise_append]
    refine ⟨commitFiles_sorted listing, commitFiles_sorted more, ?_⟩
    intro a left b right
    exact Nat.le_of_lt (apart a left b right)
  have joined : commits grown = commitFiles listing ++ commitFiles more := by
    rw [commits_of_listed listedToo]
    apply eq_of_commits_perm (commitFiles_sorted listingToo) sorted numbers
    exact (commitFiles_perm listingToo).trans (all.trans
      ((commitFiles_perm listing).symm.append (commitFiles_perm more).symm))
  constructor
  · rw [Distinct, joined]
    exact numbers
  · exact ⟨grows.path, grows.isThere, .inl ⟨listingToo, listedToo⟩, commitFiles more,
      by rw [joined, old], by rw [old]; exact apart⟩

theorem continues_run (distinct : Distinct log) (run : Relation.ReflTransGen Grows log grown) :
    Distinct grown ∧ Continues log grown := by
  induction run with
  | refl =>
    exact ⟨distinct, rfl, rfl, .inr rfl, [], (List.append_nil _).symm,
      fun _ _ _ member => nomatch member⟩
  | tail _ grows ih =>
    obtain ⟨distinctSoFar, soFar⟩ := ih
    obtain ⟨distinctNow, now⟩ := grows.continues distinctSoFar
    obtain ⟨middle, joined, apart⟩ := soFar.commits
    obtain ⟨new, joinedToo, apartToo⟩ := now.commits
    refine ⟨distinctNow, now.path.trans soFar.path, now.isThere.trans soFar.isThere, ?_,
      middle ++ new, ?_, ?_⟩
    · exact now.readDir.elim .inl (fun same => same ▸ soFar.readDir)
    · rw [joinedToo, joined, List.append_assoc]
    · intro old member commit found
      rw [joined] at apartToo
      exact (List.mem_append.mp found).elim (apart old member commit)
        (apartToo old (List.mem_append_left _ member) commit)

theorem retain_append_newer {old new : List (Nat × DirEntry)} {version : Nat}
    (newer : ∀ commit ∈ new, version < commit.1) :
    retain version (old ++ new) = retain version old := by
  have none : new.filter (fun commit => commit.1 ≤ version) = [] := by
    apply List.filter_eq_nil_iff.mpr
    intro commit member
    have less := newer commit member
    simp only [decide_eq_true_eq]
    omega
  rw [retain, retain, List.filter_append, none, List.append_nil]

theorem lt_of_continues (continues_ : Continues log grown) {version : Nat}
    (known : ∃ commit ∈ commits log, version ≤ commit.1) {new : List (Nat × DirEntry)}
    (joined : commits grown = commits log ++ new) : ∀ commit ∈ new, version < commit.1 := by
  obtain ⟨added, joinedToo, newer⟩ := continues_.commits
  obtain rfl := List.append_cancel_left (joined.symm.trans joinedToo)
  obtain ⟨old, member, within⟩ := known
  intro commit found
  have less := newer old member commit found
  omega

theorem resolveActiveFiles_retain (tablePath : String) (version : Option Nat)
    {listing : List (Except String DirEntry)} (listed : log.readDir = .ok listing) :
    resolveActiveFiles env order log tablePath version = (do
      let active ← (retain (version.getD u64Max) (commits log)).foldlM
        (replayCommit env tablePath) ∅
      return order.arrange (values active)) := by
  rw [commits_of_listed listed, resolveActiveFiles, listed]

theorem listed_of_mem {commit : Nat × DirEntry} (member : commit ∈ commits log) :
    ∃ listing, log.readDir = .ok listing := by
  rw [commits] at member
  cases read : log.readDir with
  | error msg =>
    rw [read] at member
    cases member
  | ok listing => exact ⟨listing, rfl⟩

theorem readVersion_continues (continues_ : Continues log grown) (tablePath : String)
    {version : Nat} (known : ∃ commit ∈ commits log, version ≤ commit.1) :
    readVersion env order grown tablePath (some version) =
      readVersion env order log tablePath (some version) := by
  obtain ⟨new, joined, -⟩ := continues_.commits
  have newer := lt_of_continues continues_ known joined
  obtain ⟨old, member, -⟩ := known
  obtain ⟨listing, listed⟩ := listed_of_mem member
  obtain ⟨listingToo, listedToo⟩ : ∃ listing, grown.readDir = .ok listing :=
    continues_.readDir.elim id (fun same => ⟨listing, same.trans listed⟩)
  have files : resolveActiveFiles env order grown tablePath (some version) =
      resolveActiveFiles env order log tablePath (some version) := by
    rw [resolveActiveFiles_retain env order tablePath _ listedToo,
      resolveActiveFiles_retain env order tablePath _ listed, Option.getD_some, joined,
      retain_append_newer newer]
  rw [readVersion, readVersion, continues_.isThere, files]

theorem commitVersion_le {name : String} {version : Nat} (named : commitVersion name = some version) :
    version ≤ u64Max := by
  unfold commitVersion at named
  split_ifs at named
  simp only [Text.parseU64] at named
  split_ifs at named with _ small
  have same := Option.some.inj named
  unfold u64Max
  omega

theorem read_newest {newest : Nat × DirEntry} (last : (commits log).getLast? = some newest)
    (tablePath : String) :
    read env order log tablePath = readVersion env order log tablePath (some newest.1) := by
  obtain ⟨listing, listed⟩ := listed_of_mem (List.mem_of_getLast? last)
  have all : ∀ limit, (∀ commit ∈ commits log, commit.1 ≤ limit) →
      retain limit (commits log) = commits log := by
    intro limit within
    exact List.filter_eq_self.mpr (fun commit member => decide_eq_true (within commit member))
  have bounded : ∀ commit ∈ commits log, commit.1 ≤ u64Max := by
    intro commit member
    rw [commits_of_listed listed] at member
    have inside := (commitFiles_perm listing).subset member
    obtain ⟨entry, -, made⟩ := List.mem_filterMap.mp inside
    obtain ⟨version, named, rfl⟩ := Option.map_eq_some_iff.mp made
    exact commitVersion_le named
  have files : resolveActiveFiles env order log tablePath none =
      resolveActiveFiles env order log tablePath (some newest.1) := by
    rw [resolveActiveFiles_retain env order tablePath _ listed,
      resolveActiveFiles_retain env order tablePath _ listed, Option.getD_none, Option.getD_some,
      all _ bounded, all _ (le_getLast (commits_sorted log) last)]
  rw [read, readVersion, readVersion, files]

theorem upTo_continues {timestampMs : Int} {new : List (Nat × DirEntry)}
    (joined : commits grown = commits log ++ new)
    (settled : (∃ commit ∈ commits log, later fromStr timestampMs commit = true) ∨
      ∀ commit ∈ new, later fromStr timestampMs commit = true) :
    upTo fromStr timestampMs grown = upTo fromStr timestampMs log := by
  rw [upTo, upTo, joined]
  by_cases passed : ∀ commit ∈ commits log, (! later fromStr timestampMs commit) = true
  · have past : ∀ commit ∈ new, later fromStr timestampMs commit = true := by
      apply settled.resolve_left
      rintro ⟨commit, member, past⟩
      have before := passed commit member
      rw [past] at before
      cases before
    have none : new.takeWhile (fun commit => ! later fromStr timestampMs commit) = [] := by
      cases new with
      | nil => rfl
      | cons commit rest =>
        rw [List.takeWhile_cons, past commit List.mem_cons_self]
        rfl
    rw [List.takeWhile_append_of_pos passed, none, List.append_nil,
      List.takeWhile_eq_self_iff.mpr passed]
  · rw [List.takeWhile_append, if_neg]
    intro whole
    apply passed
    apply List.takeWhile_eq_self_iff.mp
    exact (List.takeWhile_prefix _).eq_of_length whole

theorem findVersionForTimestamp_eq {listing : List (Except String DirEntry)}
    (listed : log.readDir = .ok listing) (timestampMs : Int) :
    findVersionForTimestamp fromStr log timestampMs =
      .ok (((upTo fromStr timestampMs log).getLast?.map Prod.fst).getD 0) := by
  rw [upTo, commits_of_listed listed, ← bestVersion_eq, findVersionForTimestamp, listed]

theorem takeWhile_prefix_of_imp {α : Type} {p q : α → Bool} (imp : ∀ a, p a = true → q a = true)
    (items : List α) : items.takeWhile p <+: items.takeWhile q := by
  induction items with
  | nil => exact List.prefix_rfl
  | cons a rest ih =>
    cases here : p a with
    | false => simp [here]
    | true =>
      rw [List.takeWhile_cons_of_pos here, List.takeWhile_cons_of_pos (imp a here)]
      exact List.cons_prefix_cons.mpr ⟨rfl, ih⟩

/-- A later time is never answered with an earlier version. -/
theorem findVersionForTimestamp_mono {earlierMs laterMs : Int} (le : earlierMs ≤ laterMs)
    {version versionToo : Nat}
    (found : findVersionForTimestamp fromStr log earlierMs = .ok version)
    (foundToo : findVersionForTimestamp fromStr log laterMs = .ok versionToo) :
    version ≤ versionToo := by
  obtain ⟨listing, listed⟩ : ∃ listing, log.readDir = .ok listing := by
    cases read : log.readDir with
    | error msg =>
      rw [findVersionForTimestamp, read] at found
      cases found
    | ok listing => exact ⟨listing, rfl⟩
  rw [findVersionForTimestamp_eq fromStr listed] at found foundToo
  have here := Except.ok.inj found
  have there := Except.ok.inj foundToo
  have before : upTo fromStr earlierMs log <+: upTo fromStr laterMs log := by
    apply takeWhile_prefix_of_imp
    intro commit
    unfold later
    cases commitTimestamp fromStr commit.2 with
    | none => exact id
    | some ts =>
      simp only [Option.any_some, Bool.not_eq_true', decide_eq_false_iff_not]
      omega
  cases last : (upTo fromStr earlierMs log).getLast? with
  | none =>
    rw [last] at here
    rw [← here]
    exact Nat.zero_le _
  | some commit =>
    have member := before.subset (List.mem_of_getLast? last)
    obtain ⟨end_, ended⟩ : ∃ end_, (upTo fromStr laterMs log).getLast? = some end_ :=
      ⟨_, List.getLast?_eq_some_getLast (List.ne_nil_of_mem member)⟩
    have sorted := (commits_sorted log).sublist
      (List.takeWhile_sublist fun commit => ! later fromStr laterMs commit)
    have most := le_getLast sorted ended commit member
    rw [last] at here
    rw [ended] at there
    rw [← here, ← there]
    exact most

section SecondCommit

def secondEntry : DirEntry := ⟨"01.json", "t/_delta_log", .ok stamped⟩

def grownLog : LogDir :=
  ⟨"t/_delta_log", true,
    .ok [.ok secondEntry, .ok ⟨"00.json", "t/_delta_log", .ok (adds "part-0.parquet")⟩]⟩

theorem second_facts : commitVersion "00.json" = some 0 ∧
    commitVersion secondEntry.name = some 1 ∧ later readStamped 3 (1, secondEntry) = true := by
  decide +kernel

theorem firstCommits : commits (single "00.json" (adds "part-0.parquet")) =
    [(0, ⟨"00.json", "t/_delta_log", .ok (adds "part-0.parquet")⟩)] :=
  commits_single second_facts.1 _

theorem secondCommits : commits grownLog =
    [(0, ⟨"00.json", "t/_delta_log", .ok (adds "part-0.parquet")⟩), (1, secondEntry)] := by
  obtain ⟨zeroth, first, -⟩ := second_facts
  have entries : numbered [.ok secondEntry,
      .ok ⟨"00.json", "t/_delta_log", .ok (adds "part-0.parquet")⟩] =
        [(1, secondEntry), (0, ⟨"00.json", "t/_delta_log", .ok (adds "part-0.parquet")⟩)] := by
    simp [numbered, Except.toOption, zeroth, first]
  rw [commits_of_listed rfl]
  apply eq_of_commits_perm (commitFiles_sorted _)
  · simp
  · decide
  · apply (commitFiles_perm _).trans
    rw [entries]
    exact .swap _ _ _

theorem firstDistinct : Distinct (single "00.json" (adds "part-0.parquet")) := by
  rw [Distinct, firstCommits]
  decide

theorem grows_second : Grows (single "00.json" (adds "part-0.parquet")) grownLog where
  path := rfl
  isThere := rfl
  added := by
    obtain ⟨zeroth, first, -⟩ := second_facts
    refine ⟨_, [.ok secondEntry], _, rfl, rfl, .swap _ _ _, ?_, ?_⟩
    · simp [numbered, Except.toOption, zeroth, first]
    · simp [numbered, Except.toOption, first]

theorem findVersion_second : findVersionForTimestamp readStamped grownLog 3 = .ok 0 ∧
    findVersionForTimestamp readStamped grownLog 5 = .ok 1 := by
  rw [findVersionForTimestamp_eq readStamped rfl, findVersionForTimestamp_eq readStamped rfl,
    upTo, upTo, secondCommits]
  decide +kernel

theorem findVersionForTimestamp_mono_second :
    findVersionForTimestamp readStamped grownLog 3 = .ok 0 ∧
      findVersionForTimestamp readStamped grownLog 5 = .ok 1 ∧ 0 ≤ 1 :=
  ⟨findVersion_second.1, findVersion_second.2, findVersionForTimestamp_mono readStamped (by decide)
    findVersion_second.1 findVersion_second.2⟩

end SecondCommit

end DeltaReader

end StatGuardian.Io
