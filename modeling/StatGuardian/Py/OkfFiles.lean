import Mathlib.Data.List.Perm.Basic
import StatGuardian.Library.Glob
import StatGuardian.Library.RelativePath
import StatGuardian.Library.Replay

namespace StatGuardian.Py.Okf

open KeyedValues

inductive OkfError where
  | valueError (msg : String)
  | notImplementedError (msg : String)
  | osError (path : String)
  deriving DecidableEq, Repr

/-- The documents below a directory by their path from there, as the front matter library hands
    them out. -/
abbrev Files (P : Type) := Map String P

/-- The order in which a directory hands out its entries, which it may choose freely. -/
structure ListingOrder where
  arrange : List String → List String
  perm : ∀ names, (arrange names).Perm names

inductive Target where
  | below (path : String)
  | outside
  | refused
  deriving DecidableEq, Repr

/-- What the operating system makes of the names that a directory is joined with. Only `..` and the
    root lead anywhere but where the components of a name say, and no name to a file that is not
    called by its last component. -/
structure FileSystem (P : Type) where
  target : String → Target
  descends : ∀ name, RelativePath.Descends name →
    target name = .below (RelativePath.collapse name) ∨ target name = .refused
  last : ∀ name path, target name = .below path →
    (RelativePath.parts path.toList).getLast? = (RelativePath.parts name.toList).getLast?
  /-- What a pattern with `..` or `**` among its components finds. -/
  walk : Files P → String → Except OkfError (List (String × P))

def writeText {P : Type} (fs : FileSystem P) (files : Files P) (name : String) (post : P) :
    Except OkfError (Files P) :=
  match fs.target name with
  | .below path => .ok (files.insert path post)
  | .outside => .ok files
  | .refused => .error (.osError name)

def entryOf {P : Type} (files : Files P) (name : String) : Option (String × P) :=
  (get files name).map (fun post => (name, post))

def listing {P : Type} (order : ListingOrder) (files : Files P) (pattern : String) :
    List (String × P) :=
  (order.arrange (files.keys.filter (Glob.fnmatch pattern))).filterMap (entryOf files)

/-- Two stars are one component of a pattern or none. -/
def StarredPart (part : List Char) : Prop := ['*', '*'] <:+: part ∧ part ≠ ['*', '*']

instance (part : List Char) : Decidable (StarredPart part) := inferInstanceAs (Decidable (_ ∧ _))

/-- `Path.glob` -/
def glob {P : Type} (fs : FileSystem P) (order : ListingOrder) (files : Files P)
    (pattern : String) : Except OkfError (List (String × P)) :=
  let parts := RelativePath.parts pattern.toList
  if pattern.toList.head? = some '/' then
    .error (.notImplementedError "Non-relative patterns are unsupported")
  else if parts.any (fun part => StarredPart part) then
    .error (.valueError "Invalid pattern: '**' can only be an entire path component")
  else if ['.', '.'] ∈ parts ∨ ['*', '*'] ∈ parts then fs.walk files pattern
  else .ok (listing order files (RelativePath.collapse pattern))

/-- A pattern of names and wildcards, each for one component. -/
def Level (pattern : String) : Prop :=
  RelativePath.Descends pattern ∧
    ∀ part ∈ RelativePath.parts pattern.toList, ¬ ['*', '*'] <:+: part

instance (pattern : String) : Decidable (Level pattern) := inferInstanceAs (Decidable (_ ∧ _))

theorem glob_level {P : Type} (fs : FileSystem P) (order : ListingOrder) (files : Files P)
    {pattern : String} (level : Level pattern) :
    glob fs order files pattern = .ok (listing order files (RelativePath.collapse pattern)) := by
  obtain ⟨⟨relative, climbs⟩, starless⟩ := level
  have starred : ¬ (RelativePath.parts pattern.toList).any (fun part => StarredPart part) = true := by
    rw [List.any_eq_true]
    intro ⟨part, member, starred⟩
    exact starless part member (of_decide_eq_true starred).1
  have special : ¬ (['.', '.'] ∈ RelativePath.parts pattern.toList ∨
      ['*', '*'] ∈ RelativePath.parts pattern.toList) := by
    intro either
    rcases either with climb | star
    · exact climbs climb
    · exact starless _ star (List.infix_refl _)
  rw [glob, if_neg relative, if_neg starred, if_neg special]

theorem level_single {pattern : String} (flat : '/' ∉ pattern.toList) (empty : pattern.toList ≠ [])
    (dot : pattern.toList ≠ ['.']) (climb : pattern.toList ≠ ['.', '.'])
    (starless : ¬ ['*', '*'] <:+: pattern.toList) : Level pattern := by
  have single := RelativePath.parts_single flat empty dot
  refine ⟨⟨?_, ?_⟩, ?_⟩
  · intro root
    exact flat (List.mem_of_head? root)
  · rw [single, List.mem_singleton]
    exact climb.symm
  · intro part member
    rw [single, List.mem_singleton] at member
    exact member ▸ starless

def flatTarget (name : String) : Target :=
  if RelativePath.Descends name then .below (RelativePath.collapse name) else .refused

theorem flatTarget_descends (name : String) (descends : RelativePath.Descends name) :
    flatTarget name = .below (RelativePath.collapse name) ∨ flatTarget name = .refused :=
  .inl (if_pos descends)

theorem flatTarget_last (name path : String) (leads : flatTarget name = .below path) :
    (RelativePath.parts path.toList).getLast? = (RelativePath.parts name.toList).getLast? := by
  unfold flatTarget at leads
  split at leads
  · cases leads
    rw [RelativePath.parts_collapse]
  · cases leads

/-- A file system that refuses just the names that leave the directory. -/
def flatFileSystem (P : Type) : FileSystem P :=
  ⟨flatTarget, flatTarget_descends, flatTarget_last, fun _ pattern => .error (.osError pattern)⟩

theorem plain_suffix : Glob.Plain ".md".toList := by
  intro c inside
  change c ∈ ['.', 'm', 'd'] at inside
  simp only [List.mem_cons, List.not_mem_nil, or_false] at inside
  rcases inside with rfl | rfl | rfl <;> decide

section Listing

variable {P : Type} (order : ListingOrder) (files : Files P) (pattern : String)

theorem mem_listing (name : String) (post : P) :
    (name, post) ∈ listing order files pattern ↔
      get files name = some post ∧ Glob.fnmatch pattern name = true := by
  rw [listing, List.mem_filterMap]
  constructor
  · intro ⟨found, listed, same⟩
    obtain ⟨held, there, pair⟩ := Option.map_eq_some_iff.mp same
    cases pair
    have kept := (order.perm _).mem_iff.mp listed
    exact ⟨there, (List.mem_filter.mp kept).2⟩
  · intro ⟨there, matched⟩
    refine ⟨name, ?_, by rw [entryOf, there]; rfl⟩
    rw [(order.perm _).mem_iff, List.mem_filter]
    exact ⟨AList.mem_keys.mp (known_of_get there), matched⟩

theorem listing_names :
    (listing order files pattern).map Prod.fst =
      order.arrange (files.keys.filter (Glob.fnmatch pattern)) := by
  have present : ∀ name ∈ order.arrange (files.keys.filter (Glob.fnmatch pattern)),
      ∃ post, get files name = some post := by
    intro name listed
    have kept := (order.perm _).mem_iff.mp listed
    exact exists_get (AList.mem_keys.mpr (List.mem_filter.mp kept).1)
  unfold listing
  generalize order.arrange (files.keys.filter (Glob.fnmatch pattern)) = names at present ⊢
  induction names with
  | nil => rfl
  | cons name rest ih =>
    obtain ⟨post, there⟩ := present name (List.mem_cons_self ..)
    have later := ih (fun other member => present other (List.mem_cons_of_mem _ member))
    have made : entryOf files name = some (name, post) := by
      rw [entryOf, there]
      rfl
    rw [List.filterMap_cons_some made, List.map_cons, later]

theorem nodup_listing : ((listing order files pattern).map Prod.fst).Nodup := by
  rw [listing_names, (order.perm _).nodup_iff]
  exact files.nodupKeys.filter _

end Listing

def written {P : Type} (entries : List (String × P)) : Files P :=
  Replay.replay (entries.map (fun entry => .put entry.1 entry.2))

section Written

variable {P : Type} {entries : List (String × P)} {name : String} {post : P}

theorem mem_of_get_written (there : get (written entries) name = some post) :
    (name, post) ∈ entries := by
  have last := (Replay.get_replay_eq_some_iff _ _ _).mp there
  obtain ⟨⟨other, held⟩, member, same⟩ := List.mem_map.mp (Replay.mem_of_lastWith last).1
  cases same
  exact member

theorem get_written_of_mem (member : (name, post) ∈ entries) :
    ∃ last, get (written entries) name = some last := by
  cases there : get (written entries) name with
  | some last => exact ⟨last, rfl⟩
  | none =>
    rw [written, Replay.get_replay, Option.bind_eq_none_iff] at there
    cases found : Replay.lastOn name (entries.map (fun entry => Replay.Op.put entry.1 entry.2)) with
    | none =>
      have absent := List.find?_eq_none.mp found (.put name post)
        (List.mem_reverse.mpr (List.mem_map_of_mem member))
      exact absurd (decide_eq_true rfl) absent
    | some op =>
      obtain ⟨entry, _, same⟩ := List.mem_map.mp (Replay.mem_of_lastWith found).1
      have gone := there op found
      subst same
      cases gone

theorem get_written_iff (distinct : (entries.map Prod.fst).Nodup) :
    get (written entries) name = some post ↔ (name, post) ∈ entries := by
  constructor
  · exact mem_of_get_written
  · intro member
    obtain ⟨last, there⟩ := get_written_of_mem member
    have same := List.inj_on_of_nodup_map distinct (mem_of_get_written there) member rfl
    rw [there, (Prod.mk.inj same).2]

theorem listing_written_perm (order : ListingOrder) (pattern : String)
    (distinct : (entries.map Prod.fst).Nodup) :
    (listing order (written entries) pattern).Perm
      (entries.filter (fun entry => Glob.fnmatch pattern entry.1)) := by
  apply (List.perm_ext_iff_of_nodup (List.Nodup.of_map _ (nodup_listing order _ pattern))
    ((List.Nodup.of_map _ distinct).filter _)).mpr
  intro ⟨found, document⟩
  rw [mem_listing, get_written_iff distinct, List.mem_filter]

theorem written_append_singleton (entries : List (String × P)) (entry : String × P) :
    written (entries ++ [entry]) = (written entries).insert entry.1 entry.2 := by
  rw [written, List.map_append, Replay.replay, List.foldl_append]
  rfl

def entryAt (fs : FileSystem P) (name : String) (post : P) : Option (String × P) :=
  match fs.target name with
  | .below path => some (path, post)
  | _ => none

theorem entryAt_eq_some {fs : FileSystem P} {path : String} {held : P} :
    entryAt fs name post = some (path, held) ↔ fs.target name = .below path ∧ post = held := by
  unfold entryAt
  cases fs.target name with
  | below place => simp
  | outside => simp
  | refused => simp

/-- One write after another leaves what the writes that succeed put there. -/
theorem foldl_writeText {C : Type} (fs : FileSystem P) (file : C → String) (post : C → P)
    (calls : List C) :
    calls.foldl (fun files call =>
        (writeText fs files (file call) (post call)).toOption.getD files) ∅ =
      written ((calls.filter (fun call => fs.target (file call) ≠ .refused)).filterMap
        (fun call => entryAt fs (file call) (post call))) := by
  induction calls using List.reverseRecOn with
  | nil => rfl
  | append_singleton calls call ih =>
    rw [List.foldl_append, ih, List.filter_append, List.foldl_cons, List.foldl_nil, writeText,
      List.filterMap_append]
    cases leads : fs.target (file call) with
    | below path =>
      have kept : ([call].filter (fun call => fs.target (file call) ≠ .refused)).filterMap
          (fun call => entryAt fs (file call) (post call)) = [(path, post call)] := by
        simp [leads, entryAt]
      rw [kept, written_append_singleton]
      rfl
    | outside =>
      have away : ([call].filter (fun call => fs.target (file call) ≠ .refused)).filterMap
          (fun call => entryAt fs (file call) (post call)) = [] := by
        simp [leads, entryAt]
      rw [away, List.append_nil]
      rfl
    | refused =>
      have dropped : ([call].filter (fun call => fs.target (file call) ≠ .refused)).filterMap
          (fun call => entryAt fs (file call) (post call)) = [] := by
        simp [leads]
      rw [dropped, List.append_nil]
      rfl

end Written

end StatGuardian.Py.Okf
