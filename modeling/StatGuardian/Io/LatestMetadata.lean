import StatGuardian.Io.PathResolution
import StatGuardian.Library.Descending
import StatGuardian.Library.LineText

namespace StatGuardian.Text

def trimStartMatches (p : Char → Bool) (s : String) : String := String.ofList (s.toList.dropWhile p)

def numeral (digits : List Char) : Option Nat :=
  if digits.isEmpty || !digits.all Char.isDigit then none
  else some (digits.foldl (fun n c => 10 * n + (c.toNat - '0'.toNat)) 0)

theorem digits_of_numeral {digits : List Char} {n : Nat} (spells : numeral digits = some n) :
    digits ≠ [] ∧ ∀ c ∈ digits, c.isDigit = true := by
  unfold numeral at spells
  split at spells
  · cases spells
  · rename_i fine
    rw [Bool.or_eq_true, not_or, Bool.not_eq_true', Bool.not_eq_false] at fine
    exact ⟨fun empty => fine.1 (List.isEmpty_iff.mpr empty), List.all_eq_true.mp fine.2⟩

theorem not_mem_of_numeral {digits : List Char} {n : Nat} {c : Char}
    (spells : numeral digits = some n) (other : c.isDigit = false) : c ∉ digits := by
  intro member
  have digit := (digits_of_numeral spells).2 c member
  rw [other] at digit
  cases digit

theorem numeral_of_mem {chars : List Char} {c : Char} (member : c ∈ chars)
    (other : c.isDigit = false) : numeral chars = none := by
  apply if_pos
  rw [Bool.or_eq_true, Bool.not_eq_true']
  right
  apply List.all_eq_false.mpr
  exact ⟨c, member, by rw [other]; exact Bool.false_ne_true⟩

theorem parseU64_unsigned (chars : List Char) (unsigned : chars.head? ≠ some '+') :
    parseU64 (String.ofList chars) = (numeral chars).filter (· < 2 ^ 64) := by
  unfold parseU64
  rw [String.toList_ofList]
  split
  · exact absurd rfl unsigned
  · unfold numeral
    dsimp only
    split
    · rfl
    · rw [Option.filter_some]
      simp only [decide_eq_true_eq]

theorem trimEndText_append (stem pattern : List Char) (some_ : pattern ≠ [])
    (once : ¬ pattern <:+ stem) :
    trimEndText (String.ofList pattern) (String.ofList (stem ++ pattern)) = String.ofList stem := by
  unfold trimEndText
  simp only [String.toList_ofList, String.length_ofList, List.reverse_append]
  have starts : pattern.reverse.isPrefixOf (pattern.reverse ++ stem.reverse) = true :=
    List.isPrefixOf_iff_prefix.mpr (List.prefix_append _ _)
  have cut : (pattern.reverse ++ stem.reverse).drop pattern.reverse.length = stem.reverse :=
    List.drop_left
  have stops : pattern.reverse.isPrefixOf stem.reverse = false := by
    rw [Bool.eq_false_iff, ne_eq, List.isPrefixOf_iff_prefix, List.reverse_prefix]
    exact once
  rw [(dropPrefixes_eq_drop_iff pattern.reverse _ _ (by simpa using some_) (by simp; omega)
    starts).mpr (by rw [cut]; exact stops), cut, List.reverse_reverse]

end StatGuardian.Text

namespace StatGuardian.Io.IcebergReader

def metadataVersion (name : String) : Option Nat :=
  if Text.endsWith name ".metadata.json" then
    some ((Text.parseU64 (Text.trimEndText ".metadata.json"
      (Text.trimStartMatches (· == 'v') name))).getD 0)
  else none

def candidate (metadataDir : String) (name : OsName) : Option (Nat × String) :=
  (metadataVersion name.text).map (fun version => (version, pathJoin metadataDir name.text))

def candidates (metadataDir : String) (listing : List (Except String OsName)) :
    List (Nat × String) :=
  (listing.filterMap Except.toOption).filterMap (candidate metadataDir)

def findLatestMetadataFile (metadataDir : String)
    (readDir : Except String (List (Except String OsName))) : Except IoError String :=
  match readDir with
  | .error msg => .error (.io msg)
  | .ok listing =>
    match (Descending.sort Prod.fst (candidates metadataDir listing)).head? with
    | some (_, path) => .ok path
    | none => .error (.readError metadataDir "no *.metadata.json files found")

/-- What `version-hint.text` says. -/
def hintedFile (table : Table) (metadataDir hintPath : String) : Except IoError String :=
  match table.readToString hintPath with
  | .error msg => .error (.readError hintPath msg)
  | .ok hint =>
    match Text.parseU64 (Text.trim hint) with
    | none => .error (.readError hintPath "invalid version-hint.text")
    | some version => .ok (pathJoin metadataDir s!"v{version}.metadata.json")

/-- `load_metadata`, given what `serde_json::from_str::<IcebergMetadata>` does. -/
def loadMetadata (fromStr : String → Except String IcebergMetadata) (table : Table) :
    Except IoError IcebergMetadata :=
  let metadataDir := pathJoin table.root "metadata"
  if !table.isThere metadataDir then
    .error (.readError table.root "no metadata/ directory — not an Iceberg table")
  else do
    let hintPath := pathJoin metadataDir "version-hint.text"
    let metadataFile ←
      if table.isThere hintPath then hintedFile table metadataDir hintPath
      else findLatestMetadataFile metadataDir table.metadataDir
    let content ← (table.readToString metadataFile).mapError (.readError metadataFile)
    (fromStr content).mapError (fun e =>
      .readError metadataFile s!"invalid Iceberg metadata JSON: {e}")

def metadataSuffix : List Char := ".metadata.json".toList

def isHex (c : Char) : Bool :=
  c.isDigit || (decide ('a' ≤ c) && decide (c ≤ 'f')) || (decide ('A' ≤ c) && decide (c ≤ 'F'))

/-- Hexadecimal digits in groups of 8, 4, 4, 4 and 12. -/
def isUuid (chars : List Char) : Bool :=
  chars.length == 36 && chars.zipIdx.all (fun entry =>
    if entry.2 ∈ [8, 13, 18, 23] then entry.1 == '-' else isHex entry.1)

/-- The name is `v<N>.metadata.json`. -/
def Versioned (name : String) (number : Nat) : Prop :=
  ∃ digits, Text.numeral digits = some number ∧ name.toList = 'v' :: (digits ++ metadataSuffix)

/-- The name is `<N>-<uuid>.metadata.json`. -/
def Stamped (name : String) (number : Nat) : Prop :=
  ∃ digits uuid, Text.numeral digits = some number ∧ isUuid uuid = true ∧
    name.toList = digits ++ '-' :: (uuid ++ metadataSuffix)

def Numbered (name : String) (number : Nat) : Prop := Versioned name number ∨ Stamped name number

/-- A listing of the directory, where entries that cannot be read are left out. -/
def Lists (listing : List (Except String OsName)) (files : List OsName) : Prop :=
  (listing.filterMap Except.toOption).Perm files

def Highest (files : List OsName) (top : Nat) : Prop :=
  (∃ file ∈ files, Numbered file.text top) ∧
    ∀ file ∈ files, ∀ number, Numbered file.text number → number ≤ top

/-- Every listing of the files gives one with the highest number, and the same one if there is
    only one. -/
structure ChoosesHighest (metadataDir : String) (files : List OsName) : Prop where
  highest : ∀ listing, Lists listing files → ∀ top, Highest files top →
    ∃ file ∈ files, Numbered file.text top ∧
      findLatestMetadataFile metadataDir (.ok listing) = .ok (pathJoin metadataDir file.text)
  same : ∀ top, Highest files top →
    (∀ file ∈ files, ∀ other ∈ files, Numbered file.text top → Numbered other.text top →
      file = other) →
    ∀ listing listing', Lists listing files → Lists listing' files →
      findLatestMetadataFile metadataDir (.ok listing) =
        findLatestMetadataFile metadataDir (.ok listing')

/-- All metadata files have the highest number, or one named by its version has it and the names
    without a number are read as less. -/
def Settled (files : List OsName) : Prop :=
  ∀ top, Highest files top →
    (∀ file ∈ files, Text.endsWith file.text ".metadata.json" = true → Numbered file.text top) ∨
      (0 < top ∧ top < 2 ^ 64 ∧ (∃ file ∈ files, Versioned file.text top) ∧
        ∀ file ∈ files, (∀ number, ¬ Numbered file.text number) →
          ∀ version, metadataVersion file.text = some version → version < top)

section Names

theorem ne_n_of_hex {c : Char} (hex : c = '-' ∨ isHex c = true) : c ≠ 'n' := by
  intro same
  subst same
  revert hex
  decide

theorem no_n_of_isUuid {uuid : List Char} (valid : isUuid uuid = true) : 'n' ∉ uuid := by
  intro member
  rw [← List.zipIdx_map_fst 0 uuid] at member
  obtain ⟨⟨c, i⟩, inside, same⟩ := List.mem_map.mp member
  have checked := List.all_eq_true.mp (Bool.and_eq_true_iff.mp valid).2 _ inside
  apply ne_n_of_hex _ same
  split at checked
  · left
    exact beq_iff_eq.mp checked
  · right
    exact checked

theorem not_suffix {stem : List Char} (plain : 'n' ∉ stem) : ¬ metadataSuffix <:+ stem := by
  intro ends
  apply plain
  apply ends.subset
  decide

theorem endsWith_of_shape {name : String} {stem : List Char}
    (shape : name.toList = stem ++ metadataSuffix) :
    Text.endsWith name ".metadata.json" = true := by
  rw [Text.endsWith, shape, List.isSuffixOf_iff_suffix]
  exact List.suffix_append _ _

theorem metadataVersion_of_shape {name : String} {before stem : List Char}
    (shape : name.toList = before ++ metadataSuffix)
    (trimmed : (before ++ metadataSuffix).dropWhile (· == 'v') = stem ++ metadataSuffix)
    (plain : 'n' ∉ stem) (unsigned : stem.head? ≠ some '+') :
    metadataVersion name = some (((Text.numeral stem).filter (· < 2 ^ 64)).getD 0) := by
  have once := Text.trimEndText_append stem metadataSuffix (by decide) (not_suffix plain)
  have suffix : String.ofList metadataSuffix = ".metadata.json" := String.ofList_toList
  rw [suffix] at once
  rw [metadataVersion, if_pos (endsWith_of_shape shape), Text.trimStartMatches, shape, trimmed, once,
    Text.parseU64_unsigned stem unsigned]

theorem head_of_numeral {digits : List Char} {n : Nat} (spells : Text.numeral digits = some n)
    (rest : List Char) :
    ∃ c more, digits ++ rest = c :: more ∧ c ≠ 'v' ∧ c ≠ '+' := by
  obtain ⟨c, more, split⟩ := List.exists_cons_of_ne_nil (Text.digits_of_numeral spells).1
  have solid : ∀ other : Char, other.isDigit = false → c ≠ other := by
    intro other sign same
    apply Text.not_mem_of_numeral spells sign
    rw [split, same]
    exact List.mem_cons_self ..
  exact ⟨c, more ++ rest, by rw [split]; rfl, solid 'v' (by decide), solid '+' (by decide)⟩

theorem dropWhile_digits {digits rest : List Char} {n : Nat}
    (spells : Text.numeral digits = some n) :
    (digits ++ rest).dropWhile (· == 'v') = digits ++ rest := by
  obtain ⟨c, more, split, other, _⟩ := head_of_numeral spells rest
  rw [split]
  exact List.dropWhile_cons_of_neg (by simpa using other)

theorem unsigned_digits {digits rest : List Char} {n : Nat}
    (spells : Text.numeral digits = some n) : (digits ++ rest).head? ≠ some '+' := by
  obtain ⟨c, more, split, _, other⟩ := head_of_numeral spells rest
  rw [split, List.head?_cons]
  intro same
  exact other (Option.some.inj same)

/-- A version of 64 bits is read as it is, and any other as 0. -/
theorem metadataVersion_of_versioned {name : String} {n : Nat} (named : Versioned name n) :
    metadataVersion name = some (if n < 2 ^ 64 then n else 0) := by
  obtain ⟨digits, spells, shape⟩ := named
  have plain : 'n' ∉ digits := Text.not_mem_of_numeral spells (by decide)
  have unsigned : (digits ++ []).head? ≠ some '+' := unsigned_digits spells
  rw [List.append_nil] at unsigned
  have before : name.toList = ('v' :: digits) ++ metadataSuffix := shape
  have trimmed : (('v' :: digits) ++ metadataSuffix).dropWhile (· == 'v') =
      digits ++ metadataSuffix := by
    rw [List.cons_append, List.dropWhile_cons_of_pos (by decide)]
    exact dropWhile_digits spells
  rw [metadataVersion_of_shape before trimmed plain unsigned, spells, Option.filter_some]
  simp only [decide_eq_true_eq]
  split <;> rfl

theorem metadataVersion_of_stamped {name : String} {n : Nat} (named : Stamped name n) :
    metadataVersion name = some 0 := by
  obtain ⟨digits, uuid, spells, valid, shape⟩ := named
  have before : name.toList = (digits ++ '-' :: uuid) ++ metadataSuffix := by
    rw [shape, List.append_assoc]
    rfl
  have plain : 'n' ∉ digits ++ '-' :: uuid := by
    intro member
    rcases List.mem_append.mp member with early | late
    · exact Text.not_mem_of_numeral spells (by decide) early
    · rcases List.mem_cons.mp late with dash | inside
      · cases dash
      · exact no_n_of_isUuid valid inside
  have trimmed : ((digits ++ '-' :: uuid) ++ metadataSuffix).dropWhile (· == 'v') =
      (digits ++ '-' :: uuid) ++ metadataSuffix := by
    rw [List.append_assoc]
    exact dropWhile_digits spells
  have dash : '-' ∈ digits ++ '-' :: uuid := by simp
  rw [metadataVersion_of_shape before trimmed plain (unsigned_digits spells),
    Text.numeral_of_mem dash (by decide)]
  rfl

theorem not_stamped_of_versioned {name : String} {n m : Nat} (named : Versioned name n) :
    ¬ Stamped name m := by
  intro ⟨digits, uuid, spells, _, shape⟩
  obtain ⟨_, _, shape'⟩ := named
  obtain ⟨c, more, split, other, _⟩ := head_of_numeral spells ('-' :: (uuid ++ metadataSuffix))
  rw [shape, split] at shape'
  exact other (List.cons.inj shape').1

theorem versioned_unique {name : String} {n m : Nat} (first : Versioned name n)
    (second : Versioned name m) : n = m := by
  obtain ⟨digits, spells, shape⟩ := first
  obtain ⟨digits', spells', shape'⟩ := second
  rw [shape] at shape'
  have equal := List.append_cancel_right (List.cons.inj shape').2
  rw [← equal, spells] at spells'
  exact Option.some.inj spells'

theorem stamped_unique {name : String} {n m : Nat} (first : Stamped name n)
    (second : Stamped name m) : n = m := by
  obtain ⟨digits, uuid, spells, _, shape⟩ := first
  obtain ⟨digits', uuid', spells', _, shape'⟩ := second
  have equal := congrArg (List.takeWhile (· != '-')) (shape.symm.trans shape')
  rw [LineText.takeWhile_append_cons _ _ _ (Text.not_mem_of_numeral spells (by decide)),
    LineText.takeWhile_append_cons _ _ _ (Text.not_mem_of_numeral spells' (by decide))] at equal
  rw [equal, spells'] at spells
  exact (Option.some.inj spells).symm

theorem numbered_unique {name : String} {n m : Nat} (first : Numbered name n)
    (second : Numbered name m) : n = m := by
  rcases first with versioned | stamped
  · exact versioned_unique versioned (second.resolve_right (not_stamped_of_versioned versioned))
  · apply stamped_unique stamped
    apply second.resolve_left
    intro versioned
    exact not_stamped_of_versioned versioned stamped

theorem pathJoin_inj (base : String) {name other : String}
    (same : pathJoin base name = pathJoin base other) : name = other := by
  have chars := congrArg String.toList same
  unfold pathJoin at chars
  split at chars
  · simp only [String.toList_append, List.append_cancel_left_eq] at chars
    exact String.toList_injective chars
  · change ((base ++ "/") ++ name).toList = ((base ++ "/") ++ other).toList at chars
    simp only [String.toList_append, List.append_cancel_left_eq] at chars
    exact String.toList_injective chars

end Names

section Listings

variable {metadataDir : String} {files : List OsName} {listing : List (Except String OsName)}

def Foremost (files : List OsName) (file : OsName) : Prop :=
  file ∈ files ∧ ∃ version, metadataVersion file.text = some version ∧
    ∀ other ∈ files, ∀ version', metadataVersion other.text = some version' → version' ≤ version

theorem mem_candidates (lists : Lists listing files) (version : Nat) (path : String) :
    (version, path) ∈ candidates metadataDir listing ↔
      ∃ file ∈ files, metadataVersion file.text = some version ∧
        path = pathJoin metadataDir file.text := by
  rw [candidates, List.mem_filterMap]
  constructor
  · intro ⟨file, member, made⟩
    obtain ⟨v, known, same⟩ := Option.map_eq_some_iff.mp made
    cases same
    exact ⟨file, lists.mem_iff.mp member, known, rfl⟩
  · intro ⟨file, member, known, same⟩
    refine ⟨file, lists.mem_iff.mpr member, ?_⟩
    rw [candidate, known, same]
    rfl

theorem found_foremost (lists : Lists listing files) {file : OsName} (member : file ∈ files)
    {version : Nat} (known : metadataVersion file.text = some version) :
    ∃ latest, Foremost files latest ∧
      findLatestMetadataFile metadataDir (.ok listing) =
        .ok (pathJoin metadataDir latest.text) := by
  have taken : (version, pathJoin metadataDir file.text) ∈ candidates metadataDir listing :=
    (mem_candidates lists version _).mpr ⟨file, member, known, rfl⟩
  cases head : (Descending.sort Prod.fst (candidates metadataDir listing)).head? with
  | none =>
    have empty := (Descending.sort_perm Prod.fst (candidates metadataDir listing)).symm
    rw [List.head?_eq_none_iff.mp head] at empty
    rw [empty.eq_nil] at taken
    cases taken
  | some latest =>
    obtain ⟨top, path⟩ := latest
    obtain ⟨inside, largest⟩ := Descending.head_largest Prod.fst head
    obtain ⟨chosen, there, named, same⟩ := (mem_candidates lists top path).mp inside
    refine ⟨chosen, ⟨there, top, named, ?_⟩, ?_⟩
    · intro other also version' named'
      exact largest _ ((mem_candidates lists version' _).mpr ⟨other, also, named', rfl⟩)
    · simp only [findLatestMetadataFile, head, same]

def inOrder (files : List OsName) : List (Except String OsName) := files.map Except.ok

theorem read_inOrder (files : List OsName) : (inOrder files).filterMap Except.toOption = files := by
  rw [inOrder, List.filterMap_map]
  exact List.filterMap_some

theorem found_of_foremost {file : OsName} (foremost : Foremost files file) :
    ∃ listing, Lists listing files ∧
      findLatestMetadataFile metadataDir (.ok listing) = .ok (pathJoin metadataDir file.text) := by
  obtain ⟨member, version, known, largest⟩ := foremost
  obtain ⟨before, after, split⟩ := List.append_of_mem member
  have lists : Lists (inOrder (file :: (before ++ after))) files := by
    rw [Lists, read_inOrder, split]
    exact List.perm_middle.symm
  refine ⟨_, lists, ?_⟩
  have made : candidate metadataDir file = some (version, pathJoin metadataDir file.text) := by
    rw [candidate, known]
    rfl
  have first : candidates metadataDir (inOrder (file :: (before ++ after))) =
      (version, pathJoin metadataDir file.text) ::
        (before ++ after).filterMap (candidate metadataDir) := by
    rw [candidates, read_inOrder, List.filterMap_cons_some made]
  have behind : ∀ other ∈ (before ++ after).filterMap (candidate metadataDir),
      other.1 ≤ version := by
    intro ⟨version', path⟩ later
    have inside : (version', path) ∈
        candidates metadataDir (inOrder (file :: (before ++ after))) := by
      rw [first]
      exact List.mem_cons_of_mem _ later
    obtain ⟨other, also, named, _⟩ := (mem_candidates lists version' path).mp inside
    exact largest other also version' named
  have head : (Descending.sort Prod.fst
      (candidates metadataDir (inOrder (file :: (before ++ after))))).head? =
        some (version, pathJoin metadataDir file.text) := by
    rw [first]
    exact Descending.head_of_largest Prod.fst behind
  simp only [findLatestMetadataFile, head]

theorem metadataVersion_of_endsWith {name : String}
    (ends : Text.endsWith name ".metadata.json" = true) :
    ∃ version, metadataVersion name = some version :=
  ⟨_, if_pos ends⟩

theorem endsWith_of_metadataVersion {name : String} {version : Nat}
    (known : metadataVersion name = some version) :
    Text.endsWith name ".metadata.json" = true := by
  by_contra other
  rw [metadataVersion, if_neg other] at known
  cases known

theorem metadataVersion_of_numbered {name : String} {number : Nat}
    (named : Numbered name number) : ∃ version, metadataVersion name = some version := by
  rcases named with versioned | stamped
  · exact ⟨_, metadataVersion_of_versioned versioned⟩
  · exact ⟨_, metadataVersion_of_stamped stamped⟩

/-- In a settled directory every foremost file has the highest number. -/
theorem numbered_of_foremost {top : Nat} (settled : Settled files) (highest : Highest files top)
    {file : OsName} (foremost : Foremost files file) : Numbered file.text top := by
  obtain ⟨member, version, known, largest⟩ := foremost
  rcases settled top highest with all | ⟨positive, small, ⟨best, there, named⟩, less⟩
  · exact all file member (endsWith_of_metadataVersion known)
  · have reached := largest best there _ (metadataVersion_of_versioned named)
    rw [if_pos small] at reached
    by_cases numbered : ∃ number, Numbered file.text number
    · obtain ⟨number, has⟩ := numbered
      have below := highest.2 file member number has
      have read : version = number := by
        rcases has with versioned | stamped
        · rw [metadataVersion_of_versioned versioned, if_pos (by omega)] at known
          exact (Option.some.inj known).symm
        · rw [metadataVersion_of_stamped stamped] at known
          have zero := Option.some.inj known
          omega
      have equal : number = top := by omega
      rw [← equal]
      exact has
    · have short := less file member (fun number has => numbered ⟨number, has⟩) version known
      omega

theorem choosesHighest_of_settled (settled : Settled files) : ChoosesHighest metadataDir files := by
  have chosen : ∀ listing, Lists listing files → ∀ top, Highest files top →
      ∃ file ∈ files, Numbered file.text top ∧
        findLatestMetadataFile metadataDir (.ok listing) =
          .ok (pathJoin metadataDir file.text) := by
    intro listing lists top highest
    obtain ⟨file, member, named⟩ := highest.1
    obtain ⟨version, known⟩ := metadataVersion_of_numbered named
    obtain ⟨latest, foremost, found⟩ := found_foremost lists member known
    exact ⟨latest, foremost.1, numbered_of_foremost settled highest foremost, found⟩
  refine ⟨chosen, ?_⟩
  intro top highest only listing listing' lists lists'
  obtain ⟨file, member, named, found⟩ := chosen listing lists top highest
  obtain ⟨other, also, named', found'⟩ := chosen listing' lists' top highest
  rw [found, found', only file member other also named named']

theorem foremost_of_reached {file other : OsName} {version version' : Nat}
    (foremost : Foremost files file) (known : metadataVersion file.text = some version)
    (also : other ∈ files) (known' : metadataVersion other.text = some version')
    (reached : version ≤ version') : Foremost files other := by
  obtain ⟨_, top, named, largest⟩ := foremost
  rw [named] at known
  have equal := Option.some.inj known
  refine ⟨also, version', known', ?_⟩
  intro third inside version'' known''
  have low := largest third inside version'' known''
  omega

theorem settled_of_foremost
    (chosen : ∀ top, Highest files top → ∀ file, Foremost files file → Numbered file.text top) :
    Settled files := by
  intro top highest
  obtain ⟨source, there, has⟩ := highest.1
  obtain ⟨read, reads⟩ := metadataVersion_of_numbered has
  have lists : Lists (inOrder files) files := by rw [Lists, read_inOrder]
  have found : ∃ latest, Foremost files latest ∧
      findLatestMetadataFile "" (.ok (inOrder files)) = .ok (pathJoin "" latest.text) :=
    found_foremost lists there reads
  obtain ⟨file, foremost, _⟩ := found
  have named := chosen top highest file foremost
  have ⟨member, version, known, _⟩ := foremost
  by_cases zero : version = 0
  · left
    intro other also ends
    obtain ⟨version', known'⟩ := metadataVersion_of_endsWith ends
    apply chosen top highest other
    exact foremost_of_reached foremost known also known' (by omega)
  · right
    have versioned : Versioned file.text top := by
      apply named.resolve_right
      intro stamped
      rw [metadataVersion_of_stamped stamped] at known
      exact zero (Option.some.inj known).symm
    have read := metadataVersion_of_versioned versioned
    rw [known] at read
    have value := Option.some.inj read
    have small : top < 2 ^ 64 := by
      by_contra wide
      rw [if_neg wide] at value
      exact zero value
    rw [if_pos small] at value
    refine ⟨by omega, small, ⟨file, member, versioned⟩, ?_⟩
    intro other also unnumbered version' known'
    by_contra reached
    apply unnumbered top
    apply chosen top highest other
    exact foremost_of_reached foremost known also known' (by omega)

theorem numbered_of_chooses {top : Nat} (chooses : ChoosesHighest metadataDir files)
    (highest : Highest files top) {file : OsName} (foremost : Foremost files file) :
    Numbered file.text top := by
  obtain ⟨listing, lists, found⟩ := found_of_foremost foremost
  obtain ⟨other, _, named, found'⟩ := chooses.highest listing lists top highest
  rw [found] at found'
  rw [pathJoin_inj metadataDir (Except.ok.inj found')]
  exact named

/-- The highest number is chosen under every order of the listing just in a settled directory. -/
theorem choosesHighest_iff (metadataDir : String) (files : List OsName) :
    ChoosesHighest metadataDir files ↔ Settled files := by
  constructor
  · intro chooses
    apply settled_of_foremost
    intro top highest file foremost
    exact numbered_of_chooses chooses highest foremost
  · exact choosesHighest_of_settled

def olderMetadata : OsName := ⟨"00001-9c12d441-03fe-4693-9a96-a0705ddf69c1.metadata.json", true⟩

def newerMetadata : OsName := ⟨"00002-0d1a6f7b-5d2e-4c41-8f0e-7b3c2a9e5d10.metadata.json", true⟩

/-- Of two names with a UUID the one that is listed first is chosen. -/
theorem first_listed_chosen :
    ¬ ChoosesHighest "t/metadata" [olderMetadata, newerMetadata] := by
  intro chooses
  have older : Stamped olderMetadata.text 1 :=
    ⟨"00001".toList, "9c12d441-03fe-4693-9a96-a0705ddf69c1".toList, by decide, by decide,
      by decide⟩
  have newer : Stamped newerMetadata.text 2 :=
    ⟨"00002".toList, "0d1a6f7b-5d2e-4c41-8f0e-7b3c2a9e5d10".toList, by decide, by decide,
      by decide⟩
  have either : ∀ file ∈ [olderMetadata, newerMetadata],
      Stamped file.text 1 ∨ Stamped file.text 2 := by
    intro file member
    rcases List.mem_cons.mp member with first | rest
    · rw [first]
      exact .inl older
    · rw [List.mem_singleton.mp rest]
      exact .inr newer
  have highest : Highest [olderMetadata, newerMetadata] 2 := by
    refine ⟨⟨newerMetadata, .tail _ (.head _), .inr newer⟩, ?_⟩
    intro file member number named
    rcases either file member with one | two
    · rw [numbered_unique named (.inr one)]
      decide
    · rw [numbered_unique named (.inr two)]
  have foremost : Foremost [olderMetadata, newerMetadata] olderMetadata := by
    refine ⟨.head _, 0, metadataVersion_of_stamped older, ?_⟩
    intro file member version known
    rcases either file member with one | two
    · rw [metadataVersion_of_stamped one] at known
      exact (Option.some.inj known).ge
    · rw [metadataVersion_of_stamped two] at known
      exact (Option.some.inj known).ge
  have equal := numbered_unique (numbered_of_chooses chooses highest foremost) (.inr older)
  omega

/-- Where one file has the highest number, the metadata that is loaded does not depend on the order
    in which a settled directory is listed. -/
theorem loadMetadata_listing (fromStr : String → Except String IcebergMetadata) (table : Table)
    (settled : Settled files) {top : Nat} (highest : Highest files top)
    (only : ∀ file ∈ files, ∀ other ∈ files, Numbered file.text top → Numbered other.text top →
      file = other)
    {listing' : List (Except String OsName)} (lists : Lists listing files)
    (lists' : Lists listing' files) :
    loadMetadata fromStr { table with metadataDir := .ok listing } =
      loadMetadata fromStr { table with metadataDir := .ok listing' } := by
  have chooses : ChoosesHighest (pathJoin table.root "metadata") files :=
    choosesHighest_of_settled settled
  have same := chooses.same top highest only listing listing' lists lists'
  unfold loadMetadata
  simp only [same]
  rfl

end Listings

end StatGuardian.Io.IcebergReader
