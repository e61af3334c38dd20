import StatGuardian.Io.Iceberg
import StatGuardian.Library.Results

namespace StatGuardian.Io.IcebergReader

open Results
open StatGuardian.Stream (Value)

/-- What the Avro files of a table say, which the reader does not decode. -/
structure AvroFiles where
  /-- The manifests that a manifest list names. -/
  manifestList : String → List String
  /-- The data files that a manifest names. -/
  manifest : String → List String

variable {D : Type} (env : IcebergEnv D) (table : Table) (avro : AvroFiles)

/-- The JSON file that is read for a manifest, if there is one. -/
def jsonOf (manifest : String) : Option String :=
  if table.isThere (Text.replace manifest ".avro" ".json") then
    some (Text.replace manifest ".avro" ".json")
  else if Text.endsWith manifest ".json" && table.isThere manifest then some manifest
  else none

def named (json : String) : List String :=
  ((readManifestJson env table json).toOption.map (List.map IcebergDataFile.filePath)).getD []

/-- The Parquet files under `data/`. -/
def scanned : List String := (scanDataDirectory table).map IcebergDataFile.filePath

inductive Belongs (snapshot : IcebergSnapshot) (manifest : String) : Prop where
  | json (raw list : String) (has : snapshot.manifestList = some raw)
      (at_ : resolvePath raw table.root = .ok list) (isJson : Text.endsWith list ".json" = true)
      (entries : List Value) (read : readJsonList env table list = .ok entries)
      (rawManifest : String) (member : rawManifest ∈ entries.filterMap manifestPath?)
      (resolved : resolvePath rawManifest table.root = .ok manifest)
  | avro (raw list : String) (has : snapshot.manifestList = some raw)
      (at_ : resolvePath raw table.root = .ok list) (isAvro : Text.endsWith list ".json" = false)
      (rawManifest : String) (member : rawManifest ∈ avro.manifestList list)
      (resolved : resolvePath rawManifest table.root = .ok manifest)
  | inline (bare : snapshot.manifestList = none) (manifests : List String)
      (has : snapshot.manifests = some manifests) (rawManifest : String)
      (member : rawManifest ∈ manifests) (resolved : resolvePath rawManifest table.root = .ok manifest)

/-- A manifest references the files that its JSON names, or the Avro file where there is none. -/
inductive References (manifest path : String) : Prop where
  | json (json : String) (sidecar : jsonOf table manifest = some json)
      (member : path ∈ named env table json)
  | avro (bare : jsonOf table manifest = none) (raw : String) (member : raw ∈ avro.manifest manifest)
      (resolved : resolvePath raw table.root = .ok path)

def Owns (snapshot : IcebergSnapshot) (path : String) : Prop :=
  ∃ manifest, Belongs env table avro snapshot manifest ∧ References env table avro manifest path

def Foreign (metadata : IcebergMetadata) (snapshot : IcebergSnapshot) (path : String) : Prop :=
  (∃ other ∈ metadata.snapshots.getD [], other.snapshotId ≠ snapshot.snapshotId ∧
    Owns env table avro other path) ∧ ¬ Owns env table avro snapshot path

/-- What is loaded for a snapshot has no file twice and none of other snapshots alone. -/
def OwnOnce (metadata : IcebergMetadata) (snapshot : IcebergSnapshot) : Prop :=
  ∀ files, collectDataFiles env table snapshot = .ok files →
    (files.map IcebergDataFile.filePath).Nodup ∧
    ∀ file ∈ files, ¬ Foreign env table avro metadata snapshot file.filePath

def listed (list : String) : Except Stop (List String) :=
  if Text.endsWith list ".json" then do
    let entries ← readJsonList env table list
    (entries.filterMap manifestPath?).mapM (fun path => resolvePath path table.root)
  else match table.metadataDir with
    | .error msg => .error (.refused (.io msg))
    | .ok listing => .ok (manifestFiles table listing)

def consulted (snapshot : IcebergSnapshot) : Except Stop (List String) :=
  match snapshot.manifestList with
  | some raw => do listed env table (← resolvePath raw table.root)
  | none =>
    match snapshot.manifests with
    | some manifests => manifests.mapM (fun path => resolvePath path table.root)
    | none =>
      .error (.refused (.readError table.root "snapshot has neither manifest-list nor manifests"))

/-- The manifest list is one that the reader does not decode. -/
def Undecoded (snapshot : IcebergSnapshot) : Prop :=
  ∃ raw list, snapshot.manifestList = some raw ∧ resolvePath raw table.root = .ok list ∧
    Text.endsWith list ".json" = false

/-- The fallbacks do no harm: no two manifests have a file in common, be it named in JSON or found
    under `data/`, and what is found or read for want of Avro is not of another snapshot. -/
structure Harmless (metadata : IcebergMetadata) (snapshot : IcebergSnapshot)
    (manifests : List String) : Prop where
  distinct : ∀ manifest ∈ manifests, ∀ json, jsonOf table manifest = some json →
    (named env table json).Nodup
  apart : manifests.Pairwise fun first second => ∀ json json', jsonOf table first = some json →
    jsonOf table second = some json' → (named env table json).Disjoint (named env table json')
  oneScan : manifests.Pairwise fun first second => jsonOf table first = none →
    jsonOf table second = none → scanned table = []
  scan : ∀ manifest ∈ manifests, jsonOf table manifest = none → (scanned table).Nodup ∧
    (∀ other ∈ manifests, ∀ json, jsonOf table other = some json →
      (scanned table).Disjoint (named env table json)) ∧
    ∀ path ∈ scanned table, ¬ Foreign env table avro metadata snapshot path
  undecoded : Undecoded table snapshot → ∀ manifest ∈ manifests, ∀ json,
    jsonOf table manifest = some json → ∀ path ∈ named env table json,
      ¬ Foreign env table avro metadata snapshot path

variable {env table avro}

theorem readManifest_eq (manifest : String) :
    readManifest env table manifest = match jsonOf table manifest with
      | some json => readManifestJson env table json
      | none => .ok (scanDataDirectory table) := by
  simp only [readManifest, jsonOf]
  split
  · rfl
  · split <;> rfl

theorem extendAll_ok_iff {α : Type} (step : α → Except Stop (List IcebergDataFile)) (items : List α)
    (files : List IcebergDataFile) :
    extendAll step items = .ok files ↔
      ∃ lists, items.mapM step = .ok lists ∧ files = lists.flatten := by
  suffices from_ : ∀ before, items.foldlM (fun files item => do return files ++ (← step item)) before =
      .ok files ↔ ∃ lists, items.mapM step = .ok lists ∧ files = before ++ lists.flatten from from_ []
  induction items with
  | nil =>
    intro before
    constructor
    · intro same
      cases same
      exact ⟨[], rfl, (List.append_nil _).symm⟩
    · rintro ⟨_, done, rfl⟩
      cases done
      exact congrArg Except.ok (List.append_nil before).symm
  | cons item rest ih =>
    intro before
    simp only [List.foldlM_cons, List.mapM_cons, bind_ok_iff]
    constructor
    · rintro ⟨_, ⟨found, here, same⟩, later⟩
      cases same
      obtain ⟨lists, mapped, rfl⟩ := (ih _).mp later
      exact ⟨found :: lists, ⟨found, here, lists, mapped, rfl⟩, List.append_assoc ..⟩
    · rintro ⟨_, ⟨found, here, lists, mapped, same⟩, rfl⟩
      cases same
      exact ⟨_, ⟨found, here, rfl⟩, (ih _).mpr ⟨lists, mapped, (List.append_assoc ..).symm⟩⟩

theorem extendAll_readManifestAt (raws : List String) (files : List IcebergDataFile) :
    extendAll (readManifestAt env table) raws = .ok files ↔
      ∃ manifests lists, raws.mapM (fun path => resolvePath path table.root) = .ok manifests ∧
        manifests.mapM (readManifest env table) = .ok lists ∧ files = lists.flatten := by
  have steps : readManifestAt env table =
      fun path => resolvePath path table.root >>= readManifest env table := rfl
  simp only [extendAll_ok_iff, steps, mapM_bind_ok_iff]
  constructor
  · rintro ⟨lists, ⟨manifests, resolved, read⟩, same⟩
    exact ⟨manifests, lists, resolved, read, same⟩
  · rintro ⟨manifests, lists, resolved, read, same⟩
    exact ⟨lists, ⟨manifests, resolved, read⟩, same⟩

theorem collectFromJsonManifestList_eq (list : String) :
    collectFromJsonManifestList env table list = (do
      let entries ← readJsonList env table list
      extendAll (readManifestAt env table) (entries.filterMap manifestPath?)) := by
  rw [collectFromJsonManifestList]
  congr 1
  funext entries
  rw [extendAll, extendAll, List.foldlM_filterMap]
  congr 1
  funext files entry
  cases manifestPath? entry with
  | none => exact congrArg Except.ok (List.append_nil files)
  | some manifestPath => rfl

theorem collectFromManifestList_ok_iff (list : String) (files : List IcebergDataFile) :
    collectFromManifestList env table list = .ok files ↔
      ∃ manifests lists, listed env table list = .ok manifests ∧
        manifests.mapM (readManifest env table) = .ok lists ∧ files = lists.flatten := by
  rw [collectFromManifestList, listed]
  cases Text.endsWith list ".json" with
  | true =>
    rw [if_pos rfl, if_pos rfl, collectFromJsonManifestList_eq]
    simp only [bind_ok_iff, extendAll_readManifestAt]
    constructor
    · rintro ⟨entries, read, manifests, lists, resolved, rest⟩
      exact ⟨manifests, lists, ⟨entries, read, resolved⟩, rest⟩
    · rintro ⟨manifests, lists, ⟨entries, read, resolved⟩, rest⟩
      exact ⟨entries, read, manifests, lists, resolved, rest⟩
  | false =>
    rw [if_neg Bool.false_ne_true, if_neg Bool.false_ne_true, collectManifestsFromDirectory]
    cases table.metadataDir with
    | error msg => exact ⟨fun failed => (nomatch failed), fun ⟨_, _, failed, _⟩ => (nomatch failed)⟩
    | ok listing =>
      rw [extendAll_ok_iff]
      constructor
      · rintro ⟨lists, rest⟩
        exact ⟨_, lists, rfl, rest⟩
      · rintro ⟨_, lists, same, rest⟩
        cases same
        exact ⟨lists, rest⟩

theorem collectDataFiles_ok_iff (snapshot : IcebergSnapshot) (files : List IcebergDataFile) :
    collectDataFiles env table snapshot = .ok files ↔
      ∃ manifests lists, consulted env table snapshot = .ok manifests ∧
        manifests.mapM (readManifest env table) = .ok lists ∧ files = lists.flatten := by
  rw [collectDataFiles, consulted]
  cases snapshot.manifestList with
  | none =>
    cases snapshot.manifests with
    | none => exact ⟨fun failed => (nomatch failed), fun ⟨_, _, failed, _⟩ => (nomatch failed)⟩
    | some manifests => exact extendAll_readManifestAt manifests files
  | some raw =>
    simp only [bind_ok_iff, collectFromManifestList_ok_iff]
    constructor
    · rintro ⟨list, at_, manifests, lists, consulted, rest⟩
      exact ⟨manifests, lists, ⟨list, at_, consulted⟩, rest⟩
    · rintro ⟨manifests, lists, ⟨list, at_, consulted⟩, rest⟩
      exact ⟨list, at_, manifests, lists, consulted, rest⟩

def pathsOf (env : IcebergEnv D) (table : Table) (manifest : String) : List String :=
  match jsonOf table manifest with
  | some json => named env table json
  | none => scanned table

theorem pathsOf_json {manifest json : String} (sidecar : jsonOf table manifest = some json) :
    pathsOf env table manifest = named env table json := by
  rw [pathsOf, sidecar]

variable (env) in
theorem pathsOf_scan {manifest : String} (bare : jsonOf table manifest = none) :
    pathsOf env table manifest = scanned table := by
  rw [pathsOf, bare]

theorem pathsOf_of_read {manifest : String} {files : List IcebergDataFile}
    (read : readManifest env table manifest = .ok files) :
    files.map IcebergDataFile.filePath = pathsOf env table manifest := by
  rw [readManifest_eq] at read
  rw [pathsOf]
  cases sidecar : jsonOf table manifest with
  | none =>
    rw [sidecar] at read
    cases read
    rfl
  | some json =>
    rw [sidecar] at read
    simp only [named, show readManifestJson env table json = .ok files from read]
    rfl

theorem map_flatten {manifests : List String} {lists : List (List IcebergDataFile)}
    (read : manifests.mapM (readManifest env table) = .ok lists) :
    lists.flatten.map IcebergDataFile.filePath = manifests.flatMap (pathsOf env table) := by
  have each := (mapM_ok_iff _ _ _).mp read
  rw [List.map_flatten, List.flatMap_def]
  congr 1
  exact (map_eq_map_of_forall₂ each (pathsOf env table) (List.map IcebergDataFile.filePath)
    (fun _ _ _ found => (pathsOf_of_read found).symm)).symm

theorem own_of_decoded {snapshot : IcebergSnapshot} {manifests : List String}
    (consults : consulted env table snapshot = .ok manifests) (decoded : ¬ Undecoded table snapshot)
    {manifest : String} (member : manifest ∈ manifests) : Belongs env table avro snapshot manifest := by
  have resolvedFrom : ∀ raws : List String,
      raws.mapM (fun path => resolvePath path table.root) = .ok manifests →
        ∃ raw ∈ raws, resolvePath raw table.root = .ok manifest := by
    intro raws resolved
    exact forall₂_right ((mapM_ok_iff _ _ _).mp resolved) manifest member
  rw [consulted] at consults
  cases has : snapshot.manifestList with
  | none =>
    rw [has] at consults
    cases inline : snapshot.manifests with
    | none =>
      rw [inline] at consults
      cases consults
    | some raws =>
      rw [inline] at consults
      obtain ⟨raw, there, resolved⟩ := resolvedFrom raws consults
      exact .inline has raws inline raw there resolved
  | some raw =>
    rw [has] at consults
    obtain ⟨list, at_, consults⟩ := (bind_ok_iff _ _ _).mp consults
    have isJson : Text.endsWith list ".json" = true := by
      by_contra other
      exact decoded ⟨raw, list, has, at_, Bool.eq_false_iff.mpr other⟩
    rw [listed, if_pos isJson] at consults
    obtain ⟨entries, read, resolved⟩ := (bind_ok_iff _ _ _).mp consults
    obtain ⟨rawManifest, there, resolved⟩ := resolvedFrom _ resolved
    exact .json raw list has at_ isJson entries read rawManifest there resolved

theorem own_of_named {snapshot : IcebergSnapshot} {manifests : List String}
    (consults : consulted env table snapshot = .ok manifests) (decoded : ¬ Undecoded table snapshot)
    {manifest json path : String} (member : manifest ∈ manifests)
    (sidecar : jsonOf table manifest = some json) (there : path ∈ named env table json) : Owns env table avro snapshot path :=
  ⟨manifest, own_of_decoded consults decoded member, .json json sidecar there⟩

theorem harmless_of_once {metadata : IcebergMetadata} {snapshot : IcebergSnapshot}
    {manifests : List String} (once : ∀ manifest ∈ manifests, (pathsOf env table manifest).Nodup)
    (disjoint : manifests.Pairwise (Function.onFun List.Disjoint (pathsOf env table)))
    (own : ∀ path ∈ manifests.flatMap (pathsOf env table),
      ¬ Foreign env table avro metadata snapshot path) :
    Harmless env table avro metadata snapshot manifests := by
  have : Std.Symm (Function.onFun List.Disjoint (pathsOf env table)) := ⟨fun _ _ => List.disjoint_symm⟩
  constructor
  case distinct =>
    intro manifest member json sidecar
    rw [← pathsOf_json sidecar]
    exact once manifest member
  case apart =>
    apply disjoint.imp
    intro first second apart json json' sidecar sidecar'
    rw [← pathsOf_json sidecar, ← pathsOf_json sidecar']
    exact apart
  case oneScan =>
    apply disjoint.imp
    intro first second apart bare bare'
    have apart : (pathsOf env table first).Disjoint (pathsOf env table second) := apart
    rw [pathsOf_scan env bare, pathsOf_scan env bare'] at apart
    exact List.eq_nil_iff_forall_not_mem.mpr fun path found => apart found found
  case scan =>
    intro manifest member bare
    rw [← pathsOf_scan env bare]
    refine ⟨once manifest member, ?_, ?_⟩
    · intro other there json sidecar
      have differ : manifest ≠ other := by
        rintro rfl
        cases bare.symm.trans sidecar
      rw [← pathsOf_json sidecar]
      exact disjoint.forall member there differ
    · exact fun path found => own path (List.mem_flatMap.mpr ⟨manifest, member, found⟩)
  case undecoded =>
    intro _ manifest member json sidecar path found
    exact own path (List.mem_flatMap.mpr ⟨manifest, member, pathsOf_json sidecar ▸ found⟩)

namespace Harmless

variable {metadata : IcebergMetadata} {snapshot : IcebergSnapshot} {manifests : List String}
  (harmless : Harmless env table avro metadata snapshot manifests)

include harmless

theorem nodup {manifest : String} (member : manifest ∈ manifests) :
    (pathsOf env table manifest).Nodup := by
  cases sidecar : jsonOf table manifest with
  | none => exact pathsOf_scan env sidecar ▸ (harmless.scan manifest member sidecar).1
  | some json => exact pathsOf_json sidecar ▸ harmless.distinct manifest member json sidecar

theorem disjoint : manifests.Pairwise (Function.onFun List.Disjoint (pathsOf env table)) := by
  apply (harmless.apart.and harmless.oneScan).imp_of_mem
  rintro first second member there ⟨apart, oneScan⟩
  show (pathsOf env table first).Disjoint (pathsOf env table second)
  cases sidecar : jsonOf table first with
  | none =>
    rw [pathsOf_scan env sidecar]
    cases sidecar' : jsonOf table second with
    | none =>
      rw [oneScan sidecar sidecar']
      exact List.disjoint_nil_left _
    | some json' =>
      rw [pathsOf_json sidecar']
      exact (harmless.scan first member sidecar).2.1 second there json' sidecar'
  | some json =>
    rw [pathsOf_json sidecar]
    cases sidecar' : jsonOf table second with
    | none =>
      rw [pathsOf_scan env sidecar']
      exact List.disjoint_symm ((harmless.scan second there sidecar').2.1 first member json sidecar)
    | some json' =>
      rw [pathsOf_json sidecar']
      exact apart json json' sidecar sidecar'

theorem own (consults : consulted env table snapshot = .ok manifests) {path : String}
    (found : path ∈ manifests.flatMap (pathsOf env table)) :
    ¬ Foreign env table avro metadata snapshot path := by
  obtain ⟨manifest, member, found⟩ := List.mem_flatMap.mp found
  cases sidecar : jsonOf table manifest with
  | none =>
    rw [pathsOf_scan env sidecar] at found
    exact (harmless.scan manifest member sidecar).2.2 path found
  | some json =>
    rw [pathsOf_json sidecar] at found
    by_cases undecoded : Undecoded table snapshot
    · exact harmless.undecoded undecoded manifest member json sidecar path found
    · exact fun foreign => foreign.2 (own_of_named consults undecoded member sidecar found)

end Harmless

/-- The files of the consulted manifests are different and none is foreign exactly if the fallbacks do
    no harm. -/
theorem paths_iff_harmless {metadata : IcebergMetadata} {snapshot : IcebergSnapshot}
    {manifests : List String} (consults : consulted env table snapshot = .ok manifests) :
    ((manifests.flatMap (pathsOf env table)).Nodup ∧
      ∀ path ∈ manifests.flatMap (pathsOf env table),
        ¬ Foreign env table avro metadata snapshot path) ↔
    Harmless env table avro metadata snapshot manifests := by
  rw [List.nodup_flatMap]
  constructor
  · rintro ⟨⟨once, disjoint⟩, own⟩
    exact harmless_of_once once disjoint own
  · intro harmless
    exact ⟨⟨fun _ member => harmless.nodup member, harmless.disjoint⟩,
      fun _ found => harmless.own consults found⟩

theorem readManifest_returns_iff (manifest : String) :
    (∃ files, readManifest env table manifest = .ok files) ↔
      ∀ json, jsonOf table manifest = some json →
        ∃ files, readManifestJson env table json = .ok files := by
  rw [readManifest_eq]
  cases jsonOf table manifest with
  | none => exact ⟨fun _ _ other => (nomatch other), fun _ => ⟨_, rfl⟩⟩
  | some json =>
    constructor
    · rintro read _ same
      cases same
      exact read
    · exact fun reads => reads json rfl

/-- A snapshot is loaded from its own files, each once, exactly if the manifests that are consulted,
    when they can all be found and read, leave the fallbacks harmless. -/
theorem ownOnce_iff (metadata : IcebergMetadata) (snapshot : IcebergSnapshot) :
    OwnOnce env table avro metadata snapshot ↔
      ∀ manifests, consulted env table snapshot = .ok manifests →
        (∀ manifest ∈ manifests, ∀ json, jsonOf table manifest = some json →
          ∃ files, readManifestJson env table json = .ok files) →
        Harmless env table avro metadata snapshot manifests := by
  constructor
  · intro own manifests consults readable
    have reads := (mapM_returns_iff (readManifest env table) manifests).mpr
      fun manifest member => (readManifest_returns_iff manifest).mpr (readable manifest member)
    obtain ⟨lists, read⟩ := reads
    have holds := own lists.flatten
      ((collectDataFiles_ok_iff snapshot _).mpr ⟨manifests, lists, consults, read, rfl⟩)
    rw [← paths_iff_harmless consults, ← map_flatten read]
    exact ⟨holds.1, List.forall_mem_map.mpr holds.2⟩
  · intro harmless files collected
    obtain ⟨manifests, lists, consults, read, rfl⟩ := (collectDataFiles_ok_iff snapshot _).mp collected
    have readable := (mapM_returns_iff (readManifest env table) manifests).mp ⟨lists, read⟩
    have holds := (paths_iff_harmless consults).mpr (harmless manifests consults
      fun manifest member => (readManifest_returns_iff manifest).mp (readable manifest member))
    rw [← map_flatten read] at holds
    exact ⟨holds.1, fun file member => holds.2 _ (List.mem_map_of_mem member)⟩

section Fallbacks

def partsEnv : IcebergEnv (List String) where
  fromStr content := .ok [.object [("data_file", .object
    [("file_path", .string s!"data/part-{content}.parquet"), ("record_count", .number "1"),
      ("file_size_in_bytes", .number "100")])]]
  toUppercase := id
  readParquet path := .ok [path]
  vstackMut acc df := .ok (acc ++ df)
  empty := []

def bareTable : Table where
  root := "t"
  isThere _ := false
  readToString path := .error s!"{path} not found"
  metadataDir := .ok []
  dataDir := some [.file ⟨"part-1.parquet", true⟩]
  fileLen _ := some 100

def twoManifests : IcebergSnapshot := ⟨1, none, some ["metadata/m1.avro", "metadata/m2.avro"], none, 10, []⟩

def sidecarTable : Table where
  root := "t"
  isThere path := ["t/metadata/m1.json", "t/metadata/m2.json"].contains path
  readToString path :=
    if path = "t/metadata/m1.json" then .ok "1"
    else if path = "t/metadata/m2.json" then .ok "2"
    else .error s!"{path} not found"
  metadataDir :=
    .ok (["snap-1.avro", "m1.avro", "snap-2.avro", "m2.avro"].map (fun name => .ok ⟨name, true⟩))
  dataDir := some [.file ⟨"part-1.parquet", true⟩, .file ⟨"part-2.parquet", true⟩]
  fileLen _ := some 100

def firstSnapshot : IcebergSnapshot := ⟨1, some "metadata/snap-1.avro", none, none, 10, []⟩

def secondSnapshot : IcebergSnapshot := ⟨2, some "metadata/snap-2.avro", none, some 1, 20, []⟩

def twoSnapshots : IcebergMetadata := ⟨some 2, some [firstSnapshot, secondSnapshot]⟩

def ownManifests : AvroFiles where
  manifestList list :=
    if list = "t/metadata/snap-1.avro" then ["metadata/m1.avro"]
    else if list = "t/metadata/snap-2.avro" then ["metadata/m2.avro"]
    else []
  manifest _ := []

theorem firstSnapshot_not_owns :
    ¬ Owns partsEnv sidecarTable ownManifests firstSnapshot "t/data/part-2.parquet" := by
  have list_ : resolvePath "metadata/snap-1.avro" sidecarTable.root = .ok "t/metadata/snap-1.avro" := by
    decide +kernel
  have manifest_ : resolvePath "metadata/m1.avro" sidecarTable.root = .ok "t/metadata/m1.avro" := by
    decide +kernel
  have json_ : jsonOf sidecarTable "t/metadata/m1.avro" = some "t/metadata/m1.json" := by
    decide +kernel
  have files : named partsEnv sidecarTable "t/metadata/m1.json" = ["t/data/part-1.parquet"] := by
    decide +kernel
  rintro ⟨manifest, belongs, references⟩
  obtain rfl : manifest = "t/metadata/m1.avro" := by
    cases belongs with
    | json raw list has at_ isJson =>
      cases has
      obtain rfl := Except.ok.inj (at_.symm.trans list_)
      exact absurd isJson (by decide +kernel)
    | avro raw list has at_ isAvro rawManifest member resolved =>
      cases has
      obtain rfl := Except.ok.inj (at_.symm.trans list_)
      simp only [ownManifests, ↓reduceIte, List.mem_singleton] at member
      rw [member, manifest_] at resolved
      exact (Except.ok.inj resolved).symm
    | inline bare => cases bare
  cases references with
  | json json sidecar member =>
    obtain rfl := Option.some.inj (sidecar.symm.trans json_)
    rw [files, List.mem_singleton] at member
    exact absurd member (by decide)
  | avro bare => cases bare.symm.trans json_

/-- The one data file is loaded twice for two manifests, and the file of the second snapshot is loaded
    for the first. -/
theorem fallbacks_mix :
    ¬ OwnOnce partsEnv bareTable ownManifests ⟨some 1, some [twoManifests]⟩ twoManifests ∧
    ¬ OwnOnce partsEnv sidecarTable ownManifests twoSnapshots firstSnapshot := by
  constructor
  · intro own
    have collected : collectDataFiles partsEnv bareTable twoManifests =
        .ok [⟨"t/data/part-1.parquet", "PARQUET", 0, 100⟩,
          ⟨"t/data/part-1.parquet", "PARQUET", 0, 100⟩] := by
      decide +kernel
    exact absurd (own _ collected).1 (by decide)
  · intro own
    have collected : collectDataFiles partsEnv sidecarTable firstSnapshot =
        .ok [⟨"t/data/part-1.parquet", "PARQUET", 1, 100⟩,
          ⟨"t/data/part-2.parquet", "PARQUET", 1, 100⟩] := by
      decide +kernel
    refine (own _ collected).2 _ (List.mem_cons_of_mem _ (List.mem_singleton_self _)) ⟨?_, ?_⟩
    · refine ⟨secondSnapshot, List.mem_cons_of_mem _ (List.mem_singleton_self _), by decide, ?_⟩
      refine ⟨"t/metadata/m2.avro", .avro "metadata/snap-2.avro" "t/metadata/snap-2.avro" rfl ?_ ?_
        "metadata/m2.avro" ?_ ?_, .json "t/metadata/m2.json" ?_ ?_⟩
      all_goals decide +kernel
    · exact firstSnapshot_not_owns

end Fallbacks

end StatGuardian.Io.IcebergReader
