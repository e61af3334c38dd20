import StatGuardian.Library.LineText
import StatGuardian.Py.OkfFiles

namespace StatGuardian.Py.Okf

open KeyedValues

inductive FrontMatter where
  | null
  | bool (value : Bool)
  | number (text : String)
  | text (value : String)
  | list (items : List FrontMatter)
  | dict (entries : List (String × FrontMatter))

structure ContractPost where
  contractName : Option String
  schema : Option FrontMatter
  rules : Option FrontMatter
  baseline : Option FrontMatter
  baselineUpdated : Option String
  content : String

/-- `PurePath.stem`: a dot at the start or at the end of a name begins no suffix. -/
def stem (name : String) : String :=
  let before := LineText.beforeLast '.' name.toList
  if before = [] ∨ name.toList.getLast? = some '.' then name else String.ofList before

/-- A document by its path from the `contracts` directory. -/
structure ContractDocument where
  path : String
  post : ContractPost

namespace ContractDocument

def contractName (doc : ContractDocument) : String := doc.post.contractName.getD (stem doc.path)

def schema (doc : ContractDocument) : FrontMatter := doc.post.schema.getD (.dict [])

def rules (doc : ContractDocument) : FrontMatter := doc.post.rules.getD (.list [])

def baseline (doc : ContractDocument) : Option FrontMatter := doc.post.baseline

end ContractDocument

/-- The `contracts` directory. A file that does not load as a document has none. -/
abbrev ContractFiles := Files (Option ContractPost)

structure ContractCatalog where
  files : ContractFiles
  contracts : Map String ContractDocument

namespace ContractCatalog

/-- The documents that `glob("contracts/*.md")` finds and that load. -/
def documents (order : ListingOrder) (files : ContractFiles) : List ContractDocument :=
  (listing order files "*.md").filterMap (fun file => file.2.map (ContractDocument.mk file.1))

/-- `_load_all`, where the last document of a name stays. -/
def loadAll (order : ListingOrder) (files : ContractFiles) : ContractCatalog where
  files := files
  contracts := (documents order files).foldl
    (fun contracts doc => contracts.insert doc.contractName doc) ∅

def getBaseline (catalog : ContractCatalog) (contractName : String) : Option FrontMatter :=
  match get catalog.contracts contractName with
  | some contract => contract.baseline
  | none => none

def updatedPost (contract : ContractDocument) (baseline : FrontMatter) (now : String) :
    ContractPost :=
  { contract.post with baseline := some baseline, baselineUpdated := some now }

def contractFile (contractName : String) : String := s!"{contractName}.md"

def saveBaseline (fs : FileSystem (Option ContractPost)) (order : ListingOrder) (now : String)
    (catalog : ContractCatalog) (contractName : String) (baseline : FrontMatter) :
    Except OkfError (ContractCatalog × String) :=
  match get catalog.contracts contractName with
  | none => .error (.valueError s!"Contract '{contractName}' not found")
  | some contract => do
    let docPath := contractFile contractName
    let files ← writeText fs catalog.files docPath (some (updatedPost contract baseline now))
    return (loadAll order files, docPath)

structure TakesEffect (catalog after : ContractCatalog) (contractName : String)
    (baseline : FrontMatter) : Prop where
  saved : getBaseline after contractName = some baseline
  names : ∀ name, name ∈ after.contracts ↔ name ∈ catalog.contracts
  unchanged : ∀ name old new, get catalog.contracts name = some old →
    get after.contracts name = some new → new.schema = old.schema ∧ new.rules = old.rules

/-- A document that a listing of the directory reads. -/
def Listed (files : ContractFiles) (doc : ContractDocument) : Prop :=
  get files doc.path = some (some doc.post) ∧ Glob.fnmatch "*.md" doc.path = true

/-- The documents outside the file that the save writes have what the catalog has of their names,
    the baseline to be saved if they have its name, and all names but this one. -/
structure OthersAgree (fs : FileSystem (Option ContractPost)) (catalog : ContractCatalog)
    (contractName : String) (baseline : FrontMatter) : Prop where
  agree : ∀ doc, Listed catalog.files doc →
    fs.target (contractFile contractName) ≠ .below doc.path →
    ∀ loaded, get catalog.contracts doc.contractName = some loaded →
      doc.schema = loaded.schema ∧ doc.rules = loaded.rules
  baseline : ∀ doc, Listed catalog.files doc →
    fs.target (contractFile contractName) ≠ .below doc.path →
    doc.contractName = contractName → doc.baseline = some baseline
  kept : ∀ name ∈ catalog.contracts, name ≠ contractName →
    ∃ doc, Listed catalog.files doc ∧
      fs.target (contractFile contractName) ≠ .below doc.path ∧ doc.contractName = name

theorem mem_documents (order : ListingOrder) (files : ContractFiles) (doc : ContractDocument) :
    doc ∈ documents order files ↔ Listed files doc := by
  rw [documents, List.mem_filterMap]
  constructor
  · intro ⟨⟨path, post⟩, found, made⟩
    obtain ⟨held, same, rfl⟩ := Option.map_eq_some_iff.mp made
    obtain rfl : post = some held := same
    exact (mem_listing order _ _ _ _).mp found
  · intro listed
    exact ⟨(doc.path, some doc.post), (mem_listing order _ _ _ _).mpr listed, rfl⟩

def entryFor (doc : ContractDocument) : String × ContractDocument := (doc.contractName, doc)

theorem contracts_loadAll (order : ListingOrder) (files : ContractFiles) :
    (loadAll order files).contracts = written ((documents order files).map entryFor) := by
  rw [written, Replay.replay, List.map_map, List.foldl_map]
  rfl

section Loading

variable {order : ListingOrder} {files : ContractFiles} {name : String} {doc : ContractDocument}

theorem listed_of_get (loaded : get (loadAll order files).contracts name = some doc) :
    Listed files doc ∧ doc.contractName = name := by
  rw [contracts_loadAll] at loaded
  obtain ⟨held, member, same⟩ := List.mem_map.mp (mem_of_get_written loaded)
  obtain ⟨rfl, rfl⟩ := Prod.mk.inj same
  exact ⟨(mem_documents order files held).mp member, rfl⟩

theorem mem_loadAll :
    name ∈ (loadAll order files).contracts ↔ ∃ doc, Listed files doc ∧ doc.contractName = name := by
  constructor
  · intro known
    obtain ⟨doc, loaded⟩ := exists_get known
    exact ⟨doc, listed_of_get loaded⟩
  · intro ⟨doc, listed, same⟩
    have member := List.mem_map_of_mem (f := entryFor) ((mem_documents order files doc).mpr listed)
    obtain ⟨last, loaded⟩ := get_written_of_mem member
    rw [← contracts_loadAll, same] at loaded
    exact known_of_get loaded

def lastOrder (last : String) : ListingOrder where
  arrange names := if last ∈ names then names.erase last ++ [last] else names
  perm := by
    intro names
    split
    · rename_i known
      exact List.perm_append_comm.trans (List.perm_cons_erase known).symm
    · exact .refl _

theorem get_loadAll_last (listed : Listed files doc) :
    get (loadAll (lastOrder doc.path) files).contracts doc.contractName = some doc := by
  have known : doc.path ∈ files.keys.filter (Glob.fnmatch "*.md") := by
    rw [List.mem_filter]
    exact ⟨AList.mem_keys.mp (known_of_get listed.1), listed.2⟩
  have made : entryOf files doc.path = some (doc.path, some doc.post) := by
    rw [entryOf, listed.1]
    rfl
  have last : documents (lastOrder doc.path) files =
      (((files.keys.filter (Glob.fnmatch "*.md")).erase doc.path).filterMap
        (entryOf files)).filterMap (fun file => file.2.map (ContractDocument.mk file.1)) ++
        [doc] := by
    change ((List.filterMap (entryOf files) (if _ then _ else _)).filterMap _) = _
    rw [if_pos known, List.filterMap_append, List.filterMap_append, List.filterMap_cons_some made]
    rfl
  rw [contracts_loadAll, last, List.map_append, List.map_singleton, written_append_singleton]
  exact get_insert _ _ doc

end Loading

section Stems

variable {name : String} {before : List Char}

theorem stem_document (shape : name.toList = before ++ ".md".toList) :
    stem name = if before = [] then name else String.ofList before := by
  have cut : LineText.beforeLast '.' name.toList = before := by
    rw [shape]
    exact LineText.beforeLast_append_cons '.' before ['m', 'd'] (by decide)
  have ending : name.toList.getLast? ≠ some '.' := by
    rw [shape, List.getLast?_append_of_ne_nil _ (by decide)]
    decide
  rw [stem, cut]
  simp only [ending, or_false]

theorem document_of_fnmatch (matched : Glob.fnmatch "*.md" name = true) :
    ∃ before, name.toList = before ++ ".md".toList ∧ '/' ∉ before := by
  have shape : "*.md".toList = [] ++ '*' :: ".md".toList := by decide
  obtain ⟨before, same, free⟩ := (Glob.fnmatch_star_iff [] ".md".toList _ name shape Glob.plain_nil
    plain_suffix).mp matched
  exact ⟨before, same, fun inside => free '/' inside rfl⟩

theorem contractFile_toList (contractName : String) :
    (contractFile contractName).toList = contractName.toList ++ ".md".toList := by
  simp [contractFile, toString]

theorem stem_contractFile (matched : Glob.fnmatch "*.md" name = true) :
    stem (contractFile (stem name)) = stem name := by
  have some_ : (stem name).toList ≠ [] := by
    obtain ⟨before, shape, _⟩ := document_of_fnmatch matched
    rw [stem_document shape]
    by_cases nothing : before = []
    · rw [if_pos nothing, shape]
      exact List.append_ne_nil_of_right_ne_nil _ (by decide)
    · rw [if_neg nothing, String.toList_ofList]
      exact nothing
  rw [stem_document (contractFile_toList _), if_neg some_, String.ofList_toList]

theorem stem_flat (matched : Glob.fnmatch "*.md" name = true) : '/' ∉ (stem name).toList := by
  obtain ⟨before, shape, free⟩ := document_of_fnmatch matched
  rw [stem_document shape]
  split
  · rw [shape]
    intro inside
    rcases List.mem_append.mp inside with early | late
    · exact free early
    · revert late
      decide
  · rw [String.toList_ofList]
    exact free

end Stems

theorem target_contractFile (fs : FileSystem (Option ContractPost)) {contractName path : String}
    (flat : '/' ∉ contractName.toList) (leads : fs.target (contractFile contractName) = .below path) :
    path = contractFile contractName := by
  have suffix_ : 'm' ∈ (contractFile contractName).toList := by
    simp [contractFile_toList]
  have level : '/' ∉ (contractFile contractName).toList := by
    rw [contractFile_toList]
    intro inside
    rcases List.mem_append.mp inside with early | late
    · exact flat early
    · revert late
      decide
  have dot : (contractFile contractName).toList ≠ ['.'] :=
    fun same => absurd (same ▸ suffix_) (by decide)
  have single := RelativePath.parts_single level (List.ne_nil_of_mem suffix_) dot
  have descends : RelativePath.Descends (contractFile contractName) := by
    refine ⟨fun root => level (List.mem_of_head? root), ?_⟩
    rw [single, List.mem_singleton]
    intro climb
    exact absurd (climb ▸ suffix_) (by decide)
  have either := fs.descends _ descends
  rw [leads, RelativePath.collapse_single level (List.ne_nil_of_mem suffix_) dot] at either
  rcases either with here | refused
  · exact Target.below.inj here
  · cases refused

section Saving

variable {fs : FileSystem (Option ContractPost)} {files : ContractFiles}
  {contractName path : String} {post : ContractPost}

theorem contractName_updated {doc : ContractDocument} (listed : Listed files doc)
    (named : doc.contractName = contractName) (baseline : FrontMatter) (now : String)
    (leads : fs.target (contractFile contractName) = .below path) :
    ContractDocument.contractName ⟨path, updatedPost doc baseline now⟩ = contractName := by
  change doc.post.contractName.getD (stem path) = contractName
  change doc.post.contractName.getD (stem doc.path) = contractName at named
  cases given : doc.post.contractName with
  | some name =>
    rw [given] at named
    exact named
  | none =>
    rw [given, Option.getD_none] at named
    have flat : '/' ∉ contractName.toList := named ▸ stem_flat listed.2
    rw [Option.getD_none, target_contractFile fs flat leads, ← named]
    exact stem_contractFile listed.2

theorem listed_insert (doc : ContractDocument) :
    Listed (files.insert path (some post)) doc ↔
      (doc.path ≠ path ∧ Listed files doc) ∨
        (doc = ⟨path, post⟩ ∧ Glob.fnmatch "*.md" path = true) := by
  obtain ⟨name, held⟩ := doc
  unfold Listed
  by_cases same : name = path
  · subst same
    rw [get_insert]
    simp only [Option.some.injEq, ne_eq, not_true_eq_false, false_and, false_or,
      ContractDocument.mk.injEq, true_and]
    rw [eq_comm]
  · have other : get (files.insert path (some post)) name = get files name :=
      AList.lookup_insert_ne same
    rw [other]
    simp [same]

end Saving

section SaveBaseline

variable {fs : FileSystem (Option ContractPost)} {order reload : ListingOrder} {now : String}
  {files : ContractFiles} {contractName : String} {baseline : FrontMatter}
  {contract : ContractDocument}

def savedFiles (fs : FileSystem (Option ContractPost)) (files : ContractFiles)
    (contract : ContractDocument) (now contractName : String) (baseline : FrontMatter) :
    ContractFiles :=
  match fs.target (contractFile contractName) with
  | .below path => files.insert path (some (updatedPost contract baseline now))
  | _ => files

theorem saveBaseline_eq (loaded : get (loadAll order files).contracts contractName = some contract) :
    saveBaseline fs reload now (loadAll order files) contractName baseline =
      if fs.target (contractFile contractName) = .refused then
        .error (.osError (contractFile contractName))
      else
        .ok (loadAll reload (savedFiles fs files contract now contractName baseline),
          contractFile contractName) := by
  unfold saveBaseline
  rw [loaded]
  change (writeText fs files (contractFile contractName) _ >>= _) = _
  unfold writeText savedFiles
  cases fs.target (contractFile contractName) <;> rfl

/-- A document after the save is one from outside the saved file, or the saved one. -/
theorem listed_saved (loaded : get (loadAll order files).contracts contractName = some contract)
    {doc : ContractDocument}
    (listed : Listed (savedFiles fs files contract now contractName baseline) doc) :
    (fs.target (contractFile contractName) ≠ .below doc.path ∧ Listed files doc) ∨
      (doc.post = updatedPost contract baseline now ∧ doc.contractName = contractName) := by
  unfold savedFiles at listed
  cases leads : fs.target (contractFile contractName) with
  | below path =>
    rw [leads] at listed
    rcases (listed_insert doc).mp listed with ⟨outside, source⟩ | ⟨made, _⟩
    · exact .inl ⟨fun same => outside (Target.below.inj same).symm, source⟩
    · obtain ⟨source, named⟩ := listed_of_get loaded
      subst made
      exact .inr ⟨rfl, contractName_updated source named baseline now leads⟩
  | outside =>
    rw [leads] at listed
    exact .inl ⟨Target.noConfusion, listed⟩
  | refused =>
    rw [leads] at listed
    exact .inl ⟨Target.noConfusion, listed⟩

theorem listed_savedFiles {doc : ContractDocument} (listed : Listed files doc)
    (outside : fs.target (contractFile contractName) ≠ .below doc.path) :
    Listed (savedFiles fs files contract now contractName baseline) doc := by
  unfold savedFiles
  cases leads : fs.target (contractFile contractName) with
  | below path =>
    refine (listed_insert doc).mpr (.inl ⟨?_, listed⟩)
    intro same
    exact outside (same ▸ leads)
  | outside => exact listed
  | refused => exact listed

/-- The contract stays in the catalog: in the saved file, or where it was loaded from when a
    listing does not find the saved file. -/
theorem mem_saved (loaded : get (loadAll order files).contracts contractName = some contract) :
    contractName ∈
      (loadAll reload (savedFiles fs files contract now contractName baseline)).contracts := by
  obtain ⟨source, named⟩ := listed_of_get loaded
  rw [mem_loadAll]
  by_cases outside : fs.target (contractFile contractName) ≠ .below contract.path
  · exact ⟨contract, listed_savedFiles source outside, named⟩
  · have leads : fs.target (contractFile contractName) = .below contract.path := not_not.mp outside
    refine ⟨⟨contract.path, updatedPost contract baseline now⟩, ?_,
      contractName_updated source named baseline now leads⟩
    rw [savedFiles, leads]
    exact (listed_insert _).mpr (.inr ⟨rfl, source.2⟩)

theorem mem_saved_iff (loaded : get (loadAll order files).contracts contractName = some contract)
    (others : OthersAgree fs (loadAll order files) contractName baseline) (name : String) :
    name ∈ (loadAll reload (savedFiles fs files contract now contractName baseline)).contracts ↔
      name ∈ (loadAll order files).contracts := by
  by_cases same : name = contractName
  · subst same
    exact iff_of_true (mem_saved loaded) (known_of_get loaded)
  · rw [mem_loadAll]
    constructor
    · intro ⟨doc, listed, named⟩
      rcases listed_saved loaded listed with ⟨_, source⟩ | ⟨_, mine⟩
      · exact mem_loadAll.mpr ⟨doc, source, named⟩
      · exact absurd (named.symm.trans mine) same
    · intro known
      obtain ⟨doc, listed, outside, named⟩ := others.kept name known same
      exact ⟨doc, listed_savedFiles listed outside, named⟩

theorem getBaseline_saved
    (loaded : get (loadAll order files).contracts contractName = some contract)
    (others : OthersAgree fs (loadAll order files) contractName baseline) :
    getBaseline (loadAll reload (savedFiles fs files contract now contractName baseline))
      contractName = some baseline := by
  have there : contractName ∈
      (loadAll reload (savedFiles fs files contract now contractName baseline)).contracts :=
    mem_saved loaded
  obtain ⟨after, found⟩ := exists_get there
  obtain ⟨listed, named⟩ := listed_of_get found
  rw [getBaseline, found]
  rcases listed_saved loaded listed with ⟨outside, source⟩ | ⟨made, _⟩
  · exact others.baseline after source outside named
  · change after.post.baseline = _
    rw [made]
    rfl

theorem takesEffect_of_agree
    (loaded : get (loadAll order files).contracts contractName = some contract)
    (others : OthersAgree fs (loadAll order files) contractName baseline) :
    TakesEffect (loadAll order files)
      (loadAll reload (savedFiles fs files contract now contractName baseline)) contractName
      baseline where
  saved := getBaseline_saved loaded others
  names := mem_saved_iff loaded others
  unchanged := by
    intro name old new before after
    obtain ⟨listed, named⟩ := listed_of_get after
    rcases listed_saved loaded listed with ⟨outside, source⟩ | ⟨made, mine⟩
    · exact others.agree new source outside old (named ▸ before)
    · rw [← named, mine, loaded] at before
      obtain rfl := Option.some.inj before
      unfold ContractDocument.schema ContractDocument.rules
      rw [made]
      exact ⟨rfl, rfl⟩

theorem agree_of_takesEffect
    (loaded : get (loadAll order files).contracts contractName = some contract)
    (effect : ∀ reload, TakesEffect (loadAll order files)
      (loadAll reload (savedFiles fs files contract now contractName baseline)) contractName baseline) :
    OthersAgree fs (loadAll order files) contractName baseline := by
  have last : ∀ doc, Listed files doc → fs.target (contractFile contractName) ≠ .below doc.path →
      get (loadAll (lastOrder doc.path)
        (savedFiles fs files contract now contractName baseline)).contracts doc.contractName =
        some doc := by
    intro doc listed outside
    exact get_loadAll_last (listed_savedFiles listed outside)
  exact
    { agree := by
        intro doc listed outside old before
        exact (effect _).unchanged _ old doc before (last doc listed outside)
      baseline := by
        intro doc listed outside named
        have saved := (effect (lastOrder doc.path)).saved
        have found := last doc listed outside
        rw [named] at found
        rw [getBaseline, found] at saved
        exact saved
      kept := by
        intro name known other
        obtain ⟨doc, listed, named⟩ := mem_loadAll.mp (((effect order).names name).mpr known)
        rcases listed_saved loaded listed with ⟨outside, source⟩ | ⟨_, mine⟩
        · exact ⟨doc, source, outside, named⟩
        · exact absurd (named.symm.trans mine) other }

end SaveBaseline

/-- A save takes effect under every order of the reload exactly if it can be written and the
    documents outside its file agree with the catalog that it leaves. -/
theorem saveBaseline_takesEffect_iff (fs : FileSystem (Option ContractPost)) (order : ListingOrder)
    (now : String) (files : ContractFiles) (contractName : String) (baseline : FrontMatter)
    (known : contractName ∈ (loadAll order files).contracts) :
    (∀ reload, ∃ after path,
        saveBaseline fs reload now (loadAll order files) contractName baseline =
          .ok (after, path) ∧ TakesEffect (loadAll order files) after contractName baseline) ↔
      fs.target (contractFile contractName) ≠ .refused ∧
        OthersAgree fs (loadAll order files) contractName baseline := by
  obtain ⟨contract, loaded⟩ := exists_get known
  simp only [saveBaseline_eq loaded]
  constructor
  · intro effect
    by_cases refused : fs.target (contractFile contractName) = .refused
    · obtain ⟨after, path, saved, _⟩ := effect order
      rw [if_pos refused] at saved
      cases saved
    · have reloaded : ∀ reload, TakesEffect (loadAll order files)
          (loadAll reload (savedFiles fs files contract now contractName baseline)) contractName
          baseline := by
        intro reload
        obtain ⟨after, path, saved, done⟩ := effect reload
        rw [if_neg refused] at saved
        cases saved
        exact done
      exact ⟨refused, agree_of_takesEffect loaded reloaded⟩
  · intro ⟨taken, others⟩ reload
    exact ⟨_, _, if_neg taken, takesEffect_of_agree loaded others⟩

def ordersDocument : ContractDocument where
  path := "orders.md"
  post := ⟨some "orders", some (.dict [("id", .text "int")]), none, none, none, "# Orders"⟩

def customersDocument : ContractDocument where
  path := "customers_v1.md"
  post := ⟨some "customers", none, some (.list [.text "no_nulls"]), some (.dict []), none,
    "# Customers"⟩

def shopFiles : ContractFiles :=
  (AList.insert ordersDocument.path (some ordersDocument.post) ∅).insert customersDocument.path
    (some customersDocument.post)

theorem saveBaseline_takesEffect_iff_shop :
    "orders" ∈ (loadAll ⟨id, fun _ => .refl _⟩ shopFiles).contracts ∧
    ∀ reload, ∃ after path,
      saveBaseline (flatFileSystem _) reload "2026-01-02"
          (loadAll ⟨id, fun _ => .refl _⟩ shopFiles) "orders"
          (.dict [("row_count", .number "7")]) = .ok (after, path) ∧
        TakesEffect (loadAll ⟨id, fun _ => .refl _⟩ shopFiles) after "orders"
          (.dict [("row_count", .number "7")]) := by
  have both : ∀ doc, Listed shopFiles doc → doc = customersDocument ∨ doc = ordersDocument := by
    intro doc listed
    rcases (listed_insert doc).mp listed with ⟨_, listed⟩ | ⟨made, _⟩
    · rcases (listed_insert doc).mp listed with ⟨_, listed⟩ | ⟨made, _⟩
      · cases listed.1
      · exact .inr made
    · exact .inl made
  have facts : (flatFileSystem (Option ContractPost)).target (contractFile "orders") =
      .below "orders.md" ∧ "orders" ∈ (loadAll ⟨id, fun _ => .refl _⟩ shopFiles).contracts ∧
      Glob.fnmatch "*.md" "customers_v1.md" = true := by
    decide +kernel
  obtain ⟨leads, known, matched⟩ := facts
  have customers : Listed shopFiles customersDocument :=
    (listed_insert _).mpr (.inr ⟨rfl, matched⟩)
  have unsaved : (flatFileSystem (Option ContractPost)).target (contractFile "orders") ≠
      .below customersDocument.path := by
    rw [leads]
    decide
  refine ⟨known, ?_⟩
  apply (saveBaseline_takesEffect_iff (flatFileSystem _) ⟨id, fun _ => .refl _⟩ "2026-01-02"
    shopFiles "orders" (.dict [("row_count", .number "7")]) known).mpr
  refine ⟨by rw [leads]; exact Target.noConfusion, ?_, ?_, ?_⟩
  · intro doc listed outside old before
    rcases both doc listed with rfl | rfl
    · obtain ⟨source, named⟩ := listed_of_get before
      rcases both old source with rfl | rfl
      · exact ⟨rfl, rfl⟩
      · exact absurd named (by decide)
    · exact absurd leads outside
  · intro doc listed outside named
    rcases both doc listed with rfl | rfl
    · exact absurd named (by decide)
    · exact absurd leads outside
  · intro name inside other
    obtain ⟨doc, listed, named⟩ := mem_loadAll.mp inside
    rcases both doc listed with rfl | rfl
    · exact ⟨customersDocument, customers, unsaved, named⟩
    · exact absurd (named.symm.trans (by decide)) other

/-- A document with the contract's name in a file of another name keeps the old baseline alive. -/
theorem saveBaseline_shadowed :
    "customers" ∈ (loadAll ⟨id, fun _ => .refl _⟩
      (AList.singleton "customers_v1.md"
        (some ⟨some "customers", none, none, none, none, "# Customers"⟩))).contracts ∧
    ¬ ∀ reload, ∃ after path,
      saveBaseline (flatFileSystem _) reload "2026-01-02"
          (loadAll ⟨id, fun _ => .refl _⟩
            (AList.singleton "customers_v1.md"
              (some ⟨some "customers", none, none, none, none, "# Customers"⟩)))
          "customers" (.dict [("row_count", .number "7")]) = .ok (after, path) ∧
        TakesEffect
          (loadAll ⟨id, fun _ => .refl _⟩
            (AList.singleton "customers_v1.md"
              (some ⟨some "customers", none, none, none, none, "# Customers"⟩)))
          after "customers" (.dict [("row_count", .number "7")]) := by
  refine ⟨by decide +kernel, ?_⟩
  intro effect
  obtain ⟨after, path, saved, done⟩ := effect ⟨id, fun _ => .refl _⟩
  have lost : (saveBaseline (flatFileSystem _) ⟨id, fun _ => .refl _⟩ "2026-01-02"
      (loadAll ⟨id, fun _ => .refl _⟩
        (AList.singleton "customers_v1.md"
          (some ⟨some "customers", none, none, none, none, "# Customers"⟩)))
      "customers" (.dict [("row_count", .number "7")])).toOption.map
        (fun result => (getBaseline result.1 "customers").isNone) = some true := by
    decide +kernel
  rw [saved] at lost
  have gone : (getBaseline after "customers").isNone = true := Option.some.inj lost
  rw [done.saved] at gone
  cases gone

end ContractCatalog

end StatGuardian.Py.Okf
