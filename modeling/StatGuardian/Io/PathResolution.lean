import StatGuardian.Io.Iceberg

namespace StatGuardian.Text

theorem utf8ByteSize_cons (c : Char) (rest : List Char) :
    (String.ofList (c :: rest)).utf8ByteSize =
      c.utf8Size + (String.ofList rest).utf8ByteSize := by
  have split : String.ofList (c :: rest) = String.singleton c ++ String.ofList rest := by
    apply String.toList_injective
    simp
  rw [split, String.utf8ByteSize_append, String.utf8ByteSize_singleton]

theorem splitAtByte_zero (chars : List Char) : splitAtByte 0 chars = some ([], chars) := by
  cases chars <;> rfl

theorem splitAtByte_succ (n : Nat) (c : Char) (rest : List Char) :
    splitAtByte (n + 1) (c :: rest) =
      if c.utf8Size ≤ n + 1 then
        (splitAtByte (n + 1 - c.utf8Size) rest).map (fun parts => (c :: parts.1, parts.2))
      else none := rfl

theorem splitAtByte_one (c : Char) (rest : List Char) :
    splitAtByte 1 (c :: rest) = if c.utf8Size = 1 then some ([c], rest) else none := by
  have positive := c.utf8Size_pos
  rw [splitAtByte_succ]
  by_cases one : c.utf8Size = 1
  · rw [if_pos one, if_pos (by omega), one, Nat.add_sub_cancel, splitAtByte_zero]
    rfl
  · rw [if_neg one, if_neg (by omega)]

/-- The second byte of a text is a character when the first two characters take a byte each. -/
theorem slice_one_two (c d : Char) (rest : List Char) :
    slice (String.ofList (c :: d :: rest)) 1 2 =
      if c.utf8Size = 1 ∧ d.utf8Size = 1 then some (String.singleton d) else none := by
  unfold slice
  rw [String.toList_ofList, splitAtByte_one]
  by_cases first : c.utf8Size = 1
  · by_cases second : d.utf8Size = 1
    · rw [if_pos first, if_pos ⟨first, second⟩]
      change (splitAtByte 1 (d :: rest)).bind _ = _
      rw [splitAtByte_one, if_pos second]
      simp
    · rw [if_pos first, if_neg (fun both => second both.2)]
      change (splitAtByte 1 (d :: rest)).bind _ = _
      rw [splitAtByte_one, if_neg second]
      rfl
  · rw [if_neg first, if_neg (fun both => first both.1)]
    rfl

theorem slice_one_two_singleton (c : Char) (wide : c.utf8Size ≠ 1) :
    slice (String.ofList [c]) 1 2 = none := by
  unfold slice
  rw [String.toList_ofList, splitAtByte_one, if_neg wide]
  rfl

theorem length_dropPrefixes_le (pattern : List Char) (fuel : Nat) (chars : List Char) :
    (dropPrefixes pattern fuel chars).length ≤ chars.length := by
  induction fuel generalizing chars with
  | zero => exact Nat.le_refl _
  | succ fuel ih =>
    unfold dropPrefixes
    split
    · exact (ih _).trans (List.drop_sublist _ _).length_le
    · exact Nat.le_refl _

theorem dropPrefixes_eq_drop_iff (pattern : List Char) (fuel : Nat) (chars : List Char)
    (some_ : pattern ≠ []) (more : chars.length ≤ fuel)
    (before : pattern.isPrefixOf chars = true) :
    dropPrefixes pattern fuel chars = chars.drop pattern.length ↔
      pattern.isPrefixOf (chars.drop pattern.length) = false := by
  have positive : 0 < pattern.length := List.length_pos_iff.mpr some_
  have short : ∀ rest : List Char, pattern.isPrefixOf rest = true →
      pattern.length ≤ rest.length := fun rest starts =>
    (List.isPrefixOf_iff_prefix.mp starts).length_le
  have size := short chars before
  obtain ⟨fuel, rfl⟩ : ∃ k, fuel = k + 1 := ⟨fuel - 1, by omega⟩
  rw [dropPrefixes, if_pos before]
  cases again : pattern.isPrefixOf (chars.drop pattern.length) with
  | true =>
    have inner := short _ again
    rw [List.length_drop] at inner
    obtain ⟨fuel, rfl⟩ : ∃ k, fuel = k + 1 := ⟨fuel - 1, by omega⟩
    simp only [Bool.true_eq_false, iff_false]
    intro same
    have shorter := length_dropPrefixes_le pattern fuel
      ((chars.drop pattern.length).drop pattern.length)
    rw [dropPrefixes, if_pos again] at same
    simp only [same, List.length_drop] at shorter
    omega
  | false =>
    simp only [iff_true]
    cases fuel with
    | zero => rfl
    | succ fuel => rw [dropPrefixes, if_neg (by rw [again]; exact Bool.false_ne_true)]

end StatGuardian.Text

namespace StatGuardian.Io.IcebergReader

theorem hasDrive_empty : hasDrive (String.ofList []) = .ok false := rfl

theorem hasDrive_singleton (c : Char) :
    hasDrive (String.ofList [c]) = if c.utf8Size = 1 then .ok false else .error .panicked := by
  have positive := c.utf8Size_pos
  have size : (String.ofList [c]).utf8ByteSize = c.utf8Size := Text.utf8ByteSize_cons c []
  unfold hasDrive
  by_cases one : c.utf8Size = 1
  · rw [if_pos one, if_pos (by omega)]
  · rw [if_neg one, if_neg (by omega), Text.slice_one_two_singleton c one]

theorem hasDrive_cons_cons (c d : Char) (rest : List Char) :
    hasDrive (String.ofList (c :: d :: rest)) =
      if c.utf8Size = 1 ∧ d.utf8Size = 1 then .ok (d == ':') else .error .panicked := by
  have first := c.utf8Size_pos
  have second := d.utf8Size_pos
  have size : 1 < (String.ofList (c :: d :: rest)).utf8ByteSize := by
    rw [Text.utf8ByteSize_cons, Text.utf8ByteSize_cons]
    omega
  have colon : (String.singleton d == ":") = (d == ':') := by
    rw [Bool.eq_iff_iff, beq_iff_eq, beq_iff_eq]
    constructor
    · intro same
      have chars := congrArg String.toList same
      rw [String.toList_singleton] at chars
      exact (List.cons.inj chars).1
    · intro same
      subst same
      rfl
  unfold hasDrive
  rw [if_neg (by omega), Text.slice_one_two]
  by_cases narrow : c.utf8Size = 1 ∧ d.utf8Size = 1
  · rw [if_pos narrow, if_pos narrow]
    exact congrArg Except.ok colon
  · rw [if_neg narrow, if_neg narrow]

/-- The first two characters, as many as there are, take a byte each. -/
def Narrow (path : String) : Prop := ∀ c ∈ path.toList.take 2, c.utf8Size = 1

instance (path : String) : Decidable (Narrow path) :=
  inferInstanceAs (Decidable (∀ c ∈ path.toList.take 2, c.utf8Size = 1))

theorem hasDrive_eq (path : String) :
    hasDrive path =
      if Narrow path then .ok (path.toList[1]? == some ':') else .error .panicked := by
  obtain ⟨chars, rfl⟩ : ∃ chars, path = String.ofList chars :=
    ⟨path.toList, String.ofList_toList.symm⟩
  unfold Narrow
  simp only [String.toList_ofList]
  match chars with
  | [] =>
    rw [hasDrive_empty]
    simp
  | [c] =>
    rw [hasDrive_singleton]
    simp
  | c :: d :: rest =>
    rw [hasDrive_cons_cons]
    simp

def afterScheme (path : String) : String := String.ofList (path.toList.drop 7)

def startsWithDrive (path : String) : Bool :=
  path.toList[0]?.any Char.isAlpha && path.toList[1]? == some ':'

def isCloudUri (path : String) : Bool :=
  Text.startsWith path "s3://" || Text.startsWith path "gs://" || Text.startsWith path "abfss://"

def resolved (path tableRoot : String) : String :=
  if Text.startsWith path "file://" then afterScheme path
  else if Text.startsWith path "/" || startsWithDrive path || isCloudUri path then path
  else Text.trimEndMatches (· == '/') tableRoot ++ "/" ++ path

/-- A `file://` URI has the scheme once; any other path that is not absolute begins with narrow
    characters, and a colon is its second one only after a letter. -/
def Resolvable (path : String) : Prop :=
  if Text.startsWith path "file://" then Text.startsWith (afterScheme path) "file://" = false
  else Text.startsWith path "/" = true ∨
    (Narrow path ∧ (path.toList[1]? = some ':' → path.toList[0]?.any Char.isAlpha = true))

theorem resolvePath_eq (path tableRoot : String) :
    resolvePath path tableRoot =
      if Text.startsWith path "file://" then .ok (Text.trimStartText "file://" path)
      else if Text.startsWith path "/" then .ok path
      else if Narrow path then
        .ok (if path.toList[1]? == some ':' || isCloudUri path then path
          else Text.trimEndMatches (· == '/') tableRoot ++ "/" ++ path)
      else .error .panicked := by
  unfold resolvePath
  rw [hasDrive_eq]
  by_cases narrow : Narrow path
  · rw [if_pos narrow, if_pos narrow]
    simp only [bind, Except.bind, pure, Except.pure]
    change ite _ _ (ite _ _ (ite _ _ (ite (isCloudUri path = true) _ _))) = _
    cases path.toList[1]? == some ':' <;> cases isCloudUri path <;> rfl
  · rw [if_neg narrow, if_neg narrow]
    rfl

theorem joined_ne (root path : String) : path ≠ root ++ "/" ++ path := by
  intro same
  have lengths := congrArg String.length same
  rw [String.length_append, String.length_append] at lengths
  change path.length = root.length + 1 + path.length at lengths
  omega

theorem second_of_cloud (path : String) (cloud : isCloudUri path = true) :
    path.toList[1]? ≠ some ':' := by
  have second : ∀ (scheme : List Char) (c : Char), scheme.isPrefixOf path.toList = true →
      scheme[1]? = some c → path.toList[1]? = some c := by
    intro scheme c before at_
    obtain ⟨rest, split⟩ := List.isPrefixOf_iff_prefix.mp before
    obtain ⟨inside, _⟩ := List.getElem?_eq_some_iff.mp at_
    rw [← split, List.getElem?_append_left inside, at_]
  simp only [isCloudUri, Bool.or_eq_true] at cloud
  rcases cloud with (s3 | gs) | abfss
  · rw [second _ '3' s3 rfl]
    decide
  · rw [second _ 's' gs rfl]
    decide
  · rw [second _ 'b' abfss rfl]
    decide

theorem trimStartText_eq_iff (path : String) (scheme : Text.startsWith path "file://" = true) :
    Text.trimStartText "file://" path = afterScheme path ↔
      Text.startsWith (afterScheme path) "file://" = false := by
  have once := Text.dropPrefixes_eq_drop_iff "file://".toList path.length path.toList
    (by decide) (by rw [String.length_toList]) scheme
  have after : (afterScheme path).toList = path.toList.drop 7 := String.toList_ofList
  rw [Text.startsWith, after, Text.trimStartText, afterScheme]
  constructor
  · intro same
    exact once.mp (by simpa using congrArg String.toList same)
  · intro single
    exact congrArg String.ofList (once.mpr single)

theorem colon_taken_iff (path root : String) :
    (if path.toList[1]? == some ':' || isCloudUri path then path else root ++ "/" ++ path) =
        (if startsWithDrive path || isCloudUri path then path else root ++ "/" ++ path) ↔
      (path.toList[1]? = some ':' → path.toList[0]?.any Char.isAlpha = true) := by
  unfold startsWithDrive
  by_cases colon : path.toList[1]? = some ':'
  · have cloud : isCloudUri path = false :=
      Bool.eq_false_iff.mpr fun cloud => second_of_cloud path cloud colon
    rw [cloud, beq_iff_eq.mpr colon, Bool.and_true, Bool.or_false, Bool.or_false, if_pos rfl]
    by_cases letter : path.toList[0]?.any Char.isAlpha = true
    · rw [if_pos letter]
      exact ⟨fun _ _ => letter, fun _ => rfl⟩
    · rw [if_neg letter]
      exact ⟨fun same => absurd same (joined_ne root path), fun needs => absurd (needs colon) letter⟩
  · rw [beq_eq_false_iff_ne.mpr colon, Bool.and_false]
    exact ⟨fun _ second => absurd second colon, fun _ => rfl⟩

theorem resolvePath_eq_resolved_iff (path tableRoot : String) :
    resolvePath path tableRoot = .ok (resolved path tableRoot) ↔ Resolvable path := by
  rw [resolvePath_eq, resolved, Resolvable]
  by_cases scheme : Text.startsWith path "file://" = true
  · rw [if_pos scheme, if_pos scheme, if_pos scheme, Except.ok.injEq]
    exact trimStartText_eq_iff path scheme
  · rw [if_neg scheme, if_neg scheme, if_neg scheme]
    by_cases slash : Text.startsWith path "/" = true
    · rw [if_pos slash, slash]
      simp
    · rw [if_neg slash, Bool.eq_false_iff.mpr slash, Bool.false_or]
      by_cases narrow : Narrow path
      · rw [if_pos narrow, Except.ok.injEq, colon_taken_iff]
        simp [narrow]
      · rw [if_neg narrow]
        simp [narrow]

theorem resolvePath_panics_wide :
    resolvePath "é.parquet" "/table" ≠ .ok (resolved "é.parquet" "/table") := by
  decide +kernel

end StatGuardian.Io.IcebergReader
