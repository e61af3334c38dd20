import StatGuardian.Py.DslSafety
import Mathlib.Data.List.Infix

namespace StatGuardian

namespace Text

theorem matchCount_skip (pattern : List Char) (skip : Nat) (chars : List Char) :
    matchCount pattern skip chars = matchCount pattern 0 (chars.drop skip) := by
  induction chars generalizing skip with
  | nil => cases skip <;> simp [matchCount]
  | cons c rest ih =>
    cases skip with
    | zero => rfl
    | succ skip => rw [matchCount, ih, List.drop_succ_cons]

theorem matchCount_cons (pattern : List Char) (filled : pattern ≠ []) (c : Char)
    (rest : List Char) :
    matchCount pattern 0 (c :: rest) =
      if pattern <+: c :: rest then 1 + matchCount pattern 0 ((c :: rest).drop pattern.length)
      else matchCount pattern 0 rest := by
  have length : pattern.length = pattern.length - 1 + 1 := by
    have := List.length_pos_of_ne_nil filled
    omega
  rw [matchCount, matchCount_skip, length, List.drop_succ_cons]
  simp [List.isPrefixOf_iff_prefix]

theorem matchCount_pos_iff {pattern : List Char} (filled : pattern ≠ []) (chars : List Char) :
    1 ≤ matchCount pattern 0 chars ↔ pattern <:+: chars := by
  induction chars with
  | nil => simp [matchCount, filled]
  | cons c rest ih =>
    rw [matchCount_cons pattern filled, List.infix_cons_iff]
    split
    · rename_i front
      exact ⟨fun _ => .inl front, fun _ => by omega⟩
    · rename_i front
      rw [ih]
      exact ⟨.inr, fun either => either.resolve_left front⟩

theorem matchCount_twice_iff {pattern : List Char} (filled : pattern ≠ []) (chars : List Char) :
    2 ≤ matchCount pattern 0 chars ↔ Regex.Between (fun _ => true) pattern chars := by
  induction chars with
  | nil =>
    constructor
    · exact fun twice => absurd twice (by simp [matchCount])
    · rintro ⟨before, mid, after, whole, _⟩
      simp [filled] at whole
  | cons c rest ih =>
    rw [matchCount_cons pattern filled]
    split
    · rename_i front
      have again : 2 ≤ 1 + matchCount pattern 0 ((c :: rest).drop pattern.length) ↔
          pattern <:+: (c :: rest).drop pattern.length := by
        rw [← matchCount_pos_iff filled]
        omega
      rw [again]
      constructor
      · rintro ⟨mid, after, later⟩
        refine ⟨[], mid, after, ?_, fun _ _ => rfl⟩
        rw [List.nil_append, ← List.append_assoc mid, later]
        exact (List.prefix_iff_eq_append.mp front).symm
      · rintro ⟨before, mid, after, whole, _⟩
        -- the second occurrence lies behind the first one wherever that is
        have behind : (c :: rest).drop pattern.length =
            (before ++ pattern).drop pattern.length ++ (mid ++ (pattern ++ after)) := by
          rw [whole, ← List.append_assoc, List.drop_append_of_le_length (by simp)]
        rw [behind]
        exact ⟨(before ++ pattern).drop pattern.length ++ mid, after, by simp⟩
    · rename_i front
      rw [ih]
      constructor
      · rintro ⟨before, mid, after, rfl, plain⟩
        exact ⟨c :: before, mid, after, rfl, plain⟩
      · rintro ⟨before, mid, after, whole, plain⟩
        cases before with
        | nil => exact absurd ⟨_, whole.symm⟩ front
        | cons b before =>
          obtain ⟨rfl, rest⟩ := List.cons.inj whole
          exact ⟨before, mid, after, rest, plain⟩

theorem mem_dropWhile {p : Char → Bool} {c : Char} {chars : List Char} (member : c ∈ chars)
    (kept : p c = false) : c ∈ chars.dropWhile p := by
  rw [← List.takeWhile_append_dropWhile (p := p) (l := chars)] at member
  rcases List.mem_append.mp member with dropped | member
  · rw [List.mem_takeWhile_imp dropped] at kept
    cases kept
  · exact member

theorem stripped_ne_empty {p : Char → Bool} {c : Char} {s : String} (member : c ∈ s.toList)
    (kept : p c = false) :
    (String.ofList ((s.toList.dropWhile p).reverse.dropWhile p).reverse).isEmpty = false := by
  rw [Bool.eq_false_iff, Ne, String.isEmpty_iff]
  intro empty
  have chars := congrArg String.toList empty
  rw [String.toList_ofList] at chars
  have there : c ∈ ((s.toList.dropWhile p).reverse.dropWhile p).reverse :=
    List.mem_reverse.mpr (mem_dropWhile (List.mem_reverse.mpr (mem_dropWhile member kept)) kept)
  rw [chars] at there
  cases there

theorem mem_of_contains {s pattern : String} (contains : Text.contains s pattern = true) {c : Char}
    (member : c ∈ pattern.toList) : c ∈ s.toList := by
  obtain ⟨tail, suffix, front⟩ := List.any_eq_true.mp contains
  have within := (List.isPrefixOf_iff_prefix.mp front).subset member
  exact (List.mem_tails _ _ |>.mp suffix).subset within

end Text

namespace Py

open Regex

section Repeats

variable {α : Type} [DecidableEq α]

/-- A separator that is followed by another one after items that are skipped. -/
def repeats (sep : α) (skipped : α → Bool) : List α → Bool
  | [] => false
  | b :: rest => (b == sep && (rest.dropWhile skipped).head? == some sep) || repeats sep skipped rest

theorem repeats_iff {sep : α} {skipped : α → Bool} (solid : skipped sep = false) (items : List α) :
    repeats sep skipped items = true ↔ Between skipped [sep] items := by
  induction items with
  | nil =>
    refine ⟨nofun, ?_⟩
    rintro ⟨before, mid, after, whole, _⟩
    simp at whole
  | cons b rest ih =>
    rw [repeats, Bool.or_eq_true, Bool.and_eq_true, beq_iff_eq, beq_iff_eq, ih]
    constructor
    · rintro (⟨rfl, next⟩ | ⟨before, mid, after, rfl, plain⟩)
      · obtain ⟨after, tail⟩ := List.head?_eq_some_iff.mp next
        refine ⟨[], rest.takeWhile skipped, after, ?_, fun a member => List.mem_takeWhile_imp member⟩
        rw [List.nil_append, List.singleton_append, List.singleton_append, ← tail,
          List.takeWhile_append_dropWhile]
      · exact ⟨b :: before, mid, after, rfl, plain⟩
    · rintro ⟨before, mid, after, whole, plain⟩
      cases before with
      | nil =>
        obtain ⟨rfl, tail⟩ := List.cons.inj whole
        left
        refine ⟨rfl, ?_⟩
        rw [tail]
        change ((mid ++ b :: after).dropWhile skipped).head? = some b
        rw [List.dropWhile_append_of_pos plain, List.dropWhile_cons_of_neg (by rw [solid]; nofun)]
        rfl
      | cons c before =>
        obtain ⟨rfl, rest⟩ := List.cons.inj whole
        exact .inr ⟨before, mid, after, rest, plain⟩

theorem multipleSemicolons_eq (bytes : List UInt8) :
    Binding.multipleSemicolons bytes = repeats 0x3B Binding.isAsciiWhitespace bytes := by
  induction bytes with
  | nil => rfl
  | cons b rest ih => rw [Binding.multipleSemicolons, repeats, ih]

end Repeats

section Encoding

theorem utf8EncodeChar_ascii {c : Char} (ascii : c.toNat < 128) :
    String.utf8EncodeChar c = [UInt8.ofNat c.toNat] := by
  have small : c.val.toNat ≤ 0x7f := by
    change c.toNat ≤ 0x7f
    omega
  simp only [String.utf8EncodeChar, small, if_true]
  rfl

theorem utf8EncodeChar_wide {c : Char} (wide : 128 ≤ c.toNat) :
    ∀ b ∈ String.utf8EncodeChar c, 128 ≤ b.toNat := by
  have large : ¬ c.val.toNat ≤ 0x7f := by
    change ¬ c.toNat ≤ 0x7f
    omega
  simp only [String.utf8EncodeChar, large, if_false]
  intro b member
  split at member
  · simp only [List.mem_cons, List.not_mem_nil, or_false] at member
    rcases member with rfl | rfl <;> rw [UInt8.toNat_ofNat'] <;> omega
  · split at member
    · simp only [List.mem_cons, List.not_mem_nil, or_false] at member
      rcases member with rfl | rfl | rfl <;> rw [UInt8.toNat_ofNat'] <;> omega
    · simp only [List.mem_cons, List.not_mem_nil, or_false] at member
      rcases member with rfl | rfl | rfl | rfl <;> rw [UInt8.toNat_ofNat'] <;> omega

def isAsciiSpace (c : Char) : Bool :=
  c.toNat == 0x20 || c.toNat == 0x09 || c.toNat == 0x0A || c.toNat == 0x0C || c.toNat == 0x0D

theorem ofNat_beq_ofNat {n k : Nat} (ascii : n < 128) (small : k < 128) :
    (UInt8.ofNat n == UInt8.ofNat k) = (n == k) := by
  rw [Bool.eq_iff_iff, beq_iff_eq, beq_iff_eq, ← UInt8.toNat_inj, UInt8.toNat_ofNat',
    UInt8.toNat_ofNat']
  omega

theorem isAsciiWhitespace_ofNat {n : Nat} (ascii : n < 128) :
    Binding.isAsciiWhitespace (UInt8.ofNat n) =
      (n == 0x20 || n == 0x09 || n == 0x0A || n == 0x0C || n == 0x0D) := by
  have each : ∀ k < 128, (UInt8.ofNat n == UInt8.ofNat k) = (n == k) := by
    intro k small
    exact ofNat_beq_ofNat ascii small
  rw [← each 0x20 (by decide), ← each 0x09 (by decide), ← each 0x0A (by decide),
    ← each 0x0C (by decide), ← each 0x0D (by decide)]
  rfl

theorem ofNat_beq_semicolon {c : Char} (ascii : c.toNat < 128) :
    (UInt8.ofNat c.toNat == 0x3B) = (c == ';') := by
  have same : (UInt8.ofNat c.toNat == 0x3B) = (c.toNat == 0x3B) :=
    ofNat_beq_ofNat ascii (by decide)
  rw [same, Bool.eq_iff_iff, beq_iff_eq, beq_iff_eq, ← Char.toNat_inj]
  rfl

theorem isAsciiSpace_wide {c : Char} (wide : 128 ≤ c.toNat) : isAsciiSpace c = false := by
  simp only [isAsciiSpace, Bool.or_eq_false_iff, beq_eq_false_iff_ne]
  omega

theorem ne_semicolon_of_wide {c : Char} (wide : 128 ≤ c.toNat) : c ≠ ';' := by
  rintro rfl
  exact absurd wide (by decide)

theorem head_bytes (chars : List Char) :
    (((chars.flatMap String.utf8EncodeChar).dropWhile Binding.isAsciiWhitespace).head? ==
        some 0x3B) =
      ((chars.dropWhile isAsciiSpace).head? == some ';') := by
  induction chars with
  | nil => rfl
  | cons c rest ih =>
    rw [List.flatMap_cons]
    by_cases ascii : c.toNat < 128
    · rw [utf8EncodeChar_ascii ascii, List.singleton_append, List.dropWhile_cons,
        List.dropWhile_cons, isAsciiWhitespace_ofNat ascii]
      change (List.head? (if isAsciiSpace c then _ else _) == _) = _
      cases isAsciiSpace c with
      | true => exact ih
      | false => exact ofNat_beq_semicolon ascii
    · have wide := Nat.le_of_not_lt ascii
      obtain ⟨b, more, bytes⟩ := List.exists_cons_of_ne_nil (String.utf8EncodeChar_ne_nil (c := c))
      have high : 128 ≤ b.toNat := utf8EncodeChar_wide wide b (by rw [bytes]; simp)
      have solid : Binding.isAsciiWhitespace b = false := by
        simp only [Binding.isAsciiWhitespace, Bool.or_eq_false_iff, beq_eq_false_iff_ne, ne_eq,
          ← UInt8.toNat_inj]
        simp only [UInt8.reduceToNat]
        omega
      have other : b ≠ 0x3B := by
        rintro rfl
        exact absurd high (by decide)
      rw [bytes, List.cons_append, List.dropWhile_cons, List.dropWhile_cons, solid,
        isAsciiSpace_wide wide]
      simp [other, ne_semicolon_of_wide wide]

theorem repeats_append {sep : UInt8} {skipped : UInt8 → Bool} {bytes : List UInt8}
    (apart : ∀ b ∈ bytes, b ≠ sep) (rest : List UInt8) :
    repeats sep skipped (bytes ++ rest) = repeats sep skipped rest := by
  induction bytes with
  | nil => rfl
  | cons b more ih =>
    rw [List.cons_append, repeats, beq_eq_false_iff_ne.mpr (apart b (List.mem_cons_self ..)),
      Bool.false_and, Bool.false_or]
    exact ih (fun b member => apart b (List.mem_cons_of_mem _ member))

/-- The loop over the bytes finds what a loop over the characters would. -/
theorem repeats_bytes (chars : List Char) :
    repeats 0x3B Binding.isAsciiWhitespace (chars.flatMap String.utf8EncodeChar) =
      repeats ';' isAsciiSpace chars := by
  induction chars with
  | nil => rfl
  | cons c rest ih =>
    rw [List.flatMap_cons, repeats]
    by_cases ascii : c.toNat < 128
    · rw [utf8EncodeChar_ascii ascii, List.singleton_append, repeats, head_bytes, ih,
        ofNat_beq_semicolon ascii]
    · have wide := Nat.le_of_not_lt ascii
      have apart : ∀ b ∈ String.utf8EncodeChar c, b ≠ 0x3B := by
        rintro b member rfl
        exact absurd (utf8EncodeChar_wide wide _ member) (by decide)
      rw [repeats_append apart, ih, beq_eq_false_iff_ne.mpr (ne_semicolon_of_wide wide),
        Bool.false_and, Bool.false_or]

theorem multipleSemicolons_iff (dsl : String) :
    Binding.multipleSemicolons dsl.toUTF8.data.toList = true ↔
      Between isAsciiSpace [';'] dsl.toList := by
  rw [multipleSemicolons_eq, Text.toUTF8_bytes, repeats_bytes, repeats_iff (by decide)]

end Encoding

section Agreement

theorem nestingDepth_eq (chars : List Char) :
    Binding.nestingDepth chars = DslValidator.nestingDepth chars := by
  have step : Binding.nestingStep = DslValidator.nestingStep := by
    funext depth ch
    obtain ⟨maxDepth, currentDepth⟩ := depth
    simp only [Binding.nestingStep, DslValidator.nestingStep, List.mem_cons, List.not_mem_nil,
      or_false]
    congr 2
    omega
  rw [Binding.nestingDepth, DslValidator.nestingDepth, step]

/-- What both sides ask of a text. -/
structure Shared (dsl : String) : Prop where
  dataset : Text.contains dsl "dataset" = true
  depth : Binding.nestingDepth dsl.toList ≤ 50
  null : dsl.toList.contains '\x00' = false
  size : dsl.length ≤ 1000000
  underscores : ¬ Between (fun c => c != '\n') ['_', '_'] dsl.toList
  semicolons : ¬ Between isAsciiSpace [';'] dsl.toList

theorem dataset_char {dsl : String} (dataset : Text.contains dsl "dataset" = true) :
    'd' ∈ dsl.toList :=
  Text.mem_of_contains dataset (by decide)

theorem check_ok_iff (failed : Prop) [Decidable failed] (message : String)
    (rest : Except String Unit) :
    (if failed then .error message else rest) = .ok () ↔ ¬ failed ∧ rest = .ok () := by
  by_cases failed <;> simp [*]

theorem check_valid_iff (failed : Prop) [Decidable failed] (message : String)
    (rest : Bool × String) :
    (if failed then (false, message) else rest).1 = true ↔ ¬ failed ∧ rest.1 = true := by
  by_cases failed <;> simp [*]

theorem binding_ok_iff (dsl : String) :
    Binding.validateDslSafety dsl = .ok () ↔
      Shared dsl ∧ dsl.utf8ByteSize ≤ 1000000 ∧
        ¬ Between (fun _ => true) ['_', '_'] dsl.toList := by
  simp only [Binding.validateDslSafety, check_ok_iff, ge_iff_le,
    Text.matchCount_twice_iff (show ['_', '_'] ≠ [] by nofun), multipleSemicolons_iff, gt_iff_lt,
    Bool.not_eq_true', Bool.not_eq_true, Bool.not_eq_false, Nat.not_lt, Int.not_lt, and_true]
  constructor
  · rintro ⟨_, size, dataset, depth, underscores, semicolons, null⟩
    refine ⟨⟨dataset, depth, null, (Text.length_le_utf8ByteSize dsl).trans size, ?_, semicolons⟩, size,
      underscores⟩
    exact fun near => underscores (near.mono fun _ _ => rfl)
  · rintro ⟨shared, size, underscores⟩
    exact ⟨Text.stripped_ne_empty (dataset_char shared.dataset) (by decide), size, shared.dataset,
      shared.depth, underscores, shared.semicolons, shared.null⟩

theorem search_nullByte (chars : List Char) :
    DslValidator.nullByte.search chars = chars.contains '\x00' := by
  rw [Bool.eq_iff_iff, search_iff, List.contains_iff_mem, List.mem_iff_append]
  simp only [DslValidator.nullByte, matches_literal_iff]
  constructor
  · rintro ⟨before, _, after, rfl, rfl⟩
    exact ⟨before, after, rfl⟩
  · rintro ⟨before, after, rfl⟩
    exact ⟨before, _, after, rfl, rfl⟩

theorem isSpace_of_isAsciiSpace (c : Char) (space : isAsciiSpace c = true) :
    DslValidator.isSpace c = true := by
  simp only [isAsciiSpace, Bool.or_eq_true, beq_iff_eq] at space
  simp only [DslValidator.isSpace, Text.isWhitespace, Bool.or_eq_true, Bool.and_eq_true,
    decide_eq_true_eq, beq_iff_eq]
  omega

theorem suspicious_iff (chars : List Char) :
    DslValidator.suspicious.find? (fun pattern => pattern.1.search chars) = none ↔
      ¬ Between (fun c => c != '\n') ['_', '_'] chars ∧ ¬ Between DslValidator.isSpace [';'] chars ∧
        chars.contains '\x00' = false := by
  have underscores := search_between_iff (fun c => c != '\n') ['_', '_'] chars
  have semicolons := search_between_iff DslValidator.isSpace [';'] chars
  rw [← underscores, ← semicolons, ← search_nullByte]
  simp [DslValidator.suspicious, DslValidator.doubleUnderscore, DslValidator.multipleSemicolons]

theorem validator_valid_iff (dsl : String) :
    (DslValidator.validateDslContract dsl).1 = true ↔
      Shared dsl ∧ ¬ Between DslValidator.isSpace [';'] dsl.toList := by
  have patterns : ∀ found : Option (Regex Char × String),
      (found.elim (true, "") (fun pattern => (false, s!"Suspicious pattern: {pattern.2}"))).1 =
        true ↔ found = none := by
    intro found
    cases found <;> simp
  simp only [DslValidator.validateDslContract, check_valid_iff, patterns, suspicious_iff,
    ← nestingDepth_eq, gt_iff_lt, Bool.not_eq_true', Bool.not_eq_true, Bool.or_eq_false_iff,
    Bool.not_eq_false, Nat.not_lt, Int.not_lt]
  constructor
  · rintro ⟨_, size, dataset, depth, underscores, semicolons, null⟩
    refine ⟨⟨dataset, depth, null, size, underscores, ?_⟩, semicolons⟩
    exact fun near => semicolons (near.mono isSpace_of_isAsciiSpace)
  · rintro ⟨shared, semicolons⟩
    have there := dataset_char shared.dataset
    have filled : dsl.isEmpty = false := by
      rw [Bool.eq_false_iff, Ne, String.isEmpty_iff]
      rintro rfl
      cases there
    exact ⟨⟨filled, Text.stripped_ne_empty there (by decide)⟩, shared.size, shared.dataset,
      shared.depth, shared.underscores, semicolons, shared.null⟩

/-- The two checks give the same answer exactly on the texts that fail a shared check and on those
    that pass or fail both of the checks that differ. -/
theorem safety_agrees_iff (dsl : String) :
    (Binding.validateDslSafety dsl = .ok () ↔ (DslValidator.validateDslContract dsl).1 = true) ↔
      (Shared dsl →
        ((dsl.utf8ByteSize ≤ 1000000 ∧ ¬ Between (fun _ => true) ['_', '_'] dsl.toList) ↔
          ¬ Between DslValidator.isSpace [';'] dsl.toList)) := by
  rw [binding_ok_iff, validator_valid_iff]
  tauto

section TwoColumns

def twoColumns : String :=
  "dataset d \x7b\n  schema \x7b\n    a__x: int\n    b__x: int\n  \x7d\n\x7d\n"

theorem two_columns_disagree :
    ¬ (Binding.validateDslSafety twoColumns = .ok () ↔
      (DslValidator.validateDslContract twoColumns).1 = true) := by
  have valid : (DslValidator.validateDslContract twoColumns).1 = true := by decide +kernel
  have refused : Binding.validateDslSafety twoColumns ≠ .ok () := by decide +kernel
  exact fun same => refused (same.mpr valid)

end TwoColumns

end Agreement

end Py

end StatGuardian
