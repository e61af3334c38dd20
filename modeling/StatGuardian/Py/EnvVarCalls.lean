import StatGuardian.Py.DslSafety

namespace StatGuardian.Py.Dbt

open DslValidator

/-- A match of the pattern in `_render_env_vars` by its two groups. -/
structure Call where
  name : List Char
  default : Option (List Char)
  deriving DecidableEq, Repr

def opening : List Char := ['\x7b', '\x7b']

def keyword : List Char := ['e', 'n', 'v', '_', 'v', 'a', 'r', '(']

def closing : List Char := ['\x7d', '\x7d']

def isQuote (c : Char) : Bool := c == '\'' || c == '"'

def skip (chars : List Char) : List Char := chars.dropWhile isSpace

def expect (word chars : List Char) : Option (List Char) :=
  if word <+: chars then some (chars.drop word.length) else none

def quoted : List Char → Option (List Char × List Char)
  | q :: rest =>
    if isQuote q then
      match rest.dropWhile (fun c => !isQuote c) with
      | _ :: after => some (rest.takeWhile (fun c => !isQuote c), after)
      | [] => none
    else none
  | [] => none

def secondArgument : List Char → Option (Option (List Char) × List Char)
  | ',' :: rest => (quoted (skip rest)).map fun found => (some found.1, skip found.2)
  | rest => some (none, rest)

/-- The match that starts here, with what stands behind it. No part of the pattern can match a
    shorter or a longer text than it does, so that nothing is to be tried twice. -/
def envVarCall (chars : List Char) : Option (Call × List Char) := do
  let rest ← expect opening chars
  let rest ← expect keyword (skip rest)
  let (name, rest) ← quoted (skip rest)
  let (default, rest) ← secondArgument (skip rest)
  let rest ← expect [')'] rest
  let rest ← expect closing (skip rest)
  if name = [] then none else some (⟨name, default⟩, rest)

/-- What a call is replaced by, or the name of a variable that is not set and has no default. -/
def Call.value (environ : String → Option String) (call : Call) : Except String (List Char) :=
  match environ (String.ofList call.name) with
  | some value => .ok value.toList
  | none =>
    match call.default with
    | some default => .ok default
    | none => .error (String.ofList call.name)

/-- `pattern.sub`, where the first so many characters belong to the match before. -/
def sub (environ : String → Option String) : Nat → List Char → Except String (List Char)
  | _, [] => .ok []
  | more + 1, _ :: rest => sub environ more rest
  | 0, c :: rest =>
    match envVarCall (c :: rest) with
    | some (call, after) => do
      let value ← call.value environ
      let filled ← sub environ (rest.length - after.length) rest
      return value ++ filled
    | none => do
      let filled ← sub environ 0 rest
      return c :: filled

section Scanning

theorem expect_iff (word chars rest : List Char) :
    expect word chars = some rest ↔ chars = word ++ rest := by
  unfold expect
  constructor
  · intro found
    split at found
    case isTrue starts =>
      obtain ⟨behind, rfl⟩ := starts
      rw [List.drop_left] at found
      rw [Option.some.inj found]
    case isFalse => cases found
  · rintro rfl
    rw [if_pos (List.prefix_append ..), List.drop_left]

theorem skip_blanks {blanks rest : List Char} (blank : ∀ c ∈ blanks, isSpace c = true)
    (solid : ∀ c ∈ rest.head?, isSpace c = false) : skip (blanks ++ rest) = rest := by
  rw [skip, List.dropWhile_append_of_pos blank]
  cases rest with
  | nil => rfl
  | cons c rest => rw [List.dropWhile_cons_of_neg (by simp [solid c rfl])]

theorem skip_split (chars : List Char) : ∃ blanks, (∀ c ∈ blanks, isSpace c = true) ∧
    chars = blanks ++ skip chars :=
  ⟨chars.takeWhile isSpace, fun _ => List.mem_takeWhile_imp, List.takeWhile_append_dropWhile.symm⟩

theorem quoted_iff (chars body rest : List Char) :
    quoted chars = some (body, rest) ↔ ∃ q q', isQuote q = true ∧ isQuote q' = true ∧
      (∀ c ∈ body, isQuote c = false) ∧ chars = q :: (body ++ q' :: rest) := by
  constructor
  · intro found
    unfold quoted at found
    split at found
    case h_1 q inner =>
      split at found
      case isTrue opens =>
        split at found
        case h_1 q' after stopped =>
          cases found
          refine ⟨q, q', opens, ?_, ?_, ?_⟩
          · have some_ : inner.dropWhile (fun c => !isQuote c) ≠ [] := by
              rw [stopped]
              exact List.cons_ne_nil _ _
            have closes := List.head_dropWhile_not (fun c => !isQuote c) some_
            simpa [stopped] using closes
          · intro c member
            simpa using List.mem_takeWhile_imp member
          · rw [← stopped, List.takeWhile_append_dropWhile]
        case h_2 => cases found
      case isFalse => cases found
    case h_2 => cases found
  · rintro ⟨q, q', opens, closes, free, rfl⟩
    have inside : ∀ c ∈ body, (!isQuote c) = true := by
      intro c member
      rw [free c member]
      rfl
    simp only [quoted, opens, ↓reduceIte, List.dropWhile_append_of_pos inside,
      List.takeWhile_append_of_pos inside]
    simp [closes]

end Scanning

section Spelling

def Blank (chars : List Char) : Prop := ∀ c ∈ chars, isSpace c = true

def Free (chars : List Char) : Prop := ∀ c ∈ chars, isQuote c = false

inductive SpellsSecond : Option (List Char) → List Char → Prop where
  | absent : SpellsSecond none []
  | given {before after body : List Char} {q q' : Char} : Blank before → isQuote q = true →
      Free body → isQuote q' = true → Blank after →
        SpellsSecond (some body) (',' :: (before ++ q :: (body ++ q' :: after)))

inductive Spells : Call → List Char → Prop where
  | call {first second third fourth name argument : List Char} {default : Option (List Char)}
      {q q' : Char} : Blank first → Blank second → isQuote q = true → name ≠ [] → Free name →
        isQuote q' = true → Blank third → SpellsSecond default argument → Blank fourth →
          Spells ⟨name, default⟩ (opening ++ (first ++ (keyword ++ (second ++
            q :: (name ++ q' :: (third ++ (argument ++ ')' :: (fourth ++ closing))))))))

theorem quote_solid {q : Char} (quotes : isQuote q = true) : isSpace q = false := by
  simp only [isQuote, Bool.or_eq_true, beq_iff_eq] at quotes
  rcases quotes with rfl | rfl <;> decide

theorem skip_before {blanks rest : List Char} {c : Char} (blank : Blank blanks)
    (solid : isSpace c = false) : skip (blanks ++ c :: rest) = c :: rest := by
  apply skip_blanks blank
  intro d head
  cases head
  exact solid

theorem secondArgument_spells {default : Option (List Char)} {argument : List Char}
    (spells : SpellsSecond default argument) (rest : List Char) :
    secondArgument (argument ++ ')' :: rest) = some (default, ')' :: rest) := by
  cases spells with
  | absent => rfl
  | @given before after body q q' blank opens free closes blankToo =>
    have found := (quoted_iff (q :: (body ++ q' :: (after ++ ')' :: rest))) body _).mpr
      ⟨q, q', opens, closes, free, rfl⟩
    simp only [List.cons_append, List.append_assoc, secondArgument,
      skip_before blank (quote_solid opens), found, Option.map_some,
      skip_before blankToo (show isSpace ')' = false by decide)]

theorem envVarCall_iff (chars rest : List Char) (call : Call) :
    envVarCall chars = some (call, rest) ↔ ∃ first second third fourth fifth,
      chars = opening ++ first ∧ skip first = keyword ++ second ∧
        quoted (skip second) = some (call.name, third) ∧ call.name ≠ [] ∧
          secondArgument (skip third) = some (call.default, fourth) ∧ fourth = ')' :: fifth ∧
            skip fifth = closing ++ rest := by
  simp only [envVarCall, Option.bind_eq_bind, Option.bind_eq_some_iff, expect_iff]
  constructor
  · rintro ⟨first, opened, second, named, ⟨name, third⟩, read, ⟨default, fourth⟩, argued, fifth,
      closed, rest', ended, same⟩
    split at same
    · cases same
    · rename_i some_
      cases same
      exact ⟨first, second, third, fourth, fifth, opened, named, read, some_, argued, closed, ended⟩
  · rintro ⟨first, second, third, fourth, fifth, opened, named, read, some_, argued, closed, ended⟩
    exact ⟨first, opened, second, named, _, read, _, argued, fifth, closed, rest, ended, if_neg some_⟩

theorem envVarCall_of_spells {call : Call} {spelled : List Char} (spells : Spells call spelled)
    (rest : List Char) : envVarCall (spelled ++ rest) = some (call, rest) := by
  cases spells with
  | @call first second third fourth name argument default q q' blank₁ blank₂ opens some_ free closes
      blank₃ argued blank₄ =>
    have ended : skip (fourth ++ (closing ++ rest)) = closing ++ rest :=
      skip_before (c := '\x7d') blank₄ (by decide)
    have argument_ : secondArgument (skip (third ++ (argument ++ ')' :: (fourth ++ (closing ++ rest))))) =
        some (default, ')' :: (fourth ++ (closing ++ rest))) := by
      rw [← secondArgument_spells argued]
      congr 1
      cases argued with
      | absent => exact skip_before blank₃ (by decide)
      | given => exact skip_before blank₃ (by decide)
    have read (after : List Char) : quoted (skip (second ++ q :: (name ++ q' :: after))) =
        some (name, after) := by
      rw [skip_before blank₂ (quote_solid opens)]
      exact (quoted_iff ..).mpr ⟨q, q', opens, closes, free, rfl⟩
    have named (after : List Char) : skip (first ++ (keyword ++ after)) = keyword ++ after :=
      skip_before (c := 'e') blank₁ (by decide)
    simp only [List.append_assoc, List.cons_append]
    exact (envVarCall_iff ..).mpr ⟨_, _, _, _, _, rfl, named _, read _, some_, argument_, rfl, ended⟩

theorem secondArgument_split {chars rest : List Char} {default : Option (List Char)}
    (found : secondArgument chars = some (default, rest)) :
    ∃ argument, SpellsSecond default argument ∧ chars = argument ++ rest := by
  unfold secondArgument at found
  split at found
  case h_1 inner =>
    obtain ⟨pair, read, same⟩ := Option.map_eq_some_iff.mp found
    cases same
    obtain ⟨q, q', opens, closes, free, split⟩ := (quoted_iff ..).mp read
    obtain ⟨before, blank, whole⟩ := skip_split inner
    obtain ⟨after, blankToo, tail⟩ := skip_split pair.2
    refine ⟨_, .given blank opens free closes blankToo, ?_⟩
    simp only [List.cons_append, List.append_assoc]
    rw [← tail, ← split, ← whole]
  case h_2 =>
    cases found
    exact ⟨[], .absent, rfl⟩

theorem spells_of_envVarCall {chars rest : List Char} {call : Call}
    (found : envVarCall chars = some (call, rest)) :
    ∃ spelled, Spells call spelled ∧ chars = spelled ++ rest := by
  obtain ⟨first, second, third, fourth, fifth, rfl, named, read, some_, argued, rfl, ended⟩ :=
    (envVarCall_iff ..).mp found
  obtain ⟨q, q', opens, closes, free, split⟩ := (quoted_iff ..).mp read
  obtain ⟨argument, spells, second_⟩ := secondArgument_split argued
  obtain ⟨blanks₁, blank₁, whole₁⟩ := skip_split first
  obtain ⟨blanks₂, blank₂, whole₂⟩ := skip_split second
  obtain ⟨blanks₃, blank₃, whole₃⟩ := skip_split third
  obtain ⟨blanks₄, blank₄, whole₄⟩ := skip_split fifth
  refine ⟨_, .call blank₁ blank₂ opens some_ free closes blank₃ spells blank₄, ?_⟩
  simp only [List.append_assoc, List.cons_append]
  rw [← ended, ← whole₄, ← second_, ← whole₃, ← split, ← whole₂, ← named, ← whole₁]

end Spelling

section Templates

variable (environ : String → Option String)

structure Part where
  call : Call
  spelled : List Char
  spells : Spells call spelled
  literal : List Char

def written (parts : List Part) : List Char := parts.flatMap fun part => part.spelled ++ part.literal

theorem written_cons (part : Part) (parts : List Part) :
    written (part :: parts) = part.spelled ++ (part.literal ++ written parts) := by
  rw [written, List.flatMap_cons, List.append_assoc, written]

/-- No call starts in the literal text, with what stands behind it. -/
def Clear (literal behind : List Char) : Prop :=
  ∀ before after, literal = before ++ after → after ≠ [] →
    ∀ call spelled, Spells call spelled → ¬ spelled <+: after ++ behind

/-- No call starts in the texts between the calls. -/
def Between (lead : List Char) : List Part → Prop
  | [] => Clear lead []
  | part :: rest => Clear lead (written (part :: rest)) ∧ Between part.literal rest

def filled : List Part → Except String (List Char)
  | [] => .ok []
  | part :: rest => do
    let value ← part.call.value environ
    let more ← filled rest
    return value ++ part.literal ++ more

theorem sub_skip (more : Nat) (chars : List Char) :
    sub environ more chars = sub environ 0 (chars.drop more) := by
  induction chars generalizing more with
  | nil => simp [sub]
  | cons c rest ih =>
    cases more with
    | zero => rfl
    | succ more => rw [sub, ih, List.drop_succ_cons]

theorem spelled_head {call : Call} {spelled : List Char} (spells : Spells call spelled) :
    ∃ rest, spelled = '\x7b' :: rest := by
  cases spells
  exact ⟨_, rfl⟩

theorem sub_spelled {call : Call} {spelled : List Char} (spells : Spells call spelled)
    (rest : List Char) : sub environ 0 (spelled ++ rest) = (do
      let value ← call.value environ
      let more ← sub environ 0 rest
      return value ++ more) := by
  have found := envVarCall_of_spells spells rest
  obtain ⟨more, rfl⟩ := spelled_head spells
  rw [List.cons_append] at found ⊢
  have behind : (more ++ rest).drop ((more ++ rest).length - rest.length) = rest := by
    rw [List.length_append, Nat.add_sub_cancel, List.drop_left]
  simp only [sub, found]
  rw [sub_skip, behind]

theorem clear_nil (behind : List Char) : Clear [] behind := by
  intro before after split some_
  exact absurd (List.append_eq_nil_iff.mp split.symm).2 some_

theorem clear_cons (c : Char) (literal behind : List Char) : Clear (c :: literal) behind ↔
    envVarCall (c :: (literal ++ behind)) = none ∧ Clear literal behind := by
  constructor
  · intro clear
    refine ⟨?_, fun before after split => clear (c :: before) after (by rw [split, List.cons_append])⟩
    rw [Option.eq_none_iff_forall_ne_some]
    rintro ⟨call, rest⟩ found
    obtain ⟨spelled, spells, split⟩ := spells_of_envVarCall found
    exact clear [] (c :: literal) rfl (List.cons_ne_nil _ _) call spelled spells ⟨rest, split.symm⟩
  · rintro ⟨none, clear⟩ before after split some_ call spelled spells starts
    cases before with
    | nil =>
      obtain ⟨rest, same⟩ := starts
      rw [List.nil_append] at split
      rw [← split, List.cons_append] at same
      rw [← same, envVarCall_of_spells spells rest] at none
      cases none
    | cons d before =>
      obtain ⟨rfl, later⟩ := List.cons.inj split
      exact clear before after later some_ call spelled spells starts

theorem sub_literal {literal behind : List Char} (clear : Clear literal behind) :
    sub environ 0 (literal ++ behind) = (literal ++ ·) <$> sub environ 0 behind := by
  induction literal with
  | nil =>
    rw [List.nil_append]
    cases sub environ 0 behind <;> rfl
  | cons c literal ih =>
    obtain ⟨none, later⟩ := (clear_cons ..).mp clear
    rw [List.cons_append, sub, none]
    simp only [ih later]
    cases sub environ 0 behind <;> rfl

theorem sub_written {lead : List Char} {parts : List Part} (between : Between lead parts) :
    sub environ 0 (lead ++ written parts) = (lead ++ ·) <$> filled environ parts := by
  induction parts generalizing lead with
  | nil =>
    rw [written, List.flatMap_nil, sub_literal environ between]
    rfl
  | cons part parts ih =>
    rw [sub_literal environ between.1, written_cons, sub_spelled environ part.spells, ih between.2, filled]
    cases part.call.value environ with
    | error name => rfl
    | ok value =>
      cases filled environ parts with
      | error name => rfl
      | ok more => simp [bind, Except.bind, Functor.map, Except.map, pure, Except.pure]

theorem exists_between (text : List Char) :
    ∃ lead parts, text = lead ++ written parts ∧ Between lead parts := by
  induction size : text.length using Nat.strong_induction_on generalizing text with
  | _ n ih =>
    subst size
    cases text with
    | nil => exact ⟨[], [], rfl, clear_nil []⟩
    | cons c rest =>
      cases found : envVarCall (c :: rest) with
      | none =>
        obtain ⟨lead, parts, rfl, between⟩ := ih rest.length (Nat.lt_succ_self _) rest rfl
        refine ⟨c :: lead, parts, rfl, ?_⟩
        cases parts with
        | nil => exact (clear_cons ..).mpr ⟨found, between⟩
        | cons part parts => exact ⟨(clear_cons ..).mpr ⟨found, between.1⟩, between.2⟩
      | some match_ =>
        obtain ⟨call, after⟩ := match_
        obtain ⟨spelled, spells, split⟩ := spells_of_envVarCall found
        have shorter : after.length < (c :: rest).length := by
          obtain ⟨more, rfl⟩ := spelled_head spells
          rw [split, List.length_append, List.length_cons]
          omega
        obtain ⟨lead, parts, rfl, between⟩ := ih after.length shorter after rfl
        exact ⟨[], ⟨call, spelled, spells, lead⟩ :: parts,
          by rw [split, List.nil_append, written_cons], clear_nil _, between⟩

/-- A text keeps all that stands between its calls, and each call becomes the value of its
    variable or its default; the first call that has neither is the one to be reported. -/
theorem sub_template (text : List Char) :
    (∃ lead parts, text = lead ++ written parts ∧ Between lead parts) ∧
      ∀ lead parts, text = lead ++ written parts → Between lead parts →
        sub environ 0 text = (lead ++ ·) <$> filled environ parts := by
  refine ⟨exists_between text, ?_⟩
  rintro lead parts rfl between
  exact sub_written environ between

def userPart : Part where
  call := ⟨['U'], some ['r', 'o']⟩
  spelled := opening ++ ([] ++ (keyword ++ ([] ++ '"' :: (['U'] ++ '"' ::
    ([] ++ (',' :: ([' '] ++ '"' :: (['r', 'o'] ++ '"' :: [])) ++ ')' :: ([] ++ closing)))))))
  spells := .call (List.forall_mem_nil _) (List.forall_mem_nil _) rfl (List.cons_ne_nil _ _)
    (List.forall_mem_singleton.mpr rfl) rfl (List.forall_mem_nil _)
    (.given (List.forall_mem_singleton.mpr rfl) rfl
      (List.forall_mem_cons.mpr ⟨rfl, List.forall_mem_singleton.mpr rfl⟩) rfl (List.forall_mem_nil _))
    (List.forall_mem_nil _)
  literal := [':']

def passwordPart : Part where
  call := ⟨['P', 'W'], none⟩
  spelled := opening ++ ([' '] ++ (keyword ++ ([] ++ '\'' :: (['P', 'W'] ++ '\'' ::
    ([] ++ ([] ++ ')' :: ([' '] ++ closing)))))))
  spells := .call (List.forall_mem_singleton.mpr rfl) (List.forall_mem_nil _) rfl
    (List.cons_ne_nil _ _) (List.forall_mem_cons.mpr ⟨rfl, List.forall_mem_singleton.mpr rfl⟩) rfl
    (List.forall_mem_nil _) .absent (List.forall_mem_singleton.mpr rfl)
  literal := ['@', 'h']

def passwordOnly (name : String) : Option String := if name = "PW" then some "s3" else none

theorem clear_of_none {literal behind : List Char}
    (none : ∀ k < literal.length, envVarCall (literal.drop k ++ behind) = none) :
    Clear literal behind := by
  induction literal with
  | nil => exact clear_nil behind
  | cons c literal ih =>
    refine (clear_cons ..).mpr ⟨none 0 (Nat.succ_pos _), ih fun k below => ?_⟩
    exact none (k + 1) (Nat.succ_lt_succ below)

theorem sub_template_credentials :
    sub passwordOnly 0
        "\x7b\x7b var('a') \x7d\x7d\x7b\x7benv_var(\"U\", \"ro\")\x7d\x7d:\x7b\x7b env_var('PW') \x7d\x7d@h".toList =
      .ok "\x7b\x7b var('a') \x7d\x7dro:s3@h".toList := by
  refine ((sub_template passwordOnly _).2 "\x7b\x7b var('a') \x7d\x7d".toList
    [userPart, passwordPart] rfl ⟨?_, ?_, ?_⟩).trans rfl
  · exact clear_of_none (by decide +kernel)
  · exact clear_of_none (by decide +kernel)
  · exact clear_of_none (by decide +kernel)

end Templates

end StatGuardian.Py.Dbt
