import StatGuardian.Core.Lexing
import StatGuardian.Library.PegAgreement

namespace StatGuardian.Core.Lexing

open Grammar Peg Rendering

section Skip

theorem comment_reads (body s : List Char) (line : '\n' ∉ body) :
    comment ("//".toList ++ (body ++ '\n' :: s)) = some ([], s) := by
  have chars : star (R := Rule) (seq (notFollowedBy (lit "\n")) any) (body ++ '\n' :: s) =
      some ([], '\n' :: s) := by
    induction body with
    | nil => exact star_stop (seq_none_left rfl)
    | cons c body ih =>
      have other : c ≠ '\n' := fun same => line (same ▸ List.mem_cons_self)
      have noNewline : lit (R := Rule) "\n" (c :: (body ++ '\n' :: s)) = none :=
        lit_refuses '\n' _ fun d head => by
          rw [List.head?_cons, Option.some.injEq] at head
          exact head ▸ other
      have round : seq (R := Rule) (notFollowedBy (lit "\n")) any (c :: (body ++ '\n' :: s)) =
          some ([], body ++ '\n' :: s) := by
        simp [seq, notFollowedBy, noNewline, any, charIf]
      exact star_some round (by simp) (ih fun inside => line (List.mem_cons_of_mem _ inside))
  have close : choice [lit "\n", endOfInput] ('\n' :: s) = some ([], s) :=
    choice_here _ (lit_append "\n" s)
  exact seq_some (lit_append "//" _) (seq_some chars close)

theorem skip_comment (body s : List Char) (line : '\n' ∉ body) :
    skip ("//".toList ++ (body ++ '\n' :: s)) = skip s := by
  obtain ⟨as, mid, spaces⟩ := star_total whitespace s
  obtain ⟨bs, rest, comments⟩ := star_total (seq comment (star whitespace)) mid
  have noSpace : star whitespace ("//".toList ++ (body ++ '\n' :: s)) =
      some ([], "//".toList ++ (body ++ '\n' :: s)) := star_stop rfl
  have first := seq_some (comment_reads body s line) spaces
  have short : mid.length ≤ s.length := by
    have all : Consumes (R := Rule) whitespace (fun text => ∀ c ∈ text, True) :=
      (Consumes.charIf isSpace).imp fun _ _ _ _ => trivial
    obtain ⟨text, rfl, _⟩ := all.star s as mid spaces
    simp
  have loop := star_some first (by simp; omega) comments
  simp only [skip, seq, noSpace, spaces, comments] at loop ⊢
  rw [loop]

theorem Gap.skip {w : List Char} (gap : Gap w) (s : List Char) : skip (w ++ s) = skip s := by
  cases gap with
  | space c space => exact skip_space c s space
  | comment body line =>
    rw [List.append_assoc, List.append_assoc]
    exact skip_comment body s line

theorem char_until (stop : String) :
    Consumes (R := Rule) (seq (notFollowedBy (lit stop)) any) (fun text => ∀ c ∈ text, True) := by
  intro s as rest found
  obtain ⟨a, mid, b, first, second, _⟩ := seq_found found
  have stays : mid = s := by
    unfold notFollowedBy at first
    split at first
    · cases first
    · cases first
      rfl
  obtain ⟨text, same, _⟩ := Consumes.charIf (R := Rule) (fun _ => true) mid b rest second
  exact ⟨text, stays ▸ same, fun _ _ => trivial⟩

theorem skip_suffix (s : List Char) : ∃ text, s = text ++ skip s := by
  have spaces : Consumes (star whitespace) (fun text => ∀ c ∈ text, True) :=
    ((Consumes.charIf isSpace).imp fun _ _ _ _ => trivial).star
  have ending : Consumes endOfInput (fun _ => True) := by
    intro s as rest found
    cases s with
    | nil =>
      cases found
      exact ⟨[], rfl, trivial⟩
    | cons c s => cases found
  have close : Consumes (choice [lit "\n", endOfInput]) (fun _ => True) := by
    refine Consumes.choice fun p member => ?_
    simp only [List.mem_cons, List.not_mem_nil, or_false] at member
    rcases member with rfl | rfl
    · exact (Consumes.lit "\n").imp fun _ _ => trivial
    · exact ending
  have comments : Consumes (star (seq comment (star whitespace))) (fun text => ∀ c ∈ text, True) :=
    ((((Consumes.lit "//").seq ((char_until "\n").star.seq close)).seq spaces).imp fun _ _ _ _ => trivial).star
  have both := spaces.seq comments
  unfold skip
  split
  · rename_i as rest found
    obtain ⟨text, same, _⟩ := both s as rest found
    exact ⟨text, same⟩
  · exact ⟨[], rfl⟩

theorem skip_shrinks (s : List Char) : (skip s).length ≤ s.length := by
  obtain ⟨text, same⟩ := skip_suffix s
  have size := congrArg List.length same
  rw [List.length_append] at size
  omega

theorem skip_token {t : List Char} (token : Token t) (s : List Char) : skip (t ++ s) = t ++ s := by
  cases t with
  | nil => exact absurd rfl token.some
  | cons c t =>
    rcases token_string_or_plain token with ⟨q, same⟩ | plain
    · obtain ⟨rfl, _⟩ := List.cons.inj same
      exact skip_solid '"' _ rfl (by decide)
    · have solid := plain c List.mem_cons_self
      exact skip_solid c _ solid.1 solid.2

end Skip

/-- A position between two tokens and what is put there: in one of the two texts, or in both. -/
structure Cut where
  v : List Char
  w : List Char
  gap : Gap w
  moved : Bool

namespace Cut

variable (cut : Cut)

/-- The texts have come to the position, or past it where only one of them has the gap. -/
inductive Done : Nat → List Char → InputRel where
  | same {d l} (isMoved : cut.moved = true) (s : List Char) : Done d l s s
  | moved {d l} (isMoved : cut.moved = true) (free : ¬ Glued d l cut.v) :
      Done d l cut.v (cut.w ++ cut.v)
  | stuck {d l} (fixed : cut.moved = false) (glued : Glued d l cut.v) :
      Done d l (cut.w ++ cut.v) (cut.w ++ cut.v)

/-- Both texts are read, token by token, up to there. -/
inductive Ahead : Nat → List Char → InputRel where
  | done {d l s s'} (there : cut.Done d l s s') : Ahead d l s s'
  | space {d l s s'} (c : Char) (space : isSpace c = true) (rest : Ahead d l s s') :
      Ahead d l (c :: s) (c :: s')
  | comment {d l s s'} (body : List Char) (line : '\n' ∉ body) (rest : Ahead d l s s') :
      Ahead d l ("//".toList ++ (body ++ '\n' :: s)) ("//".toList ++ (body ++ '\n' :: s'))
  | token {d l s s'} (t : List Char) (token : Token t) (longest : Longest t s)
      (longest' : Longest t s') (rest : Ahead (nest d t) t s s') : Ahead d l (t ++ s) (t ++ s')

def Settled (d : Nat) (l s s' : List Char) : Prop :=
  s = s' ∧ (cut.moved = false → Glued d l cut.v ∧ s = cut.v)

def Start (d : Nat) (l s s' : List Char) : Prop := cut.Ahead d l s s' ∨ cut.Settled d l s s'

/-- Texts that a part of the grammar starts at: they begin with a token, or are past the position. -/
def Solid (d : Nat) (l s s' : List Char) : Prop :=
  (∃ t r r', Token t ∧ Longest t r ∧ Longest t r' ∧ s = t ++ r ∧ s' = t ++ r' ∧
    cut.Ahead (nest d t) t r r') ∨ cut.Settled d l s s'

/-- Texts in the middle of a word, of which the grammar has read a keyword. -/
def Inside (d : Nat) (s s' : List Char) : Prop :=
  ∃ x r r' l, x ≠ [] ∧ (∀ c ∈ x, isWordChar c = true) ∧ s = x ++ r ∧ s' = x ++ r' ∧
    NoWord r ∧ NoWord r' ∧ x <:+ l ∧ cut.Ahead d l r r'

variable {cut} {d : Nat} {l s s' : List Char}

theorem Solid.start (solid : cut.Solid d l s s') : cut.Start d l s s' := by
  rcases solid with ⟨t, r, r', token, longest, longest', rfl, rfl, ahead⟩ | settled
  · exact .inl (.token t token longest longest' ahead)
  · exact .inr settled

theorem glued_head (glued : Glued d l cut.v) : ∃ c rest, cut.v = c :: rest ∧
    (c = '(' ∨ c = '[' ∨ c = '=' ∧ d = 0 ∧ rest.head? ≠ some '=') := by
  cases text : cut.v with
  | nil =>
    rw [text] at glued
    cases glued with
    | call word member before after => cases after
    | setting word member before outside after single => cases after
    | list before after => cases after
  | cons c rest =>
    rw [text] at glued
    refine ⟨c, rest, rfl, ?_⟩
    cases glued with
    | call word member before after => exact .inl (Option.some.inj after)
    | setting word member before outside after single =>
      refine .inr (.inr ⟨Option.some.inj after, outside, ?_⟩)
      simpa [List.head?_eq_getElem?] using single
    | list before after => exact .inr (.inl (Option.some.inj after))

theorem skip_glued (glued : Glued d l cut.v) : skip cut.v = cut.v := by
  obtain ⟨c, rest, same, cases⟩ := glued_head glued
  rw [same]
  rcases cases with rfl | rfl | ⟨rfl, _⟩ <;> exact skip_solid _ _ rfl (by decide)

theorem Ahead.skip (ahead : cut.Ahead d l s s') : cut.Solid d l (skip s) (skip s') := by
  induction ahead with
  | done there =>
    refine .inr ?_
    cases there with
    | same isMoved s => exact ⟨rfl, fun fixed => absurd (isMoved.symm.trans fixed) (by decide)⟩
    | moved isMoved free =>
      exact ⟨(cut.gap.skip cut.v).symm, fun fixed => absurd (isMoved.symm.trans fixed) (by decide)⟩
    | stuck fixed glued =>
      exact ⟨rfl, fun _ => ⟨glued, (cut.gap.skip cut.v).trans (skip_glued glued)⟩⟩
  | space c space rest ih =>
    rw [skip_space c _ space, skip_space c _ space]
    exact ih
  | comment body line rest ih =>
    rw [skip_comment body _ line, skip_comment body _ line]
    exact ih
  | token t token longest longest' rest ih =>
    rw [skip_token token, skip_token token]
    exact .inl ⟨t, _, _, token, longest, longest', rfl, rfl, rest⟩

theorem Start.skip (start : cut.Start d l s s') : cut.Solid d l (skip s) (skip s') := by
  rcases start with ahead | ⟨rfl, settled⟩
  · exact ahead.skip
  · refine .inr ⟨rfl, fun fixed => ?_⟩
    obtain ⟨glued, rfl⟩ := settled fixed
    exact ⟨glued, skip_glued glued⟩

theorem Inside.skip (inside : cut.Inside d s s') : cut.Inside d (skip s) (skip s') := by
  obtain ⟨x, r, r', l, some_, word, rfl, rfl, rest⟩ := inside
  cases x with
  | nil => exact absurd rfl some_
  | cons c x =>
    rw [List.cons_append, List.cons_append, skip_word c _ (word c List.mem_cons_self),
      skip_word c _ (word c List.mem_cons_self)]
    exact ⟨c :: x, r, r', l, some_, word, rfl, rfl, rest⟩

section Relations

variable (cut d)

def solid : InputRel := fun s s' => ∃ l, cut.Solid d l s s'

def solidIn : InputRel := fun s s' => cut.solid d s s' ∨ cut.Inside d s s'

def start : InputRel := fun s s' => ∃ l, cut.Start d l s s'

def startIn : InputRel := fun s s' => cut.start d s s' ∨ cut.Inside d s s'

/-- The functions that the grammar calls with parentheses of their own. -/
def callers : List String :=
  ["completeness", "uniqueness", "validity", "consistency", "freshness", "non_null_rate",
    "detect_outliers", "detect_nulls", "detect_duplicates", "detect_pattern_breaks",
    "detect_cardinality_explosion"]

def IsCaller (l : List Char) : Prop := ∃ k ∈ callers, k.toList <:+ l

def solidCall : InputRel := fun s s' => (∃ l, IsCaller l ∧ cut.Solid d l s s') ∨ cut.Inside d s s'

def startCall : InputRel := fun s s' => (∃ l, IsCaller l ∧ cut.Start d l s s') ∨ cut.Inside d s s'

def HalfEq : InputRel := fun s s' => s.head? = some '=' ∧ s'.head? = some '='

def solidEq : InputRel := fun s s' => cut.solid d s s' ∨ HalfEq s s'

def startEq : InputRel := fun s s' => cut.start d s s' ∨ HalfEq s s'

end Relations

theorem solid_skip (s s' : List Char) (start : cut.start d s s') :
    cut.solid d (Grammar.skip s) (Grammar.skip s') := by
  obtain ⟨l, start⟩ := start
  exact ⟨l, start.skip⟩

theorem solidIn_skip (s s' : List Char) (start : cut.startIn d s s') :
    cut.solidIn d (Grammar.skip s) (Grammar.skip s') :=
  start.imp (solid_skip s s') Inside.skip

theorem solidCall_skip (s s' : List Char) (start : cut.startCall d s s') :
    cut.solidCall d (Grammar.skip s) (Grammar.skip s') :=
  start.imp (fun ⟨l, caller, start⟩ => ⟨l, caller, start.skip⟩) Inside.skip

theorem solidEq_skip (s s' : List Char) (start : cut.startEq d s s') :
    cut.solidEq d (Grammar.skip s) (Grammar.skip s') := by
  refine start.imp (solid_skip s s') ?_
  rintro ⟨head, head'⟩
  cases s with
  | nil => cases head
  | cons c s =>
    cases s' with
    | nil => cases head'
    | cons c' s' =>
      rw [List.head?_cons, Option.some.injEq] at head head'
      rw [head, head', skip_solid '=' s rfl (by decide), skip_solid '=' s' rfl (by decide)]
      exact ⟨rfl, rfl⟩

theorem solid_start (s s' : List Char) (solid : cut.solid d s s') : cut.start d s s' := by
  obtain ⟨l, solid⟩ := solid
  exact ⟨l, solid.start⟩

theorem solidIn_of_start (s s' : List Char) (start : cut.start d s s') :
    cut.solidIn d (Grammar.skip s) (Grammar.skip s') :=
  .inl (solid_skip s s' start)

theorem solidEq_of_start (s s' : List Char) (start : cut.start d s s') :
    cut.solidEq d (Grammar.skip s) (Grammar.skip s') :=
  .inl (solid_skip s s' start)

theorem solidIn_startIn (s s' : List Char) (solid : cut.solidIn d s s') : cut.startIn d s s' :=
  solid.imp_left (solid_start s s')

theorem start_same (isMoved : cut.moved = true) (s : List Char) : cut.Start d l s s :=
  .inl (.done (.same isMoved s))

theorem nest_word (name : Identifier) (d : Nat) : nest d name.text = d := by
  have open_ : name.text ≠ ['('] := by
    intro same
    have alpha := name.alpha
    rw [(List.cons.inj same).1] at alpha
    cases alpha
  have close : name.text ≠ [')'] := by
    intro same
    have alpha := name.alpha
    rw [(List.cons.inj same).1] at alpha
    cases alpha
  rw [nest, if_neg open_, if_neg close]

theorem nest_numeral (n : Numeral) (d : Nat) : nest d n.text = d := by
  obtain ⟨c, rest, same, kind⟩ := numeral_head n
  have plain : c ≠ '(' ∧ c ≠ ')' := by
    rcases kind with digit | rfl
    · constructor <;> rintro rfl <;> cases digit
    · decide
  rw [nest, same, if_neg fun same => plain.1 (List.cons.inj same).1,
    if_neg fun same => plain.2 (List.cons.inj same).1]

/-- A part of the grammar steps if it steps on every token and refuses where the texts are stuck. -/
theorem step_solid {σ : InputRel} {p : Matcher} (consumes : Consumes p (· ≠ []))
    (refuses : Glued d l cut.v → p cut.v = none) (same : cut.moved = true → ∀ s, σ s s)
    (tokens : ∀ t r r', Token t → Longest t r → Longest t r' → cut.Ahead (nest d t) t r r' →
      Step σ p (t ++ r) (t ++ r')) (solid : cut.Solid d l s s') : Step σ p s s' := by
  rcases solid with ⟨t, r, r', token, longest, longest', rfl, rfl, ahead⟩ | ⟨rfl, settled⟩
  · exact tokens t r r' token longest longest' ahead
  · cases found : p s with
    | none => exact .inl ⟨found, found⟩
    | some taken =>
      obtain ⟨as, rest⟩ := taken
      cases isMoved : cut.moved with
      | true =>
        obtain ⟨text, here, some_⟩ := consumes s as rest found
        exact .inr ⟨as, text, rest, rest, some_, here, here, found, found, same isMoved rest⟩
      | false =>
        obtain ⟨glued, rfl⟩ := settled isMoved
        cases (refuses glued).symm.trans found

section Words

theorem identifier_consumes : Consumes identifier (· ≠ []) := by
  intro s as rest found
  obtain ⟨inner, inside, _⟩ := atomic_found found
  obtain ⟨text, same, a, b, rfl, ⟨c, rfl, _⟩, _⟩ := ((Consumes.charIf Char.isAlpha).seq
    ((Consumes.charIf isWordChar).imp fun _ _ _ _ => trivial).star) s inner rest inside
  exact ⟨_, same, List.cons_ne_nil _ _⟩

theorem identifier_steps : Lockstep (cut.solidIn d) (cut.start d) identifier := by
  intro s s' related
  rcases related with ⟨l, solid⟩ | ⟨x, r, r', l, some_, word, rfl, rfl, ends, ends', suffix, ahead⟩
  · refine step_solid identifier_consumes ?_ (fun isMoved s => ⟨[], start_same isMoved s⟩) ?_ solid
    · intro glued
      obtain ⟨c, rest, same, cases⟩ := glued_head glued
      rw [same]
      refine identifier_refuses c rest ?_
      rcases cases with rfl | rfl | ⟨rfl, _⟩ <;> rfl
    · intro t r r' token longest longest' ahead
      cases head : t with
      | nil => exact absurd head token.some
      | cons c text =>
        cases alpha : c.isAlpha with
        | false => exact .inl ⟨identifier_refuses c _ alpha, identifier_refuses c _ alpha⟩
        | true =>
          obtain ⟨name, rfl⟩ := word_of_head token (by rw [head]; rfl) alpha
          rw [← head]
          rw [nest_word] at ahead
          exact .inr ⟨_, name.text, r, r', token.some, rfl, rfl, identifier_reads name r (word_ends longest),
            identifier_reads name r' (word_ends longest'), name.text, .inl ahead⟩
  · cases x with
    | nil => exact absurd rfl some_
    | cons c x =>
      cases alpha : c.isAlpha with
      | false => exact .inl ⟨identifier_refuses c _ alpha, identifier_refuses c _ alpha⟩
      | true =>
        let name : Identifier := ⟨c, x, alpha, fun c member => word c (List.mem_cons_of_mem _ member)⟩
        exact .inr ⟨_, name.text, r, r', List.cons_ne_nil _ _, rfl, rfl, identifier_reads name r ends,
          identifier_reads name r' ends', l, .inl ahead⟩

theorem lit_consumes (k : String) (some_ : k.toList ≠ []) : Consumes (R := Rule) (lit k) (· ≠ []) :=
  (Consumes.lit k).imp fun _ same => same ▸ some_

theorem lit_inside {k : String} {x r : List Char} (ends : NoWord r)
    (keyword : ∀ c ∈ k.toList, isWordChar c = true) (other : ¬ k.toList <+: x) :
    lit (R := Rule) k (x ++ r) = none := by
  rw [lit_none_iff]
  intro starts
  by_cases fits : k.toList.length ≤ x.length
  · exact other (prefix_of_longer starts (List.prefix_append x r) fits)
  · obtain ⟨more, same⟩ := prefix_of_longer (List.prefix_append x r) starts (by omega)
    rw [← same] at starts fits keyword
    obtain ⟨rest, rfl⟩ := (List.prefix_append_right_inj x).mp starts
    cases more with
    | nil => simp at fits
    | cons c more =>
      have word := keyword c (by simp)
      rw [ends c rfl] at word
      cases word

def startAfter (word : List Char) (cut : Cut) (d : Nat) : InputRel :=
  fun s s' => (∃ l, word <:+ l ∧ cut.Start d l s s') ∨ cut.Inside d s s'

theorem keyword_step {k : String} (name : Identifier) (keyword : k.toList = name.text)
    (solid : cut.solidIn d s s') : Step (startAfter name.text cut d) (lit (R := Rule) k) s s' := by
  have some_ : k.toList ≠ [] := keyword ▸ List.cons_ne_nil _ _
  have word : ∀ c ∈ k.toList, isWordChar c = true := keyword ▸ identifier_word name
  have taken : ∀ s, lit (R := Rule) k (k.toList ++ s) = some ([], s) := lit_append k
  rcases solid with ⟨l, solid⟩ | ⟨x, r, r', l, filled, inside, rfl, rfl, ends, ends', suffix, ahead⟩
  · refine step_solid (lit_consumes k some_) ?_
      (fun isMoved s => .inl ⟨name.text, List.suffix_refl _, start_same isMoved s⟩) ?_ solid
    · intro glued
      obtain ⟨c, rest, same, cases⟩ := glued_head glued
      rw [same]
      refine lit_head_none ?_ some_
      intro head
      have wordChar := word c (List.mem_of_head? head)
      rcases cases with rfl | rfl | ⟨rfl, _⟩ <;> revert wordChar <;> decide
    · intro t r r' token longest longest' ahead
      by_cases starts : k.toList <+: t
      · have head : t.head? = some name.first := by
          obtain ⟨more, rfl⟩ := starts
          rw [keyword]
          rfl
        obtain ⟨whole, rfl⟩ := word_of_head token head name.alpha
        rw [nest_word] at ahead
        obtain ⟨x, same⟩ := starts
        refine .inr ⟨[], k.toList, x ++ r, x ++ r', some_, ?_, ?_, ?_, ?_, ?_⟩
        · rw [← List.append_assoc, same]
        · rw [← List.append_assoc, same]
        · rw [← same, List.append_assoc, taken]
        · rw [← same, List.append_assoc, taken]
        · by_cases all : x = []
          · rw [all, List.append_nil, keyword] at same
            rw [all]
            exact .inl ⟨whole.text, same ▸ List.suffix_refl _, .inl ahead⟩
          · exact .inr ⟨x, r, r', whole.text, all,
              fun c member => identifier_word whole c (same ▸ List.mem_append_right _ member), rfl, rfl,
              word_ends longest, word_ends longest', ⟨_, same⟩, ahead⟩
      · have isToken : Token k.toList := keyword ▸ .word name
        exact .inl ⟨lit_longest_none isToken longest starts, lit_longest_none isToken longest' starts⟩
  · by_cases starts : k.toList <+: x
    · obtain ⟨y, rfl⟩ := starts
      refine .inr ⟨[], k.toList, y ++ r, y ++ r', some_, List.append_assoc .., List.append_assoc ..,
        by rw [List.append_assoc, taken], by rw [List.append_assoc, taken], ?_⟩
      by_cases all : y = []
      · rw [all, List.append_nil, keyword] at suffix
        rw [all]
        exact .inl ⟨l, suffix, .inl ahead⟩
      · exact .inr ⟨y, r, r', l, all, fun c member => inside c (List.mem_append_right _ member), rfl, rfl,
          ends, ends', (List.suffix_append _ y).trans suffix, ahead⟩
    · exact .inl ⟨lit_inside ends word starts, lit_inside ends' word starts⟩

def isKeyword (k : String) : Bool :=
  match k.toList with
  | c :: rest => c.isAlpha && rest.all isWordChar
  | [] => false

theorem name_of_keyword {k : String} (keyword : isKeyword k = true) :
    ∃ name : Identifier, k.toList = name.text := by
  unfold isKeyword at keyword
  split at keyword
  · rename_i c rest chars
    rw [Bool.and_eq_true, List.all_eq_true] at keyword
    exact ⟨⟨c, rest, keyword.1, keyword.2⟩, chars⟩
  · cases keyword

theorem keyword_steps {k : String} (keyword : isKeyword k = true) :
    Lockstep (cut.solidIn d) (cut.startIn d) (lit (R := Rule) k) := by
  obtain ⟨name, same⟩ := name_of_keyword keyword
  refine Lockstep.imp (fun s s' => keyword_step name same) (fun _ _ => id) fun s s' after => ?_
  exact after.imp_left fun ⟨l, _, start⟩ => ⟨l, start⟩

theorem caller_steps {k : String} (caller : k ∈ callers) :
    Lockstep (cut.solidIn d) (cut.startCall d) (lit (R := Rule) k) := by
  have keyword : ∀ k ∈ callers, isKeyword k = true := by decide
  obtain ⟨name, same⟩ := name_of_keyword (keyword k caller)
  refine Lockstep.imp (fun s s' => keyword_step name same) (fun _ _ => id) fun s s' after => ?_
  exact after.imp_left fun ⟨l, suffix, start⟩ => ⟨l, ⟨k, caller, same ▸ suffix⟩, start⟩

theorem keywords_step (texts : List String) (keywords : ∀ k ∈ texts, isKeyword k = true) :
    Lockstep (cut.solidIn d) (cut.startIn d) (choice (texts.map (lit (R := Rule)))) := by
  refine Lockstep.choice fun p member => ?_
  obtain ⟨k, inside, rfl⟩ := List.mem_map.mp member
  exact keyword_steps (keywords k inside)

end Words

section Signs

theorem sign_step {k : String} (member : k ∈ signs)
    (alone : ∀ t ∈ signs, k.toList <+: t.toList → t = k)
    (refuses : Glued d l cut.v → lit (R := Rule) k cut.v = none) (solid : cut.Solid d l s s') :
    Step (cut.start (nest d k.toList)) (lit (R := Rule) k) s s' := by
  have some_ := signs_some k member
  refine step_solid (lit_consumes k some_) refuses (fun isMoved s => ⟨[], start_same isMoved s⟩) ?_ solid
  intro t r r' token longest longest' ahead
  by_cases starts : k.toList <+: t
  · have sign : ∃ text ∈ signs, t = text.toList := by
      obtain ⟨more, same⟩ := starts
      cases chars : k.toList with
      | nil => exact absurd chars some_
      | cons c rest =>
        have plain := (signs_plain k member c (by rw [chars]; exact List.mem_cons_self)).2.2
        exact sign_of_head token (by rw [← same, chars]; rfl) plain.1 plain.2.1 plain.2.2
    obtain ⟨text, inside, rfl⟩ := sign
    obtain rfl := alone text inside starts
    exact .inr ⟨[], text.toList, r, r', some_, rfl, rfl, lit_append text r, lit_append text r',
      text.toList, .inl ahead⟩
  · have isToken : Token k.toList := .sign k member
    exact .inl ⟨lit_longest_none isToken longest starts, lit_longest_none isToken longest' starts⟩

theorem sign_inside {k : String} (member : k ∈ signs) (inside : cut.Inside d s s') :
    lit (R := Rule) k s = none ∧ lit (R := Rule) k s' = none := by
  obtain ⟨x, r, r', l, some_, word, rfl, rfl, _⟩ := inside
  cases x with
  | nil => exact absurd rfl some_
  | cons c x =>
    have other : k.toList.head? ≠ some c := by
      intro head
      have plain := (signs_plain k member c (List.mem_of_head? head)).2.2.1
      rw [word c List.mem_cons_self] at plain
      cases plain
    exact ⟨lit_head_none other (signs_some k member), lit_head_none other (signs_some k member)⟩

theorem lit_none_of_head {k : String} {c : Char} (head : s.head? = some c)
    (other : k.toList.head? ≠ some c) (some_ : k.toList ≠ []) : lit (R := Rule) k s = none := by
  cases s with
  | nil => cases head
  | cons d s =>
    rw [List.head?_cons, Option.some.injEq] at head
    exact lit_head_none (head ▸ other) some_

theorem lit_glued_none {k : String} (some_ : k.toList ≠ [])
    (heads : k.toList.head? ≠ some '(' ∧ k.toList.head? ≠ some '[' ∧ k.toList.head? ≠ some '=')
    (glued : Glued d l cut.v) : lit (R := Rule) k cut.v = none := by
  obtain ⟨c, rest, same, cases⟩ := glued_head glued
  rw [same]
  refine lit_head_none ?_ some_
  rcases cases with rfl | rfl | ⟨rfl, _⟩
  · exact heads.1
  · exact heads.2.1
  · exact heads.2.2

def plainSigns : List String := ["\x7b", "\x7d", ")", "]", ",", ":", ".", "@"]

theorem plainSigns_alone : ∀ k ∈ plainSigns, k ∈ signs ∧
    (∀ t ∈ signs, k.toList <+: t.toList → t = k) ∧
    (k.toList.head? ≠ some '(' ∧ k.toList.head? ≠ some '[' ∧ k.toList.head? ≠ some '=') := by
  decide

theorem plainSign_steps {k : String} (plain : k ∈ plainSigns) :
    Lockstep (cut.solidIn d) (cut.start (nest d k.toList)) (lit (R := Rule) k) := by
  obtain ⟨member, alone, heads⟩ := plainSigns_alone k plain
  intro s s' related
  rcases related with ⟨l, solid⟩ | inside
  · exact sign_step member alone (lit_glued_none (signs_some k member) heads) solid
  · exact .inl (sign_inside member inside)

theorem open_steps : Lockstep (cut.solidCall d) (cut.start (d + 1)) (lit (R := Rule) "(") := by
  intro s s' related
  rcases related with ⟨l, caller, solid⟩ | inside
  · refine sign_step (by decide) (by decide) (fun glued => ?_) solid
    cases glued with
    | call word member before after =>
      obtain ⟨k, isCaller, suffix⟩ := caller
      rw [before] at suffix
      exact absurd suffix ((by decide : ∀ word ∈ callWords, ∀ k ∈ callers,
        ¬ k.toList <:+ word.toList) word member k isCaller)
    | setting word member before outside after single =>
      exact lit_none_of_head after (by decide) (by decide)
    | list before after => exact lit_none_of_head after (by decide) (by decide)
  · exact .inl (sign_inside (by decide) inside)

theorem equals_steps : Lockstep (cut.solid (d + 1)) (cut.startEq (d + 1)) (lit (R := Rule) "=") := by
  rintro s s' ⟨l, solid⟩
  refine step_solid (lit_consumes "=" (by decide)) (fun glued => ?_)
    (fun isMoved s => .inl ⟨[], start_same isMoved s⟩) ?_ solid
  · obtain ⟨c, rest, same, cases⟩ := glued_head glued
    rw [same]
    rcases cases with rfl | rfl | ⟨_, outside, _⟩
    · exact lit_head_none (by decide) (by decide)
    · exact lit_head_none (by decide) (by decide)
    · exact absurd outside (Nat.succ_ne_zero d)
  · intro t r r' token longest longest' ahead
    by_cases starts : "=".toList <+: t
    · obtain ⟨more, rfl⟩ := starts
      obtain ⟨text, member, same⟩ := sign_of_head (c := '=') token rfl (by decide) (by decide) (by decide)
      have taken : ∀ s, lit (R := Rule) "=" ("=".toList ++ s) = some ([], s) := lit_append "="
      refine .inr ⟨[], "=".toList, more ++ r, more ++ r', by decide, List.append_assoc ..,
        List.append_assoc .., by rw [List.append_assoc, taken], by rw [List.append_assoc, taken], ?_⟩
      have cases : more = [] ∨ more = ['='] := by
        have all : ∀ text ∈ signs, "=".toList <+: text.toList →
            text.toList = "=".toList ++ [] ∨ text.toList = "=".toList ++ ['='] := by decide
        have kinds := all text member (same ▸ List.prefix_append _ more)
        rw [← same] at kinds
        exact kinds.imp List.append_cancel_left List.append_cancel_left
      rcases cases with rfl | rfl
      · exact .inl ⟨_, .inl ahead⟩
      · exact .inr ⟨rfl, rfl⟩
    · have isToken : Token "=".toList := .sign "=" (by decide)
      exact .inl ⟨lit_longest_none isToken longest starts, lit_longest_none isToken longest' starts⟩

def operators : List String := [">=", "<=", "==", "!=", ">", "<"]

theorem choice_first {texts : List String} {t s : List Char}
    (tokens : ∀ k ∈ texts, Token k.toList) (longest : Longest t s)
    (first : ∀ k, texts.find? (fun k => k.toList.isPrefixOf t) = some k → k.toList = t) :
    choice (texts.map (lit (R := Rule))) (t ++ s) =
      (texts.find? (fun k => k.toList.isPrefixOf t)).map (fun _ => ([], s)) := by
  induction texts with
  | nil => rfl
  | cons k texts ih =>
    obtain ⟨isToken, others⟩ := List.forall_mem_cons.mp tokens
    rw [List.map_cons, List.find?_cons] at *
    cases starts : k.toList.isPrefixOf t with
    | true =>
      have whole := first k (by rw [starts])
      rw [← whole]
      exact choice_here _ (lit_append k s)
    | false =>
      rw [choice_next]
      · exact ih others fun k' found => first k' (by rw [starts]; exact found)
      · refine lit_longest_none isToken longest fun prefix_ => ?_
        rw [List.isPrefixOf_iff_prefix.mpr prefix_] at starts
        cases starts

theorem operators_signs : ∀ k ∈ operators, k ∈ signs := by decide

theorem operator_whole {t : List Char} (token : Token t) (k : String)
    (found : operators.find? (fun k => k.toList.isPrefixOf t) = some k) : k.toList = t := by
  have all : ∀ text ∈ signs, ∀ k ∈ operators,
      operators.find? (fun k => k.toList.isPrefixOf text.toList) = some k → k = text := by decide
  have member := List.mem_of_find?_eq_some found
  have starts : k.toList <+: t := by simpa using List.find?_some found
  obtain ⟨more, same⟩ := starts
  cases chars : k.toList with
  | nil => exact absurd chars (signs_some k (operators_signs k member))
  | cons c rest =>
    have plain := (signs_plain k (operators_signs k member) c (by rw [chars]; exact List.mem_cons_self)).2.2
    obtain ⟨text, inside, rfl⟩ := sign_of_head token (c := c) (by rw [← same, chars]; rfl) plain.1 plain.2.1
      plain.2.2
    rw [← chars, all text inside k member found]

theorem operators_refuse (glued : Glued d l cut.v) :
    choice (operators.map (lit (R := Rule))) cut.v = none := by
  obtain ⟨c, rest, same, cases⟩ := glued_head glued
  rw [same]
  refine choice_none fun p member => ?_
  obtain ⟨k, inside, rfl⟩ := List.mem_map.mp member
  rw [lit_none_iff]
  intro starts
  have heads : ∀ k ∈ operators, (k.toList.head? = some '(' ∨ k.toList.head? = some '[' ∨
      k.toList.head? = some '=') → k.toList = ['=', '='] := by
    decide
  obtain ⟨more, whole⟩ := starts
  cases chars : k.toList with
  | nil => exact absurd chars (signs_some k (operators_signs k inside))
  | cons d text =>
    rw [chars] at whole
    obtain ⟨rfl, tail⟩ := List.cons.inj whole
    have double := heads k inside
    rw [chars, List.head?_cons] at double
    have double := double (by rcases cases with rfl | rfl | ⟨rfl, _⟩ <;> simp)
    obtain ⟨rfl, rfl⟩ := List.cons.inj double
    rcases cases with other | other | ⟨_, _, single⟩
    · cases other
    · cases other
    · exact single (by rw [← tail]; rfl)

theorem comparisonOp_steps : Lockstep (cut.solidIn d) (cut.start d) comparisonOp := by
  refine Lockstep.rule _ (show Lockstep _ _ (choice (operators.map lit)) from ?_)
  intro s s' related
  rcases related with ⟨l, solid⟩ | inside
  · have consumes : Consumes (R := Rule) (choice (operators.map lit)) (· ≠ []) := by
      refine (Consumes.keywords operators).imp fun text ⟨k, member, same⟩ => ?_
      rw [same]
      exact signs_some k (operators_signs k member)
    refine step_solid consumes operators_refuse (fun isMoved s => ⟨[], start_same isMoved s⟩) ?_ solid
    intro t r r' token longest longest' ahead
    have tokens : ∀ k ∈ operators, Token k.toList := fun k member => .sign k (operators_signs k member)
    rw [Step, choice_first tokens longest (operator_whole token),
      choice_first tokens longest' (operator_whole token)]
    cases found : operators.find? (fun k => k.toList.isPrefixOf t) with
    | none => exact .inl ⟨rfl, rfl⟩
    | some k =>
      have level : nest d t = d := by
        rw [← operator_whole token k found]
        have flat : ∀ k ∈ operators, k.toList ≠ ['('] ∧ k.toList ≠ [')'] := by decide
        obtain ⟨open_, close⟩ := flat k (List.mem_of_find?_eq_some found)
        rw [nest, if_neg open_, if_neg close]
      exact .inr ⟨[], t, r, r', token.some, rfl, rfl, rfl, rfl, t, .inl (level ▸ ahead)⟩
  · refine .inl ⟨choice_none fun p member => ?_, choice_none fun p member => ?_⟩
    all_goals obtain ⟨k, is, rfl⟩ := List.mem_map.mp member
    · exact (sign_inside (operators_signs k is) inside).1
    · exact (sign_inside (operators_signs k is) inside).2

end Signs

section Literals

theorem number_refuses {c : Char} {rest : List Char} (digit : c.isDigit = false) (minus : c ≠ '-') :
    Grammar.number (c :: rest) = none := by
  have unsigned : optional (R := Rule) (lit "-") (c :: rest) = some ([], c :: rest) :=
    optional_none (lit_head_none (fun same => minus (Option.some.inj same).symm) (by decide))
  have noDigit : digits (c :: rest) = none := seq_none_left (by simp [charIf, digit])
  exact atomic_none _ (sequence_none_right (by simp) unsigned (sequence_none noDigit))

theorem number_consumes : Consumes Grammar.number (· ≠ []) := by
  intro s as rest found
  obtain ⟨inner, inside, _⟩ := atomic_found found
  obtain ⟨_, same, n, rfl⟩ := Core.Parser.number_consumes s inner rest inside
  exact ⟨n.text, same, (Token.number n).some⟩

theorem head_glued (glued : Glued d l cut.v) : ∃ c rest, cut.v = c :: rest ∧
    (c = '(' ∨ c = '[' ∨ c = '=') := by
  obtain ⟨c, rest, same, cases⟩ := glued_head glued
  exact ⟨c, rest, same, cases.imp_right fun more => more.imp_right And.left⟩

theorem cons_of_head {s : List Char} {c : Char} (head : s.head? = some c) : ∃ rest, s = c :: rest := by
  cases s with
  | nil => cases head
  | cons d rest => exact ⟨rest, by rw [Option.some.inj head]⟩

theorem number_steps : Lockstep (cut.solidEq d) (cut.start d) Grammar.number := by
  intro s s' related
  rcases related with ⟨l, solid⟩ | ⟨head, head'⟩
  · refine step_solid number_consumes ?_ (fun isMoved s => ⟨[], start_same isMoved s⟩) ?_ solid
    · intro glued
      obtain ⟨c, rest, same, inside⟩ := head_glued glued
      have plain : c.isDigit = false ∧ c ≠ '-' := by rcases inside with rfl | rfl | rfl <;> decide
      rw [same]
      exact number_refuses plain.1 plain.2
    · intro t r r' token longest longest' ahead
      have refuses : ∀ {c text}, t = c :: text → c.isDigit = false → c ≠ '-' →
          Step (cut.start d) Grammar.number (t ++ r) (t ++ r') := by
        rintro c text rfl digit minus
        exact .inl ⟨number_refuses digit minus, number_refuses digit minus⟩
      cases token with
      | word name =>
        refine refuses rfl ?_ ?_
        · exact isDigit_of_isAlpha name.alpha
        · rintro same
          have alpha := name.alpha
          rw [same] at alpha
          cases alpha
      | number n =>
        have level : nest d n.text = d := nest_numeral n d
        exact .inr ⟨_, n.text, r, r', (Token.number n).some, rfl, rfl, number_of_longest longest,
          number_of_longest longest', n.text, .inl (level ▸ ahead)⟩
      | string q => exact refuses rfl rfl (by decide)
      | sign text member =>
        cases chars : text.toList with
        | nil => exact absurd chars (signs_some text member)
        | cons c rest =>
          have plain := signs_plain text member c (by rw [chars]; exact List.mem_cons_self)
          rw [chars] at refuses
          exact refuses rfl (isDigit_of_not_word plain.2.2.1) plain.2.2.2.1
  · obtain ⟨rest, rfl⟩ := cons_of_head head
    obtain ⟨rest', rfl⟩ := cons_of_head head'
    exact .inl ⟨number_refuses rfl (by decide), number_refuses rfl (by decide)⟩

theorem stringLiteral_refuses {c : Char} {rest : List Char} (quote : c ≠ '"') :
    stringLiteral (c :: rest) = none :=
  atomic_none _ (sequence_none (lit_head_none (fun same => quote (Option.some.inj same).symm) (by decide)))

theorem stringLiteral_consumes : Consumes stringLiteral (· ≠ []) := by
  intro s as rest found
  obtain ⟨inner, inside, _⟩ := atomic_found found
  have parts : Consumes (R := Rule) (seq (lit "\"") (seq innerStr (lit "\""))) (· ≠ []) :=
    ((Consumes.lit "\"").seq ((char_until "\"").star.seq (Consumes.lit "\""))).imp
      fun text ⟨a, b, same, quote, _⟩ none => by
        rw [same, quote, List.append_eq_nil_iff] at none
        exact absurd none.1 (by decide)
  exact parts s inner rest inside

theorem stringLiteral_steps : Lockstep (cut.solidEq d) (cut.start d) stringLiteral := by
  intro s s' related
  rcases related with ⟨l, solid⟩ | ⟨head, head'⟩
  · refine step_solid stringLiteral_consumes ?_ (fun isMoved s => ⟨[], start_same isMoved s⟩) ?_ solid
    · intro glued
      obtain ⟨c, rest, same, inside⟩ := head_glued glued
      have plain : c ≠ '"' := by rcases inside with rfl | rfl | rfl <;> decide
      rw [same]
      exact stringLiteral_refuses plain
    · intro t r r' token longest longest' ahead
      by_cases quote : t.head? = some '"'
      · obtain ⟨q, rfl⟩ := token_string_of_head token quote
        have level : nest d q.text = d := rfl
        exact .inr ⟨_, q.text, r, r', token.some, rfl, rfl, stringLiteral_reads q r,
          stringLiteral_reads q r', q.text, .inl (level ▸ ahead)⟩
      · cases t with
        | nil => exact absurd rfl token.some
        | cons c text =>
          have other : c ≠ '"' := fun same => quote (congrArg some same)
          exact .inl ⟨stringLiteral_refuses other, stringLiteral_refuses other⟩
  · obtain ⟨rest, rfl⟩ := cons_of_head head
    obtain ⟨rest', rfl⟩ := cons_of_head head'
    exact .inl ⟨stringLiteral_refuses (by decide), stringLiteral_refuses (by decide)⟩

theorem boolean_steps : Lockstep (cut.solidEq d) (cut.startIn d) boolean := by
  refine Lockstep.atomic _ ?_
  intro s s' related
  rcases related with solid | ⟨head, head'⟩
  · exact keywords_step ["true", "false"] (by decide) s s' (.inl solid)
  · refine .inl ⟨choice_none fun p member => ?_, choice_none fun p member => ?_⟩
    all_goals
      simp only [List.mem_cons, List.not_mem_nil, or_false] at member
      rcases member with rfl | rfl
    · exact lit_none_of_head head (by decide) (by decide)
    · exact lit_none_of_head head (by decide) (by decide)
    · exact lit_none_of_head head' (by decide) (by decide)
    · exact lit_none_of_head head' (by decide) (by decide)

end Literals

end Cut

end StatGuardian.Core.Lexing
