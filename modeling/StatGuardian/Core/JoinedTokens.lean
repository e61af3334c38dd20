import StatGuardian.Core.TokenSteps

namespace StatGuardian.Core.Lexing

open Grammar Peg Rendering

namespace Cut

variable {cut : Cut} {d : Nat} {l s s' : List Char} {k word : String}

section Parts

theorem word_then {c : Char} (keyword : isKeyword word = true) (plain : isWordChar c = false)
    (solid : cut.Solid d l s s') :
    (¬ word.toList ++ [c] <+: s ∧ ¬ word.toList ++ [c] <+: s') ∨
      ∃ r r', s = word.toList ++ r ∧ s' = word.toList ++ r' ∧
        (cut.moved = true ∧ r = r' ∨ cut.Ahead d word.toList r r') := by
  obtain ⟨name, same⟩ := name_of_keyword keyword
  rw [same]
  rcases solid with ⟨t, r, r', token, longest, longest', rfl, rfl, ahead⟩ | ⟨rfl, settled⟩
  · by_cases starts : name.text <+: t
    · obtain ⟨whole, rfl⟩ := word_of_head token (c := name.first) (by
        obtain ⟨more, rfl⟩ := starts
        rfl) name.alpha
      obtain ⟨x, whole_eq⟩ := starts
      cases x with
      | nil =>
        rw [List.append_nil] at whole_eq
        rw [← whole_eq, nest_word] at ahead
        exact .inr ⟨r, r', by rw [whole_eq], by rw [whole_eq], .inr ahead⟩
      | cons e x =>
        have wordChar := identifier_word whole e (whole_eq ▸ by simp)
        have other : c ≠ e := by
          rintro rfl
          rw [plain] at wordChar
          cases wordChar
        have refused : ∀ s, ¬ name.text ++ [c] <+: whole.text ++ s := by
          rintro s ⟨rest, text⟩
          rw [← whole_eq, List.append_assoc, List.append_assoc] at text
          exact other (List.cons.inj (List.append_cancel_left text)).1
        exact .inl ⟨refused r, refused r'⟩
    · have refused : ∀ s, Longest t s → ¬ name.text ++ [c] <+: t ++ s := by
        intro s longest inside
        have first := (List.prefix_append name.text [c]).trans inside
        exact starts (prefix_of_longer first (List.prefix_append t s) (longest _ (.word name) first))
      exact .inl ⟨refused r longest, refused r' longest'⟩
  · cases isMoved : cut.moved with
    | true =>
      by_cases starts : name.text <+: s
      · obtain ⟨r, rfl⟩ := starts
        exact .inr ⟨r, r, rfl, rfl, .inl ⟨rfl, rfl⟩⟩
      · have refused := fun inside => starts ((List.prefix_append name.text [c]).trans inside)
        exact .inl ⟨refused, refused⟩
    | false =>
      obtain ⟨glued, rfl⟩ := settled isMoved
      obtain ⟨e, rest, text, inside⟩ := head_glued glued
      have refused : ¬ name.text ++ [c] <+: cut.v := by
        rintro ⟨more, other⟩
        rw [text] at other
        have alpha := name.alpha
        rw [(List.cons.inj other).1] at alpha
        rcases inside with rfl | rfl | rfl <;> cases alpha
      exact .inl ⟨refused, refused⟩

theorem Ahead.sign_next {c : Char} (solid : isSpace c = false) (slash : c ≠ '/')
    (ahead : cut.Ahead d l s s') :
    (s.head? ≠ some c ∧ s'.head? ≠ some c) ∨ cut.moved = true ∧ s = s' ∨
      (∃ t r r', Token t ∧ t.head? = some c ∧ s = t ++ r ∧ s' = t ++ r' ∧ cut.Ahead (nest d t) t r r') ∨
      (cut.moved = true ∧ ¬ Glued d l cut.v ∧ s = cut.v ∧ cut.v.head? = some c ∧ s'.head? ≠ some c) := by
  have gap : (cut.w ++ cut.v).head? ≠ some c := by
    intro head
    rcases cut.gap.blank cut.v c head with space | same
    · rw [solid] at space
      cases space
    · exact slash same
  cases ahead with
  | done there =>
    cases there with
    | same isMoved s => exact .inr (.inl ⟨isMoved, rfl⟩)
    | moved isMoved free =>
      by_cases head : cut.v.head? = some c
      · exact .inr (.inr (.inr ⟨isMoved, free, rfl, head, gap⟩))
      · exact .inl ⟨head, gap⟩
    | stuck fixed glued => exact .inl ⟨gap, gap⟩
  | space e space rest =>
    have other : e ≠ c := by
      rintro rfl
      rw [solid] at space
      cases space
    exact .inl ⟨fun head => other (Option.some.inj head), fun head => other (Option.some.inj head)⟩
  | comment body line rest =>
    exact .inl ⟨fun head => slash (Option.some.inj head).symm, fun head => slash (Option.some.inj head).symm⟩
  | token t token longest longest' rest =>
    cases chars : t with
    | nil => exact absurd chars token.some
    | cons e text =>
      rw [← chars]
      by_cases same : e = c
      · exact .inr (.inr (.inl ⟨t, _, _, token, by rw [chars, same]; rfl, rfl, rfl, rest⟩))
      · rw [chars]
        exact .inl ⟨fun head => same (Option.some.inj head), fun head => same (Option.some.inj head)⟩

theorem sign_token {t : List Char} {c : Char} {texts : List (List Char)} (token : Token t)
    (head : t.head? = some c) (sign : isWordChar c = false ∧ c ≠ '-' ∧ c ≠ '"')
    (all : ∀ text ∈ signs, text.toList.head? = some c → text.toList ∈ texts) : t ∈ texts := by
  obtain ⟨text, member, rfl⟩ := sign_of_head token head sign.1 sign.2.1 sign.2.2
  exact all text member head

theorem not_prefix_of_head {word r : List Char} {c : Char} (head : r.head? ≠ some c) (more : List Char) :
    ¬ word ++ c :: more <+: word ++ r := by
  rintro ⟨rest, same⟩
  rw [List.append_assoc] at same
  exact head (by rw [← List.append_cancel_left same]; rfl)

theorem step_same (isMoved : cut.moved = true) (some_ : k.toList ≠ []) {σ : InputRel}
    (left : ∀ s, cut.start d s s → σ s s) (s : List Char) : Step σ (lit (R := Rule) k) s s := by
  cases found : lit (R := Rule) k s with
  | none => exact .inl ⟨found, found⟩
  | some taken =>
    obtain ⟨as, rest⟩ := taken
    obtain ⟨text, same, filled⟩ := lit_consumes k some_ s as rest found
    exact .inr ⟨as, text, rest, rest, filled, same, same, found, found, left rest ⟨[], start_same isMoved rest⟩⟩

end Parts

section Calls

theorem call_steps (member : word ∈ callWords) (spelled : k.toList = word.toList ++ ['(']) :
    Lockstep (cut.solid d) (cut.start (d + 1)) (lit (R := Rule) k) := by
  rintro s s' ⟨l, solid⟩
  have some_ : k.toList ≠ [] := by simp [spelled]
  have keyword : ∀ word ∈ callWords, isKeyword word = true := by decide
  have refuses : ∀ {r r' : List Char}, r.head? ≠ some '(' → r'.head? ≠ some '(' →
      Step (cut.start (d + 1)) (lit (R := Rule) k) (word.toList ++ r) (word.toList ++ r') := by
    intro r r' head head'
    refine .inl ⟨(lit_none_iff ..).mpr ?_, (lit_none_iff ..).mpr ?_⟩ <;> rw [spelled]
    · exact not_prefix_of_head head []
    · exact not_prefix_of_head head' []
  rcases word_then (keyword word member) (c := '(') (by decide) solid with
    ⟨refused, refused'⟩ | ⟨r, r', rfl, rfl, ⟨isMoved, rfl⟩ | ahead⟩
  · exact .inl ⟨(lit_none_iff ..).mpr (spelled ▸ refused), (lit_none_iff ..).mpr (spelled ▸ refused')⟩
  · exact step_same isMoved some_ (fun _ => id) _
  · rcases ahead.sign_next (c := '(') (by decide) (by decide) with ⟨head, head'⟩ | ⟨isMoved, rfl⟩ |
      ⟨t, q, q', token, head, rfl, rfl, rest⟩ | ⟨_, free, _, head, _⟩
    · exact refuses head head'
    · exact step_same isMoved some_ (fun _ => id) _
    · obtain rfl : t = ['('] := List.mem_singleton.mp
        (sign_token token head (by decide) (by decide))
      refine .inr ⟨[], k.toList, q, q', some_, ?_, ?_, ?_, ?_, ['('], .inl rest⟩
      · rw [spelled, List.append_assoc]
      · rw [spelled, List.append_assoc]
      · rw [← List.append_assoc, ← spelled, lit_append]
      · rw [← List.append_assoc, ← spelled, lit_append]
    · exact absurd (.call word member rfl head) free

end Calls

section Settings

theorem equals_tokens : ∀ text ∈ signs, text.toList.head? = some '=' →
    text.toList ∈ [['='], ['=', '=']] := by
  decide

theorem settings_keywords : ∀ word ∈ settingWords, isKeyword word = true := by decide

theorem double_of_free (member : word ∈ settingWords) (free : ¬ Glued 0 word.toList cut.v)
    (head : cut.v.head? = some '=') : ∃ rest, cut.v = '=' :: '=' :: rest := by
  have double : cut.v[1]? = some '=' := by
    by_contra single
    exact free (.setting word member rfl rfl head single)
  obtain ⟨rest, text⟩ := cons_of_head head
  rw [text, List.getElem?_cons_succ, ← List.head?_eq_getElem?] at double
  obtain ⟨more, rfl⟩ := cons_of_head double
  exact ⟨more, text⟩

/-- A keyword with its equals sign. Where the gap is in front of an operator, the literal is in one of
    the texts only, and half of the operator is left. -/
theorem setting_reads (member : word ∈ settingWords) (spelled : k.toList = word.toList ++ ['='])
    (solid : cut.solid 0 s s') :
    Step (cut.startEq 0) (lit (R := Rule) k) s s' ∨
      ∃ rest, lit (R := Rule) k s = some ([], '=' :: rest) ∧ lit (R := Rule) k s' = none := by
  obtain ⟨l, solid⟩ := solid
  have some_ : k.toList ≠ [] := by simp [spelled]
  have refuses : ∀ {r : List Char}, r.head? ≠ some '=' → lit (R := Rule) k (word.toList ++ r) = none := by
    intro r head
    rw [lit_none_iff, spelled]
    exact not_prefix_of_head head []
  have takes : ∀ r, lit (R := Rule) k (word.toList ++ '=' :: r) = some ([], r) := by
    intro r
    have whole := lit_append (R := Rule) k r
    rwa [spelled, List.append_assoc] at whole
  have steps : ∀ {r r' : List Char}, cut.startEq 0 r r' → Step (cut.startEq 0) (lit (R := Rule) k)
      (word.toList ++ '=' :: r) (word.toList ++ '=' :: r') := fun {r r'} left =>
    .inr ⟨[], k.toList, r, r', some_, by simp [spelled], by simp [spelled], takes r, takes r', left⟩
  rcases word_then (settings_keywords word member) (c := '=') (by decide) solid with
    ⟨refused, refused'⟩ | ⟨r, r', rfl, rfl, ⟨isMoved, rfl⟩ | ahead⟩
  · exact .inl (.inl ⟨(lit_none_iff ..).mpr (spelled ▸ refused), (lit_none_iff ..).mpr (spelled ▸ refused')⟩)
  · exact .inl (step_same isMoved some_ (fun _ => .inl) _)
  · rcases ahead.sign_next (c := '=') (by decide) (by decide) with ⟨head, head'⟩ | ⟨isMoved, rfl⟩ |
      ⟨t, q, q', token, head, rfl, rfl, rest⟩ | ⟨_, free, rfl, head, other⟩
    · exact .inl (.inl ⟨refuses head, refuses head'⟩)
    · exact .inl (step_same isMoved some_ (fun _ => .inl) _)
    · have kinds := sign_token token head (by decide) equals_tokens
      simp only [List.mem_cons, List.not_mem_nil, or_false] at kinds
      rcases kinds with rfl | rfl
      · exact .inl (steps (.inl ⟨['='], .inl rest⟩))
      · exact .inl (steps (.inr ⟨rfl, rfl⟩))
    · obtain ⟨rest, text⟩ := double_of_free member free head
      exact .inr ⟨rest, by rw [text, takes], refuses other⟩

theorem setting_agrees {n : Nat} {σ : InputRel} {Q : PairsRel Rule} {value : Matcher}
    (member : word ∈ settingWords) (spelled : k.toList = word.toList ++ ['='])
    (agrees : Agrees n (cut.solidEq 0) σ Q value) (refuses : ∀ rest, value ('=' :: rest) = none) :
    Agrees (1 + n) (cut.solid 0) σ Q (phrase [lit k, value]) := by
  intro s s' solid
  have silent : Produces (R := Rule) (lit k) Silent := .lit k
  rcases setting_reads member spelled solid with (⟨refused, refused'⟩ | ⟨as, text, rest, rest', some_, rfl,
    rfl, found, found', left⟩) | ⟨rest, found, refused⟩
  · exact .inl ⟨sequence_none refused, sequence_none refused'⟩
  · obtain rfl : as = [] := silent _ _ _ found
    have size := List.length_pos_iff.mpr some_
    rcases agrees.after skip_shrinks solidEq_skip rest rest' left with ⟨refused, refused'⟩ |
      ⟨bs, bs', after_, after_', more, more', pairs, next, size', size''⟩
    · exact .inl ⟨seq_none_right found refused, seq_none_right found' refused'⟩
    · refine .inr ⟨bs, bs', after_, after_', seq_some found more, seq_some found' more', pairs, next, ?_, ?_⟩
      all_goals
        rw [List.length_append]
        omega
  · refine .inl ⟨sequence_none_right (by simp) found ?_, sequence_none refused⟩
    rw [skip_solid '=' rest rfl (by decide)]
    exact refuses rest

theorem enum_steps : Lockstep (cut.solid 0) (cut.start 0) (lit (R := Rule) "enum=[") := by
  rintro s s' ⟨l, solid⟩
  have some_ : "enum=[".toList ≠ [] := by decide
  have refuses : ∀ {r : List Char}, ¬ ['=', '['] <+: r → lit (R := Rule) "enum=[" ("enum".toList ++ r) = none := by
    intro r other
    rw [lit_none_iff, show "enum=[".toList = "enum".toList ++ ['=', '['] from rfl,
      List.prefix_append_right_inj]
    exact other
  have refuses_head : ∀ {r : List Char}, r.head? ≠ some '=' →
      lit (R := Rule) "enum=[" ("enum".toList ++ r) = none := by
    intro r head
    refine refuses ?_
    rintro ⟨rest, rfl⟩
    exact head rfl
  have refuses_next : ∀ {r : List Char}, r.head? ≠ some '[' →
      lit (R := Rule) "enum=[" ("enum".toList ++ '=' :: r) = none := by
    intro r head
    refine refuses ?_
    rintro ⟨rest, same⟩
    exact head (by rw [← (List.cons.inj same).2]; rfl)
  rcases word_then (settings_keywords "enum" (by decide)) (c := '=') (by decide) solid with
    ⟨refused, refused'⟩ | ⟨r, r', rfl, rfl, ⟨isMoved, rfl⟩ | ahead⟩
  · have short : "enum".toList ++ ['='] <+: "enum=[".toList := by decide
    exact .inl ⟨(lit_none_iff ..).mpr fun starts => refused (short.trans starts),
      (lit_none_iff ..).mpr fun starts => refused' (short.trans starts)⟩
  · exact step_same isMoved some_ (fun _ => id) _
  rcases ahead.sign_next (c := '=') (by decide) (by decide) with ⟨head, head'⟩ | ⟨isMoved, rfl⟩ |
    ⟨t, q, q', token, head, rfl, rfl, rest⟩ | ⟨_, free, rfl, head, other⟩
  · exact .inl ⟨refuses_head head, refuses_head head'⟩
  · exact step_same isMoved some_ (fun _ => id) _
  · have kinds := sign_token token head (by decide) equals_tokens
    simp only [List.mem_cons, List.not_mem_nil, or_false] at kinds
    rcases kinds with rfl | rfl
    · rcases Ahead.sign_next (c := '[') (by decide) (by decide) rest with ⟨head, head'⟩ | ⟨isMoved, rfl⟩ |
        ⟨t, q, q', token, head, rfl, rfl, later⟩ | ⟨_, free, _, head, _⟩
      · exact .inl ⟨refuses_next head, refuses_next head'⟩
      · exact step_same isMoved some_ (fun _ => id) _
      · obtain rfl : t = ['['] := List.mem_singleton.mp
          (sign_token token head (by decide) (by decide))
        exact .inr ⟨[], "enum=[".toList, q, q', some_, rfl, rfl, lit_append "enum=[" q,
          lit_append "enum=[" q', ['['], .inl later⟩
      · exact absurd (.list rfl head) free
    · exact .inl ⟨refuses_next (by simp), refuses_next (by simp)⟩
  · obtain ⟨rest, text⟩ := double_of_free (by decide) free head
    exact .inl ⟨by rw [text]; exact refuses_next (by simp), refuses_head other⟩

end Settings

theorem endOfInput_agrees : Agrees 0 (cut.solidIn d) (fun _ _ => cut.moved = true)
    (One₂ (Equal₂ (·.rule = .eoi))) endOfInput := by
  have refuses : ∀ {s : List Char}, s ≠ [] → endOfInput s = none := by
    intro s some_
    cases s with
    | nil => exact absurd rfl some_
    | cons c s => rfl
  intro s s' related
  rcases related with ⟨l, ⟨t, r, r', token, _, _, rfl, rfl, _⟩ | ⟨rfl, settled⟩⟩ |
    ⟨x, r, r', l, some_, _, rfl, rfl, _⟩
  · exact .inl ⟨refuses (List.append_ne_nil_of_left_ne_nil token.some r),
      refuses (List.append_ne_nil_of_left_ne_nil token.some r')⟩
  · by_cases done : s = []
    · cases isMoved : cut.moved with
      | true =>
        exact .inr ⟨_, _, [], [], by rw [done]; rfl, by rw [done]; rfl, ⟨_, _, rfl, rfl, rfl, rfl⟩, rfl,
          Nat.zero_le _, Nat.zero_le _⟩
      | false =>
        obtain ⟨glued, rfl⟩ := settled isMoved
        obtain ⟨c, rest, text, _⟩ := head_glued glued
        rw [text] at done
        cases done
    · exact .inl ⟨refuses done, refuses done⟩
  · exact .inl ⟨refuses (List.append_ne_nil_of_left_ne_nil some_ r),
      refuses (List.append_ne_nil_of_left_ne_nil some_ r')⟩

end Cut

end StatGuardian.Core.Lexing
