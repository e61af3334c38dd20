import StatGuardian.Library.Peg

/-! What a parsing expression can produce and consume, whatever the input. -/

namespace Peg

variable {R : Type}

/-- Every match produces pairs with the property. -/
def Produces (p : Parser R) (Q : List (Pair R) → Prop) : Prop :=
  ∀ s as rest, p s = some (as, rest) → Q as

/-- Every match takes a text with the property off the input. -/
def Consumes (p : Parser R) (T : List Char → Prop) : Prop :=
  ∀ s as rest, p s = some (as, rest) → ∃ text, s = text ++ rest ∧ T text

def Silent (as : List (Pair R)) : Prop := as = []

def One (P : Pair R → Prop) (as : List (Pair R)) : Prop := ∃ pair, as = [pair] ∧ P pair

def Many (P : Pair R → Prop) (as : List (Pair R)) : Prop := ∀ pair ∈ as, P pair

def Maybe (P : Pair R → Prop) (as : List (Pair R)) : Prop := as = [] ∨ One P as

def Concat {α : Type} : List (List α → Prop) → List α → Prop
  | [], as => as = []
  | Q :: Qs, as => ∃ a b, as = a ++ b ∧ Q a ∧ Concat Qs b

section Shapes

variable {P : Pair R → Prop} {Qs : List (List (Pair R) → Prop)} {as : List (Pair R)}

theorem concat_silent : Concat (Silent :: Qs) as ↔ Concat Qs as := by
  constructor
  · rintro ⟨a, b, rfl, rfl, rest⟩
    exact rest
  · exact fun rest => ⟨[], as, rfl, rfl, rest⟩

theorem concat_one :
    Concat (One P :: Qs) as ↔ ∃ pair rest, as = pair :: rest ∧ P pair ∧ Concat Qs rest := by
  constructor
  · rintro ⟨a, b, rfl, ⟨pair, rfl, holds⟩, rest⟩
    exact ⟨pair, b, rfl, holds, rest⟩
  · rintro ⟨pair, b, rfl, holds, rest⟩
    exact ⟨[pair], b, rfl, ⟨pair, rfl, holds⟩, rest⟩

theorem concat_many :
    Concat (Many P :: Qs) as ↔
      ∃ pairs rest, as = pairs ++ rest ∧ (∀ pair ∈ pairs, P pair) ∧ Concat Qs rest := Iff.rfl

theorem concat_maybe :
    Concat (Maybe P :: Qs) as ↔
      Concat Qs as ∨ ∃ pair rest, as = pair :: rest ∧ P pair ∧ Concat Qs rest := by
  rw [← concat_one]
  constructor
  · rintro ⟨a, b, rfl, rfl | one, rest⟩
    · exact .inl rest
    · exact .inr ⟨a, b, rfl, one, rest⟩
  · rintro (rest | ⟨a, b, rfl, one, rest⟩)
    · exact ⟨[], as, rfl, .inl rfl, rest⟩
    · exact ⟨a, b, rfl, .inr one, rest⟩

theorem concat_nil : Concat (α := Pair R) [] as ↔ as = [] := Iff.rfl

end Shapes

section Found

variable {p q : Parser R} {s rest : List Char} {as : List (Pair R)}

theorem seq_found (found : seq p q s = some (as, rest)) :
    ∃ a mid b, p s = some (a, mid) ∧ q mid = some (b, rest) ∧ as = a ++ b := by
  unfold seq at found
  cases left : p s with
  | none => simp [left] at found
  | some match₁ =>
    obtain ⟨a, mid⟩ := match₁
    cases right : q mid with
    | none => simp [left, right] at found
    | some match₂ =>
      obtain ⟨b, final⟩ := match₂
      simp only [left, right, Option.some.injEq, Prod.mk.injEq] at found
      obtain ⟨rfl, rfl⟩ := found
      exact ⟨a, mid, b, rfl, right, rfl⟩

theorem choice_found {ps : List (Parser R)} (found : choice ps s = some (as, rest)) :
    ∃ p ∈ ps, p s = some (as, rest) := by
  induction ps with
  | nil => cases found
  | cons p ps ih =>
    cases first : p s with
    | none =>
      rw [choice_next _ first] at found
      obtain ⟨q, member, taken⟩ := ih found
      exact ⟨q, List.mem_cons_of_mem p member, taken⟩
    | some taken =>
      obtain ⟨a, mid⟩ := taken
      rw [choice_here _ first] at found
      cases found
      exact ⟨p, List.mem_cons_self, first⟩

theorem many_found {bound : Nat} (found : many p (bound + 1) s = some (as, rest)) :
    (as = [] ∧ rest = s) ∨
      ∃ a mid b, p s = some (a, mid) ∧ many p bound mid = some (b, rest) ∧ as = a ++ b := by
  unfold many at found
  cases first : p s with
  | none =>
    simp only [first, Option.some.injEq, Prod.mk.injEq] at found
    exact .inl ⟨found.1.symm, found.2.symm⟩
  | some round =>
    obtain ⟨a, mid⟩ := round
    simp only [first] at found
    split at found
    · cases later : many p bound mid with
      | none => simp [later] at found
      | some others =>
        obtain ⟨b, final⟩ := others
        simp only [later, Option.some.injEq, Prod.mk.injEq] at found
        obtain ⟨rfl, rfl⟩ := found
        exact .inr ⟨a, mid, b, rfl, later, rfl⟩
    · simp only [Option.some.injEq, Prod.mk.injEq] at found
      exact .inl ⟨found.1.symm, found.2.symm⟩

theorem rule_found {r : R} (found : rule r p s = some (as, rest)) :
    ∃ inner, p s = some (inner, rest) ∧
      as = [.mk r (s.take (s.length - rest.length)) inner] := by
  unfold rule at found
  cases inside : p s with
  | none => simp [inside] at found
  | some taken =>
    obtain ⟨inner, final⟩ := taken
    simp only [inside, Option.some.injEq, Prod.mk.injEq] at found
    obtain ⟨rfl, rfl⟩ := found
    exact ⟨inner, rfl, rfl⟩

theorem atomic_found {r : R} (found : atomic r p s = some (as, rest)) :
    ∃ inner, p s = some (inner, rest) ∧ as = [.mk r (s.take (s.length - rest.length)) []] := by
  unfold atomic at found
  cases inside : p s with
  | none => simp [inside] at found
  | some taken =>
    obtain ⟨inner, final⟩ := taken
    simp only [inside, Option.some.injEq, Prod.mk.injEq] at found
    obtain ⟨rfl, rfl⟩ := found
    exact ⟨inner, rfl, rfl⟩

end Found

namespace Consumes

variable {p q : Parser R} {T T' : List Char → Prop}

theorem imp (consumes : Consumes p T) (more : ∀ text, T text → T' text) : Consumes p T' := by
  intro s as rest found
  obtain ⟨text, taken, holds⟩ := consumes s as rest found
  exact ⟨text, taken, more text holds⟩

theorem lit (text : String) : Consumes (R := R) (lit text) (fun taken => taken = text.toList) := by
  intro s as rest found
  unfold Peg.lit at found
  split at found
  · rename_i starts
    obtain ⟨later, rfl⟩ := List.isPrefixOf_iff_prefix.mp starts
    simp only [Option.some.injEq, Prod.mk.injEq, List.drop_left] at found
    exact ⟨text.toList, by rw [found.2], rfl⟩
  · cases found

theorem charIf (chosen : Char → Bool) :
    Consumes (R := R) (charIf chosen) (fun text => ∃ c, text = [c] ∧ chosen c = true) := by
  intro s as rest found
  cases s with
  | nil => cases found
  | cons c s =>
    by_cases holds : chosen c = true
    · simp only [Peg.charIf, if_pos holds, Option.some.injEq, Prod.mk.injEq] at found
      exact ⟨[c], by rw [found.2]; rfl, c, rfl, holds⟩
    · simp [Peg.charIf, holds] at found

theorem nothing : Consumes (R := R) nothing (fun text => text = []) := by
  intro s as rest found
  cases found
  exact ⟨[], rfl, rfl⟩

theorem seq (first : Consumes p T) (second : Consumes q T') :
    Consumes (seq p q) (fun text => ∃ a b, text = a ++ b ∧ T a ∧ T' b) := by
  intro s as rest found
  obtain ⟨a, mid, b, left, right, -⟩ := seq_found found
  obtain ⟨text, rfl, holds⟩ := first s a mid left
  obtain ⟨text', rfl, holds'⟩ := second mid b rest right
  exact ⟨text ++ text', (List.append_assoc ..).symm, text, text', rfl, holds, holds'⟩

theorem choice {ps : List (Parser R)} (all : ∀ p ∈ ps, Consumes p T) : Consumes (choice ps) T := by
  intro s as rest found
  obtain ⟨p, member, taken⟩ := choice_found found
  exact all p member s as rest taken

theorem keywords (texts : List String) :
    Consumes (R := R) (Peg.choice (texts.map Peg.lit)) (fun text => ∃ t ∈ texts, text = t.toList) := by
  refine choice fun q member => ?_
  obtain ⟨t, inside, rfl⟩ := List.mem_map.mp member
  exact (Consumes.lit t).imp fun text same => ⟨t, inside, same⟩

theorem optional (consumes : Consumes p T) :
    Consumes (optional p) (fun text => text = [] ∨ T text) := by
  refine choice fun q member => ?_
  simp only [List.mem_cons, List.not_mem_nil, or_false] at member
  rcases member with rfl | rfl
  · exact consumes.imp fun text => .inr
  · exact Consumes.nothing.imp fun text => .inl

theorem sequence {ps : List (Parser R)} {Ts : List (List Char → Prop)}
    (all : List.Forall₂ Consumes ps Ts) : Consumes (sequence id ps) (Concat Ts) := by
  induction all with
  | nil => exact Consumes.nothing
  | @cons p T ps Ts first rest ih =>
    cases rest with
    | nil => exact first.imp fun text holds => ⟨text, [], (List.append_nil text).symm, holds, rfl⟩
    | cons second rest => exact first.seq ih

theorem star {chosen : Char → Prop} (consumes : Consumes p (fun text => ∀ c ∈ text, chosen c)) :
    Consumes (star p) (fun text => ∀ c ∈ text, chosen c) := by
  have loop : ∀ bound, Consumes (many p bound) (fun text => ∀ c ∈ text, chosen c) := by
    intro bound
    induction bound with
    | zero =>
      exact Consumes.nothing.imp fun text silent c member => by
        rw [silent] at member
        cases member
    | succ bound ih =>
      intro s as rest found
      rcases many_found found with ⟨-, rfl⟩ | ⟨a, mid, b, first, later, -⟩
      · exact ⟨[], rfl, List.forall_mem_nil _⟩
      · obtain ⟨text, rfl, holds⟩ := consumes s a mid first
        obtain ⟨text', rfl, holds'⟩ := ih mid b rest later
        exact ⟨text ++ text', (List.append_assoc ..).symm,
          List.forall_mem_append.mpr ⟨holds, holds'⟩⟩
  exact fun s => loop s.length s

end Consumes

namespace Produces

variable {p q : Parser R} {P : Pair R → Prop} {Q Q' : List (Pair R) → Prop}

theorem imp (produces : Produces p Q) (more : ∀ as, Q as → Q' as) : Produces p Q' :=
  fun s as rest found => more as (produces s as rest found)

theorem lit (text : String) : Produces (R := R) (lit text) Silent := by
  intro s as rest found
  unfold Peg.lit at found
  split at found
  · cases found
    rfl
  · cases found

theorem nothing : Produces (R := R) nothing Silent := by
  intro s as rest found
  cases found
  rfl

theorem seq (first : Produces p Q) (second : Produces q Q') :
    Produces (seq p q) (fun as => ∃ a b, as = a ++ b ∧ Q a ∧ Q' b) := by
  intro s as rest found
  obtain ⟨a, mid, b, left, right, rfl⟩ := seq_found found
  exact ⟨a, b, rfl, first s a mid left, second mid b rest right⟩

theorem choice {ps : List (Parser R)} (all : ∀ p ∈ ps, Produces p Q) :
    Produces (choice ps) Q := by
  intro s as rest found
  obtain ⟨p, member, taken⟩ := choice_found found
  exact all p member s as rest taken

theorem optional (produces : Produces p Q) : Produces (optional p) (fun as => as = [] ∨ Q as) := by
  refine choice fun q member => ?_
  simp only [List.mem_cons, List.not_mem_nil, or_false] at member
  rcases member with rfl | rfl
  · exact produces.imp fun as => .inr
  · exact Produces.nothing.imp fun as => .inl

theorem maybe (produces : Produces p (One P)) : Produces (Peg.optional p) (Maybe P) :=
  produces.optional

theorem after (skip : List Char → List Char) (produces : Produces p Q) :
    Produces (after skip p) Q :=
  fun s => produces (skip s)

theorem sequence (skip : List Char → List Char) {ps : List (Parser R)}
    {Qs : List (List (Pair R) → Prop)} (all : List.Forall₂ Produces ps Qs) :
    Produces (sequence skip ps) (Concat Qs) := by
  induction all with
  | nil => exact Produces.nothing
  | @cons p Q ps Qs first rest ih =>
    cases rest with
    | nil => exact first.imp fun as holds => ⟨as, [], (List.append_nil as).symm, holds, rfl⟩
    | cons second rest => exact first.seq (ih.after skip)

theorem star (produces : Produces p (Many P)) : Produces (star p) (Many P) := by
  have loop : ∀ bound, Produces (many p bound) (Many P) := by
    intro bound
    induction bound with
    | zero =>
      exact Produces.nothing.imp fun as silent pair member => by
        rw [show as = [] from silent] at member
        cases member
    | succ bound ih =>
      intro s as rest found
      rcases many_found found with ⟨rfl, -⟩ | ⟨a, mid, b, first, later, rfl⟩
      · exact List.forall_mem_nil _
      · exact List.forall_mem_append.mpr ⟨produces s a mid first, ih mid b rest later⟩
  exact fun s => loop s.length s

theorem repeated (skip : List Char → List Char) (produces : Produces p (Many P)) :
    Produces (repeated skip p) (Many P) := by
  refine (produces.seq (produces.after skip).star).optional.imp fun as holds => ?_
  rcases holds with rfl | ⟨a, b, rfl, first, rest⟩
  · exact List.forall_mem_nil _
  · exact List.forall_mem_append.mpr ⟨first, rest⟩

theorem many_of_one (produces : Produces p (One P)) : Produces p (Many P) := by
  refine produces.imp fun as one => ?_
  obtain ⟨pair, rfl, holds⟩ := one
  exact List.forall_mem_singleton.mpr holds

theorem rule {r : R} (produces : Produces p Q)
    (holds : ∀ text inner, Q inner → P (.mk r text inner)) :
    Produces (rule r p) (One P) := by
  intro s as rest found
  obtain ⟨inner, inside, rfl⟩ := rule_found found
  exact ⟨_, rfl, holds _ inner (produces s inner rest inside)⟩

theorem text_of_consumes {T : List Char → Prop} (consumes : Consumes p T) {s rest : List Char}
    {as : List (Pair R)} (found : p s = some (as, rest)) : T (s.take (s.length - rest.length)) := by
  obtain ⟨text, rfl, fits⟩ := consumes s as rest found
  simpa using fits

theorem keywords {r : R} (texts : List String) (holds : ∀ t ∈ texts, P (.mk r t.toList [])) :
    Produces (Peg.rule r (Peg.choice (texts.map Peg.lit))) (One P) := by
  have silent : Produces (Peg.choice (texts.map Peg.lit)) (Silent (R := R)) := by
    refine choice fun q member => ?_
    obtain ⟨t, -, rfl⟩ := List.mem_map.mp member
    exact Produces.lit t
  intro s as rest found
  obtain ⟨inner, inside, rfl⟩ := rule_found found
  obtain ⟨t, member, text⟩ := text_of_consumes (Consumes.keywords texts) inside
  obtain rfl : inner = [] := silent s inner rest inside
  rw [text]
  exact ⟨_, rfl, holds t member⟩

theorem atomic {r : R} {p : Parser R} (holds : ∀ text, P (.mk r text [])) :
    Produces (atomic r p) (One P) := by
  intro s as rest found
  obtain ⟨_, _, rfl⟩ := atomic_found found
  exact ⟨_, rfl, holds _⟩

theorem atomic_text {r : R} {T : List Char → Prop} (consumes : Consumes p T)
    (holds : ∀ text, T text → P (.mk r text [])) : Produces (Peg.atomic r p) (One P) := by
  intro s as rest found
  obtain ⟨_, inside, rfl⟩ := atomic_found found
  exact ⟨_, rfl, holds _ (text_of_consumes consumes inside)⟩

end Produces

end Peg
