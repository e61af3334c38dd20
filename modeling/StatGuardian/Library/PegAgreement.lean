import Mathlib.Data.List.Forall2
import StatGuardian.Library.PegOutput

/-! Two runs of a parsing expression on related inputs. -/

namespace Peg

variable {R : Type}

abbrev InputRel := List Char → List Char → Prop

abbrev PairsRel (R : Type) := List (Pair R) → List (Pair R) → Prop

/-- Both runs refuse, or both take at least `n` characters off, make related pairs and leave related
    inputs behind. -/
def Agrees (n : Nat) (ρ σ : InputRel) (Q : PairsRel R) (p : Parser R) : Prop :=
  ∀ s s', ρ s s' → (p s = none ∧ p s' = none) ∨
    ∃ as as' rest rest', p s = some (as, rest) ∧ p s' = some (as', rest') ∧ Q as as' ∧ σ rest rest' ∧
      rest.length + n ≤ s.length ∧ rest'.length + n ≤ s'.length

/-- Both runs refuse, or both take the same text off and make the same pairs of it. -/
def Step (σ : InputRel) (p : Parser R) (s s' : List Char) : Prop :=
  (p s = none ∧ p s' = none) ∨
    ∃ as text rest rest', text ≠ [] ∧ s = text ++ rest ∧ s' = text ++ rest' ∧
      p s = some (as, rest) ∧ p s' = some (as, rest') ∧ σ rest rest'

def Lockstep (ρ σ : InputRel) (p : Parser R) : Prop := ∀ s s', ρ s s' → Step σ p s s'

section Shapes

/-- Stretches that are related one after the other. -/
def Join (Q Q' : PairsRel R) : PairsRel R := fun as as' =>
  ∃ a b a' b', as = a ++ b ∧ as' = a' ++ b' ∧ Q a a' ∧ Q' b b'

def Silent₂ : PairsRel R := fun as as' => as = [] ∧ as' = []

def One₂ (P : Pair R → Pair R → Prop) : PairsRel R := fun as as' =>
  ∃ a a', as = [a] ∧ as' = [a'] ∧ P a a'

def Maybe₂ (P : Pair R → Pair R → Prop) : PairsRel R := fun as as' =>
  Silent₂ as as' ∨ One₂ P as as'

/-- One pair twice, with the property. -/
def Equal₂ (P : Pair R → Prop) : Pair R → Pair R → Prop := fun a a' => a = a' ∧ P a

variable {P : Pair R → Pair R → Prop} {Q : PairsRel R} {as as' : List (Pair R)}

theorem join_silent : Join Silent₂ Q as as' ↔ Q as as' := by
  constructor
  · rintro ⟨_, b, _, b', rfl, rfl, ⟨rfl, rfl⟩, rest⟩
    exact rest
  · exact fun rest => ⟨[], as, [], as', rfl, rfl, ⟨rfl, rfl⟩, rest⟩

theorem join_one : Join (One₂ P) Q as as' ↔
    ∃ a b a' b', as = a :: b ∧ as' = a' :: b' ∧ P a a' ∧ Q b b' := by
  constructor
  · rintro ⟨_, b, _, b', rfl, rfl, ⟨a, a', rfl, rfl, holds⟩, rest⟩
    exact ⟨a, b, a', b', rfl, rfl, holds, rest⟩
  · rintro ⟨a, b, a', b', rfl, rfl, holds, rest⟩
    exact ⟨[a], b, [a'], b', rfl, rfl, ⟨a, a', rfl, rfl, holds⟩, rest⟩

theorem join_silent_right : Join Q Silent₂ as as' ↔ Q as as' := by
  constructor
  · rintro ⟨a, _, a', _, rfl, rfl, first, rfl, rfl⟩
    rwa [List.append_nil, List.append_nil]
  · exact fun first => ⟨as, [], as', [], (List.append_nil as).symm, (List.append_nil as').symm, first, rfl, rfl⟩

theorem all_equal {P : Pair R → Prop} (equal : List.Forall₂ (Equal₂ P) as as') : as = as' := by
  induction equal with
  | nil => rfl
  | cons head _ ih => rw [head.1, ih]

end Shapes

namespace Lockstep

variable {ρ ρ' σ σ' : InputRel} {p : Parser R}

theorem imp (steps : Lockstep ρ σ p) (less : ∀ s s', ρ' s s' → ρ s s')
    (more : ∀ s s', σ s s' → σ' s s') : Lockstep ρ' σ' p := by
  intro s s' related
  rcases steps s s' (less s s' related) with refused | ⟨as, text, rest, rest', some_, same, same', found,
    found', left⟩
  · exact .inl refused
  · exact .inr ⟨as, text, rest, rest', some_, same, same', found, found', more _ _ left⟩

theorem choice {ps : List (Parser R)} (all : ∀ p ∈ ps, Lockstep ρ σ p) : Lockstep ρ σ (choice ps) := by
  intro s s' related
  induction ps with
  | nil => exact .inl ⟨rfl, rfl⟩
  | cons p ps ih =>
    rcases all p List.mem_cons_self s s' related with ⟨refused, refused'⟩ | ⟨as, text, rest, rest', some_,
      same, same', found, found', left⟩
    · rw [Step, choice_next _ refused, choice_next _ refused']
      exact ih fun q member => all q (List.mem_cons_of_mem p member)
    · exact .inr ⟨as, text, rest, rest', some_, same, same', choice_here _ found, choice_here _ found',
        left⟩

theorem rule (r : R) (steps : Lockstep ρ σ p) : Lockstep ρ σ (rule r p) := by
  intro s s' related
  rcases steps s s' related with ⟨refused, refused'⟩ | ⟨as, text, rest, rest', some_, rfl, rfl, found,
    found', left⟩
  · exact .inl ⟨rule_none r refused, rule_none r refused'⟩
  · exact .inr ⟨_, text, rest, rest', some_, rfl, rfl, rule_some r text found, rule_some r text found',
      left⟩

theorem atomic (r : R) (steps : Lockstep ρ σ p) : Lockstep ρ σ (atomic r p) := by
  intro s s' related
  rcases steps s s' related with ⟨refused, refused'⟩ | ⟨as, text, rest, rest', some_, rfl, rfl, found,
    found', left⟩
  · exact .inl ⟨atomic_none r refused, atomic_none r refused'⟩
  · exact .inr ⟨_, text, rest, rest', some_, rfl, rfl, atomic_some r text found,
      atomic_some r text found', left⟩

theorem agrees {Q : List (Pair R) → Prop} {Q' : PairsRel R} (steps : Lockstep ρ σ p)
    (produces : Produces p Q) (shape : ∀ as, Q as → Q' as as) : Agrees 1 ρ σ Q' p := by
  intro s s' related
  rcases steps s s' related with refused | ⟨as, text, rest, rest', some_, rfl, rfl, found, found', left⟩
  · exact .inl refused
  · have size := List.length_pos_iff.mpr some_
    refine .inr ⟨as, as, rest, rest', found, found', shape as (produces _ _ _ found), left, ?_, ?_⟩
    all_goals
      rw [List.length_append]
      omega

theorem silent (steps : Lockstep ρ σ p) (produces : Produces p Silent) : Agrees 1 ρ σ Silent₂ p :=
  steps.agrees produces fun _ silent => ⟨silent, silent⟩

theorem one {P : Pair R → Prop} (steps : Lockstep ρ σ p) (produces : Produces p (One P)) :
    Agrees 1 ρ σ (One₂ (Equal₂ P)) p :=
  steps.agrees produces fun _ ⟨pair, same, holds⟩ => ⟨pair, pair, same, same, rfl, holds⟩

end Lockstep

namespace Agrees

variable {n m : Nat} {ρ ρ' σ σ' τ : InputRel} {Q Q' : PairsRel R} {p q : Parser R}

theorem imp (agrees : Agrees n ρ σ Q p) (fewer : m ≤ n) (less : ∀ s s', ρ' s s' → ρ s s')
    (more : ∀ s s', σ s s' → σ' s s') (shape : ∀ as as', Q as as' → Q' as as') :
    Agrees m ρ' σ' Q' p := by
  intro s s' related
  rcases agrees s s' (less s s' related) with refused | ⟨as, as', rest, rest', found, found', pairs,
    left, size, size'⟩
  · exact .inl refused
  · exact .inr ⟨as, as', rest, rest', found, found', shape _ _ pairs, more _ _ left, by omega, by omega⟩

theorem pairs (agrees : Agrees n ρ σ Q p) (shape : ∀ as as', Q as as' → Q' as as') :
    Agrees n ρ σ Q' p :=
  agrees.imp (Nat.le_refl n) (fun _ _ => id) (fun _ _ => id) shape

theorem nothing : Agrees 0 ρ ρ Silent₂ (nothing : Parser R) :=
  fun s s' related => .inr ⟨[], [], s, s', rfl, rfl, ⟨rfl, rfl⟩, related, Nat.le_refl _, Nat.le_refl _⟩

theorem seq (first : Agrees n ρ σ Q p) (second : Agrees m σ τ Q' q) :
    Agrees (n + m) ρ τ (Join Q Q') (seq p q) := by
  intro s s' related
  rcases first s s' related with ⟨refused, refused'⟩ | ⟨as, as', mid, mid', found, found', pairs, left,
    size, size'⟩
  · exact .inl ⟨seq_none_left refused, seq_none_left refused'⟩
  rcases second mid mid' left with ⟨refused, refused'⟩ | ⟨bs, bs', rest, rest', more, more', pairs',
    left', shorter, shorter'⟩
  · exact .inl ⟨seq_none_right found refused, seq_none_right found' refused'⟩
  · exact .inr ⟨as ++ bs, as' ++ bs', rest, rest', seq_some found more, seq_some found' more',
      ⟨as, bs, as', bs', rfl, rfl, pairs, pairs'⟩, left', by omega, by omega⟩

theorem choice {ps : List (Parser R)} (all : ∀ p ∈ ps, Agrees n ρ σ Q p) :
    Agrees n ρ σ Q (choice ps) := by
  intro s s' related
  induction ps with
  | nil => exact .inl ⟨rfl, rfl⟩
  | cons p ps ih =>
    rcases all p List.mem_cons_self s s' related with ⟨refused, refused'⟩ | ⟨as, as', rest, rest', found,
      found', kept⟩
    · rw [choice_next _ refused, choice_next _ refused']
      exact ih fun q member => all q (List.mem_cons_of_mem p member)
    · exact .inr ⟨as, as', rest, rest', choice_here _ found, choice_here _ found', kept⟩

theorem optional {P : Pair R → Pair R → Prop} (agrees : Agrees n ρ σ (One₂ P) p)
    (stays : ∀ s s', ρ s s' → σ s s') : Agrees 0 ρ σ (Maybe₂ P) (optional p) := by
  refine choice fun q member => ?_
  simp only [List.mem_cons, List.not_mem_nil, or_false] at member
  rcases member with rfl | rfl
  · exact agrees.imp (Nat.zero_le n) (fun _ _ => id) (fun _ _ => id) fun _ _ => .inr
  · exact nothing.imp (Nat.le_refl 0) (fun _ _ => id) stays fun _ _ => .inl

theorem optional_silent (agrees : Agrees n ρ σ Silent₂ p) (stays : ∀ s s', ρ s s' → σ s s') :
    Agrees 0 ρ σ Silent₂ (Peg.optional p) := by
  refine choice fun q member => ?_
  simp only [List.mem_cons, List.not_mem_nil, or_false] at member
  rcases member with rfl | rfl
  · exact agrees.imp (Nat.zero_le n) (fun _ _ => id) (fun _ _ => id) fun _ _ => id
  · exact nothing.imp (Nat.le_refl 0) (fun _ _ => id) stays fun _ _ => id

theorem rule {P : Pair R → Pair R → Prop} (r : R) (agrees : Agrees n ρ σ Q p) (some_ : 1 ≤ n)
    (holds : ∀ text text' inner inner', Q inner inner' → P (.mk r text inner) (.mk r text' inner')) :
    Agrees 1 ρ σ (One₂ P) (rule r p) := by
  intro s s' related
  rcases agrees s s' related with ⟨refused, refused'⟩ | ⟨as, as', rest, rest', found, found', pairs, left,
    size, size'⟩
  · exact .inl ⟨rule_none r refused, rule_none r refused'⟩
  · obtain ⟨text, here⟩ := rule_reads r found
    obtain ⟨text', there⟩ := rule_reads r found'
    exact .inr ⟨_, _, rest, rest', here, there, ⟨_, _, rfl, rfl, holds _ _ _ _ pairs⟩, left, by omega,
      by omega⟩

section Skipping

variable {skip : List Char → List Char} (shrinks : ∀ s, (skip s).length ≤ s.length)

include shrinks

theorem after (crosses : ∀ s s', ρ' s s' → ρ (skip s) (skip s')) (agrees : Agrees n ρ σ Q p) :
    Agrees n ρ' σ Q (after skip p) := by
  intro s s' related
  have here := shrinks s
  have there := shrinks s'
  rcases agrees _ _ (crosses s s' related) with refused | ⟨as, as', rest, rest', found, found', pairs,
    left, size, size'⟩
  · exact .inl refused
  · exact .inr ⟨as, as', rest, rest', found, found', pairs, left, by omega, by omega⟩

theorem cons {ps : List (Parser R)} (first : Agrees n ρ σ Q p)
    (crosses : ∀ s s', σ s s' → σ' (skip s) (skip s'))
    (later : Agrees m σ' τ Q' (sequence skip (q :: ps))) :
    Agrees (n + m) ρ τ (Join Q Q') (sequence skip (p :: q :: ps)) :=
  first.seq (later.after shrinks crosses)

omit shrinks in
theorem last (agrees : Agrees n ρ σ Q p) : Agrees n ρ σ Q (sequence skip [p]) := agrees

omit shrinks in
theorem star {P : Pair R → Pair R → Prop} (agrees : Agrees n ρ ρ (List.Forall₂ P) p) (some_ : 0 < n) :
    Agrees 0 ρ ρ (List.Forall₂ P) (star p) := by
  intro s
  induction size : s.length using Nat.strongRecOn generalizing s with
  | _ length ih =>
    intro s' related
    rcases agrees s s' related with ⟨refused, refused'⟩ | ⟨as, as', mid, mid', found, found', pairs, left,
      shorter, shorter'⟩
    · exact .inr ⟨[], [], s, s', star_stop refused, star_stop refused', .nil, related, by omega,
        Nat.le_refl _⟩
    · obtain ⟨bs, rest, more⟩ := star_total p mid
      obtain ⟨bs', rest', more'⟩ := star_total p mid'
      rcases ih mid.length (by omega) mid rfl mid' left with ⟨refused, _⟩ | ⟨_, _, _, _, loop, loop',
        others, later, less, less'⟩
      · cases more.symm.trans refused
      · cases more.symm.trans loop
        cases more'.symm.trans loop'
        exact .inr ⟨_, _, _, _, star_some found (by omega) more, star_some found' (by omega) more',
          List.rel_append pairs others, later, by omega, by omega⟩

theorem repeated {P : Pair R → Pair R → Prop} (agrees : Agrees n ρ σ (List.Forall₂ P) p) (some_ : 0 < n)
    (crosses : ∀ s s', σ s s' → ρ (skip s) (skip s')) (stays : ∀ s s', ρ s s' → σ s s') :
    Agrees 0 ρ σ (List.Forall₂ P) (repeated skip p) := by
  have rounds := (agrees.after shrinks crosses).star some_
  refine choice fun q member => ?_
  simp only [List.mem_cons, List.not_mem_nil, or_false] at member
  rcases member with rfl | rfl
  · refine (agrees.seq rounds).imp (Nat.zero_le _) (fun _ _ => id) (fun _ _ => id) ?_
    rintro _ _ ⟨a, b, a', b', rfl, rfl, first, rest⟩
    exact List.rel_append first rest
  · refine nothing.imp (Nat.le_refl 0) (fun _ _ => id) stays ?_
    rintro _ _ ⟨rfl, rfl⟩
    exact .nil

end Skipping

theorem many_of_one {P : Pair R → Pair R → Prop} (agrees : Agrees n ρ σ (One₂ P) p) :
    Agrees n ρ σ (List.Forall₂ P) p := by
  refine agrees.pairs ?_
  rintro _ _ ⟨a, a', rfl, rfl, holds⟩
  exact .cons holds .nil

end Agrees

end Peg
