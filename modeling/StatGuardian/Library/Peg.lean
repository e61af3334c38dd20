import Mathlib.Data.List.Basic

/-! Parsing expressions over characters: ordered choice, greedy repetition, and sequences that
skip between their parts. -/

namespace Peg

/-- A matched rule, the text it matched and the rules matched inside. -/
inductive Pair (R : Type) where
  | mk (rule : R) (text : List Char) (inner : List (Pair R))

namespace Pair

variable {R : Type}

def rule : Pair R → R
  | mk rule _ _ => rule

def text : Pair R → List Char
  | mk _ text _ => text

def inner : Pair R → List (Pair R)
  | mk _ _ inner => inner

end Pair

abbrev Parser (R : Type) := List Char → Option (List (Pair R) × List Char)

variable {R : Type}

def lit (text : String) : Parser R := fun s =>
  if text.toList.isPrefixOf s then some ([], s.drop text.toList.length) else none

def charIf (p : Char → Bool) : Parser R
  | c :: s => if p c then some ([], s) else none
  | [] => none

def nothing : Parser R := fun s => some ([], s)

def seq (p q : Parser R) : Parser R := fun s =>
  match p s with
  | none => none
  | some (as, s) =>
    match q s with
    | none => none
    | some (bs, s) => some (as ++ bs, s)

def choice : List (Parser R) → Parser R
  | [] => fun _ => none
  | p :: ps => fun s =>
    match p s with
    | some found => some found
    | none => choice ps s

def optional (p : Parser R) : Parser R := choice [p, nothing]

def notFollowedBy (p : Parser R) : Parser R := fun s =>
  match p s with
  | some _ => none
  | none => some ([], s)

def many (p : Parser R) : Nat → Parser R
  | 0 => nothing
  | bound + 1 => fun s =>
    match p s with
    | none => some ([], s)
    | some (as, rest) =>
      if rest.length < s.length then
        match many p bound rest with
        | none => none
        | some (bs, rest) => some (as ++ bs, rest)
      else some ([], s)

/-- Greedy repetition without skipping. A round that matches nothing ends it; pest refuses a
    grammar that has such a round. -/
def star (p : Parser R) : Parser R := fun s => many p s.length s

section Skipping

variable (skip : List Char → List Char)

def after (p : Parser R) : Parser R := fun s => p (skip s)

/-- `p ~ q ~ ..`, with a skip between any two parts. -/
def sequence : List (Parser R) → Parser R
  | [] => nothing
  | [p] => p
  | p :: ps => seq p (after skip (sequence ps))

/-- `p*`, with a skip between any two rounds. -/
def repeated (p : Parser R) : Parser R := optional (seq p (star (after skip p)))

end Skipping

def rule (r : R) (p : Parser R) : Parser R := fun s =>
  match p s with
  | none => none
  | some (inner, rest) => some ([.mk r (s.take (s.length - rest.length)) inner], rest)

/-- The match of an atomic rule becomes one pair without inner pairs. -/
def atomic (r : R) (p : Parser R) : Parser R := fun s =>
  match p s with
  | none => none
  | some (_, rest) => some ([.mk r (s.take (s.length - rest.length)) []], rest)

section Literals

theorem lit_append (text : String) (rest : List Char) :
    lit (R := R) text (text.toList ++ rest) = some ([], rest) := by
  have starts : text.toList.isPrefixOf (text.toList ++ rest) = true := by
    rw [List.isPrefixOf_iff_prefix]
    exact List.prefix_append _ _
  simp [lit, starts]

theorem lit_none_iff (text : String) (s : List Char) :
    lit (R := R) text s = none ↔ ¬ text.toList <+: s := by
  unfold lit
  rw [← List.isPrefixOf_iff_prefix]
  split <;> simp_all

end Literals

section Sequencing

variable {p q : Parser R} {s s' rest : List Char} {as bs : List (Pair R)}

theorem seq_some (first : p s = some (as, s')) (second : q s' = some (bs, rest)) :
    seq p q s = some (as ++ bs, rest) := by
  simp [seq, first, second]

theorem seq_none_left (first : p s = none) : seq p q s = none := by
  simp [seq, first]

theorem seq_none_right (first : p s = some (as, s')) (second : q s' = none) :
    seq p q s = none := by
  simp [seq, first, second]

theorem choice_here (ps : List (Parser R)) (found : p s = some (as, rest)) :
    choice (p :: ps) s = some (as, rest) := by
  simp [choice, found]

theorem choice_next (ps : List (Parser R)) (refused : p s = none) :
    choice (p :: ps) s = choice ps s := by
  simp [choice, refused]

theorem choice_none {ps : List (Parser R)} (refused : ∀ p ∈ ps, p s = none) :
    choice ps s = none := by
  induction ps with
  | nil => rfl
  | cons p ps ih =>
    rw [choice_next ps (refused p List.mem_cons_self)]
    exact ih (fun q inside => refused q (List.mem_cons_of_mem _ inside))

theorem optional_some (found : p s = some (as, rest)) : optional p s = some (as, rest) :=
  choice_here _ found

theorem optional_none (refused : p s = none) : optional p s = some ([], s) := by
  rw [optional, choice_next _ refused]
  rfl

theorem rule_reads (r : R) (found : p s = some (as, rest)) :
    ∃ text, rule r p s = some ([.mk r text as], rest) := by
  simp [rule, found]

theorem rule_some (r : R) (text : List Char) (found : p (text ++ rest) = some (as, rest)) :
    rule r p (text ++ rest) = some ([.mk r text as], rest) := by
  simp [rule, found]

theorem rule_none (r : R) (refused : p s = none) : rule r p s = none := by
  simp [rule, refused]

theorem atomic_some (r : R) (text : List Char) (found : p (text ++ rest) = some (as, rest)) :
    atomic r p (text ++ rest) = some ([.mk r text []], rest) := by
  simp [atomic, found]

theorem atomic_none (r : R) (refused : p s = none) : atomic r p s = none := by
  simp [atomic, refused]

variable {skip : List Char → List Char} {ps : List (Parser R)}

theorem sequence_cons (more : ps ≠ []) (first : p s = some (as, s'))
    (second : sequence skip ps (skip s') = some (bs, rest)) :
    sequence skip (p :: ps) s = some (as ++ bs, rest) := by
  cases ps with
  | nil => exact absurd rfl more
  | cons q ps => exact seq_some first second

theorem sequence_none (refused : p s = none) : sequence skip (p :: ps) s = none := by
  cases ps with
  | nil => exact refused
  | cons q ps => exact seq_none_left refused

theorem sequence_none_right (more : ps ≠ []) (first : p s = some (as, s'))
    (second : sequence skip ps (skip s') = none) : sequence skip (p :: ps) s = none := by
  cases ps with
  | nil => exact absurd rfl more
  | cons q ps => exact seq_none_right first second

end Sequencing

section Repetition

variable {p : Parser R} {s s' rest : List Char} {as bs : List (Pair R)}

theorem many_bound (p : Parser R) (m n : Nat) (s : List Char) (left : s.length ≤ m)
    (right : s.length ≤ n) : many p m s = many p n s := by
  induction m generalizing n s with
  | zero =>
    obtain rfl : s = [] := List.length_eq_zero_iff.mp (by omega)
    cases n with
    | zero => rfl
    | succ n =>
      simp only [many, nothing]
      cases p [] with
      | none => rfl
      | some found => simp
  | succ m ih =>
    cases n with
    | zero =>
      obtain rfl : s = [] := List.length_eq_zero_iff.mp (by omega)
      simp only [many, nothing]
      cases p [] with
      | none => rfl
      | some found => simp
    | succ n =>
      simp only [many]
      cases p s with
      | none => rfl
      | some found =>
        obtain ⟨as, rest⟩ := found
        simp only
        split
        case isTrue shorter => rw [ih n rest (by omega) (by omega)]
        case isFalse => rfl

theorem star_some (first : p s = some (as, s')) (shorter : s'.length < s.length)
    (more : star p s' = some (bs, rest)) : star p s = some (as ++ bs, rest) := by
  unfold star at more ⊢
  obtain ⟨bound, size⟩ : ∃ bound, s.length = bound + 1 := ⟨s.length - 1, by omega⟩
  rw [size]
  simp only [many, first, shorter, ↓reduceIte]
  rw [many_bound p bound s'.length s' (by omega) (Nat.le_refl _), more]

theorem star_stop (refused : p s = none) : star p s = some ([], s) := by
  unfold star
  cases s.length with
  | zero => rfl
  | succ bound => simp [many, refused]

theorem many_total (p : Parser R) (bound : Nat) (s : List Char) :
    ∃ as rest, many p bound s = some (as, rest) := by
  induction bound generalizing s with
  | zero => exact ⟨[], s, rfl⟩
  | succ bound ih =>
    simp only [many]
    cases p s with
    | none => exact ⟨[], s, rfl⟩
    | some found =>
      obtain ⟨as, rest⟩ := found
      obtain ⟨bs, final, more⟩ := ih rest
      simp only [more]
      split
      · exact ⟨_, _, rfl⟩
      · exact ⟨_, _, rfl⟩

theorem star_total (p : Parser R) (s : List Char) : ∃ as rest, star p s = some (as, rest) :=
  many_total p s.length s

theorem star_charIf (chosen : Char → Bool) (text rest : List Char)
    (all : ∀ c ∈ text, chosen c = true) (stop : ∀ c, rest.head? = some c → chosen c = false) :
    star (R := R) (charIf chosen) (text ++ rest) = some ([], rest) := by
  induction text with
  | nil =>
    refine star_stop ?_
    cases rest with
    | nil => rfl
    | cons c rest => simp [charIf, stop c rfl]
  | cons c text ih =>
    have first : charIf (R := R) chosen (c :: (text ++ rest)) = some ([], text ++ rest) := by
      simp [charIf, all c List.mem_cons_self]
    exact star_some first (by simp) (ih (fun d inside => all d (List.mem_cons_of_mem _ inside)))

variable (skip : List Char → List Char)

theorem repeated_some (first : p s = some (as, s'))
    (more : star (after skip p) s' = some (bs, rest)) :
    repeated skip p s = some (as ++ bs, rest) :=
  optional_some (seq_some first more)

/-- One skip before the repetition, as inside a sequence: what is left may differ by the skip. -/
theorem repeated_of_star (again : skip (skip s) = skip s)
    (shorter : ∀ as s', p (skip s) = some (as, s') → s'.length < s.length)
    (all : star (after skip p) s = some (bs, rest)) :
    ∃ rest', repeated skip p (skip s) = some (bs, rest') ∧ skip rest' = skip rest := by
  cases first : p (skip s) with
  | none =>
    have stop := star_stop (p := after skip p) (s := s) first
    rw [all] at stop
    simp only [Option.some.injEq, Prod.mk.injEq] at stop
    obtain ⟨rfl, rfl⟩ := stop
    exact ⟨skip rest, optional_none (seq_none_left first), again⟩
  | some found =>
    obtain ⟨as, s'⟩ := found
    obtain ⟨more, final, loop⟩ := star_total (after skip p) s'
    have both := star_some (p := after skip p) (s := s) first (shorter as s' first) loop
    rw [all] at both
    simp only [Option.some.injEq, Prod.mk.injEq] at both
    obtain ⟨rfl, rfl⟩ := both
    exact ⟨rest, repeated_some skip first loop, rfl⟩

theorem follows_items {α : Type} {item : α → List Char} {follows : List Char → Prop}
    (inside : ∀ a s, follows (item a ++ s)) (items : List α) {tail : List Char}
    (outside : follows tail) : follows (items.flatMap item ++ tail) := by
  cases items with
  | nil => exact outside
  | cons a items =>
    rw [List.flatMap_cons, List.append_assoc]
    exact inside a _

theorem star_items {α : Type} (item : α → List Char) (pairs : α → List (Pair R))
    (follows : List Char → Prop) (items : List α) (tail : List Char)
    (some : ∀ a, item a ≠ []) (inside : ∀ a s, follows (item a ++ s)) (outside : follows tail)
    (reads : ∀ a s, follows s → p (item a ++ s) = .some (pairs a, s))
    (stop : star p tail = .some (bs, rest)) :
    star p (items.flatMap item ++ tail) = .some (items.flatMap pairs ++ bs, rest) := by
  induction items with
  | nil => exact stop
  | cons a items ih =>
    have next := follows_items inside items outside
    have positive := List.length_pos_iff.mpr (some a)
    rw [List.flatMap_cons, List.append_assoc, List.flatMap_cons, List.append_assoc]
    exact star_some (reads a _ next) (by simp only [List.length_append]; omega) ih

theorem repeated_items {α : Type} (item : α → List Char) (pairs : α → List (Pair R))
    (follows : List Char → Prop) (items : List α) (tail : List Char)
    (some : ∀ a, item a ≠ []) (inside : ∀ a s, follows (item a ++ s)) (outside : follows tail)
    (solid : ∀ a s, skip (item a ++ s) = item a ++ s)
    (reads : ∀ a s, follows s → p (item a ++ s) = .some (pairs a, s))
    (again : skip (skip tail) = skip tail)
    (shorter : ∀ as s', p (skip tail) = .some (as, s') → s'.length < tail.length)
    (stop : star (after skip p) tail = .some (bs, rest)) :
    ∃ rest', repeated skip p (skip (items.flatMap item ++ tail))
      = .some (items.flatMap pairs ++ bs, rest') ∧ skip rest' = skip rest := by
  have skipped : ∀ a s, follows s → after skip p (item a ++ s) = .some (pairs a, s) := by
    intro a s next
    rw [after, solid]
    exact reads a s next
  refine repeated_of_star skip ?_ ?_
    (star_items item pairs follows items tail some inside outside skipped stop)
  · cases items with
    | nil => exact again
    | cons a items => rw [List.flatMap_cons, List.append_assoc, solid, solid]
  · cases items with
    | nil => exact shorter
    | cons a items =>
      intro as s' first
      have next := follows_items inside items outside
      rw [List.flatMap_cons, List.append_assoc, solid, reads a _ next] at first
      obtain ⟨-, rfl⟩ : _ ∧ items.flatMap item ++ tail = s' := by simpa using first
      have positive := List.length_pos_iff.mpr (some a)
      simp only [List.flatMap_cons, List.length_append]
      omega

theorem repeated_stop (refused : p s = none) : repeated skip p s = some ([], s) :=
  optional_none (seq_none_left refused)

end Repetition

section Keywords

variable {s rest : List Char} {as : List (Pair R)}

theorem lit_none_of_keyword {first second : String} (starts : first.toList <+: s)
    (distinct : ¬ first.toList <+: second.toList ∧ ¬ second.toList <+: first.toList) :
    lit (R := R) second s = none := by
  rw [lit_none_iff]
  intro also
  rcases List.prefix_or_prefix_of_prefix starts also with shorter | shorter
  · exact distinct.1 shorter
  · exact distinct.2 shorter

/-- Of alternatives that each start with a keyword of their own, none of them the start of
    another, the one whose keyword is there is taken. -/
theorem choice_keyed {alternatives : List (String × Parser R)}
    (keyed : ∀ a ∈ alternatives, ∀ s, lit (R := R) a.1 s = none → a.2 s = none)
    (distinct : alternatives.Pairwise (fun a b =>
      ¬ a.1.toList <+: b.1.toList ∧ ¬ b.1.toList <+: a.1.toList))
    {keyword : String} {p : Parser R} (member : (keyword, p) ∈ alternatives)
    (starts : keyword.toList <+: s) (found : p s = some (as, rest)) :
    choice (alternatives.map Prod.snd) s = some (as, rest) := by
  induction alternatives with
  | nil => cases member
  | cons head alternatives ih =>
    rw [List.pairwise_cons] at distinct
    rcases List.mem_cons.mp member with rfl | inside
    · exact choice_here _ found
    · have different := distinct.1 (keyword, p) inside
      rw [List.map_cons, choice_next]
      · exact ih (fun a later => keyed a (List.mem_cons_of_mem _ later)) distinct.2 inside
      · exact keyed head List.mem_cons_self s
          (lit_none_of_keyword starts ⟨different.2, different.1⟩)

theorem choice_keyed_none {alternatives : List (String × Parser R)}
    (keyed : ∀ a ∈ alternatives, ∀ s, lit (R := R) a.1 s = none → a.2 s = none)
    (absent : ∀ a ∈ alternatives, ¬ a.1.toList <+: s) :
    choice (alternatives.map Prod.snd) s = none := by
  refine choice_none (fun p member => ?_)
  obtain ⟨a, inside, rfl⟩ := List.mem_map.mp member
  exact keyed a inside s ((lit_none_iff _ _).mpr (absent a inside))

end Keywords

end Peg
