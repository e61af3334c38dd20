import Mathlib.Data.List.Basic

inductive Regex (α : Type*) where
  | empty
  | eps
  | cls (p : α → Bool)
  | seq (r s : Regex α)
  | alt (r s : Regex α)
  | star (r : Regex α)

namespace Regex

variable {α : Type*}

inductive Matches : Regex α → List α → Prop where
  | eps : Matches .eps []
  | cls {p : α → Bool} {a : α} : p a = true → Matches (.cls p) [a]
  | seq {r s : Regex α} {u v : List α} : Matches r u → Matches s v → Matches (.seq r s) (u ++ v)
  | left {r s : Regex α} {u : List α} : Matches r u → Matches (.alt r s) u
  | right {r s : Regex α} {u : List α} : Matches s u → Matches (.alt r s) u
  | none {r : Regex α} : Matches (.star r) []
  | more {r : Regex α} {u v : List α} :
      Matches r u → Matches (.star r) v → Matches (.star r) (u ++ v)

def nullable : Regex α → Bool
  | .empty => false
  | .eps => true
  | .cls _ => false
  | .seq r s => nullable r && nullable s
  | .alt r s => nullable r || nullable s
  | .star _ => true

/-- The expression for what may follow one item. -/
def derive (a : α) : Regex α → Regex α
  | .empty => .empty
  | .eps => .empty
  | .cls p => if p a then .eps else .empty
  | .seq r s =>
    if nullable r then .alt (.seq (derive a r) s) (derive a s) else .seq (derive a r) s
  | .alt r s => .alt (derive a r) (derive a s)
  | .star r => .seq (derive a r) (.star r)

def accepts (r : Regex α) : List α → Bool
  | [] => nullable r
  | a :: rest => accepts (derive a r) rest

theorem matches_seq_iff (r s : Regex α) (w : List α) :
    Matches (.seq r s) w ↔ ∃ u v, w = u ++ v ∧ Matches r u ∧ Matches s v := by
  constructor
  · rintro (_ | _ | ⟨first, second⟩)
    exact ⟨_, _, rfl, first, second⟩
  · rintro ⟨u, v, rfl, first, second⟩
    exact .seq first second

theorem matches_alt_iff (r s : Regex α) (w : List α) :
    Matches (.alt r s) w ↔ Matches r w ∨ Matches s w := by
  constructor
  · rintro (_ | _ | _ | first | second)
    · exact .inl first
    · exact .inr second
  · rintro (first | second)
    · exact .left first
    · exact .right second

theorem matches_cls_iff (p : α → Bool) (w : List α) :
    Matches (.cls p) w ↔ ∃ a, w = [a] ∧ p a = true := by
  constructor
  · rintro (_ | holds)
    exact ⟨_, rfl, holds⟩
  · rintro ⟨a, rfl, holds⟩
    exact .cls holds

theorem not_matches_empty (w : List α) : ¬ Matches .empty w := nofun

theorem matches_eps_iff (w : List α) : Matches .eps w ↔ w = [] := by
  constructor
  · rintro ⟨⟩
    rfl
  · rintro rfl
    exact .eps

theorem matches_star_cons_iff (r : Regex α) (a : α) (w : List α) :
    Matches (.star r) (a :: w) ↔
      ∃ u v, w = u ++ v ∧ Matches r (a :: u) ∧ Matches (.star r) v := by
  constructor
  · intro matched
    generalize shape : Regex.star r = expr at matched
    generalize whole : a :: w = items at matched
    induction matched with
    | @more r' u v first rest _ ih =>
      cases shape
      cases u with
      | nil => exact ih rfl whole
      | cons b u =>
        obtain ⟨rfl, rfl⟩ := List.cons.inj whole
        exact ⟨u, v, rfl, first, rest⟩
    | none => cases whole
    | _ => cases shape
  · rintro ⟨u, v, rfl, first, rest⟩
    exact .more first rest

theorem nullable_iff (r : Regex α) : nullable r = true ↔ Matches r [] := by
  induction r with
  | empty => simp [nullable, not_matches_empty]
  | eps => simp [nullable, matches_eps_iff]
  | cls p => simp [nullable, matches_cls_iff]
  | seq r s first second => simp [nullable, first, second, matches_seq_iff]
  | alt r s first second => simp [nullable, first, second, matches_alt_iff]
  | star r _ => exact ⟨fun _ => .none, fun _ => rfl⟩

theorem derive_iff (r : Regex α) (a : α) (w : List α) :
    Matches (derive a r) w ↔ Matches r (a :: w) := by
  induction r generalizing w with
  | empty => exact ⟨nofun, nofun⟩
  | eps => exact ⟨nofun, nofun⟩
  | cls p =>
    rw [derive, matches_cls_iff]
    split
    · rename_i holds
      rw [matches_eps_iff]
      constructor
      · rintro rfl
        exact ⟨a, rfl, holds⟩
      · rintro ⟨b, same, _⟩
        exact (List.cons.inj same).2
    · rename_i fails
      refine ⟨nofun, ?_⟩
      rintro ⟨b, same, holds⟩
      obtain ⟨rfl, _⟩ := List.cons.inj same
      exact absurd holds fails
  | seq r s first second =>
    have split_ : Matches (.seq r s) (a :: w) ↔ Matches (.seq (derive a r) s) w ∨
        (nullable r = true ∧ Matches (derive a s) w) := by
      simp only [matches_seq_iff, first, second, nullable_iff]
      constructor
      · rintro ⟨u, v, whole, here, later⟩
        cases u with
        | nil =>
          rw [List.nil_append] at whole
          subst whole
          exact .inr ⟨here, later⟩
        | cons b u =>
          obtain ⟨rfl, rfl⟩ := List.cons.inj whole
          exact .inl ⟨u, v, rfl, here, later⟩
      · rintro (⟨u, v, rfl, here, later⟩ | ⟨here, later⟩)
        · exact ⟨a :: u, v, rfl, here, later⟩
        · exact ⟨[], a :: w, rfl, here, later⟩
    rw [split_, derive]
    cases nullable r with
    | true => simp [matches_alt_iff]
    | false => simp
  | alt r s first second => rw [derive, matches_alt_iff, matches_alt_iff, first, second]
  | star r ih =>
    rw [derive, matches_seq_iff, matches_star_cons_iff]
    simp only [ih]

theorem accepts_iff (r : Regex α) (w : List α) : accepts r w = true ↔ Matches r w := by
  induction w generalizing r with
  | nil => exact nullable_iff r
  | cons a rest ih => rw [accepts, ih, derive_iff]

theorem matches_star_cls_iff (p : α → Bool) (w : List α) :
    Matches (.star (.cls p)) w ↔ ∀ a ∈ w, p a = true := by
  induction w with
  | nil => exact ⟨fun _ => nofun, fun _ => .none⟩
  | cons a rest ih =>
    rw [matches_star_cons_iff, List.forall_mem_cons]
    constructor
    · rintro ⟨u, v, rfl, first, later⟩
      obtain ⟨b, same, holds⟩ := (matches_cls_iff p _).mp first
      obtain ⟨rfl, rfl⟩ := List.cons.inj same
      exact ⟨holds, ih.mp later⟩
    · rintro ⟨holds, later⟩
      exact ⟨[], rest, rfl, .cls holds, ih.mpr later⟩

def search (r : Regex α) (w : List α) : Bool :=
  accepts (.seq (.star (.cls (fun _ => true))) (.seq r (.star (.cls (fun _ => true))))) w

theorem search_iff (r : Regex α) (w : List α) :
    search r w = true ↔ ∃ before mid after, w = before ++ (mid ++ after) ∧ Matches r mid := by
  rw [search, accepts_iff, matches_seq_iff]
  simp only [matches_seq_iff, matches_star_cls_iff]
  constructor
  · rintro ⟨before, _, rfl, _, mid, after, rfl, found, _⟩
    exact ⟨before, mid, after, rfl, found⟩
  · rintro ⟨before, mid, after, rfl, found⟩
    exact ⟨before, _, rfl, fun _ _ => trivial, mid, after, rfl, found, fun _ _ => trivial⟩

def literal [DecidableEq α] : List α → Regex α
  | [] => .eps
  | a :: rest => .seq (.cls (· == a)) (literal rest)

theorem matches_literal_iff [DecidableEq α] (items w : List α) :
    Matches (literal items) w ↔ w = items := by
  induction items generalizing w with
  | nil => exact matches_eps_iff w
  | cons a rest ih =>
    rw [literal, matches_seq_iff]
    simp only [matches_cls_iff, ih, beq_iff_eq]
    constructor
    · rintro ⟨u, v, rfl, ⟨b, rfl, rfl⟩, rfl⟩
      rfl
    · rintro rfl
      exact ⟨[a], rest, rfl, ⟨a, rfl, rfl⟩, rfl⟩

/-- The outer items stand twice with only allowed items between them. -/
def Between (allowed : α → Bool) (outer w : List α) : Prop :=
  ∃ before mid after, w = before ++ (outer ++ (mid ++ (outer ++ after))) ∧
    ∀ a ∈ mid, allowed a = true

theorem search_between_iff [DecidableEq α] (allowed : α → Bool) (outer w : List α) :
    search (.seq (literal outer) (.seq (.star (.cls allowed)) (literal outer))) w = true ↔
      Between allowed outer w := by
  rw [search_iff]
  simp only [matches_seq_iff, matches_literal_iff, matches_star_cls_iff]
  constructor
  · rintro ⟨before, _, after, rfl, _, _, rfl, rfl, mid, _, rfl, plain, rfl⟩
    exact ⟨before, mid, after, by simp only [List.append_assoc], plain⟩
  · rintro ⟨before, mid, after, rfl, plain⟩
    exact ⟨before, _, after, by simp only [List.append_assoc], outer, _, rfl, rfl, mid, outer, rfl,
      plain, rfl⟩

theorem Between.mono {allowed more : α → Bool} {outer w : List α} (between : Between allowed outer w)
    (wider : ∀ a, allowed a = true → more a = true) : Between more outer w := by
  obtain ⟨before, mid, after, whole, plain⟩ := between
  exact ⟨before, mid, after, whole, fun a member => wider a (plain a member)⟩

end Regex
