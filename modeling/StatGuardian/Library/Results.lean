import Mathlib.Data.List.Forall2

namespace Results

universe u

variable {ε : Type*} {α β : Type u}

theorem bind_ok_iff (x : Except ε α) (f : α → Except ε β) (b : β) :
    (x >>= f) = .ok b ↔ ∃ a, x = .ok a ∧ f a = .ok b := by
  cases x with
  | error e => simp [bind, Except.bind]
  | ok a => simp [bind, Except.bind]

theorem map_ok_iff (f : α → β) (x : Except ε α) (b : β) :
    f <$> x = .ok b ↔ ∃ a, x = .ok a ∧ f a = b := by
  cases x with
  | error e => simp [Functor.map, Except.map]
  | ok a => simp [Functor.map, Except.map]

theorem mapM_ok_iff (f : α → Except ε β) (xs : List α) (ys : List β) :
    xs.mapM f = .ok ys ↔ List.Forall₂ (fun x y => f x = .ok y) xs ys := by
  induction xs generalizing ys with
  | nil =>
    rw [List.mapM_nil, List.forall₂_nil_left_iff]
    exact ⟨fun h => (Except.ok.inj h).symm, fun h => h ▸ rfl⟩
  | cons x xs ih =>
    simp only [List.mapM_cons, bind_ok_iff, ih, List.forall₂_cons_left_iff]
    constructor
    · rintro ⟨y, head, rest, tail, same⟩
      exact ⟨y, rest, head, tail, (Except.ok.inj same).symm⟩
    · rintro ⟨y, rest, head, tail, same⟩
      exact ⟨y, head, rest, tail, congrArg Except.ok same.symm⟩

/-- A traversal returns exactly when every visit does, whatever the visits return. -/
theorem mapM_returns_iff (f : α → Except ε β) (xs : List α) :
    (∃ ys, xs.mapM f = .ok ys) ↔ ∀ x ∈ xs, ∃ y, f x = .ok y := by
  induction xs with
  | nil => exact ⟨fun _ x member => absurd member List.not_mem_nil, fun _ => ⟨[], rfl⟩⟩
  | cons x xs ih =>
    simp only [List.mapM_cons, bind_ok_iff, List.forall_mem_cons, ← ih]
    constructor
    · rintro ⟨_, y, head, rest, tail, _⟩
      exact ⟨⟨y, head⟩, rest, tail⟩
    · rintro ⟨⟨y, head⟩, rest, tail⟩
      exact ⟨y :: rest, y, head, rest, tail, rfl⟩

theorem mapM_bind_ok_iff {γ : Type u} (f : α → Except ε β) (g : β → Except ε γ) (xs : List α)
    (zs : List γ) :
    xs.mapM (fun x => f x >>= g) = .ok zs ↔ ∃ ys, xs.mapM f = .ok ys ∧ ys.mapM g = .ok zs := by
  induction xs generalizing zs with
  | nil => exact ⟨fun done => ⟨[], rfl, done⟩, fun ⟨_, first, second⟩ => by cases first; exact second⟩
  | cons x xs ih =>
    simp only [List.mapM_cons, bind_ok_iff, ih]
    constructor
    · rintro ⟨z, ⟨y, head, there⟩, rest, ⟨ys, tail, later⟩, same⟩
      refine ⟨y :: ys, ⟨y, head, ys, tail, rfl⟩, ?_⟩
      simp only [List.mapM_cons, bind_ok_iff]
      exact ⟨z, there, rest, later, same⟩
    · rintro ⟨_, ⟨y, head, ys, tail, same⟩, mapped⟩
      cases same
      simp only [List.mapM_cons, bind_ok_iff] at mapped
      obtain ⟨z, there, rest, later, same⟩ := mapped
      exact ⟨z, ⟨y, head, there⟩, rest, ⟨ys, tail, later⟩, same⟩

/-- A fold returns exactly when every step does, if what a step needs is not in the accumulator. -/
theorem foldlM_returns_iff {γ : Type*} {δ : Type u} (f : δ → γ → Except ε δ) (needs : γ → Prop)
    (xs : List γ) (each : ∀ x ∈ xs, ∀ d, (∃ d', f d x = .ok d') ↔ needs x) (d : δ) :
    (∃ d', xs.foldlM f d = .ok d') ↔ ∀ x ∈ xs, needs x := by
  induction xs generalizing d with
  | nil => exact ⟨fun _ => List.forall_mem_nil _, fun _ => ⟨d, rfl⟩⟩
  | cons x xs ih =>
    have later := ih fun y member => each y (List.mem_cons_of_mem x member)
    simp only [List.foldlM_cons, bind_ok_iff, List.forall_mem_cons]
    rw [← each x List.mem_cons_self d]
    constructor
    · rintro ⟨final, d', head, rest⟩
      exact ⟨⟨d', head⟩, (later d').mp ⟨final, rest⟩⟩
    · rintro ⟨⟨d', head⟩, rest⟩
      obtain ⟨final, ran⟩ := (later d').mpr rest
      exact ⟨final, d', head, ran⟩

theorem mapM_perm (f : α → Except ε β) {xs xs' : List α} (same : xs.Perm xs') (ys : List β)
    (returned : xs.mapM f = .ok ys) : ∃ ys', xs'.mapM f = .ok ys' ∧ ys'.Perm ys := by
  induction same generalizing ys with
  | nil => exact ⟨ys, returned, .refl ys⟩
  | cons x _ ih =>
    simp only [List.mapM_cons, bind_ok_iff] at returned
    obtain ⟨y, head, rest, tail, build⟩ := returned
    obtain ⟨rest', tail', order⟩ := ih rest tail
    refine ⟨y :: rest', ?_, ?_⟩
    · simp only [List.mapM_cons, head, tail', bind, Except.bind]
      rfl
    · rw [← Except.ok.inj build]
      exact order.cons y
  | swap x x' xs =>
    simp only [List.mapM_cons, bind_ok_iff] at returned
    obtain ⟨y, head, _, ⟨y', head', rest, tail, build'⟩, build⟩ := returned
    refine ⟨y' :: y :: rest, ?_, ?_⟩
    · simp only [List.mapM_cons, head, head', tail, bind, Except.bind]
      rfl
    · rw [← Except.ok.inj build, ← Except.ok.inj build']
      exact .swap y y' rest
  | trans _ _ first second =>
    obtain ⟨middle, there, order⟩ := first ys returned
    obtain ⟨last, here, order'⟩ := second middle there
    exact ⟨last, here, order'.trans order⟩

theorem mapM_error (f : α → Except ε β) (xs : List α) (e : ε) (failed : xs.mapM f = .error e) :
    ∃ x ∈ xs, f x = .error e := by
  induction xs with
  | nil => cases failed
  | cons x xs ih =>
    rw [List.mapM_cons] at failed
    cases head : f x with
    | error e' =>
      rw [head] at failed
      refine ⟨x, List.mem_cons_self, ?_⟩
      rw [head, Except.error.inj failed]
    | ok y =>
      cases tail : xs.mapM f with
      | error e' =>
        rw [head, tail] at failed
        obtain ⟨x', member, found⟩ := ih (tail.trans failed)
        exact ⟨x', List.mem_cons_of_mem _ member, found⟩
      | ok ys =>
        rw [head, tail] at failed
        cases failed

/-- Two results that are both values, related, or the same failure. -/
def Same (R : α → α → Prop) : Except ε α → Except ε α → Prop
  | .ok a, .ok b => R a b
  | .error e, .error e' => e = e'
  | _, _ => False

theorem same_refl {R : α → α → Prop} (refl : ∀ a, R a a) (x : Except ε α) : Same R x x := by
  cases x with
  | error e => exact rfl
  | ok a => exact refl a

theorem bind_eq_of_same {R : α → α → Prop} {x y : Except ε α} (same : Same R x y)
    (f g : α → Except ε β) (each : ∀ a b, R a b → f a = g b) : (x >>= f) = (y >>= g) := by
  cases x with
  | error e =>
    cases y with
    | error e' =>
      obtain rfl : e = e' := same
      rfl
    | ok b => exact same.elim
  | ok a =>
    cases y with
    | error e' => exact same.elim
    | ok b => exact each a b same

theorem ok_of_same {R : α → α → Prop} {x y : Except ε α} (same : Same R x y) {b : α}
    (value : y = .ok b) : ∃ a, x = .ok a ∧ R a b := by
  subst y
  cases x with
  | error e => exact same.elim
  | ok a => exact ⟨a, rfl, same⟩

/-- A traversal in another order returns the same results, when it can fail in one way only. -/
theorem mapM_same_of_perm (f : α → Except ε β) (e : ε) {xs xs' : List α} (order : xs.Perm xs')
    (only : ∀ x ∈ xs, ∀ e', f x = .error e' → e' = e) :
    Same List.Perm (xs.mapM f) (xs'.mapM f) := by
  cases left : xs.mapM f with
  | ok ys =>
    obtain ⟨ys', right, results⟩ := mapM_perm f order ys left
    rw [right]
    exact results.symm
  | error first =>
    cases right : xs'.mapM f with
    | ok ys' =>
      obtain ⟨ys, back, -⟩ := mapM_perm f order.symm ys' right
      exact absurd (left.symm.trans back) (by simp)
    | error second =>
      obtain ⟨x, member, found⟩ := mapM_error f xs first left
      obtain ⟨x', member', found'⟩ := mapM_error f xs' second right
      exact (only x member first found).trans
        (only x' (order.mem_iff.mpr member') second found').symm

theorem forall₂_dropWhile {R : α → β → Prop} {p : α → Bool} {q : β → Bool}
    (agree : ∀ x y, R x y → p x = q y) {xs : List α} {ys : List β} (related : List.Forall₂ R xs ys) :
    List.Forall₂ R (xs.dropWhile p) (ys.dropWhile q) := by
  induction related with
  | nil => exact .nil
  | @cons x y xs ys head tail ih =>
    rw [List.dropWhile_cons, List.dropWhile_cons, agree x y head]
    split
    · exact ih
    · exact .cons head tail

theorem forall₂_left {R : α → β → Prop} {xs : List α} {ys : List β} (related : List.Forall₂ R xs ys)
    (x : α) (member : x ∈ xs) : ∃ y ∈ ys, R x y := by
  induction related with
  | nil => cases member
  | cons head _ ih =>
    rcases List.mem_cons.mp member with rfl | inside
    · exact ⟨_, List.mem_cons_self, head⟩
    · obtain ⟨y, found, here⟩ := ih inside
      exact ⟨y, List.mem_cons_of_mem _ found, here⟩

theorem forall₂_right {R : α → β → Prop} {xs : List α} {ys : List β} (related : List.Forall₂ R xs ys)
    (y : β) (member : y ∈ ys) : ∃ x ∈ xs, R x y := by
  obtain ⟨x, found, here⟩ := forall₂_left related.flip y member
  exact ⟨x, found, here⟩

theorem pairwise_answers_iff {ρ : Type u} {Fits : ρ → α → Prop} {Present : ρ → Prop}
    {R : α → α → Prop} {S : ρ → ρ → Prop} {questions : List ρ} {answers : List (Option α)}
    (answered : List.Forall₂ (fun question answer => (answer.isSome = true ↔ Present question) ∧
      ∀ a, answer = some a → Fits question a) questions answers)
    (told : ∀ p a q b, Fits p a → Fits q b → (R a b ↔ S p q)) :
    (answers.filterMap id).Pairwise R ↔
      questions.Pairwise (fun p q => Present p → Present q → S p q) := by
  induction answered with
  | nil => exact ⟨fun _ => .nil, fun _ => .nil⟩
  | @cons question answer questions answers first others ih =>
    rw [List.pairwise_cons, ← ih]
    cases answer with
    | none =>
      have absent : ¬ Present question := fun present => by
        cases first.1.mpr present
      rw [List.filterMap_cons_none (show id (none : Option α) = none from rfl)]
      exact ⟨fun rest => ⟨fun _ _ present => absurd present absent, rest⟩, fun both => both.2⟩
    | some a =>
      have fits := first.2 a rfl
      have present := first.1.mp rfl
      rw [List.filterMap_cons_some (show id (some a) = some a from rfl), List.pairwise_cons]
      refine and_congr_left fun _ => ?_
      constructor
      · intro related q member _ presentQ
        obtain ⟨answer, inside, some_, fitsQ⟩ := forall₂_left others q member
        obtain ⟨b, rfl⟩ := Option.isSome_iff_exists.mp (some_.mpr presentQ)
        exact (told question a q b fits (fitsQ b rfl)).mp
          (related b (List.mem_filterMap.mpr ⟨_, inside, rfl⟩))
      · intro related b member
        obtain ⟨_, inside, rfl⟩ := List.mem_filterMap.mp member
        obtain ⟨q, asked, some_, fitsQ⟩ := forall₂_right others _ inside
        exact (told question a q b fits (fitsQ b rfl)).mpr
          (related q asked present (some_.mp rfl))

theorem map_eq_map_of_forall₂ {γ : Type*} {R : α → β → Prop} {xs : List α} {ys : List β}
    (related : List.Forall₂ R xs ys) (f : α → γ) (g : β → γ)
    (agree : ∀ x ∈ xs, ∀ y, R x y → f x = g y) : xs.map f = ys.map g := by
  induction related with
  | nil => rfl
  | cons head _ ih =>
    obtain ⟨first, rest⟩ := List.forall_mem_cons.mp agree
    rw [List.map_cons, List.map_cons, first _ head, ih rest]

theorem forall₂_iff_left {R : α → β → Prop} {p : α → Prop} {xs : List α} {ys : List β}
    (each : List.Forall₂ (fun x y => R x y ↔ p x) xs ys) :
    List.Forall₂ R xs ys ↔ ∀ x ∈ xs, p x := by
  induction each with
  | nil => simp
  | cons head _ ih => rw [List.forall₂_cons, head, ih, List.forall_mem_cons]

theorem ok_of_any (x : Except ε α) (p : α → Bool) (holds : x.toOption.any p = true) :
    ∃ a, x = .ok a ∧ p a = true := by
  cases x with
  | error e => cases holds
  | ok a => exact ⟨a, rfl, holds⟩

end Results
