import Mathlib.Data.List.Basic
import Mathlib.Logic.Function.Basic

namespace TextCodes

variable {α : Type*} {ends : Char → Prop} {text : α → List Char}

/-- A text that is told apart from others once an end sign stands behind it. -/
def Readable (ends : Char → Prop) (text : α → List Char) : Prop :=
  ∀ ⦃x y c d rest rest'⦄, ends c → ends d → text x ++ c :: rest = text y ++ d :: rest' →
    x = y ∧ c :: rest = d :: rest'

/-- A text that shows its own end. -/
def Closed (text : α → List Char) : Prop :=
  ∀ ⦃x y rest rest'⦄, text x ++ rest = text y ++ rest' → x = y ∧ rest = rest'

theorem Closed.readable (closed : Closed text) : Readable ends text :=
  fun _ _ _ _ _ _ _ _ same => closed same

theorem words_eq {word word' : List Char} (clear : ∀ c ∈ word, ¬ ends c)
    (clear' : ∀ c ∈ word', ¬ ends c) {c d : Char} {rest rest' : List Char} (ended : ends c)
    (ended' : ends d) (same : word ++ c :: rest = word' ++ d :: rest') :
    word = word' ∧ c :: rest = d :: rest' := by
  induction word generalizing word' with
  | nil =>
    cases word' with
    | nil => exact ⟨rfl, same⟩
    | cons a word' =>
      have first := (List.cons.inj same).1
      exact absurd (first ▸ ended) (clear' a List.mem_cons_self)
  | cons a word ih =>
    cases word' with
    | nil =>
      have first := (List.cons.inj same).1
      exact absurd (first ▸ ended') (clear a List.mem_cons_self)
    | cons b word' =>
      obtain ⟨rfl, more⟩ := List.cons.inj same
      obtain ⟨rfl, tails⟩ := ih (fun c member => clear c (List.mem_cons_of_mem _ member))
        (fun c member => clear' c (List.mem_cons_of_mem _ member)) more
      exact ⟨rfl, tails⟩

theorem readable_of_words (injective : Function.Injective text)
    (clear : ∀ x, ∀ c ∈ text x, ¬ ends c) : Readable ends text := by
  intro x y c d rest rest' ended ended' same
  obtain ⟨words, tails⟩ := words_eq (clear x) (clear y) ended ended' same
  exact ⟨injective words, tails⟩

theorem Readable.comp {β : Type*} (readable : Readable ends text) {f : β → α}
    (injective : Function.Injective f) : Readable ends (fun x => text (f x)) := by
  intro x y c d rest rest' ended ended' same
  obtain ⟨values, tails⟩ := readable ended ended' same
  exact ⟨injective values, tails⟩

/-- A text in which every letter shows its own end shows its own end at a closing sign that no
    letter begins with. -/
theorem closed_flatMap (letter : Closed text) (close : Char)
    (opens : ∀ x rest, (text x ++ rest).head? ≠ some close) :
    Closed (fun items : List α => items.flatMap text ++ [close]) := by
  intro items others rest rest' same
  simp only [List.append_assoc, List.singleton_append] at same
  induction items generalizing others with
  | nil =>
    cases others with
    | nil => exact ⟨rfl, (List.cons.inj same).2⟩
    | cons y others =>
      rw [List.flatMap_cons, List.append_assoc] at same
      exact absurd (congrArg List.head? same).symm (opens y _)
  | cons x items ih =>
    cases others with
    | nil =>
      rw [List.flatMap_cons, List.append_assoc] at same
      exact absurd (congrArg List.head? same) (opens x _)
    | cons y others =>
      rw [List.flatMap_cons, List.flatMap_cons, List.append_assoc, List.append_assoc] at same
      obtain ⟨rfl, more⟩ := letter same
      obtain ⟨rfl, tails⟩ := ih more
      exact ⟨rfl, tails⟩

theorem intercalate_cons (separator first : List Char) (texts : List (List Char)) :
    separator.intercalate (first :: texts) = first ++ texts.flatMap (separator ++ ·) := by
  induction texts generalizing first with
  | nil => rw [List.intercalate_singleton, List.flatMap_nil, List.append_nil]
  | cons second texts ih =>
    rw [List.intercalate_cons_cons, ih, List.flatMap_cons]
    simp only [List.append_assoc]

theorem closed_intercalate (item : Closed text) {mark close : Char} (gap : List Char)
    (apart : mark ≠ close) (opens : ∀ x rest, (text x ++ rest).head? ≠ some close) :
    Closed (fun items : List α => (mark :: gap).intercalate (items.map text) ++ [close]) := by
  have later :
      Closed (fun items : List α => items.flatMap (fun x => mark :: gap ++ text x) ++ [close]) := by
    refine closed_flatMap ?_ close fun x rest head => apart (Option.some.inj head)
    intro x y rest rest' same
    simp only [List.append_assoc] at same
    exact item (List.append_cancel_left same)
  intro items others rest rest' same
  simp only [List.append_assoc, List.singleton_append] at same
  cases items with
  | nil =>
    cases others with
    | nil => exact ⟨rfl, (List.cons.inj same).2⟩
    | cons y others =>
      rw [List.map_cons, intercalate_cons, List.append_assoc] at same
      exact absurd (congrArg List.head? same).symm (opens y _)
  | cons x items =>
    rw [List.map_cons, intercalate_cons, List.append_assoc] at same
    cases others with
    | nil => exact absurd (congrArg List.head? same) (opens x _)
    | cons y others =>
      rw [List.map_cons, intercalate_cons, List.append_assoc] at same
      obtain ⟨rfl, more⟩ := item same
      have more : (items.flatMap (fun x => mark :: gap ++ text x) ++ [close]) ++ rest =
          (others.flatMap (fun x => mark :: gap ++ text x) ++ [close]) ++ rest' := by
        simpa only [List.flatMap_map, List.append_assoc, List.singleton_append] using more
      obtain ⟨rfl, tails⟩ := later more
      exact ⟨rfl, tails⟩

end TextCodes
