import Mathlib.Data.List.Basic

namespace Markup

def plain (c : Char) : Bool := c != '<' && c != '&'

def Plain (text : String) : Prop := ∀ c ∈ text.toList, plain c = true

instance (text : String) : Decidable (Plain text) :=
  List.decidableBAll (fun c => plain c = true) text.toList

def escapeChar (c : Char) : List Char :=
  if c = '&' then "&amp;".toList
  else if c = '<' then "&lt;".toList
  else if c = '>' then "&gt;".toList
  else if c = '"' then "&quot;".toList
  else if c = '\'' then "&#x27;".toList
  else [c]

/-- What a text with these five character references shows. -/
def unescape : List Char → List Char
  | [] => []
  | '&' :: 'a' :: 'm' :: 'p' :: ';' :: rest => '&' :: unescape rest
  | '&' :: 'l' :: 't' :: ';' :: rest => '<' :: unescape rest
  | '&' :: 'g' :: 't' :: ';' :: rest => '>' :: unescape rest
  | '&' :: 'q' :: 'u' :: 'o' :: 't' :: ';' :: rest => '"' :: unescape rest
  | '&' :: '#' :: 'x' :: '2' :: '7' :: ';' :: rest => '\'' :: unescape rest
  | c :: rest => c :: unescape rest

theorem unescape_cons {c : Char} (other : c ≠ '&') (rest : List Char) :
    unescape (c :: rest) = c :: unescape rest := by
  rw [unescape]
  all_goals
    intros
    exact absurd ‹_› other

theorem unescape_escapeChar (c : Char) (rest : List Char) :
    unescape (escapeChar c ++ rest) = c :: unescape rest := by
  unfold escapeChar
  split_ifs with amp lt gt quot apos
  · rw [amp]
    rfl
  · rw [lt]
    rfl
  · rw [gt]
    rfl
  · rw [quot]
    rfl
  · rw [apos]
    rfl
  · exact unescape_cons amp rest

theorem unescape_escape (text : List Char) : unescape (text.flatMap escapeChar) = text := by
  induction text with
  | nil => rfl
  | cons c text ih => rw [List.flatMap_cons, unescape_escapeChar, ih]

theorem unescape_plain {text : List Char} (plains : ∀ c ∈ text, plain c = true) :
    unescape text = text := by
  induction text with
  | nil => rfl
  | cons c text ih =>
    obtain ⟨first, rest⟩ := List.forall_mem_cons.mp plains
    have other : c ≠ '&' := by
      intro same
      rw [same] at first
      cases first
    rw [unescape_cons other, ih rest]

theorem not_tag_escapeChar (c : Char) : ∀ d ∈ escapeChar c, d ≠ '<' := by
  unfold escapeChar
  split_ifs with amp lt
  iterate 5 simp
  intro d member
  rw [List.mem_singleton] at member
  rwa [member]

/-- The reader of a page: the tags that are over and the texts of the table cells, with the tag and
    the cell that it is in. -/
@[ext]
structure Reader where
  tags : List (List Char)
  tag : Option (List Char)
  cells : List (List Char)
  cell : Option (List Char)
  deriving DecidableEq, Repr

namespace Reader

def start : Reader := ⟨[], none, [], none⟩

def opensCell (tag : List Char) : Bool := tag == ['t', 'd'] || tag.take 3 == ['t', 'd', ' ']

def step (reader : Reader) (c : Char) : Reader :=
  match reader.tag with
  | none =>
    if c = '<' then
      { reader with tag := some [], cells := reader.cells ++ reader.cell.toList, cell := none }
    else { reader with cell := reader.cell.map (· ++ [c]) }
  | some tag =>
    if c = '>' then
      { reader with
        tags := reader.tags ++ [tag]
        tag := none
        cell := if opensCell tag then some [] else none }
    else { reader with tag := some (tag ++ [c]) }

/-- What is read after another reading that ended outside of tags and cells. -/
def after (reader earlier : Reader) : Reader :=
  { reader with tags := earlier.tags ++ reader.tags, cells := earlier.cells ++ reader.cells }

theorem step_after (reader earlier : Reader) (c : Char) :
    step (reader.after earlier) c = (step reader c).after earlier := by
  unfold step after
  dsimp only
  split
  · split
    · simp only [List.append_assoc]
    · rfl
  · split
    · simp only [List.append_assoc]
    · rfl

theorem foldl_after (reader earlier : Reader) (text : List Char) :
    text.foldl step (reader.after earlier) = (text.foldl step reader).after earlier := by
  induction text generalizing reader with
  | nil => rfl
  | cons c text ih => rw [List.foldl_cons, List.foldl_cons, step_after, ih]

/-- Outside of tags and cells. -/
def Between (reader : Reader) : Prop := reader.tag = none ∧ reader.cell = none

instance (reader : Reader) : Decidable reader.Between :=
  inferInstanceAs (Decidable (reader.tag = none ∧ reader.cell = none))

theorem start_after {reader : Reader} (between : reader.Between) : start.after reader = reader := by
  obtain ⟨tags, tag, cells, cell⟩ := reader
  obtain ⟨rfl, rfl⟩ := between
  simp only [start, after, List.append_nil]

theorem foldl_text {text : List Char} (noTag : ∀ c ∈ text, c ≠ '<') (tags cells : List (List Char))
    (cell : Option (List Char)) :
    text.foldl step ⟨tags, none, cells, cell⟩ = ⟨tags, none, cells, cell.map (· ++ text)⟩ := by
  induction text generalizing cell with
  | nil => simp
  | cons c text ih =>
    obtain ⟨first, rest⟩ := List.forall_mem_cons.mp noTag
    rw [List.foldl_cons, step]
    simp only [if_neg first]
    rw [ih rest]
    simp [Function.comp_def]

theorem foldl_tag {text : List Char} (noEnd : ∀ c ∈ text, c ≠ '>') (tags cells : List (List Char))
    (cell : Option (List Char)) (tag : List Char) :
    text.foldl step ⟨tags, some tag, cells, cell⟩ = ⟨tags, some (tag ++ text), cells, cell⟩ := by
  induction text generalizing tag with
  | nil => simp
  | cons c text ih =>
    obtain ⟨first, rest⟩ := List.forall_mem_cons.mp noEnd
    rw [List.foldl_cons, step]
    simp only [if_neg first]
    rw [ih rest, List.append_assoc, List.singleton_append]

end Reader

open Reader

def read (text : String) : Reader := text.toList.foldl step start

/-- A text that leaves the reader outside of tags and cells. -/
def Closed (text : String) : Prop := (read text).Between

instance (text : String) : Decidable (Closed text) := inferInstanceAs (Decidable (read text).Between)

variable {text other : String}

theorem read_append (closed : Closed text) (other : String) :
    read (text ++ other) = (read other).after (read text) := by
  have begins := foldl_after start (read text) other.toList
  rw [start_after closed] at begins
  rw [read, String.toList_append, List.foldl_append]
  exact begins

theorem Closed.append (closed : Closed text) (closedToo : Closed other) : Closed (text ++ other) := by
  unfold Closed
  rw [read_append closed]
  exact closedToo

theorem read_text (noTag : ∀ c ∈ text.toList, c ≠ '<') : read text = start :=
  foldl_text noTag [] [] none

theorem read_cell {tag : List Char} (opened : read text = ⟨[tag], none, [], some []⟩)
    {content : String} (noTag : ∀ c ∈ content.toList, c ≠ '<') :
    read (text ++ content ++ "</td>") =
      ⟨[tag, "/td".toList], none, [content.toList], none⟩ := by
  rw [read] at opened
  rw [read, String.toList_append, String.toList_append, List.foldl_append, List.foldl_append,
    opened, foldl_text noTag]
  rfl

/-- Two texts with the same tags, each with its cells. -/
def Alike (text other : String) (cells cellsToo : List (List Char)) : Prop :=
  ∃ tags, read text = ⟨tags, none, cells, none⟩ ∧ read other = ⟨tags, none, cellsToo, none⟩

namespace Alike

variable {cells cellsToo : List (List Char)}

theorem literal {signs : List Char}
    (bare : (signs.foldl step start).Between ∧ (signs.foldl step start).cells = []) :
    Alike (String.ofList signs) (String.ofList signs) [] [] := by
  have whole : Markup.read (String.ofList signs) = ⟨(signs.foldl step start).tags, none, [], none⟩ := by
    rw [Markup.read, String.toList_ofList]
    apply Reader.ext
    · rfl
    · exact bare.1.1
    · exact bare.2
    · exact bare.1.2
  exact ⟨_, whole, whole⟩

theorem opening {signs tag : List Char} {tags : List (List Char)} {attributes : String}
    (begun : signs.foldl step start = ⟨tags, some tag, [], none⟩)
    (noEnd : ∀ c ∈ attributes.toList, c ≠ '>')
    (noCell : opensCell (tag ++ attributes.toList) = false) :
    Alike (String.ofList signs ++ attributes ++ ">") (String.ofList signs ++ attributes ++ ">")
      [] [] := by
  have whole : Markup.read (String.ofList signs ++ attributes ++ ">") =
      ⟨tags ++ [tag ++ attributes.toList], none, [], none⟩ := by
    rw [Markup.read, String.toList_append, String.toList_append, String.toList_ofList,
      List.foldl_append, List.foldl_append, begun, foldl_tag noEnd]
    show step ⟨tags, some (tag ++ attributes.toList), [], none⟩ '>' = _
    simp only [step, if_true, noCell, Bool.false_eq_true, if_false]
  exact ⟨_, whole, whole⟩

theorem plainText (noTag : ∀ c ∈ text.toList, c ≠ '<') (noTagToo : ∀ c ∈ other.toList, c ≠ '<') :
    Alike text other [] [] :=
  ⟨[], read_text noTag, read_text noTagToo⟩

theorem cell {start_ : String} {tag : List Char} (opened : read start_ = ⟨[tag], none, [], some []⟩)
    (noTag : ∀ c ∈ text.toList, c ≠ '<') (noTagToo : ∀ c ∈ other.toList, c ≠ '<') :
    Alike (start_ ++ text ++ "</td>") (start_ ++ other ++ "</td>") [text.toList] [other.toList] :=
  ⟨_, read_cell opened noTag, read_cell opened noTagToo⟩

theorem append (alike : Alike text other cells cellsToo) {after afterToo : String}
    {more moreToo : List (List Char)} (alikeAfter : Alike after afterToo more moreToo) :
    Alike (text ++ after) (other ++ afterToo) (cells ++ more) (cellsToo ++ moreToo) := by
  obtain ⟨tags, reads, readsToo⟩ := alike
  obtain ⟨tagsAfter, readsAfter, readsAfterToo⟩ := alikeAfter
  have closed : Closed text := by
    rw [Closed, reads]
    exact ⟨rfl, rfl⟩
  have closedToo : Closed other := by
    rw [Closed, readsToo]
    exact ⟨rfl, rfl⟩
  refine ⟨tags ++ tagsAfter, ?_, ?_⟩
  · rw [read_append closed, reads, readsAfter]
    rfl
  · rw [read_append closedToo, readsToo, readsAfterToo]
    rfl

theorem beside (alike : Alike text other [] []) {after afterToo : String}
    (alikeAfter : Alike after afterToo cells cellsToo) :
    Alike (text ++ after) (other ++ afterToo) cells cellsToo := alike.append alikeAfter

theorem rows {α β : Type*} {row : α → String} {rowToo : β → String}
    {cellsOf : α → List (List Char)} {cellsOfToo : β → List (List Char)} {items : List α}
    {itemsToo : List β}
    (each : List.Forall₂ (fun a b => Alike (row a) (rowToo b) (cellsOf a) (cellsOfToo b))
      items itemsToo)
    (alike : Alike text other cells cellsToo) :
    Alike (items.foldl (fun rows a => rows ++ row a) text)
      (itemsToo.foldl (fun rows b => rows ++ rowToo b) other)
      (cells ++ items.flatMap cellsOf) (cellsToo ++ itemsToo.flatMap cellsOfToo) := by
  induction each generalizing text other cells cellsToo with
  | nil => simpa using alike
  | cons first _ ih =>
    simp only [List.foldl_cons, List.flatMap_cons, ← List.append_assoc]
    exact ih (alike.append first)

end Alike

end Markup
