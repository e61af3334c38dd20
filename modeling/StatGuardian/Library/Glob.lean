import StatGuardian.Library.Regex

namespace Glob

/-- The pairs of ends of the ranges in a list, where a single character is a range of its own. -/
def ranges : List Char → List (Char × Char)
  | [] => []
  | [c] => [(c, c)]
  | [c, d] => [(c, c), (d, d)]
  | c :: d :: e :: rest =>
    if d = '-' then (c, e) :: ranges rest else (c, c) :: ranges (d :: e :: rest)

def inRanges (stuff : List Char) (c : Char) : Bool :=
  (ranges stuff).any (fun ends => decide (ends.1 ≤ c) && decide (c ≤ ends.2))

def inSet (stuff : List Char) (c : Char) : Bool :=
  c != '/' && (if stuff.head? = some '!' then !inRanges (stuff.drop 1) c else inRanges stuff c)

/-- What stands between an opening bracket and the bracket that closes it. A bracket right at the
    start, or right after the exclamation mark there, is listed and does not close. -/
def bracket (rest : List Char) : Option (List Char) :=
  let mark := if rest.head? = some '!' then 1 else 0
  let lead := if (rest.drop mark).head? = some ']' then mark + 1 else mark
  let body := (rest.drop lead).takeWhile (fun c => c != ']' && c != '/')
  if (rest.drop (lead + body.length)).head? = some ']' then some (rest.take (lead + body.length))
  else none

/-- The expression of a file name pattern: `*` is any run of characters, `?` any one, `[..]` one of
    those listed and `[!..]` one of the others. None of them is a slash. -/
def translateFrom : Nat → List Char → Regex Char
  | _, [] => .eps
  | skip + 1, _ :: rest => translateFrom skip rest
  | 0, c :: rest =>
    if c = '*' then .seq (.star (.cls (· != '/'))) (translateFrom 0 rest)
    else if c = '?' then .seq (.cls (· != '/')) (translateFrom 0 rest)
    else if c = '[' then
      match bracket rest with
      | some stuff => .seq (.cls (inSet stuff)) (translateFrom (stuff.length + 1) rest)
      | none => .seq (.cls (· == '[')) (translateFrom 0 rest)
    else .seq (.cls (· == c)) (translateFrom 0 rest)

def translate (pattern : List Char) : Regex Char := translateFrom 0 pattern

def fnmatch (pattern name : String) : Bool := (translate pattern.toList).accepts name.toList

/-- Characters that only match themselves. -/
def Plain (items : List Char) : Prop := ∀ c ∈ items, c ≠ '*' ∧ c ≠ '?' ∧ c ≠ '['

theorem plain_nil : Plain [] := fun _ inside => nomatch inside

theorem translate_cons_plain (c : Char) (rest : List Char)
    (plain : c ≠ '*' ∧ c ≠ '?' ∧ c ≠ '[') :
    translate (c :: rest) = .seq (.cls (· == c)) (translate rest) := by
  rw [translate, translateFrom, if_neg plain.1, if_neg plain.2.1, if_neg plain.2.2]
  rfl

theorem translate_star (rest : List Char) :
    translate ('*' :: rest) = .seq (.star (.cls (· != '/'))) (translate rest) := rfl

theorem matches_plain_append (plain rest name : List Char) (only : Plain plain) :
    Regex.Matches (translate (plain ++ rest)) name ↔
      ∃ after, name = plain ++ after ∧ Regex.Matches (translate rest) after := by
  induction plain generalizing name with
  | nil => simp
  | cons c items ih =>
    have later := fun d member => only d (List.mem_cons_of_mem _ member)
    rw [List.cons_append, translate_cons_plain c _ (only c (List.mem_cons_self ..)),
      Regex.matches_seq_iff]
    simp only [Regex.matches_cls_iff, beq_iff_eq]
    constructor
    · intro ⟨u, v, split, ⟨d, single, same⟩, tail⟩
      obtain ⟨after, cut, found⟩ := (ih v later).mp tail
      refine ⟨after, ?_, found⟩
      rw [split, single, same, cut]
      rfl
    · intro ⟨after, split, found⟩
      exact ⟨[c], items ++ after, split, ⟨c, rfl, rfl⟩, (ih _ later).mpr ⟨after, rfl, found⟩⟩

theorem matches_star_iff (rest name : List Char) :
    Regex.Matches (translate ('*' :: rest)) name ↔
      ∃ run after, name = run ++ after ∧ (∀ c ∈ run, c ≠ '/') ∧
        Regex.Matches (translate rest) after := by
  rw [translate_star, Regex.matches_seq_iff]
  simp only [Regex.matches_star_cls_iff, bne_iff_ne]

theorem matches_plain_iff (plain name : List Char) (only : Plain plain) :
    Regex.Matches (translate plain) name ↔ name = plain := by
  have split := matches_plain_append plain [] name only
  rw [List.append_nil] at split
  rw [split]
  constructor
  · intro ⟨after, same, nothing⟩
    rw [same, (Regex.matches_eps_iff after).mp nothing, List.append_nil]
  · intro same
    exact ⟨[], by rw [same, List.append_nil], .eps⟩

theorem fnmatch_star_iff (before after : List Char) (pattern name : String)
    (shape : pattern.toList = before ++ '*' :: after) (first : Plain before) (last : Plain after) :
    fnmatch pattern name = true ↔
      ∃ run, name.toList = before ++ (run ++ after) ∧ ∀ c ∈ run, c ≠ '/' := by
  rw [fnmatch, Regex.accepts_iff, shape, matches_plain_append _ _ _ first]
  simp only [matches_star_iff, matches_plain_iff _ _ last]
  constructor
  · intro ⟨_, same, run, _, split, free, rfl⟩
    exact ⟨run, by rw [same, split], free⟩
  · intro ⟨run, same, free⟩
    exact ⟨_, same, run, _, rfl, free, rfl⟩

example : fnmatch "a_b*.md" "a_bc.md" = true := by decide

end Glob
