import Mathlib.Data.List.Basic

namespace LineText

variable {α : Type*} [DecidableEq α]

def ended (sep : α) (lines : List (List α)) : List α := lines.flatMap (· ++ [sep])

def split (sep : α) (text : List α) : List (List α) := text.splitOnP (· == sep)

theorem split_ended (sep : α) (lines : List (List α)) (plain : ∀ line ∈ lines, sep ∉ line) :
    split sep (ended sep lines) = lines ++ [[]] := by
  induction lines with
  | nil => exact List.splitOnP_nil
  | cons line rest ih =>
    have first : line.splitOnP (· == sep) = [line] := by
      apply List.splitOnP_eq_singleton
      intro x inside
      apply beq_eq_false_iff_ne.mpr
      intro same
      exact plain line (List.mem_cons_self ..) (same ▸ inside)
    have later := ih (fun other member => plain other (List.mem_cons_of_mem _ member))
    rw [split, ended, List.flatMap_cons, List.append_assoc, List.singleton_append,
      List.splitOnP_append_cons (p := (· == sep)) _ _ (beq_self_eq_true sep), first]
    exact congrArg (line :: ·) later

def beforeLast (sep : α) (text : List α) : List α :=
  ((text.reverse.dropWhile (· != sep)).drop 1).reverse

theorem beforeLast_append_cons (sep : α) (before after : List α) (plain : sep ∉ after) :
    beforeLast sep (before ++ sep :: after) = before := by
  have skipped : ∀ x ∈ after.reverse, (x != sep) = true := by
    intro x inside
    apply bne_iff_ne.mpr
    intro same
    exact plain (same ▸ List.mem_reverse.mp inside)
  rw [beforeLast, List.reverse_append, List.reverse_cons, List.append_assoc,
    List.singleton_append, List.dropWhile_append_of_pos skipped, List.dropWhile_cons_of_neg (by simp)]
  exact List.reverse_reverse before

theorem append_cons_inj_last (sep : α) {before before' after after' : List α}
    (plain : sep ∉ after) (plain' : sep ∉ after')
    (same : before ++ sep :: after = before' ++ sep :: after') :
    before = before' ∧ after = after' := by
  have cut := congrArg (beforeLast sep) same
  rw [beforeLast_append_cons sep _ _ plain, beforeLast_append_cons sep _ _ plain'] at cut
  subst cut
  exact ⟨rfl, (List.cons.inj (List.append_cancel_left same)).2⟩

theorem takeWhile_append_cons (sep : α) (before after : List α) (plain : sep ∉ before) :
    (before ++ sep :: after).takeWhile (· != sep) = before := by
  have kept : ∀ x ∈ before, (x != sep) = true := by
    intro x inside
    apply bne_iff_ne.mpr
    intro same
    exact plain (same ▸ inside)
  rw [List.takeWhile_append_of_pos kept, List.takeWhile_cons_of_neg (by simp), List.append_nil]

end LineText
