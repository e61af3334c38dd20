import StatGuardian.Library.Machine

namespace Buffering

variable {α : Type*}

inductive Call (α : Type*) where
  | push (item : α)
  | flush

def Call.item? : Call α → Option α
  | .push item => some item
  | .flush => none

def pushed (calls : List (Call α)) : List α := calls.filterMap Call.item?

/-- A buffer that hands out what it holds when it is flushed or holds `size` items. -/
def step (size : Nat) (call : Call α) (held : List α) : Option (List α) × List α :=
  match call with
  | .flush => (some held, [])
  | .push item =>
    if size ≤ (held ++ [item]).length then (some (held ++ [item]), []) else (none, held ++ [item])

def run (size : Nat) (calls : List (Call α)) (held : List α) : List (Option (List α)) × List α :=
  Machine.run (step size) calls held

def groups (size : Nat) (calls : List (Call α)) : List (List α) :=
  (run size calls []).1.filterMap id

def kept (size : Nat) (calls : List (Call α)) : List α := (run size calls []).2

theorem step_accounts (size : Nat) (call : Call α) (held : List α) :
    (step size call held).1.getD [] ++ (step size call held).2 = held ++ call.item?.toList := by
  cases call with
  | flush => simp [step, Call.item?]
  | push item =>
    simp only [step, Call.item?]
    split <;> simp

theorem flatten_filterMap_id (outputs : List (Option (List α))) :
    (outputs.filterMap id).flatten = (outputs.map (·.getD [])).flatten := by
  induction outputs with
  | nil => rfl
  | cons output rest ih =>
    cases output with
    | none => simpa using ih
    | some group => simpa using ih

theorem run_accounts (size : Nat) (calls : List (Call α)) (held : List α) :
    ((run size calls held).1.filterMap id).flatten ++ (run size calls held).2 =
      held ++ pushed calls := by
  rw [flatten_filterMap_id]
  induction calls generalizing held with
  | nil => simp [run, pushed]
  | cons call rest ih =>
    have later := ih (step size call held).2
    have first := step_accounts size call held
    simp only [run, Machine.run, List.map_cons, List.flatten_cons, List.append_assoc] at later ⊢
    rw [later, ← List.append_assoc, first, List.append_assoc]
    congr 1
    cases call <;> rfl

/-- Nothing is lost, repeated or moved. -/
theorem groups_accounts (size : Nat) (calls : List (Call α)) :
    (groups size calls).flatten ++ kept size calls = pushed calls :=
  run_accounts size calls []

theorem kept_short (size : Nat) (call : Call α) (held : List α) (room : held.length < max size 1) :
    (step size call held).2.length < max size 1 := by
  cases call with
  | flush =>
    simp only [step, List.length_nil]
    omega
  | push item =>
    simp only [step]
    split
    · simp only [List.length_nil]
      omega
    · rename_i short
      exact Nat.lt_of_lt_of_le (Nat.lt_of_not_le short) (Nat.le_max_left _ _)

theorem push_full (size : Nat) (item : α) (held group : List α) (room : held.length < max size 1)
    (handed : (step size (.push item) held).1 = some group) : group.length = max size 1 := by
  simp only [step] at handed
  split at handed
  · rename_i full
    cases handed
    rw [List.length_append, List.length_singleton] at full ⊢
    omega
  · cases handed

theorem run_full (size : Nat) (calls : List (Call α)) :
    List.Forall₂ (fun call output => ∀ item group, call = .push item → output = some group →
      group.length = max size 1) calls (run size calls []).1 := by
  have keeps : ∀ (call : Call α) held, held.length < max size 1 →
      (∀ item group, call = .push item → (step size call held).1 = some group →
        group.length = max size 1) ∧ (step size call held).2.length < max size 1 := by
    intro call held room
    refine ⟨?_, kept_short size call held room⟩
    intro item group same handed
    subst same
    exact push_full size item held group room handed
  have empty : ([] : List α).length < max size 1 := Nat.le_max_right size 1
  exact (Machine.run_keeps _ _ keeps calls [] empty).1

end Buffering
