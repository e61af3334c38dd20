import Mathlib.Data.List.Forall2
import Mathlib.Data.List.Basic

namespace Machine

variable {σ τ ι ο ρ : Type*}

/-- The outputs of a machine on a list of inputs, and the state it ends in. -/
def run (step : ι → σ → ο × σ) : List ι → σ → List ο × σ
  | [], state => ([], state)
  | input :: rest, state =>
    ((step input state).1 :: (run step rest (step input state).2).1,
      (run step rest (step input state).2).2)

@[simp] theorem run_nil (step : ι → σ → ο × σ) (state : σ) : run step [] state = ([], state) := rfl

/-- An invariant that every step keeps holds at the end, and every output is as a step from a
    state with the invariant leaves it. -/
theorem run_keeps {step : ι → σ → ο × σ} (Holds : σ → Prop) (Fits : ι → ο → Prop)
    (keeps : ∀ input state, Holds state →
      Fits input (step input state).1 ∧ Holds (step input state).2)
    (inputs : List ι) (state : σ) (holds : Holds state) :
    List.Forall₂ Fits inputs (run step inputs state).1 ∧ Holds (run step inputs state).2 := by
  induction inputs generalizing state with
  | nil => exact ⟨.nil, holds⟩
  | cons input rest ih =>
    obtain ⟨fits, next⟩ := keeps input state holds
    obtain ⟨others, last⟩ := ih _ next
    exact ⟨.cons fits others, last⟩

end Machine
