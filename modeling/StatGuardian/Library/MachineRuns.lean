import StatGuardian.Library.Machine

namespace Machine

variable {σ τ ι ο : Type*}

theorem run_length (step : ι → σ → ο × σ) (inputs : List ι) (state : σ) :
    (run step inputs state).1.length = inputs.length := by
  induction inputs generalizing state with
  | nil => rfl
  | cons input rest ih => exact congrArg Nat.succ (ih _)

theorem run_append (step : ι → σ → ο × σ) (before after : List ι) (state : σ) :
    run step (before ++ after) state =
      ((run step before state).1 ++ (run step after (run step before state).2).1,
        (run step after (run step before state).2).2) := by
  induction before generalizing state with
  | nil => rfl
  | cons input rest ih => simp only [List.cons_append, run, ih]

def transcript (step : ι → σ → ο × σ) (inputs : List ι) (state : σ) : List (ι × ο) :=
  inputs.zip (run step inputs state).1

theorem transcript_cons (step : ι → σ → ο × σ) (input : ι) (rest : List ι) (state : σ) :
    transcript step (input :: rest) state =
      (input, (step input state).1) :: transcript step rest (step input state).2 := rfl

theorem transcript_append (step : ι → σ → ο × σ) (before after : List ι) (state : σ) :
    transcript step (before ++ after) state =
      transcript step before state ++ transcript step after (run step before state).2 := by
  rw [transcript, run_append, transcript, transcript]
  exact List.zip_append (run_length step before state).symm

/-- An invariant that relates the state to the transcript of the run so far holds at its end. -/
theorem run_logged {step : ι → σ → ο × σ} (Holds : List (ι × ο) → σ → Prop)
    (keeps : ∀ past input state, Holds past state →
      Holds (past ++ [(input, (step input state).1)]) (step input state).2)
    {start : σ} (holds : Holds [] start) (inputs : List ι) :
    Holds (transcript step inputs start) (run step inputs start).2 := by
  have run_from : ∀ inputs past state, Holds past state →
      Holds (past ++ transcript step inputs state) (run step inputs state).2 := by
    intro inputs
    induction inputs with
    | nil =>
      intro past state holds
      rw [transcript, List.zip_nil_left, List.append_nil]
      exact holds
    | cons input rest ih =>
      intro past state holds
      rw [transcript_cons, List.append_cons]
      exact ih _ _ (keeps past input state holds)
  exact run_from inputs [] start holds

/-- What a machine answers to some of its inputs is what it answers to them alone, where the other
    inputs change nothing that these can see. -/
theorem run_filter {step : ι → σ → ο × σ} (mine : ι → Bool) (Agree : σ → σ → Prop)
    (same : ∀ input state state', mine input = true → Agree state state' →
      (step input state).1 = (step input state').1 ∧
        Agree (step input state).2 (step input state').2)
    (skip : ∀ input state state', mine input = false → Agree state state' →
      Agree (step input state).2 state')
    (inputs : List ι) {state state' : σ} (agree : Agree state state') :
    (transcript step inputs state).filter (fun entry => mine entry.1) =
        transcript step (inputs.filter mine) state' ∧
      Agree (run step inputs state).2 (run step (inputs.filter mine) state').2 := by
  induction inputs generalizing state state' with
  | nil => exact ⟨rfl, agree⟩
  | cons input rest ih =>
    cases here : mine input with
    | true =>
      obtain ⟨output, next⟩ := same input state state' here agree
      obtain ⟨outputs, last⟩ := ih next
      have inputs : (input :: rest).filter mine = input :: rest.filter mine :=
        List.filter_cons_of_pos here
      rw [inputs, transcript_cons, transcript_cons, ← outputs, ← output]
      exact ⟨List.filter_cons_of_pos here, last⟩
    | false =>
      obtain ⟨outputs, last⟩ := ih (skip input state state' here agree)
      have other : ¬ mine input = true := by simp [here]
      have inputs : (input :: rest).filter mine = rest.filter mine := List.filter_cons_of_neg other
      rw [inputs, transcript_cons, ← outputs]
      exact ⟨List.filter_cons_of_neg other, last⟩

end Machine
