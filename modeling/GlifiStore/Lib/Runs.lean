import Mathlib

/-!
# Guarded runs

Runs of a deterministic machine under a condition that every step must meet
before it is taken.
-/

namespace Runs

variable {σ ι : Type}

def run (step : σ → ι → σ) (state : σ) (inputs : List ι) : σ :=
  inputs.foldl step state

/-- Every input of the run meets the condition in the state it is taken in. -/
def Guarded (step : σ → ι → σ) (guard : σ → ι → Prop) : σ → List ι → Prop
  | _, [] => True
  | state, input :: rest => guard state input ∧ Guarded step guard (step state input) rest

instance decidableGuarded (step : σ → ι → σ) (guard : σ → ι → Prop)
    [∀ state input, Decidable (guard state input)] :
    ∀ state inputs, Decidable (Guarded step guard state inputs)
  | _, [] => inferInstanceAs (Decidable True)
  | state, input :: rest =>
    have := decidableGuarded step guard (step state input) rest
    inferInstanceAs (Decidable (guard state input ∧ Guarded step guard (step state input) rest))

theorem run_invariant {step : σ → ι → σ} {property : σ → Prop}
    (preserved : ∀ state input, property state → property (step state input)) {state : σ}
    (initial : property state) (inputs : List ι) : property (run step state inputs) := by
  induction inputs generalizing state with
  | nil => exact initial
  | cons input rest ih => exact ih (preserved state input initial)

theorem Guarded.invariant {step : σ → ι → σ} {guard : σ → ι → Prop} {property : σ → Prop}
    (preserved : ∀ state input, property state → guard state input → property (step state input))
    {state : σ} {inputs : List ι} (guarded : Guarded step guard state inputs)
    (initial : property state) : property (run step state inputs) := by
  induction inputs generalizing state with
  | nil => exact initial
  | cons input rest ih =>
    obtain ⟨here, later⟩ := guarded
    exact ih later (preserved state input initial here)

end Runs
