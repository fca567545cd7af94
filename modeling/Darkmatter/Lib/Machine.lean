/-
**Machines that take one step after another.**

A machine has states and steps, and a step has one outcome. A condition may ask something of every
step of a run, in the state in which the step is taken:

* `Along` — a condition on every step of a run;
* `Along.invariant` — **what such steps keep holds at the end of the run**.
-/

import Mathlib.Data.List.Basic

namespace Darkmatter.Lib

section Machine

variable {σ α : Type} (step : σ → α → σ) (allowed : σ → α → Prop)

/-- **Every step of the run is allowed** in the state in which it is taken. -/
def Along : σ → List α → Prop
  | _, [] => True
  | state, action :: rest => allowed state action ∧ Along (step state action) rest

instance Along.decidable [∀ state action, Decidable (allowed state action)] :
    ∀ (state : σ) (actions : List α), Decidable (Along step allowed state actions)
  | _, [] => inferInstanceAs (Decidable True)
  | state, action :: rest =>
    have := Along.decidable (step state action) rest
    inferInstanceAs (Decidable (_ ∧ _))

variable {step allowed} {state : σ} {actions rest : List α}

/-- **The rule of invariants.** -/
theorem Along.invariant {Invariant : σ → Prop} (along : Along step allowed state actions)
    (initial : Invariant state)
    (keeps : ∀ state action, Invariant state → allowed state action →
      Invariant (step state action)) : Invariant (actions.foldl step state) := by
  induction actions generalizing state with
  | nil => exact initial
  | cons action rest ih => exact ih along.2 (keeps state action initial along.1)

theorem Along.imp {weaker : σ → α → Prop} (along : Along step allowed state actions)
    (implies : ∀ state action, allowed state action → weaker state action) :
    Along step weaker state actions := by
  induction actions generalizing state with
  | nil => trivial
  | cons action rest ih => exact ⟨implies state action along.1, ih along.2⟩

end Machine

end Darkmatter.Lib
