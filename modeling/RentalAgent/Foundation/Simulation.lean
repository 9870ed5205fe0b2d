import RentalAgent.Foundation.Transition

/-! # Simulations

A system simulates a specification when an abstraction of its states turns each of its steps
into the requests that the step makes of the specification. Runs of the system are then runs of
the specification on the requests of their moments (`run_simulates`).
-/

namespace Transition

variable {State Action Abstract Request : Type*} {step : State → Action → State}
  {spec : Abstract → Request → Abstract} {abstraction : State → Abstract}
  {requests : State → Action → List Request} {permits : State → Action → Prop}
  {holds : State → Prop}

/-- Each permitted step is a run of the specification on the requests that it makes. -/
def Simulates (step : State → Action → State) (spec : Abstract → Request → Abstract)
    (abstraction : State → Abstract) (requests : State → Action → List Request)
    (permits : State → Action → Prop) (holds : State → Prop) : Prop :=
  ∀ state action, holds state → permits state action →
    abstraction (step state action) = run spec (abstraction state) (requests state action)

/-- The requests of a run: those of each action in the state it is taken in. -/
def requested (step : State → Action → State) (requests : State → Action → List Request)
    (state : State) (actions : List Action) : List Request :=
  (moments step state actions).flatMap fun moment => requests moment.1 moment.2

/-- **Simulation rule.** When steps keep an invariant and simulate a specification where it
holds, permitted runs simulate it. -/
theorem run_simulates (preserved : Preserved step permits holds)
    (simulates : Simulates step spec abstraction requests permits holds) {state : State}
    {actions : List Action} (start : holds state)
    (permitted : Permitted step permits state actions) :
    abstraction (run step state actions) =
      run spec (abstraction state) (requested step requests state actions) := by
  induction actions generalizing state with
  | nil => rfl
  | cons action rest ih =>
      obtain ⟨now, later⟩ := (permitted_cons state action rest).mp permitted
      rw [run_cons, ih (preserved state action start now) later,
        simulates state action start now, ← run_append]
      rfl

end Transition
