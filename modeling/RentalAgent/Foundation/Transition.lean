import Mathlib.Data.List.Basic

/-! # Runs of transition functions

A system is a transition function whose actions carry every choice made outside
it: clock readings, drawn identifiers, the answers of other parties. A run is a
list of actions, so statements about every interleaving are statements about
every list. The moments of a run pair each action with the state it is taken in;
conditions on a run and counts over it are stated on its moments.
-/

namespace Transition

variable {State Action : Type*} (step : State → Action → State)

/-- The state reached from `state` by taking `actions` in order. -/
def run (state : State) (actions : List Action) : State :=
  actions.foldl step state

@[simp] theorem run_nil (state : State) : run step state [] = state := rfl

@[simp] theorem run_cons (state : State) (action : Action) (rest : List Action) :
    run step state (action :: rest) = run step (step state action) rest := rfl

theorem run_append (state : State) (first second : List Action) :
    run step state (first ++ second) = run step (run step state first) second :=
  List.foldl_append

/-- Every action of a run together with the state it is taken in. -/
def moments (state : State) : List Action → List (State × Action)
  | [] => []
  | action :: rest => (state, action) :: moments (step state action) rest

@[simp] theorem moments_nil (state : State) : moments step state [] = [] := rfl

@[simp] theorem moments_cons (state : State) (action : Action) (rest : List Action) :
    moments step state (action :: rest) =
      (state, action) :: moments step (step state action) rest :=
  rfl

theorem moments_append (state : State) (first second : List Action) :
    moments step state (first ++ second) =
      moments step state first ++ moments step (run step state first) second := by
  induction first generalizing state with
  | nil => rfl
  | cons action rest ih => simp only [List.cons_append, moments_cons, run_cons, ih]

/-- Every action of the run is permitted in the state it is taken in. -/
def Permitted (permits : State → Action → Prop) (state : State) (actions : List Action) : Prop :=
  ∀ moment ∈ moments step state actions, permits moment.1 moment.2

instance (permits : State → Action → Prop) [∀ state action, Decidable (permits state action)]
    (state : State) (actions : List Action) : Decidable (Permitted step permits state actions) :=
  inferInstanceAs (Decidable (∀ moment ∈ moments step state actions, permits moment.1 moment.2))

variable {step} {permits : State → Action → Prop}

@[simp] theorem permitted_nil (state : State) : Permitted step permits state [] := by
  simp [Permitted]

@[simp] theorem permitted_cons (state : State) (action : Action) (rest : List Action) :
    Permitted step permits state (action :: rest) ↔
      permits state action ∧ Permitted step permits (step state action) rest := by
  simp [Permitted]

theorem permitted_append (state : State) (first second : List Action) :
    Permitted step permits state (first ++ second) ↔
      Permitted step permits state first ∧
        Permitted step permits (run step state first) second := by
  simp only [Permitted, moments_append, List.mem_append, or_imp, forall_and]

/-- A run permitted by a stronger condition is permitted by a weaker one. -/
theorem Permitted.mono {weaker : State → Action → Prop}
    (implies : ∀ state action, permits state action → weaker state action) {state : State}
    {actions : List Action} (permitted : Permitted step permits state actions) :
    Permitted step weaker state actions :=
  fun moment member => implies _ _ (permitted moment member)

/-- A condition on actions alone is a condition on the list of actions. -/
theorem permitted_of_forall {allowed : Action → Prop} {state : State} {actions : List Action}
    (only : ∀ action ∈ actions, allowed action) :
    Permitted step (fun _ action => allowed action) state actions := by
  induction actions generalizing state with
  | nil => exact permitted_nil state
  | cons action rest ih =>
      exact (permitted_cons state action rest).mpr ⟨only action List.mem_cons_self,
        ih fun other member => only other (List.mem_cons_of_mem _ member)⟩

/-- A relation between the states before and after a step that holds along sequences of
steps: what the steps leave alone, or how they may change it. -/
structure Composes (related : State → State → Prop) : Prop where
  refl (state : State) : related state state
  trans {first second third : State} (one : related first second)
    (other : related second third) : related first third

/-- **Frame rule.** What relates the states around each round of a loop relates those around
the loop. -/
theorem Composes.foldl {related : State → State → Prop} (composes : Composes related)
    {Loop Row : Type*} (state : Loop → State) {round : Loop → Row → Loop}
    (each : ∀ loop row, related (state loop) (state (round loop row))) (rows : List Row)
    (loop : Loop) : related (state loop) (state (rows.foldl round loop)) := by
  induction rows generalizing loop with
  | nil => exact composes.refl _
  | cons row rest ih => exact composes.trans (each loop row) (ih (round loop row))

/-- A property of states that every permitted step keeps. -/
def Preserved (step : State → Action → State) (permits : State → Action → Prop)
    (holds : State → Prop) : Prop :=
  ∀ state action, holds state → permits state action → holds (step state action)

/-- A run is permitted by both conditions when every step is. -/
theorem permitted_and {first second : State → Action → Prop} {state : State}
    {actions : List Action} :
    Permitted step (fun state action => first state action ∧ second state action) state actions ↔
      Permitted step first state actions ∧ Permitted step second state actions :=
  forall₂_and

/-- **Invariant rule.** What permitted steps keep holds at the end of a
permitted run. -/
theorem Preserved.run {holds : State → Prop} (preserved : Preserved step permits holds)
    {state : State} {actions : List Action} (start : holds state)
    (permitted : Permitted step permits state actions) :
    holds (Transition.run step state actions) := by
  induction actions generalizing state with
  | nil => exact start
  | cons action rest ih =>
      obtain ⟨now, later⟩ := (permitted_cons state action rest).mp permitted
      exact ih (preserved state action start now) later

/-- What permitted steps keep holds in every state the run passes through. -/
theorem Preserved.moments {holds : State → Prop} (preserved : Preserved step permits holds)
    {state : State} {actions : List Action} (start : holds state)
    (permitted : Permitted step permits state actions) :
    ∀ moment ∈ Transition.moments step state actions, holds moment.1 := by
  induction actions generalizing state with
  | nil => simp
  | cons action rest ih =>
      obtain ⟨now, later⟩ := (permitted_cons state action rest).mp permitted
      rintro moment (_ | ⟨_, member⟩)
      · exact start
      · exact ih (preserved state action start now) later moment member

/-- Two conditions that agree wherever an invariant holds permit the same runs, when
one of them keeps the invariant. -/
theorem permitted_congr {holds : State → Prop} {allowed good condition : State → Action → Prop}
    (preserved : Preserved step (fun state action => allowed state action ∧ condition state action)
      holds)
    (same : ∀ state action, holds state → allowed state action →
      (good state action ↔ condition state action))
    {state : State} {actions : List Action} (start : holds state)
    (only : Permitted step allowed state actions) :
    Permitted step good state actions ↔ Permitted step condition state actions := by
  induction actions generalizing state with
  | nil => simp
  | cons action rest ih =>
      obtain ⟨now, later⟩ := (permitted_cons state action rest).mp only
      rw [permitted_cons, permitted_cons, same state action start now]
      exact and_congr_right fun meets => ih (preserved state action start ⟨now, meets⟩) later

/-- Every state of a run has a property when the first one does and each step leads to
one that does. -/
theorem forall_prefix_iff (holds : State → Prop) {state : State} {actions : List Action} :
    (∀ earlier later, actions = earlier ++ later → holds (run step state earlier)) ↔
      holds state ∧
        Permitted step (fun state action => holds (step state action)) state actions := by
  induction actions generalizing state with
  | nil =>
      refine ⟨fun each => ⟨each [] [] rfl, permitted_nil state⟩, ?_⟩
      rintro ⟨start, _⟩ earlier later same
      rw [(List.append_eq_nil_iff.mp same.symm).1]
      exact start
  | cons action rest ih =>
      rw [permitted_cons, ← ih]
      constructor
      · intro each
        exact ⟨each [] _ rfl, fun earlier later same =>
          each (action :: earlier) later (by rw [same, List.cons_append])⟩
      · rintro ⟨start, each⟩ (_ | ⟨first, earlier⟩) later same
        · exact start
        · obtain ⟨rfl, rest⟩ := List.cons.inj same
          exact each earlier later rest

/-- When every step grows the state, every state of a run lies below the last one. -/
theorem permitted_below (below : State → State → Prop) (refl : ∀ state, below state state)
    (trans : ∀ {first middle last}, below first middle → below middle last → below first last)
    (grows : ∀ state action, below state (step state action)) (state : State)
    (actions : List Action) :
    Permitted step (fun earlier _ => below earlier (run step state actions)) state actions := by
  have ends : ∀ (actions : List Action) (state : State), below state (run step state actions) := by
    intro actions
    induction actions with
    | nil => exact refl
    | cons action rest ih => exact fun state => trans (grows state action) (ih _)
  induction actions generalizing state with
  | nil => exact permitted_nil state
  | cons action rest ih =>
      exact (permitted_cons state action rest).mpr ⟨ends (action :: rest) state, ih _⟩

/-- **Loss rule.** When every step that is not permitted loses something, and what is lost
stays lost, a run that ends without the loss was permitted. -/
theorem permitted_of_not_lost {holds lost : State → Prop}
    (preserved : Preserved step (fun _ _ => True) holds)
    (loses : ∀ state action, holds state → ¬ permits state action → lost (step state action))
    (stays : ∀ state action, holds state → lost state → lost (step state action))
    {state : State} {actions : List Action} (start : holds state)
    (kept : ¬ lost (run step state actions)) : Permitted step permits state actions := by
  induction actions generalizing state with
  | nil => exact permitted_nil state
  | cons action rest ih =>
      have valid := preserved state action start trivial
      refine (permitted_cons state action rest).mpr ⟨?_, ih valid kept⟩
      by_contra refused
      have both : Preserved step (fun _ _ => True) fun state => holds state ∧ lost state :=
        fun state action ⟨valid, gone⟩ _ =>
          ⟨preserved state action valid trivial, stays state action valid gone⟩
      exact kept (both.run ⟨valid, loses state action start refused⟩ fun _ _ => trivial).2

/-- **At most once.** When a firing spends something, what is spent stays spent,
and nothing fires once it is spent, a permitted run fires at most once. -/
theorem countP_moments_le_one {holds : State → Prop} (spent : State → Prop)
    {fires : State × Action → Bool} (preserved : Preserved step permits holds)
    (spends : ∀ state action, holds state → permits state action →
      fires (state, action) = true → spent (step state action))
    (stays : ∀ state action, holds state → permits state action →
      spent state → spent (step state action))
    (blocks : ∀ state action, holds state → spent state → fires (state, action) = false)
    {state : State} {actions : List Action} (start : holds state)
    (permitted : Permitted step permits state actions) :
    (Transition.moments step state actions).countP fires ≤ 1 := by
  have silent : ∀ (actions : List Action) (state : State), holds state → spent state →
      Permitted step permits state actions →
        (Transition.moments step state actions).countP fires = 0 := by
    intro actions
    induction actions with
    | nil => intro state _ _ _; rfl
    | cons action rest ih =>
        intro state valid gone permitted
        obtain ⟨now, later⟩ := (permitted_cons state action rest).mp permitted
        rw [moments_cons, List.countP_cons_of_neg (by simp [blocks state action valid gone])]
        exact ih _ (preserved state action valid now) (stays state action valid now gone) later
  induction actions generalizing state with
  | nil => simp
  | cons action rest ih =>
      obtain ⟨now, later⟩ := (permitted_cons state action rest).mp permitted
      have valid := preserved state action start now
      cases fired : fires (state, action) with
      | true =>
          have quiet := silent rest _ valid (spends state action start now fired) later
          rw [moments_cons, List.countP_cons_of_pos (by simpa using fired)]
          omega
      | false =>
          rw [moments_cons, List.countP_cons_of_neg (by simp [fired])]
          exact ih valid later

end Transition
