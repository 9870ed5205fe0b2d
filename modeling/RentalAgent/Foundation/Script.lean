import Mathlib.Tactic.Common

/-! # Scripts of transactions

A script is a program that works on a shared state by transactions, one after the other;
what a transaction reads decides how the script goes on. Each transaction is a step of
its own, so a script that raises has committed the transactions before. What every
transaction of a script guarantees holds of each step of it in any interleaving with
others (`Script.Guarantees`); a script that is alone has a trail of states
(`Script.Always`).
-/

/-- A program of transactions: each changes the state it finds and reads it. -/
inductive Script (State Result : Type)
  | done (result : Result)
  | transact (change : State → State) (rest : State → Script State Result)

namespace Script

variable {State Result Other : Type}

/-- A script followed by the one its result selects. -/
def bind : Script State Result → (Result → Script State Other) → Script State Other
  | .done result, next => next result
  | .transact change rest, next => .transact change fun state => (rest state).bind next

instance : Monad (Script State) where
  pure := .done
  bind := bind

/-- One transaction. -/
def transaction (work : State → State × Result) : Script State Result :=
  .transact (fun state => (work state).1) fun state => .done (work state).2

/-- The state after all transactions of a script that is alone, and its result. -/
def run : Script State Result → State → State × Result
  | .done result, state => (state, result)
  | .transact change rest, state => (rest state).run (change state)

@[simp] theorem run_pure (result : Result) (state : State) :
    (pure result : Script State Result).run state = (state, result) := rfl

@[simp] theorem run_transaction (work : State → State × Result) (state : State) :
    (transaction work).run state = work state := rfl

/-- The parts of a script run one after the other. -/
@[simp] theorem run_bind (script : Script State Result) (next : Result → Script State Other)
    (state : State) :
    (script >>= next).run state = (next (script.run state).2).run (script.run state).1 := by
  induction script generalizing state with
  | done result => rfl
  | transact change rest ih => exact ih state (change state)

/-! ## One transaction at a time -/

/-- The next transaction of a script, and what is left of it. -/
def advance : Script State Result → State → State × Script State Result
  | .done result, state => (state, .done result)
  | .transact change rest, state => (change state, rest state)

/-- Whatever states its transactions find, each makes a change that the relation allows. -/
inductive Guarantees (relation : State → State → Prop) : Script State Result → Prop
  | done (result : Result) : Guarantees relation (.done result)
  | transact {change : State → State} {rest : State → Script State Result}
      (changes : ∀ state, relation state (change state))
      (rests : ∀ state, Guarantees relation (rest state)) :
      Guarantees relation (.transact change rest)

section Guarantees

variable {relation : State → State → Prop} {script : Script State Result}

theorem guarantees_transaction {work : State → State × Result}
    (works : ∀ state, relation state (work state).1) : Guarantees relation (transaction work) :=
  .transact works fun _ => .done _

theorem Guarantees.bind {next : Result → Script State Other}
    (first : Guarantees relation script) (second : ∀ result, Guarantees relation (next result)) :
    Guarantees relation (script >>= next) := by
  induction first with
  | done result => exact second result
  | transact changes rests ih => exact .transact changes ih

/-- The guarantee of one transaction, and of what is left. -/
theorem Guarantees.advance (guarantees : Guarantees relation script)
    (stutter : ∀ state, relation state state) (state : State) :
    relation state (script.advance state).1 ∧ Guarantees relation (script.advance state).2 := by
  cases guarantees with
  | done result => exact ⟨stutter state, .done result⟩
  | transact changes rests => exact ⟨changes state, rests state⟩

end Guarantees

/-! ## The trail of a script that is alone -/

/-- The predicate holds in each state from the first one to the last. -/
def Always (holds : State → Prop) : Script State Result → State → Prop
  | .done _, state => holds state
  | .transact change rest, state => holds state ∧ (rest state).Always holds (change state)

section Always

variable {holds : State → Prop} {script : Script State Result} {state : State}

theorem Always.start (always : script.Always holds state) : holds state := by
  cases script with
  | done result => exact always
  | transact change rest => exact always.1

theorem Always.last (always : script.Always holds state) : holds (script.run state).1 := by
  induction script generalizing state with
  | done result => exact always
  | transact change rest ih => exact ih state always.2

@[simp] theorem always_pure (result : Result) :
    (pure result : Script State Result).Always holds state ↔ holds state := Iff.rfl

theorem always_transaction (work : State → State × Result) :
    (transaction work).Always holds state ↔ holds state ∧ holds (work state).1 := Iff.rfl

/-- A predicate holds throughout a script and its successor just when it does throughout each of
them. -/
theorem always_bind {next : Result → Script State Other} :
    (script >>= next).Always holds state ↔
      script.Always holds state ∧
        (next (script.run state).2).Always holds (script.run state).1 := by
  induction script generalizing state with
  | done result => exact ⟨fun always => ⟨always.start, always⟩, fun both => both.2⟩
  | transact change rest ih =>
      change holds state ∧ ((rest state).bind next).Always holds (change state) ↔ _
      rw [show (rest state).bind next = (rest state >>= next) from rfl, ih, ← and_assoc]
      rfl

/-- What every guaranteed change keeps holds all along. -/
theorem Guarantees.always {relation : State → State → Prop}
    (guarantees : Guarantees relation script)
    (keeps : ∀ state next, holds state → relation state next → holds next)
    (start : holds state) : script.Always holds state := by
  induction guarantees generalizing state with
  | done result => exact start
  | transact changes rests ih => exact ⟨start, ih state (keeps _ _ start (changes state))⟩

/-- Predicates that agree under an invariant hold all along together. -/
theorem always_congr {invariant other : State → Prop}
    (same : ∀ state, invariant state → (holds state ↔ other state))
    (always : script.Always invariant state) :
    script.Always holds state ↔ script.Always other state := by
  induction script generalizing state with
  | done result => exact same state always
  | transact change rest ih => exact and_congr (same state always.1) (ih state always.2)

end Always

end Script
