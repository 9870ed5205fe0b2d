import Mathlib.Tactic.Common

/-! # Dialogues with outside providers

A dialogue asks one request after the other, what it asks next depends on the answers,
and it ends with a result or fails with an error. A conversation is one course of it: its
exchanges, with any answers at all, and how it ended (`Conversation`). What holds of every
conversation holds whatever the providers do. A dialogue that heeds an alarm fails with
its error in just the conversations in which an answer raised the alarm
(`Heeds.ending_iff`).
-/

/-- A program that asks for answers and may fail. -/
inductive Dialogue (Request Answer Error Result : Type)
  | done (result : Result)
  | fail (error : Error)
  | ask (request : Request) (rest : Answer → Dialogue Request Answer Error Result)

namespace Dialogue

variable {Request Answer Error Result Other : Type}

/-- A dialogue followed by the one its result selects; a failure ends both. -/
def bind : Dialogue Request Answer Error Result →
    (Result → Dialogue Request Answer Error Other) → Dialogue Request Answer Error Other
  | .done result, next => next result
  | .fail error, _ => .fail error
  | .ask request rest, next => .ask request fun answer => (rest answer).bind next

instance : Monad (Dialogue Request Answer Error) where
  pure := .done
  bind := bind

/-- One request. -/
def inquire (request : Request) : Dialogue Request Answer Error Answer := .ask request .done

/-- A computation that asks nothing. -/
def lift : Except Error Result → Dialogue Request Answer Error Result
  | .ok result => .done result
  | .error error => .fail error

/-- A dialogue whose failure is caught. -/
def attempt : Dialogue Request Answer Error Result →
    Dialogue Request Answer Error (Except Error Result)
  | .done result => .done (.ok result)
  | .fail error => .done (.error error)
  | .ask request rest => .ask request fun answer => (rest answer).attempt

/-- The exchanges and the ending, when the answers are given by what was exchanged before
and the request. -/
def converse (respond : List (Request × Answer) → Request → Answer) :
    List (Request × Answer) → Dialogue Request Answer Error Result →
      List (Request × Answer) × Except Error Result
  | _, .done result => ([], .ok result)
  | _, .fail error => ([], .error error)
  | past, .ask request rest =>
      let exchange := (request, respond past request)
      let later := (rest exchange.2).converse respond (past ++ [exchange])
      (exchange :: later.1, later.2)

/-! ## Conversations -/

/-- The exchanges are one course of the dialogue, and this is how it ended. -/
inductive Conversation : Dialogue Request Answer Error Result → List (Request × Answer) →
    Except Error Result → Prop
  | done (result : Result) : Conversation (.done result) [] (.ok result)
  | fail (error : Error) : Conversation (.fail error) [] (.error error)
  | ask {request : Request} {rest : Answer → Dialogue Request Answer Error Result}
      {talk : List (Request × Answer)} {ending : Except Error Result} (answer : Answer)
      (later : Conversation (rest answer) talk ending) :
      Conversation (.ask request rest) ((request, answer) :: talk) ending

section Conversation

variable {dialogue : Dialogue Request Answer Error Result}
  {next : Result → Dialogue Request Answer Error Other} {talk : List (Request × Answer)}

/-- Whatever is answered, there is a conversation. -/
theorem conversation_converse (respond : List (Request × Answer) → Request → Answer)
    (past : List (Request × Answer)) (dialogue : Dialogue Request Answer Error Result) :
    Conversation dialogue (dialogue.converse respond past).1
      (dialogue.converse respond past).2 := by
  induction dialogue generalizing past with
  | done result => exact .done result
  | fail error => exact .fail error
  | ask request rest ih => exact .ask _ (ih _ _)

/-- A dialogue that is done exchanges nothing and returns its result. -/
@[simp] theorem conversation_pure {result : Result} {ending : Except Error Result} :
    Conversation (pure result : Dialogue Request Answer Error Result) talk ending ↔
      talk = [] ∧ ending = .ok result := by
  constructor
  · intro conversation
    cases conversation
    exact ⟨rfl, rfl⟩
  · rintro ⟨rfl, rfl⟩
    exact .done result

/-- A computation that asks nothing exchanges nothing and ends as it does. -/
@[simp] theorem conversation_lift {outcome ending : Except Error Result} :
    Conversation (lift outcome : Dialogue Request Answer Error Result) talk ending ↔
      talk = [] ∧ ending = outcome := by
  constructor
  · intro conversation
    cases outcome with
    | ok result => exact conversation_pure.mp conversation
    | error error =>
        cases conversation
        exact ⟨rfl, rfl⟩
  · rintro ⟨rfl, rfl⟩
    cases ending with
    | ok result => exact .done result
    | error error => exact .fail error

/-- A request is one exchange and ends with its answer. -/
theorem conversation_inquire {asked : Request} {ending : Except Error Answer} :
    Conversation (inquire asked) talk ending ↔
      ∃ answer, talk = [(asked, answer)] ∧ ending = .ok answer := by
  constructor
  · intro conversation
    cases conversation with
    | ask answer later =>
        cases later
        exact ⟨answer, rfl, rfl⟩
  · rintro ⟨answer, rfl, rfl⟩
    exact .ask answer (.done answer)

/-- A dialogue and the next one: the first fails, or both are held one after the other. -/
theorem conversation_bind {ending : Except Error Other} :
    Conversation (dialogue >>= next) talk ending ↔
      (∃ error, Conversation dialogue talk (.error error) ∧ ending = .error error) ∨
        ∃ result first second, Conversation dialogue first (.ok result) ∧
          Conversation (next result) second ending ∧ talk = first ++ second := by
  constructor
  · intro conversation
    induction dialogue generalizing talk with
    | done result => exact .inr ⟨result, [], talk, .done result, conversation, rfl⟩
    | fail error =>
        cases conversation
        exact .inl ⟨error, .fail error, rfl⟩
    | ask request rest ih =>
        cases conversation with
        | ask answer later =>
            rcases ih answer later with
              ⟨error, failed, rfl⟩ | ⟨result, first, second, held, more, rfl⟩
            · exact .inl ⟨error, .ask answer failed, rfl⟩
            · exact .inr ⟨result, _, second, .ask answer held, more, rfl⟩
  · rintro (⟨error, failed, rfl⟩ | ⟨result, first, second, held, later, rfl⟩)
    · generalize same : (Except.error error : Except Error Result) = end' at failed
      induction failed with
      | done result => cases same
      | fail other =>
          cases same
          exact .fail error
      | ask answer _ ih => exact .ask answer (ih same)
    · generalize same : (Except.ok result : Except Error Result) = end' at held
      induction held with
      | done other =>
          cases same
          exact later
      | fail other => cases same
      | ask answer _ ih => exact .ask answer (ih same)

/-- Catching a failure leaves the course of a dialogue as it was. -/
@[simp] theorem conversation_attempt {outcome : Except Error Result} :
    Conversation dialogue.attempt talk (.ok outcome) ↔ Conversation dialogue talk outcome := by
  constructor
  · intro conversation
    induction dialogue generalizing talk with
    | done result =>
        cases conversation
        exact .done result
    | fail error =>
        cases conversation
        exact .fail error
    | ask request rest ih =>
        cases conversation with
        | ask answer later => exact .ask answer (ih answer later)
  · intro conversation
    induction conversation with
    | done result => exact .done _
    | fail error => exact .done _
    | ask answer _ ih => exact .ask answer ih

/-- A dialogue whose failure is caught does not fail. -/
theorem not_conversation_attempt {error : Error} :
    ¬Conversation dialogue.attempt talk (.error error) := by
  intro conversation
  induction dialogue generalizing talk with
  | done result => cases conversation
  | fail error => cases conversation
  | ask request rest ih =>
      cases conversation with
      | ask answer later => exact ih answer later

end Conversation

/-! ## Alarms -/

/-- The dialogue fails with the error as soon as an answer raises the alarm, and it does
not fail with it otherwise. -/
inductive Heeds (alarm : Request → Answer → Prop) (error : Error) :
    Dialogue Request Answer Error Result → Prop
  | done (result : Result) : Heeds alarm error (.done result)
  | fail {other : Error} (differs : other ≠ error) : Heeds alarm error (.fail other)
  | ask {request : Request} {rest : Answer → Dialogue Request Answer Error Result}
      (alarmed : ∀ answer, alarm request answer → rest answer = .fail error)
      (quiet : ∀ answer, ¬alarm request answer → Heeds alarm error (rest answer)) :
      Heeds alarm error (.ask request rest)

section Heeds

variable {alarm : Request → Answer → Prop} {error : Error}
  {dialogue : Dialogue Request Answer Error Result}

theorem heeds_lift {outcome : Except Error Result} (quiet : outcome ≠ .error error) :
    Heeds alarm error (lift outcome : Dialogue Request Answer Error Result) := by
  cases outcome with
  | ok result => exact .done result
  | error other => exact .fail fun same => quiet (congrArg Except.error same)

/-- A request whose alarm makes the dialogue fail. -/
theorem heeds_inquire {request : Request} {next : Answer → Dialogue Request Answer Error Result}
    (alarmed : ∀ answer, alarm request answer → next answer = .fail error)
    (quiet : ∀ answer, ¬alarm request answer → Heeds alarm error (next answer)) :
    Heeds alarm error (inquire request >>= next) := .ask alarmed quiet

/-- A dialogue that heeds an alarm, followed by ones that do, heeds it. -/
theorem Heeds.bind {next : Result → Dialogue Request Answer Error Other}
    (first : Heeds alarm error dialogue) (second : ∀ result, Heeds alarm error (next result)) :
    Heeds alarm error (dialogue >>= next) := by
  induction first with
  | done result => exact second result
  | fail differs => exact .fail differs
  | ask alarmed _ ih =>
      refine .ask (fun answer raised => ?_) ih
      rw [alarmed answer raised]
      rfl

/-- It fails with the error in just the conversations in which the alarm was raised. -/
theorem Heeds.ending_iff (heeds : Heeds alarm error dialogue) {talk : List (Request × Answer)}
    {ending : Except Error Result} (conversation : Conversation dialogue talk ending) :
    ending = .error error ↔ ∃ exchange ∈ talk, alarm exchange.1 exchange.2 := by
  induction heeds generalizing talk with
  | done result =>
      cases conversation
      simp
  | fail differs =>
      cases conversation
      simpa using differs
  | @ask request rest alarmed _ ih =>
      cases conversation with
      | ask answer later =>
          by_cases raised : alarm request answer
          · rw [alarmed answer raised] at later
            cases later
            simpa using raised
          · rw [ih answer raised later]
            simp [raised]

end Heeds

end Dialogue
