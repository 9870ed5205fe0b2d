import RentalAgent.Canonical.Normalization
import RentalAgent.Enrichment.Portfolio
import RentalAgent.Foundation.Dialogue

/-! # Calls of the hosted models

`OpenAiLlmExecutor.execute` asks one model, and `TieredLlmExecutor.execute_tiered` composes two
of them under a bounded policy: one call of the default model, one repair when its output does
not read, one escalation to the flagship, and then review by a human. Both are dialogues with
the providers, so what is proved holds whatever these answer. The composition makes at most
three requests, all with the same content, and asks for review in just the dialogues in which
no answer reads (`Llm.tiered_calls`).
-/

namespace RentalAgent.Llm

open Dialogue Relational

/-! ## Requests and answers -/

/-- `ModelTier`. -/
inductive ModelTier
  | localModel | defaultHosted | flagshipEscalation
  deriving DecidableEq

/-- `LlmTaskRequest`; the references of its input are not sent. -/
structure TaskRequest (Json : Type) where
  taskType : String
  promptVersion : String
  outputSchemaVersion : String
  inputPayload : Json
  outputSchema : Option Json := none
  tier : ModelTier := .defaultHosted

/-- `LlmTaskResult`. -/
structure TaskResult (Json : Type) where
  status : ModelExecutionStatus
  output : Option Json := none
  modelId : String := ""
  inputTokens : Option Nat := none
  outputTokens : Option Nat := none
  errorCode : Option String := none

/-- The content of a request. It has instructions for the output when it has a schema. -/
structure Envelope (Json : Type) where
  taskType : String
  promptVersion : String
  outputSchemaVersion : String
  untrustedInput : Json
  outputSchema : Option Json

/-- A request to a provider: of chat completions, or of a response with tools. -/
inductive ModelCall (Json : Type)
  | chat (modelId : String) (envelope : Envelope Json)
  | response (modelId reasoningEffort : String) (webSearch : Bool) (envelope : Envelope Json)

/-- The counters of `usage`, by the names that either interface has for them. -/
structure Usage where
  inputTokens : Option Nat := none
  promptTokens : Option Nat := none
  outputTokens : Option Nat := none
  completionTokens : Option Nat := none

/-- What a provider answers: it raises an exception of some type, or gives a text or none. -/
inductive ModelAnswer
  | raised (typeName : String)
  | answered (text : Option (List Char)) (usage : Usage)

/-- What `json.loads` makes of a text that it does not refuse with a `JSONDecodeError`: an
object, `null`, something else, or another exception. An integer of too many digits is a plain
`ValueError`, and what is nested too deeply is a `RecursionError`. -/
inductive Loaded (Json : Type)
  | object (value : Json)
  | null
  | other
  | raises (typeName : String)

/-- The exceptions that a call lets through: the `ValidationError` of a result whose output is
no object, and what `json.loads` raises beside a `JSONDecodeError`. -/
inductive Failure
  | validationError
  | loading (typeName : String)
  deriving DecidableEq

/-- A dialogue with the providers. -/
abbrev Talk (Json Result : Type) := Dialogue (ModelCall Json) ModelAnswer Failure Result

variable {Json : Type}

/-! ## One model -/

/-- `OpenAiLlmExecutor`: a custom base URL selects the chat interface. -/
structure Executor where
  modelId : String
  reasoningEffort : String
  chatApi : Bool := false
  webSearchTaskTypes : List String :=
    ["commute_research", "nearby_poi_research", "amenity_research"]

/-- `text.removeprefix("json")`. -/
def removeJson (text : List Char) : List Char :=
  if "json".toList <+: text then text.drop 4 else text

/-- The answer of a chat model without its fence. -/
def unfence (text : List Char) : List Char :=
  if "```".toList <+: strip text then
    strip (removeJson (stripChars ['\x60', '\n'] (strip text)))
  else strip text

namespace Executor

variable (executor : Executor)

/-- The content of the request. -/
def envelope (request : TaskRequest Json) : Envelope Json where
  taskType := request.taskType
  promptVersion := request.promptVersion
  outputSchemaVersion := request.outputSchemaVersion
  untrustedInput := request.inputPayload
  outputSchema := request.outputSchema

/-- The request to the provider. -/
def call (request : TaskRequest Json) : ModelCall Json :=
  if executor.chatApi then .chat executor.modelId (envelope request)
  else .response executor.modelId executor.reasoningEffort
    (request.taskType ∈ executor.webSearchTaskTypes) (envelope request)

/-- The text that is read. -/
def textOf (text : List Char) : List Char := if executor.chatApi then unfence text else text

def failed (errorCode : String) : TaskResult Json :=
  { status := .failed, modelId := executor.modelId, errorCode := some errorCode }

/-- The result of an answer. -/
def read (loads : List Char → Option (Loaded Json)) :
    ModelAnswer → Except Failure (TaskResult Json)
  | .raised typeName => .ok (executor.failed ("PROVIDER_" ++ typeName))
  | .answered text usage =>
      let succeeded (output : Option Json) : TaskResult Json :=
        { status := .succeeded
          output := output
          modelId := executor.modelId
          inputTokens := usage.inputTokens.filter (· ≠ 0) <|> usage.promptTokens
          outputTokens := usage.outputTokens.filter (· ≠ 0) <|> usage.completionTokens }
      match text.filter (executor.textOf · ≠ []) with
      | none => .ok (executor.failed "EMPTY_OUTPUT")
      | some text =>
          match loads (executor.textOf text) with
          | none => .ok (executor.failed "LLM_SCHEMA_FAILURE")
          | some (.object value) => .ok (succeeded (some value))
          | some .null => .ok (succeeded none)
          | some .other => .error .validationError
          | some (.raises typeName) => .error (.loading typeName)

/-- `OpenAiLlmExecutor.execute`. -/
def execute (loads : List Char → Option (Loaded Json)) (request : TaskRequest Json) :
    Talk Json (TaskResult Json) := do
  let answer ← inquire (executor.call request)
  lift (executor.read loads answer)

end Executor

/-! ## Two tiers -/

/-- A validator: none when the output is acceptable, or a reason for its rejection. -/
abbrev Validator (Json : Type) := TaskRequest Json → TaskResult Json → Option String

/-- An entry of `attempts`. -/
structure Attempt where
  attempt : String
  tier : ModelTier
  rejection : String
  deriving DecidableEq

/-- `TieredOutcome`. -/
structure TieredOutcome (Json : Type) where
  result : TaskResult Json
  tierUsed : ModelTier
  attempts : List Attempt
  needsHumanReview : Bool := false

/-- The text, or another when it is absent or empty. -/
def orElse (text : Option String) (other : String) : String := (truthy text).getD other

/-- Why a result is rejected. -/
def rejectionOf (validator : Option (Validator Json)) (request : TaskRequest Json)
    (result : TaskResult Json) : Option String :=
  if result.status ≠ .succeeded then some (orElse result.errorCode "EXECUTION_FAILED")
  else validator.bind fun validate => validate request result

/-- The rejections that a second call of the default model may repair. -/
def repairable : List String := ["LLM_SCHEMA_FAILURE", "EMPTY_OUTPUT"]

/-- `TieredLlmExecutor`. -/
structure TieredExecutor (Json : Type) where
  default : TaskRequest Json → Talk Json (TaskResult Json)
  flagship : TaskRequest Json → Talk Json (TaskResult Json)
  validator : Option (Validator Json) := none

namespace TieredExecutor

variable (tiers : TieredExecutor Json) (request : TaskRequest Json)

/-- `attempt`: the result, why it is rejected, and the entry. -/
def attempt (executor : TaskRequest Json → Talk Json (TaskResult Json)) (tier : ModelTier)
    (label : String) : Talk Json (TaskResult Json × Option String × Attempt) := do
  let tierRequest := { request with tier := tier }
  let result ← executor tierRequest
  let rejection := rejectionOf tiers.validator tierRequest result
  return (result, rejection, ⟨label, tier, orElse rejection "ACCEPTED"⟩)

/-- The escalation and what is left when it fails. -/
def escalate (attempts : List Attempt) : Talk Json (TieredOutcome Json) := do
  let (result, rejection, entry) ←
    tiers.attempt request tiers.flagship .flagshipEscalation "flagship"
  match rejection with
  | none =>
      return {
        result := result
        tierUsed := .flagshipEscalation
        attempts := attempts ++ [entry] }
  | some reason =>
      return {
        result :=
          if result.status ≠ .succeeded then result
          else { status := .failed, modelId := result.modelId, errorCode := some reason }
        tierUsed := .flagshipEscalation
        attempts := attempts ++ [entry]
        needsHumanReview := true }

/-- `execute_tiered`. -/
def executeTiered : Talk Json (TieredOutcome Json) := do
  let (result, rejection, first) ← tiers.attempt request tiers.default .defaultHosted "default"
  match rejection with
  | none => return { result := result, tierUsed := .defaultHosted, attempts := [first] }
  | some reason =>
      if reason ∈ repairable then
        let (result, rejection, second) ←
          tiers.attempt request tiers.default .defaultHosted "repair"
        match rejection with
        | none =>
            return { result := result, tierUsed := .defaultHosted, attempts := [first, second] }
        | some _ => tiers.escalate request [first, second]
      else tiers.escalate request [first]

end TieredExecutor

/-! ## Courses of the two tiers -/

/-- One call of an executor: its entry, its result, why it was rejected, and the exchanges. -/
structure Trial (Json : Type) where
  entry : Attempt
  result : TaskResult Json
  rejection : Option String
  talk : List (ModelCall Json × ModelAnswer)

namespace TieredExecutor

/-- The executor of a tier. -/
def executor (tiers : TieredExecutor Json) : ModelTier → TaskRequest Json →
    Talk Json (TaskResult Json)
  | .flagshipEscalation => tiers.flagship
  | .defaultHosted | .localModel => tiers.default

/-- The trial took place: the request was asked of the executor of its tier. -/
structure Held (tiers : TieredExecutor Json) (request : TaskRequest Json)
    (trial : Trial Json) : Prop where
  talk : Conversation (tiers.executor trial.entry.tier { request with tier := trial.entry.tier })
    trial.talk (.ok trial.result)
  rejection : trial.rejection =
    rejectionOf tiers.validator { request with tier := trial.entry.tier } trial.result
  entry : trial.entry.rejection = orElse trial.rejection "ACCEPTED"

/-- The orders in which the tiers may be asked. -/
def orders : List (List (String × ModelTier)) :=
  [[("default", .defaultHosted)],
    [("default", .defaultHosted), ("repair", .defaultHosted)],
    [("default", .defaultHosted), ("flagship", .flagshipEscalation)],
    [("default", .defaultHosted), ("repair", .defaultHosted),
      ("flagship", .flagshipEscalation)]]

/-- The outcome of trials under the policy. A trial is rejected when another follows it, the
second one is a repair just when the first was rejected for what a repair may cure, and a
human reviews the request when the flagship was rejected as well. -/
structure Bounded (first : Trial Json) (later : List (Trial Json))
    (outcome : TieredOutcome Json) : Prop where
  order : (first :: later).map (fun trial => (trial.entry.attempt, trial.entry.tier)) ∈ orders
  rejected : ∀ trial ∈ (first :: later).dropLast, trial.rejection.isSome = true
  repaired : (∃ trial ∈ later, trial.entry.attempt = "repair") ↔
    ∃ reason ∈ first.rejection, reason ∈ repairable
  attempts : outcome.attempts = (first :: later).map Trial.entry
  review : outcome.needsHumanReview = true ↔
    ∀ trial ∈ first :: later, trial.rejection.isSome = true
  escalated : outcome.needsHumanReview = true → outcome.tierUsed = .flagshipEscalation ∧
    outcome.result.status ≠ .succeeded
  accepted : outcome.needsHumanReview = false → ∃ last ∈ (first :: later).getLast?,
    last.rejection = none ∧ outcome.result = last.result ∧ outcome.tierUsed = last.entry.tier

variable {tiers : TieredExecutor Json} {request : TaskRequest Json}
  {talk : List (ModelCall Json × ModelAnswer)} {outcome : TieredOutcome Json}

/-- An attempt is one course of its executor, with the rejection that its validation gives. -/
theorem conversation_attempt {executor : TaskRequest Json → Talk Json (TaskResult Json)}
    {tier : ModelTier} {label : String} {result : TaskResult Json} {rejection : Option String}
    {entry : Attempt} (held : Conversation (tiers.attempt request executor tier label) talk
      (.ok (result, rejection, entry))) (same : tiers.executor tier = executor) :
    entry.attempt = label ∧ entry.tier = tier ∧
      Held tiers request ⟨entry, result, rejection, talk⟩ := by
  subst same
  rcases conversation_bind.mp held with ⟨_, -, impossible⟩ | ⟨made, first, second, asked, last, rfl⟩
  · cases impossible
  · obtain ⟨rfl, returned⟩ := conversation_pure.mp last
    cases returned
    refine ⟨rfl, rfl, ?_, rfl, rfl⟩
    rw [List.append_nil]
    exact asked

/-- An escalation is one trial of the flagship, and a human reviews its rejection. -/
structure Escalated (tiers : TieredExecutor Json) (request : TaskRequest Json)
    (attempts : List Attempt) (last : Trial Json) (outcome : TieredOutcome Json) : Prop where
  held : Held tiers request last
  label : last.entry.attempt = "flagship"
  tier : last.entry.tier = .flagshipEscalation
  attempts : outcome.attempts = attempts ++ [last.entry]
  tierUsed : outcome.tierUsed = .flagshipEscalation
  review : outcome.needsHumanReview = last.rejection.isSome
  accepted : last.rejection = none → outcome.result = last.result
  refused : last.rejection.isSome = true → outcome.result.status ≠ .succeeded

/-- An escalation that returns is a trial of the flagship. -/
theorem exists_escalated {attempts : List Attempt}
    (held : Conversation (tiers.escalate request attempts) talk (.ok outcome)) :
    ∃ last : Trial Json, talk = last.talk ∧ Escalated tiers request attempts last outcome := by
  rcases conversation_bind.mp held with ⟨_, -, impossible⟩ |
    ⟨⟨result, rejection, entry⟩, first, second, asked, last, rfl⟩
  · cases impossible
  obtain ⟨label, tier, tried⟩ := conversation_attempt asked rfl
  refine ⟨⟨entry, result, rejection, first⟩, ?_⟩
  cases rejection with
  | none =>
      obtain ⟨rfl, returned⟩ := conversation_pure.mp last
      cases returned
      exact ⟨List.append_nil _, tried, label, tier, rfl, rfl, rfl, fun _ => rfl,
        fun impossible => by cases impossible⟩
  | some reason =>
      obtain ⟨rfl, returned⟩ := conversation_pure.mp last
      cases returned
      refine ⟨List.append_nil _, tried, label, tier, rfl, rfl, rfl,
        fun impossible => (by cases impossible), fun _ => ?_⟩
      dsimp only
      split
      · assumption
      · exact nofun

/-- Rejected calls of the default model, and the flagship. -/
theorem Escalated.bounded {first last : Trial Json} {later : List (Trial Json)}
    (escalated : Escalated tiers request ((first :: later).map Trial.entry) last outcome)
    (order : (first :: (later ++ [last])).map
      (fun trial => (trial.entry.attempt, trial.entry.tier)) ∈ orders)
    (rejected : ∀ trial ∈ first :: later, trial.rejection.isSome = true)
    (repaired : (∃ trial ∈ later, trial.entry.attempt = "repair") ↔
      ∃ reason ∈ first.rejection, reason ∈ repairable) :
    Bounded first (later ++ [last]) outcome where
  order := order
  rejected := by
    rw [← List.cons_append, List.dropLast_concat]
    exact rejected
  repaired := by
    rw [← repaired]
    constructor
    · rintro ⟨trial, member, named⟩
      rcases List.mem_append.mp member with earlier | only
      · exact ⟨trial, earlier, named⟩
      · rw [List.mem_singleton.mp only, escalated.label] at named
        exact absurd named (by decide)
    · rintro ⟨trial, member, named⟩
      exact ⟨trial, List.mem_append_left _ member, named⟩
  attempts := by
    rw [escalated.attempts, ← List.cons_append, List.map_append]
    rfl
  review := by
    rw [escalated.review, ← List.cons_append]
    constructor
    · intro refused trial member
      rcases List.mem_append.mp member with earlier | only
      · exact rejected trial earlier
      · exact List.mem_singleton.mp only ▸ refused
    · intro every
      exact every last (List.mem_append_right _ (List.mem_singleton_self _))
  escalated refused := ⟨escalated.tierUsed, escalated.refused (escalated.review ▸ refused)⟩
  accepted fine := by
    have none : last.rejection = none := by
      rw [escalated.review] at fine
      exact Option.isSome_eq_false_iff.mp fine |> Option.isNone_iff_eq_none.mp
    refine ⟨last, ?_, none, escalated.accepted none, escalated.tierUsed.trans escalated.tier.symm⟩
    rw [← List.cons_append, List.getLast?_concat]
    rfl

/-- The two tiers are tried under the policy, whatever the executors do. -/
theorem exists_trials (held : Conversation (tiers.executeTiered request) talk (.ok outcome)) :
    ∃ first later, (∀ trial ∈ first :: later, Held tiers request trial) ∧
      talk = (first :: later).flatMap Trial.talk ∧ Bounded first later outcome := by
  rcases conversation_bind.mp held with ⟨_, -, impossible⟩ |
    ⟨⟨result, rejection, entry⟩, front, back, asked, rest, rfl⟩
  · cases impossible
  obtain ⟨label, tier, tried⟩ := conversation_attempt asked rfl
  cases rejection with
  | none =>
      obtain ⟨rfl, returned⟩ := conversation_pure.mp rest
      cases returned
      refine ⟨⟨entry, result, none, front⟩, [], by simpa using tried, by simp, ?_⟩
      constructor <;> simp [orders, label, tier]
  | some reason =>
      dsimp only at rest
      split at rest
      · rename_i cures
        rcases conversation_bind.mp rest with ⟨_, -, impossible⟩ |
          ⟨⟨second, refusal, again⟩, middle, last, repaired, rest, rfl⟩
        · cases impossible
        obtain ⟨secondLabel, secondTier, secondTried⟩ := conversation_attempt repaired rfl
        cases refusal with
        | none =>
            obtain ⟨rfl, returned⟩ := conversation_pure.mp rest
            cases returned
            refine ⟨⟨entry, result, some reason, front⟩, [⟨again, second, none, middle⟩],
              by simpa using ⟨tried, secondTried⟩, by simp, ?_⟩
            constructor <;> simp [orders, label, tier, secondLabel, secondTier, cures]
        | some refusal =>
            obtain ⟨flagship, rfl, escalated⟩ := exists_escalated rest
            refine ⟨⟨entry, result, some reason, front⟩,
              [⟨again, second, some refusal, middle⟩] ++ [flagship],
              by simpa using ⟨tried, secondTried, escalated.held⟩, by simp,
              Escalated.bounded escalated ?_ (by simp) (by simp [secondLabel, cures])⟩
            simp [orders, label, tier, secondLabel, secondTier, escalated.label, escalated.tier]
      · rename_i beyond
        obtain ⟨flagship, rfl, escalated⟩ := exists_escalated rest
        refine ⟨⟨entry, result, some reason, front⟩, [] ++ [flagship],
          by simpa using ⟨tried, escalated.held⟩, by simp,
          Escalated.bounded escalated ?_ (by simp) (by simp [beyond])⟩
        simp [orders, label, tier, escalated.label, escalated.tier]

end TieredExecutor

/-! ## Two models -/

/-- `build_tiered_executor_from_settings`, for any two models. -/
def tiersOf (loads : List Char → Option (Loaded Json)) (terra sol : Executor) :
    TieredExecutor Json where
  default := terra.execute loads
  flagship := sol.execute loads

/-- The text of an answer that is read, by the interface that was asked. -/
def ModelCall.textOf : ModelCall Json → List Char → List Char
  | .chat .., text => unfence text
  | .response .., text => text

/-- What a model answers to a request; an answer on which the call fails with an exception
`raises` it. -/
inductive Reading (Json : Type)
  | unreachable (typeName : String)
  | empty
  | noJson
  | raises (failure : Failure)
  | output (output : Option Json)

/-- What a text reads as. -/
def Reading.ofText (loads : List Char → Option (Loaded Json)) (text : List Char) :
    Reading Json :=
  if text = [] then .empty
  else match loads text with
    | none => .noJson
    | some .other => .raises .validationError
    | some (.raises typeName) => .raises (.loading typeName)
    | some .null => .output none
    | some (.object value) => .output (some value)

/-- What the answer of an exchange reads as. -/
def reading (loads : List Char → Option (Loaded Json)) :
    ModelCall Json × ModelAnswer → Reading Json
  | (_, .raised typeName) => .unreachable typeName
  | (_, .answered none _) => .empty
  | (call, .answered (some text) _) => .ofText loads (call.textOf text)

/-- The answer reads as an output. -/
def Reading.isOutput : Reading Json → Bool
  | .output _ => true
  | _ => false

/-- The answer came, and it is not JSON. -/
def Reading.isGarbled : Reading Json → Bool
  | .empty | .noJson => true
  | _ => false

section Models

variable {loads : List Char → Option (Loaded Json)} {terra sol : Executor}
  {request : TaskRequest Json} {talk : List (ModelCall Json × ModelAnswer)}
  {result : TaskResult Json} {outcome : TieredOutcome Json}

theorem call_textOf (executor : Executor) (request : TaskRequest Json) :
    (executor.call request).textOf = executor.textOf := by
  funext text
  unfold Executor.call Executor.textOf
  split <;> rfl

/-- The result of an answer is a failure with its reason, or the output that it reads as. -/
theorem read_eq (executor : Executor) (request : TaskRequest Json) (answer : ModelAnswer) :
    match reading loads (executor.call request, answer) with
    | .unreachable typeName =>
        executor.read loads answer = .ok (executor.failed ("PROVIDER_" ++ typeName))
    | .empty => executor.read loads answer = .ok (executor.failed "EMPTY_OUTPUT")
    | .noJson => executor.read loads answer = .ok (executor.failed "LLM_SCHEMA_FAILURE")
    | .raises failure => executor.read loads answer = .error failure
    | .output output => ∃ result, executor.read loads answer = .ok result ∧
        result.status = .succeeded ∧ result.output = output := by
  cases answer with
  | raised typeName => rfl
  | answered text usage =>
      cases text with
      | none => rfl
      | some text =>
          have same : reading loads (executor.call request, .answered (some text) usage) =
              .ofText loads (executor.textOf text) := by
            rw [reading, call_textOf]
          rw [same, Reading.ofText]
          by_cases blank : executor.textOf text = []
          · rw [if_pos blank, Executor.read, Option.filter_some, blank]
            rfl
          · have kept : (some text).filter (executor.textOf · ≠ []) = some text := by
              simp [blank]
            rw [if_neg blank, Executor.read, kept]
            dsimp only
            cases loads (executor.textOf text) with
            | none => rfl
            | some loaded =>
                cases loaded with
                | object value => exact ⟨_, rfl, rfl, rfl⟩
                | null => exact ⟨_, rfl, rfl, rfl⟩
                | other => rfl
                | raises typeName => rfl

/-- The reason for which an answer is rejected. -/
def Reading.rejection : Reading Json → Option String
  | .unreachable typeName => some ("PROVIDER_" ++ typeName)
  | .empty => some "EMPTY_OUTPUT"
  | .noJson => some "LLM_SCHEMA_FAILURE"
  | .raises _ | .output _ => none

/-- Just a garbled answer is rejected for a reason that can be repaired. -/
theorem rejection_mem_repairable {read : Reading Json} :
    (∃ reason ∈ read.rejection, reason ∈ repairable) ↔ read.isGarbled = true := by
  cases read with
  | unreachable typeName =>
      refine iff_of_false ?_ Bool.false_ne_true
      rintro ⟨reason, same, cures⟩
      obtain rfl := Option.some.inj same
      have text {other : String} (same : "PROVIDER_" ++ typeName = other) :
          other.toList.head? = some 'P' := by
        rw [← same, String.toList_append]
        rfl
      rcases List.mem_cons.mp cures with same | rest
      · exact absurd (text same) (by decide)
      · exact absurd (text (List.mem_singleton.mp rest)) (by decide)
  | empty => exact iff_of_true ⟨_, rfl, by decide⟩ rfl
  | noJson => exact iff_of_true ⟨_, rfl, by decide⟩ rfl
  | raises failure => simp [Reading.rejection, Reading.isGarbled]
  | output output => simp [Reading.rejection, Reading.isGarbled]

theorem rejectionOf_failed (executor : Executor) (request : TaskRequest Json) {code : String}
    (stated : code ≠ "") : rejectionOf none request (executor.failed code) = some code := by
  have kept : truthy (some code) = some code := by
    rw [truthy, Option.filter_some, if_pos (decide_eq_true stated)]
  rw [rejectionOf, if_pos (by exact nofun), Executor.failed, orElse, kept]
  rfl

/-- What an executor is asked, and what becomes of the answer. -/
structure Asked (loads : List Char → Option (Loaded Json)) (executor : Executor)
    (request : TaskRequest Json) (result : TaskResult Json) (rejection : Option String)
    (exchange : ModelCall Json × ModelAnswer) : Prop where
  call : exchange.1 = executor.call request
  rejection : rejection = (reading loads exchange).rejection
  output : ∀ output, reading loads exchange = .output output → result.output = output
  reads : ∀ failure, reading loads exchange ≠ .raises failure

/-- An execution that returns is one exchange: the model is called with the request, the answer
was read without a failure, and what the reading gives decides about output and rejection. -/
theorem exists_asked {executor : Executor} {tier : ModelTier}
    (held : Conversation (executor.execute loads { request with tier := tier }) talk
      (.ok result)) :
    ∃ exchange, talk = [exchange] ∧ Asked loads executor request result
      (rejectionOf none { request with tier := tier } result) exchange := by
  rcases conversation_bind.mp held with ⟨_, -, impossible⟩ |
    ⟨answer, first, second, asked, lifted, rfl⟩
  · cases impossible
  obtain ⟨given, rfl, same⟩ := conversation_inquire.mp asked
  cases same
  obtain ⟨rfl, read⟩ := conversation_lift.mp lifted
  refine ⟨(executor.call request, answer), rfl, ?_⟩
  have made := @read_eq _ loads executor request answer
  rw [← read] at made
  have refused {code : String} (stated : code ≠ "")
      (failed : (Except.ok result : Except Failure _) = .ok (executor.failed code))
      (rejected : (reading loads (executor.call request, answer)).rejection = some code) :
      Asked loads executor request result (rejectionOf none { request with tier := tier } result)
        (executor.call request, answer) := by
    cases failed
    refine ⟨rfl, (rejectionOf_failed executor _ stated).trans rejected.symm, ?_, ?_⟩
    · intro output same
      rw [same] at rejected
      cases rejected
    · intro failure same
      rw [same] at rejected
      cases rejected
  cases reads : reading loads (executor.call request, answer) with
  | unreachable typeName =>
      rw [reads] at made
      exact refused (by simp) made (by rw [reads, Reading.rejection])
  | empty =>
      rw [reads] at made
      exact refused (by decide) made (by rw [reads, Reading.rejection])
  | noJson =>
      rw [reads] at made
      exact refused (by decide) made (by rw [reads, Reading.rejection])
  | raises failure =>
      rw [reads] at made
      cases made
  | output output =>
      rw [reads] at made
      obtain ⟨result, same, succeeded, stated⟩ := made
      cases same
      refine ⟨rfl, ?_, ?_, ?_⟩
      · rw [reads, rejectionOf, if_neg (not_not_intro succeeded)]
        rfl
      · intro other same
        rw [reads] at same
        cases same
        exact stated
      · intro failure same
        rw [reads] at same
        cases same

/-- The model of a tier. -/
def modelOf (terra sol : Executor) : ModelTier → Executor
  | .flagshipEscalation => sol
  | .defaultHosted | .localModel => terra

/-- The exchanges are those of the trials, one for each. -/
abbrev Exchanged (loads : List Char → Option (Loaded Json)) (terra sol : Executor)
    (request : TaskRequest Json) :
    List (Trial Json) → List (ModelCall Json × ModelAnswer) → Prop :=
  List.Forall₂ fun trial exchange => Asked loads (modelOf terra sol trial.entry.tier) request
    trial.result trial.rejection exchange

/-- Trials that are held are exchanges, one after another. -/
theorem exchanged_flatMap {trials : List (Trial Json)}
    (held : ∀ trial ∈ trials, (tiersOf loads terra sol).Held request trial) :
    Exchanged loads terra sol request trials (trials.flatMap Trial.talk) := by
  induction trials with
  | nil => exact .nil
  | cons trial rest ih =>
      obtain ⟨first, later⟩ := List.forall_mem_cons.mp held
      have asked : Conversation ((modelOf terra sol trial.entry.tier).execute loads
          { request with tier := trial.entry.tier }) trial.talk (.ok trial.result) := by
        have talk := first.talk
        cases tier : trial.entry.tier <;> rw [tier] at talk <;> exact talk
      obtain ⟨exchange, only, asks⟩ := exists_asked asked
      have rejection : trial.rejection =
          rejectionOf none { request with tier := trial.entry.tier } trial.result :=
        first.rejection
      rw [List.flatMap_cons, only, List.singleton_append]
      exact .cons (rejection ▸ asks) (ih later)

/-- An answer is rejected just when it gives no output. -/
theorem Asked.isSome_iff {executor : Executor} {rejection : Option String}
    {exchange : ModelCall Json × ModelAnswer}
    (asked : Asked loads executor request result rejection exchange) :
    rejection.isSome = true ↔ (reading loads exchange).isOutput = false := by
  rw [asked.rejection]
  cases reads : reading loads exchange with
  | raises failure => exact absurd reads (asked.reads failure)
  | unreachable typeName => exact iff_of_true rfl rfl
  | empty => exact iff_of_true rfl rfl
  | noJson => exact iff_of_true rfl rfl
  | output output => exact iff_of_false Bool.false_ne_true (by exact nofun)

/-- A course of the two models. The default model is asked, again when its answer is garbled,
and then the flagship, always for the same; a human reviews the request when no answer reads,
and the result is what the last answer reads as otherwise. -/
structure TieredCourse (loads : List Char → Option (Loaded Json)) (terra sol : Executor)
    (request : TaskRequest Json) (talk : List (ModelCall Json × ModelAnswer))
    (outcome : TieredOutcome Json) : Prop where
  calls : talk.map Prod.fst ∈ [[terra.call request], [terra.call request, terra.call request],
    [terra.call request, sol.call request],
    [terra.call request, terra.call request, sol.call request]]
  attempts : outcome.attempts.length = talk.length
  repaired : (∃ attempt ∈ outcome.attempts, attempt.attempt = "repair") ↔
    ∃ first ∈ talk.head?, (reading loads first).isGarbled = true
  review : outcome.needsHumanReview = true ↔
    ∀ exchange ∈ talk, (reading loads exchange).isOutput = false
  refused : outcome.needsHumanReview = true →
    outcome.tierUsed = .flagshipEscalation ∧ outcome.result.status ≠ .succeeded
  accepted : outcome.needsHumanReview = false →
    ∃ last ∈ talk.getLast?, reading loads last = .output outcome.result.output

section Exchanged

variable {trials : List (Trial Json)} (exchanged : Exchanged loads terra sol request trials talk)

include exchanged

theorem calls_of_exchanged : talk.map Prod.fst =
    (trials.map fun trial => (trial.entry.attempt, trial.entry.tier)).map fun entry =>
      (modelOf terra sol entry.2).call request := by
  induction exchanged with
  | nil => rfl
  | cons same _ ih => rw [List.map_cons, List.map_cons, List.map_cons, ih, same.call]

theorem rejected_of_exchanged : (∀ trial ∈ trials, trial.rejection.isSome = true) ↔
    ∀ exchange ∈ talk, (reading loads exchange).isOutput = false := by
  induction exchanged with
  | nil => simp
  | cons same _ ih => rw [List.forall_mem_cons, List.forall_mem_cons, ih, same.isSome_iff]

/-- The last trial is the last exchange. -/
theorem last_of_exchanged {trial : Trial Json} (final : trial ∈ trials.getLast?) :
    ∃ exchange ∈ talk.getLast?, Asked loads (modelOf terra sol trial.entry.tier) request
      trial.result trial.rejection exchange := by
  have backwards := List.rel_reverse exchanged
  rw [List.getLast?_eq_head?_reverse] at final ⊢
  obtain ⟨earlier, order⟩ := List.head?_eq_some_iff.mp final
  rw [order] at backwards
  obtain ⟨exchange, rest, asked, -, order⟩ := List.forall₂_cons_left_iff.mp backwards
  rw [order]
  exact ⟨exchange, rfl, asked⟩

end Exchanged

/-- A repair is tried just when the first answer is rejected for a reason that can be repaired. -/
theorem exists_repair_iff {first : Trial Json} {later : List (Trial Json)}
    (bounded : TieredExecutor.Bounded first later outcome) :
    (∃ entry ∈ (first :: later).map Trial.entry, entry.attempt = "repair") ↔
      ∃ reason ∈ first.rejection, reason ∈ repairable := by
  have begun : first.entry.attempt ≠ "repair" := by
    have order := bounded.order
    simp only [TieredExecutor.orders, List.map_cons, List.mem_cons, List.not_mem_nil, or_false,
      List.cons.injEq, Prod.mk.injEq] at order
    have named : first.entry.attempt = "default" := by
      rcases order with same | same | same | same <;> exact same.1.1
    rw [named]
    decide
  rw [← bounded.repaired]
  simp [begun]

/-- A tiered execution that returns takes one of its courses. -/
theorem tieredCourse_of_ok
    (held : Conversation ((tiersOf loads terra sol).executeTiered request) talk (.ok outcome)) :
    TieredCourse loads terra sol request talk outcome := by
  obtain ⟨first, later, tried, rfl, bounded⟩ := TieredExecutor.exists_trials held
  have exchanged := exchanged_flatMap tried
  generalize (first :: later).flatMap Trial.talk = talk at exchanged
  constructor
  · rw [calls_of_exchanged exchanged]
    have order := bounded.order
    simp only [TieredExecutor.orders, List.mem_cons, List.not_mem_nil, or_false] at order
    rcases order with same | same | same | same <;> rw [same] <;> simp [modelOf]
  · rw [bounded.attempts, List.length_map]
    exact exchanged.length_eq
  · obtain ⟨opening, rest, asked, -, rfl⟩ := List.forall₂_cons_left_iff.mp exchanged
    rw [List.head?_cons, bounded.attempts, exists_repair_iff bounded, asked.rejection,
      rejection_mem_repairable]
    simp
  · rw [bounded.review, rejected_of_exchanged exchanged]
  · exact bounded.escalated
  · intro fine
    obtain ⟨trial, final, none, result, -⟩ := bounded.accepted fine
    obtain ⟨exchange, ended, asked⟩ := last_of_exchanged exchanged final
    refine ⟨exchange, ended, ?_⟩
    have accepts := mt asked.isSome_iff.mpr (by rw [none]; exact Bool.false_ne_true)
    cases reads : reading loads exchange with
    | output output => rw [result, asked.output output reads]
    | unreachable typeName => exact absurd (by rw [reads]; rfl) accepts
    | empty => exact absurd (by rw [reads]; rfl) accepts
    | noJson => exact absurd (by rw [reads]; rfl) accepts
    | raises failure => exact absurd reads (asked.reads failure)

/-! ## Answers on which a call fails -/

/-- The call fails with the exception on this answer. -/
def Raises (loads : List Char → Option (Loaded Json)) (failure : Failure)
    (call : ModelCall Json) (answer : ModelAnswer) : Prop :=
  reading loads (call, answer) = .raises failure

/-- A call of a model fails with an exception exactly on the answers that raise it. -/
theorem heeds_execute (failure : Failure) (executor : Executor) (request : TaskRequest Json) :
    Heeds (Raises loads failure) failure (executor.execute loads request) := by
  refine heeds_inquire (fun answer raised => ?_) fun answer quiet => heeds_lift fun failed => ?_
  · have made := @read_eq _ loads executor request answer
    rw [raised] at made
    rw [made]
    rfl
  · have made := @read_eq _ loads executor request answer
    rw [failed] at made
    cases reads : reading loads (executor.call request, answer) with
    | raises other =>
        rw [reads] at made
        cases made
        exact quiet reads
    | unreachable typeName => simp [reads] at made
    | empty => simp [reads] at made
    | noJson => simp [reads] at made
    | output output => simp [reads] at made

/-- Two tiers that heed an alarm heed it together. -/
theorem heeds_tiered {alarm : ModelCall Json → ModelAnswer → Prop} {failure : Failure}
    {tiers : TieredExecutor Json}
    (first : ∀ request, Heeds alarm failure (tiers.default request))
    (last : ∀ request, Heeds alarm failure (tiers.flagship request))
    (request : TaskRequest Json) : Heeds alarm failure (tiers.executeTiered request) := by
  have attempted {executor : TaskRequest Json → Talk Json (TaskResult Json)}
      (heeds : ∀ request, Heeds alarm failure (executor request)) (tier : ModelTier)
      (label : String) : Heeds alarm failure
        (tiers.attempt request executor tier label) :=
    (heeds _).bind fun result => .done _
  have escalated (attempts : List Attempt) :
      Heeds alarm failure (tiers.escalate request attempts) := by
    refine (attempted last _ _).bind fun tried => ?_
    obtain ⟨result, rejection, entry⟩ := tried
    cases rejection with
    | none => exact .done _
    | some reason => exact .done _
  refine (attempted first _ _).bind fun tried => ?_
  obtain ⟨result, rejection, entry⟩ := tried
  cases rejection with
  | none => exact .done _
  | some reason =>
      dsimp only
      split
      · refine (attempted first _ _).bind fun again => ?_
        obtain ⟨result, rejection, entry⟩ := again
        cases rejection with
        | none => exact .done _
        | some refusal => exact escalated _
      · exact escalated _

end Models

/-- **Two Tiers.** Whatever the models answer, the request fails with an exception in just the
dialogues in which an answer raises it, and it has a course of the two models otherwise: no
model is asked but once more for a garbled answer, and once more by the flagship. -/
theorem tiered_calls (loads : List Char → Option (Loaded Json)) (terra sol : Executor)
    (request : TaskRequest Json)
    (respond : List (ModelCall Json × ModelAnswer) → ModelCall Json → ModelAnswer) :
    let dialogue := ((tiersOf loads terra sol).executeTiered request).converse respond []
    match dialogue.2 with
    | .error failure => ∃ exchange ∈ dialogue.1, reading loads exchange = .raises failure
    | .ok outcome =>
        (∀ exchange ∈ dialogue.1, ∀ failure, reading loads exchange ≠ .raises failure) ∧
          TieredCourse loads terra sol request dialogue.1 outcome := by
  intro dialogue
  have held : Conversation ((tiersOf loads terra sol).executeTiered request) dialogue.1
      dialogue.2 := conversation_converse respond [] _
  have heeds (failure : Failure) : Heeds (Raises loads failure) failure
      ((tiersOf loads terra sol).executeTiered request) :=
    heeds_tiered (heeds_execute failure terra) (heeds_execute failure sol) request
  have ends (failure : Failure) := Heeds.ending_iff (heeds failure) held
  generalize dialogue.1 = talk at held ends
  generalize dialogue.2 = ending at held ends
  cases ending with
  | error failure =>
      obtain ⟨exchange, member, raised⟩ := (ends failure).mp rfl
      exact ⟨exchange, member, raised⟩
  | ok outcome =>
      refine ⟨fun exchange member failure raised => ?_, tieredCourse_of_ok held⟩
      cases (ends failure).mpr ⟨exchange, member, raised⟩

end RentalAgent.Llm
