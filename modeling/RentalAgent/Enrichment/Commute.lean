import RentalAgent.Canonical.Normalization
import RentalAgent.Enrichment.Transit

/-! # Commute research

`CommuteResearchService.research` gives the commute of a listing or a company property to
a destination: an unexpired estimate when there is one, and else the answer of a model,
which is recorded as an execution and as an estimate that expires. What the model answers
is part of each call.
-/

namespace RentalAgent

open Relational

/-- `TASK_TYPE`. -/
def commuteTaskType : String := "commute_research"

/-- `PROMPT_VERSION`. -/
def commutePromptVersion : String := "1.0.0"

/-- `OUTPUT_SCHEMA_VERSION`. -/
def commuteOutputSchemaVersion : String := "1.0.0"

/-! ## Rows -/

/-- Where an estimate comes from. -/
inductive CommuteResultType
  | providerRoute | researchedEstimate
  deriving DecidableEq

/-- What a commute says about its route. -/
inductive CommuteResultStatus
  | available | noRoute | unavailable | providerError
  deriving DecidableEq

/-- What the time of a commute is. -/
inductive TimeBasis
  | departAt | arriveBy | currentOrProviderDefault
  deriving DecidableEq

/-- How a commute is travelled. -/
inductive TravelMode
  | publicTransit
  deriving DecidableEq

/-- A row of `app.destination`. -/
structure Destination where
  destinationId : Uuid
  destinationCode : String
  displayName : String
  routingAnchorName : String
  registryVersion : String
  deriving DecidableEq

structure ResearchSource where
  url : String
  title : Option String := none
  accessedAt : Option Timestamp := none
  deriving DecidableEq

/-- What a model found out about a commute. -/
structure CommuteResearchOutput where
  durationMinS : Nat
  durationMaxS : Nat
  likelyRoutes : List String := []
  transferCount : Option Nat := none
  namedStations : List String := []
  summary : Option String := none
  sources : List ResearchSource
  confidence : Confidence := .unknown
  deriving DecidableEq

/-- Why an estimate is not known to be right. -/
inductive ValidationReasons
  | none
  | noDataset
  | unmatched (stations routes : List String)
  deriving DecidableEq

/-- A row of `ops.model_execution` that research writes. -/
structure ResearchExecution extends ModelExecution where
  providerCode : String
  targetKey : String
  targetId : Uuid
  destinationCode : String
  outputRef : CommuteResearchOutput
  confidence : Confidence
  validationStatus : ValidationStatus
  inputTokens : Option Int
  outputTokens : Option Int
  startedAt : Timestamp
  completedAt : Option Timestamp
  status : ModelExecutionStatus
  deriving DecidableEq

/-- A row of `app.commute_result`. -/
structure CommuteResult where
  commuteResultId : Uuid
  canonicalListingId : Option Uuid
  companyPropertyId : Option Uuid
  destinationId : Uuid
  resultType : CommuteResultType
  modelExecutionId : Option Uuid
  travelMode : TravelMode
  timeBasis : TimeBasis
  durationMinS : Option Nat
  durationMaxS : Option Nat
  transferCount : Option Nat
  likelyRoutes : List String
  namedStations : List String
  summary : Option String
  sources : List ResearchSource
  confidence : Confidence
  resultStatus : CommuteResultStatus
  validationStatus : TransitValidationStatus
  validationReasons : ValidationReasons
  inputLocationHash : String
  destinationRegistryVersion : String
  calculatedAt : Timestamp
  expiresAt : Option Timestamp
  deriving DecidableEq

/-- The tables that research works on, and the number of identifiers drawn so far. -/
structure CommuteTables where
  drawn : Nat
  listings : List Uuid
  companyProperties : List Uuid
  destinations : List Destination
  executions : List ResearchExecution
  results : List CommuteResult
  transit : TransitTables
  deriving DecidableEq

/-! ## The model -/

structure CommuteTaskRequest where
  taskType : String
  promptVersion : String
  outputSchemaVersion : String
  targetKey : String
  targetId : Uuid
  destinationCode : String
  origin : String
  destination : String
  destinationAnchor : String
  deriving DecidableEq

/-- The output of the model: none, one that does not validate, or a researched commute. -/
inductive CommuteTaskOutput
  | missing
  | invalid
  | valid (output : CommuteResearchOutput)
  deriving DecidableEq

structure CommuteTaskResult where
  status : ModelExecutionStatus
  output : CommuteTaskOutput
  inputTokens : Option Int := none
  outputTokens : Option Int := none
  errorCode : Option String := none
  deriving DecidableEq

/-- The exceptions of research. -/
inductive ResearchError
  /-- `ValueError`: "research targets exactly one of canonical_listing_id /
  company_property_id". -/
  | valueError
  /-- `LookupError`: the destination was not found. -/
  | lookupError
  /-- `CommuteResearchRejected`. -/
  | rejected (reason : String)
  /-- `IntegrityError`: a constraint refuses a row. -/
  | integrityError
  /-- `DataError`: a value does not fit its column. -/
  | dataError
  deriving DecidableEq

/-- The checks of the output. -/
def CommuteTaskResult.accept (result : CommuteTaskResult) :
    Except ResearchError CommuteResearchOutput :=
  if result.status ≠ .succeeded ∨ result.output = .missing then
    .error (.rejected ("research execution failed: " ++ result.errorCode.getD "None"))
  else
    match result.output with
    | .valid output =>
        if output.sources = [] then
          .error (.rejected "research output cited no web sources (memory-only)")
        else if output.durationMaxS < output.durationMinS then
          .error (.rejected "duration range inverted")
        else .ok output
    | _ => .error (.rejected "output failed schema validation")

/-! ## Checks against transit data -/

/-- `LIKE`: `%` is any text, `_` any character, and a backslash takes the next character
as it is. -/
def likeMatches : List Char → List Char → Bool
  | [], text => text = []
  | '%' :: pattern, text => text.tails.any (likeMatches pattern)
  | '_' :: pattern, _ :: text => likeMatches pattern text
  | '\\' :: c :: pattern, d :: text => c = d && likeMatches pattern text
  | c :: pattern, d :: text => c = d && likeMatches pattern text
  | _ :: _, [] => false

/-- `ILIKE` of a text within another. -/
def ilikeWithin (unicode : UnicodeTables) (part text : String) : Bool :=
  likeMatches (unicode.lower ("%" ++ part ++ "%").toList) (unicode.lower text.toList)

/-- The route-shaped tokens of a label, in upper case. -/
def routeTokens (unicode : UnicodeTables) (route : String) : List (List Char) :=
  let isToken := fun c : Char => c.isAlphanum || c = '-'
  ((route.toList.splitOnP fun c => !isToken c).filter fun token =>
    token ≠ [] && token.length ≤ 7).map unicode.upper

/-- `_cross_check`. -/
def TransitTables.crossCheck (unicode : UnicodeTables) (output : CommuteResearchOutput)
    (tables : TransitTables) : TransitValidationStatus × ValidationReasons :=
  if tables.stops = [] then (.unableToValidate, .noDataset)
  else
    let stations := output.namedStations.filter fun station =>
      !tables.stops.any fun stop => ilikeWithin unicode station stop.stopName
    let routes := output.likelyRoutes.filter fun route =>
      !tables.routes.any fun row => row.routeShortName.any fun name =>
        unicode.upper name.toList ∈ routeTokens unicode route
    if stations ≠ [] ∨ routes ≠ [] then (.warning, .unmatched stations routes)
    else (.passed, .none)

/-! ## Research -/

/-- What research is set up with: the digest of an input, the model id and the code of the
executor, the days an estimate lives, and where a scan meets a row. -/
structure ResearchEnvironment where
  ids : IdSupply
  unicode : UnicodeTables
  digest : Uuid × String × String × String × String → String
  modelId : String
  providerCode : String
  cacheDays : Int
  position : Uuid → Nat
  apart : Function.Injective position

/-- A call, with the time it is made at and what the model answers it. -/
structure ResearchCall where
  canonicalListingId : Option Uuid := none
  companyPropertyId : Option Uuid := none
  destinationId : Uuid
  originDescription : String
  inputLocationHash : String
  now : Timestamp
  answer : CommuteTaskRequest → CommuteTaskResult

namespace ResearchCall

/-- The target of a call, with the name of its column, when there is exactly one. -/
def target (call : ResearchCall) : Option (String × Uuid) :=
  match call.canonicalListingId, call.companyPropertyId with
  | some id, none => some ("listing", id)
  | none, some id => some ("company_property", id)
  | _, _ => none

/-- The estimate is one of this target and destination and has not expired. -/
def serves (call : ResearchCall) (row : CommuteResult) : Bool :=
  (if call.canonicalListingId.isSome then row.canonicalListingId = call.canonicalListingId
    else row.companyPropertyId = call.companyPropertyId) &&
    row.destinationId = call.destinationId && row.resultType = .researchedEstimate &&
      row.expiresAt.any fun expiresAt => call.now < expiresAt

/-- What the model is asked. -/
def request (call : ResearchCall) (target : String × Uuid) (destination : Destination) :
    CommuteTaskRequest where
  taskType := commuteTaskType
  promptVersion := commutePromptVersion
  outputSchemaVersion := commuteOutputSchemaVersion
  targetKey := target.1
  targetId := target.2
  destinationCode := destination.destinationCode
  origin := call.originDescription
  destination := destination.displayName
  destinationAnchor := destination.routingAnchorName

end ResearchCall

/-- The greatest value of an `INTEGER` column. -/
def maxInteger : Nat := 2 ^ 31 - 1

/-- The values fit a `BIGINT` column. -/
def fitsBigint (value : Option Int) : Bool :=
  value.all fun count => -2 ^ 63 ≤ count && count < 2 ^ 63

/-- A text without the NUL character, which no column takes. -/
def fitsText (text : String) : Bool := '\x00' ∉ text.toList

/-- The numbers and the texts of an output fit their columns. -/
def CommuteResearchOutput.fits (output : CommuteResearchOutput) : Bool :=
  output.durationMinS ≤ maxInteger && output.durationMaxS ≤ maxInteger &&
    output.transferCount.all (· ≤ maxInteger) && output.likelyRoutes.all fitsText &&
      output.namedStations.all fitsText && output.summary.all fitsText &&
        output.sources.all fun source => fitsText source.url && source.title.all fitsText

namespace ResearchEnvironment

variable (env : ResearchEnvironment)

/-- Estimates in the order of a lookup: the latest first. -/
def before (first second : CommuteResult) : Prop :=
  second.calculatedAt < first.calculatedAt ∨ first.calculatedAt = second.calculatedAt ∧
    env.position first.commuteResultId ≤ env.position second.commuteResultId

instance : DecidableRel env.before := fun _ _ => inferInstanceAs (Decidable (_ ∨ _))

/-- `get_fresh_result`. -/
def getFreshResult (call : ResearchCall) (tables : CommuteTables) : Option CommuteResult :=
  Ranking.firstRow env.before call.serves tables.results

/-- The digest of what an execution depends on. -/
def inputHash (call : ResearchCall) (targetId : Uuid) (destination : Destination) : String :=
  env.digest (targetId, destination.destinationCode, call.inputLocationHash,
    destination.registryVersion, commutePromptVersion)

/-- The row of an execution. -/
def execution (call : ResearchCall) (target : String × Uuid) (destination : Destination)
    (output : CommuteResearchOutput) (validation : TransitValidationStatus) (id : Uuid) :
    ResearchExecution where
  modelExecutionId := id
  taskType := commuteTaskType
  inputHash := env.inputHash call target.2 destination
  promptVersion := commutePromptVersion
  outputSchemaVersion := commuteOutputSchemaVersion
  modelId := (truthy (some env.modelId)).getD "unknown"
  providerCode := env.providerCode
  targetKey := target.1
  targetId := target.2
  destinationCode := destination.destinationCode
  outputRef := output
  confidence := output.confidence
  validationStatus := if validation = .passed then .passed else .warning
  inputTokens := (call.answer (call.request target destination)).inputTokens
  outputTokens := (call.answer (call.request target destination)).outputTokens
  startedAt := call.now
  completedAt := some call.now
  status := .succeeded

/-- The row of an estimate. -/
def estimate (call : ResearchCall) (destination : Destination) (output : CommuteResearchOutput)
    (validation : TransitValidationStatus × ValidationReasons) (executionId id : Uuid) :
    CommuteResult where
  commuteResultId := id
  canonicalListingId := call.canonicalListingId
  companyPropertyId := call.companyPropertyId
  destinationId := call.destinationId
  resultType := .researchedEstimate
  modelExecutionId := some executionId
  travelMode := .publicTransit
  timeBasis := .departAt
  durationMinS := some output.durationMinS
  durationMaxS := some output.durationMaxS
  transferCount := output.transferCount
  likelyRoutes := output.likelyRoutes
  namedStations := output.namedStations
  summary := output.summary
  sources := output.sources
  confidence := output.confidence
  resultStatus := .available
  validationStatus := validation.1
  validationReasons := validation.2
  inputLocationHash := call.inputLocationHash
  destinationRegistryVersion := destination.registryVersion
  calculatedAt := call.now
  expiresAt := some (call.now + seconds (env.cacheDays * 86400))

/-- Inserting an execution: the key of the cache is unique. -/
def insertExecution (row : ResearchExecution) (tables : CommuteTables) :
    Except ResearchError CommuteTables :=
  if !(fitsBigint row.inputTokens && fitsBigint row.outputTokens && row.outputRef.fits) then
    .error .dataError
  else if tables.executions.any fun other =>
      other.taskType = row.taskType && other.inputHash = row.inputHash &&
        other.promptVersion = row.promptVersion &&
          other.outputSchemaVersion = row.outputSchemaVersion && other.modelId = row.modelId then
    .error .integrityError
  else
    .ok { tables with drawn := tables.drawn + 1, executions := tables.executions ++ [row] }

/-- The check constraints on the columns that research fills. -/
def checksOut (row : CommuteResult) : Bool :=
  (row.resultStatus ≠ .available || row.durationMinS.isSome && row.durationMaxS.isSome) &&
    (row.resultType ≠ .researchedEstimate ||
      row.modelExecutionId.isSome && row.sources ≠ []) &&
    (row.durationMinS.all fun least => row.durationMaxS.all fun most => least ≤ most) &&
    (row.canonicalListingId.isSome ^^ row.companyPropertyId.isSome)

/-- The foreign keys to the target of an estimate. -/
def targetStored (row : CommuteResult) (tables : CommuteTables) : Bool :=
  row.canonicalListingId.all (· ∈ tables.listings) &&
    row.companyPropertyId.all (· ∈ tables.companyProperties)

/-- Inserting an estimate: it satisfies the checks, and its target is stored. -/
def insertEstimate (row : CommuteResult) (tables : CommuteTables) :
    Except ResearchError CommuteTables :=
  if !fitsText row.inputLocationHash then .error .dataError
  else if !(checksOut row && targetStored row tables) then .error .integrityError
  else .ok { tables with drawn := tables.drawn + 1, results := tables.results ++ [row] }

/-- `CommuteResearchService.research`. -/
def research (call : ResearchCall) (tables : CommuteTables) :
    Except ResearchError (CommuteTables × CommuteResult) := do
  let target ← require .valueError call.target
  match env.getFreshResult call tables with
  | some cached => return (tables, cached)
  | none =>
      let destination ← require .lookupError
        (get Destination.destinationId tables.destinations call.destinationId)
      let output ← (call.answer (call.request target destination)).accept
      let validation := tables.transit.crossCheck env.unicode output
      let executionId := env.ids.uuid tables.drawn
      let tables ← insertExecution
        (env.execution call target destination output validation.1 executionId) tables
      let row := env.estimate call destination output validation executionId
        (env.ids.uuid tables.drawn)
      let tables ← insertEstimate row tables
      return (tables, row)

end ResearchEnvironment

/-! ## Histories -/

/-- What others write between calls. -/
structure RegistryWrite where
  listings : List Uuid
  companyProperties : List Uuid
  destinations : List Destination
  transit : TransitTables

/-- What happens to the tables: a call, or a write of others. -/
inductive CommuteAction
  | research (call : ResearchCall)
  | outside (write : RegistryWrite)

/-- A call that raises is rolled back. -/
def ResearchEnvironment.step (env : ResearchEnvironment) (tables : CommuteTables) :
    CommuteAction → CommuteTables
  | .research call =>
      match env.research call tables with
      | .ok (next, _) => next
      | .error _ => tables
  | .outside write =>
      { tables with
        listings := write.listings
        companyProperties := write.companyProperties
        destinations := write.destinations
        transit := write.transit }

/-- The tables before anything was written. -/
def CommuteTables.empty : CommuteTables where
  drawn := 0
  listings := []
  companyProperties := []
  destinations := []
  executions := []
  results := []
  transit := ⟨0, [], []⟩

end RentalAgent
