import RentalAgent.Canonical.Normalization
import RentalAgent.Foundation.Script

/-! # Runs of a source

`AcquisitionRunner.run_source`. An adapter is given by its answers: what each call of it
returns or raises. The transactions of a call are the steps of a script, so what it has
committed stays when it raises later. Beside the database an acquisition records what
the adapters have planned, and the page for which each checkpoint was completed.
-/

namespace RentalAgent

open Relational

/-! ## Adapters -/

/-- What an adapter raises: its type, and whether `except Exception` catches it. -/
structure Raised where
  typeName : String
  isException : Bool := true
  deriving DecidableEq

/-- `SourcePreflightResult`. The runner knows the results `"DEGRADED"` and `"BLOCKED"`. -/
structure SourcePreflightResult where
  result : String
  reasons : List String := []

/-- `RawListingCapture`. -/
structure RawListingCapture where
  contentHash : String

/-- An item of a page, with the answers of the adapter when it is fetched and extracted,
and the clock when its observation is queued. -/
structure DiscoveredItem where
  sourceNativeId : Option String
  detailUrl : String
  fetchDetail : Except Raised RawListingCapture
  extract : Except Raised ParsedSourceObservation
  queuedAt : Timestamp

/-- `DiscoveryPage`; a health marker is kept with the truth value of what it holds. -/
structure DiscoveryPage where
  items : List DiscoveredItem := []
  nextCursor : Option JsonObject := none
  appearsTruncated : Bool := false
  healthMarkers : List (String × Bool) := []

/-- A partition of a plan, with the page the adapter discovers for it. -/
structure AcquisitionPartition where
  partitionKey : String
  discover : Except Raised DiscoveryPage

/-- The answers of an adapter in one call of `run_source`. -/
structure SourceAdapter where
  sourceCode : String
  adapterVersion : String
  preflight : Except Raised SourcePreflightResult
  planPartitions : Except Raised (List AcquisitionPartition)

/-- `item.source_native_id or item.detail_url`. -/
def DiscoveredItem.identity (item : DiscoveredItem) : String :=
  (truthy item.sourceNativeId).getD item.detailUrl

/-- The observation of an item, with the hash of the capture or, when that is empty, of
the observation. -/
def DiscoveredItem.capture (digest : ParsedSourceObservation → String) (item : DiscoveredItem) :
    Except Raised (ParsedSourceObservation × String) := do
  let capture ← item.fetchDetail
  let observation ← item.extract
  return (observation, (truthy (some capture.contentHash)).getD (digest observation))

/-- `page.health_markers.get("search_error")`. -/
def DiscoveryPage.searchError (page : DiscoveryPage) : Option Bool :=
  page.healthMarkers.lookup "search_error"

/-- `bool(page.appears_truncated or page.health_markers.get("search_error"))`. -/
def DiscoveryPage.degraded (page : DiscoveryPage) : Bool :=
  page.appearsTruncated || page.searchError.getD false

/-! ## The state of a call -/

/-- `PIPELINE_VERSION`. -/
def pipelineVersion : String := "0.2.0"

/-- `NORMALIZE_DEPENDENCY_VERSION`. -/
def normalizeDependencyVersion : String := "phase3-skeleton-1"

/-- The arguments of `run_source`, and the clock at its start and its end. -/
structure SourceRunCall where
  adapter : SourceAdapter
  logicalRunKey : String
  triggerType : RefreshTriggerType
  discoveryMethod : DiscoveryMethod
  startedAt : Timestamp
  completedAt : Timestamp

/-- `SourceRunSummary`. -/
structure SourceRunSummary where
  sourceRunId : Uuid
  status : SourceRunStatus
  healthGatePassed : Bool
  discovered : Nat := 0
  persistedNew : Nat := 0
  duplicatesSkipped : Nat := 0
  partitionsCompleted : Nat := 0
  partitionsFailed : Nat := 0
  normalizeJobsEnqueued : Nat := 0
  errors : List String := []
  deriving DecidableEq

/-- The rows a call works for. -/
structure OpenedRun where
  sourceId : Uuid
  sourceRunId : Uuid
  refreshRunId : Uuid
  deriving DecidableEq

/-- The local variables of a call while it goes through the partitions. -/
structure RunProgress where
  summary : SourceRunSummary
  degraded : Bool
  seenIdentities : List String := []
  deriving DecidableEq

/-- The identifiers the database draws, their texts, and the hash of an observation. -/
structure RunnerEnvironment where
  ids : IdSupply
  uuidText : Uuid → String
  digest : ParsedSourceObservation → String

/-! ## Transactions -/

/-- The checkpoint is the one of the partition. -/
def AdapterCheckpoint.isOf (sourceRunId : Uuid) (partitionKey : String)
    (checkpoint : AdapterCheckpoint) : Bool :=
  checkpoint.sourceRunId = sourceRunId && checkpoint.partitionKey = partitionKey

/-- The columns `_finalize` writes. -/
def SourceRun.finalized (call : SourceRunCall) (summary : SourceRunSummary) (run : SourceRun) :
    SourceRun :=
  { run with
    status := summary.status
    completedAt := some call.completedAt
    healthGatePassed := some summary.healthGatePassed
    counts := some
      { discovered := summary.discovered
        persistedNew := summary.persistedNew
        duplicatesSkipped := summary.duplicatesSkipped
        partitionsCompleted := summary.partitionsCompleted
        partitionsFailed := summary.partitionsFailed
        normalizeJobsEnqueued := summary.normalizeJobsEnqueued
        discoveryMethod := call.discoveryMethod }
    errorSummary :=
      if summary.errors = [] then run.errorSummary else some (summary.errors.take 50) }

namespace Database

/-- `RefreshRunRepository.create_or_join`. -/
def createOrJoin (ids : IdSupply) (logicalRunKey : String) (triggerType : RefreshTriggerType)
    (startedAt : Timestamp) (db : Database) : Except ServiceError (Database × Uuid) := do
  match ← scalarOneOrNone .multipleResultsFound
      (db.refreshRuns.filter fun run => run.logicalRunKey = logicalRunKey) with
  | some existing => return (db, existing.refreshRunId)
  | none =>
      return ({ db with
        drawn := db.drawn + 1
        refreshRuns := db.refreshRuns ++
          [{ refreshRunId := ids.uuid db.drawn
             triggerType := triggerType
             logicalRunKey := logicalRunKey
             startedAt := startedAt
             status := .pending
             pipelineVersion := pipelineVersion }] }, ids.uuid db.drawn)

/-- `RefreshRunRepository.create_source_run`. -/
def createSourceRun (ids : IdSupply) (refreshRunId sourceId : Uuid) (startedAt : Timestamp)
    (adapterVersion : String) (db : Database) : Database × Uuid :=
  ({ db with
    drawn := db.drawn + 1
    sourceRuns := db.sourceRuns ++
      [{ sourceRunId := ids.uuid db.drawn
         refreshRunId := refreshRunId
         sourceId := sourceId
         startedAt := startedAt
         completedAt := none
         status := .pending
         healthGatePassed := none
         counts := none
         errorSummary := none
         adapterVersion := adapterVersion }] }, ids.uuid db.drawn)

/-- The first transaction: a source run is created, or a retry joins the one there is. -/
def openRun (ids : IdSupply) (call : SourceRunCall) (db : Database) :
    Except ServiceError (Database × OpenedRun) := do
  match ← scalarOneOrNone .multipleResultsFound
      (db.sources.filter fun source => source.sourceCode = call.adapter.sourceCode) with
  | none => throw .lookupError
  | some source =>
      let (db, refreshRunId) ← db.createOrJoin ids call.logicalRunKey call.triggerType
        call.startedAt
      match ← scalarOneOrNone .multipleResultsFound
          (db.sourceRuns.filter fun run =>
            run.refreshRunId = refreshRunId && run.sourceId = source.sourceId) with
      | some existing => return (db, ⟨source.sourceId, existing.sourceRunId, refreshRunId⟩)
      | none =>
          let (db, sourceRunId) := db.createSourceRun ids refreshRunId source.sourceId
            call.startedAt call.adapter.adapterVersion
          return (db, ⟨source.sourceId, sourceRunId, refreshRunId⟩)

/-- The query for the checkpoint of a partition. -/
def checkpoint (sourceRunId : Uuid) (partitionKey : String) (db : Database) :
    Except ServiceError (Option AdapterCheckpoint) :=
  scalarOneOrNone .multipleResultsFound
    (db.checkpoints.filter (AdapterCheckpoint.isOf sourceRunId partitionKey))

/-- The row of an observation. -/
def observationRow (opened : OpenedRun) (observation : ParsedSourceObservation)
    (contentHash : String) (id : Uuid) : SourceObservation where
  sourceObservationId := id
  sourceId := opened.sourceId
  sourceRunId := opened.sourceRunId
  sourceNativeId := observation.sourceNativeId
  sourceUrl := observation.sourceUrl
  observedAt := observation.observedAt
  retrievedAt := observation.retrievedAt
  contentHash := contentHash
  parsedPayload := observation
  parseStatus := observation.parseStatus
  contactRedactionStatus := observation.description.redactionStatus
  adapterVersion := observation.adapterVersion
  schemaVersion := observation.schemaVersion

/-- `ObservationRepository.insert_idempotent`. -/
def insertIdempotent (ids : IdSupply) (opened : OpenedRun) (observation : ParsedSourceObservation)
    (contentHash : String) (db : Database) : Database × Option Uuid :=
  let row := observationRow opened observation contentHash (ids.uuid db.drawn)
  if db.observations.any fun other =>
      other.sourceObservationId = row.sourceObservationId || other.key = row.key then
    (db, none)
  else
    ({ db with drawn := db.drawn + 1, observations := db.observations ++ [row] },
      some row.sourceObservationId)

/-- The transaction of an item: its observation and the job that normalizes it. Of a new
observation the result tells whether a job was enqueued. -/
def storeObservation (env : RunnerEnvironment) (opened : OpenedRun)
    (observation : ParsedSourceObservation) (contentHash : String) (queuedAt : Timestamp)
    (db : Database) : Database × Option Bool :=
  match db.insertIdempotent env.ids opened observation contentHash with
  | (db, none) => (db, none)
  | (db, some observationId) =>
      let (queue, jobId) := db.queue.enqueue
        { jobType := .normalize
          inputHash := env.uuidText observationId
          dependencyVersion := normalizeDependencyVersion
          refreshRunId := some opened.refreshRunId
          priority := 10 } (env.ids.uuid db.drawn) queuedAt queuedAt
      ({ db with drawn := db.drawn + 1, queue := queue }, some jobId.isSome)

/-- The last transaction of a partition. -/
def completeCheckpoint (sourceRunId : Uuid) (partitionKey : String) (items : Nat)
    (db : Database) : Except ServiceError Database := do
  match ← db.checkpoint sourceRunId partitionKey with
  | none =>
      return { db with
        checkpoints := db.checkpoints ++
          [{ sourceRunId := sourceRunId
             partitionKey := partitionKey
             completed := true
             itemsDiscovered := some items }] }
  | some _ =>
      return { db with
        checkpoints := updateWhere (AdapterCheckpoint.isOf sourceRunId partitionKey)
          (fun checkpoint => { checkpoint with
            completed := true
            itemsDiscovered := some items }) db.checkpoints }

/-- `_finalize`. -/
def finalizeRun (call : SourceRunCall) (summary : SourceRunSummary) (db : Database) :
    Except ServiceError Database := do
  let _ ← require .assertionError (db.sourceRun? summary.sourceRunId)
  return { db with
    sourceRuns := updateWhere (fun run => run.sourceRunId = summary.sourceRunId)
      (SourceRun.finalized call summary) db.sourceRuns }

end Database

/-! ## Acquisitions -/

/-- A partition whose checkpoint was completed for a page. -/
structure Completion where
  sourceRunId : Uuid
  partitionKey : String
  page : DiscoveryPage

/-- The database, the partitions planned in each source run, and the completed ones. -/
structure Acquisition where
  database : Database
  planned : List (Uuid × String) := []
  completed : List Completion := []

def ServiceError.raised (failure : ServiceError) : Raised := ⟨failure.typeName, true⟩

namespace Acquisition

variable {Result : Type}

/-- A transaction on the database; an exception rolls it back. -/
def transaction (work : Database → Except ServiceError (Database × Result)) :
    Script Acquisition (Except Raised Result) :=
  .transaction fun state =>
    match work state.database with
    | .ok (db, result) => ({ state with database := db }, .ok result)
    | .error failure => (state, .error failure.raised)

/-- Recording what the adapter plans. -/
def recordPlan (sourceRunId : Uuid) (plan : List AcquisitionPartition) :
    Script Acquisition Unit :=
  .transaction fun state =>
    ({ state with
      planned := state.planned ++
        plan.map fun partition => (sourceRunId, partition.partitionKey) }, ())

/-- Completing a checkpoint, and recording the page. -/
def complete (sourceRunId : Uuid) (partitionKey : String) (page : DiscoveryPage) :
    Script Acquisition (Except Raised Unit) :=
  .transaction fun state =>
    match state.database.completeCheckpoint sourceRunId partitionKey page.items.length with
    | .ok db =>
        ({ state with
          database := db
          completed := state.completed ++ [⟨sourceRunId, partitionKey, page⟩] }, .ok ())
    | .error failure => (state, .error failure.raised)

end Acquisition

/-! ## The runner -/

namespace RunProgress

/-- An item whose identity was seen before. -/
def skip (progress : RunProgress) : RunProgress :=
  { progress with
    summary.duplicatesSkipped := progress.summary.duplicatesSkipped + 1 }

def see (identity : String) (progress : RunProgress) : RunProgress :=
  { progress with seenIdentities := identity :: progress.seenIdentities }

/-- The counts after the transaction of an item. -/
def stored (result : Option Bool) (progress : RunProgress) : RunProgress :=
  match result with
  | none => progress.skip
  | some enqueued =>
      { progress with
        summary.persistedNew := progress.summary.persistedNew + 1
        summary.normalizeJobsEnqueued :=
          progress.summary.normalizeJobsEnqueued + if enqueued then 1 else 0 }

def discover (page : DiscoveryPage) (progress : RunProgress) : RunProgress :=
  { progress with summary.discovered := progress.summary.discovered + page.items.length }

/-- A partition that returned. -/
def completePartition (degraded : Bool) (progress : RunProgress) : RunProgress :=
  { progress with
    degraded := progress.degraded || degraded
    summary.partitionsCompleted := progress.summary.partitionsCompleted + 1 }

/-- A partition that raised. -/
def failPartition (partitionKey : String) (raised : Raised) (progress : RunProgress) :
    RunProgress :=
  { progress with
    summary.partitionsFailed := progress.summary.partitionsFailed + 1
    summary.errors := progress.summary.errors ++ [partitionKey ++ ": " ++ raised.typeName] }

def status (progress : RunProgress) : SourceRunStatus :=
  if 0 < progress.summary.partitionsFailed ∧ progress.summary.partitionsCompleted = 0 then .failed
  else if 0 < progress.summary.partitionsFailed ∨ progress.degraded then .degraded
  else .healthy

/-- The verdict at the end of a call. -/
def evaluate (discoveryMethod : DiscoveryMethod) (progress : RunProgress) : SourceRunSummary :=
  { progress.summary with
    status := progress.status
    healthGatePassed := progress.status = .healthy && discoveryMethod ≠ .searchIndex }

end RunProgress

variable (env : RunnerEnvironment)

/-- The item loop of `_run_partition`. -/
def captureItems (opened : OpenedRun) :
    List DiscoveredItem → RunProgress → Script Acquisition (RunProgress × Except Raised Unit)
  | [], progress => return (progress, .ok ())
  | item :: rest, progress =>
      if item.identity ∈ progress.seenIdentities then captureItems opened rest progress.skip
      else
        match item.capture env.digest with
        | .error raised => return (progress.see item.identity, .error raised)
        | .ok (observation, contentHash) => do
            let result ← Script.transaction fun state : Acquisition =>
              let (db, result) := state.database.storeObservation env opened observation
                contentHash item.queuedAt
              ({ state with database := db }, result)
            captureItems opened rest ((progress.see item.identity).stored result)

/-- `_run_partition` after its first transaction. -/
def discoverPartition (opened : OpenedRun) (partition : AcquisitionPartition)
    (progress : RunProgress) : Script Acquisition (RunProgress × Except Raised Bool) :=
  match partition.discover with
  | .error raised => return (progress, .error raised)
  | .ok page => do
      match ← captureItems env opened page.items (progress.discover page) with
      | (progress, .error raised) => return (progress, .error raised)
      | (progress, .ok ()) => do
          let completed ← Acquisition.complete opened.sourceRunId partition.partitionKey page
          return (progress, completed.map fun _ => page.degraded)

/-- `_run_partition`: whether the partition looks degraded, or what it raises. -/
def runPartition (opened : OpenedRun) (partition : AcquisitionPartition) (progress : RunProgress) :
    Script Acquisition (RunProgress × Except Raised Bool) := do
  match ← Acquisition.transaction fun db => do
      return (db, ← db.checkpoint opened.sourceRunId partition.partitionKey) with
  | .error raised => return (progress, .error raised)
  | .ok checkpoint =>
      if checkpoint.any AdapterCheckpoint.completed then return (progress, .ok false)
      else discoverPartition env opened partition progress

/-- The partition loop of `run_source`. -/
def runPartitions (opened : OpenedRun) :
    List AcquisitionPartition → RunProgress → Script Acquisition (Except Raised RunProgress)
  | [], progress => return .ok progress
  | partition :: rest, progress => do
      let (progress, result) ← runPartition env opened partition progress
      match result with
      | .ok degraded => runPartitions opened rest (progress.completePartition degraded)
      | .error raised =>
          if raised.isException then
            runPartitions opened rest (progress.failPartition partition.partitionKey raised)
          else return .error raised

/-- `_finalize`, which `run_source` ends with. -/
def finalize (call : SourceRunCall) (summary : SourceRunSummary) :
    Script Acquisition (Except Raised SourceRunSummary) :=
  Acquisition.transaction fun db => do
    let db ← db.finalizeRun call summary
    return (db, summary)

/-- The summary a call starts with. -/
def OpenedRun.summary (opened : OpenedRun) : SourceRunSummary :=
  { sourceRunId := opened.sourceRunId, status := .running, healthGatePassed := false }

/-- `run_source` once the partitions are planned. -/
def runPlan (call : SourceRunCall) (opened : OpenedRun) (preflight : SourcePreflightResult)
    (plan : List AcquisitionPartition) : Script Acquisition (Except Raised SourceRunSummary) := do
  Acquisition.recordPlan opened.sourceRunId plan
  match ← runPartitions env opened plan
      { summary := opened.summary, degraded := preflight.result = "DEGRADED" } with
  | .error raised => return .error raised
  | .ok progress => finalize call (progress.evaluate call.discoveryMethod)

/-- `run_source` after its first transaction. -/
def runOpened (call : SourceRunCall) (opened : OpenedRun) :
    Script Acquisition (Except Raised SourceRunSummary) :=
  match call.adapter.preflight with
  | .error raised => return .error raised
  | .ok preflight =>
      if preflight.result = "BLOCKED" then
        finalize call { opened.summary with
          status := .blocked
          errors := opened.summary.errors ++ preflight.reasons }
      else
        match call.adapter.planPartitions with
        | .error raised => return .error raised
        | .ok plan => runPlan env call opened preflight plan

/-- `AcquisitionRunner.run_source`. -/
def runSource (call : SourceRunCall) : Script Acquisition (Except Raised SourceRunSummary) := do
  match ← Acquisition.transaction (Database.openRun env.ids call) with
  | .error raised => return .error raised
  | .ok opened => runOpened env call opened

end RentalAgent
