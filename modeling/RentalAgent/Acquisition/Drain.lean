import RentalAgent.Canonical.Services

/-! # Draining the normalization jobs

`drain_normalize_jobs`. A worker claims one job in a transaction of its own, works
and completes the job in a second one, and after an exception rolls that one back
and reports the failure in a third. Each transaction is one step of the worker, so
a worker can be delayed before any of them while the others, the queue and the
services go on; a worker that takes no further step has crashed.
-/

namespace RentalAgent

open Relational Transition

/-- `type(exc).__name__`. -/
def QueueError.typeName : QueueError → String
  | .notACompletionStatus _ => "ValueError"
  | .missingJob => "AssertionError"
  | .severalRows => "MultipleResultsFound"
  | .jobIdViolated | .activeIdentityViolated | .attemptNumberViolated => "IntegrityError"

/-- A job in the hands of a worker. -/
structure ClaimedJob where
  jobId : Uuid
  leaseToken : Uuid
  observationId : Uuid
  deriving DecidableEq

/-- Where a worker is between two transactions. -/
inductive WorkerPhase
  | idle
  | working (claimed : ClaimedJob)
  | failing (claimed : ClaimedJob) (errorCode : String)
  | returned
  | raised (errorType : String)
  deriving DecidableEq

/-- One call of `drain_normalize_jobs`. -/
structure Worker where
  workerId : String := "normalize-worker"
  discoveryMethod : DiscoveryMethod
  maxJobs : Nat := 1000
  processed : Nat := 0
  phase : WorkerPhase := .idle
  deriving DecidableEq

/-- What a transaction of a worker meets: the clock while it works and when it
writes the queue, the scan order, the rows locked by others, and the tokens it draws. -/
structure Readings where
  workedAt : Timestamp := 0
  queuedAt : Timestamp
  scan : Uuid → Nat := fun _ => 0
  locked : Uuid → Bool := fun _ => false
  uuid4 : Uuid → Uuid := id

namespace Database

/-- The first transaction: a claimed job of another type ends the loop with its
claim committed; a job without a lease or with a malformed hash is rolled back. -/
def claimNormalize (readUuid : String → Option Uuid) (workerId : String) (readings : Readings)
    (db : Database) : Except String (Database × Option ClaimedJob) := do
  let (queue, claimed) ← (db.queue.claim workerId 300 1 readings.queuedAt readings.locked
    readings.uuid4).mapError QueueError.typeName
  match claimed.filter fun job => job.jobType = .normalize with
  | [] => return ({ db with queue := queue }, none)
  | job :: _ =>
      let leaseToken ← require "AssertionError" job.leaseToken
      let observationId ← require "ValueError" (readUuid job.inputHash)
      return ({ db with queue := queue }, some ⟨job.jobId, leaseToken, observationId⟩)

/-- The second transaction, and whether the queue accepted the completion. -/
def finishClaimed (ids : IdSupply) (unicode : UnicodeTables) (discoveryMethod : DiscoveryMethod)
    (readings : Readings) (claimed : ClaimedJob) (db : Database) :
    Except String (Database × Bool) := do
  let (db, _) ← (db.processObservation ⟨ids, unicode, readings.scan⟩ readings.workedAt
    discoveryMethod claimed.observationId).mapError ServiceError.typeName
  let (queue, accepted) ← (db.queue.complete claimed.jobId claimed.leaseToken .succeeded none none
    60 readings.queuedAt).mapError QueueError.typeName
  return ({ db with queue := queue }, accepted)

/-- The third transaction, after a rollback. -/
def reportFailure (readings : Readings) (claimed : ClaimedJob) (errorCode : String)
    (db : Database) : Except String Database := do
  let (queue, _) ← (db.queue.complete claimed.jobId claimed.leaseToken .failedRetryable
    (some errorCode) none 60 readings.queuedAt).mapError QueueError.typeName
  return { db with queue := queue }

end Database

/-- The next transaction of a worker. -/
def Worker.advance (ids : IdSupply) (unicode : UnicodeTables) (readUuid : String → Option Uuid)
    (readings : Readings) (db : Database) (worker : Worker) : Database × Worker :=
  match worker.phase with
  | .idle =>
      if worker.processed < worker.maxJobs then
        match db.claimNormalize readUuid worker.workerId readings with
        | .ok (next, some claimed) => (next, { worker with phase := .working claimed })
        | .ok (next, none) => (next, { worker with phase := .returned })
        | .error errorType => (db, { worker with phase := .raised errorType })
      else (db, { worker with phase := .returned })
  | .working claimed =>
      match db.finishClaimed ids unicode worker.discoveryMethod readings claimed with
      | .ok (next, _) => (next, { worker with processed := worker.processed + 1, phase := .idle })
      | .error errorType => (db, { worker with phase := .failing claimed errorType })
  | .failing claimed errorCode =>
      match db.reportFailure readings claimed errorCode with
      | .ok next => (next, { worker with processed := worker.processed + 1, phase := .idle })
      | .error errorType => (db, { worker with phase := .raised errorType })
  | .returned | .raised _ => (db, worker)

/-- The database and the workers that drain its queue. -/
structure DrainState where
  database : Database
  workers : List Worker

/-- A call of `drain_normalize_jobs`, the next transaction of one worker, a call of
the queue by any other component, or a call of a service. -/
inductive DrainAction
  | start (workerId : String) (discoveryMethod : DiscoveryMethod) (maxJobs : Nat)
  | advance (index : Nat) (readings : Readings)
  | queue (action : QueueAction)
  | service (action : ServiceAction)

namespace DrainState

variable (ids : IdSupply) (unicode : UnicodeTables) (readUuid : String → Option Uuid)

/-- The state after an action. -/
def step (state : DrainState) : DrainAction → DrainState
  | .start workerId discoveryMethod maxJobs =>
      { state with
        workers := state.workers ++
          [{ workerId := workerId, discoveryMethod := discoveryMethod, maxJobs := maxJobs }] }
  | .advance index readings =>
      match state.workers[index]? with
      | none => state
      | some worker =>
          let advanced := worker.advance ids unicode readUuid readings state.database
          { database := advanced.1, workers := state.workers.set index advanced.2 }
  | .queue action =>
      { state with database := { state.database with queue := state.database.queue.step action } }
  | .service action => { state with database := state.database.step ids unicode action }

end DrainState

end RentalAgent
