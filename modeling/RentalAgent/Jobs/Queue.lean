import Mathlib.Data.List.Sort
import RentalAgent.Foundation.Relational
import RentalAgent.Foundation.Transition
import RentalAgent.Values

/-! # The leased job queue

The tables `ops.job` and `ops.job_attempt` and the operations of `JobQueue` on
them. Each operation is one transaction; a failed statement rolls it back. The
clock readings, the identifiers the database draws, the tokens `uuid4` draws and
the rows other transactions hold locked are arguments of the operations.
-/

namespace RentalAgent

open Relational

/-- A row of `ops.job`. -/
structure Job where
  jobId : Uuid
  refreshRunId : Option Uuid
  canonicalListingId : Option Uuid
  jobType : JobType
  inputHash : String
  dependencyVersion : String
  status : JobStatus
  priority : Int
  attemptCount : Nat
  maxAttempts : Int
  nextAttemptAt : Option Timestamp
  startedAt : Option Timestamp
  completedAt : Option Timestamp
  errorCode : Option String
  errorDetail : Option String
  leaseToken : Option Uuid
  leasedBy : Option String
  leaseExpiresAt : Option Timestamp
  heartbeatAt : Option Timestamp
  terminalReason : Option String
  createdAt : Timestamp
  deriving DecidableEq

/-- A row of `ops.job_attempt`. -/
structure JobAttempt where
  jobId : Uuid
  attemptNumber : Nat
  leaseToken : Option Uuid
  leasedBy : Option String
  startedAt : Timestamp
  completedAt : Option Timestamp
  outcomeStatus : Option JobStatus
  errorCode : Option String
  deriving DecidableEq

/-- The columns of `uq_job_active_identity`; missing listing ids are equal. -/
structure JobIdentity where
  jobType : JobType
  canonicalListingId : Option Uuid
  inputHash : String
  dependencyVersion : String
  deriving DecidableEq

namespace Job

def identity (job : Job) : JobIdentity :=
  ⟨job.jobType, job.canonicalListingId, job.inputHash, job.dependencyVersion⟩

/-- The condition of the partial index `uq_job_active_identity`. -/
def OccupiesIdentity (job : Job) : Prop :=
  job.status ≠ .failedTerminal ∧ job.status ≠ .cancelled

instance : DecidablePred OccupiesIdentity := fun job =>
  inferInstanceAs (Decidable (job.status ≠ .failedTerminal ∧ job.status ≠ .cancelled))

end Job

/-- `CLAIMABLE_STATUSES`. -/
def claimableStatuses : List JobStatus := [.pending, .failedRetryable]

/-- The statuses `complete` accepts. -/
def completionStatuses : List JobStatus :=
  [.succeeded, .failedRetryable, .failedTerminal, .cancelled, .blocked, .cached]

/-- The two tables of the queue. -/
structure QueueState where
  jobs : List Job
  attempts : List JobAttempt
  deriving DecidableEq

inductive QueueError
  | notACompletionStatus (status : JobStatus)
  | missingJob
  | severalRows
  | jobIdViolated
  | activeIdentityViolated
  | attemptNumberViolated
  deriving DecidableEq

namespace QueueState

/-- The queue before any job was enqueued. -/
def empty : QueueState := ⟨[], []⟩

/-- The unique indexes of the two tables, checked when a statement has run. -/
def enforce (queue : QueueState) : Except QueueError QueueState :=
  if ¬ PrimaryKey Job.jobId queue.jobs then .error .jobIdViolated
  else if ¬ UniqueIndex Job.OccupiesIdentity Job.identity queue.jobs then
    .error .activeIdentityViolated
  else if ¬ PrimaryKey (fun attempt => (attempt.jobId, attempt.attemptNumber)) queue.attempts then
    .error .attemptNumberViolated
  else .ok queue

/-- `session.get(Job, job_id)`. -/
def job? (queue : QueueState) (jobId : Uuid) : Option Job :=
  get Job.jobId queue.jobs jobId

end QueueState

/-- The arguments of `enqueue`. -/
structure EnqueueRequest where
  jobType : JobType
  inputHash : String
  dependencyVersion : String
  canonicalListingId : Option Uuid := none
  refreshRunId : Option Uuid := none
  priority : Int := 0
  maxAttempts : Int := 3
  nextAttemptAt : Option Timestamp := none
  deriving DecidableEq

/-- The row `enqueue` inserts. -/
def EnqueueRequest.job (request : EnqueueRequest) (jobId : Uuid) (now createdAt : Timestamp) :
    Job where
  jobId := jobId
  refreshRunId := request.refreshRunId
  canonicalListingId := request.canonicalListingId
  jobType := request.jobType
  inputHash := request.inputHash
  dependencyVersion := request.dependencyVersion
  status := .pending
  priority := request.priority
  attemptCount := 0
  maxAttempts := request.maxAttempts
  nextAttemptAt := some (request.nextAttemptAt.getD now)
  startedAt := none
  completedAt := none
  errorCode := none
  errorDetail := none
  leaseToken := none
  leasedBy := none
  leaseExpiresAt := none
  heartbeatAt := none
  terminalReason := none
  createdAt := createdAt

/-- The identity the row of a request would occupy. -/
def EnqueueRequest.identity (request : EnqueueRequest) : JobIdentity :=
  ⟨request.jobType, request.canonicalListingId, request.inputHash, request.dependencyVersion⟩

namespace Job

/-- The `WHERE` clause of the claim query. A missing due time is never due. -/
def claimable (now : Timestamp) (job : Job) : Bool :=
  job.status ∈ claimableStatuses && job.nextAttemptAt.any (· ≤ now) &&
    job.leaseExpiresAt.all (· < now) && (job.attemptCount : Int) < job.maxAttempts

/-- `ORDER BY priority DESC, created_at ASC`. -/
def ClaimedBefore (first second : Job) : Prop :=
  second.priority < first.priority ∨
    second.priority = first.priority ∧ first.createdAt ≤ second.createdAt

instance : DecidableRel ClaimedBefore := fun first second =>
  inferInstanceAs (Decidable (second.priority < first.priority ∨
    second.priority = first.priority ∧ first.createdAt ≤ second.createdAt))

/-- The columns `claim` writes. -/
def lease (workerId : String) (token : Uuid) (leaseSeconds : Int) (now : Timestamp) (job : Job) :
    Job :=
  { job with
    status := .running
    leaseToken := some token
    leasedBy := some workerId
    leaseExpiresAt := some (now + seconds leaseSeconds)
    heartbeatAt := some now
    attemptCount := job.attemptCount + 1
    startedAt := some now }

/-- The attempt row `claim` adds for a leased job. -/
def newAttempt (job : Job) (workerId : String) (now : Timestamp) : JobAttempt where
  jobId := job.jobId
  attemptNumber := job.attemptCount
  leaseToken := job.leaseToken
  leasedBy := some workerId
  startedAt := now
  completedAt := none
  outcomeStatus := none
  errorCode := none

/-- The condition of the heartbeat update. -/
def beating (jobId leaseToken : Uuid) (job : Job) : Bool :=
  job.jobId = jobId && job.leaseToken = some leaseToken && job.status = .running

/-- The status `complete` writes: a retry of a job whose attempts are used up is
terminal. -/
def outcome (job : Job) (status : JobStatus) : JobStatus :=
  if status = .failedRetryable ∧ job.maxAttempts ≤ job.attemptCount then .failedTerminal
  else status

/-- The columns `complete` writes. -/
def finish (status : JobStatus) (errorCode errorDetail : Option String)
    (retryDelaySeconds : Int) (now : Timestamp) (job : Job) : Job :=
  { job with
    status := job.outcome status
    terminalReason :=
      if job.outcome status = status then job.terminalReason else some "max_attempts_exhausted"
    errorCode := errorCode
    errorDetail := errorDetail
    leaseToken := none
    leasedBy := none
    leaseExpiresAt := none
    nextAttemptAt :=
      if job.outcome status = .failedRetryable then some (now + seconds retryDelaySeconds)
      else job.nextAttemptAt
    completedAt :=
      if job.outcome status = .failedRetryable then job.completedAt else some now }

/-- The condition of the recovery update. -/
def expired (now : Timestamp) (job : Job) : Bool :=
  job.status = .running && job.leaseExpiresAt.any (· < now)

/-- The columns `recover_expired_leases` writes. -/
def recover (now : Timestamp) (job : Job) : Job :=
  { job with
    status := .failedRetryable
    leaseToken := none
    leasedBy := none
    leaseExpiresAt := none
    errorCode := some "LEASE_EXPIRED"
    nextAttemptAt := some now }

end Job

namespace QueueState

/-- `JobQueue.enqueue`: `INSERT ... ON CONFLICT DO NOTHING RETURNING job_id`. -/
def enqueue (request : EnqueueRequest) (jobId : Uuid) (now createdAt : Timestamp)
    (queue : QueueState) : QueueState × Option Uuid :=
  if ∃ job ∈ queue.jobs, job.jobId = jobId ∨
      job.OccupiesIdentity ∧ job.identity = request.identity then
    (queue, none)
  else
    ({ queue with jobs := queue.jobs ++ [request.job jobId now createdAt] }, some jobId)

/-- The claim query: `FOR UPDATE SKIP LOCKED LIMIT batch_size`. -/
def candidateIds (batchSize : Nat) (now : Timestamp) (locked : Uuid → Bool)
    (queue : QueueState) : List Uuid :=
  (((queue.jobs.filter fun job => job.claimable now && !locked job.jobId).insertionSort
    Job.ClaimedBefore).take batchSize).map Job.jobId

/-- One round of the claim loop. -/
def claimJob (workerId : String) (leaseSeconds : Int) (now : Timestamp) (uuid4 : Uuid → Uuid)
    (queue : QueueState) (jobId : Uuid) : Except QueueError QueueState :=
  match queue.job? jobId with
  | none => .error .missingJob
  | some job =>
      enforce
        { jobs := updateWhere (fun row => row.jobId = jobId)
            (Job.lease workerId (uuid4 jobId) leaseSeconds now) queue.jobs
          attempts := queue.attempts ++
            [(job.lease workerId (uuid4 jobId) leaseSeconds now).newAttempt workerId now] }

/-- `JobQueue.claim`. The token drawn while claiming `jobId` is `uuid4 jobId`. -/
def claim (workerId : String) (leaseSeconds : Int) (batchSize : Nat) (now : Timestamp)
    (locked : Uuid → Bool) (uuid4 : Uuid → Uuid) (queue : QueueState) :
    Except QueueError (QueueState × List Job) := do
  let candidates := queue.candidateIds batchSize now locked
  let next ← candidates.foldlM (claimJob workerId leaseSeconds now uuid4) queue
  return (next, candidates.filterMap next.job?)

/-- `JobQueue.heartbeat`. -/
def heartbeat (jobId leaseToken : Uuid) (extendSeconds : Int) (now : Timestamp)
    (queue : QueueState) : Except QueueError (QueueState × Bool) := do
  let next ← enforce { queue with
    jobs := updateWhere (Job.beating jobId leaseToken)
      (fun job => { job with
        heartbeatAt := some now
        leaseExpiresAt := some (now + seconds extendSeconds) }) queue.jobs }
  return (next, queue.jobs.countP (Job.beating jobId leaseToken) = 1)

/-- The attempt row of the current attempt of a job. -/
def currentAttempt (job : Job) (attempt : JobAttempt) : Bool :=
  attempt.jobId = job.jobId && attempt.attemptNumber = job.attemptCount

/-- The attempt rows after `complete` closed the current attempt of `job`. -/
def closeAttempt (job : Job) (status : JobStatus) (errorCode : Option String) (now : Timestamp)
    (queue : QueueState) : Except QueueError (List JobAttempt) := do
  match ← scalarOneOrNone .severalRows (queue.attempts.filter (currentAttempt job)) with
  | none => return queue.attempts
  | some _ =>
      return updateWhere (currentAttempt job) (fun attempt => { attempt with
        completedAt := some now
        outcomeStatus := some (job.outcome status)
        errorCode := errorCode }) queue.attempts

/-- `JobQueue.complete`. -/
def complete (jobId leaseToken : Uuid) (status : JobStatus) (errorCode errorDetail : Option String)
    (retryDelaySeconds : Int) (now : Timestamp) (queue : QueueState) :
    Except QueueError (QueueState × Bool) := do
  if status ∉ completionStatuses then
    throw (.notACompletionStatus status)
  match ← scalarOneOrNone .severalRows
      (queue.jobs.filter fun job => job.jobId = jobId && job.leaseToken = some leaseToken) with
  | none => return (queue, false)
  | some job =>
      let attempts ← queue.closeAttempt job status errorCode now
      let next ← enforce
        { jobs := updateWhere (fun row => row.jobId = jobId)
            (Job.finish status errorCode errorDetail retryDelaySeconds now) queue.jobs
          attempts := attempts }
      return (next, true)

/-- `JobQueue.recover_expired_leases`. -/
def recoverExpiredLeases (now : Timestamp) (queue : QueueState) :
    Except QueueError (QueueState × Nat) := do
  let next ← enforce { queue with
    jobs := updateWhere (Job.expired now) (Job.recover now) queue.jobs }
  return (next, queue.jobs.countP (Job.expired now))

end QueueState

/-- One call of the queue with everything that is chosen outside it. -/
inductive QueueAction
  | enqueue (request : EnqueueRequest) (jobId : Uuid) (now createdAt : Timestamp)
  | claim (workerId : String) (leaseSeconds : Int) (batchSize : Nat) (now : Timestamp)
      (locked : Uuid → Bool) (uuid4 : Uuid → Uuid)
  | heartbeat (jobId leaseToken : Uuid) (extendSeconds : Int) (now : Timestamp)
  | complete (jobId leaseToken : Uuid) (status : JobStatus) (errorCode errorDetail : Option String)
      (retryDelaySeconds : Int) (now : Timestamp)
  | recoverExpiredLeases (now : Timestamp)

/-- What a call returns. -/
inductive QueueReply
  | enqueued (jobId : Option Uuid)
  | claimed (jobs : List Job)
  | beaten (alive : Bool)
  | completed (accepted : Bool)
  | recovered (count : Nat)
  deriving DecidableEq

namespace QueueState

/-- The transaction of one call and what the call returns. -/
def perform (queue : QueueState) : QueueAction → Except QueueError (QueueState × QueueReply)
  | .enqueue request jobId now createdAt =>
      let (next, reply) := queue.enqueue request jobId now createdAt
      return (next, .enqueued reply)
  | .claim workerId leaseSeconds batchSize now locked uuid4 => do
      let (next, jobs) ← queue.claim workerId leaseSeconds batchSize now locked uuid4
      return (next, .claimed jobs)
  | .heartbeat jobId leaseToken extendSeconds now => do
      let (next, alive) ← queue.heartbeat jobId leaseToken extendSeconds now
      return (next, .beaten alive)
  | .complete jobId leaseToken status errorCode errorDetail retryDelaySeconds now => do
      let (next, accepted) ←
        queue.complete jobId leaseToken status errorCode errorDetail retryDelaySeconds now
      return (next, .completed accepted)
  | .recoverExpiredLeases now => do
      let (next, count) ← queue.recoverExpiredLeases now
      return (next, .recovered count)

/-- The committed state after a call: a call that fails changes nothing. -/
def step (queue : QueueState) (action : QueueAction) : QueueState :=
  match queue.perform action with
  | .ok (next, _) => next
  | .error _ => queue

end QueueState

end RentalAgent
