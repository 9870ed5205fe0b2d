import RentalAgent.Jobs.QueueInvariant

/-! # Attempt limits

`complete` turns a retry into a terminal failure once the attempts of a job are
used up, and `claim` passes over such jobs, but `recover_expired_leases` returns
a job to `FAILED_RETRYABLE` whatever its attempt counter says. A job that was
never recovered at its limit is not stranded: while it waits it can be claimed,
and once its attempts are used up and its lease is over it has ended.
-/

namespace RentalAgent

open Relational Transition

/-- The statuses that no operation leaves. -/
def endedStatuses : List JobStatus := [.succeeded, .failedTerminal, .cancelled, .blocked, .cached]

/-- Every enqueued job may be attempted at least once. -/
def QueueAction.Attemptable : QueueAction → Prop
  | .enqueue request _ _ _ => 1 ≤ request.maxAttempts
  | .claim .. | .heartbeat .. | .complete .. | .recoverExpiredLeases _ => True

instance (action : QueueAction) : Decidable action.Attemptable :=
  match action with
  | .enqueue request _ _ _ => inferInstanceAs (Decidable (1 ≤ request.maxAttempts))
  | .claim .. | .heartbeat .. | .complete .. | .recoverExpiredLeases _ =>
      inferInstanceAs (Decidable True)

/-- The action recovers the expired lease of a job whose attempts are used up. -/
def QueueAction.RecoversExhausted (queue : QueueState) (jobId : Uuid) : QueueAction → Prop
  | .recoverExpiredLeases now => ∃ job ∈ queue.jobs, job.jobId = jobId ∧ job.expired now = true ∧
      job.maxAttempts ≤ job.attemptCount
  | .enqueue .. | .claim .. | .heartbeat .. | .complete .. => False

instance (queue : QueueState) (jobId : Uuid) (action : QueueAction) :
    Decidable (action.RecoversExhausted queue jobId) :=
  match action with
  | .recoverExpiredLeases now => inferInstanceAs (Decidable (∃ job ∈ queue.jobs,
      job.jobId = jobId ∧ job.expired now = true ∧ job.maxAttempts ≤ job.attemptCount))
  | .enqueue .. | .claim .. | .heartbeat .. | .complete .. => inferInstanceAs (Decidable False)

/-- The runs in which `jobId` is never recovered at its limit. -/
def WithinAttempts (jobId : Uuid) (queue : QueueState) (action : QueueAction) : Prop :=
  action.Fresh queue ∧ action.Attemptable ∧ ¬ action.RecoversExhausted queue jobId

instance (jobId : Uuid) (queue : QueueState) (actions : List QueueAction) :
    Decidable (Permitted QueueState.step (WithinAttempts jobId) queue actions) :=
  inferInstanceAs (Decidable (∀ moment ∈ moments QueueState.step queue actions, _ ∧ _ ∧ _))

/-- The job has an attempt left whenever its status lets `claim` consider it. -/
def Job.Retriable (job : Job) : Prop :=
  job.status ∈ claimableStatuses → (job.attemptCount : Int) < job.maxAttempts

/-- A job that finished has an attempt left, or has left the statuses that are claimed. -/
theorem Job.finish_retriable {job : Job} {status : JobStatus}
    (accepted : status ∈ completionStatuses)
    (errorCode errorDetail : Option String) (retryDelaySeconds : Int) (now : Timestamp) :
    (job.finish status errorCode errorDetail retryDelaySeconds now).Retriable := by
  intro waiting
  change job.outcome status ∈ claimableStatuses at waiting
  change (job.attemptCount : Int) < job.maxAttempts
  by_contra exhausted
  have limit : job.maxAttempts ≤ job.attemptCount := not_lt.mp exhausted
  have notPending : status ≠ .pending := by
    rintro rfl
    simp [completionStatuses] at accepted
  by_cases retry : status = .failedRetryable
  · simp [Job.outcome, retry, limit, claimableStatuses] at waiting
  · simp [Job.outcome, retry, notPending, claimableStatuses] at waiting

namespace QueueState

/-- A run that never recovers the job at its limit keeps it retriable. -/
theorem retriable_preserved (jobId : Uuid) :
    Preserved QueueState.step (WithinAttempts jobId)
      (fun queue => queue.Coherent ∧ ∀ job ∈ queue.jobs, job.jobId = jobId → job.Retriable) := by
  refine jobs_preserved (fun _ _ permitted => permitted.1) ?_ ?_
  · intro queue action old oldMem new permitted move retriable same
    cases move with
    | stay => exact retriable same
    | lease _ =>
        intro waiting
        simp [Job.lease, claimableStatuses] at waiting
    | beat beating => exact retriable same
    | finish accepted _ => exact Job.finish_retriable accepted _ _ _ _
    | recover expired =>
        -- the only other way back to a claimable status does not consult the limit
        intro _
        by_contra exhausted
        exact permitted.2.2 ⟨old, oldMem, same, expired, not_lt.mp exhausted⟩
  · intro queue request id now createdAt permitted _ _
    change ((0 : Nat) : Int) < request.maxAttempts
    have attemptable : 1 ≤ request.maxAttempts := permitted.2.1
    omega

variable {queue : QueueState}

/-- A waiting job that is due and has an attempt left is claimable. -/
theorem Coherent.claimable_of_retriable (coherent : queue.Coherent) {job : Job}
    (member : job ∈ queue.jobs) (waiting : job.status ∈ claimableStatuses)
    (retriable : job.Retriable) {now : Timestamp} (due : ∀ time ∈ job.nextAttemptAt, time ≤ now) :
    job.claimable now = true := by
  have row := coherent.rows job member
  have idle : job.leaseExpiresAt = none := by
    have stopped : job.status ≠ .running := by
      intro running
      simp [running, claimableStatuses] at waiting
    rw [← Option.not_isSome_iff_eq_none, row.expiry, ← row.held]
    exact stopped
  obtain ⟨time, scheduled⟩ := Option.isSome_iff_exists.mp row.due
  have reached : time ≤ now := due time scheduled
  simp [Job.claimable, waiting, scheduled, reached, idle, retriable waiting]

/-- A claim with room for every job takes every claimable job that is not locked. -/
theorem mem_candidateIds_of_claimable {job : Job} (member : job ∈ queue.jobs) {now : Timestamp}
    (claimable : job.claimable now = true) {locked : Uuid → Bool} (free : locked job.jobId = false)
    {batchSize : Nat} (room : queue.jobs.length ≤ batchSize) :
    job.jobId ∈ queue.candidateIds batchSize now locked := by
  have selected : job ∈ queue.jobs.filter fun row => row.claimable now && !locked row.jobId :=
    List.mem_filter.mpr ⟨member, by simp [claimable, free]⟩
  have short := (List.length_filter_le (fun row => row.claimable now && !locked row.jobId)
    queue.jobs).trans room
  rw [candidateIds, List.take_of_length_le (by rwa [List.length_insertionSort])]
  exact List.mem_map_of_mem ((List.mem_insertionSort _).mpr selected)

/-- A claim with room for every job takes each one that is due, free and retriable. -/
theorem Coherent.claim_of_retriable (coherent : queue.Coherent) {job : Job}
    (member : job ∈ queue.jobs) (waiting : job.status ∈ claimableStatuses)
    (retriable : job.Retriable) {now : Timestamp} (due : ∀ time ∈ job.nextAttemptAt, time ≤ now)
    {locked : Uuid → Bool} (free : locked job.jobId = false) {batchSize : Nat}
    (room : queue.jobs.length ≤ batchSize) {uuid4 : Uuid → Uuid} (draws : queue.DrawsFresh uuid4)
    (workerId : String) (leaseSeconds : Int) :
    ∃ next claimed, queue.claim workerId leaseSeconds batchSize now locked uuid4 =
      .ok (next, claimed) ∧
        job.lease workerId (uuid4 job.jobId) leaseSeconds now ∈ next.jobs := by
  have claimable := coherent.claimable_of_retriable member waiting retriable due
  obtain ⟨next, claimed, _, jobs, _⟩ :=
    coherent.claim draws workerId leaseSeconds batchSize now locked
  refine ⟨next, _, claimed, ?_⟩
  rw [jobs]
  exact List.mem_map.mpr ⟨job, member,
    by simp [mem_candidateIds_of_claimable member claimable free room]⟩

/-- A job outside the active index does not stand in the way of an equivalent one. -/
theorem enqueue_of_released {job : Job} (released : ¬ job.OccupiesIdentity)
    (others : ∀ other ∈ queue.jobs, other ≠ job → other.OccupiesIdentity →
      other.identity ≠ job.identity)
    {request : EnqueueRequest} (equivalent : request.identity = job.identity) {jobId : Uuid}
    (fresh : ∀ other ∈ queue.jobs, other.jobId ≠ jobId) (now createdAt : Timestamp) :
    (queue.enqueue request jobId now createdAt).2 = some jobId := by
  rw [enqueue_of_free fresh]
  rintro ⟨other, member, occupies, same⟩
  by_cases itself : other = job
  · exact released (itself ▸ occupies)
  · exact others other member itself occupies (same.trans equivalent)

end QueueState

/-- What the attempt limit means for one job of a queue: it can be claimed while
it waits, it has ended once its attempts are used up and its lease is over, and
after a terminal failure or cancellation an equivalent job can be enqueued. -/
structure Job.Unstranded (queue : QueueState) (job : Job) : Prop where
  retriable : job.Retriable
  claimed : job.status ∈ claimableStatuses →
    ∀ workerId leaseSeconds batchSize now locked uuid4,
      (∀ time ∈ job.nextAttemptAt, time ≤ now) → locked job.jobId = false →
      queue.jobs.length ≤ batchSize → queue.DrawsFresh uuid4 →
      ∃ next claimed, queue.claim workerId leaseSeconds batchSize now locked uuid4 =
        .ok (next, claimed) ∧ job.lease workerId (uuid4 job.jobId) leaseSeconds now ∈ next.jobs
  ended : job.maxAttempts ≤ job.attemptCount → job.leaseToken = none → job.status ∈ endedStatuses
  released : job.status = .failedTerminal ∨ job.status = .cancelled → ¬ job.OccupiesIdentity ∧
    ((∀ other ∈ queue.jobs, other ≠ job → other.OccupiesIdentity →
        other.identity ≠ job.identity) →
      ∀ request : EnqueueRequest, request.identity = job.identity →
      ∀ jobId, (∀ other ∈ queue.jobs, other.jobId ≠ jobId) →
      ∀ now createdAt, (queue.enqueue request jobId now createdAt).2 = some jobId)

/-- **Attempt limit.** In every run that never recovers the job at its limit, the
job is not stranded in any reached state. -/
theorem attempt_limit_unstranded (actions : List QueueAction) (jobId : Uuid)
    (permitted : Permitted QueueState.step (WithinAttempts jobId) .empty actions) :
    ∀ job ∈ (run QueueState.step .empty actions).jobs, job.jobId = jobId →
      job.Unstranded (run QueueState.step .empty actions) := by
  obtain ⟨coherent, valid⟩ := (QueueState.retriable_preserved jobId).run
    ⟨QueueState.coherent_empty, by simp [QueueState.empty]⟩ permitted
  intro job member same
  have retriable := valid job member same
  refine ⟨retriable, ?_, ?_, ?_⟩
  · intro waiting workerId leaseSeconds batchSize now locked uuid4 due free room draws
    exact coherent.claim_of_retriable member waiting retriable due free room draws workerId
      leaseSeconds
  · intro exhausted idle
    have stopped : job.status ≠ .running := by
      rw [Ne, (coherent.rows job member).held, idle]
      simp
    have left : job.status ∉ claimableStatuses := fun waiting =>
      (not_lt.mpr exhausted) (retriable waiting)
    revert stopped left
    cases job.status <;> decide
  · intro failed
    have free : ¬ job.OccupiesIdentity := by
      rintro ⟨notTerminal, notCancelled⟩
      exact failed.elim notTerminal notCancelled
    exact ⟨free, fun others request equivalent jobId fresh now createdAt =>
      QueueState.enqueue_of_released free others equivalent fresh now createdAt⟩

/-- The only attempt of a job fails. -/
def exhaustedRun (status : JobStatus) : List QueueAction :=
  [.enqueue ⟨.normalize, "hash", "1", none, none, 0, 1, none⟩ 1 0 0,
    .claim "worker" 300 1 0 (fun _ => false) (fun _ => 10),
    .complete 1 10 status none none 60 (seconds 5)]

/-- A job whose only attempt fails is terminal and not stranded. -/
theorem attempt_limit_unstranded_exhausted :
    ∃ job ∈ (run QueueState.step .empty (exhaustedRun .failedRetryable)).jobs,
      job.status = .failedTerminal ∧
        job.Unstranded (run QueueState.step .empty (exhaustedRun .failedRetryable)) := by
  obtain ⟨job, member, same, failed⟩ :
      ∃ job ∈ (run QueueState.step .empty (exhaustedRun .failedRetryable)).jobs,
        job.jobId = 1 ∧ job.status = .failedTerminal := by decide
  exact ⟨job, member, failed,
    attempt_limit_unstranded (exhaustedRun .failedRetryable) 1 (by decide) job member same⟩

/-- The worker of the only attempt crashes, and its lease is recovered. -/
def crashedRun : List QueueAction :=
  [.enqueue ⟨.normalize, "hash", "1", none, none, 0, 1, none⟩ 1 0 0,
    .claim "worker" 300 1 0 (fun _ => false) (fun _ => 10),
    .recoverExpiredLeases (seconds 301)]

/-- Every waiting job has an attempt left. -/
def QueueState.WaitingRetriable (queue : QueueState) : Prop :=
  ∀ job ∈ queue.jobs, job.status ∈ claimableStatuses → (job.attemptCount : Int) < job.maxAttempts

/-- Every job whose attempts are used up and whose lease is over has left the
active index. -/
def QueueState.ExhaustedReleased (queue : QueueState) : Prop :=
  ∀ job ∈ queue.jobs, job.maxAttempts ≤ job.attemptCount → job.leaseToken = none →
    ¬ job.OccupiesIdentity

/-- Recovery strands a job at its limit, and a job that succeeded in its last
attempt keeps its identity occupied. -/
theorem attempt_limit_strands :
    (Permitted QueueState.step (fun queue action => action.Fresh queue ∧ action.Attemptable)
        .empty crashedRun ∧
      ¬ (run QueueState.step .empty crashedRun).WaitingRetriable) ∧
    (Permitted QueueState.step (fun queue action => action.Fresh queue ∧ action.Attemptable)
        .empty (exhaustedRun .succeeded) ∧
      ¬ (run QueueState.step .empty (exhaustedRun .succeeded)).ExhaustedReleased) := by
  refine ⟨⟨?_, ?_⟩, ?_, ?_⟩
  · unfold Permitted
    decide
  · unfold QueueState.WaitingRetriable
    decide
  · unfold Permitted
    decide
  · unfold QueueState.ExhaustedReleased
    decide

end RentalAgent
