import RentalAgent.Jobs.QueueInvariant

/-! # Lease safety and idempotent enqueue

Runs start from the empty queue and take any calls of any workers in any order,
with any clock readings and lease lengths; the only condition is that drawn
identifiers and tokens are new (`QueueAction.Fresh`). What one reachable state
guarantees for leases is `QueueState.LeaseSafe`, what it guarantees for
identities is `QueueState.IdentitySafe`; that a token completes at most once is
a count over the moments of the run.
-/

namespace RentalAgent

open Relational Transition

/-- A job was never claimed, or not more often than its limit allows. -/
def Job.WithinLimit (job : Job) : Prop :=
  job.attemptCount = 0 ∨ (job.attemptCount : Int) ≤ job.maxAttempts

/-- A lease of a claimable job stays within its limit. -/
theorem Job.lease_withinLimit {job : Job} {now : Timestamp} (claimable : job.claimable now = true)
    (workerId : String) (token : Uuid) (leaseSeconds : Int) :
    (job.lease workerId token leaseSeconds now).WithinLimit := by
  simp only [Job.claimable, Bool.and_eq_true, decide_eq_true_eq] at claimable
  right
  change ((job.attemptCount + 1 : Nat) : Int) ≤ job.maxAttempts
  have below := claimable.2
  omega

/-- Every run keeps the jobs within their limits. -/
theorem QueueState.withinLimit_preserved :
    Preserved QueueState.step QueueAction.Fresh
      (fun queue => queue.Coherent ∧ ∀ job ∈ queue.jobs, job.WithinLimit) := by
  refine jobs_preserved (fun _ _ fresh => fresh) ?_ fun _ _ _ _ _ _ => .inl rfl
  intro queue action old _ new _ move within
  cases move with
  | lease claimable => exact Job.lease_withinLimit claimable _ _ _
  | stay | beat _ | finish _ _ | recover _ => exact within

/-! ## Leases -/

/-- What every reachable state guarantees about its leases. -/
structure QueueState.LeaseSafe (queue : QueueState) : Prop where
  running_iff_held : ∀ job ∈ queue.jobs, job.status = .running ↔ job.leaseToken ≠ none
  withinLimit : ∀ job ∈ queue.jobs, 0 ≤ job.maxAttempts → (job.attemptCount : Int) ≤ job.maxAttempts
  attemptHistory : ∀ job ∈ queue.jobs,
    (queue.attemptNumbers job.jobId).Perm (List.range' 1 job.attemptCount)
  completes_iff_holds : ∀ jobId leaseToken, ∀ status ∈ completionStatuses,
    ∀ errorCode errorDetail retryDelaySeconds now,
      (∃ next, queue.complete jobId leaseToken status errorCode errorDetail retryDelaySeconds now =
        .ok (next, true)) ↔ queue.Holds jobId leaseToken
  staleCompletion : ∀ jobId leaseToken, ¬ queue.Holds jobId leaseToken →
    ∀ status ∈ completionStatuses, ∀ errorCode errorDetail retryDelaySeconds now,
      queue.complete jobId leaseToken status errorCode errorDetail retryDelaySeconds now =
        .ok (queue, false)
  staleHeartbeat : ∀ jobId leaseToken, ¬ queue.Holds jobId leaseToken →
    ∀ extendSeconds now, queue.heartbeat jobId leaseToken extendSeconds now = .ok (queue, false)

namespace QueueState

variable {queue : QueueState} {jobId leaseToken : Uuid} {status : JobStatus}
  {errorCode errorDetail : Option String} {retryDelaySeconds : Int} {now : Timestamp}

/-- A completion is accepted only from the holder of the lease. -/
theorem holds_of_complete {next : QueueState}
    (completed : queue.complete jobId leaseToken status errorCode errorDetail retryDelaySeconds
      now =
      .ok (next, true)) : queue.Holds jobId leaseToken := by
  by_contra stale
  rw [complete_of_not_holds stale] at completed
  split at completed
  · simp at completed
  · cases completed

/-- A completion is accepted just when the token holds the job. -/
theorem Coherent.complete_iff_holds (coherent : queue.Coherent)
    (accepted : status ∈ completionStatuses) :
    (∃ next, queue.complete jobId leaseToken status errorCode errorDetail retryDelaySeconds now =
      .ok (next, true)) ↔ queue.Holds jobId leaseToken := by
  constructor
  · rintro ⟨next, completed⟩
    exact holds_of_complete completed
  · rintro ⟨job, member, rfl, holds⟩
    obtain ⟨next, completed, _⟩ := coherent.complete_of_holds accepted member holds errorCode
      errorDetail retryDelaySeconds now
    exact ⟨next, completed⟩

/-- A heartbeat with a stale token is refused and changes nothing. -/
theorem Coherent.heartbeat_of_not_holds (coherent : queue.Coherent)
    (stale : ¬ queue.Holds jobId leaseToken) (extendSeconds : Int) :
    queue.heartbeat jobId leaseToken extendSeconds now = .ok (queue, false) := by
  have silent : ∀ job ∈ queue.jobs, Job.beating jobId leaseToken job = false := by
    intro job member
    by_contra beating
    simp only [Bool.not_eq_false, Job.beating, Bool.and_eq_true, decide_eq_true_eq] at beating
    exact stale ⟨job, member, beating.1⟩
  have count : queue.jobs.countP (Job.beating jobId leaseToken) = 0 :=
    List.countP_eq_zero.mpr fun job member => by simp [silent job member]
  rw [QueueState.heartbeat, updateWhere_eq_self silent, coherent.enforce, count]
  rfl

/-- A coherent queue whose jobs are within their limits is safe. -/
theorem Coherent.leaseSafe (coherent : queue.Coherent)
    (within : ∀ job ∈ queue.jobs, job.WithinLimit) : queue.LeaseSafe where
  running_iff_held := by
    intro job member
    rw [(coherent.rows job member).held, Option.isSome_iff_ne_none]
  withinLimit := by
    intro job member limit
    rcases within job member with unclaimed | bounded
    · simpa [unclaimed] using limit
    · exact bounded
  attemptHistory := by
    intro job member
    rw [coherent.numbers job member]
  completes_iff_holds := fun _ _ _ accepted _ _ _ _ => coherent.complete_iff_holds accepted
  staleCompletion := by
    intro jobId leaseToken stale status accepted errorCode errorDetail retryDelaySeconds now
    rw [complete_of_not_holds stale, if_pos accepted]
  staleHeartbeat := fun _ _ stale extendSeconds _ =>
    coherent.heartbeat_of_not_holds stale extendSeconds

end QueueState

/-- A completion with this token that returns true. -/
def completesWith (token : Uuid) (moment : QueueState × QueueAction) : Bool :=
  match moment.2 with
  | .complete _ leaseToken _ _ _ _ _ =>
      leaseToken = token &&
        match moment.1.perform moment.2 with
        | .ok (_, reply) => reply = .completed true
        | .error _ => false
  | _ => false

namespace QueueState

variable {queue : QueueState} {action : QueueAction} {token : Uuid}

/-- The token was issued, and no job holds it any more. -/
def Spent (token : Uuid) (queue : QueueState) : Prop :=
  some token ∈ queue.issuedTokens ∧ ∀ job ∈ queue.jobs, job.leaseToken ≠ some token

/-- A firing is an accepted completion of the job that holds the token. -/
theorem of_completesWith (fires : completesWith token (queue, action) = true) :
    ∃ job ∈ queue.jobs, job.leaseToken = some token ∧ ∃ status ∈ completionStatuses,
      ∃ errorCode errorDetail retryDelaySeconds now, action =
        .complete job.jobId token status errorCode errorDetail retryDelaySeconds now := by
  cases action with
  | complete jobId leaseToken status errorCode errorDetail retryDelaySeconds now =>
      simp only [completesWith, Bool.and_eq_true, decide_eq_true_eq] at fires
      obtain ⟨rfl, returned⟩ := fires
      by_cases accepted : status ∈ completionStatuses
      · by_cases holds : queue.Holds jobId leaseToken
        · obtain ⟨job, member, rfl, held⟩ := holds
          exact ⟨job, member, held, status, accepted, errorCode, errorDetail, retryDelaySeconds,
            now, rfl⟩
        · rw [QueueState.perform, complete_of_not_holds holds, if_pos accepted] at returned
          cases returned
      · rw [QueueState.perform, complete_of_status accepted] at returned
        cases returned
  | enqueue _ _ _ _ | claim _ _ _ _ _ _ | heartbeat _ _ _ _ | recoverExpiredLeases _ =>
      cases fires

/-- A completion spends its token. -/
theorem Coherent.spends (coherent : queue.Coherent)
    (fires : completesWith token (queue, action) = true) : (queue.step action).Spent token := by
  obtain ⟨job, member, held, status, accepted, errorCode, errorDetail, retryDelaySeconds, now,
    rfl⟩ := of_completesWith fires
  obtain ⟨next, completed, _, attempts, jobs⟩ :=
    coherent.complete_of_holds accepted member held errorCode errorDetail retryDelaySeconds now
  have stepped : queue.step (.complete job.jobId token status errorCode errorDetail
      retryDelaySeconds now) = next := by
    rw [QueueState.step, QueueState.perform, completed]
    rfl
  rw [stepped]
  constructor
  · have same : next.issuedTokens = queue.issuedTokens := by
      rw [issuedTokens, attempts]
      exact map_updateWhere _ fun _ _ _ => rfl
    rw [same, ← held]
    exact coherent.heldIssued job member (by simp [held])
  · intro new newMem
    rw [jobs] at newMem
    obtain ⟨old, oldMem, rfl⟩ := mem_updateWhere.mp newMem
    split
    · simp [Job.finish]
    · rename_i other
      intro oldHeld
      exact other (by simp [coherent.job_eq_of_token oldMem member oldHeld held])

/-- A spent token stays spent: claims draw tokens that were never issued. -/
theorem Coherent.spent_step (coherent : queue.Coherent) (fresh : action.Fresh queue)
    (spent : queue.Spent token) : (queue.step action).Spent token := by
  have facts := coherent.step fresh
  refine ⟨facts.tokens _ spent.1, fun new newMem => ?_⟩
  rcases facts.jobs new newMem with ⟨old, oldMem, move⟩ | ⟨_, _, _, _, _, rfl⟩
  · have unheld := spent.2 old oldMem
    cases move with
    | stay | beat _ => exact unheld
    | finish _ _ | recover _ => simp [Job.finish, Job.recover]
    | lease claimable =>
        intro drawn
        have issued := fresh.2 old oldMem
        rw [Option.some.inj drawn] at issued
        exact issued spent.1
  · simp [EnqueueRequest.job]

theorem completesWith_of_spent (spent : queue.Spent token) :
    completesWith token (queue, action) = false := by
  by_contra fires
  obtain ⟨job, member, held, _⟩ := of_completesWith (Bool.not_eq_false _ ▸ fires)
  exact spent.2 job member held

end QueueState

/-- **Lease safety.** In every run of the queue operations from the empty queue,
every reached state is lease safe, and no token completes twice. -/
theorem lease_safety (actions : List QueueAction)
    (fresh : Permitted QueueState.step QueueAction.Fresh .empty actions) :
    (run QueueState.step .empty actions).LeaseSafe ∧
      ∀ token, (moments QueueState.step .empty actions).countP (completesWith token) ≤ 1 := by
  constructor
  · obtain ⟨coherent, within⟩ := QueueState.withinLimit_preserved.run
      ⟨QueueState.coherent_empty, by simp [QueueState.empty]⟩ fresh
    exact coherent.leaseSafe within
  · intro token
    exact countP_moments_le_one (QueueState.Spent token) QueueState.coherent_preserved
      (fun _ _ coherent _ => coherent.spends)
      (fun _ _ coherent drawn => coherent.spent_step drawn)
      (fun _ _ _ => QueueState.completesWith_of_spent) QueueState.coherent_empty fresh

/-- A worker loses its lease to recovery, another worker claims the job, and both
complete. -/
def takenOverRun : List QueueAction :=
  [.enqueue { jobType := .normalize, inputHash := "hash", dependencyVersion := "1" } 1 0 0,
    .claim "first" 300 1 0 (fun _ => false) (fun _ => 10),
    .recoverExpiredLeases (seconds 301),
    .claim "second" 300 1 (seconds 301) (fun _ => false) (fun _ => 11),
    .complete 1 10 .succeeded none none 30 (seconds 302),
    .complete 1 11 .succeeded none none 30 (seconds 303)]

theorem lease_safety_takenOver :
    (run QueueState.step .empty takenOverRun).LeaseSafe ∧
      ∀ token, (moments QueueState.step .empty takenOverRun).countP (completesWith token) ≤ 1 :=
  lease_safety takenOverRun (by decide)

example : (moments QueueState.step .empty takenOverRun).countP (completesWith 10) = 0 := by decide

example : (moments QueueState.step .empty takenOverRun).countP (completesWith 11) = 1 := by decide

/-- A request for a job with a limit below zero, which is stored as it is given. -/
def belowZero : EnqueueRequest where
  jobType := .normalize
  inputHash := "hash"
  dependencyVersion := "1"
  maxAttempts := -1

/-- A job that was never claimed exceeds a limit below zero. -/
theorem negative_limit_exceeded :
    ¬∀ actions : List QueueAction, Permitted QueueState.step QueueAction.Fresh .empty actions →
      ∀ job ∈ (run QueueState.step .empty actions).jobs,
        (job.attemptCount : Int) ≤ job.maxAttempts := by
  intro bounded
  have exceeded := bounded [.enqueue belowZero 1 0 0] (by decide)
  revert exceeded
  decide

/-! ## Identities -/

/-- What every reachable state guarantees about job identities. -/
structure QueueState.IdentitySafe (queue : QueueState) : Prop where
  atMostOne : ∀ identity : JobIdentity,
    (queue.jobs.filter fun job => job.OccupiesIdentity ∧ job.identity = identity).length ≤ 1
  enqueued_iff_free : ∀ request jobId now createdAt, (∀ job ∈ queue.jobs, job.jobId ≠ jobId) →
    ((queue.enqueue request jobId now createdAt).2 = some jobId ↔
      ¬ queue.Occupied request.identity)
  enqueue_occupied : ∀ request jobId now createdAt, queue.Occupied request.identity →
    queue.enqueue request jobId now createdAt = (queue, none)
  neverViolated : ∀ action : QueueAction, action.Fresh queue →
    queue.perform action ≠ .error .activeIdentityViolated

/-- Coherence settles the identities of active jobs. -/
theorem QueueState.Coherent.identitySafe {queue : QueueState} (coherent : queue.Coherent) :
    queue.IdentitySafe where
  atMostOne := by
    intro identity
    refine coherent.activeIdentities.length_filter_le_one identity ?_
    intro job _ selected
    simpa using selected
  enqueued_iff_free := by
    intro request jobId now createdAt fresh
    constructor
    · intro inserted occupied
      rw [enqueue_of_occupied occupied] at inserted
      cases inserted
    · intro free
      rw [enqueue_of_free fresh free]
  enqueue_occupied := fun _ _ _ _ occupied => enqueue_of_occupied occupied
  neverViolated := by
    intro action fresh violated
    rcases coherent.perform fresh with ⟨next, reply, performed, _⟩ | ⟨status, refused⟩
    · rw [performed] at violated
      cases violated
    · rw [refused] at violated
      cases violated

/-- An equivalent job is refused while the first one lives and accepted after its
terminal failure. -/
def reenqueuedRun : List QueueAction :=
  [.enqueue { jobType := .geocode, inputHash := "hash", dependencyVersion := "1" } 1 0 0,
    .enqueue { jobType := .geocode, inputHash := "hash", dependencyVersion := "1" } 2 1 1,
    .claim "worker" 300 1 2 (fun _ => false) (fun _ => 10),
    .complete 1 10 .failedTerminal (some "GONE") none 30 3,
    .enqueue { jobType := .geocode, inputHash := "hash", dependencyVersion := "1" } 3 4 4]

example : (run QueueState.step .empty reenqueuedRun).jobs.map Job.jobId = [1, 3] := by decide

end RentalAgent
