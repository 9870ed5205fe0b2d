import RentalAgent.Jobs.Queue

/-! # What the queue operations keep

`QueueState.Coherent` couples the status, the lease, the attempt counter and the
attempt history of every job, and contains the unique indexes, so no operation
on a coherent queue fails on one of them. Heartbeats, completions and recoveries
rewrite jobs without counting an attempt and share one lemma
(`QueueState.Coherent.rewrite`); a claim leases its candidates one by one
(`QueueState.Coherent.claimJob`).
-/

namespace RentalAgent

open Relational Transition

/-- The tokens ever written to an attempt row. -/
def QueueState.issuedTokens (queue : QueueState) : List (Option Uuid) :=
  queue.attempts.map JobAttempt.leaseToken

/-- The attempt numbers recorded for a job, in insertion order. -/
def QueueState.attemptNumbers (queue : QueueState) (jobId : Uuid) : List Nat :=
  (queue.attempts.filter fun attempt => attempt.jobId = jobId).map JobAttempt.attemptNumber

/-- The unique key of an attempt row. -/
def JobAttempt.key (attempt : JobAttempt) : Uuid × Nat := (attempt.jobId, attempt.attemptNumber)

/-- The lease columns of a job agree with its status, and it has a due time. -/
structure Job.Coherent (job : Job) : Prop where
  held : job.status = .running ↔ job.leaseToken.isSome
  expiry : job.leaseExpiresAt.isSome ↔ job.leaseToken.isSome
  due : job.nextAttemptAt.isSome

/-- The invariant of the two tables. -/
structure QueueState.Coherent (queue : QueueState) : Prop where
  jobIds : PrimaryKey Job.jobId queue.jobs
  activeIdentities : UniqueIndex Job.OccupiesIdentity Job.identity queue.jobs
  attemptKeys : PrimaryKey JobAttempt.key queue.attempts
  rows : ∀ job ∈ queue.jobs, job.Coherent
  numbers : ∀ job ∈ queue.jobs, queue.attemptNumbers job.jobId = List.range' 1 job.attemptCount
  attemptJobs : ∀ attempt ∈ queue.attempts, ∃ job ∈ queue.jobs, job.jobId = attempt.jobId
  tokens : queue.issuedTokens.Nodup
  heldIssued : ∀ job ∈ queue.jobs, job.leaseToken.isSome → job.leaseToken ∈ queue.issuedTokens
  heldApart : UniqueIndex (fun job => job.leaseToken.isSome) Job.leaseToken queue.jobs

/-- The attempt numbers of a job depend on the attempt keys only. -/
theorem QueueState.attemptNumbers_eq (queue : QueueState) (jobId : Uuid) :
    queue.attemptNumbers jobId =
      ((queue.attempts.map JobAttempt.key).filter fun key => key.1 = jobId).map Prod.snd := by
  rw [List.filter_map, List.map_map]
  rfl

namespace QueueState

/-- The empty queue is coherent. -/
theorem coherent_empty : QueueState.empty.Coherent where
  jobIds := List.Pairwise.nil
  activeIdentities := List.Pairwise.nil
  attemptKeys := List.Pairwise.nil
  rows := by simp [QueueState.empty]
  numbers := by simp [QueueState.empty]
  attemptJobs := by simp [QueueState.empty]
  tokens := List.nodup_nil
  heldIssued := by simp [QueueState.empty]
  heldApart := List.Pairwise.nil

namespace Coherent

variable {queue : QueueState}

/-- A coherent queue passes the unique indexes. -/
theorem enforce (coherent : queue.Coherent) : queue.enforce = .ok queue := by
  have attemptKeys : PrimaryKey (fun attempt : JobAttempt => (attempt.jobId, attempt.attemptNumber))
      queue.attempts := coherent.attemptKeys
  simp only [QueueState.enforce, coherent.jobIds, coherent.activeIdentities, attemptKeys, not_true,
    ↓reduceIte]

/-- A job that holds a token occupies its identity. -/
theorem occupies_of_held {job : Job} (row : job.Coherent) (held : job.leaseToken.isSome) :
    job.OccupiesIdentity := by
  have running := row.held.mpr held
  constructor <;> simp [running]

/-- The job that holds a token is the only one. -/
theorem job_eq_of_token (coherent : queue.Coherent) {first second : Job} {token : Uuid}
    (firstMem : first ∈ queue.jobs) (secondMem : second ∈ queue.jobs)
    (firstHolds : first.leaseToken = some token) (secondHolds : second.leaseToken = some token) :
    first = second :=
  coherent.heldApart.eq_of_mem firstMem secondMem (by simp [firstHolds]) (by simp [secondHolds])
    (firstHolds.trans secondHolds.symm)

theorem job?_eq_some (coherent : queue.Coherent) {jobId : Uuid} {job : Job} :
    queue.job? jobId = some job ↔ job ∈ queue.jobs ∧ job.jobId = jobId :=
  get_eq_some coherent.jobIds

/-- **Rewriting jobs without counting an attempt.** The rewritten jobs keep
their identity, do not reenter the active index, and give up their token or keep
it; the attempt rows keep their keys and tokens. -/
theorem rewrite (coherent : queue.Coherent) (condition : Job → Bool) (change : Job → Job)
    (attempts : List JobAttempt) (keepsId : ∀ job, (change job).jobId = job.jobId)
    (keepsIdentity : ∀ job, (change job).identity = job.identity)
    (keepsCount : ∀ job, (change job).attemptCount = job.attemptCount)
    (token : ∀ job, (change job).leaseToken = none ∨ (change job).leaseToken = job.leaseToken)
    (row : ∀ job ∈ queue.jobs, condition job = true → (change job).Coherent)
    (leaves : ∀ job ∈ queue.jobs, condition job = true → job.OccupiesIdentity)
    (sameKeys : attempts.map JobAttempt.key = queue.attempts.map JobAttempt.key)
    (sameTokens : attempts.map JobAttempt.leaseToken = queue.issuedTokens) :
    QueueState.Coherent ⟨updateWhere condition change queue.jobs, attempts⟩ := by
  have numbers (jobId : Uuid) :
      QueueState.attemptNumbers ⟨updateWhere condition change queue.jobs, attempts⟩ jobId =
        queue.attemptNumbers jobId := by
    rw [attemptNumbers_eq, attemptNumbers_eq, sameKeys]
  have ids : (updateWhere condition change queue.jobs).map Job.jobId = queue.jobs.map Job.jobId :=
    map_updateWhere _ fun job _ _ => keepsId job
  constructor
  · rw [primaryKey_iff_nodup, ids]
    exact primaryKey_iff_nodup.mp coherent.jobIds
  · apply coherent.activeIdentities.updateWhere
    intro job member selected _
    exact ⟨leaves job member selected, keepsIdentity job⟩
  · rw [primaryKey_iff_nodup]
    change (attempts.map JobAttempt.key).Nodup
    rw [sameKeys]
    exact primaryKey_iff_nodup.mp coherent.attemptKeys
  · intro job member
    obtain ⟨old, oldMem, rfl⟩ := mem_updateWhere.mp member
    split
    · rename_i selected
      exact row old oldMem selected
    · exact coherent.rows old oldMem
  · intro job member
    obtain ⟨old, oldMem, rfl⟩ := mem_updateWhere.mp member
    rw [numbers]
    split
    · rw [keepsId, keepsCount, coherent.numbers old oldMem]
    · exact coherent.numbers old oldMem
  · intro attempt member
    have keyMem : attempt.key ∈ queue.attempts.map JobAttempt.key :=
      sameKeys ▸ List.mem_map_of_mem member
    obtain ⟨old, oldMem, oldKey⟩ := List.mem_map.mp keyMem
    obtain ⟨job, jobMem, jobKey⟩ := coherent.attemptJobs old oldMem
    have idMem : job.jobId ∈ (updateWhere condition change queue.jobs).map Job.jobId :=
      ids ▸ List.mem_map_of_mem jobMem
    obtain ⟨new, newMem, newId⟩ := List.mem_map.mp idMem
    exact ⟨new, newMem, newId.trans (jobKey.trans (congrArg Prod.fst oldKey))⟩
  · change (attempts.map JobAttempt.leaseToken).Nodup
    rw [sameTokens]
    exact coherent.tokens
  · intro job member holds
    change job.leaseToken ∈ attempts.map JobAttempt.leaseToken
    rw [sameTokens]
    obtain ⟨old, oldMem, rfl⟩ := mem_updateWhere.mp member
    revert holds
    split
    · intro holds
      rcases token old with given | kept
      · simp [given] at holds
      · rw [kept] at holds ⊢
        exact coherent.heldIssued old oldMem holds
    · exact coherent.heldIssued old oldMem
  · apply coherent.heldApart.updateWhere
    intro job _ _ holds
    rcases token job with given | kept
    · simp [given] at holds
    · exact ⟨by rwa [kept] at holds, kept⟩

/-- The attempts of a job that does not exist are none. -/
theorem attemptNumbers_of_absent (coherent : queue.Coherent) {jobId : Uuid}
    (absent : ∀ job ∈ queue.jobs, job.jobId ≠ jobId) : queue.attemptNumbers jobId = [] := by
  rw [QueueState.attemptNumbers, List.map_eq_nil_iff, List.filter_eq_nil_iff]
  intro attempt member same
  obtain ⟨job, jobMem, jobKey⟩ := coherent.attemptJobs attempt member
  exact absent job jobMem (jobKey.trans (by simpa using same))

end Coherent

/-! ## Enqueue -/

/-- Some live job occupies an identity. -/
def Occupied (queue : QueueState) (identity : JobIdentity) : Prop :=
  ∃ job ∈ queue.jobs, job.OccupiesIdentity ∧ job.identity = identity

theorem enqueue_of_occupied {queue : QueueState} {request : EnqueueRequest} {jobId : Uuid}
    {now createdAt : Timestamp} (occupied : queue.Occupied request.identity) :
    queue.enqueue request jobId now createdAt = (queue, none) := by
  obtain ⟨job, member, live, same⟩ := occupied
  rw [enqueue, if_pos ⟨job, member, .inr ⟨live, same⟩⟩]

/-- A job whose identity is free is added as a new row. -/
theorem enqueue_of_free {queue : QueueState} {request : EnqueueRequest} {jobId : Uuid}
    {now createdAt : Timestamp} (fresh : ∀ job ∈ queue.jobs, job.jobId ≠ jobId)
    (free : ¬ queue.Occupied request.identity) :
    queue.enqueue request jobId now createdAt =
      ({ queue with jobs := queue.jobs ++ [request.job jobId now createdAt] }, some jobId) := by
  rw [enqueue, if_neg]
  rintro ⟨job, member, same | live⟩
  · exact fresh job member same
  · exact free ⟨job, member, live⟩

/-- Enqueueing keeps the queue coherent. -/
theorem Coherent.enqueue {queue : QueueState} (coherent : queue.Coherent)
    {request : EnqueueRequest} {jobId : Uuid} {now createdAt : Timestamp}
    (fresh : ∀ job ∈ queue.jobs, job.jobId ≠ jobId) :
    (queue.enqueue request jobId now createdAt).1.Coherent := by
  by_cases occupied : queue.Occupied request.identity
  · rw [enqueue_of_occupied occupied]
    exact coherent
  · rw [enqueue_of_free fresh occupied]
    constructor
    · exact coherent.jobIds.insert fun _ job member _ => fresh job member
    · exact coherent.activeIdentities.insert fun _ job member live same =>
        occupied ⟨job, member, live, same⟩
    · exact coherent.attemptKeys
    · intro job member
      rcases List.mem_append.mp member with old | new
      · exact coherent.rows job old
      · cases List.mem_singleton.mp new
        constructor <;> simp [EnqueueRequest.job]
    · intro job member
      rcases List.mem_append.mp member with old | new
      · exact coherent.numbers job old
      · cases List.mem_singleton.mp new
        exact coherent.attemptNumbers_of_absent fresh
    · intro attempt member
      obtain ⟨job, jobMem, same⟩ := coherent.attemptJobs attempt member
      exact ⟨job, List.mem_append_left _ jobMem, same⟩
    · exact coherent.tokens
    · intro job member holds
      rcases List.mem_append.mp member with old | new
      · exact coherent.heldIssued job old holds
      · cases List.mem_singleton.mp new
        simp [EnqueueRequest.job] at holds
    · exact coherent.heldApart.insert fun holds => by simp [EnqueueRequest.job] at holds

/-! ## Heartbeat, completion and recovery -/

section Rewriting

variable {queue : QueueState}

/-- A heartbeat renews the lease of its job, and says whether there was one. -/
theorem Coherent.heartbeat (coherent : queue.Coherent) (jobId leaseToken : Uuid)
    (extendSeconds : Int) (now : Timestamp) :
    ∃ next, queue.heartbeat jobId leaseToken extendSeconds now =
      .ok (next, queue.jobs.countP (Job.beating jobId leaseToken) = 1) ∧ next.Coherent ∧
      next.attempts = queue.attempts ∧
      next.jobs = updateWhere (Job.beating jobId leaseToken) (fun job => { job with
        heartbeatAt := some now
        leaseExpiresAt := some (now + seconds extendSeconds) }) queue.jobs := by
  have next := coherent.rewrite (Job.beating jobId leaseToken)
    (fun job => { job with
      heartbeatAt := some now
      leaseExpiresAt := some (now + seconds extendSeconds) })
    queue.attempts (fun _ => rfl) (fun _ => rfl) (fun _ => rfl) (fun _ => .inr rfl)
    (by
      intro job member beating
      have row := coherent.rows job member
      simp only [Job.beating, Bool.and_eq_true, decide_eq_true_eq] at beating
      exact ⟨row.held, by simp [beating.1.2], row.due⟩)
    (by
      intro job member beating
      simp only [Job.beating, Bool.and_eq_true, decide_eq_true_eq] at beating
      exact Coherent.occupies_of_held (coherent.rows job member) (by simp [beating.1.2]))
    rfl rfl
  refine ⟨_, ?_, next, rfl, rfl⟩
  rw [QueueState.heartbeat, next.enforce]
  rfl

/-- Recovery releases every expired lease and counts them. -/
theorem Coherent.recoverExpiredLeases (coherent : queue.Coherent) (now : Timestamp) :
    ∃ next, queue.recoverExpiredLeases now =
      .ok (next, queue.jobs.countP (Job.expired now)) ∧ next.Coherent ∧
      next.attempts = queue.attempts ∧
      next.jobs = updateWhere (Job.expired now) (Job.recover now) queue.jobs := by
  have next := coherent.rewrite (Job.expired now) (Job.recover now) queue.attempts
    (fun _ => rfl) (fun _ => rfl) (fun _ => rfl) (fun _ => .inl rfl)
    (by
      intro job _ _
      constructor <;> simp [Job.recover])
    (by
      intro job _ expired
      simp only [Job.expired, Bool.and_eq_true, decide_eq_true_eq] at expired
      constructor <;> simp [expired.1])
    rfl rfl
  refine ⟨_, ?_, next, rfl, rfl⟩
  rw [QueueState.recoverExpiredLeases, next.enforce]
  rfl

/-- The job a lease token opens. -/
def holder (queue : QueueState) (jobId leaseToken : Uuid) : List Job :=
  queue.jobs.filter fun job => job.jobId = jobId && job.leaseToken = some leaseToken

/-- The job currently holds the token. -/
def Holds (queue : QueueState) (jobId leaseToken : Uuid) : Prop :=
  ∃ job ∈ queue.jobs, job.jobId = jobId ∧ job.leaseToken = some leaseToken

instance (queue : QueueState) (jobId leaseToken : Uuid) :
    Decidable (queue.Holds jobId leaseToken) :=
  inferInstanceAs (Decidable (∃ job ∈ queue.jobs, job.jobId = jobId ∧ _))

theorem holder_of_not_holds {jobId leaseToken : Uuid} (stale : ¬ queue.Holds jobId leaseToken) :
    queue.holder jobId leaseToken = [] := by
  rw [holder, List.filter_eq_nil_iff]
  intro job member selected
  simp only [Bool.and_eq_true, decide_eq_true_eq] at selected
  exact stale ⟨job, member, selected⟩

/-- The job that holds a token is the only row found for it. -/
theorem Coherent.holder_of_holds (coherent : queue.Coherent) {jobId leaseToken : Uuid} {job : Job}
    (member : job ∈ queue.jobs) (same : job.jobId = jobId)
    (holds : job.leaseToken = some leaseToken) : queue.holder jobId leaseToken = [job] := by
  refine coherent.jobIds.filter_eq_singleton jobId ?_ member (by simp [same, holds])
  intro other _ selected
  simp only [Bool.and_eq_true, decide_eq_true_eq] at selected
  exact ⟨trivial, selected.1⟩

/-- Completion with a token the job does not hold is refused and changes nothing. -/
theorem complete_of_not_holds {jobId leaseToken : Uuid} {status : JobStatus}
    {errorCode errorDetail : Option String} {retryDelaySeconds : Int} {now : Timestamp}
    (stale : ¬ queue.Holds jobId leaseToken) :
    queue.complete jobId leaseToken status errorCode errorDetail retryDelaySeconds now =
      if status ∈ completionStatuses then .ok (queue, false)
      else .error (.notACompletionStatus status) := by
  have none := holder_of_not_holds stale
  rw [holder] at none
  by_cases accepted : status ∈ completionStatuses
  · simp only [complete, accepted, not_true, ↓reduceIte, none]
    rfl
  · simp only [complete, accepted, not_false_eq_true, ↓reduceIte]
    rfl

/-- A call that is not a completion fails without touching the queue. -/
theorem complete_of_status {jobId leaseToken : Uuid} {status : JobStatus}
    {errorCode errorDetail : Option String} {retryDelaySeconds : Int} {now : Timestamp}
    (refused : status ∉ completionStatuses) :
    queue.complete jobId leaseToken status errorCode errorDetail retryDelaySeconds now =
      .error (.notACompletionStatus status) := by
  simp only [complete, refused, not_false_eq_true, ↓reduceIte]
  rfl

/-- A completion that does not fail is accepted just when the job holds the token. -/
theorem accepted_iff_holds {jobId leaseToken : Uuid} {status : JobStatus}
    {errorCode errorDetail : Option String} {retryDelaySeconds : Int} {now : Timestamp}
    {next : QueueState} {accepted : Bool}
    (completed : queue.complete jobId leaseToken status errorCode errorDetail retryDelaySeconds
      now =
      .ok (next, accepted)) : accepted = true ↔ queue.Holds jobId leaseToken := by
  by_cases completion : status ∈ completionStatuses
  · by_cases holds : queue.Holds jobId leaseToken
    · obtain ⟨job, member, selected⟩ := holds
      have inside : job ∈ queue.holder jobId leaseToken :=
        List.mem_filter.mpr ⟨member, by simpa using selected⟩
      simp only [complete, completion, not_true, ↓reduceIte] at completed
      obtain ⟨found, query, completed⟩ := bind_eq_ok.mp completed
      cases found with
      | none => simp [holder, scalarOneOrNone_eq_none.mp query] at inside
      | some _ =>
          obtain ⟨_, _, completed⟩ := bind_eq_ok.mp completed
          obtain ⟨_, _, wrote⟩ := bind_eq_ok.mp completed
          cases wrote
          exact iff_of_true rfl ⟨job, member, selected⟩
    · rw [complete_of_not_holds holds, if_pos completion] at completed
      cases completed
      exact iff_of_false Bool.false_ne_true holds
  · rw [complete_of_status completion] at completed
    cases completed

/-- The attempt rows with the current attempt of a job closed. -/
def closedAttempts (queue : QueueState) (job : Job) (status : JobStatus)
    (errorCode : Option String) (now : Timestamp) : List JobAttempt :=
  updateWhere (currentAttempt job) (fun attempt => { attempt with
    completedAt := some now
    outcomeStatus := some (job.outcome status)
    errorCode := errorCode }) queue.attempts

/-- Closing an attempt never fails: the attempt keys are unique. -/
theorem Coherent.closeAttempt (coherent : queue.Coherent) (job : Job) (status : JobStatus)
    (errorCode : Option String) (now : Timestamp) :
    queue.closeAttempt job status errorCode now =
      .ok (queue.closedAttempts job status errorCode now) := by
  have short : (queue.attempts.filter (currentAttempt job)).length ≤ 1 := by
    refine coherent.attemptKeys.length_filter_le_one (job.jobId, job.attemptCount) ?_
    intro attempt _ selected
    simp only [currentAttempt, Bool.and_eq_true, decide_eq_true_eq] at selected
    exact ⟨trivial, Prod.ext selected.1 selected.2⟩
  rw [QueueState.closeAttempt, scalarOneOrNone_of_length_le_one short, ok_bind]
  cases found : (queue.attempts.filter (currentAttempt job)).head? with
  | none =>
      rw [List.head?_eq_none_iff, List.filter_eq_nil_iff] at found
      have same : queue.closedAttempts job status errorCode now = queue.attempts :=
        updateWhere_eq_self fun attempt member => by simpa using found attempt member
      rw [same]
      rfl
  | some attempt => rfl

/-- Completion by the holder of the lease is accepted: it finishes that job,
closes its attempt and touches nothing else. -/
theorem Coherent.complete_of_holds (coherent : queue.Coherent) {leaseToken : Uuid} {job : Job}
    {status : JobStatus} (accepted : status ∈ completionStatuses) (member : job ∈ queue.jobs)
    (holds : job.leaseToken = some leaseToken) (errorCode errorDetail : Option String)
    (retryDelaySeconds : Int) (now : Timestamp) :
    ∃ next, queue.complete job.jobId leaseToken status errorCode errorDetail retryDelaySeconds
        now = .ok (next, true) ∧ next.Coherent ∧
      next.attempts = queue.closedAttempts job status errorCode now ∧
      next.jobs = updateWhere (fun row => row.jobId = job.jobId)
        (Job.finish status errorCode errorDetail retryDelaySeconds now) queue.jobs := by
  have found := coherent.holder_of_holds member rfl holds
  rw [holder] at found
  have row := coherent.rows job member
  have single : ∀ other ∈ queue.jobs, decide (other.jobId = job.jobId) = true → other = job :=
    fun other otherMem same => coherent.jobIds.eq_of_mem otherMem member (by simpa using same)
  have next := coherent.rewrite (fun other => decide (other.jobId = job.jobId))
    (Job.finish status errorCode errorDetail retryDelaySeconds now)
    (queue.closedAttempts job status errorCode now)
    (fun _ => rfl) (fun _ => rfl) (fun _ => rfl) (fun _ => .inl rfl)
    (by
      intro other otherMem same
      cases single other otherMem same
      have finished : job.outcome status ≠ .running := by
        unfold Job.outcome
        split
        · simp
        · rintro rfl
          simp [completionStatuses] at accepted
      refine ⟨by simp [Job.finish, finished], by simp [Job.finish], ?_⟩
      unfold Job.finish
      split
      · rfl
      · exact row.due)
    (by
      intro other otherMem same
      cases single other otherMem same
      exact Coherent.occupies_of_held row (by simp [holds]))
    (map_updateWhere _ fun _ _ _ => rfl) (map_updateWhere _ fun _ _ _ => rfl)
  refine ⟨_, ?_, next, rfl, rfl⟩
  simp only [complete, accepted, not_true, ↓reduceIte, found, scalarOneOrNone_singleton, ok_bind,
    coherent.closeAttempt, next.enforce]
  rfl

end Rewriting

/-! ## Claim -/

section Claiming

variable {queue : QueueState} {workerId : String} {leaseSeconds : Int} {now : Timestamp}
  {uuid4 : Uuid → Uuid}

/-- The attempt numbers after one attempt row was added. -/
theorem attemptNumbers_append (queue : QueueState) (jobs : List Job) (attempt : JobAttempt)
    (jobId : Uuid) :
    QueueState.attemptNumbers ⟨jobs, queue.attempts ++ [attempt]⟩ jobId =
      queue.attemptNumbers jobId ++
        if attempt.jobId = jobId then [attempt.attemptNumber] else [] := by
  rw [attemptNumbers, attemptNumbers, List.filter_append, List.map_append]
  by_cases same : attempt.jobId = jobId <;> simp [same]

/-- No attempt has a number beyond the count of its job. -/
theorem Coherent.attemptNumber_le (coherent : queue.Coherent) {job : Job} {attempt : JobAttempt}
    (member : job ∈ queue.jobs) (attemptMem : attempt ∈ queue.attempts)
    (same : attempt.jobId = job.jobId) : attempt.attemptNumber ≤ job.attemptCount := by
  have inside : attempt.attemptNumber ∈ queue.attemptNumbers job.jobId :=
    List.mem_map_of_mem (List.mem_filter.mpr ⟨attemptMem, by simpa using same⟩)
  rw [coherent.numbers job member, List.mem_range'_1] at inside
  omega

/-- The tables after one job was leased and its attempt opened. -/
def leased (queue : QueueState) (workerId : String) (leaseSeconds : Int) (now : Timestamp)
    (uuid4 : Uuid → Uuid) (job : Job) : QueueState where
  jobs := updateWhere (fun row => row.jobId = job.jobId)
    (Job.lease workerId (uuid4 job.jobId) leaseSeconds now) queue.jobs
  attempts := queue.attempts ++
    [(job.lease workerId (uuid4 job.jobId) leaseSeconds now).newAttempt workerId now]

section Leased

variable {workerId : String} {leaseSeconds : Int} {job : Job}

/-- After a lease the job is leased, and the other jobs are as before. -/
theorem Coherent.mem_leased (coherent : queue.Coherent) (member : job ∈ queue.jobs) {row : Job} :
    row ∈ (queue.leased workerId leaseSeconds now uuid4 job).jobs ↔
      row = job.lease workerId (uuid4 job.jobId) leaseSeconds now ∨
        row ∈ queue.jobs ∧ row.jobId ≠ job.jobId := by
  rw [leased, mem_updateWhere]
  constructor
  · rintro ⟨old, oldMem, rfl⟩
    by_cases same : old.jobId = job.jobId
    · cases coherent.jobIds.eq_of_mem oldMem member same
      exact .inl (by simp)
    · exact .inr (by simpa [same] using oldMem)
  · rintro (rfl | ⟨rowMem, different⟩)
    · exact ⟨job, member, by simp⟩
    · exact ⟨row, rowMem, by simp [different]⟩

/-- A claimable job already occupies its identity. -/
theorem occupies_of_claimable (claimable : job.claimable now = true) : job.OccupiesIdentity := by
  simp only [Job.claimable, Bool.and_eq_true, decide_eq_true_eq, claimableStatuses,
    List.mem_cons, List.not_mem_nil, or_false] at claimable
  obtain ⟨⟨⟨pending | retryable, _⟩, _⟩, _⟩ := claimable
  · constructor <;> simp [pending]
  · constructor <;> simp [retryable]

/-- The new attempt is the next one of its job, and no other job gets one. -/
theorem Coherent.attemptNumbers_leased (coherent : queue.Coherent) (member : job ∈ queue.jobs) :
    ∀ row ∈ (queue.leased workerId leaseSeconds now uuid4 job).jobs,
      (queue.leased workerId leaseSeconds now uuid4 job).attemptNumbers row.jobId =
        List.range' 1 row.attemptCount := by
  intro row rowMem
  rw [leased, attemptNumbers_append]
  rcases (coherent.mem_leased member).mp rowMem with rfl | ⟨oldMem, different⟩
  · change queue.attemptNumbers job.jobId ++ (if job.jobId = job.jobId then
      [job.attemptCount + 1] else []) = List.range' 1 (job.attemptCount + 1)
    rw [coherent.numbers job member, if_pos rfl, List.range'_concat]
    simp [Nat.add_comm]
  · change queue.attemptNumbers row.jobId ++ (if job.jobId = row.jobId then
      [job.attemptCount + 1] else []) = List.range' 1 row.attemptCount
    rw [if_neg different.symm, List.append_nil]
    exact coherent.numbers row oldMem

/-- Every attempt still belongs to a job. -/
theorem Coherent.attemptJobs_leased (coherent : queue.Coherent) (member : job ∈ queue.jobs) :
    ∀ attempt ∈ (queue.leased workerId leaseSeconds now uuid4 job).attempts,
      ∃ row ∈ (queue.leased workerId leaseSeconds now uuid4 job).jobs,
        row.jobId = attempt.jobId := by
  have opened : job.lease workerId (uuid4 job.jobId) leaseSeconds now ∈
      (queue.leased workerId leaseSeconds now uuid4 job).jobs :=
    (coherent.mem_leased member).mpr (.inl rfl)
  intro attempt attemptMem
  rcases List.mem_append.mp attemptMem with old | new
  · obtain ⟨owner, ownerMem, same⟩ := coherent.attemptJobs attempt old
    by_cases leasedOwner : owner.jobId = job.jobId
    · exact ⟨_, opened, leasedOwner.symm.trans same⟩
    · exact ⟨owner, (coherent.mem_leased member).mpr (.inr ⟨ownerMem, leasedOwner⟩), same⟩
  · cases List.mem_singleton.mp new
    exact ⟨_, opened, rfl⟩

/-- Leasing one job keeps the tables coherent: its token is new, and its attempt
is the next one. -/
theorem Coherent.leased (coherent : queue.Coherent) (member : job ∈ queue.jobs)
    (claimable : job.claimable now = true)
    (fresh : some (uuid4 job.jobId) ∉ queue.issuedTokens) :
    (queue.leased workerId leaseSeconds now uuid4 job).Coherent := by
  have issued : (queue.leased workerId leaseSeconds now uuid4 job).issuedTokens =
      queue.issuedTokens ++ [some (uuid4 job.jobId)] := by
    rw [issuedTokens, QueueState.leased, List.map_append]
    rfl
  constructor
  · apply coherent.jobIds.updateWhere
    exact fun _ _ _ _ => ⟨trivial, rfl⟩
  · apply coherent.activeIdentities.updateWhere
    intro other otherMem same _
    cases coherent.jobIds.eq_of_mem otherMem member (by simpa using same)
    exact ⟨occupies_of_claimable claimable, rfl⟩
  · apply coherent.attemptKeys.insert
    intro _ attempt attemptMem _ same
    have sameJob : attempt.jobId = job.jobId := congrArg Prod.fst same
    have sameNumber : attempt.attemptNumber = job.attemptCount + 1 := congrArg Prod.snd same
    have bound := coherent.attemptNumber_le member attemptMem sameJob
    omega
  · intro row rowMem
    rcases (coherent.mem_leased member).mp rowMem with rfl | ⟨oldMem, _⟩
    · exact ⟨by simp [Job.lease], by simp [Job.lease], (coherent.rows job member).due⟩
    · exact coherent.rows row oldMem
  · exact coherent.attemptNumbers_leased member
  · exact coherent.attemptJobs_leased member
  · rw [issued]
    refine List.nodup_append.mpr ⟨coherent.tokens, List.nodup_singleton _, ?_⟩
    intro token tokenMem last lastMem same
    exact fresh (same.trans (List.mem_singleton.mp lastMem) ▸ tokenMem)
  · intro row rowMem holds
    rw [issued, List.mem_append]
    rcases (coherent.mem_leased member).mp rowMem with rfl | ⟨oldMem, _⟩
    · exact .inr (List.mem_singleton.mpr rfl)
    · exact .inl (coherent.heldIssued row oldMem holds)
  · apply coherent.heldApart.updateWhere_fresh coherent.jobIds job.jobId
    · intro row _ selected
      simpa using selected
    · intro row rowMem selected other otherMem held same
      cases coherent.jobIds.eq_of_mem rowMem member (by simpa using selected)
      have known := coherent.heldIssued other otherMem held
      rw [same] at known
      exact fresh known

end Leased

/-- The claim of one job commits the leased tables. -/
theorem Coherent.claimJob (coherent : queue.Coherent) (workerId : String) (leaseSeconds : Int)
    {job : Job} (member : job ∈ queue.jobs) (claimable : job.claimable now = true)
    (fresh : some (uuid4 job.jobId) ∉ queue.issuedTokens) :
    ∃ next, queue.claimJob workerId leaseSeconds now uuid4 job.jobId = .ok next ∧ next.Coherent ∧
      next.jobs = updateWhere (fun row => row.jobId = job.jobId)
        (Job.lease workerId (uuid4 job.jobId) leaseSeconds now) queue.jobs ∧
      next.attempts = queue.attempts ++
        [(job.lease workerId (uuid4 job.jobId) leaseSeconds now).newAttempt workerId now] := by
  have next : (queue.leased workerId leaseSeconds now uuid4 job).Coherent :=
    coherent.leased member claimable fresh
  refine ⟨_, ?_, next, rfl, rfl⟩
  rw [QueueState.claimJob, coherent.job?_eq_some.mpr ⟨member, rfl⟩]
  exact next.enforce

/-- The claim loop leases exactly its candidates. -/
theorem Coherent.claimJobs (coherent : queue.Coherent) (workerId : String) (leaseSeconds : Int)
    (ids : List Uuid) (nodup : ids.Nodup)
    (claimable : ∀ id ∈ ids, ∃ job ∈ queue.jobs, job.jobId = id ∧ job.claimable now = true)
    (fresh : ∀ id ∈ ids, some (uuid4 id) ∉ queue.issuedTokens)
    (apart : ∀ first ∈ ids, ∀ second ∈ ids, uuid4 first = uuid4 second → first = second) :
    ∃ next, ids.foldlM (QueueState.claimJob workerId leaseSeconds now uuid4) queue = .ok next ∧
      next.Coherent ∧
      next.jobs = queue.jobs.map (fun job => if job.jobId ∈ ids then
        job.lease workerId (uuid4 job.jobId) leaseSeconds now else job) ∧
      next.issuedTokens = queue.issuedTokens ++ ids.map (fun id => some (uuid4 id)) ∧
      ∀ attempt, attempt ∈ next.attempts ↔ attempt ∈ queue.attempts ∨
        ∃ job ∈ queue.jobs, job.jobId ∈ ids ∧ attempt =
          (job.lease workerId (uuid4 job.jobId) leaseSeconds now).newAttempt workerId now := by
  induction ids generalizing queue with
  | nil => exact ⟨queue, rfl, coherent, by simp, by simp, by simp⟩
  | cons id rest ih =>
      obtain ⟨absent, restNodup⟩ := List.nodup_cons.mp nodup
      obtain ⟨job, member, rfl, due⟩ := claimable id List.mem_cons_self
      obtain ⟨middle, step, middleCoherent, jobs, attempts⟩ :=
        coherent.claimJob workerId leaseSeconds member due (fresh _ List.mem_cons_self)
      have tokens : middle.issuedTokens = queue.issuedTokens ++ [some (uuid4 job.jobId)] := by
        simp only [issuedTokens, attempts, List.map_append, List.map_singleton, Job.newAttempt,
          Job.lease]
      have others : ∀ row : Job, row.jobId ∈ rest → (row ∈ middle.jobs ↔ row ∈ queue.jobs) := by
        intro row rowRest
        have apart : row.jobId ≠ job.jobId := fun same => absent (same ▸ rowRest)
        rw [jobs, mem_updateWhere]
        constructor
        · rintro ⟨old, oldMem, rfl⟩
          by_cases same : old.jobId = job.jobId
          · exact (apart (by simp [same, Job.lease])).elim
          · simpa [same] using oldMem
        · exact fun rowMem => ⟨row, rowMem, by simp [apart]⟩
      obtain ⟨next, steps, nextCoherent, nextJobs, nextTokens, nextAttempts⟩ :=
        ih middleCoherent restNodup
        (by
          intro other otherMem
          obtain ⟨old, oldMem, same, oldDue⟩ := claimable other (List.mem_cons_of_mem _ otherMem)
          exact ⟨old, (others old (same ▸ otherMem)).mpr oldMem, same, oldDue⟩)
        (by
          intro other otherMem issued
          rw [tokens] at issued
          rcases List.mem_append.mp issued with earlier | now
          · exact fresh other (List.mem_cons_of_mem _ otherMem) earlier
          · have same := Option.some.inj (List.mem_singleton.mp now)
            exact absent (apart other (List.mem_cons_of_mem _ otherMem) _ List.mem_cons_self same ▸
              otherMem))
        (fun first firstMem second secondMem => apart first (List.mem_cons_of_mem _ firstMem)
          second (List.mem_cons_of_mem _ secondMem))
      refine ⟨next, ?_, nextCoherent, ?_, ?_, ?_⟩
      · rw [List.foldlM_cons, step, ok_bind, steps]
      · rw [nextJobs, jobs, updateWhere, List.map_map]
        apply List.map_congr_left
        intro other otherMem
        by_cases same : other.jobId = job.jobId
        · simp [same, Job.lease, absent]
        · simp [same]
      · rw [nextTokens, tokens, List.map_cons, List.append_assoc, List.singleton_append]
      · intro attempt
        rw [nextAttempts, attempts, List.mem_append, List.mem_singleton, or_assoc]
        refine or_congr_right ⟨?_, ?_⟩
        · rintro (rfl | ⟨row, rowMem, rowRest, rfl⟩)
          · exact ⟨job, member, List.mem_cons_self, rfl⟩
          · exact ⟨row, (others row rowRest).mp rowMem, List.mem_cons_of_mem _ rowRest, rfl⟩
        · rintro ⟨row, rowMem, listed, rfl⟩
          rcases List.mem_cons.mp listed with same | rowRest
          · exact .inl (by rw [coherent.jobIds.eq_of_mem rowMem member same])
          · exact .inr ⟨row, (others row rowRest).mpr rowMem, rowRest, rfl⟩

/-- A candidate is a job that is claimable and not locked. -/
theorem mem_candidateIds {batchSize : Nat} {locked : Uuid → Bool} {id : Uuid}
    (member : id ∈ queue.candidateIds batchSize now locked) :
    ∃ job ∈ queue.jobs, job.jobId = id ∧ job.claimable now = true ∧ locked id = false := by
  obtain ⟨job, taken, rfl⟩ := List.mem_map.mp member
  have selected := (List.mem_insertionSort _).mp (List.mem_of_mem_take taken)
  obtain ⟨jobMem, condition⟩ := List.mem_filter.mp selected
  simp only [Bool.and_eq_true, Bool.not_eq_true'] at condition
  exact ⟨job, jobMem, rfl, condition⟩

theorem Coherent.candidateIds_nodup (coherent : queue.Coherent) (batchSize : Nat)
    (locked : Uuid → Bool) : (queue.candidateIds batchSize now locked).Nodup := by
  have sorted := (List.perm_insertionSort Job.ClaimedBefore
    (queue.jobs.filter fun job => job.claimable now && !locked job.jobId)).map Job.jobId
  refine List.Nodup.sublist ((List.take_sublist _ _).map _) (sorted.nodup_iff.mpr ?_)
  exact (primaryKey_iff_nodup.mp coherent.jobIds).sublist (List.filter_sublist.map _)

/-- The tokens a claim draws are distinct and were never issued before. -/
def DrawsFresh (queue : QueueState) (uuid4 : Uuid → Uuid) : Prop :=
  (∀ first ∈ queue.jobs, ∀ second ∈ queue.jobs,
      uuid4 first.jobId = uuid4 second.jobId → first.jobId = second.jobId) ∧
    ∀ job ∈ queue.jobs, some (uuid4 job.jobId) ∉ queue.issuedTokens

/-- A claim succeeds, leases its candidates and changes no other job. -/
theorem Coherent.claim (coherent : queue.Coherent) (draws : queue.DrawsFresh uuid4)
    (workerId : String) (leaseSeconds : Int) (batchSize : Nat) (now : Timestamp)
    (locked : Uuid → Bool) :
    ∃ next, queue.claim workerId leaseSeconds batchSize now locked uuid4 =
        .ok (next, (queue.candidateIds batchSize now locked).filterMap next.job?) ∧
      next.Coherent ∧
      next.jobs = queue.jobs.map (fun job =>
        if job.jobId ∈ queue.candidateIds batchSize now locked then
          job.lease workerId (uuid4 job.jobId) leaseSeconds now else job) ∧
      next.issuedTokens = queue.issuedTokens ++
        (queue.candidateIds batchSize now locked).map (fun id => some (uuid4 id)) ∧
      ∀ attempt, attempt ∈ next.attempts ↔ attempt ∈ queue.attempts ∨
        ∃ job ∈ queue.jobs, job.jobId ∈ queue.candidateIds batchSize now locked ∧ attempt =
          (job.lease workerId (uuid4 job.jobId) leaseSeconds now).newAttempt workerId now := by
  obtain ⟨next, steps, nextCoherent, jobs, tokens, attempts⟩ :=
    coherent.claimJobs workerId leaseSeconds (queue.candidateIds batchSize now locked)
      (coherent.candidateIds_nodup batchSize locked)
      (by
        intro id member
        obtain ⟨job, jobMem, same, due, _⟩ := mem_candidateIds member
        exact ⟨job, jobMem, same, due⟩)
      (by
        intro id member
        obtain ⟨job, jobMem, same, _⟩ := mem_candidateIds member
        exact same ▸ draws.2 job jobMem)
      (by
        intro first firstMem second secondMem same
        obtain ⟨firstJob, firstJobMem, rfl, _⟩ := mem_candidateIds firstMem
        obtain ⟨secondJob, secondJobMem, rfl, _⟩ := mem_candidateIds secondMem
        exact draws.1 firstJob firstJobMem secondJob secondJobMem same)
  refine ⟨next, ?_, nextCoherent, jobs, tokens, attempts⟩
  rw [QueueState.claim, steps]
  rfl

end Claiming

end QueueState

/-! ## Steps and runs -/

/-- The identifiers and tokens an action draws are new. -/
def QueueAction.Fresh (queue : QueueState) : QueueAction → Prop
  | .enqueue _ jobId _ _ => ∀ job ∈ queue.jobs, job.jobId ≠ jobId
  | .claim _ _ _ _ _ uuid4 => queue.DrawsFresh uuid4
  | .heartbeat .. | .complete .. | .recoverExpiredLeases _ => True

instance (queue : QueueState) (uuid4 : Uuid → Uuid) : Decidable (queue.DrawsFresh uuid4) :=
  inferInstanceAs (Decidable (_ ∧ _))

instance (queue : QueueState) (action : QueueAction) : Decidable (action.Fresh queue) :=
  match action with
  | .enqueue _ jobId _ _ => inferInstanceAs (Decidable (∀ job ∈ queue.jobs, job.jobId ≠ jobId))
  | .claim _ _ _ _ _ uuid4 => inferInstanceAs (Decidable (queue.DrawsFresh uuid4))
  | .heartbeat .. | .complete .. | .recoverExpiredLeases _ => inferInstanceAs (Decidable True)

instance (queue : QueueState) (actions : List QueueAction) :
    Decidable (Permitted QueueState.step QueueAction.Fresh queue actions) :=
  inferInstanceAs (Decidable (∀ moment ∈ moments QueueState.step queue actions, _))

/-- What one action can do to one job. -/
inductive JobMove (queue : QueueState) : QueueAction → Job → Job → Prop
  | stay {action : QueueAction} (job : Job) : JobMove queue action job job
  | lease {workerId : String} {leaseSeconds : Int} {batchSize : Nat} {now : Timestamp}
      {locked : Uuid → Bool} {uuid4 : Uuid → Uuid} {job : Job}
      (claimable : job.claimable now = true) :
      JobMove queue (.claim workerId leaseSeconds batchSize now locked uuid4) job
        (job.lease workerId (uuid4 job.jobId) leaseSeconds now)
  | beat {leaseToken : Uuid} {extendSeconds : Int} {now : Timestamp} {job : Job}
      (beating : job.beating job.jobId leaseToken = true) :
      JobMove queue (.heartbeat job.jobId leaseToken extendSeconds now) job
        { job with
          heartbeatAt := some now
          leaseExpiresAt := some (now + seconds extendSeconds) }
  | finish {leaseToken : Uuid} {status : JobStatus} {errorCode errorDetail : Option String}
      {retryDelaySeconds : Int} {now : Timestamp} {job : Job}
      (accepted : status ∈ completionStatuses) (holds : job.leaseToken = some leaseToken) :
      JobMove queue
        (.complete job.jobId leaseToken status errorCode errorDetail retryDelaySeconds now) job
        (job.finish status errorCode errorDetail retryDelaySeconds now)
  | recover {now : Timestamp} {job : Job} (expired : job.expired now = true) :
      JobMove queue (.recoverExpiredLeases now) job (job.recover now)

namespace QueueState

variable {queue : QueueState} {action : QueueAction}

/-- What one step leaves: a coherent queue that kept its tokens, whose jobs moved
as `JobMove` says or were enqueued by the step. -/
structure StepFacts (queue : QueueState) (action : QueueAction) (next : QueueState) : Prop where
  coherent : next.Coherent
  tokens : ∀ token ∈ queue.issuedTokens, token ∈ next.issuedTokens
  jobs : ∀ new ∈ next.jobs, (∃ old ∈ queue.jobs, JobMove queue action old new) ∨
    ∃ request jobId now createdAt, action = .enqueue request jobId now createdAt ∧
      new = request.job jobId now createdAt

theorem Coherent.stepFacts_self (coherent : queue.Coherent) : StepFacts queue action queue :=
  ⟨coherent, fun _ member => member, fun job member => .inl ⟨job, member, .stay job⟩⟩

/-- A step that rewrites jobs and keeps the attempts' tokens. -/
theorem StepFacts.of_updateWhere {next : QueueState} {condition : Job → Bool} {change : Job → Job}
    (coherent : next.Coherent) (tokens : next.issuedTokens = queue.issuedTokens)
    (jobs : next.jobs = updateWhere condition change queue.jobs)
    (moves : ∀ old ∈ queue.jobs, condition old = true → JobMove queue action old (change old)) :
    StepFacts queue action next := by
  refine ⟨coherent, fun token member => tokens ▸ member, ?_⟩
  intro new member
  rw [jobs] at member
  obtain ⟨old, oldMem, rfl⟩ := mem_updateWhere.mp member
  refine .inl ⟨old, oldMem, ?_⟩
  split
  · rename_i selected
    exact moves old oldMem selected
  · exact .stay old

/-- Enqueueing does to the queue what a step may do. -/
theorem Coherent.enqueueFacts (coherent : queue.Coherent) {request : EnqueueRequest} {jobId : Uuid}
    {now createdAt : Timestamp} (fresh : ∀ job ∈ queue.jobs, job.jobId ≠ jobId) :
    StepFacts queue (.enqueue request jobId now createdAt)
      (queue.enqueue request jobId now createdAt).1 := by
  refine ⟨coherent.enqueue fresh, ?_, ?_⟩
  · intro token member
    by_cases occupied : queue.Occupied request.identity
    · rwa [enqueue_of_occupied occupied]
    · rwa [enqueue_of_free fresh occupied]
  · intro new member
    by_cases occupied : queue.Occupied request.identity
    · rw [enqueue_of_occupied occupied] at member
      exact .inl ⟨new, member, .stay new⟩
    · rw [enqueue_of_free fresh occupied] at member
      rcases List.mem_append.mp member with old | inserted
      · exact .inl ⟨_, old, .stay _⟩
      · exact .inr ⟨request, jobId, now, createdAt, rfl, List.mem_singleton.mp inserted⟩

/-- **One step.** A call on a coherent queue with fresh draws commits, unless it
asks for a status that is not a completion. -/
theorem Coherent.perform (coherent : queue.Coherent) (fresh : action.Fresh queue) :
    (∃ next reply, queue.perform action = .ok (next, reply) ∧ StepFacts queue action next) ∨
      ∃ status, queue.perform action = .error (.notACompletionStatus status) := by
  cases action with
  | enqueue request jobId now createdAt =>
      exact .inl ⟨_, .enqueued (queue.enqueue request jobId now createdAt).2, rfl,
        coherent.enqueueFacts fresh⟩
  | claim workerId leaseSeconds batchSize now locked uuid4 =>
      obtain ⟨next, claimed, nextCoherent, jobs, tokens, _⟩ :=
        coherent.claim fresh workerId leaseSeconds batchSize now locked
      refine .inl ⟨next, _, by rw [QueueState.perform, claimed]; rfl, nextCoherent, ?_, ?_⟩
      · intro token member
        rw [tokens]
        exact List.mem_append_left _ member
      · intro new member
        rw [jobs] at member
        obtain ⟨old, oldMem, rfl⟩ := List.mem_map.mp member
        refine .inl ⟨old, oldMem, ?_⟩
        split
        · rename_i candidate
          obtain ⟨job, jobMem, same, claimable, _⟩ := mem_candidateIds candidate
          rw [coherent.jobIds.eq_of_mem jobMem oldMem same] at claimable
          exact .lease claimable
        · exact .stay old
  | heartbeat jobId leaseToken extendSeconds now =>
      obtain ⟨next, beaten, nextCoherent, attempts, jobs⟩ :=
        coherent.heartbeat jobId leaseToken extendSeconds now
      refine .inl ⟨next, _, by rw [QueueState.perform, beaten]; rfl,
        .of_updateWhere nextCoherent (by rw [issuedTokens, attempts]; rfl) jobs ?_⟩
      intro old _ beating
      have same : old.jobId = jobId := by
        simp only [Job.beating, Bool.and_eq_true, decide_eq_true_eq] at beating
        exact beating.1.1
      subst same
      exact .beat beating
  | complete jobId leaseToken status errorCode errorDetail retryDelaySeconds now =>
      by_cases accepted : status ∈ completionStatuses
      · by_cases holds : queue.Holds jobId leaseToken
        · obtain ⟨job, member, rfl, holds⟩ := holds
          obtain ⟨next, completed, nextCoherent, attempts, jobs⟩ :=
            coherent.complete_of_holds accepted member holds errorCode errorDetail
              retryDelaySeconds now
          have tokens : next.issuedTokens = queue.issuedTokens := by
            rw [issuedTokens, attempts]
            exact map_updateWhere _ fun _ _ _ => rfl
          refine .inl ⟨next, _, by rw [QueueState.perform, completed]; rfl,
            .of_updateWhere nextCoherent tokens jobs ?_⟩
          intro old oldMem same
          cases coherent.jobIds.eq_of_mem oldMem member (by simpa using same)
          exact .finish accepted holds
        · refine .inl ⟨queue, .completed false, ?_, coherent.stepFacts_self⟩
          rw [QueueState.perform, complete_of_not_holds holds, if_pos accepted]
          rfl
      · refine .inr ⟨status, ?_⟩
        rw [QueueState.perform, complete_of_status accepted]
        rfl
  | recoverExpiredLeases now =>
      obtain ⟨next, recovered, nextCoherent, attempts, jobs⟩ := coherent.recoverExpiredLeases now
      exact .inl ⟨next, _, by rw [QueueState.perform, recovered]; rfl,
        .of_updateWhere nextCoherent (by rw [issuedTokens, attempts]; rfl) jobs
          fun _ _ expired => .recover expired⟩

/-- Every step does to the queue what a step may do. -/
theorem Coherent.step (coherent : queue.Coherent) (fresh : action.Fresh queue) :
    StepFacts queue action (queue.step action) := by
  rcases coherent.perform fresh with ⟨next, reply, performed, facts⟩ | ⟨status, refused⟩
  · rw [QueueState.step, performed]
    exact facts
  · rw [QueueState.step, refused]
    exact coherent.stepFacts_self

/-- No step loses a job or changes its type. -/
theorem Coherent.step_keeps (coherent : queue.Coherent) (fresh : action.Fresh queue) :
    ∀ old ∈ queue.jobs, ∃ new ∈ (queue.step action).jobs,
      new.jobId = old.jobId ∧ new.jobType = old.jobType := by
  have rewritten : ∀ {next : QueueState} {condition : Job → Bool} {change : Job → Job},
      next.jobs = updateWhere condition change queue.jobs →
      (∀ job, (change job).jobId = job.jobId ∧ (change job).jobType = job.jobType) →
        ∀ old ∈ queue.jobs, ∃ new ∈ next.jobs, new.jobId = old.jobId ∧
          new.jobType = old.jobType := by
    intro next condition change jobs keeps old member
    refine ⟨_, jobs ▸ mem_updateWhere.mpr ⟨old, member, rfl⟩, ?_⟩
    split
    · exact keeps old
    · exact ⟨rfl, rfl⟩
  cases action with
  | enqueue request jobId now createdAt =>
      intro old member
      by_cases occupied : queue.Occupied request.identity
      · simp only [QueueState.step, QueueState.perform, enqueue_of_occupied occupied]
        exact ⟨old, member, rfl, rfl⟩
      · simp only [QueueState.step, QueueState.perform, enqueue_of_free fresh occupied]
        exact ⟨old, List.mem_append_left _ member, rfl, rfl⟩
  | claim workerId leaseSeconds batchSize now locked uuid4 =>
      obtain ⟨next, claimed, -, jobs, -⟩ :=
        coherent.claim fresh workerId leaseSeconds batchSize now locked
      rw [QueueState.step, QueueState.perform, claimed]
      intro old member
      refine ⟨_, jobs ▸ List.mem_map_of_mem member, ?_⟩
      split <;> exact ⟨rfl, rfl⟩
  | heartbeat jobId leaseToken extendSeconds now =>
      obtain ⟨next, beaten, -, -, jobs⟩ := coherent.heartbeat jobId leaseToken extendSeconds now
      rw [QueueState.step, QueueState.perform, beaten]
      exact rewritten jobs fun _ => ⟨rfl, rfl⟩
  | complete jobId leaseToken status errorCode errorDetail retryDelaySeconds now =>
      by_cases accepted : status ∈ completionStatuses
      · by_cases holds : queue.Holds jobId leaseToken
        · obtain ⟨job, member, rfl, holds⟩ := holds
          obtain ⟨next, completed, -, -, jobs⟩ := coherent.complete_of_holds accepted member holds
            errorCode errorDetail retryDelaySeconds now
          rw [QueueState.step, QueueState.perform, completed]
          exact rewritten jobs fun _ => ⟨rfl, rfl⟩
        · rw [QueueState.step, QueueState.perform, complete_of_not_holds holds, if_pos accepted]
          exact fun old member => ⟨old, member, rfl, rfl⟩
      · rw [QueueState.step, QueueState.perform, complete_of_status accepted]
        exact fun old member => ⟨old, member, rfl, rfl⟩
  | recoverExpiredLeases now =>
      obtain ⟨next, recovered, -, -, jobs⟩ := coherent.recoverExpiredLeases now
      rw [QueueState.step, QueueState.perform, recovered]
      exact rewritten jobs fun _ => ⟨rfl, rfl⟩

theorem coherent_preserved : Preserved QueueState.step QueueAction.Fresh QueueState.Coherent :=
  fun _ _ coherent fresh => (coherent.step fresh).coherent

/-- **Row rule.** A property of jobs that every permitted move keeps and every
enqueued row has holds of all jobs of every reachable queue. -/
theorem jobs_preserved {holds : Job → Prop} {permits : QueueState → QueueAction → Prop}
    (fresh : ∀ queue action, permits queue action → action.Fresh queue)
    (moves : ∀ queue action, ∀ old ∈ queue.jobs, ∀ new, permits queue action →
      JobMove queue action old new → holds old → holds new)
    (starts : ∀ queue request jobId now createdAt,
      permits queue (.enqueue request jobId now createdAt) →
        holds (request.job jobId now createdAt)) :
    Preserved QueueState.step permits
      (fun queue => queue.Coherent ∧ ∀ job ∈ queue.jobs, holds job) := by
  rintro queue action ⟨coherent, valid⟩ permitted
  have facts := coherent.step (fresh queue action permitted)
  refine ⟨facts.coherent, fun new member => ?_⟩
  rcases facts.jobs new member with ⟨old, oldMem, move⟩ | ⟨request, jobId, now, createdAt, rfl, rfl⟩
  · exact moves queue action old oldMem new permitted move (valid old oldMem)
  · exact starts queue request jobId now createdAt permitted

end QueueState

end RentalAgent
