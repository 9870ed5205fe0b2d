import RentalAgent.Jobs.QueueInvariant

/-! # Attempt histories

`claim` opens an attempt and `complete` closes it. A lease that expires ends in
`recover_expired_leases`, which closes no attempt: the history of every job is well
formed in every state of a run just when the run recovers no lease
(`QueueState.attempt_history_iff`).
-/

namespace RentalAgent

open Relational Transition

/-- The attempt is an open one of the job. -/
def Job.hasOpen (job : Job) (attempt : JobAttempt) : Bool :=
  attempt.jobId = job.jobId && attempt.completedAt = none

/-- The attempt is the newest one of the running job and carries its lease. -/
structure Job.Carries (queue : QueueState) (job : Job) (attempt : JobAttempt) : Prop where
  running : job.status = .running
  highest : ∀ other ∈ queue.attempts, other.jobId = job.jobId →
    other.attemptNumber ≤ attempt.attemptNumber
  token : attempt.leaseToken = job.leaseToken
  held : job.leaseToken.isSome

/-- Each job has at most one open attempt, which it carries, and every other attempt has
an outcome. -/
structure QueueState.HistoryWellFormed (queue : QueueState) : Prop where
  single : ∀ job ∈ queue.jobs, queue.attempts.countP job.hasOpen ≤ 1
  carried : ∀ job ∈ queue.jobs, ∀ attempt ∈ queue.attempts, job.hasOpen attempt = true →
    job.Carries queue attempt
  closed : ∀ attempt ∈ queue.attempts, attempt.completedAt ≠ none → attempt.outcomeStatus ≠ none

/-- The action recovers no lease. -/
def QueueAction.RecoversNone (queue : QueueState) : QueueAction → Prop
  | .recoverExpiredLeases now => ∀ job ∈ queue.jobs, job.expired now = false
  | .enqueue .. | .claim .. | .heartbeat .. | .complete .. => True

namespace QueueState

/-- The open attempts are the current attempts of the running jobs. -/
structure AttemptsFollow (queue : QueueState) : Prop where
  opened : ∀ attempt ∈ queue.attempts, attempt.completedAt = none →
    ∃ job ∈ queue.jobs, job.status = .running ∧ currentAttempt job attempt = true ∧
      attempt.leaseToken = job.leaseToken
  current : ∀ job ∈ queue.jobs, job.status = .running →
    ∃ attempt ∈ queue.attempts, currentAttempt job attempt = true ∧ attempt.completedAt = none
  closed : ∀ attempt ∈ queue.attempts, attempt.completedAt ≠ none → attempt.outcomeStatus ≠ none

variable {queue : QueueState} {action : QueueAction}

theorem currentAttempt_iff {job : Job} {attempt : JobAttempt} :
    currentAttempt job attempt = true ↔
      attempt.jobId = job.jobId ∧ attempt.attemptNumber = job.attemptCount := by
  simp [currentAttempt]

theorem attemptsFollow_empty : QueueState.empty.AttemptsFollow where
  opened := by simp [QueueState.empty]
  current := by simp [QueueState.empty]
  closed := by simp [QueueState.empty]

/-- A coherent queue whose open attempts are the current ones has a well formed history. -/
theorem AttemptsFollow.wellFormed (follow : queue.AttemptsFollow) (coherent : queue.Coherent) :
    queue.HistoryWellFormed := by
  have owner : ∀ job ∈ queue.jobs, ∀ attempt ∈ queue.attempts, job.hasOpen attempt = true →
      job.status = .running ∧ currentAttempt job attempt = true ∧
        attempt.leaseToken = job.leaseToken := by
    intro job member attempt attemptMem isOpen
    obtain ⟨same, unfinished⟩ : attempt.jobId = job.jobId ∧ attempt.completedAt = none := by
      simpa [Job.hasOpen] using isOpen
    obtain ⟨other, otherMem, running, current, token⟩ :=
      follow.opened attempt attemptMem unfinished
    have itself : other = job := coherent.jobIds.eq_of_mem otherMem member
      ((currentAttempt_iff.mp current).1.symm.trans same)
    exact itself ▸ ⟨running, current, token⟩
  refine ⟨fun job member => ?_, fun job member attempt attemptMem isOpen => ?_, follow.closed⟩
  · rw [List.countP_eq_length_filter]
    refine coherent.attemptKeys.length_filter_le_one (job.jobId, job.attemptCount) ?_
    intro attempt attemptMem isOpen
    obtain ⟨sameJob, sameNumber⟩ :=
      currentAttempt_iff.mp (owner job member attempt attemptMem isOpen).2.1
    exact ⟨trivial, Prod.ext sameJob sameNumber⟩
  · obtain ⟨running, current, token⟩ := owner job member attempt attemptMem isOpen
    refine ⟨running, fun other otherMem same => ?_, token,
      (coherent.rows job member).held.mp running⟩
    rw [(currentAttempt_iff.mp current).2]
    exact coherent.attemptNumber_le member otherMem same

/-! ## Steps -/

/-- A new job has no attempts, as its count says. -/
theorem AttemptsFollow.enqueue (follow : queue.AttemptsFollow) {request : EnqueueRequest}
    {jobId : Uuid} {now createdAt : Timestamp} :
    (queue.enqueue request jobId now createdAt).1.AttemptsFollow := by
  unfold QueueState.enqueue
  split
  · exact follow
  · refine ⟨fun attempt member unfinished => ?_, fun job member running => ?_, follow.closed⟩
    · obtain ⟨job, jobMem, rest⟩ := follow.opened attempt member unfinished
      exact ⟨job, List.mem_append_left _ jobMem, rest⟩
    · rcases List.mem_append.mp member with old | new
      · exact follow.current job old running
      · cases List.mem_singleton.mp new
        cases running

/-- A claim opens the attempt that the count of its job calls for. -/
theorem AttemptsFollow.claim (follow : queue.AttemptsFollow) (coherent : queue.Coherent)
    {workerId : String} {leaseSeconds : Int} {batchSize : Nat} {now : Timestamp}
    {locked : Uuid → Bool} {uuid4 : Uuid → Uuid} (draws : queue.DrawsFresh uuid4) :
    (queue.step (.claim workerId leaseSeconds batchSize now locked uuid4)).AttemptsFollow := by
  obtain ⟨next, claimed, -, jobs, -, attempts⟩ :=
    coherent.claim draws workerId leaseSeconds batchSize now locked
  have candidate : ∀ job ∈ queue.jobs, job.jobId ∈ queue.candidateIds batchSize now locked →
      job.status ≠ .running := by
    intro job member listed running
    obtain ⟨other, otherMem, same, claimable, _⟩ := mem_candidateIds listed
    rw [coherent.jobIds.eq_of_mem otherMem member same] at claimable
    simp [Job.claimable, running, claimableStatuses] at claimable
  have stepped : queue.step (.claim workerId leaseSeconds batchSize now locked uuid4) = next := by
    rw [QueueState.step, perform, claimed]
    rfl
  rw [stepped]
  refine ⟨fun attempt member unfinished => ?_, fun job member running => ?_,
    fun attempt member finished => ?_⟩
  · rcases (attempts attempt).mp member with old | ⟨job, jobMem, listed, rfl⟩
    · obtain ⟨job, jobMem, running, rest⟩ := follow.opened attempt old unfinished
      refine ⟨job, ?_, running, rest⟩
      rw [jobs]
      exact List.mem_map.mpr ⟨job, jobMem, if_neg fun listed => candidate job jobMem listed running⟩
    · refine ⟨job.lease workerId (uuid4 job.jobId) leaseSeconds now, ?_, rfl,
        currentAttempt_iff.mpr ⟨rfl, rfl⟩, rfl⟩
      rw [jobs]
      exact List.mem_map.mpr ⟨job, jobMem, if_pos listed⟩
  · rw [jobs] at member
    obtain ⟨old, oldMem, rfl⟩ := List.mem_map.mp member
    by_cases listed : old.jobId ∈ queue.candidateIds batchSize now locked
    · rw [if_pos listed]
      exact ⟨_, (attempts _).mpr (.inr ⟨old, oldMem, listed, rfl⟩),
        currentAttempt_iff.mpr ⟨rfl, rfl⟩, rfl⟩
    · rw [if_neg listed] at running ⊢
      obtain ⟨attempt, attemptMem, rest⟩ := follow.current old oldMem running
      exact ⟨attempt, (attempts attempt).mpr (.inl attemptMem), rest⟩
  · rcases (attempts attempt).mp member with old | ⟨job, _, _, rfl⟩
    · exact follow.closed attempt old finished
    · exact (finished rfl).elim

/-- Rewriting the columns of jobs that the attempts do not depend on. -/
theorem AttemptsFollow.rewrite (follow : queue.AttemptsFollow) (condition : Job → Bool)
    {change : Job → Job} (keepsId : ∀ job, (change job).jobId = job.jobId)
    (keepsStatus : ∀ job, (change job).status = job.status)
    (keepsCount : ∀ job, (change job).attemptCount = job.attemptCount)
    (keepsToken : ∀ job, (change job).leaseToken = job.leaseToken) :
    AttemptsFollow ⟨updateWhere condition change queue.jobs, queue.attempts⟩ := by
  have kept : ∀ job attempt, (if condition job then change job else job).status = job.status ∧
      (if condition job then change job else job).leaseToken = job.leaseToken ∧
      currentAttempt (if condition job then change job else job) attempt =
        currentAttempt job attempt := by
    intro job attempt
    unfold currentAttempt
    split
    · rw [keepsId, keepsCount]
      exact ⟨keepsStatus job, keepsToken job, rfl⟩
    · exact ⟨rfl, rfl, rfl⟩
  refine ⟨fun attempt member unfinished => ?_, fun job member running => ?_, follow.closed⟩
  · obtain ⟨job, jobMem, running, current, token⟩ := follow.opened attempt member unfinished
    obtain ⟨status, sameToken, same⟩ := kept job attempt
    exact ⟨_, mem_updateWhere.mpr ⟨job, jobMem, rfl⟩, status.trans running, same.trans current,
      token.trans sameToken.symm⟩
  · obtain ⟨old, oldMem, rfl⟩ := mem_updateWhere.mp member
    obtain ⟨attempt, attemptMem, current, unfinished⟩ :=
      follow.current old oldMem ((kept old ⟨0, 0, none, none, 0, none, none, none⟩).1 ▸ running)
    exact ⟨attempt, attemptMem, (kept old attempt).2.2.trans current, unfinished⟩

/-- A completion by the holder of a lease closes the attempt of the lease. -/
theorem AttemptsFollow.finish (follow : queue.AttemptsFollow) (coherent : queue.Coherent)
    {job : Job} (member : job ∈ queue.jobs) {status : JobStatus}
    (accepted : status ∈ completionStatuses) (errorCode errorDetail : Option String)
    (retryDelaySeconds : Int) (now : Timestamp) :
    AttemptsFollow
      { jobs := updateWhere (fun row => row.jobId = job.jobId)
          (Job.finish status errorCode errorDetail retryDelaySeconds now) queue.jobs
        attempts := queue.closedAttempts job status errorCode now } := by
  have single : ∀ other ∈ queue.jobs, other.jobId = job.jobId → other = job :=
    fun other otherMem same => coherent.jobIds.eq_of_mem otherMem member same
  have ended : (job.finish status errorCode errorDetail retryDelaySeconds now).status ≠
      .running := by
    change job.outcome status ≠ .running
    unfold Job.outcome
    split
    · simp
    · rintro rfl
      simp [completionStatuses] at accepted
  have untouched : ∀ attempt ∈ queue.attempts, currentAttempt job attempt = false →
      attempt ∈ queue.closedAttempts job status errorCode now := by
    intro attempt attemptMem other
    exact mem_updateWhere.mpr ⟨attempt, attemptMem, by simp [other]⟩
  refine ⟨fun attempt attemptMem unfinished => ?_, fun other otherMem running => ?_,
    fun attempt attemptMem finished => ?_⟩
  · obtain ⟨old, oldMem, rfl⟩ := mem_updateWhere.mp attemptMem
    by_cases current : currentAttempt job old = true
    · simp [current] at unfinished
    · rw [if_neg current] at unfinished ⊢
      obtain ⟨other, otherMem, running, theirs, token⟩ := follow.opened old oldMem unfinished
      have differs : other.jobId ≠ job.jobId := by
        intro same
        exact current (single other otherMem same ▸ theirs)
      exact ⟨other, mem_updateWhere.mpr ⟨other, otherMem, by simp [differs]⟩, running, theirs,
        token⟩
  · obtain ⟨old, oldMem, rfl⟩ := mem_updateWhere.mp otherMem
    by_cases same : old.jobId = job.jobId
    · cases single old oldMem same
      rw [if_pos (by simp)] at running
      exact (ended running).elim
    · rw [if_neg (by simpa using same)] at running ⊢
      obtain ⟨attempt, attemptMem, current, unfinished⟩ := follow.current old oldMem running
      refine ⟨attempt, untouched attempt attemptMem ?_, current, unfinished⟩
      rw [Bool.eq_false_iff]
      intro mine
      exact same ((currentAttempt_iff.mp current).1.symm.trans (currentAttempt_iff.mp mine).1)
  · obtain ⟨old, oldMem, rfl⟩ := mem_updateWhere.mp attemptMem
    by_cases current : currentAttempt job old = true
    · simp [current]
    · rw [if_neg current] at finished ⊢
      exact follow.closed old oldMem finished

/-- What a step that recovers no lease keeps. -/
theorem AttemptsFollow.step (follow : queue.AttemptsFollow) (coherent : queue.Coherent)
    (fresh : action.Fresh queue) (unrecovered : action.RecoversNone queue) :
    (queue.step action).AttemptsFollow := by
  cases action with
  | enqueue request jobId now createdAt => exact follow.enqueue
  | claim workerId leaseSeconds batchSize now locked uuid4 => exact follow.claim coherent fresh
  | heartbeat jobId leaseToken extendSeconds now =>
      obtain ⟨⟨_, _⟩, beaten, _, rfl, rfl⟩ :=
        coherent.heartbeat jobId leaseToken extendSeconds now
      rw [QueueState.step, perform, beaten]
      exact follow.rewrite _ (fun _ => rfl) (fun _ => rfl) (fun _ => rfl) fun _ => rfl
  | complete jobId leaseToken status errorCode errorDetail retryDelaySeconds now =>
      by_cases accepted : status ∈ completionStatuses
      · by_cases holds : queue.Holds jobId leaseToken
        · obtain ⟨job, member, rfl, holds⟩ := holds
          obtain ⟨⟨_, _⟩, completed, _, rfl, rfl⟩ := coherent.complete_of_holds accepted member
            holds errorCode errorDetail retryDelaySeconds now
          rw [QueueState.step, perform, completed]
          exact follow.finish coherent member accepted errorCode errorDetail retryDelaySeconds now
        · rw [QueueState.step, perform, complete_of_not_holds holds, if_pos accepted]
          exact follow
      · rw [QueueState.step, perform, complete_of_status accepted]
        exact follow
  | recoverExpiredLeases now =>
      obtain ⟨⟨_, _⟩, recovered, _, rfl, rfl⟩ := coherent.recoverExpiredLeases now
      rw [QueueState.step, perform, recovered]
      change AttemptsFollow ⟨updateWhere (Job.expired now) (Job.recover now) queue.jobs, _⟩
      rw [updateWhere_eq_self unrecovered]
      exact follow

/-- A recovered lease leaves an open attempt of a job that does not run. -/
theorem AttemptsFollow.broken_of_recovered (follow : queue.AttemptsFollow)
    (coherent : queue.Coherent) {now : Timestamp} {job : Job} (member : job ∈ queue.jobs)
    (expired : job.expired now = true) :
    ¬ (queue.step (.recoverExpiredLeases now)).HistoryWellFormed := by
  obtain ⟨⟨_, _⟩, recovered, _, rfl, rfl⟩ := coherent.recoverExpiredLeases now
  have running : job.status = .running := by
    simp only [Job.expired, Bool.and_eq_true, decide_eq_true_eq] at expired
    exact expired.1
  obtain ⟨attempt, attemptMem, current, unfinished⟩ := follow.current job member running
  rw [QueueState.step, perform, recovered]
  intro wellFormed
  have carries := wellFormed.carried (job.recover now)
    (mem_updateWhere.mpr ⟨job, member, by simp [expired]⟩) attempt attemptMem
    (by simp [Job.hasOpen, Job.recover, (currentAttempt_iff.mp current).1, unfinished])
  cases carries.running

/-- A step keeps the history well formed just when it recovers no lease. -/
theorem AttemptsFollow.wellFormed_step_iff (follow : queue.AttemptsFollow)
    (coherent : queue.Coherent) (fresh : action.Fresh queue) :
    (queue.step action).HistoryWellFormed ↔ action.RecoversNone queue := by
  constructor
  · intro wellFormed
    cases action with
    | recoverExpiredLeases now =>
        intro job member
        rw [Bool.eq_false_iff]
        exact fun expired => follow.broken_of_recovered coherent member expired wellFormed
    | enqueue _ _ _ _ | claim _ _ _ _ _ _ | heartbeat _ _ _ _ | complete _ _ _ _ _ _ _ =>
        exact trivial
  · intro unrecovered
    exact (follow.step coherent fresh unrecovered).wellFormed (coherent.step fresh).coherent

/-- **Attempt histories.** In every state of a run from the empty queue each job has at
most one open attempt, which is its newest one, while it runs and with its lease token,
and every other attempt has an outcome, just when the run recovers no lease. -/
theorem attempt_history_iff (actions : List QueueAction)
    (fresh : Permitted step QueueAction.Fresh .empty actions) :
    (∀ earlier later, actions = earlier ++ later → (run step .empty earlier).HistoryWellFormed) ↔
      Permitted step (fun queue action => action.RecoversNone queue) .empty actions := by
  have preserved : Preserved step (fun queue action => action.Fresh queue ∧
      action.RecoversNone queue) fun queue => queue.Coherent ∧ queue.AttemptsFollow := by
    rintro queue action ⟨coherent, follow⟩ ⟨fresh, unrecovered⟩
    exact ⟨(coherent.step fresh).coherent, follow.step coherent fresh unrecovered⟩
  have each : Permitted step (fun queue action => (queue.step action).HistoryWellFormed) .empty
      actions ↔ Permitted step (fun queue action => action.RecoversNone queue) .empty actions :=
    permitted_congr preserved
      (fun _ _ invariant fresh => invariant.2.wellFormed_step_iff invariant.1 fresh)
      ⟨coherent_empty, attemptsFollow_empty⟩ fresh
  rw [← each, forall_prefix_iff HistoryWellFormed]
  exact and_iff_right (attemptsFollow_empty.wellFormed coherent_empty)

/-! ## A lease that is recovered and claimed again -/

/-- Two workers claim one job, and the lease of the first is recovered in between. -/
def reclaimedRun : List QueueAction :=
  [.enqueue ⟨.normalize, "hash", "1", none, none, 0, 3, none⟩ 1 0 0,
    .claim "worker" 300 1 0 (fun _ => false) (fun _ => 10),
    .recoverExpiredLeases (seconds 301),
    .claim "other" 300 1 (seconds 302) (fun _ => false) (fun _ => 11)]

/-- The job has two open attempts, though the run draws fresh identifiers. -/
theorem reclaimed_run_leaves_open :
    Permitted step QueueAction.Fresh .empty reclaimedRun ∧
      ¬ (run step .empty reclaimedRun).HistoryWellFormed := by
  refine ⟨by decide, fun wellFormed => ?_⟩
  have single := wellFormed.single _ (List.head_mem (by decide))
  revert single
  decide

/-- One worker claims a job and completes it. -/
def completedRun : List QueueAction :=
  [.enqueue ⟨.normalize, "hash", "1", none, none, 0, 3, none⟩ 1 0 0,
    .claim "worker" 300 1 0 (fun _ => false) (fun _ => 10),
    .complete 1 10 .succeeded none none 60 (seconds 5)]

theorem attempt_history_completed : (run step .empty completedRun).HistoryWellFormed := by
  have unrecovered : Permitted step (fun queue action => action.RecoversNone queue) .empty
      completedRun := by
    simp [completedRun, QueueAction.RecoversNone]
  exact (attempt_history_iff completedRun (by decide)).mpr unrecovered completedRun []
    (List.append_nil _).symm

end QueueState

end RentalAgent
