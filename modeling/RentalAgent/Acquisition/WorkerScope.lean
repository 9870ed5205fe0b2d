import RentalAgent.Acquisition.Fencing
import RentalAgent.Canonical.Standings

/-! # The jobs a worker touches

`drain_normalize_jobs` claims the first due job of any type and looks at its type
afterwards: a job of another type stays leased, and the loop ends. A worker leaves the
jobs of other types alone, and returns early only when no NORMALIZE job is left to claim,
just when every claim finds a NORMALIZE job first or no job at all
(`DrainState.drain_in_scope_iff`).
-/

namespace RentalAgent

open Relational Transition

namespace QueueState

/-- The jobs that are not the worker's. -/
def otherJobs (queue : QueueState) : List Job :=
  queue.jobs.filter fun job => job.jobType ≠ .normalize

/-- A NORMALIZE job is due within its attempt limit, and no transaction has locked it. -/
def OffersNormalize (queue : QueueState) (readings : Readings) : Prop :=
  ∃ job ∈ queue.jobs, job.jobType = .normalize ∧ job.claimable readings.queuedAt = true ∧
    readings.locked job.jobId = false

variable {queue next : QueueState} {readings : Readings} {now : Timestamp} {locked : Uuid → Bool}

/-- A claim of one job finds nothing just when nothing is claimable. -/
theorem claimable_locked_of_candidateIds_nil (none : queue.candidateIds 1 now locked = []) :
    ∀ job ∈ queue.jobs, job.claimable now = true → locked job.jobId = true := by
  intro job member claimable
  by_contra free
  have selected : job ∈ queue.jobs.filter fun row => row.claimable now && !locked row.jobId :=
    List.mem_filter.mpr ⟨member, by simp [claimable, Bool.not_eq_true _ ▸ free]⟩
  have sorted := (List.mem_insertionSort Job.ClaimedBefore).mpr selected
  rw [candidateIds, List.map_eq_nil_iff, List.take_eq_nil_iff] at none
  rcases none with zero | empty
  · cases zero
  · rw [empty] at sorted
    cases sorted

/-- A claim of one job finds one at most. -/
theorem candidateIds_one (queue : QueueState) (now : Timestamp) (locked : Uuid → Bool) :
    queue.candidateIds 1 now locked = [] ∨ ∃ id, queue.candidateIds 1 now locked = [id] := by
  have short : (queue.candidateIds 1 now locked).length ≤ 1 := by
    rw [candidateIds, List.length_map]
    exact List.length_take_le 1 _
  match queue.candidateIds 1 now locked, short with
  | [], _ => exact .inl rfl
  | [id], _ => exact .inr ⟨id, rfl⟩

/-- Rewriting a NORMALIZE job leaves the other jobs alone. -/
theorem otherJobs_rewrite (coherent : queue.Coherent) {job : Job} (member : job ∈ queue.jobs)
    (own : job.jobType = .normalize) {change : Job → Job}
    (keeps : ∀ row, (change row).jobType = row.jobType)
    (jobs : next.jobs = updateWhere (fun row => row.jobId = job.jobId) change queue.jobs) :
    next.otherJobs = queue.otherJobs := by
  unfold otherJobs
  rw [jobs]
  apply filter_updateWhere
  intro row rowMem same
  obtain rfl := coherent.jobIds.eq_of_mem rowMem member (by simpa using same)
  simp [keeps, own]

/-- A completed NORMALIZE job leaves the other jobs alone. -/
theorem otherJobs_complete (coherent : queue.Coherent) {job : Job} (member : job ∈ queue.jobs)
    (own : job.jobType = .normalize) {leaseToken : Uuid} {status : JobStatus}
    {errorCode errorDetail : Option String} {retryDelaySeconds : Int} {accepted : Bool}
    (completed : queue.complete job.jobId leaseToken status errorCode errorDetail
      retryDelaySeconds now = .ok (next, accepted)) :
    next.otherJobs = queue.otherJobs := by
  by_cases completion : status ∈ completionStatuses
  · by_cases holds : queue.Holds job.jobId leaseToken
    · obtain ⟨holder, holderMem, same, held⟩ := holds
      obtain rfl := coherent.jobIds.eq_of_mem holderMem member same
      obtain ⟨finished, result, -, -, jobs⟩ := coherent.complete_of_holds completion holderMem held
        errorCode errorDetail retryDelaySeconds now
      cases result.symm.trans completed
      exact otherJobs_rewrite coherent member own (by intro _; rfl) jobs
    · rw [complete_of_not_holds holds, if_pos completion] at completed
      cases completed
      rfl
  · rw [complete_of_status completion] at completed
    cases completed

end QueueState

/-! ## The claim of a worker -/

namespace Database

variable {db : Database} {readUuid : String → Option Uuid} {workerId : String}
  {readings : Readings}

/-- What the first transaction of a worker can end with. -/
inductive Claims (readUuid : String → Option Uuid) (workerId : String) (readings : Readings)
    (db : Database) : Except String (Database × Option ClaimedJob) → Prop
  | none {queue : QueueState}
      (nothing : db.queue.candidateIds 1 readings.queuedAt readings.locked = [])
      (jobs : queue.jobs = db.queue.jobs) :
      Claims readUuid workerId readings db (.ok ({ db with queue := queue }, Option.none))
  | other {queue : QueueState} {job : Job} (member : job ∈ db.queue.jobs)
      (first : db.queue.candidateIds 1 readings.queuedAt readings.locked = [job.jobId])
      (type : job.jobType ≠ .normalize)
      (jobs : queue.jobs = updateWhere (fun row => row.jobId = job.jobId)
        (Job.lease workerId (readings.uuid4 job.jobId) 300 readings.queuedAt) db.queue.jobs) :
      Claims readUuid workerId readings db (.ok ({ db with queue := queue }, Option.none))
  | own {queue : QueueState} {job : Job} {claimed : ClaimedJob} (member : job ∈ db.queue.jobs)
      (first : db.queue.candidateIds 1 readings.queuedAt readings.locked = [job.jobId])
      (type : job.jobType = .normalize) (same : claimed.jobId = job.jobId)
      (jobs : queue.jobs = updateWhere (fun row => row.jobId = job.jobId)
        (Job.lease workerId (readings.uuid4 job.jobId) 300 readings.queuedAt) db.queue.jobs) :
      Claims readUuid workerId readings db (.ok ({ db with queue := queue }, some claimed))
  | malformed {job : Job} (member : job ∈ db.queue.jobs)
      (first : db.queue.candidateIds 1 readings.queuedAt readings.locked = [job.jobId])
      (type : job.jobType = .normalize) (errorType : String) :
      Claims readUuid workerId readings db (.error errorType)

/-- The first transaction of a worker claims nothing, a job of another type or one of its own. -/
theorem claimNormalize_claims (coherent : db.queue.Coherent)
    (draws : db.queue.DrawsFresh readings.uuid4) :
    Claims readUuid workerId readings db (db.claimNormalize readUuid workerId readings) := by
  obtain ⟨next, claimed, nextCoherent, jobs, -⟩ :=
    coherent.claim draws workerId 300 1 readings.queuedAt readings.locked
  rw [claimNormalize, claimed]
  dsimp only [Except.mapError, bind, Except.bind]
  rcases QueueState.candidateIds_one db.queue readings.queuedAt readings.locked with
    nothing | ⟨id, first⟩
  · rw [nothing]
    refine .none nothing ?_
    simp [jobs, nothing]
  · obtain ⟨job, member, rfl, -⟩ :=
      QueueState.mem_candidateIds (first ▸ List.mem_singleton_self id)
    have leased : next.jobs = updateWhere (fun row => row.jobId = job.jobId)
        (Job.lease workerId (readings.uuid4 job.jobId) 300 readings.queuedAt) db.queue.jobs := by
      rw [jobs, first, updateWhere]
      apply List.map_congr_left
      intro row _
      by_cases same : row.jobId = job.jobId <;> simp [same]
    have found : next.job? job.jobId =
        some (job.lease workerId (readings.uuid4 job.jobId) 300 readings.queuedAt) := by
      refine nextCoherent.job?_eq_some.mpr ⟨?_, rfl⟩
      rw [leased]
      exact mem_updateWhere.mpr ⟨job, member, by simp⟩
    rw [first, List.filterMap_cons_some found, List.filterMap_nil]
    by_cases own : job.jobType = .normalize
    · rw [List.filter_cons_of_pos (by simp [Job.lease, own])]
      dsimp only
      cases read : readUuid job.inputHash with
      | none =>
          have failed : readUuid (job.lease workerId (readings.uuid4 job.jobId) 300
              readings.queuedAt).inputHash = none := read
          rw [failed]
          exact .malformed member first own _
      | some observationId =>
          have stated : readUuid (job.lease workerId (readings.uuid4 job.jobId) 300
              readings.queuedAt).inputHash = some observationId := read
          rw [stated]
          exact .own member first own rfl leased
    · rw [List.filter_cons_of_neg (by simp [Job.lease, own]), List.filter_nil]
      exact .other member first own leased

end Database

/-! ## One transaction of a worker -/

namespace Worker

variable {ids : IdSupply} {unicode : UnicodeTables} {readUuid : String → Option Uuid}
  {readings : Readings} {db : Database} {worker : Worker}

/-- The job in the hands of the worker. -/
def claimed? (worker : Worker) : Option ClaimedJob :=
  match worker.phase with
  | .working claimed | .failing claimed _ => some claimed
  | .idle | .returned | .raised _ => none

/-- The job in the hands of the worker is a NORMALIZE job. -/
def Owns (worker : Worker) (queue : QueueState) : Prop :=
  ∀ claimed ∈ worker.claimed?, ∃ job ∈ queue.jobs, job.jobId = claimed.jobId ∧
    job.jobType = .normalize

/-- The next transaction of the worker leaves the jobs of other types alone, and when the
loop ends before the limit no NORMALIZE job is left to claim. -/
structure InScope (ids : IdSupply) (unicode : UnicodeTables) (readUuid : String → Option Uuid)
    (readings : Readings) (db : Database) (worker : Worker) : Prop where
  others : (worker.advance ids unicode readUuid readings db).1.queue.otherJobs = db.queue.otherJobs
  drained : worker.phase = .idle → worker.processed < worker.maxJobs →
    (worker.advance ids unicode readUuid readings db).2.phase = .returned →
      ¬ (worker.advance ids unicode readUuid readings db).1.queue.OffersNormalize readings

/-- The job that the worker would claim next is a NORMALIZE job, if there is one. -/
def ClaimsOwn (readings : Readings) (db : Database) (worker : Worker) : Prop :=
  worker.phase = .idle → worker.processed < worker.maxJobs → ∀ job ∈ db.queue.jobs,
    job.jobId ∈ db.queue.candidateIds 1 readings.queuedAt readings.locked →
      job.jobType = .normalize

/-- A transaction of a worker calls the queue at most once. -/
theorem advance_queue (draws : db.queue.DrawsFresh readings.uuid4) :
    (worker.advance ids unicode readUuid readings db).1.queue = db.queue ∨
      ∃ action : QueueAction, action.Fresh db.queue ∧
        (worker.advance ids unicode readUuid readings db).1.queue = db.queue.step action := by
  have completes : ∀ {jobId leaseToken status errorCode queue accepted},
      db.queue.complete jobId leaseToken status errorCode none 60 readings.queuedAt =
        .ok (queue, accepted) → ∃ action : QueueAction, action.Fresh db.queue ∧
          queue = db.queue.step action := by
    intro jobId leaseToken status errorCode queue accepted completed
    refine ⟨.complete jobId leaseToken status errorCode none 60 readings.queuedAt, trivial, ?_⟩
    rw [QueueState.step, QueueState.perform, completed]
    rfl
  unfold advance
  cases worker.phase with
  | idle =>
      dsimp only
      split
      · cases result : db.claimNormalize readUuid worker.workerId readings with
        | error _ => exact .inl rfl
        | ok claim =>
            obtain ⟨⟨queue, jobs⟩, claimed, wrote⟩ := bind_eq_ok.mp result
            rw [mapError_eq_ok] at claimed
            have stepped : queue = db.queue.step (.claim worker.workerId 300 1 readings.queuedAt
                readings.locked readings.uuid4) := by
              rw [QueueState.step, QueueState.perform, claimed]
              rfl
            refine .inr ⟨.claim worker.workerId 300 1 readings.queuedAt readings.locked
              readings.uuid4, draws, ?_⟩
            rw [← stepped]
            dsimp only at wrote
            split at wrote
            · cases wrote
              rfl
            · obtain ⟨_, _, wrote⟩ := bind_eq_ok.mp wrote
              obtain ⟨_, _, wrote⟩ := bind_eq_ok.mp wrote
              cases wrote
              rfl
      · exact .inl rfl
  | working claimed =>
      dsimp only
      cases finished : db.finishClaimed ids unicode worker.discoveryMethod readings claimed with
      | error _ => exact .inl rfl
      | ok result =>
          obtain ⟨next, accepted⟩ := result
          obtain ⟨written, outcome, queue, _, completed, rfl⟩ :=
            Database.finishClaimed_eq_ok.mp finished
          exact .inr (completes completed)
  | failing claimed errorCode =>
      dsimp only
      cases reported : db.reportFailure readings claimed errorCode with
      | error _ => exact .inl rfl
      | ok next =>
          obtain ⟨⟨queue, _⟩, completed, wrote⟩ := bind_eq_ok.mp reported
          rw [mapError_eq_ok] at completed
          cases wrote
          exact .inr (completes completed)
  | returned => exact .inl rfl
  | raised _ => exact .inl rfl

/-- An idle worker that may go on claims the next job. -/
theorem advance_idle (phase : worker.phase = .idle) (more : worker.processed < worker.maxJobs) :
    worker.advance ids unicode readUuid readings db =
      match db.claimNormalize readUuid worker.workerId readings with
      | .ok (next, some claimed) => (next, { worker with phase := .working claimed })
      | .ok (next, none) => (next, { worker with phase := .returned })
      | .error errorType => (db, { worker with phase := .raised errorType }) := by
  unfold advance
  rw [phase]
  refine (if_pos more).trans ?_
  rcases db.claimNormalize readUuid worker.workerId readings with _ | ⟨_, _ | _⟩ <;> rfl

/-- A claim that finds a job finds one of the worker's just when the job is. -/
theorem claimsOwn_iff_of_first (coherent : db.queue.Coherent) (phase : worker.phase = .idle)
    (more : worker.processed < worker.maxJobs) {job : Job} (member : job ∈ db.queue.jobs)
    (first : db.queue.candidateIds 1 readings.queuedAt readings.locked = [job.jobId]) :
    worker.ClaimsOwn readings db ↔ job.jobType = .normalize := by
  constructor
  · intro own
    exact own phase more job member (first ▸ List.mem_singleton_self _)
  · intro own _ _ other otherMem listed
    rw [first, List.mem_singleton] at listed
    rwa [coherent.jobIds.eq_of_mem otherMem member listed]

/-- The claim of a worker stays in scope just when it finds no job of another type. -/
theorem inScope_iff_of_idle (coherent : db.queue.Coherent)
    (draws : db.queue.DrawsFresh readings.uuid4) (phase : worker.phase = .idle)
    (more : worker.processed < worker.maxJobs) :
    worker.InScope ids unicode readUuid readings db ↔ worker.ClaimsOwn readings db := by
  have claims : Database.Claims readUuid worker.workerId readings db
      (db.claimNormalize readUuid worker.workerId readings) :=
    Database.claimNormalize_claims coherent draws
  have advanced : worker.advance ids unicode readUuid readings db = _ := advance_idle phase more
  generalize db.claimNormalize readUuid worker.workerId readings = claim at claims advanced
  cases claims with
  | none nothing jobs =>
      refine iff_of_true ⟨?_, fun _ _ _ => ?_⟩ ?_
      · rw [advanced, QueueState.otherJobs, jobs, QueueState.otherJobs]
      · rw [advanced]
        rintro ⟨job, member, _, claimable, free⟩
        have taken := QueueState.claimable_locked_of_candidateIds_nil nothing job (jobs ▸ member)
          claimable
        rw [free] at taken
        cases taken
      · intro _ _ job _ listed
        rw [nothing] at listed
        cases listed
  | other member first type jobs =>
      rename_i queue job
      refine iff_of_false ?_
        ((claimsOwn_iff_of_first coherent phase more member first).not.mpr type)
      rintro ⟨others, _⟩
      rw [advanced] at others
      have before : job ∈ db.queue.otherJobs := List.mem_filter.mpr ⟨member, by simp [type]⟩
      rw [← others] at before
      obtain ⟨old, oldMem, same⟩ := mem_updateWhere.mp (jobs ▸ (List.mem_filter.mp before).1)
      -- the row of the leased job counts one attempt more
      have counts := congrArg Job.attemptCount same
      have ids := congrArg Job.jobId same
      by_cases itself : old.jobId = job.jobId
      · obtain rfl := coherent.jobIds.eq_of_mem oldMem member itself
        simp [Job.lease] at counts
      · simp only [itself, decide_false, Bool.false_eq_true, ↓reduceIte] at ids
  | own member first type same jobs =>
      refine iff_of_true ⟨?_, fun _ _ returned => ?_⟩
        ((claimsOwn_iff_of_first coherent phase more member first).mpr type)
      · rw [advanced]
        exact QueueState.otherJobs_rewrite coherent member type (by intro _; rfl) jobs
      · rw [advanced] at returned
        cases returned
  | malformed member first type errorType =>
      refine iff_of_true ⟨by rw [advanced], fun _ _ returned => ?_⟩
        ((claimsOwn_iff_of_first coherent phase more member first).mpr type)
      rw [advanced] at returned
      cases returned

/-- **One transaction.** It stays in scope just when it claims no job of another type. -/
theorem inScope_iff (coherent : db.queue.Coherent) (draws : db.queue.DrawsFresh readings.uuid4)
    (owns : worker.Owns db.queue) :
    worker.InScope ids unicode readUuid readings db ↔ worker.ClaimsOwn readings db := by
  have completes : ∀ {claimed : ClaimedJob}, worker.claimed? = some claimed →
      ∀ {status errorCode queue accepted}, db.queue.complete claimed.jobId claimed.leaseToken status
        errorCode none 60 readings.queuedAt = .ok (queue, accepted) →
          queue.otherJobs = db.queue.otherJobs := by
    intro claimed holds status errorCode queue accepted completed
    obtain ⟨job, member, same, own⟩ := owns claimed holds
    rw [← same] at completed
    exact QueueState.otherJobs_complete coherent member own completed
  have busy : worker.phase ≠ .idle ∨ ¬ worker.processed < worker.maxJobs →
      (worker.advance ids unicode readUuid readings db).1.queue.otherJobs = db.queue.otherJobs →
        (worker.InScope ids unicode readUuid readings db ↔ worker.ClaimsOwn readings db) := by
    intro away kept
    refine iff_of_true ⟨kept, fun idle more => ?_⟩ fun idle more => ?_
    · exact away.elim (absurd idle) (absurd more)
    · exact away.elim (absurd idle) (absurd more)
  cases phase : worker.phase with
  | idle =>
      by_cases more : worker.processed < worker.maxJobs
      · exact inScope_iff_of_idle coherent draws phase more
      · refine busy (.inr more) ?_
        simp only [advance, phase, more, ↓reduceIte]
  | working claimed =>
      refine busy (.inl (by simp [phase])) ?_
      have holds : worker.claimed? = some claimed := by simp [claimed?, phase]
      simp only [advance, phase]
      cases finished : db.finishClaimed ids unicode worker.discoveryMethod readings claimed with
      | error _ => rfl
      | ok result =>
          obtain ⟨next, accepted⟩ := result
          obtain ⟨written, outcome, queue, _, completed, rfl⟩ :=
            Database.finishClaimed_eq_ok.mp finished
          exact completes holds completed
  | failing claimed errorCode =>
      refine busy (.inl (by simp [phase])) ?_
      have holds : worker.claimed? = some claimed := by simp [claimed?, phase]
      simp only [advance, phase]
      cases reported : db.reportFailure readings claimed errorCode with
      | error _ => rfl
      | ok next =>
          obtain ⟨⟨queue, _⟩, completed, wrote⟩ := bind_eq_ok.mp reported
          rw [mapError_eq_ok] at completed
          cases wrote
          exact completes holds completed
  | returned =>
      refine busy (.inl (by simp [phase])) ?_
      simp only [advance, phase]
  | raised _ =>
      refine busy (.inl (by simp [phase])) ?_
      simp only [advance, phase]

/-- A worker that claims owns what it claims. -/
theorem owns_advance (coherent : db.queue.Coherent) (draws : db.queue.DrawsFresh readings.uuid4)
    (owns : worker.Owns db.queue) (kept : ∀ old ∈ db.queue.jobs,
      ∃ new ∈ (worker.advance ids unicode readUuid readings db).1.queue.jobs,
        new.jobId = old.jobId ∧ new.jobType = old.jobType) :
    (worker.advance ids unicode readUuid readings db).2.Owns
      (worker.advance ids unicode readUuid readings db).1.queue := by
  have still : ∀ claimed : ClaimedJob, (∃ job ∈ db.queue.jobs, job.jobId = claimed.jobId ∧
      job.jobType = .normalize) →
        ∃ job ∈ (worker.advance ids unicode readUuid readings db).1.queue.jobs,
          job.jobId = claimed.jobId ∧ job.jobType = .normalize := by
    rintro claimed ⟨job, member, same, own⟩
    obtain ⟨new, newMem, id, type⟩ := kept job member
    exact ⟨new, newMem, id.trans same, type.trans own⟩
  intro claimed holds
  apply still
  clear still kept
  cases phase : worker.phase with
  | idle =>
      by_cases more : worker.processed < worker.maxJobs
      · have claims : Database.Claims readUuid worker.workerId readings db
            (db.claimNormalize readUuid worker.workerId readings) :=
          Database.claimNormalize_claims coherent draws
        rw [advance_idle phase more] at holds
        generalize db.claimNormalize readUuid worker.workerId readings = claim at claims holds
        cases claims with
        | none _ _ => cases holds
        | other _ _ _ _ => cases holds
        | malformed _ _ _ _ => cases holds
        | own member first type same jobs =>
            cases holds
            exact ⟨_, member, same.symm, type⟩
      · simp only [advance, phase, more, ↓reduceIte] at holds
        cases holds
  | working working =>
      have mine : worker.claimed? = some working := by simp [claimed?, phase]
      simp only [advance, phase] at holds
      split at holds
      · cases holds
      · obtain rfl : working = claimed := Option.some.inj holds
        exact owns working mine
  | failing failing errorCode =>
      simp only [advance, phase] at holds
      split at holds <;> cases holds
  | returned =>
      simp only [advance, phase] at holds
      simp [claimed?, phase] at holds
  | raised _ =>
      simp only [advance, phase] at holds
      simp [claimed?, phase] at holds

end Worker

/-! ## Every transaction of every worker -/

namespace DrainState

variable {ids : IdSupply} {unicode : UnicodeTables} {readUuid : String → Option Uuid}

/-- The identifiers and tokens an action draws are new. -/
def Fresh (state : DrainState) : DrainAction → Prop
  | .advance _ readings => state.database.queue.DrawsFresh readings.uuid4
  | .queue action => action.Fresh state.database.queue
  | .start _ _ _ | .service _ => True

/-- Every transaction of a worker stays in scope. -/
def InScope (ids : IdSupply) (unicode : UnicodeTables) (readUuid : String → Option Uuid)
    (state : DrainState) : DrainAction → Prop
  | .advance index readings => ∀ worker ∈ state.workers[index]?,
      worker.InScope ids unicode readUuid readings state.database
  | .start _ _ _ | .queue _ | .service _ => True

/-- No worker is about to claim a job of another type. -/
def ClaimsOwn (state : DrainState) : DrainAction → Prop
  | .advance index readings => ∀ worker ∈ state.workers[index]?,
      worker.ClaimsOwn readings state.database
  | .start _ _ _ | .queue _ | .service _ => True

/-- The queue is coherent, and the jobs in the hands of the workers are NORMALIZE jobs. -/
structure Scoped (state : DrainState) : Prop where
  coherent : state.database.queue.Coherent
  owns : ∀ worker ∈ state.workers, worker.Owns state.database.queue

/-- A transaction is in scope just when no worker is about to claim a job of another type. -/
theorem Scoped.inScope_iff {state : DrainState} (valid : state.Scoped) {action : DrainAction}
    (fresh : state.Fresh action) :
    state.InScope ids unicode readUuid action ↔ state.ClaimsOwn action := by
  cases action with
  | advance index readings =>
      refine forall_congr' fun worker => forall_congr' fun present => ?_
      exact Worker.inScope_iff valid.coherent fresh
        (valid.owns worker (List.mem_of_getElem? present))
  | start _ _ _ | queue _ | service _ => exact Iff.rfl

/-- A worker owns its jobs as long as they keep their types. -/
theorem Owns.mono {worker : Worker} {queue next : QueueState} (owns : worker.Owns queue)
    (kept : ∀ old ∈ queue.jobs, ∃ new ∈ next.jobs, new.jobId = old.jobId ∧
      new.jobType = old.jobType) : worker.Owns next := by
  intro claimed holds
  obtain ⟨job, member, same, own⟩ := owns claimed holds
  obtain ⟨new, newMem, id, type⟩ := kept job member
  exact ⟨new, newMem, id.trans same, type.trans own⟩

theorem service_queue (db : Database) (action : ServiceAction) :
    (db.step ids unicode action).queue = db.queue := by
  by_cases called : ∃ write, action = .outside write
  · obtain ⟨write, rfl⟩ := called
    rfl
  · exact (Database.step_serviceOnly action fun write same => called ⟨write, same⟩).queue

/-- Every transaction keeps the workers scoped. -/
theorem Scoped.step {state : DrainState} (valid : state.Scoped) {action : DrainAction}
    (fresh : state.Fresh action) : (state.step ids unicode readUuid action).Scoped := by
  cases action with
  | start workerId method maxJobs =>
      refine ⟨valid.coherent, fun worker member => ?_⟩
      rcases List.mem_append.mp member with old | new
      · exact valid.owns worker old
      · cases List.mem_singleton.mp new
        intro claimed holds
        cases holds
  | queue action =>
      exact ⟨(valid.coherent.step fresh).coherent, fun worker member =>
        Owns.mono (valid.owns worker member) (valid.coherent.step_keeps fresh)⟩
  | service action =>
      have queue : (state.database.step ids unicode action).queue = state.database.queue :=
        service_queue state.database action
      refine ⟨?_, fun worker member => ?_⟩
      · change (state.database.step ids unicode action).queue.Coherent
        rw [queue]
        exact valid.coherent
      · change worker.Owns (state.database.step ids unicode action).queue
        rw [queue]
        exact valid.owns worker member
  | advance index readings =>
      unfold DrainState.step
      dsimp only
      cases present : state.workers[index]? with
      | none => exact valid
      | some worker =>
          have member := List.mem_of_getElem? present
          have moved :
              (worker.advance ids unicode readUuid readings state.database).1.queue.Coherent ∧
                ∀ old ∈ state.database.queue.jobs, ∃ new ∈
                  (worker.advance ids unicode readUuid readings state.database).1.queue.jobs,
                    new.jobId = old.jobId ∧ new.jobType = old.jobType := by
            rcases Worker.advance_queue fresh with same | ⟨action, new, stepped⟩
            · rw [same]
              exact ⟨valid.coherent, fun old oldMem => ⟨old, oldMem, rfl, rfl⟩⟩
            · rw [stepped]
              exact ⟨(valid.coherent.step new).coherent, valid.coherent.step_keeps new⟩
          refine ⟨moved.1, fun other otherMem => ?_⟩
          rcases List.mem_or_eq_of_mem_set otherMem with old | rfl
          · exact Owns.mono (valid.owns other old) moved.2
          · exact Worker.owns_advance valid.coherent fresh (valid.owns worker member) moved.2

/-- **Workers in scope.** From a coherent queue of any jobs, and in every interleaving of
workers, calls of the queue and calls of the services, every transaction of a worker
leaves the jobs of other types alone and returns early only when no NORMALIZE job is left to
claim, just when no worker ever claims while a job of another type comes first. -/
theorem drain_in_scope_iff (ids : IdSupply) (unicode : UnicodeTables)
    (readUuid : String → Option Uuid) {db : Database} (coherent : db.queue.Coherent)
    (actions : List DrainAction)
    (fresh : Permitted (step ids unicode readUuid) Fresh ⟨db, []⟩ actions) :
    Permitted (step ids unicode readUuid) (InScope ids unicode readUuid) ⟨db, []⟩ actions ↔
      Permitted (step ids unicode readUuid) ClaimsOwn ⟨db, []⟩ actions := by
  have preserved : Preserved (step ids unicode readUuid)
      (fun state action => state.Fresh action ∧ state.ClaimsOwn action) Scoped :=
    fun _ _ valid permitted => valid.step permitted.1
  exact permitted_congr preserved (fun _ _ valid fresh => valid.inScope_iff fresh)
    ⟨coherent, by simp⟩ fresh

/-! ## A job of another type -/

/-- A job of the type is due, and one that normalizes the first observation. -/
def queuedBeside (jobType : JobType) (priority : Int) : Database where
  queue := run QueueState.step .empty
    [.enqueue
        { jobType := jobType
          inputHash := "hash"
          dependencyVersion := "1"
          priority := priority } 40 0 0,
      .enqueue
        { jobType := .normalize
          inputHash := "00000000-0000-0000-0000-000000000001"
          dependencyVersion := "phase3-skeleton-1"
          priority := 10 } 50 0 0]
  __ := Database.empty

/-- A worker starts and claims. -/
def drainOnce : List DrainAction :=
  [.start "normalize-worker" .direct 1000, .advance 0 { queuedAt := 1 }]

/-- A geocoding job of a higher priority is leased and left, and the worker returns while a
NORMALIZE job is due. -/
theorem drain_leases_other :
    (queuedBeside .geocode 20).queue.Coherent ∧
      Permitted (step countingIds Database.asciiTables readFirst) Fresh
        ⟨queuedBeside .geocode 20, []⟩ drainOnce ∧
      ¬ Permitted (step countingIds Database.asciiTables readFirst)
        (InScope countingIds Database.asciiTables readFirst) ⟨queuedBeside .geocode 20, []⟩
        drainOnce := by
  refine ⟨?_, ?_, ?_⟩
  · exact QueueState.coherent_preserved.run QueueState.coherent_empty (by decide)
  · have draws : (queuedBeside .geocode 20).queue.DrawsFresh id := by decide
    exact (permitted_cons _ _ _).mpr
      ⟨trivial, (permitted_cons _ _ _).mpr ⟨draws, permitted_nil _⟩⟩
  · intro permitted
    have last := (permitted_cons _ _ _).mp ((permitted_cons _ _ _).mp permitted).2
    have others := (last.1 _ rfl).others
    revert others
    decide

/-- With a NORMALIZE job first the claim stays in scope. -/
theorem drain_in_scope_first :
    Permitted (step countingIds Database.asciiTables readFirst)
      (InScope countingIds Database.asciiTables readFirst) ⟨queuedBeside .geocode 5, []⟩
      drainOnce := by
  have coherent : (queuedBeside .geocode 5).queue.Coherent :=
    QueueState.coherent_preserved.run QueueState.coherent_empty (by decide)
  have draws : (queuedBeside .geocode 5).queue.DrawsFresh id := by decide
  have own : ∀ job ∈ (queuedBeside .geocode 5).queue.jobs,
      job.jobId ∈ (queuedBeside .geocode 5).queue.candidateIds 1 1 (fun _ => false) →
        job.jobType = .normalize := by decide
  have fresh : Permitted (step countingIds Database.asciiTables readFirst) Fresh
      ⟨queuedBeside .geocode 5, []⟩ drainOnce :=
    (permitted_cons _ _ _).mpr ⟨trivial, (permitted_cons _ _ _).mpr ⟨draws, permitted_nil _⟩⟩
  refine (drain_in_scope_iff countingIds Database.asciiTables readFirst coherent drainOnce
    fresh).mpr ?_
  refine (permitted_cons _ _ _).mpr ⟨trivial, (permitted_cons _ _ _).mpr ⟨?_, permitted_nil _⟩⟩
  intro worker present _ _
  exact own

end DrainState

end RentalAgent
