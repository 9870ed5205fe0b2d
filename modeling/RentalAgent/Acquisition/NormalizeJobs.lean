import RentalAgent.Acquisition.Coverage
import RentalAgent.Acquisition.Pipeline

/-! # Observations and their jobs

The transaction that persists an observation enqueues its job, and an observation that is
a repeat of another leaves both tables alone. So the NORMALIZE jobs are, in their order,
the jobs of the observations, whatever is interleaved with the calls of `run_source` and
wherever a call crashes (`Pipeline.normalizeJobs_oneToOne`).
-/

namespace RentalAgent

open Relational Transition

namespace QueueState

/-- The input hashes of the NORMALIZE jobs ever enqueued. -/
def normalizeHashes (queue : QueueState) : List String :=
  (queue.tickets.filter fun ticket => ticket.jobType = .normalize).map Ticket.inputHash

variable {queue : QueueState}

theorem normalizeHashes_congr {next : QueueState} (same : next.tickets = queue.tickets) :
    next.normalizeHashes = queue.normalizeHashes := by
  rw [normalizeHashes, same, normalizeHashes]

theorem mem_normalizeHashes {hash : String} :
    hash ∈ queue.normalizeHashes ↔
      ∃ ticket ∈ queue.tickets, ticket.jobType = .normalize ∧ ticket.inputHash = hash := by
  simp [normalizeHashes, and_assoc]

/-- The NORMALIZE jobs of one input hash. -/
def normalizeCount (queue : QueueState) (hash : String) : Nat :=
  queue.tickets.countP fun ticket => ticket.jobType = .normalize && ticket.inputHash = hash

theorem count_normalizeHashes (hash : String) :
    queue.normalizeHashes.count hash = queue.normalizeCount hash := by
  rw [normalizeHashes, List.count, List.countP_map, List.countP_filter, normalizeCount]
  refine List.countP_congr fun ticket _ => ?_
  simp [and_comm]

/-- A job appears behind the ones there are, or the request is refused. -/
theorem enqueue_tickets (request : EnqueueRequest) (jobId : Uuid) (now createdAt : Timestamp)
    (queue : QueueState) :
    (queue.enqueue request jobId now createdAt).1.tickets = queue.tickets ∨
      (queue.enqueue request jobId now createdAt).1.tickets =
        queue.tickets ++ [⟨jobId, request.jobType, request.inputHash⟩] := by
  unfold enqueue
  split
  · exact .inl rfl
  · exact .inr (List.map_append ..)

end QueueState

/-- The NORMALIZE jobs are those of the observations, and no observation repeats another. -/
structure OneToOne (env : PipelineEnvironment) (db : Database) : Prop where
  observed : Acquisition.ObservationsDrawn env.ids db
  ids : PrimaryKey SourceObservation.sourceObservationId db.observations
  keys : PrimaryKey SourceObservation.key db.observations
  jobs : ∀ ticket ∈ db.queue.tickets, ∃ k < db.drawn, ticket.jobId = env.ids.uuid k
  queued : db.queue.normalizeHashes =
    db.observations.map fun row => env.uuidText row.sourceObservationId

section Steps

variable {env : PipelineEnvironment} {call : Option ServiceAction} {db next : Database}
  {state after : Acquisition}

theorem PipelineEnvironment.text_injective (env : PipelineEnvironment) :
    Function.Injective env.uuidText := by
  intro first second same
  have read := env.readText first
  rw [same, env.readText second] at read
  exact (Option.some.inj read).symm

theorem oneToOne_empty : OneToOne env Database.empty where
  observed _ member := (List.not_mem_nil member).elim
  ids := uniqueIndex_nil
  keys := uniqueIndex_nil
  jobs _ member := (List.not_mem_nil member).elim
  queued := rfl

/-- What neither observes nor enqueues keeps the correspondence. -/
theorem OneToOne.congr (paired : OneToOne env db)
    (observations : next.observations = db.observations)
    (tickets : next.queue.tickets = db.queue.tickets) (drawn : db.drawn ≤ next.drawn) :
    OneToOne env next where
  observed row member := by
    obtain ⟨k, early, same⟩ := paired.observed row (observations ▸ member)
    exact ⟨k, early.trans_le drawn, same⟩
  ids := observations ▸ paired.ids
  keys := observations ▸ paired.keys
  jobs ticket member := by
    obtain ⟨k, early, same⟩ := paired.jobs ticket (tickets ▸ member)
    exact ⟨k, early.trans_le drawn, same⟩
  queued := by rw [QueueState.normalizeHashes_congr tickets, paired.queued, observations]

/-- The job of another component is no NORMALIZE job. -/
theorem OneToOne.enqueueOther (paired : OneToOne env db) (request : EnqueueRequest)
    (now createdAt : Timestamp) : OneToOne env (db.enqueueOther env.ids request now createdAt) := by
  unfold Database.enqueueOther
  split
  · exact paired
  · rename_i other
    rcases QueueState.enqueue_tickets request (env.ids.uuid db.drawn) now createdAt db.queue with
      same | added
    · exact paired.congr rfl same (Nat.le_succ _)
    · refine ⟨fun row member => ?_, paired.ids, paired.keys, fun ticket member => ?_, ?_⟩
      · obtain ⟨k, early, same⟩ := paired.observed row member
        exact ⟨k, Nat.lt_succ_of_lt early, same⟩
      · rcases List.mem_append.mp (added ▸ member) with old | new
        · obtain ⟨k, early, same⟩ := paired.jobs ticket old
          exact ⟨k, Nat.lt_succ_of_lt early, same⟩
        · cases List.mem_singleton.mp new
          exact ⟨db.drawn, Nat.lt_succ_self _, rfl⟩
      · refine Eq.trans ?_ paired.queued
        simp only [QueueState.normalizeHashes, added, List.filter_append, List.map_append]
        simp [other]

/-- The transaction of an item persists an observation together with its job. -/
theorem OneToOne.store (paired : OneToOne env db) (opened : OpenedRun)
    (observation : ParsedSourceObservation) (contentHash : String) (queuedAt : Timestamp) :
    OneToOne env
      (db.storeObservation env.toRunnerEnvironment opened observation contentHash queuedAt).1 := by
  rcases storeObservation_cases env.toRunnerEnvironment opened observation contentHash queuedAt db
    with ⟨_, same⟩ | ⟨fresh, same⟩
  · rw [same]
    exact paired
  · have newHash : env.uuidText (env.ids.uuid db.drawn) ∉ db.queue.normalizeHashes := by
      rw [paired.queued]
      intro member
      obtain ⟨row, inside, text⟩ := List.mem_map.mp member
      exact (fresh row inside).1 (env.text_injective text)
    have newJob : ∀ job ∈ db.queue.jobs, job.jobId ≠ env.ids.uuid (db.drawn + 1) := by
      intro job member taken
      obtain ⟨k, early, drawn⟩ := paired.jobs job.ticket (List.mem_map_of_mem member)
      exact (early.trans (Nat.lt_succ_self _)).ne (env.ids.distinct (drawn.symm.trans taken))
    rw [same, QueueState.enqueue_of_free newJob]
    · have appended (job : Job) :
          QueueState.tickets ⟨db.queue.jobs ++ [job], db.queue.attempts⟩ =
            db.queue.tickets ++ [job.ticket] := List.map_append ..
      refine ⟨fun row member => ?_, ?_, ?_, fun ticket member => ?_, ?_⟩
      · rcases List.mem_append.mp member with old | new
        · obtain ⟨k, early, drawn⟩ := paired.observed row old
          exact ⟨k, Nat.lt_add_right 2 early, drawn⟩
        · cases List.mem_singleton.mp new
          exact ⟨db.drawn, Nat.lt_add_of_pos_right Nat.two_pos, rfl⟩
      · exact paired.ids.insert fun _ row member _ => (fresh row member).1
      · exact paired.keys.insert fun _ row member _ => (fresh row member).2
      · rcases List.mem_append.mp (appended _ ▸ member) with old | new
        · obtain ⟨k, early, drawn⟩ := paired.jobs ticket old
          exact ⟨k, Nat.lt_add_right 2 early, drawn⟩
        · cases List.mem_singleton.mp new
          exact ⟨db.drawn + 1, Nat.lt_succ_self _, rfl⟩
      · rw [List.map_append, ← paired.queued]
        simp only [QueueState.normalizeHashes, appended, List.filter_append, List.map_append]
        rfl
    · rintro ⟨job, member, _, identity⟩
      refine newHash (QueueState.mem_normalizeHashes.mpr
        ⟨job.ticket, List.mem_map_of_mem member, ?_, ?_⟩)
      · exact congrArg JobIdentity.jobType identity
      · exact congrArg JobIdentity.inputHash identity

/-- Each step of the runner stores an observation together with its job, or neither. -/
theorem OneToOne.runner (paired : OneToOne env state.database)
    (step : RunnerStep env.toRunnerEnvironment state after) : OneToOne env after.database := by
  cases step with
  | stutter => exact paired
  | opened opens =>
      obtain ⟨later, same⟩ := openRun_eq_ok opens
      exact paired.congr (by rw [same]) (by rw [same]) later
  | planned => exact paired
  | stored opened observation contentHash queuedAt =>
      exact paired.store opened observation contentHash queuedAt
  | completed page completes =>
      have same := completeCheckpoint_eq_ok completes
      exact paired.congr (by rw [same]) (by rw [same]) (by rw [same])
  | finalized finalizes =>
      have same := finalizeRun_eq_ok finalizes
      exact paired.congr (by rw [same]) (by rw [same]) (by rw [same])

/-- Every step of the pipeline keeps the correspondence. -/
theorem OneToOne.step (paired : OneToOne env state.database)
    (tracked : Database.Tracked env.ids state.database) (step : PipelineStep env state call after) :
    OneToOne env after.database := by
  have drawn := (step.moves tracked).drawn
  cases step with
  | runner step => exact paired.runner step
  | registered sourceCode =>
      refine paired.congr ?_ ?_ drawn
      all_goals
        dsimp only [Database.registerSource]
        split <;> rfl
  | queued tickets => exact paired.congr rfl tickets drawn
  | enqueued request now createdAt => exact paired.enqueueOther request now createdAt
  | normalized processed tickets =>
      have services := (Database.processObservation_canonicalOnly processed).serviceOnly
      exact paired.congr services.observations tickets drawn
  | called action =>
      have beside := step_besideRunner env.ids env.unicode state.database action
      exact paired.congr beside.observations (congrArg _ beside.queue) drawn

/-- Every step of the pipeline leaves the jobs there are in place. -/
theorem PipelineStep.tickets (step : PipelineStep env state call after) :
    state.database.queue.tickets <+: after.database.queue.tickets := by
  have kept : ∀ {queue : QueueState}, queue.tickets = state.database.queue.tickets →
      state.database.queue.tickets <+: queue.tickets := fun same => same ▸ List.prefix_rfl
  have appended (request : EnqueueRequest) (jobId : Uuid) (now createdAt : Timestamp) :
      state.database.queue.tickets <+:
        (state.database.queue.enqueue request jobId now createdAt).1.tickets := by
    rcases QueueState.enqueue_tickets request jobId now createdAt state.database.queue with
      same | added
    · exact kept same
    · exact ⟨_, added.symm⟩
  cases step with
  | runner step =>
      cases step with
      | stutter | planned => exact List.prefix_rfl
      | opened opens => exact kept (by rw [(openRun_eq_ok opens).2])
      | stored opened observation contentHash queuedAt =>
          rcases storeObservation_cases env.toRunnerEnvironment opened observation contentHash
            queuedAt state.database with ⟨_, same⟩ | ⟨_, same⟩
          · exact kept (by rw [same])
          · dsimp only
            rw [same]
            exact appended _ _ _ _
      | completed page completes => exact kept (by rw [completeCheckpoint_eq_ok completes])
      | finalized finalizes => exact kept (by rw [finalizeRun_eq_ok finalizes])
  | registered sourceCode =>
      refine kept ?_
      dsimp only [Database.registerSource]
      split <;> rfl
  | queued tickets => exact kept tickets
  | enqueued request now createdAt =>
      dsimp only [Database.enqueueOther]
      split
      · exact List.prefix_rfl
      · exact appended _ _ _ _
  | normalized processed tickets => exact kept tickets
  | called action =>
      exact kept (congrArg _ (step_besideRunner env.ids env.unicode state.database action).queue)

end Steps

namespace Pipeline

variable (env : PipelineEnvironment)

/-- The jobs ever enqueued stay in front of those that a run goes on to enqueue. -/
theorem tickets_reached_append (earlier later : List PipelineAction) :
    (reached env earlier).acquisition.database.queue.tickets <+:
      (reached env (earlier ++ later)).acquisition.database.queue.tickets := by
  have keeps : ∀ (state : Acquisition) call (next : Acquisition),
      (reached env earlier).acquisition.database.queue.tickets <+: state.database.queue.tickets →
        PipelineStep env state call next →
          (reached env earlier).acquisition.database.queue.tickets <+:
            next.database.queue.tickets :=
    fun _ _ _ kept step => kept.trans step.tickets
  have kept := ((reached_running earlier).run_keeps List.prefix_rfl keeps later).2
  rwa [← run_append] at kept

/-- **Observations and NORMALIZE jobs, one to one.** After every run of the pipeline, where
calls of `run_source` interleave with everything else and crash anywhere, each observation
has exactly one NORMALIZE job with the text of its id as input hash, each NORMALIZE job has
such an observation, no two observations agree on the columns of the unique indexes, and
the jobs ever enqueued are still there. -/
theorem normalizeJobs_oneToOne (actions : List PipelineAction) :
    let db := (reached env actions).acquisition.database
    (∀ row ∈ db.observations,
      db.queue.normalizeCount (env.uuidText row.sourceObservationId) = 1) ∧
    (∀ ticket ∈ db.queue.tickets, ticket.jobType = .normalize →
      ∃ row ∈ db.observations, ticket.inputHash = env.uuidText row.sourceObservationId) ∧
    PrimaryKey SourceObservation.key db.observations ∧
    ∀ earlier later, actions = earlier ++ later →
      (reached env earlier).acquisition.database.queue.tickets <+: db.queue.tickets := by
  intro db
  have invariant : Database.Tracked env.ids db ∧ OneToOne env db := by
    have keeps : ∀ (state : Acquisition) call (next : Acquisition),
        Database.Tracked env.ids state.database ∧ OneToOne env state.database →
          PipelineStep env state call next →
            Database.Tracked env.ids next.database ∧ OneToOne env next.database := by
      rintro state call next ⟨tracked, paired⟩ step
      exact ⟨tracked.moves (step.moves tracked), paired.step tracked step⟩
    exact reached_induction ⟨Database.tracked_empty env.ids, oneToOne_empty⟩ keeps actions
  have paired := invariant.2
  refine ⟨fun row member => ?_, fun ticket member normalize => ?_, paired.keys, ?_⟩
  · have distinct :
        (db.observations.map fun row => env.uuidText row.sourceObservationId).Nodup := by
      have ids := (primaryKey_iff_nodup.mp paired.ids).map env.text_injective
      rwa [List.map_map] at ids
    rw [← QueueState.count_normalizeHashes, paired.queued]
    exact List.count_eq_one_of_mem distinct (List.mem_map_of_mem member)
  · have hash := QueueState.mem_normalizeHashes.mpr ⟨ticket, member, normalize, rfl⟩
    rw [paired.queued] at hash
    obtain ⟨row, inside, text⟩ := List.mem_map.mp hash
    exact ⟨row, inside, text.symm⟩
  · rintro earlier later rfl
    exact tickets_reached_append env earlier later

end Pipeline

end RentalAgent
