import RentalAgent.Acquisition.Fencing
import RentalAgent.Acquisition.RunnerSteps
import RentalAgent.Canonical.LifecycleMoves

/-! # The refresh pipeline as one system

Calls of `run_source` and of `drain_normalize_jobs`, the services and the queue work on one
database. An action is one transaction of any of them, so the calls interleave in every
order; a call that takes no further transaction has crashed. `PipelineStep` says what an
action can do to the database.
-/

namespace RentalAgent

open Relational Transition

/-! ## What the queue keeps of its jobs -/

/-- The columns of a job that no call of the queue writes again. -/
structure Ticket where
  jobId : Uuid
  jobType : JobType
  inputHash : String
  deriving DecidableEq

def Job.ticket (job : Job) : Ticket := ⟨job.jobId, job.jobType, job.inputHash⟩

namespace QueueState

/-- The jobs ever enqueued. -/
def tickets (queue : QueueState) : List Ticket := queue.jobs.map Job.ticket

variable {queue next : QueueState}

theorem enforce_eq_ok (enforced : queue.enforce = .ok next) : next = queue := by
  unfold enforce at enforced
  repeat' split at enforced
  all_goals cases enforced
  rfl

theorem tickets_updateWhere {condition : Job → Bool} {change : Job → Job}
    (keeps : ∀ job, (change job).ticket = job.ticket)
    (jobs : next.jobs = updateWhere condition change queue.jobs) :
    next.tickets = queue.tickets := by
  rw [tickets, jobs]
  exact map_updateWhere _ fun job _ _ => keeps job

/-- Claiming jobs leaves their tickets alone. -/
theorem claim_tickets {workerId : String} {leaseSeconds : Int} {batchSize : Nat}
    {now : Timestamp} {locked : Uuid → Bool} {uuid4 : Uuid → Uuid} {claimed : List Job}
    (claims : queue.claim workerId leaseSeconds batchSize now locked uuid4 =
      .ok (next, claimed)) : next.tickets = queue.tickets := by
  have rounds : ∀ (ids : List Uuid) (queue next : QueueState),
      ids.foldlM (claimJob workerId leaseSeconds now uuid4) queue = .ok next →
        next.tickets = queue.tickets := by
    intro ids
    induction ids with
    | nil =>
        intro queue next same
        cases same
        rfl
    | cons id rest ih =>
        intro queue next folded
        rw [List.foldlM_cons] at folded
        obtain ⟨middle, round, onward⟩ := bind_eq_ok.mp folded
        refine (ih middle next onward).trans ?_
        unfold claimJob at round
        split at round
        · cases round
        · obtain rfl := enforce_eq_ok round
          exact tickets_updateWhere (fun job => by rfl) rfl
  obtain ⟨middle, folded, wrote⟩ := bind_eq_ok.mp claims
  cases wrote
  exact rounds _ queue next folded

/-- Completing a job leaves the tickets alone. -/
theorem complete_tickets {jobId leaseToken : Uuid} {status : JobStatus}
    {errorCode errorDetail : Option String} {retryDelaySeconds : Int} {now : Timestamp}
    {accepted : Bool} (completes : queue.complete jobId leaseToken status errorCode errorDetail
      retryDelaySeconds now = .ok (next, accepted)) : next.tickets = queue.tickets := by
  unfold complete at completes
  split at completes
  · cases completes
  · obtain ⟨holder, _, completes⟩ := bind_eq_ok.mp completes
    cases holder with
    | none =>
        cases completes
        rfl
    | some job =>
        obtain ⟨attempts, _, completes⟩ := bind_eq_ok.mp completes
        obtain ⟨middle, enforced, wrote⟩ := bind_eq_ok.mp completes
        cases wrote
        obtain rfl := enforce_eq_ok enforced
        exact tickets_updateWhere (fun job => by rfl) rfl

/-- Only `enqueue` adds a job, and no call changes what a job is for. -/
theorem step_tickets (queue : QueueState) (action : QueueAction)
    (adds : ∀ request jobId now createdAt, action ≠ .enqueue request jobId now createdAt) :
    (queue.step action).tickets = queue.tickets := by
  unfold step
  cases performed : queue.perform action with
  | error failure => rfl
  | ok outcome =>
      obtain ⟨next, reply⟩ := outcome
      dsimp only
      cases action with
      | enqueue request jobId now createdAt => exact (adds _ _ _ _ rfl).elim
      | claim workerId leaseSeconds batchSize now locked uuid4 =>
          obtain ⟨⟨after, jobs⟩, claimed, wrote⟩ := bind_eq_ok.mp performed
          cases wrote
          exact claim_tickets claimed
      | heartbeat jobId leaseToken extendSeconds now =>
          obtain ⟨⟨after, alive⟩, beaten, wrote⟩ := bind_eq_ok.mp performed
          cases wrote
          obtain ⟨middle, enforced, wrote⟩ := bind_eq_ok.mp beaten
          cases wrote
          obtain rfl := enforce_eq_ok enforced
          exact tickets_updateWhere (fun job => by rfl) rfl
      | complete jobId leaseToken status errorCode errorDetail retryDelaySeconds now =>
          obtain ⟨⟨after, accepted⟩, completed, wrote⟩ := bind_eq_ok.mp performed
          cases wrote
          exact complete_tickets completed
      | recoverExpiredLeases now =>
          obtain ⟨⟨after, count⟩, recovered, wrote⟩ := bind_eq_ok.mp performed
          cases wrote
          obtain ⟨middle, enforced, wrote⟩ := bind_eq_ok.mp recovered
          cases wrote
          obtain rfl := enforce_eq_ok enforced
          exact tickets_updateWhere (fun job => by rfl) rfl

end QueueState

/-! ## The system -/

/-- The database with the record of acquisitions, the calls of `run_source` in flight, and
the workers that drain the queue. -/
structure Pipeline where
  acquisition : Acquisition := .initial
  calls : List (Script Acquisition (Except Raised SourceRunSummary)) := []
  workers : List Worker := []

/-- One step of some component: a source is registered, a call of `run_source` begins or
takes its next transaction, a worker begins or takes its next transaction, a service or the
queue is called. -/
inductive PipelineAction
  | register (sourceCode : String)
  | runSource (call : SourceRunCall)
  | advanceCall (index : Nat)
  | drain (workerId : String) (discoveryMethod : DiscoveryMethod) (maxJobs : Nat)
  | advanceWorker (index : Nat) (readings : Readings)
  | service (action : ServiceAction)
  | enqueue (request : EnqueueRequest) (now createdAt : Timestamp)
  | queue (action : QueueAction)

/-- Components outside leave the tables of the runner alone. -/
def ServiceAction.besideRunner (db : Database) : ServiceAction → ServiceAction
  | .outside write =>
      .outside { write with observations := db.observations, sourceRuns := db.sourceRuns }
  | action => action

/-- Jobs are enqueued by `PipelineAction.enqueue` and by the runner only. -/
def QueueAction.enqueues : QueueAction → Bool
  | .enqueue .. => true
  | .claim .. | .heartbeat .. | .complete .. | .recoverExpiredLeases _ => false

namespace Database

/-- Registering a source, unless its code is taken. -/
def registerSource (ids : IdSupply) (sourceCode : String) (db : Database) : Database :=
  if db.sources.any fun source => source.sourceCode = sourceCode then db
  else
    { db with
      drawn := db.drawn + 1
      sources := db.sources ++ [⟨ids.uuid db.drawn, sourceCode⟩] }

/-- Enqueueing a job of another component; NORMALIZE jobs are the runner's. -/
def enqueueOther (ids : IdSupply) (request : EnqueueRequest) (now createdAt : Timestamp)
    (db : Database) : Database :=
  if request.jobType = .normalize then db
  else
    { db with
      drawn := db.drawn + 1
      queue := (db.queue.enqueue request (ids.uuid db.drawn) now createdAt).1 }

end Database

/-- What the components meet: the runner's environment, the character tables, and
`UUID(text)`, which reads back the text of every UUID. -/
structure PipelineEnvironment extends RunnerEnvironment where
  unicode : UnicodeTables
  readUuid : String → Option Uuid
  readText : ∀ id, readUuid (uuidText id) = some id

namespace Pipeline

variable (env : PipelineEnvironment)

/-- Writing the database. -/
def write (state : Pipeline) (db : Database) : Pipeline :=
  { state with acquisition := { state.acquisition with database := db } }

/-- The state after an action. -/
def step (state : Pipeline) : PipelineAction → Pipeline
  | .register sourceCode =>
      state.write (state.acquisition.database.registerSource env.ids sourceCode)
  | .runSource call =>
      { state with calls := state.calls ++ [RentalAgent.runSource env.toRunnerEnvironment call] }
  | .advanceCall index =>
      match state.calls[index]? with
      | none => state
      | some script =>
          let advanced := script.advance state.acquisition
          { state with
            acquisition := advanced.1
            calls := state.calls.set index advanced.2 }
  | .drain workerId discoveryMethod maxJobs =>
      { state with
        workers := state.workers ++
          [{ workerId := workerId, discoveryMethod := discoveryMethod, maxJobs := maxJobs }] }
  | .advanceWorker index readings =>
      match state.workers[index]? with
      | none => state
      | some worker =>
          let advanced := worker.advance env.ids env.unicode env.readUuid readings
            state.acquisition.database
          { state.write advanced.1 with workers := state.workers.set index advanced.2 }
  | .service action =>
      state.write (state.acquisition.database.step env.ids env.unicode
        (action.besideRunner state.acquisition.database))
  | .enqueue request now createdAt =>
      state.write (state.acquisition.database.enqueueOther env.ids request now createdAt)
  | .queue action =>
      if action.enqueues then state
      else
        state.write { state.acquisition.database with
          queue := state.acquisition.database.queue.step action }

/-- The state after the actions, from the empty database. -/
abbrev reached (actions : List PipelineAction) : Pipeline := run (step env) {} actions

end Pipeline

/-! ## What an action does to the database -/

/-- The call of a service. -/
def PipelineAction.call : PipelineAction → Option ServiceAction
  | .service action => some action
  | .register _ | .runSource _ | .advanceCall _ | .drain .. | .advanceWorker .. | .enqueue ..
  | .queue _ => none

theorem PipelineAction.call_eq_some {action : PipelineAction} {service : ServiceAction} :
    action.call = some service ↔ action = .service service := by
  cases action <;> simp [call]

/-- What one action can do: a transaction of the runner, the normalization of an observation
together with a completion, a call of a service, or a write of a single component. -/
inductive PipelineStep (env : PipelineEnvironment) :
    Acquisition → Option ServiceAction → Acquisition → Prop
  | runner {state next : Acquisition} (step : RunnerStep env.toRunnerEnvironment state next) :
      PipelineStep env state none next
  | registered (state : Acquisition) (sourceCode : String) :
      PipelineStep env state none
        { state with database := state.database.registerSource env.ids sourceCode }
  | queued (state : Acquisition) {queue : QueueState}
      (tickets : queue.tickets = state.database.queue.tickets) :
      PipelineStep env state none { state with database := { state.database with queue := queue } }
  | enqueued (state : Acquisition) (request : EnqueueRequest) (now createdAt : Timestamp) :
      PipelineStep env state none
        { state with database := state.database.enqueueOther env.ids request now createdAt }
  | normalized {state : Acquisition} {scan : Uuid → Nat} {now : Timestamp}
      {method : DiscoveryMethod} {observationId : Uuid} {written : Database}
      {outcome : NormalizationOutcome} {queue : QueueState}
      (processed : state.database.processObservation ⟨env.ids, env.unicode, scan⟩ now method
        observationId = .ok (written, outcome))
      (tickets : queue.tickets = state.database.queue.tickets) :
      PipelineStep env state none { state with database := { written with queue := queue } }
  | called (state : Acquisition) (action : ServiceAction) :
      PipelineStep env state (some action) { state with
        database := state.database.step env.ids env.unicode
          (action.besideRunner state.database) }

namespace Pipeline

variable {env : PipelineEnvironment} {state : Pipeline}

/-- A transaction of a worker writes the queue, and normalizes at most one observation. -/
theorem worker_does (worker : Worker) (readings : Readings) (acquisition : Acquisition) :
    PipelineStep env acquisition none { acquisition with
      database :=
        (worker.advance env.ids env.unicode env.readUuid readings acquisition.database).1 } := by
  unfold Worker.advance
  cases worker.phase with
  | idle =>
      dsimp only
      split
      · cases claims :
            acquisition.database.claimNormalize env.readUuid worker.workerId readings with
        | error _ => exact .queued acquisition rfl
        | ok claim =>
            obtain ⟨⟨queue, jobs⟩, claimed, wrote⟩ := bind_eq_ok.mp claims
            rw [mapError_eq_ok] at claimed
            have tickets := QueueState.claim_tickets claimed
            dsimp only at wrote
            split at wrote
            · cases wrote
              exact .queued acquisition tickets
            · obtain ⟨_, _, wrote⟩ := bind_eq_ok.mp wrote
              obtain ⟨_, _, wrote⟩ := bind_eq_ok.mp wrote
              cases wrote
              exact .queued acquisition tickets
      · exact .queued acquisition rfl
  | working claimed =>
      dsimp only
      cases finishes : acquisition.database.finishClaimed env.ids env.unicode
          worker.discoveryMethod readings claimed with
      | error _ => exact .queued acquisition rfl
      | ok result =>
          obtain ⟨written, outcome, queue, processed, completed, same⟩ :=
            Database.finishClaimed_eq_ok.mp finishes
          dsimp only
          rw [same]
          exact .normalized processed (QueueState.complete_tickets completed)
  | failing claimed errorCode =>
      dsimp only
      cases reports : acquisition.database.reportFailure readings claimed errorCode with
      | error _ => exact .queued acquisition rfl
      | ok next =>
          obtain ⟨⟨queue, _⟩, completed, wrote⟩ := bind_eq_ok.mp reports
          rw [mapError_eq_ok] at completed
          cases wrote
          exact .queued acquisition (QueueState.complete_tickets completed)
  | returned => exact .queued acquisition rfl
  | raised _ => exact .queued acquisition rfl

/-- What is left of the calls in flight makes the changes of a runner. -/
def Running (env : PipelineEnvironment) (state : Pipeline) : Prop :=
  ∀ script ∈ state.calls, script.Guarantees (RunnerStep env.toRunnerEnvironment)

/-- **One action of the pipeline.** -/
theorem Running.step_does (running : state.Running env) (action : PipelineAction) :
    PipelineStep env state.acquisition action.call (state.step env action).acquisition := by
  cases action with
  | register sourceCode => exact .registered state.acquisition sourceCode
  | runSource call => exact .queued state.acquisition rfl
  | advanceCall index =>
      unfold Pipeline.step
      dsimp only
      cases present : state.calls[index]? with
      | none => exact .queued state.acquisition rfl
      | some script =>
          exact .runner ((running script (List.mem_of_getElem? present)).advance
            RunnerStep.stutter state.acquisition).1
  | drain workerId discoveryMethod maxJobs => exact .queued state.acquisition rfl
  | advanceWorker index readings =>
      unfold Pipeline.step
      dsimp only
      cases state.workers[index]? with
      | none => exact .queued state.acquisition rfl
      | some worker => exact worker_does worker readings state.acquisition
  | service action => exact .called state.acquisition action
  | enqueue request now createdAt => exact .enqueued state.acquisition request now createdAt
  | queue action =>
      unfold Pipeline.step
      dsimp only
      split
      · exact .queued state.acquisition rfl
      · rename_i other
        refine .queued state.acquisition (QueueState.step_tickets _ action ?_)
        rintro request jobId now createdAt rfl
        exact other rfl

/-- Every action of the pipeline keeps its runs and its jobs in order. -/
theorem Running.step (running : state.Running env) (action : PipelineAction) :
    (state.step env action).Running env := by
  cases action with
  | runSource call =>
      intro script member
      rcases List.mem_append.mp member with old | new
      · exact running script old
      · cases List.mem_singleton.mp new
        exact runSource_guarantees env.toRunnerEnvironment call
  | advanceCall index =>
      unfold Pipeline.step
      dsimp only
      cases present : state.calls[index]? with
      | none => exact running
      | some script =>
          intro other member
          rcases List.mem_or_eq_of_mem_set member with old | rfl
          · exact running other old
          · exact ((running script (List.mem_of_getElem? present)).advance
              RunnerStep.stutter state.acquisition).2
  | advanceWorker index readings =>
      unfold Pipeline.step
      dsimp only
      cases state.workers[index]? with
      | none => exact running
      | some worker => exact running
  | queue action =>
      unfold Pipeline.step
      dsimp only
      split
      · exact running
      · exact running
  | register _ | drain _ _ _ | service _ | enqueue _ _ _ => exact running

/-- **Invariant rule of the pipeline.** What every step keeps, every run keeps. -/
theorem Running.run_keeps {holds : Acquisition → Prop} (running : state.Running env)
    (start : holds state.acquisition)
    (keeps : ∀ state call next, holds state → PipelineStep env state call next → holds next)
    (actions : List PipelineAction) :
    (run (Pipeline.step env) state actions).Running env ∧
      holds (run (Pipeline.step env) state actions).acquisition := by
  have preserved : Preserved (Pipeline.step env) (fun _ _ => True)
      fun state => state.Running env ∧ holds state.acquisition := by
    rintro state action ⟨running, held⟩ _
    exact ⟨running.step action, keeps _ _ _ held (running.step_does action)⟩
  exact preserved.run ⟨running, start⟩ fun _ _ => trivial

theorem running_start : ({} : Pipeline).Running env :=
  fun _ member => (List.not_mem_nil member).elim

theorem reached_running (actions : List PipelineAction) : (reached env actions).Running env :=
  (running_start.run_keeps trivial (fun _ _ _ _ _ => trivial) actions).1

/-- What every step keeps holds after every run. -/
theorem reached_induction {holds : Acquisition → Prop} (start : holds .initial)
    (keeps : ∀ state call next, holds state → PipelineStep env state call next → holds next)
    (actions : List PipelineAction) : holds (reached env actions).acquisition :=
  (running_start.run_keeps start keeps actions).2

end Pipeline

/-! ## Inventory beside the services -/

section Inventory

open Database

variable {env : PipelineEnvironment} {call : Option ServiceAction} {state next : Acquisition}

/-- A runner draws identifiers and leaves the inventory alone. -/
theorem RunnerStep.inventory {runner : RunnerEnvironment} (step : RunnerStep runner state next) :
    next.database.listings = state.database.listings ∧
      next.database.links = state.database.links ∧
      next.database.merges = state.database.merges ∧
      state.database.drawn ≤ next.database.drawn := by
  cases step with
  | stutter => exact ⟨rfl, rfl, rfl, Nat.le_refl _⟩
  | opened opens =>
      obtain ⟨later, same⟩ := openRun_eq_ok opens
      exact ⟨by rw [same], by rw [same], by rw [same], later⟩
  | planned => exact ⟨rfl, rfl, rfl, Nat.le_refl _⟩
  | stored opened observation contentHash queuedAt =>
      rcases storeObservation_cases runner opened observation contentHash queuedAt
        state.database with ⟨_, same⟩ | ⟨_, same⟩
      · rw [same]
        exact ⟨rfl, rfl, rfl, Nat.le_refl _⟩
      · rw [same]
        exact ⟨rfl, rfl, rfl, Nat.le_add_right _ 2⟩
  | completed page completes =>
      have same := completeCheckpoint_eq_ok completes
      exact ⟨by rw [same], by rw [same], by rw [same], by rw [same]⟩
  | finalized finalizes =>
      have same := finalizeRun_eq_ok finalizes
      exact ⟨by rw [same], by rw [same], by rw [same], by rw [same]⟩

/-- A call of a service leaves the tables of acquisition alone. -/
structure BesideRunner (db after : Database) : Prop where
  queue : after.queue = db.queue
  sources : after.sources = db.sources
  refreshRuns : after.refreshRuns = db.refreshRuns
  sourceRuns : after.sourceRuns = db.sourceRuns
  checkpoints : after.checkpoints = db.checkpoints
  observations : after.observations = db.observations

theorem Database.ServiceOnly.besideRunner {db after : Database} (services : ServiceOnly db after) :
    BesideRunner db after :=
  ⟨services.queue, services.sources, services.refreshRuns, services.sourceRuns,
    services.checkpoints, services.observations⟩

/-- A service that works beside the runner leaves the tables of the runner alone. -/
theorem step_besideRunner (ids : IdSupply) (unicode : UnicodeTables) (db : Database)
    (action : ServiceAction) :
    BesideRunner db (db.step ids unicode (action.besideRunner db)) := by
  by_cases outside : ∃ write, action = .outside write
  · obtain ⟨write, rfl⟩ := outside
    exact ⟨rfl, rfl, rfl, rfl, rfl, rfl⟩
  · refine (step_serviceOnly _ fun write same => outside ⟨?_, ?_⟩).besideRunner
    · exact write
    · cases action <;> first | exact same | exact (outside ⟨_, rfl⟩).elim

theorem quiet_of_inventory {db after : Database} (listings : after.listings = db.listings)
    (links : after.links = db.links) (merges : after.merges = db.merges)
    (drawn : db.drawn ≤ after.drawn) : Quiet db after := by
  refine ⟨?_, drawn⟩
  simp only [ledger, listings, links, merges]

theorem registerSource_quiet (ids : IdSupply) (sourceCode : String) (db : Database) :
    Quiet db (db.registerSource ids sourceCode) := by
  unfold registerSource
  split
  · exact .refl db
  · exact ⟨rfl, Nat.le_succ _⟩

theorem enqueueOther_quiet (ids : IdSupply) (request : EnqueueRequest) (now createdAt : Timestamp)
    (db : Database) : Quiet db (db.enqueueOther ids request now createdAt) := by
  unfold enqueueOther
  split
  · exact .refl db
  · exact ⟨rfl, Nat.le_succ _⟩

/-- Every step of the pipeline takes steps of the ownership ledger. -/
theorem PipelineStep.moves (step : PipelineStep env state call next)
    (tracked : Tracked env.ids state.database) : Moves env.ids state.database next.database := by
  cases step with
  | runner step =>
      obtain ⟨listings, links, merges, drawn⟩ := step.inventory
      exact (quiet_of_inventory listings links merges drawn).refines
  | registered sourceCode => exact (registerSource_quiet env.ids sourceCode _).refines
  | queued tickets => exact Quiet.refines ⟨rfl, Nat.le_refl _⟩
  | enqueued request now createdAt =>
      exact (enqueueOther_quiet env.ids request now createdAt _).refines
  | normalized processed tickets =>
      have moves := (processObservation_grows processed tracked).moves
      exact ⟨moves.steps, moves.drawn, moves.known⟩
  | called action => exact step_moves tracked _

theorem registerSource_inventory (ids : IdSupply) (sourceCode : String) (db : Database) :
    (db.registerSource ids sourceCode).listings = db.listings ∧
      (db.registerSource ids sourceCode).links = db.links := by
  unfold registerSource
  split <;> exact ⟨rfl, rfl⟩

theorem enqueueOther_inventory (ids : IdSupply) (request : EnqueueRequest)
    (now createdAt : Timestamp) (db : Database) :
    (db.enqueueOther ids request now createdAt).listings = db.listings ∧
      (db.enqueueOther ids request now createdAt).links = db.links := by
  unfold enqueueOther
  split <;> exact ⟨rfl, rfl⟩

/-- The step makes no listing inactive. -/
def InactivatesNone (db next : Database) : Prop :=
  ∀ standing ∈ next.standings, standing.lifecycleStatus = .inactive →
    ∃ old ∈ db.standings, old.listingId = standing.listingId ∧ old.lifecycleStatus = .inactive

/-- A step whose moves never end in inactivity inactivates nothing. -/
theorem Database.Settles.inactivatesNone {db after : Database}
    {moves : Standing → LifecycleStatus → Prop} (settles : Settles moves db after)
    (never : ∀ standing, ¬ moves standing .inactive) : InactivatesNone db after := by
  intro standing member inactive
  rcases settles.origin member with candidate | ⟨old, inside, same, stays | moved⟩
  · cases candidate.symm.trans inactive
  · exact ⟨old, inside, by rw [same], stays.symm.trans inactive⟩
  · exact (never old (inactive ▸ moved)).elim

theorem inactivatesNone_of_listings {db after : Database}
    (listings : after.listings = db.listings) : InactivatesNone db after :=
  fun standing member inactive => ⟨standing, standings_congr listings ▸ member, rfl, inactive⟩

/-- Beside the processing of source runs no step writes the status of a link, or makes a
listing inactive. -/
theorem PipelineStep.stands (step : PipelineStep env state call next)
    (tracked : Tracked env.ids state.database)
    (away : ∀ now sourceRunId, call ≠ some (.processSourceRun now sourceRunId)) :
    LinksStand state.database next.database ∧ InactivatesNone state.database next.database := by
  have untouched : next.database.listings = state.database.listings →
      next.database.links = state.database.links → LinksStand state.database next.database ∧
        InactivatesNone state.database next.database :=
    fun listings links => ⟨linksStand_of_links links, inactivatesNone_of_listings listings⟩
  cases step with
  | runner step =>
      obtain ⟨listings, links, _, _⟩ := step.inventory
      exact untouched listings links
  | registered sourceCode =>
      obtain ⟨listings, links⟩ := registerSource_inventory env.ids sourceCode state.database
      exact untouched listings links
  | queued tickets => exact untouched rfl rfl
  | enqueued request now createdAt =>
      obtain ⟨listings, links⟩ :=
        enqueueOther_inventory env.ids request now createdAt state.database
      exact untouched listings links
  | normalized processed tickets =>
      rename_i written outcome queue
      have stand : LinksStand state.database written := processObservation_linkStandings processed
      obtain ⟨started, same, candidates⟩ := processObservation_standings processed
      have settles : Settles (fun _ _ => False) state.database written :=
        ⟨Standing.lifecycleStatus, started, same.trans (by simp), fun _ _ => .inl rfl, candidates⟩
      have none : InactivatesNone state.database written := settles.inactivatesNone fun _ => id
      exact ⟨stand, none⟩
  | called action =>
      have apart : ∀ now sourceRunId, action.besideRunner state.database ≠
          .processSourceRun now sourceRunId := by
        intro now sourceRunId same
        cases action <;> cases same
        exact away _ _ rfl
      refine ⟨step_linksStand _ apart, (step_settles tracked _).inactivatesNone ?_⟩
      intro standing moves
      generalize action.besideRunner state.database = call at apart moves
      cases call with
      | processObservation _ _ _ _ | outside _ => exact moves
      | mergeListings _ _ | resolveDuplicateCandidate _ _ _ _ _ _ | reverseMerge _ _ _ _ _ =>
          cases moves.2
      | evaluateCandidates _ _ _ => rcases moves.2 with ⟨active, _⟩ | excluded <;> simp_all
      | processSourceRun now sourceRunId => exact apart now sourceRunId rfl

/-- The ownership ledger stays valid. -/
theorem Pipeline.reached_tracked (actions : List PipelineAction) :
    Tracked env.ids (Pipeline.reached env actions).acquisition.database := by
  have keeps : ∀ (state : Acquisition) call (next : Acquisition),
      Tracked env.ids state.database → PipelineStep env state call next →
        Tracked env.ids next.database :=
    fun _ _ _ tracked step => tracked.moves (step.moves tracked)
  exact reached_induction (tracked_empty env.ids) keeps actions

end Inventory

/-! ## An environment for runs -/

/-- The text of a UUID whose last digits are decimal. -/
def decimalText (id : Uuid) : String := "00000000-0000-0000-0000-000000000" ++ id.repr

def readDecimal (text : String) : Option Uuid :=
  some (Nat.ofDigitChars 10 (text.toList.drop 33) 0)

theorem readDecimal_text (id : Uuid) : readDecimal (decimalText id) = some id := by
  have digits : (decimalText id).toList =
      "00000000-0000-0000-0000-000000000".toList ++ id.repr.toList := String.toList_append
  have size : "00000000-0000-0000-0000-000000000".toList.length = 33 := by decide
  rw [readDecimal, digits, List.drop_left' size, Nat.toList_repr, Nat.ofDigitChars_ten_toDigits]

/-- Identifiers count from 100, and the character tables are those of ASCII. -/
def countingEnvironment : PipelineEnvironment where
  ids := countingIds
  uuidText := decimalText
  digest := fun _ => "digest"
  unicode := Database.asciiTables
  readUuid := readDecimal
  readText := readDecimal_text

/-- A rental at one address. -/
def advertised (nativeId contentHash : String) (observedAt : Timestamp) : DiscoveredItem where
  sourceNativeId := some nativeId
  detailUrl := "https://listings.example/" ++ nativeId
  fetchDetail := .ok ⟨contentHash⟩
  extract := .ok
    { sourceNativeId := some nativeId
      sourceUrl := "https://listings.example/" ++ nativeId
      observedAt := observedAt
      retrievedAt := observedAt
      identity := { rawAddressText := some "1 Main" }
      adapterVersion := "1" }
  queuedAt := observedAt

/-- A call whose adapter plans one partition of one page. -/
def onePageCall (logicalRunKey : String) (triggerType : RefreshTriggerType)
    (discoveryMethod : DiscoveryMethod) (startedAt : Timestamp) (items : List DiscoveredItem) :
    SourceRunCall where
  adapter :=
    { sourceCode := "listings"
      adapterVersion := "1"
      preflight := .ok { result := "READY" }
      planPartitions := .ok [⟨"studio", .ok { items := items }⟩] }
  logicalRunKey := logicalRunKey
  triggerType := triggerType
  discoveryMethod := discoveryMethod
  startedAt := startedAt
  completedAt := startedAt

/-- A call of one page with at most one item runs to its end. -/
def callTo (index : Nat) (call : SourceRunCall) : List PipelineAction :=
  .runSource call :: List.replicate 6 (.advanceCall index)

end RentalAgent
