import RentalAgent.Acquisition.HealthGate

/-! # What a transaction of the runner can do

`RunnerStep` lists the changes that a single transaction of `run_source` makes, in
whatever state it finds the database; every transaction of a call makes one of them
(`runSource_guarantees`). An invariant of calls that are interleaved with others, or that
crash between two transactions, is an invariant of these steps.
-/

namespace RentalAgent

open Relational

/-- The changes of one transaction of `run_source`. -/
inductive RunnerStep (env : RunnerEnvironment) : Acquisition → Acquisition → Prop
  | stutter (state : Acquisition) : RunnerStep env state state
  | opened {state : Acquisition} {call : SourceRunCall} {db : Database} {opened : OpenedRun}
      (opens : state.database.openRun env.ids call = .ok (db, opened)) :
      RunnerStep env state { state with database := db }
  | planned (state : Acquisition) (sourceRunId : Uuid) (plan : List AcquisitionPartition) :
      RunnerStep env state { state with
        planned := state.planned ++
          plan.map fun partition => (sourceRunId, partition.partitionKey) }
  | stored (state : Acquisition) (opened : OpenedRun) (observation : ParsedSourceObservation)
      (contentHash : String) (queuedAt : Timestamp) :
      RunnerStep env state { state with
        database :=
          (state.database.storeObservation env opened observation contentHash queuedAt).1 }
  | completed {state : Acquisition} {sourceRunId : Uuid} {partitionKey : String} {db : Database}
      (page : DiscoveryPage)
      (completes : state.database.completeCheckpoint sourceRunId partitionKey page.items.length =
        .ok db) :
      RunnerStep env state { state with
        database := db
        completed := state.completed ++ [⟨sourceRunId, partitionKey, page⟩] }
  | finalized {state : Acquisition} {call : SourceRunCall} {summary : SourceRunSummary}
      {db : Database} (finalizes : state.database.finalizeRun call summary = .ok db) :
      RunnerStep env state { state with database := db }

section Guarantees

variable (env : RunnerEnvironment)

variable {env} in
/-- A transaction that raises is rolled back. -/
theorem transaction_guarantees {Result : Type}
    {work : Database → Except ServiceError (Database × Result)}
    (works : ∀ (state : Acquisition) db result, work state.database = .ok (db, result) →
      RunnerStep env state { state with database := db }) :
    (Acquisition.transaction work).Guarantees (RunnerStep env) := by
  refine Script.guarantees_transaction fun state => ?_
  cases worked : work state.database with
  | error failure => exact .stutter state
  | ok outcome => exact works state outcome.1 outcome.2 worked

/-- Looking a checkpoint up is a step of the runner. -/
theorem checkpoint_guarantees (sourceRunId : Uuid) (partitionKey : String) :
    (Acquisition.transaction fun db => do
      return (db, ← db.checkpoint sourceRunId partitionKey)).Guarantees (RunnerStep env) := by
  refine transaction_guarantees fun state db found looked => ?_
  obtain ⟨_, _, wrote⟩ := bind_eq_ok.mp looked
  cases wrote
  exact .stutter state

theorem recordPlan_guarantees (sourceRunId : Uuid) (plan : List AcquisitionPartition) :
    (Acquisition.recordPlan sourceRunId plan).Guarantees (RunnerStep env) :=
  Script.guarantees_transaction fun state => .planned state sourceRunId plan

/-- Completing a partition is a step of the runner. -/
theorem complete_guarantees (sourceRunId : Uuid) (partitionKey : String) (page : DiscoveryPage) :
    (Acquisition.complete sourceRunId partitionKey page).Guarantees (RunnerStep env) := by
  refine Script.guarantees_transaction fun state => ?_
  cases completes : state.database.completeCheckpoint sourceRunId partitionKey
      page.items.length with
  | error failure => exact .stutter state
  | ok db => exact .completed page completes

theorem finalize_guarantees (call : SourceRunCall) (summary : SourceRunSummary) :
    (finalize call summary).Guarantees (RunnerStep env) := by
  refine transaction_guarantees fun state db result finalizes => ?_
  obtain ⟨written, finalized, wrote⟩ := bind_eq_ok.mp finalizes
  cases wrote
  exact .finalized finalized

/-- The loop over the items of a page goes from state to state by steps of the runner. -/
theorem captureItems_guarantees (opened : OpenedRun) (items : List DiscoveredItem)
    (progress : RunProgress) :
    (captureItems env opened items progress).Guarantees (RunnerStep env) := by
  induction items generalizing progress with
  | nil => exact .done _
  | cons item rest ih =>
      unfold captureItems
      split
      · exact ih progress.skip
      · split
        · exact .done _
        · rename_i observation contentHash _
          refine Script.Guarantees.bind (Script.guarantees_transaction fun state => ?_)
            fun result => ih _
          exact .stored state opened observation contentHash item.queuedAt

/-- The pages of a partition are asked for and captured by steps of the runner. -/
theorem discoverPartition_guarantees (opened : OpenedRun) (partition : AcquisitionPartition)
    (progress : RunProgress) :
    (discoverPartition env opened partition progress).Guarantees (RunnerStep env) := by
  unfold discoverPartition
  split
  · exact .done _
  · rename_i page _
    refine (captureItems_guarantees env opened page.items _).bind ?_
    rintro ⟨after, raised | _⟩
    · exact .done _
    · exact (complete_guarantees env _ _ _).bind fun _ => .done _

/-- A partition is skipped, or run by steps of the runner. -/
theorem runPartition_guarantees (opened : OpenedRun) (partition : AcquisitionPartition)
    (progress : RunProgress) :
    (runPartition env opened partition progress).Guarantees (RunnerStep env) := by
  refine (checkpoint_guarantees env _ _).bind ?_
  rintro (raised | found)
  · exact .done _
  · dsimp only
    split
    · exact .done _
    · exact discoverPartition_guarantees env opened partition progress

/-- The loop over the plan goes by steps of the runner. -/
theorem runPartitions_guarantees (opened : OpenedRun) (plan : List AcquisitionPartition)
    (progress : RunProgress) :
    (runPartitions env opened plan progress).Guarantees (RunnerStep env) := by
  induction plan generalizing progress with
  | nil => exact .done _
  | cons partition rest ih =>
      refine (runPartition_guarantees env opened partition progress).bind ?_
      rintro ⟨after, raised | degraded⟩
      · dsimp only
        split
        · exact ih _
        · exact .done _
      · exact ih _

/-- A call that has opened its run makes the changes of a runner. -/
theorem runOpened_guarantees (call : SourceRunCall) (opened : OpenedRun) :
    (runOpened env call opened).Guarantees (RunnerStep env) := by
  unfold runOpened
  split
  · exact .done _
  · split
    · exact finalize_guarantees env call _
    · split
      · exact .done _
      · refine (recordPlan_guarantees env _ _).bind fun _ =>
          (runPartitions_guarantees env opened _ _).bind ?_
        rintro (raised | progress)
        · exact .done _
        · exact finalize_guarantees env call _

/-- **One transaction of `run_source`.** Whatever others do in between, every transaction
of a call makes one of the changes of a runner. -/
theorem runSource_guarantees (call : SourceRunCall) :
    (runSource env call).Guarantees (RunnerStep env) := by
  refine (transaction_guarantees fun state db opened opens => .opened opens).bind ?_
  rintro (raised | opened)
  · exact .done _
  · exact runOpened_guarantees env call opened

end Guarantees

section Writes

variable {db next : Database}

/-- Completing a checkpoint writes no other table. -/
theorem completeCheckpoint_eq_ok {sourceRunId : Uuid} {partitionKey : String} {items : Nat}
    (completes : db.completeCheckpoint sourceRunId partitionKey items = .ok next) :
    next = { db with checkpoints := next.checkpoints } := by
  obtain ⟨found, _, wrote⟩ := bind_eq_ok.mp completes
  cases found <;> cases wrote <;> rfl

/-- `_finalize` writes no other table. -/
theorem finalizeRun_eq_ok {call : SourceRunCall} {summary : SourceRunSummary}
    (finalizes : db.finalizeRun call summary = .ok next) :
    next = { db with sourceRuns := next.sourceRuns } := by
  obtain ⟨_, _, wrote⟩ := bind_eq_ok.mp finalizes
  cases wrote
  rfl

/-- Opening a run draws identifiers and writes the tables of runs. -/
theorem openRun_eq_ok {env : RunnerEnvironment} {call : SourceRunCall} {opened : OpenedRun}
    (opens : db.openRun env.ids call = .ok (next, opened)) :
    db.drawn ≤ next.drawn ∧
      next = { db with
        drawn := next.drawn
        refreshRuns := next.refreshRuns
        sourceRuns := next.sourceRuns } := by
  obtain ⟨source, _, rest⟩ := bind_eq_ok.mp opens
  cases source with
  | none => cases rest
  | some source =>
      obtain ⟨⟨joined, refreshRunId⟩, joins, rest⟩ := bind_eq_ok.mp rest
      have early : db.drawn ≤ joined.drawn ∧
          joined = { db with drawn := joined.drawn, refreshRuns := joined.refreshRuns } := by
        obtain ⟨found, _, wrote⟩ := bind_eq_ok.mp joins
        cases found <;> cases wrote
        · exact ⟨Nat.le_succ _, rfl⟩
        · exact ⟨Nat.le_refl _, rfl⟩
      obtain ⟨later, same⟩ := early
      obtain ⟨existing, _, rest⟩ := bind_eq_ok.mp rest
      cases existing <;> cases rest
      · refine ⟨Nat.le_succ_of_le later, ?_⟩
        rw [same]
      · refine ⟨later, ?_⟩
        rw [same]

/-- Opening a run appends a source run under a drawn id, or joins one. -/
theorem openRun_sourceRuns {env : RunnerEnvironment} {call : SourceRunCall} {opened : OpenedRun}
    (opens : db.openRun env.ids call = .ok (next, opened)) :
    next.sourceRuns = db.sourceRuns ∨ ∃ k run, db.drawn ≤ k ∧ k < next.drawn ∧
      run.sourceRunId = env.ids.uuid k ∧ next.sourceRuns = db.sourceRuns ++ [run] := by
  obtain ⟨source, _, rest⟩ := bind_eq_ok.mp opens
  cases source with
  | none => cases rest
  | some source =>
      obtain ⟨⟨joined, refreshRunId⟩, joins, rest⟩ := bind_eq_ok.mp rest
      have early : db.drawn ≤ joined.drawn := by
        obtain ⟨found, _, wrote⟩ := bind_eq_ok.mp joins
        cases found <;> cases wrote
        · exact Nat.le_succ _
        · exact Nat.le_refl _
      have runs : joined.sourceRuns = db.sourceRuns := (createOrJoin_keeps joins).1
      obtain ⟨existing, _, rest⟩ := bind_eq_ok.mp rest
      cases existing <;> cases rest
      · exact .inr ⟨joined.drawn, _, early, Nat.lt_succ_self _, rfl,
          congrArg (fun rows => rows ++ [_]) runs⟩
      · exact .inl runs

end Writes

/-- An observation is a repeat and nothing is written, or it is new and queued. -/
theorem storeObservation_cases (env : RunnerEnvironment) (opened : OpenedRun)
    (observation : ParsedSourceObservation) (contentHash : String) (queuedAt : Timestamp)
    (db : Database) :
    let row := Database.observationRow opened observation contentHash (env.ids.uuid db.drawn)
    let stored := (db.storeObservation env opened observation contentHash queuedAt).1
    (∃ other ∈ db.observations, other.sourceObservationId = row.sourceObservationId ∨
        other.key = row.key) ∧ stored = db ∨
      (∀ other ∈ db.observations, other.sourceObservationId ≠ row.sourceObservationId ∧
        other.key ≠ row.key) ∧
        stored = { db with
          drawn := db.drawn + 2
          observations := db.observations ++ [row]
          queue := (db.queue.enqueue
            { jobType := .normalize
              inputHash := env.uuidText row.sourceObservationId
              dependencyVersion := normalizeDependencyVersion
              refreshRunId := some opened.refreshRunId
              priority := 10 } (env.ids.uuid (db.drawn + 1)) queuedAt queuedAt).1 } := by
  intro row stored
  by_cases repeated : ∃ other ∈ db.observations,
      other.sourceObservationId = row.sourceObservationId ∨ other.key = row.key
  · refine .inl ⟨repeated, ?_⟩
    have inserted : db.insertIdempotent env.ids opened observation contentHash = (db, none) := by
      unfold Database.insertIdempotent
      exact if_pos (by simpa [row] using repeated)
    simp only [stored, Database.storeObservation, inserted]
  · have inserted : db.insertIdempotent env.ids opened observation contentHash =
        ({ db with drawn := db.drawn + 1, observations := db.observations ++ [row] },
          some row.sourceObservationId) := by
      unfold Database.insertIdempotent
      exact if_neg (by simpa [row] using repeated)
    refine .inr ⟨by simpa using repeated, ?_⟩
    simp only [stored, Database.storeObservation, inserted]

/-- Every transaction keeps the checkpoints and the record of them aligned. -/
theorem RunnerStep.aligned {env : RunnerEnvironment} {state next : Acquisition}
    (step : RunnerStep env state next) (aligned : state.Aligned) : next.Aligned := by
  cases step with
  | stutter => exact aligned
  | opened opens => exact aligned.congr (openRun_opens opens).2.1 rfl
  | planned => exact aligned.congr rfl rfl
  | stored opened observation contentHash queuedAt =>
      exact aligned.congr
        (storeObservation_keeps env opened observation contentHash queuedAt state.database).2 rfl
  | completed page completes =>
      rename_i sourceRunId partitionKey db
      have carried := (aligned.complete sourceRunId partitionKey page).1.aligned
      rw [Acquisition.complete, Script.run_transaction, completes] at carried
      exact carried
  | finalized finalizes =>
      obtain ⟨_, _, wrote⟩ := bind_eq_ok.mp finalizes
      cases wrote
      exact aligned.congr rfl rfl

end RentalAgent
