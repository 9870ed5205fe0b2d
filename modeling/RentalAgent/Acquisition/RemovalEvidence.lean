import RentalAgent.Acquisition.Pipeline
import RentalAgent.Canonical.Presence

/-! # The evidence behind a removal

A link is to become removed only after two gate-passed runs of its source that belong to
scheduled refresh runs, started after the link was last seen, and did not observe it.
`_healthy_runs_since` counts the gate-passed runs of the source whatever triggered them
and whatever they observed, so the evidence is there just when two of the runs it counts
are scheduled ones without an observation of the link (`Pipeline.removals_evidenced_iff`).
-/

namespace RentalAgent

open Relational Transition

/-! ## The rows of source runs -/

/-- The source runs are keyed by drawn identifiers. -/
structure RunsKeyed (ids : IdSupply) (db : Database) : Prop where
  keys : PrimaryKey SourceRun.sourceRunId db.sourceRuns
  drawn : ∀ run ∈ db.sourceRuns, ∃ k < db.drawn, run.sourceRunId = ids.uuid k

section Runs

variable {env : PipelineEnvironment} {call : Option ServiceAction} {db next : Database}
  {state after : Acquisition}

theorem runsKeyed_empty (ids : IdSupply) : RunsKeyed ids Database.empty :=
  ⟨uniqueIndex_nil, fun _ member => (List.not_mem_nil member).elim⟩

theorem RunsKeyed.congr {ids : IdSupply} (keyed : RunsKeyed ids db)
    (sourceRuns : next.sourceRuns = db.sourceRuns) (drawn : db.drawn ≤ next.drawn) :
    RunsKeyed ids next where
  keys := sourceRuns ▸ keyed.keys
  drawn run member := by
    obtain ⟨k, early, same⟩ := keyed.drawn run (sourceRuns ▸ member)
    exact ⟨k, early.trans_le drawn, same⟩

/-- A step of the runner keeps the ids of the runs apart. -/
theorem RunsKeyed.runner (keyed : RunsKeyed env.ids state.database)
    (step : RunnerStep env.toRunnerEnvironment state after) :
    RunsKeyed env.ids after.database := by
  cases step with
  | stutter | planned => exact keyed
  | opened opens =>
      have later := (openRun_eq_ok opens).1
      rcases openRun_sourceRuns opens with same | ⟨k, run, high, low, drawn, added⟩
      · exact keyed.congr same later
      · refine ⟨?_, fun other member => ?_⟩
        · rw [added]
          refine keyed.keys.insert fun _ other member _ same => ?_
          obtain ⟨early, below, older⟩ := keyed.drawn other member
          have equal := env.ids.distinct (older.symm.trans (same.trans drawn))
          exact (below.trans_le high).ne equal
        · rcases List.mem_append.mp (added ▸ member) with old | new
          · obtain ⟨early, below, older⟩ := keyed.drawn other old
            exact ⟨early, below.trans_le later, older⟩
          · cases List.mem_singleton.mp new
            exact ⟨k, low, drawn⟩
  | stored opened observation contentHash queuedAt =>
      rcases storeObservation_cases env.toRunnerEnvironment opened observation contentHash
        queuedAt state.database with ⟨_, same⟩ | ⟨_, same⟩
      · exact keyed.congr (by rw [same]) (by rw [same])
      · refine keyed.congr (by rw [same]) ?_
        rw [same]
        exact Nat.le_add_right _ 2
  | completed page completes =>
      have same := completeCheckpoint_eq_ok completes
      exact keyed.congr (by rw [same]) (by rw [same])
  | finalized finalizes =>
      obtain ⟨_, _, wrote⟩ := bind_eq_ok.mp finalizes
      cases wrote
      refine ⟨keyed.keys.updateWhere fun _ _ _ _ => ⟨trivial, rfl⟩, fun run member => ?_⟩
      obtain ⟨old, inside, rfl⟩ := List.mem_map.mp member
      obtain ⟨k, early, same⟩ := keyed.drawn old inside
      refine ⟨k, early, ?_⟩
      split
      · exact same
      · exact same

/-- An action of the pipeline keeps the ids of the runs apart. -/
theorem RunsKeyed.step (keyed : RunsKeyed env.ids state.database)
    (tracked : Database.Tracked env.ids state.database) (step : PipelineStep env state call after) :
    RunsKeyed env.ids after.database := by
  have drawn := (step.moves tracked).drawn
  cases step with
  | runner step => exact keyed.runner step
  | registered sourceCode =>
      refine keyed.congr ?_ drawn
      dsimp only [Database.registerSource]
      split <;> rfl
  | queued tickets => exact keyed.congr rfl drawn
  | enqueued request now createdAt =>
      refine keyed.congr ?_ drawn
      dsimp only [Database.enqueueOther]
      split <;> rfl
  | normalized processed tickets =>
      have services := (Database.processObservation_canonicalOnly processed).serviceOnly
      exact keyed.congr services.sourceRuns drawn
  | called action =>
      exact keyed.congr (step_besideRunner env.ids env.unicode state.database action).sourceRuns
        drawn

end Runs

/-! ## Evidence -/

/-- The observation is of the identity of the link. -/
def SourceObservation.identifies (row : SourceObservation) (link : ListingSourceLink) : Bool :=
  row.sourceId = link.sourceId &&
    match row.sourceNativeId with
    | some nativeId => link.sourceNativeId = some nativeId
    | none => row.sourceUrl = link.sourceUrl

namespace Database

variable {ids : IdSupply} {unicode : UnicodeTables} {db next : Database}
  {link : ListingSourceLink}

/-- A link is observed in a run when one of its observations identifies it. -/
theorem observedIn_iff {sourceRunId : Uuid} :
    db.ObservedIn sourceRunId link ↔
      ∃ row ∈ db.observations, row.sourceRunId = sourceRunId ∧ row.identifies link = true := by
  refine exists_congr fun row => and_congr_right fun _ => and_congr_right fun _ => ?_
  rw [SourceObservation.identifies, Bool.and_eq_true, decide_eq_true_eq]
  refine and_congr_right fun _ => ?_
  cases row.sourceNativeId <;> simp

instance (sourceRunId : Uuid) : Decidable (db.ObservedIn sourceRunId link) :=
  decidable_of_iff _ observedIn_iff.symm

/-- The source run belongs to a scheduled refresh run. -/
def scheduled (db : Database) (run : SourceRun) : Bool :=
  db.refreshRuns.any fun refresh =>
    refresh.refreshRunId = run.refreshRunId && refresh.triggerType = .scheduled

/-- A gate-passed run of a scheduled refresh run, of the source of the link, that started
after the link was last seen and did not observe it. -/
def MissedBy (db : Database) (link : ListingSourceLink) (run : SourceRun) : Prop :=
  run.sourceId = link.sourceId ∧ run.healthGatePassed = some true ∧
    link.lastSeenAt < run.startedAt ∧ db.scheduled run = true ∧
      ¬ db.ObservedIn run.sourceRunId link

instance (run : SourceRun) : Decidable (db.MissedBy link run) :=
  inferInstanceAs (Decidable (_ ∧ _))

/-- Two runs missed the link, and it was last seen long enough ago. -/
def RemovalEvidence (db : Database) (now : Timestamp) (link : ListingSourceLink) : Prop :=
  removalMinElapsed ≤ now - link.lastSeenAt ∧ ∃ first ∈ db.sourceRuns, ∃ second ∈ db.sourceRuns,
    first.sourceRunId ≠ second.sourceRunId ∧ db.MissedBy link first ∧ db.MissedBy link second

/-- How many of the runs that `_healthy_runs_since` counts are scheduled and did not observe
the link. -/
def scheduledMisses (db : Database) (link : ListingSourceLink) : Nat :=
  db.sourceRuns.countP fun run => db.MissedBy link run

theorem removalEvidence_iff (keyed : RunsKeyed ids db) {now : Timestamp}
    (elapsed : removalMinElapsed ≤ now - link.lastSeenAt) :
    db.RemovalEvidence now link ↔ removalConsecutiveMisses ≤ db.scheduledMisses link := by
  rw [scheduledMisses, removalConsecutiveMisses, keyed.keys.two_le_countP_iff]
  simp only [RemovalEvidence, elapsed, true_and, decide_eq_true_eq]

/-- What becomes removed by processing the run, with the evidence. -/
theorem processSourceRun_removes_iff
    (distinct : (db.links.map ListingSourceLink.listingSourceLinkId).Nodup) {now : Timestamp}
    {run : SourceRun}
    (links : next.links = db.links.map fun link => link.withStatus (db.linkVerdict now run link)) :
    (∀ after ∈ next.links, after.linkStatus = .removed →
        ∃ link ∈ db.links, link.listingSourceLinkId = after.listingSourceLinkId ∧
          (link.linkStatus = .removed ∨ db.RemovalEvidence now link)) ↔
      ∀ link ∈ db.links, judges run link = true → db.observedInRun run.sourceRunId link = false →
        db.removalDue now run link → db.RemovalEvidence now link := by
  rw [links, List.forall_mem_map]
  refine forall₂_congr fun link member => ?_
  have itself : (∃ other ∈ db.links,
      other.listingSourceLinkId =
        (link.withStatus (db.linkVerdict now run link)).listingSourceLinkId
        ∧ (other.linkStatus = .removed ∨ db.RemovalEvidence now other)) ↔
          (link.linkStatus = .removed ∨ db.RemovalEvidence now link) := by
    refine ⟨?_, fun holds => ⟨link, member, rfl, holds⟩⟩
    rintro ⟨other, otherMem, same, holds⟩
    cases List.inj_on_of_nodup_map distinct otherMem member same
    exact holds
  rw [itself]
  change db.linkVerdict now run link = .removed → _ ↔ _
  rw [linkVerdict_eq_removed]
  constructor
  · intro evidenced judged unseen due
    refine (evidenced (.inr ⟨judged, unseen, due⟩)).resolve_left fun removed => ?_
    simp [judges, removed] at judged
  · rintro evidenced (removed | ⟨judged, unseen, due⟩)
    · exact .inl removed
    · exact .inr (evidenced judged unseen due)

end Database

/-! ## Removals of the pipeline -/

/-- The clock of the processing of a source run. -/
def PipelineAction.processedAt : PipelineAction → Option Timestamp
  | .service (.processSourceRun now _) => some now
  | .service _ | .register _ | .runSource _ | .advanceCall _ | .drain .. | .advanceWorker ..
  | .enqueue .. | .queue _ => none

namespace Pipeline

open Database

variable (env : PipelineEnvironment)

/-- Every link that becomes removed does so on evidence. -/
def RemovesOnEvidence (state : Pipeline) (action : PipelineAction) : Prop :=
  ∀ after ∈ (state.step env action).acquisition.database.links, after.linkStatus = .removed →
    ∃ link ∈ state.acquisition.database.links,
      link.listingSourceLinkId = after.listingSourceLinkId ∧
        (link.linkStatus = .removed ∨ ∃ now, action.processedAt = some now ∧
          state.acquisition.database.RemovalEvidence now link)

/-- Of the runs counted against a link that is due, two are scheduled and did not observe
it. -/
def CountsScheduledMisses (state : Pipeline) : PipelineAction → Prop
  | .service (.processSourceRun now sourceRunId) =>
      let db := state.acquisition.database
      ∀ run ∈ db.sourceRun? sourceRunId, run.healthGatePassed = some true →
        ∀ link ∈ db.links, judges run link = true → db.observedInRun run.sourceRunId link = false →
          db.removalDue now run link → removalConsecutiveMisses ≤ db.scheduledMisses link
  | .service _ | .register _ | .runSource _ | .advanceCall _ | .drain .. | .advanceWorker ..
  | .enqueue .. | .queue _ => True

variable {env} {state : Pipeline}

/-- A step that writes the status of no link removes none. -/
theorem removesOnEvidence_of_stands {action : PipelineAction}
    (stand : LinksStand state.acquisition.database (state.step env action).acquisition.database) :
    state.RemovesOnEvidence env action := by
  intro after member removed
  obtain ⟨added, same, active⟩ := stand
  have standing : after.standing ∈ (state.step env action).acquisition.database.linkStandings :=
    List.mem_map_of_mem member
  rw [same] at standing
  rcases List.mem_append.mp standing with old | new
  · obtain ⟨link, inside, equal⟩ := List.mem_map.mp old
    exact ⟨link, inside, congrArg LinkStanding.linkId equal,
      .inl ((congrArg LinkStanding.linkStatus equal).trans removed)⟩
  · cases removed.symm.trans (active _ new)

/-- An action removes links on evidence just when enough of the runs that it counts are scheduled
misses. -/
theorem removesOnEvidence_iff (running : state.Running env)
    (tracked : Tracked env.ids state.acquisition.database)
    (keyed : RunsKeyed env.ids state.acquisition.database) (action : PipelineAction) :
    state.RemovesOnEvidence env action ↔ state.CountsScheduledMisses action := by
  by_cases processes : ∃ now sourceRunId, action = .service (.processSourceRun now sourceRunId)
  · obtain ⟨now, sourceRunId, rfl⟩ := processes
    have shape : state.RemovesOnEvidence env (.service (.processSourceRun now sourceRunId)) ↔
        ∀ after ∈ (state.acquisition.database.step env.ids env.unicode
            (.processSourceRun now sourceRunId)).links, after.linkStatus = .removed →
          ∃ link ∈ state.acquisition.database.links,
            link.listingSourceLinkId = after.listingSourceLinkId ∧
              (link.linkStatus = .removed ∨
                state.acquisition.database.RemovalEvidence now link) := by
      simp only [RemovesOnEvidence, PipelineAction.processedAt, Option.some.injEq, exists_eq_left']
      rfl
    rw [shape]
    rcases step_processSourceRun_links env.ids env.unicode tracked.linkIds now sourceRunId with
      ⟨refused, same⟩ | ⟨run, found, passed, links⟩
    · refine iff_of_true ?_ fun run found passed => (refused run found passed).elim
      intro after member removed
      exact ⟨after, same ▸ member, rfl, .inl removed⟩
    · rw [processSourceRun_removes_iff tracked.linkIds links]
      constructor
      · intro evidenced other otherFound _ link member judged unseen due
        cases Option.mem_unique found otherFound
        exact (removalEvidence_iff keyed due.2).mp (evidenced link member judged unseen due)
      · intro counted link member judged unseen due
        exact (removalEvidence_iff keyed due.2).mpr
          (counted run found passed link member judged unseen due)
  · have away : ∀ now sourceRunId, action.call ≠ some (.processSourceRun now sourceRunId) :=
      fun _ _ same => processes ⟨_, _, PipelineAction.call_eq_some.mp same⟩
    refine iff_of_true (removesOnEvidence_of_stands
      ((running.step_does action).stands tracked away).1) ?_
    cases action with
    | service call =>
        cases call with
        | processSourceRun now sourceRunId => exact (processes ⟨now, sourceRunId, rfl⟩).elim
        | _ => trivial
    | _ => trivial

/-- **Evidence behind removals.** In every run of the pipeline a link becomes removed only
after two gate-passed scheduled runs that missed it and the time a removal takes, just when
each time a link is due two of the runs counted against it are scheduled and missed it. -/
theorem removals_evidenced_iff (env : PipelineEnvironment) (actions : List PipelineAction) :
    Permitted (Pipeline.step env) (RemovesOnEvidence env) {} actions ↔
      Permitted (Pipeline.step env) CountsScheduledMisses {} actions := by
  have preserved : Preserved (Pipeline.step env) (fun _ _ => True) fun state =>
      state.Running env ∧ Tracked env.ids state.acquisition.database ∧
        RunsKeyed env.ids state.acquisition.database := by
    rintro state action ⟨running, tracked, keyed⟩ _
    have step := running.step_does action
    exact ⟨running.step action, tracked.moves (step.moves tracked), keyed.step tracked step⟩
  refine forall_congr' fun moment => forall_congr' fun member => ?_
  obtain ⟨running, tracked, keyed⟩ := preserved.moments
    ⟨running_start, tracked_empty env.ids, runsKeyed_empty env.ids⟩ (fun _ _ => trivial) moment
    member
  exact removesOnEvidence_iff running tracked keyed moment.2

/-! ## Two manual runs after a scheduled one -/

/-- A rental is observed in a scheduled run, and two manual runs find an empty page. -/
def manualRuns : List PipelineAction :=
  .register "listings" ::
    callTo 0 (onePageCall "daily:1" .scheduled .direct 0 [advertised "17" "hash" 1]) ++
    [.service (.processObservation (fun _ => 0) 2 .direct 103)] ++
    callTo 1 (onePageCall "manual:1" .manual .direct 10 []) ++
    callTo 2 (onePageCall "manual:2" .manual .direct 20 [])

/-- Two days later the second manual run removes the link, though no scheduled run missed
it. -/
theorem removed_by_manual_runs :
    ¬ Permitted (Pipeline.step countingEnvironment) (RemovesOnEvidence countingEnvironment) {}
      (manualRuns ++ [.service (.processSourceRun (seconds (48 * 60 * 60)) 113)]) := by
  intro permitted
  obtain ⟨evidenced, _⟩ := (permitted_cons _ _ _).mp ((permitted_append _ _ _).mp permitted).2
  let db := (run (Pipeline.step countingEnvironment) {} manualRuns).acquisition.database
  have unmissed : ∀ link ∈ db.links, link.linkStatus ≠ .removed ∧
      ∀ run ∈ db.sourceRuns, ¬ db.MissedBy link run := by decide
  obtain ⟨link, member, _, removed | ⟨_, _, _, first, firstMem, _, _, _, missed, _⟩⟩ :=
    evidenced _ (List.head_mem (by decide)) (by decide)
  · exact (unmissed link member).1 removed
  · exact (unmissed link member).2 first firstMem missed

end Pipeline

end RentalAgent
