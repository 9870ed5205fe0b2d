import RentalAgent.Acquisition.Pipeline
import RentalAgent.Canonical.CircuitBreaker

/-! # Inventory discovered by a search index

The absence of a rental from a search index is no evidence, and a run of a search index
never passes its gate. The links that a gate-passed run judges are those of its source,
however they were discovered, so a search-index link outlives the run of another method
just when that run has its latest observation (`Pipeline.searchInventory_stands_iff`).
-/

namespace RentalAgent

open Relational Transition

namespace Database

variable {ids : IdSupply} {unicode : UnicodeTables} {now : Timestamp} {db next : Database}

/-- Every link of a search index is active. -/
def SearchActive (db : Database) : Prop :=
  ∀ link ∈ db.links, link.discoveryMethod = .searchIndex → link.linkStatus = .active

theorem searchActive_empty : SearchActive Database.empty :=
  fun _ member => (List.not_mem_nil member).elim

/-- Links that keep their standing, beside new active ones, keep those of search indexes active. -/
theorem SearchActive.stands (active : db.SearchActive) (stand : LinksStand db next) :
    next.SearchActive := by
  intro link member search
  obtain ⟨added, same, addedActive⟩ := stand
  have standing : link.standing ∈ next.linkStandings := List.mem_map_of_mem member
  rw [same] at standing
  rcases List.mem_append.mp standing with old | new
  · obtain ⟨before, inside, equal⟩ := List.mem_map.mp old
    have status := active before inside
      ((congrArg LinkStanding.discoveryMethod equal).trans search)
    exact (congrArg LinkStanding.linkStatus equal).symm.trans status
  · exact addedActive _ new

/-- An active link stays active just when the run has observed it or is of another source. -/
theorem linkVerdict_eq_active_iff {run : SourceRun} {link : ListingSourceLink}
    (active : link.linkStatus = .active) :
    db.linkVerdict now run link = .active ↔
      (link.sourceId = run.sourceId → db.observedInRun run.sourceRunId link = true) := by
  rw [linkVerdict_eq_active]
  by_cases source : link.sourceId = run.sourceId <;> simp [judges, source, active]

/-- The links after a gate-passed run. -/
theorem searchActive_processed_iff (active : db.SearchActive) {run : SourceRun}
    (links : next.links = db.links.map fun link => link.withStatus (db.linkVerdict now run link)) :
    next.SearchActive ↔ ∀ link ∈ db.links, link.discoveryMethod = .searchIndex →
      link.sourceId = run.sourceId → db.observedInRun run.sourceRunId link = true := by
  rw [SearchActive, links, List.forall_mem_map]
  refine forall₂_congr fun link member => forall_congr' fun search => ?_
  exact linkVerdict_eq_active_iff (active link member search)

/-- No link of a search index is missing or removed. -/
def SearchStands (db : Database) : Prop :=
  ∀ link ∈ db.links, link.discoveryMethod = .searchIndex →
    link.linkStatus ≠ .missing ∧ link.linkStatus ≠ .removed

/-- The listings with a link of a search index that are inactive were inactive before. -/
def SearchOwnersStand (db next : Database) : Prop :=
  ∀ link ∈ next.links, link.discoveryMethod = .searchIndex → ∀ listing ∈ next.listings,
    listing.canonicalListingId = link.canonicalListingId → listing.lifecycleStatus = .inactive →
      ∃ old ∈ db.listings, old.canonicalListingId = listing.canonicalListingId ∧
        old.lifecycleStatus = .inactive

theorem SearchActive.searchStands (active : db.SearchActive) : db.SearchStands := by
  intro link member search
  rw [active link member search]
  exact ⟨by simp, by simp⟩

/-- A run makes active links missing or removed, if anything. -/
theorem SearchStands.active {run : SourceRun} (stands : next.SearchStands)
    (active : db.SearchActive)
    (links : next.links = db.links.map fun link => link.withStatus (db.linkVerdict now run link)) :
    next.SearchActive := by
  have statuses : ∀ link ∈ db.links, link.discoveryMethod = .searchIndex →
      db.linkVerdict now run link ≠ .missing → db.linkVerdict now run link ≠ .removed →
        db.linkVerdict now run link = .active := by
    intro link member search
    have status := active link member search
    unfold linkVerdict presenceStatus
    repeat' split
    all_goals simp [status]
  rw [SearchStands, links, List.forall_mem_map] at stands
  rw [SearchActive, links, List.forall_mem_map]
  intro link member search
  obtain ⟨present, kept⟩ := stands link member search
  exact statuses link member search present kept

/-- A listing with an active link is not eligible. -/
theorem SearchActive.ownersStand (active : next.SearchActive)
    (atOnce : InactivatedAtOnce db next now) : SearchOwnersStand db next := by
  intro link member search listing listingMem owner inactive
  obtain ⟨old, inside, same, stays | eligible⟩ := atOnce.origin listingMem inactive
  · exact ⟨old, inside, same, stays⟩
  · have unsupported := eligible.2.1 link member (owner.symm.trans same.symm)
    exact (unsupported.1 (active link member search)).elim

end Database

open Database

/-- Where nothing is inactivated, owners of search inventory stand. -/
theorem InactivatesNone.ownersStand {db next : Database} (none : InactivatesNone db next) :
    SearchOwnersStand db next := by
  intro link member search listing listingMem owner inactive
  obtain ⟨old, inside, same, stays⟩ :=
    none listing.standing (List.mem_map_of_mem listingMem) inactive
  obtain ⟨before, beforeMem, rfl⟩ := List.mem_map.mp inside
  exact ⟨before, beforeMem, same, stays⟩

namespace Pipeline

variable (env : PipelineEnvironment)

/-- The step leaves no link of a search index missing or removed, and makes no owner of one
inactive. -/
def KeepsSearchInventory (state : Pipeline) (action : PipelineAction) : Prop :=
  let next := (state.step env action).acquisition.database
  next.SearchStands ∧ SearchOwnersStand state.acquisition.database next

/-- A gate-passed run is processed only when it has the latest observation of every link of
a search index of its source. -/
def SearchObserved (state : Pipeline) : PipelineAction → Prop
  | .service (.processSourceRun _ sourceRunId) =>
      let db := state.acquisition.database
      ∀ run ∈ db.sourceRun? sourceRunId, run.healthGatePassed = some true →
        ∀ link ∈ db.links, link.discoveryMethod = .searchIndex → link.sourceId = run.sourceId →
          db.observedInRun run.sourceRunId link = true
  | .service _ | .register _ | .runSource _ | .advanceCall _ | .drain .. | .advanceWorker ..
  | .enqueue .. | .queue _ => True

variable {env} {state : Pipeline}

/-- An action keeps the inventory of search indexes just when a run that it processes has
observed it. -/
theorem keepsSearchInventory_iff (running : state.Running env)
    (tracked : Tracked env.ids state.acquisition.database)
    (active : state.acquisition.database.SearchActive) (action : PipelineAction) :
    (state.KeepsSearchInventory env action ↔ state.SearchObserved action) ∧
      (state.SearchObserved action →
        (state.step env action).acquisition.database.SearchActive) := by
  by_cases processes : ∃ now sourceRunId, action = .service (.processSourceRun now sourceRunId)
  · obtain ⟨now, sourceRunId, rfl⟩ := processes
    change (SearchStands (state.acquisition.database.step env.ids env.unicode
        (.processSourceRun now sourceRunId)) ∧ SearchOwnersStand state.acquisition.database
        (state.acquisition.database.step env.ids env.unicode (.processSourceRun now sourceRunId)) ↔
      _) ∧ (_ → SearchActive (state.acquisition.database.step env.ids env.unicode
        (.processSourceRun now sourceRunId)))
    rcases step_processSourceRun_links env.ids env.unicode tracked.linkIds now sourceRunId with
      ⟨refused, same⟩ | ⟨run, found, passed, links⟩
    · rw [same]
      refine ⟨iff_of_true ⟨active.searchStands, ?_⟩ ?_, fun _ => active⟩
      · exact fun _ _ _ listing member _ inactive => ⟨listing, member, rfl, inactive⟩
      · exact fun run found passed => (refused run found passed).elim
    · have keyed : PrimaryKey CanonicalListing.canonicalListingId
          state.acquisition.database.listings := primaryKey_iff_nodup.mpr tracked.listingIds
      have atOnce := step_atOnce env.ids env.unicode now keyed found passed
      have observed : state.SearchObserved (.service (.processSourceRun now sourceRunId)) ↔
          SearchActive (state.acquisition.database.step env.ids env.unicode
            (.processSourceRun now sourceRunId)) := by
        rw [searchActive_processed_iff active links]
        refine ⟨fun holds => holds run found passed, fun holds other otherFound _ => ?_⟩
        cases Option.mem_unique found otherFound
        exact holds
      rw [observed]
      refine ⟨⟨fun keeps => keeps.1.active active links, fun stays => ?_⟩, id⟩
      exact ⟨stays.searchStands, stays.ownersStand atOnce⟩
  · have away : ∀ now sourceRunId, action.call ≠ some (.processSourceRun now sourceRunId) :=
      fun _ _ same => processes ⟨_, _, PipelineAction.call_eq_some.mp same⟩
    obtain ⟨stand, none⟩ := (running.step_does action).stands tracked away
    have stays := active.stands stand
    refine ⟨iff_of_true ⟨stays.searchStands, none.ownersStand⟩ ?_, fun _ => stays⟩
    cases action with
    | service call =>
        cases call with
        | processSourceRun now sourceRunId => exact (processes ⟨now, sourceRunId, rfl⟩).elim
        | _ => trivial
    | _ => trivial

/-- **Search-index inventory.** In every run of the pipeline no link of a search index
becomes missing or removed, and no listing with such a link is made inactive, just when
every gate-passed run has the latest observations of these links of its source whenever it
is processed. -/
theorem searchInventory_stands_iff (env : PipelineEnvironment) (actions : List PipelineAction) :
    Permitted (Pipeline.step env) (KeepsSearchInventory env) {} actions ↔
      Permitted (Pipeline.step env) SearchObserved {} actions := by
  have preserved : Preserved (Pipeline.step env)
      (fun state action => True ∧ state.SearchObserved action) fun state =>
        state.Running env ∧ Tracked env.ids state.acquisition.database ∧
          state.acquisition.database.SearchActive := by
    rintro state action ⟨running, tracked, active⟩ ⟨_, observed⟩
    have step := running.step_does action
    exact ⟨running.step action, tracked.moves (step.moves tracked),
      (keepsSearchInventory_iff running tracked active action).2 observed⟩
  have every : Permitted (Pipeline.step env) (fun _ _ => True) {} actions := fun _ _ => trivial
  refine permitted_congr preserved (fun state action holds _ => ?_)
    ⟨running_start, tracked_empty env.ids, searchActive_empty⟩ every
  obtain ⟨running, tracked, active⟩ := holds
  exact (keepsSearchInventory_iff running tracked active action).1

/-! ## Two methods on one source -/

/-- A run of a search index discovers a rental, and a direct run of the source finds an
empty page. -/
def twoMethods : List PipelineAction :=
  .register "listings" ::
    callTo 0 (onePageCall "search:1" .scheduled .searchIndex 0 [advertised "17" "hash" 1]) ++
    [.service (.processObservation (fun _ => 0) 2 .searchIndex 103)] ++
    callTo 1 (onePageCall "daily:1" .scheduled .direct 10 [])

/-- The direct run takes the link of the search index for missing. -/
theorem search_link_missing :
    ¬ Permitted (Pipeline.step countingEnvironment) (KeepsSearchInventory countingEnvironment) {}
      (twoMethods ++ [.service (.processSourceRun 20 111)]) := by
  intro permitted
  obtain ⟨⟨stands, _⟩, _⟩ :=
    (permitted_cons _ _ _).mp ((permitted_append _ _ _).mp permitted).2
  exact absurd (stands _ (List.head_mem (by decide)) (by decide)) (by decide)

end Pipeline

end RentalAgent
