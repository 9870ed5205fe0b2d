import RentalAgent.Acquisition.RemovalEvidence
import RentalAgent.Canonical.CircuitBreaker
import RentalAgent.Canonical.History

/-! # Inventory that reappears

A rental that is observed again gets a missing link back. A removed link is selected by no
run, and nothing writes the lifecycle of an inactive listing but a merge, so neither comes
back (`Pipeline.reappearance_restores_iff`).
-/

namespace RentalAgent

open Relational Transition

namespace Database

variable {ids : IdSupply} {unicode : UnicodeTables} {now : Timestamp} {db next : Database}
  {link : ListingSourceLink} {run : SourceRun}

/-- The listing is there and not inactive. -/
def Listed (db : Database) (listingId : Uuid) : Prop :=
  ∃ listing ∈ db.listings, listing.canonicalListingId = listingId ∧
    listing.lifecycleStatus ≠ .inactive

/-- The link is active, and its listing not inactive. -/
def Restored (db : Database) (linkId : Uuid) : Prop :=
  ∃ link ∈ db.links, link.listingSourceLinkId = linkId ∧ link.linkStatus = .active ∧
    db.Listed link.canonicalListingId

/-- The link is active or missing, and its listing not inactive. -/
def Restorable (db : Database) (linkId : Uuid) : Prop :=
  ∃ link ∈ db.links, link.listingSourceLinkId = linkId ∧
    (link.linkStatus = .active ∨ link.linkStatus = .missing) ∧ db.Listed link.canonicalListingId

/-- The row observes the identity of the link again, no earlier than the link was last seen,
in a gate-passed run of the source. -/
structure Reobserved (db : Database) (row : SourceObservation) (link : ListingSourceLink)
    (run : SourceRun) : Prop where
  found : db.observation? row.sourceObservationId = some row
  processable : row.parseStatus = .valid ∨ row.parseStatus = .partialParse
  known : db.findLink row = .ok (some link)
  later : link.lastSeenAt ≤ row.observedAt
  ran : db.sourceRun? row.sourceRunId = some run
  passed : run.healthGatePassed = some true
  source : run.sourceId = row.sourceId

/-- Whether a listing is listed depends on the standings alone. -/
theorem listed_congr (same : next.standings = db.standings) {listingId : Uuid} :
    next.Listed listingId ↔ db.Listed listingId := by
  have standing : ∀ db : Database, db.Listed listingId ↔ ∃ standing ∈ db.standings,
      standing.listingId = listingId ∧ standing.lifecycleStatus ≠ .inactive := fun db => by
    simp only [Listed, standings, List.mem_map, exists_exists_and_eq_and]
    rfl
  rw [standing, standing, same]

/-- With distinct ids a stored link is restorable by its own status and that of its listing. -/
theorem restorable_iff (distinct : (db.links.map ListingSourceLink.listingSourceLinkId).Nodup)
    (member : link ∈ db.links) :
    db.Restorable link.listingSourceLinkId ↔
      (link.linkStatus = .active ∨ link.linkStatus = .missing) ∧
        db.Listed link.canonicalListingId := by
  refine ⟨?_, fun holds => ⟨link, member, rfl, holds⟩⟩
  rintro ⟨other, otherMem, same, holds⟩
  cases List.inj_on_of_nodup_map distinct otherMem member same
  exact holds

/-- A listing with an active link stays as it is. -/
theorem InactivatedAtOnce.listed_iff (atOnce : InactivatedAtOnce db next now) {listingId : Uuid}
    (supported : ∃ link ∈ next.links, link.canonicalListingId = listingId ∧
      link.linkStatus = .active) : next.Listed listingId ↔ db.Listed listingId := by
  obtain ⟨link, member, owner, active⟩ := supported
  unfold InactivatedAtOnce at atOnce
  split at atOnce
  · have stays : ∀ listing ∈ db.listings, listing.canonicalListingId = listingId →
        ¬ listing.Eligible next.links db.overrides :=
      fun listing _ same eligible => (eligible.2.1 link member (owner.trans same.symm)).1 active
    simp only [Listed, atOnce.1, List.mem_map, exists_exists_and_eq_and]
    refine exists_congr fun listing => and_congr_right fun inside => ?_
    by_cases eligible : listing.Eligible next.links db.overrides
    · rw [if_pos eligible]
      refine iff_of_false (fun holds => holds.2 rfl) fun holds => ?_
      exact stays listing inside holds.1 eligible
    · rw [if_neg eligible]
  · rw [Listed, atOnce.1, Listed]

/-- A link of the source is active after the run just when the run selects and has observed
it. -/
theorem linkVerdict_active_iff (source : run.sourceId = link.sourceId) :
    db.linkVerdict now run link = .active ↔
      (link.linkStatus = .active ∨ link.linkStatus = .missing) ∧
        db.observedInRun run.sourceRunId link = true := by
  rw [linkVerdict_eq_active]
  by_cases selected : link.linkStatus = .active ∨ link.linkStatus = .missing
  · simp [judges, source, selected]
  · simp only [judges, source, selected, false_and, iff_false]
    simp [not_or.mp selected]

/-- **Processing a run.** A link of the source is restored just when it is active or missing,
its listing is not inactive and its latest observation is of the run. -/
theorem restored_iff (tracked : Tracked ids db) (member : link ∈ db.links)
    (found : db.sourceRun? run.sourceRunId = some run) (passed : run.healthGatePassed = some true)
    (source : run.sourceId = link.sourceId) :
    (db.step ids unicode (.processSourceRun now run.sourceRunId)).Restored
        link.listingSourceLinkId ↔
      db.Restorable link.listingSourceLinkId ∧ db.observedInRun run.sourceRunId link = true := by
  have keyed : PrimaryKey CanonicalListing.canonicalListingId db.listings :=
    primaryKey_iff_nodup.mpr tracked.listingIds
  have atOnce := step_atOnce ids unicode now keyed found passed
  rw [restorable_iff tracked.linkIds member]
  obtain ⟨refused, _⟩ | ⟨other, otherFound, _, links⟩ :=
    step_processSourceRun_links ids unicode tracked.linkIds now run.sourceRunId
  · exact (refused run found passed).elim
  · cases Option.mem_unique found otherFound
    generalize db.step ids unicode (.processSourceRun now run.sourceRunId) = next at atOnce links ⊢
    let judged := link.withStatus (db.linkVerdict now run link)
    have inside : judged ∈ next.links := links ▸ List.mem_map_of_mem member
    have restored : next.Restored link.listingSourceLinkId ↔
        db.linkVerdict now run link = .active ∧ next.Listed link.canonicalListingId := by
      refine ⟨?_, fun holds => ⟨judged, inside, rfl, holds⟩⟩
      rintro ⟨after, afterMem, same, active, listed⟩
      rw [links] at afterMem
      obtain ⟨old, oldMem, rfl⟩ := List.mem_map.mp afterMem
      cases List.inj_on_of_nodup_map tracked.linkIds oldMem member same
      exact ⟨active, listed⟩
    rw [restored, and_right_comm, ← linkVerdict_active_iff source]
    exact and_congr_right fun active => atOnce.listed_iff ⟨judged, inside, rfl, active⟩

/-- The link that a row is found by. -/
theorem findLink_source {row : SourceObservation} (known : db.findLink row = .ok (some link)) :
    link ∈ db.links ∧ link.sourceId = row.sourceId := by
  rw [findLink_eq, scalarOneOrNone_eq_some] at known
  obtain ⟨member, identifies⟩ := List.mem_filter.mp (known ▸ List.mem_singleton_self link)
  refine ⟨member, ?_⟩
  unfold LinkIdentity.identifies at identifies
  cases native : row.sourceNativeId <;> rw [native] at identifies <;>
    exact of_decide_eq_true ((Bool.and_eq_true _ _).mp identifies).1

/-- **Normalizing the observation.** It becomes the latest one of the link; status and
lifecycle stay. -/
theorem Reobserved.normalized {env : Environment} {row : SourceObservation}
    {method : DiscoveryMethod} {outcome : NormalizationOutcome} (tracked : Tracked ids db)
    (reobserved : db.Reobserved row link run)
    (processed : db.processObservation env now method row.sourceObservationId =
      .ok (next, outcome)) (trackedNext : Tracked ids next) :
    ∃ seen ∈ next.links, seen.listingSourceLinkId = link.listingSourceLinkId ∧
      seen.sourceId = row.sourceId ∧ next.observedInRun run.sourceRunId seen = true ∧
        (next.Restorable link.listingSourceLinkId ↔ db.Restorable link.listingSourceLinkId) := by
  obtain ⟨member, source⟩ := findLink_source reobserved.known
  have services := (processObservation_canonicalOnly processed).serviceOnly
  have sameRun : run.sourceRunId = row.sourceRunId := key_of_get reobserved.ran
  have sameRow : next.observation? row.sourceObservationId = some row := by
    rw [observation?, services.observations]
    exact reobserved.found
  rcases processObservation_cases processed reobserved.found reobserved.processable with
    ⟨unknown, _⟩ | ⟨other, known, updated⟩
  · cases unknown.symm.trans reobserved.known
  · cases known.symm.trans reobserved.known
    obtain ⟨listing, _, update⟩ := updateExisting_cases updated
    have links := update.links
    -- The link afterwards: the row is its latest observation either way.
    obtain ⟨seen, inside, id, seenSource, owner, status, latest⟩ : ∃ seen ∈ next.links,
        seen.listingSourceLinkId = link.listingSourceLinkId ∧ seen.sourceId = link.sourceId ∧
          seen.canonicalListingId = link.canonicalListingId ∧
          seen.linkStatus = link.linkStatus ∧
          seen.latestObservationId = row.sourceObservationId := by
      split at links
      · rename_i replayed
        exact ⟨link, links ▸ member, rfl, rfl, rfl, rfl, replayed⟩
      · refine ⟨touchLink link row link, links ▸ List.mem_map_of_mem member, ?_⟩
        rw [touchLink, if_pos ⟨reobserved.later, rfl⟩]
        exact ⟨rfl, rfl, rfl, rfl, rfl⟩
    refine ⟨seen, inside, id, seenSource.trans source, ?_, ?_⟩
    · simp [observedInRun, latest, sameRow, sameRun]
    · rw [← id, restorable_iff trackedNext.linkIds inside, id,
        restorable_iff tracked.linkIds member,
        status, owner, listed_congr update.standings]

/-- Normalization leaves an inactive listing inactive. -/
theorem processObservation_inactive {env : Environment} {observationId : Uuid}
    {method : DiscoveryMethod} {outcome : NormalizationOutcome}
    (processed : db.processObservation env now method observationId = .ok (next, outcome))
    {listing : CanonicalListing} (member : listing ∈ db.listings)
    (inactive : listing.lifecycleStatus = .inactive) :
    ∃ after ∈ next.listings, after.canonicalListingId = listing.canonicalListingId ∧
      after.lifecycleStatus = .inactive := by
  obtain ⟨started, same, _⟩ := processObservation_standings processed
  have inside : listing.standing ∈ next.standings := by
    rw [same]
    exact List.mem_append_left _ (List.mem_map_of_mem member)
  obtain ⟨after, afterMem, equal⟩ := mem_standings.mp inside
  exact ⟨after, afterMem, congrArg Standing.listingId equal,
    (congrArg Standing.lifecycleStatus equal).trans inactive⟩

end Database

namespace Pipeline

open Database

/-- **Reappearance.** In every state of the pipeline, when the identity of a link is observed
again, the observation is normalized and the run processed, the link is active and its
listing not inactive just when before the link was active or missing and its listing not
inactive. When other steps come in between, the link must still be so when the run is
processed, and have its latest observation in that run. A listing that is inactive when a
new identity is attached to it stays inactive. -/
theorem reappearance_restores_iff (env : PipelineEnvironment) (actions : List PipelineAction) :
    let db := (reached env actions).acquisition.database
    (∀ row link run, db.Reobserved row link run → ∀ scan now method next outcome,
      db.processObservation ⟨env.ids, env.unicode, scan⟩ now method row.sourceObservationId =
        .ok (next, outcome) → ∀ processedAt,
          (next.step env.ids env.unicode (.processSourceRun processedAt run.sourceRunId)).Restored
            link.listingSourceLinkId ↔ db.Restorable link.listingSourceLinkId) ∧
    (∀ link ∈ db.links, ∀ run, db.sourceRun? run.sourceRunId = some run →
      run.healthGatePassed = some true → run.sourceId = link.sourceId → ∀ processedAt,
        (db.step env.ids env.unicode (.processSourceRun processedAt run.sourceRunId)).Restored
            link.listingSourceLinkId ↔
          db.Restorable link.listingSourceLinkId ∧
            db.observedInRun run.sourceRunId link = true) ∧
    ∀ row scan now method next outcome, db.findLink row = .ok none →
      db.processObservation ⟨env.ids, env.unicode, scan⟩ now method row.sourceObservationId =
        .ok (next, outcome) → ∀ listing ∈ db.listings,
          outcome.canonicalListingId = some listing.canonicalListingId →
            listing.lifecycleStatus = .inactive → ∃ after ∈ next.listings,
              after.canonicalListingId = listing.canonicalListingId ∧
                after.lifecycleStatus = .inactive := by
  intro db
  have tracked : Tracked env.ids db := reached_tracked actions
  refine ⟨?_, ?_, ?_⟩
  · intro row link run reobserved scan now method next outcome processed processedAt
    have trackedNext := tracked.moves (processObservation_grows processed tracked).moves
    obtain ⟨seen, inside, same, source, observed, restorable⟩ :=
      reobserved.normalized tracked processed trackedNext
    have services := (processObservation_canonicalOnly processed).serviceOnly
    have sameRun : run.sourceRunId = row.sourceRunId := key_of_get reobserved.ran
    have found : next.sourceRun? run.sourceRunId = some run := by
      rw [sourceRun?, services.sourceRuns, sameRun]
      exact reobserved.ran
    rw [← same, restored_iff trackedNext inside found reobserved.passed
      (reobserved.source.trans source.symm), same, restorable]
    exact and_iff_left observed
  · intro link member run found passed source processedAt
    exact restored_iff tracked member found passed source
  · intro row scan now method next outcome _ processed listing member _ inactive
    exact processObservation_inactive processed member inactive

/-! ## A removed link -/

/-- A link is removed, and a scheduled run observes the rental again. -/
def observedAfterRemoval : List PipelineAction :=
  manualRuns ++ [.service (.processSourceRun (seconds (48 * 60 * 60)) 113)] ++
    callTo 3 (onePageCall "daily:2" .scheduled .direct (seconds (49 * 60 * 60))
      [advertised "17" "later" (seconds (50 * 60 * 60))])

/-- The observation is normalized and its run processed, and the link stays removed. -/
theorem removed_link_stays :
    let db := (reached countingEnvironment observedAfterRemoval).acquisition.database
    ∃ row link run next outcome, db.Reobserved row link run ∧ link.linkStatus = .removed ∧
      db.processObservation ⟨countingIds, asciiTables, fun _ => 0⟩ (seconds (51 * 60 * 60)) .direct
        row.sourceObservationId = .ok (next, outcome) ∧
      ¬ (next.step countingIds asciiTables (.processSourceRun (seconds (52 * 60 * 60))
        run.sourceRunId)).Restored link.listingSourceLinkId := by
  intro db
  let row := (db.observation? 117).get (by decide)
  let link := db.links.head (by decide)
  let run := (db.sourceRun? 116).get (by decide)
  have reobserved : db.Reobserved row link run := ⟨rfl, .inl rfl, rfl, by decide, rfl, rfl, rfl⟩
  refine ⟨row, link, run, _, _, reobserved, rfl, rfl, ?_⟩
  rintro ⟨after, member, -, active, -⟩
  revert after
  decide

end Pipeline

end RentalAgent
