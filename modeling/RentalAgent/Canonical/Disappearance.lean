import RentalAgent.Database

/-! # Disappearance and inactivation

`DisappearanceService.process_source_run`: inside a gate-passed run, links that
the run did not observe become missing and later removed, and listings without a
supporting link become inactive unless the circuit breaker trips.
-/

namespace RentalAgent

open Relational

/-- `REMOVAL_CONSECUTIVE_MISSES`. -/
def removalConsecutiveMisses : Nat := 2

/-- `REMOVAL_MIN_ELAPSED`. -/
def removalMinElapsed : Int := seconds (36 * 60 * 60)

/-- `BREAKER_ABSOLUTE_MAX`. -/
def breakerAbsoluteMax : Nat := 50

/-- `min(BREAKER_ABSOLUTE_MAX, max(1, int(active_count * BREAKER_MAX_FRACTION_OF_ACTIVE)))`;
the fraction is a quarter. -/
def breakerCap (activeCount : Nat) : Nat := min breakerAbsoluteMax (max 1 (activeCount / 4))

/-- `RULE_VERSION`. -/
def disappearanceRuleVersion : String := "disappearance-v1"

structure DisappearanceSummary where
  refusedReason : Option String := none
  linksMarkedMissing : Nat := 0
  linksRemoved : Nat := 0
  listingsInactivated : Nat := 0
  breakerTripped : Bool := false
  proposedInactivations : Nat := 0
  deriving DecidableEq

/-- The event `_emit` appends. -/
def disappearanceEvent (listingId : Uuid) (eventType : ListingEventType) (now : Timestamp)
    (suffix : KeySuffix) (id : Uuid) : ListingEvent where
  listingEventId := id
  canonicalListingId := listingId
  eventType := eventType
  eventTime := now
  sourceObservationId := none
  beforeValues := none
  afterValues := some [("rule", .text disappearanceRuleVersion)]
  idempotencyKey := ⟨listingId, eventType, suffix⟩

/-- The issue that records a tripped circuit breaker. -/
def breakerIssue (id first : Uuid) (proposed cap : Nat) (listingIds : List Uuid) : ReviewIssue where
  reviewIssueId := id
  entityType := .listing
  entityId := first
  issueType := .sourceFailure
  severity := .blocking
  status := .open
  details := .circuitBreaker proposed cap (listingIds.take 100)
  resolvedAt := none
  resolvedBy := none

namespace Database

/-- The links whose latest observation the run recorded. -/
def observedInRun (db : Database) (sourceRunId : Uuid) (link : ListingSourceLink) : Bool :=
  (db.observation? link.latestObservationId).any fun row => row.sourceRunId = sourceRunId

/-- `_healthy_runs_since`. -/
def healthyRunsSince (db : Database) (sourceId : Uuid) (since : Timestamp) : Nat :=
  db.sourceRuns.countP fun run =>
    run.sourceId = sourceId && run.healthGatePassed = some true && since < run.startedAt

/-- Writing the status of a link. -/
def setLinkStatus (db : Database) (link : ListingSourceLink) (status : LinkStatus) : Database :=
  db.updateLink link.listingSourceLinkId fun row => { row with linkStatus := status }

/-- One round of the link loop. -/
def processLink (ids : IdSupply) (now : Timestamp) (run : SourceRun)
    (observed : ListingSourceLink → Bool) (state : Database × DisappearanceSummary)
    (link : ListingSourceLink) : Database × DisappearanceSummary :=
  let (db, summary) := state
  if observed link then
    if link.linkStatus = .missing then (db.setLinkStatus link .active, summary) else (db, summary)
  else if removalConsecutiveMisses ≤ db.healthyRunsSince run.sourceId link.lastSeenAt ∧
      removalMinElapsed ≤ now - link.lastSeenAt then
    (db.setLinkStatus link .removed, { summary with linksRemoved := summary.linksRemoved + 1 })
  else if link.linkStatus = .active then
    (((db.setLinkStatus link .missing).insertEvent ids
        (disappearanceEvent link.canonicalListingId .missingStarted now (.row run.sourceRunId))).1,
      { summary with linksMarkedMissing := summary.linksMarkedMissing + 1 })
  else (db, summary)

/-- A link that is active, missing or conflicting supports the listing. -/
def supported (db : Database) (listingId : Uuid) : Bool :=
  db.links.any fun link => link.canonicalListingId = listingId &&
    (link.linkStatus = .active || link.linkStatus = .missing || link.linkStatus = .conflicting)

/-- An active override governs the lifecycle of the entity. -/
def lifecycleOverridden (db : Database) (listingId : Uuid) : Bool :=
  db.overrides.any fun override => override.entityId = listingId &&
    override.fieldName = "lifecycle_status" && override.overrideStatus = .active

/-- The listings that may be inactivated. -/
def eligibleForInactivation (db : Database) : List CanonicalListing :=
  db.listings.filter fun listing =>
    (listing.lifecycleStatus = .active || listing.lifecycleStatus = .candidate) &&
      !db.supported listing.canonicalListingId &&
        !db.lifecycleOverridden listing.canonicalListingId

/-- Inactivating one listing. -/
def inactivate (ids : IdSupply) (now : Timestamp) (db : Database) (listing : CanonicalListing) :
    Database :=
  ((db.updateListing listing.canonicalListingId fun row =>
      { row with lifecycleStatus := .inactive, inactiveAt := some now }).insertEvent ids
    (disappearanceEvent listing.canonicalListingId .inactivated now
      (.rule disappearanceRuleVersion))).1

/-- `_inactivate_unsupported`. -/
def inactivateUnsupported (ids : IdSupply) (now : Timestamp)
    (state : Database × DisappearanceSummary) : Database × DisappearanceSummary :=
  let (db, summary) := state
  let eligible := db.eligibleForInactivation
  let summary := { summary with proposedInactivations := eligible.length }
  match eligible with
  | [] => (db, summary)
  | first :: _ =>
      let cap := breakerCap (db.listings.countP fun listing => listing.lifecycleStatus = .active)
      if cap < eligible.length then
        ({ db with
            drawn := db.drawn + 1
            reviewIssues := db.reviewIssues ++
              [breakerIssue (ids.uuid db.drawn) first.canonicalListingId eligible.length cap
                (eligible.map CanonicalListing.canonicalListingId)] },
          { summary with breakerTripped := true })
      else
        (eligible.foldl (inactivate ids now) db,
          { summary with listingsInactivated := eligible.length })

/-- `DisappearanceService.process_source_run`. -/
def processSourceRun (ids : IdSupply) (now : Timestamp) (sourceRunId : Uuid) (db : Database) :
    Except ServiceError (Database × DisappearanceSummary) :=
  match db.sourceRun? sourceRunId with
  | none => .error .lookupError
  | some run =>
      if run.healthGatePassed ≠ some true then
        .ok (db, { refusedReason := some "health_gate_not_passed" })
      else
        let links := db.links.filter fun link => link.sourceId = run.sourceId &&
          (link.linkStatus = .active || link.linkStatus = .missing)
        .ok (inactivateUnsupported ids now
          (links.foldl (processLink ids now run (db.observedInRun sourceRunId)) (db, {})))

end Database

end RentalAgent
