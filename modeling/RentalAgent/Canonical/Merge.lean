import RentalAgent.Database

/-! # Manual merges and their reversal

`MergeService`: a merge moves the links of its source to its target, marks the
source as merged and records the moved links; a reversal hands the recorded links
back; the resolution of a duplicate candidate merges or keeps the pair apart.
-/

namespace RentalAgent

open Relational

/-- The arguments of `merge_listings`. -/
structure MergeRequest where
  sourceListingId : Uuid
  targetListingId : Uuid
  actor : String
  actorType : ActorType
  reasonCode : MergeReasonCode := .manual
  evidence : JsonObject := []
  deriving DecidableEq

/-- The link belongs to the listing. -/
def ListingSourceLink.ownedBy (listingId : Uuid) (link : ListingSourceLink) : Bool :=
  link.canonicalListingId = listingId

/-- The merge row of a request. -/
def MergeRequest.merge (request : MergeRequest) (id : Uuid) (moved : List Uuid) (now : Timestamp) :
    CanonicalMerge where
  canonicalMergeId := id
  sourceListingId := request.sourceListingId
  targetListingId := request.targetListingId
  reasonCode := request.reasonCode
  evidence := request.evidence
  movedLinkIds := moved
  performedByType := if request.actorType = .human then .human else .system
  performedBy := request.actor
  performedAt := now
  reversedAt := none

/-- The event a merge emits on its source. -/
def MergeRequest.event (request : MergeRequest) (now : Timestamp) (id : Uuid) : ListingEvent where
  listingEventId := id
  canonicalListingId := request.sourceListingId
  eventType := .merged
  eventTime := now
  sourceObservationId := none
  beforeValues := none
  afterValues := some [("target_listing_id", .uuid request.targetListingId)]
  idempotencyKey := ⟨request.sourceListingId, .merged, .row request.targetListingId⟩

/-- The audit entry of a merge. -/
def MergeRequest.audit (request : MergeRequest) (id : Uuid) : AuditActionLog where
  actionLogId := id
  actor := request.actor
  actorType := request.actorType
  actionType := "canonical_merge"
  targetType := "canonical_listing"
  targetId := request.sourceListingId
  afterValues := some [("target_listing_id", .uuid request.targetListingId),
    ("reason_code", .mergeReason request.reasonCode)]
  reason := none

/-- The audit entry of a reversal. -/
def reversalAudit (merge : CanonicalMerge) (id : Uuid) (actor : String) (actorType : ActorType)
    (reason : String) : AuditActionLog where
  actionLogId := id
  actor := actor
  actorType := actorType
  actionType := "canonical_merge_reversed"
  targetType := "canonical_listing"
  targetId := merge.sourceListingId
  afterValues := none
  reason := some reason

/-- The issue is open and about the duplicate candidate. -/
def ReviewIssue.surfacesCandidate (candidateId : Uuid) (issue : ReviewIssue) : Bool :=
  issue.issueType = .duplicateCandidate && issue.status = .open &&
    match issue.details with
    | .duplicateCandidate id _ _ => id = candidateId
    | .overrideConflict .. | .circuitBreaker .. => false

/-- The other listing of the pair. -/
def DuplicateCandidate.mergedAway (candidate : DuplicateCandidate) (survivor : Uuid) : Uuid :=
  if survivor = candidate.listingAId then candidate.listingBId else candidate.listingAId

/-- `_require_human`. -/
def requireHuman (actorType : ActorType) : Except ServiceError PUnit :=
  refuse (actorType ≠ .human) .humanActionRequired

namespace Database

/-- The writes of `merge_listings` once its checks have passed. -/
def applyMerge (ids : IdSupply) (now : Timestamp) (request : MergeRequest)
    (source : CanonicalListing) (db : Database) : Database × CanonicalMerge :=
  let moved := (db.links.filter (ListingSourceLink.ownedBy request.sourceListingId)).map
    ListingSourceLink.listingSourceLinkId
  let merge := request.merge (ids.uuid db.drawn) moved now
  let db := { db with
    drawn := db.drawn + 2
    links := updateWhere (ListingSourceLink.ownedBy request.sourceListingId)
      (fun link => { link with canonicalListingId := request.targetListingId }) db.links
    merges := db.merges ++ [merge]
    auditLog := db.auditLog ++ [request.audit (ids.uuid (db.drawn + 1))] }
  let db := db.updateListing request.sourceListingId fun listing =>
    { listing with lifecycleStatus := .merged }
  let db := db.updateListing request.targetListingId fun listing =>
    { listing with lastSeenAt := max listing.lastSeenAt source.lastSeenAt }
  ((db.insertEvent ids (request.event now)).1, merge)

/-- `MergeService.merge_listings`. -/
def mergeListings (ids : IdSupply) (now : Timestamp) (request : MergeRequest) (db : Database) :
    Except ServiceError (Database × CanonicalMerge) := do
  (if request.reasonCode = .manual then requireHuman request.actorType else .ok ⟨⟩)
  refuse (request.sourceListingId = request.targetListingId) .mergeIntoItself
  let source ← require .lookupError (db.listing? request.sourceListingId)
  let target ← require .lookupError (db.listing? request.targetListingId)
  refuse (source.lifecycleStatus = .merged) .sourceAlreadyMerged
  refuse (target.lifecycleStatus = .merged) .targetMerged
  return db.applyMerge ids now request source

/-- The writes of `reverse_merge` once its checks have passed. -/
def applyReversal (ids : IdSupply) (now : Timestamp) (merge : CanonicalMerge) (actor : String)
    (actorType : ActorType) (reason : String) (db : Database) : Database :=
  let db := { db with
    drawn := db.drawn + 1
    links := updateWhere (fun link => link.listingSourceLinkId ∈ merge.movedLinkIds)
      (fun link => { link with canonicalListingId := merge.sourceListingId }) db.links
    merges := updateWhere (fun row => row.canonicalMergeId = merge.canonicalMergeId)
      (fun row => { row with reversedAt := some now }) db.merges
    auditLog := db.auditLog ++ [reversalAudit merge (ids.uuid db.drawn) actor actorType reason] }
  db.updateListing merge.sourceListingId fun listing =>
    { listing with lifecycleStatus := .reviewRequired }

/-- `MergeService.reverse_merge`. -/
def reverseMerge (ids : IdSupply) (now : Timestamp) (canonicalMergeId : Uuid) (actor : String)
    (actorType : ActorType) (reason : String) (db : Database) : Except ServiceError Database := do
  requireHuman actorType
  let merge ← require .lookupError (db.merge? canonicalMergeId)
  refuse (merge.reversedAt.isSome = true) .mergeAlreadyReversed
  let _ ← require .assertionError (db.listing? merge.sourceListingId)
  return db.applyReversal ids now merge actor actorType reason

/-- `_resolve_candidate_issues`. -/
def resolveCandidateIssues (now : Timestamp) (candidateId : Uuid) (actor : String)
    (db : Database) : Database :=
  { db with
    reviewIssues := updateWhere (ReviewIssue.surfacesCandidate candidateId)
      (fun issue => { issue with
        status := .resolved
        resolvedAt := some now
        resolvedBy := some actor }) db.reviewIssues }

/-- The verdict `resolve_duplicate_candidate` writes. -/
def closeCandidate (now : Timestamp) (candidateId : Uuid) (status : DuplicateCandidateStatus)
    (actor : String) (db : Database) : Database :=
  { db with
    duplicateCandidates := updateWhere (fun row => row.duplicateCandidateId = candidateId)
      (fun row => { row with
        status := status
        resolvedBy := some actor
        resolvedAt := some now }) db.duplicateCandidates }.resolveCandidateIssues now candidateId
    actor

/-- `MergeService.resolve_duplicate_candidate`. -/
def resolveDuplicateCandidate (ids : IdSupply) (now : Timestamp) (duplicateCandidateId : Uuid)
    (confirmedDuplicate : Bool) (actor : String) (actorType : ActorType)
    (survivorListingId : Option Uuid) (db : Database) : Except ServiceError Database := do
  requireHuman actorType
  let candidate ← require .lookupError (db.duplicateCandidate? duplicateCandidateId)
  refuse (candidate.status ≠ .pending) (.candidateAlreadyResolved candidate.status)
  if confirmedDuplicate then
    let survivor := survivorListingId.getD candidate.listingAId
    refuse (survivor ≠ candidate.listingAId ∧ survivor ≠ candidate.listingBId) .survivorOutsidePair
    let (db, _) ← db.mergeListings ids now
      { sourceListingId := candidate.mergedAway survivor
        targetListingId := survivor
        actor := actor
        actorType := actorType
        reasonCode := .manual
        evidence := [("duplicate_candidate_id", .uuid duplicateCandidateId)] }
    return db.closeCandidate now duplicateCandidateId .confirmedDuplicate actor
  else
    return db.closeCandidate now duplicateCandidateId .confirmedDistinct actor

end Database

end RentalAgent
