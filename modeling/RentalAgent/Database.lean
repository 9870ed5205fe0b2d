import RentalAgent.Jobs.Queue

/-! # The tables

The rows the modelled services read and write. A table is the list of its rows in
insertion order; columns no modelled service reads are left out. JSON columns are
typed by what the services put into them. The database draws identifiers from a
supply and counts them in `Database.drawn`, so two draws never agree.
-/

namespace RentalAgent

open Relational

/-! ## Observations -/

/-- The address and unit claims of an observation. -/
structure IdentityBlock where
  rawAddressText : Option String := none
  rawUnitLabel : Option String := none
  normalizedUnitCandidate : Option String := none
  sourceGeographicLabels : List String := []
  deriving DecidableEq

structure PricingBlock where
  sourcePriceText : Option String := none
  monthlyRentMinor : Option Nat := none
  deriving DecidableEq

structure LayoutBlock where
  rawLayoutText : Option String := none
  proposedLayoutClass : LayoutClass := .unknown
  confidence : Confidence := .unknown
  deriving DecidableEq

structure AvailabilityBlock where
  sourceStatusText : Option String := none
  proposedStatus : AvailabilityStatus := .unknown
  deriving DecidableEq

structure DescriptionBlock where
  text : Option String := none
  redactionStatus : ContactRedactionStatus := .notPresent
  deriving DecidableEq

structure LaundryBlock where
  proposedLaundryType : LaundryType := .unknown
  evidenceText : Option String := none
  confidence : Confidence := .unknown
  deriving DecidableEq

/-- `ParsedSourceObservation`: the output contract of an adapter. -/
structure ParsedSourceObservation where
  schemaVersion : String := "1.0.0"
  sourceNativeId : Option String := none
  sourceUrl : String
  observedAt : Timestamp
  retrievedAt : Timestamp
  identity : IdentityBlock := {}
  pricing : PricingBlock := {}
  layout : LayoutBlock := {}
  availability : AvailabilityBlock := {}
  description : DescriptionBlock := {}
  laundry : LaundryBlock := {}
  adapterVersion : String
  parseStatus : ParseStatus := .valid
  deriving DecidableEq

/-- A row of `raw.source_observation`. -/
structure SourceObservation where
  sourceObservationId : Uuid
  sourceId : Uuid
  sourceRunId : Uuid
  sourceNativeId : Option String
  sourceUrl : String
  observedAt : Timestamp
  retrievedAt : Timestamp
  contentHash : String
  parsedPayload : ParsedSourceObservation
  parseStatus : ParseStatus
  contactRedactionStatus : ContactRedactionStatus
  adapterVersion : String
  schemaVersion : String
  deriving DecidableEq

/-- The columns of the unique indexes of `raw.source_observation`: the native id
when there is one, the URL otherwise. -/
structure ObservationKey where
  sourceId : Uuid
  identity : String ⊕ String
  contentHash : String
  observedAt : Timestamp
  deriving DecidableEq

def SourceObservation.key (row : SourceObservation) : ObservationKey where
  sourceId := row.sourceId
  identity :=
    match row.sourceNativeId with
    | some nativeId => .inl nativeId
    | none => .inr row.sourceUrl
  contentHash := row.contentHash
  observedAt := row.observedAt

/-! ## Sources and runs -/

/-- A row of `app.source`. -/
structure Source where
  sourceId : Uuid
  sourceCode : String
  deriving DecidableEq

/-- A row of `ops.refresh_run`. -/
structure RefreshRun where
  refreshRunId : Uuid
  triggerType : RefreshTriggerType
  logicalRunKey : String
  startedAt : Timestamp
  status : RefreshRunStatus
  pipelineVersion : String
  deriving DecidableEq

/-- The `counts` column of a source run. -/
structure RunCounts where
  discovered : Nat
  persistedNew : Nat
  duplicatesSkipped : Nat
  partitionsCompleted : Nat
  partitionsFailed : Nat
  normalizeJobsEnqueued : Nat
  discoveryMethod : DiscoveryMethod
  deriving DecidableEq

/-- A row of `ops.source_run`; the health gate is empty until evaluated. -/
structure SourceRun where
  sourceRunId : Uuid
  refreshRunId : Uuid
  sourceId : Uuid
  startedAt : Timestamp
  completedAt : Option Timestamp
  status : SourceRunStatus
  healthGatePassed : Option Bool
  counts : Option RunCounts
  errorSummary : Option (List String)
  adapterVersion : String
  deriving DecidableEq

/-- A row of `ops.adapter_checkpoint`. -/
structure AdapterCheckpoint where
  sourceRunId : Uuid
  partitionKey : String
  completed : Bool
  itemsDiscovered : Option Nat
  deriving DecidableEq

/-! ## Inventory -/

/-- A point on the earth, in degrees. -/
structure Point where
  longitude : Rat
  latitude : Rat
  deriving DecidableEq

/-- A row of `app.address`; an address starts without a location. -/
structure Address where
  addressId : Uuid
  addressLine1 : Option String
  locality : String
  administrativeArea : String
  formattedAddress : String
  addressFingerprint : Option String
  locationPrecision : LocationPrecision
  boundaryStatus : BoundaryStatus
  borough : Option String := none
  locationPoint : Option Point := none
  geocoderSourceId : Option Uuid := none
  geocoderResultId : Option String := none
  geocodedAt : Option Timestamp := none
  geocodeInputHash : Option String := none
  geocodeStatus : GeocodeStatus := .pending
  deriving DecidableEq

/-- A row of `config.geographic_boundary`; the geometry is the GeoJSON text it is made of. -/
structure GeographicBoundary where
  geographicBoundaryId : Uuid
  regionCode : String
  displayName : String
  regionGroup : String
  geometry : String
  datasetVersion : String
  deriving DecidableEq

/-- A row of `app.building`. -/
structure Building where
  buildingId : Uuid
  addressId : Uuid
  deriving DecidableEq

/-- A row of `app.unit`. -/
structure BuildingUnit where
  unitId : Uuid
  buildingId : Uuid
  canonicalUnitLabel : Option String
  unitFingerprint : Option String
  layoutClass : LayoutClass
  deriving DecidableEq

/-- A row of `app.canonical_listing`. -/
structure CanonicalListing where
  canonicalListingId : Uuid
  buildingId : Uuid
  unitId : Option Uuid
  layoutClass : LayoutClass
  monthlyRentMinor : Option Nat
  availabilityStatus : AvailabilityStatus
  lifecycleStatus : LifecycleStatus
  laundryType : LaundryType
  indoorLaundryBadgeEligible : Bool
  descriptionCurrent : Option String
  firstSeenAt : Timestamp
  lastSeenAt : Timestamp
  lastMaterialChangeAt : Timestamp
  inactiveAt : Option Timestamp
  canonicalResolutionStatus : CanonicalResolutionStatus
  deriving DecidableEq

/-- A row of `app.listing_source_link`. -/
structure ListingSourceLink where
  listingSourceLinkId : Uuid
  canonicalListingId : Uuid
  sourceId : Uuid
  sourceNativeId : Option String
  sourceUrl : String
  firstObservationId : Uuid
  latestObservationId : Uuid
  firstSeenAt : Timestamp
  lastSeenAt : Timestamp
  linkStatus : LinkStatus
  discoveryMethod : DiscoveryMethod
  identityMethod : IdentityMethod
  identityConfidence : IdentityConfidence
  identityRuleVersion : String
  deriving DecidableEq

/-! ## Evidence and review -/

/-- The JSON scalars of events, facts, overrides and evidence, and the lists of texts
of facts. The text of an enumeration value is kept as the value. -/
inductive JsonScalar
  | null
  | number (value : Nat)
  | text (value : String)
  | texts (values : List String)
  | uuid (value : Uuid)
  | layout (value : LayoutClass)
  | laundry (value : LaundryType)
  | availability (value : AvailabilityStatus)
  | lifecycle (value : LifecycleStatus)
  | mergeReason (value : MergeReasonCode)
  deriving DecidableEq

/-- A flat JSON object. -/
abbrev JsonObject := List (String × JsonScalar)

/-- The last part of an idempotency key: the id of a causing row, a rule, or the rent
that a detail page states. -/
inductive KeySuffix
  | row (id : Uuid)
  | rule (version : String)
  | detailExtract (minor : Nat)
  deriving DecidableEq

/-- An idempotency key `listing:type:suffix`. -/
structure EventKey where
  listing : Uuid
  eventType : ListingEventType
  suffix : KeySuffix
  deriving DecidableEq

/-- A row of `app.listing_event`. -/
structure ListingEvent where
  listingEventId : Uuid
  canonicalListingId : Uuid
  eventType : ListingEventType
  eventTime : Timestamp
  sourceObservationId : Option Uuid
  beforeValues : Option JsonObject
  afterValues : Option JsonObject
  idempotencyKey : EventKey
  deriving DecidableEq

/-- A row of `app.fact_assertion`; `valueJson` is the scalar under `"value"`. -/
structure FactAssertion where
  factAssertionId : Uuid
  entityType : FactEntityType
  entityId : Uuid
  factKey : String
  valueJson : JsonScalar
  valueStatus : ValueStatus
  derivationType : DerivationType
  sourceObservationId : Option Uuid
  evidenceText : Option String
  confidence : Confidence
  validationStatus : ValidationStatus
  assertedAt : Timestamp
  deriving DecidableEq

/-- A row of `app.fact_resolution`. -/
structure FactResolution where
  factResolutionId : Uuid
  entityType : FactEntityType
  entityId : Uuid
  factKey : String
  effectiveAssertionId : Option Uuid
  resolutionStatus : ResolutionStatus
  resolutionMethod : ResolutionMethod
  resolutionRuleVersion : String
  supersededAt : Option Timestamp
  deriving DecidableEq

/-- A row of `app.human_override`; `overrideValue` is the scalar under `"value"`,
`null` when the column or the key is missing. -/
structure HumanOverride where
  humanOverrideId : Uuid
  entityType : FactEntityType
  entityId : Uuid
  fieldName : String
  overrideValue : JsonScalar
  overrideStatus : OverrideStatus
  reviewOnNewConflict : Bool
  deriving DecidableEq

/-- A row of `app.canonical_merge`. The key `"moved_link_ids"` of its evidence is
the column `movedLinkIds`. -/
structure CanonicalMerge where
  canonicalMergeId : Uuid
  sourceListingId : Uuid
  targetListingId : Uuid
  reasonCode : MergeReasonCode
  evidence : JsonObject
  movedLinkIds : List Uuid
  performedByType : PerformedByType
  performedBy : String
  performedAt : Timestamp
  reversedAt : Option Timestamp
  deriving DecidableEq

/-- A row of `app.duplicate_candidate`. -/
structure DuplicateCandidate where
  duplicateCandidateId : Uuid
  listingAId : Uuid
  listingBId : Uuid
  evidence : JsonObject
  ruleVersion : String
  status : DuplicateCandidateStatus
  resolvedBy : Option String
  resolvedAt : Option Timestamp
  deriving DecidableEq

/-- The `details` of a review issue. -/
inductive ReviewDetails
  | duplicateCandidate (duplicateCandidateId listingAId listingBId : Uuid)
  | overrideConflict (factKey : String) (overrideId : Uuid)
      (overrideValue incomingValue : JsonScalar)
  | circuitBreaker (proposedInactivations cap : Nat) (listingIds : List Uuid)
  deriving DecidableEq

/-- A row of `app.review_issue`. -/
structure ReviewIssue where
  reviewIssueId : Uuid
  entityType : FactEntityType
  entityId : Uuid
  issueType : ReviewIssueType
  severity : ReviewIssueSeverity
  status : ReviewIssueStatus
  details : ReviewDetails
  resolvedAt : Option Timestamp
  resolvedBy : Option String
  deriving DecidableEq

/-- A row of `audit.action_log`. -/
structure AuditActionLog where
  actionLogId : Uuid
  actor : String
  actorType : ActorType
  actionType : String
  targetType : String
  targetId : Uuid
  beforeValues : Option JsonObject := none
  afterValues : Option JsonObject
  reason : Option String
  deriving DecidableEq

/-! ## Page extraction and media -/

/-- A row of `ops.model_execution`: the columns of its unique constraint. -/
structure ModelExecution where
  modelExecutionId : Uuid
  taskType : String
  inputHash : String
  promptVersion : String
  outputSchemaVersion : String
  modelId : String
  deriving DecidableEq

/-- A row of `app.media_asset`. -/
structure MediaAsset where
  mediaAssetId : Uuid
  sourceId : Uuid
  sourceUrl : String
  mediaType : MediaType
  availabilityStatus : MediaAvailabilityStatus
  policyVersion : String
  deriving DecidableEq

/-- A row of `app.media_association`. -/
structure MediaAssociation where
  mediaAssociationId : Uuid
  mediaAssetId : Uuid
  canonicalListingId : Option Uuid
  buildingId : Option Uuid
  associationLevel : AssociationLevel
  associationStatus : AssociationStatus
  confidence : Confidence
  deriving DecidableEq

/-- A row of `ops.provider_request`. -/
structure ProviderRequest where
  providerRequestId : Uuid
  sourceId : Uuid
  requestType : ProviderRequestType
  requestHash : String
  requestParameters : JsonObject
  providerResultId : Option String
  status : ProviderRequestStatus
  requestedAt : Timestamp
  completedAt : Option Timestamp
  errorCode : Option String
  deriving DecidableEq

/-! ## The database -/

/-- The tables, and the number of identifiers drawn so far. -/
structure Database where
  drawn : Nat
  queue : QueueState
  sources : List Source
  refreshRuns : List RefreshRun
  sourceRuns : List SourceRun
  checkpoints : List AdapterCheckpoint
  observations : List SourceObservation
  addresses : List Address
  buildings : List Building
  units : List BuildingUnit
  listings : List CanonicalListing
  links : List ListingSourceLink
  merges : List CanonicalMerge
  duplicateCandidates : List DuplicateCandidate
  reviewIssues : List ReviewIssue
  events : List ListingEvent
  assertions : List FactAssertion
  resolutions : List FactResolution
  overrides : List HumanOverride
  auditLog : List AuditActionLog
  modelExecutions : List ModelExecution
  mediaAssets : List MediaAsset
  mediaAssociations : List MediaAssociation
  boundaries : List GeographicBoundary := []
  providerRequests : List ProviderRequest := []
  deriving DecidableEq

/-- The database before anything was written. -/
def Database.empty : Database where
  drawn := 0
  queue := .empty
  sources := []
  refreshRuns := []
  sourceRuns := []
  checkpoints := []
  observations := []
  addresses := []
  buildings := []
  units := []
  listings := []
  links := []
  merges := []
  duplicateCandidates := []
  reviewIssues := []
  events := []
  assertions := []
  resolutions := []
  overrides := []
  auditLog := []
  modelExecutions := []
  mediaAssets := []
  mediaAssociations := []

/-- The supply of identifiers (`gen_random_uuid()`): no two draws agree. -/
structure IdSupply where
  uuid : Nat → Uuid
  distinct : Function.Injective uuid

/-- Identifiers from 100 on. -/
def countingIds : IdSupply := ⟨fun k => k + 100, fun _ _ same => Nat.add_right_cancel same⟩

/-- The exceptions of the services. -/
inductive ServiceError
  /-- `LookupError`: observation, source, listing, merge, candidate or run not found. -/
  | lookupError
  /-- `MultipleResultsFound`: a query for at most one row found several. -/
  | multipleResultsFound
  /-- `AssertionError`: a row another row refers to is missing. -/
  | assertionError
  /-- `HumanActionRequired`: the action needs a human actor. -/
  | humanActionRequired
  /-- `MergeError`: "cannot merge a listing into itself". -/
  | mergeIntoItself
  /-- `MergeError`: "source listing is already merged". -/
  | sourceAlreadyMerged
  /-- `MergeError`: "target listing is itself merged; merge into its survivor". -/
  | targetMerged
  /-- `MergeError`: "merge already reversed". -/
  | mergeAlreadyReversed
  /-- `MergeError`: "candidate already resolved". -/
  | candidateAlreadyResolved (status : DuplicateCandidateStatus)
  /-- `MergeError`: "survivor must be one of the candidate pair". -/
  | survivorOutsidePair
  /-- `IntegrityError`: a unique index refuses a row. -/
  | integrityError
  /-- `TavilyQuotaError`: the extraction endpoint refuses the account. -/
  | tavilyQuotaError
  /-- `ValueError`: a URL that `urlparse` does not accept. -/
  | valueError
  deriving DecidableEq

/-- `type(exc).__name__`. -/
def ServiceError.typeName : ServiceError → String
  | .lookupError => "LookupError"
  | .multipleResultsFound => "MultipleResultsFound"
  | .assertionError => "AssertionError"
  | .humanActionRequired => "HumanActionRequired"
  | .mergeIntoItself | .sourceAlreadyMerged | .targetMerged | .mergeAlreadyReversed
  | .candidateAlreadyResolved _ | .survivorOutsidePair => "MergeError"
  | .integrityError => "IntegrityError"
  | .tavilyQuotaError => "TavilyQuotaError"
  | .valueError => "ValueError"

namespace Database

/-- `session.get(SourceObservation, id)`. -/
def observation? (db : Database) (id : Uuid) : Option SourceObservation :=
  get SourceObservation.sourceObservationId db.observations id

/-- `session.get(CanonicalListing, id)`. -/
def listing? (db : Database) (id : Uuid) : Option CanonicalListing :=
  get CanonicalListing.canonicalListingId db.listings id

/-- `session.get(CanonicalMerge, id)`. -/
def merge? (db : Database) (id : Uuid) : Option CanonicalMerge :=
  get CanonicalMerge.canonicalMergeId db.merges id

/-- `session.get(DuplicateCandidate, id)`. -/
def duplicateCandidate? (db : Database) (id : Uuid) : Option DuplicateCandidate :=
  get DuplicateCandidate.duplicateCandidateId db.duplicateCandidates id

/-- `session.get(SourceRun, id)`. -/
def sourceRun? (db : Database) (id : Uuid) : Option SourceRun :=
  get SourceRun.sourceRunId db.sourceRuns id

/-- Appending an event unless one with its idempotency key exists. -/
def insertEvent (ids : IdSupply) (event : Uuid → ListingEvent) (db : Database) :
    Database × Option Uuid :=
  let row := event (ids.uuid db.drawn)
  if db.events.any fun other => other.idempotencyKey = row.idempotencyKey then (db, none)
  else
    ({ db with drawn := db.drawn + 1, events := db.events ++ [row] }, some row.listingEventId)

/-- Inserting a listing under a drawn id. -/
def insertListing (listing : CanonicalListing) (db : Database) : Database :=
  { db with drawn := db.drawn + 1, listings := db.listings ++ [listing] }

/-- Inserting a link under a drawn id. -/
def insertLink (link : ListingSourceLink) (db : Database) : Database :=
  { db with drawn := db.drawn + 1, links := db.links ++ [link] }

/-- Writing the columns of one listing. -/
def updateListing (db : Database) (id : Uuid) (change : CanonicalListing → CanonicalListing) :
    Database :=
  { db with
    listings := updateWhere (fun listing => listing.canonicalListingId = id) change db.listings }

/-- Writing the columns of one link. -/
def updateLink (db : Database) (id : Uuid) (change : ListingSourceLink → ListingSourceLink) :
    Database :=
  { db with
    links := updateWhere (fun link => link.listingSourceLinkId = id) change db.links }

end Database

end RentalAgent
