import Mathlib.Init

/-! # Column values

Identifiers, times and the constrained-text enumerations that the modelled tables
and services use. The database stores the text of an enumeration value; the
enumeration and its text determine each other, so the model keeps the enumeration.
-/

namespace RentalAgent

/-- A UUID, read as the number its hexadecimal text denotes. The texts have one
length and lower-case digits, so they compare as the numbers do. -/
abbrev Uuid := Nat

/-- A point in time, in microseconds. -/
abbrev Timestamp := Int

/-- `timedelta(seconds=count)`. -/
def seconds (count : Int) : Int := count * 1000000

/-! ## Jobs and runs -/

/-- The kinds of queued work. -/
inductive JobType
  | normalize | identityResolve | reconcile | llmExtract | mediaFetch | mediaClassify
  | floorplanMatch | geocode | transitEnrich | commuteEnrich | validate | export
  deriving DecidableEq

/-- The states of a queued job. -/
inductive JobStatus
  | pending | running | succeeded | failedRetryable | failedTerminal | blocked | cancelled
  | cached
  deriving DecidableEq

/-- The verdict on one source's participation in a refresh. -/
inductive SourceRunStatus
  | pending | running | healthy | degraded | failed | blocked | cancelled
  deriving DecidableEq

/-- What started a refresh run. -/
inductive RefreshTriggerType
  | scheduled | manual | replay | retry
  deriving DecidableEq

/-- The state of a refresh run. -/
inductive RefreshRunStatus
  | pending | running | partialSuccess | succeeded | failed | cancelled
  deriving DecidableEq

/-- How a source link's listing was discovered. The absence of a listing from a
search index is never disappearance evidence. -/
inductive DiscoveryMethod
  | direct | searchIndex | manualImport | unknown
  deriving DecidableEq

/-- Whether an observation could be parsed. -/
inductive ParseStatus
  | valid | partialParse | invalid | blocked
  deriving DecidableEq

/-- Whether contact data was removed from a description. -/
inductive ContactRedactionStatus
  | notPresent | ignored | redacted | reviewRequired
  deriving DecidableEq

/-! ## Locations -/

/-- How precisely an address was located. -/
inductive LocationPrecision
  | rooftopOrEntrance | building | parcel | interpolatedAddress | street | postalCode
  | neighborhood | city | unknown
  deriving DecidableEq

/-- Whether an address lies inside the covered area. -/
inductive BoundaryStatus
  | inScope | outOfScope | unresolved
  deriving DecidableEq

/-- Where the geocoding of an address stands. -/
inductive GeocodeStatus
  | pending | valid | warning | failed | manual
  deriving DecidableEq

/-- What a provider is asked for. -/
inductive ProviderRequestType
  | geocode | walkingRoute | transitRoute | other
  deriving DecidableEq

/-! ## Listings and links -/

/-- Layout classes; the covered ones are the studio and the one- and two-bedroom. -/
inductive LayoutClass
  | studio | oneBedroom | twoBedroom | outOfScope | unknown | conflicting
  deriving DecidableEq

/-- What the sources say about availability. -/
inductive AvailabilityStatus
  | available | availableFuture | applicationPending | noLongerAvailable | sourceRemoved
  | unknown | conflicting
  deriving DecidableEq

/-- What the sources say about laundry. -/
inductive LaundryType
  | inUnitWasherDryerConfirmed | inUnitWasherOnly | inUnitDryerOnly | inUnitHookupOnly
  | buildingSharedLaundry | offsiteOrNearbyLaundry | noLaundryStated | explicitlyNoLaundry
  | conflicting | unknown
  deriving DecidableEq

/-- The lifecycle of a canonical listing. -/
inductive LifecycleStatus
  | candidate | active | missing | inactive | reappeared | excluded | merged | reviewRequired
  deriving DecidableEq

/-- Whether the identity of a canonical listing is settled. -/
inductive CanonicalResolutionStatus
  | resolved | provisional | conflicting | reviewRequired
  deriving DecidableEq

/-- Whether a source still shows a linked listing. -/
inductive LinkStatus
  | active | missing | removed | superseded | conflicting
  deriving DecidableEq

/-- The rule by which a link was attached to its listing. -/
inductive IdentityMethod
  | sourceNativeContinuity | exactAddressAndUnit | exactBuildingUnitLayout | strongMultiField
  | probabilisticReviewed | manual | unresolved
  deriving DecidableEq

/-- How strong the rule that attached a link is. -/
inductive IdentityConfidence
  | high | medium | low | manual
  deriving DecidableEq

/-- The kinds of listing events. -/
inductive ListingEventType
  | created | activated | materialChange | priceChanged | availabilityChanged | mediaChanged
  | laundryChanged | addressChanged | missingStarted | reappeared | inactivated | excluded
  | merged | manualOverrideApplied | manualOverrideRemoved
  deriving DecidableEq

/-! ## Providers and media -/

/-- How a request to a provider ended. -/
inductive ProviderRequestStatus
  | pending | succeeded | failed | cached | rateLimited
  deriving DecidableEq

/-- How the execution of a model task ended. -/
inductive ModelExecutionStatus
  | pending | succeeded | failed | cached | escalated
  deriving DecidableEq

/-- The kinds of media. -/
inductive MediaType
  | unitPhoto | buildingPhoto | amenityPhoto | neighborhoodPhoto | floorPlan | map | logo | other
  | unknown
  deriving DecidableEq

/-- Whether a media file is only referenced or also stored. -/
inductive MediaAvailabilityStatus
  | referenced | stored | expired | removed | failed | policyRestricted
  deriving DecidableEq

/-- What a media file is associated with, and how firmly its source says so. -/
inductive AssociationLevel
  | exactUnitSourceConfirmed | sourceUnitTypeConfirmed | buildingLayoutClass | buildingGeneral
  | listingSourceAssociated | uncertainCandidate
  deriving DecidableEq

/-- Whether an association of a media file is settled. -/
inductive AssociationStatus
  | confirmed | provisional | candidate | rejected | conflicting
  deriving DecidableEq

/-! ## Merges and duplicates -/

/-- Why two listings were merged. -/
inductive MergeReasonCode
  | duplicateExact | duplicateProbabilistic | manual
  deriving DecidableEq

/-- Who performed a merge. -/
inductive PerformedByType
  | system | llmProposedValidated | human
  deriving DecidableEq

/-- The state of a proposed duplicate pair. -/
inductive DuplicateCandidateStatus
  | pending | autoMerged | confirmedDuplicate | confirmedDistinct | deferred
  deriving DecidableEq

/-- Who performed a write. -/
inductive ActorType
  | human | system
  deriving DecidableEq

/-! ## Marketing selection and shortlists -/

/-- Whether a target is marketed. -/
inductive SelectionStatus
  | selected | notSelected | removed
  deriving DecidableEq

/-- The text of the status. -/
def SelectionStatus.value : SelectionStatus → String
  | .selected => "SELECTED"
  | .notSelected => "NOT_SELECTED"
  | .removed => "REMOVED"

/-- Whether a target is on the shortlist of a client. -/
inductive ShortlistEntryStatus
  | included | excluded | removed
  deriving DecidableEq

/-- The text of the status. -/
def ShortlistEntryStatus.value : ShortlistEntryStatus → String
  | .included => "INCLUDED"
  | .excluded => "EXCLUDED"
  | .removed => "REMOVED"

/-! ## Facts, overrides and review -/

/-- What a fact, an override or a review issue is about. -/
inductive FactEntityType
  | building | unit | listing | media | transitAccess | commuteResult
  deriving DecidableEq

/-- What an assertion says about its value. -/
inductive ValueStatus
  | asserted | unknown | notStated | notApplicable | negative | conflicting
  deriving DecidableEq

/-- Where an assertion comes from. -/
inductive DerivationType
  | sourceStructured | sourceText | llmDerived | ruleDerived | providerDerived | human
  deriving DecidableEq

/-- Confidence in an assertion. -/
inductive Confidence
  | high | medium | low | unknown
  deriving DecidableEq

/-- The outcome of validating a fact. -/
inductive ValidationStatus
  | pending | passed | warning | failed | notApplicable
  deriving DecidableEq

/-- The state of a fact's current resolution. -/
inductive ResolutionStatus
  | resolved | unknown | conflicting | manualOverride | reviewRequired
  deriving DecidableEq

/-- How a fact was resolved. -/
inductive ResolutionMethod
  | sourcePriority | recency | consensus | rule | llmProposedValidated | human
  deriving DecidableEq

/-- Whether a human override is in force. -/
inductive OverrideStatus
  | active | superseded | revoked | invalidated
  deriving DecidableEq

/-- What a review issue is about. -/
inductive ReviewIssueType
  | conflict | lowConfidence | duplicateCandidate | stale | validationFailure | sourceFailure
  | mediaAssociation | other
  deriving DecidableEq

/-- How severe a review issue is. -/
inductive ReviewIssueSeverity
  | info | warning | blocking
  deriving DecidableEq

/-- Whether a review issue is still open. -/
inductive ReviewIssueStatus
  | open | acknowledged | resolved | dismissed
  deriving DecidableEq

end RentalAgent
