import RentalAgent.Database
import RentalAgent.Foundation.ForeignKeys

/-! # The declared schema

The tables of the mapped classes and the foreign keys between them.
-/

namespace RentalAgent

open ForeignKeys

/-- The tables, by the module that maps them. -/
inductive Table
  | address | addressAssertion
  | geographicBoundary
  | building | unit | canonicalListing | listingSourceLink | canonicalMerge | duplicateCandidate
  | companyProperty
  | factAssertion | factResolution | amenityDefinition | amenityAssertion | listingEvent
  | listingFieldHistory
  | mediaAsset | mediaVariant | mediaAssociation | mediaAnalysis | mediaDuplicateGroup
  | mediaDuplicateMember
  | providerRequest | modelExecution | job | jobAttempt | jobDependency
  | humanOverride | reviewIssue | marketingSelection | clientSearchPreset | clientShortlistEntry
  | actionLog
  | source | refreshRun | sourceRun | sourceObservation | adapterCheckpoint
  | transitStop | transitRoute | transitStopRoute | transitAccess | transitAccessRoute
  | destination | commuteResult
  deriving DecidableEq

/-- The columns with a foreign key. -/
inductive RefColumn
  | geocoderSourceId | addressId | sourceObservationId | buildingId | unitId | canonicalListingId
  | sourceId | firstObservationId | latestObservationId | sourceListingId | targetListingId
  | listingAId | listingBId | matchedBuildingId | mediaAssetId | providerRequestId
  | modelExecutionId | effectiveAssertionId | amenityDefinitionId | factAssertionId | refreshRunId
  | factResolutionId | listingEventId | canonicalAssetId | mediaDuplicateGroupId | jobId
  | escalatedFromId | dependsOnJobId | companyPropertyId | clientSearchPresetId | sourceRunId
  | providerSourceId | parentStopId | transitStopId | transitRouteId | routeProviderRequestId
  | transitAccessId | destinationId
  deriving DecidableEq

/-- The foreign keys of addresses. -/
def addressesKeys : List (ForeignKey Table RefColumn) :=
  [ ⟨.address, .geocoderSourceId, .source⟩,
    ⟨.addressAssertion, .addressId, .address⟩,
    ⟨.addressAssertion, .sourceObservationId, .sourceObservation⟩ ]

/-- The foreign keys of buildings, listings and merges. -/
def canonicalKeys : List (ForeignKey Table RefColumn) :=
  [ ⟨.building, .addressId, .address⟩,
    ⟨.unit, .buildingId, .building⟩,
    ⟨.canonicalListing, .buildingId, .building⟩,
    ⟨.canonicalListing, .unitId, .unit⟩,
    ⟨.listingSourceLink, .canonicalListingId, .canonicalListing⟩,
    ⟨.listingSourceLink, .sourceId, .source⟩,
    ⟨.listingSourceLink, .firstObservationId, .sourceObservation⟩,
    ⟨.listingSourceLink, .latestObservationId, .sourceObservation⟩,
    ⟨.canonicalMerge, .sourceListingId, .canonicalListing⟩,
    ⟨.canonicalMerge, .targetListingId, .canonicalListing⟩,
    ⟨.duplicateCandidate, .listingAId, .canonicalListing⟩,
    ⟨.duplicateCandidate, .listingBId, .canonicalListing⟩ ]

/-- The foreign keys of the properties of the company. -/
def companyKeys : List (ForeignKey Table RefColumn) :=
  [ ⟨.companyProperty, .matchedBuildingId, .building⟩ ]

/-- The foreign keys of facts and events. -/
def factsKeys : List (ForeignKey Table RefColumn) :=
  [ ⟨.factAssertion, .sourceObservationId, .sourceObservation⟩,
    ⟨.factAssertion, .mediaAssetId, .mediaAsset⟩,
    ⟨.factAssertion, .providerRequestId, .providerRequest⟩,
    ⟨.factAssertion, .modelExecutionId, .modelExecution⟩,
    ⟨.factResolution, .effectiveAssertionId, .factAssertion⟩,
    ⟨.amenityAssertion, .canonicalListingId, .canonicalListing⟩,
    ⟨.amenityAssertion, .amenityDefinitionId, .amenityDefinition⟩,
    ⟨.amenityAssertion, .factAssertionId, .factAssertion⟩,
    ⟨.listingEvent, .canonicalListingId, .canonicalListing⟩,
    ⟨.listingEvent, .refreshRunId, .refreshRun⟩,
    ⟨.listingEvent, .sourceObservationId, .sourceObservation⟩,
    ⟨.listingFieldHistory, .canonicalListingId, .canonicalListing⟩,
    ⟨.listingFieldHistory, .factResolutionId, .factResolution⟩,
    ⟨.listingFieldHistory, .listingEventId, .listingEvent⟩ ]

/-- The foreign keys of media. -/
def mediaKeys : List (ForeignKey Table RefColumn) :=
  [ ⟨.mediaAsset, .sourceId, .source⟩,
    ⟨.mediaAsset, .sourceObservationId, .sourceObservation⟩,
    ⟨.mediaAsset, .modelExecutionId, .modelExecution⟩,
    ⟨.mediaVariant, .mediaAssetId, .mediaAsset⟩,
    ⟨.mediaAssociation, .mediaAssetId, .mediaAsset⟩,
    ⟨.mediaAssociation, .buildingId, .building⟩,
    ⟨.mediaAssociation, .unitId, .unit⟩,
    ⟨.mediaAssociation, .canonicalListingId, .canonicalListing⟩,
    ⟨.mediaAnalysis, .mediaAssetId, .mediaAsset⟩,
    ⟨.mediaAnalysis, .modelExecutionId, .modelExecution⟩,
    ⟨.mediaDuplicateGroup, .canonicalAssetId, .mediaAsset⟩,
    ⟨.mediaDuplicateMember, .mediaDuplicateGroupId, .mediaDuplicateGroup⟩,
    ⟨.mediaDuplicateMember, .mediaAssetId, .mediaAsset⟩ ]

/-- The foreign keys of requests, executions and jobs. -/
def opsKeys : List (ForeignKey Table RefColumn) :=
  [ ⟨.providerRequest, .sourceId, .source⟩,
    ⟨.modelExecution, .jobId, .job⟩,
    ⟨.modelExecution, .escalatedFromId, .modelExecution⟩,
    ⟨.job, .refreshRunId, .refreshRun⟩,
    ⟨.job, .canonicalListingId, .canonicalListing⟩,
    ⟨.jobAttempt, .jobId, .job⟩,
    ⟨.jobDependency, .jobId, .job⟩,
    ⟨.jobDependency, .dependsOnJobId, .job⟩ ]

/-- The foreign keys of selections and shortlists. -/
def reviewKeys : List (ForeignKey Table RefColumn) :=
  [ ⟨.marketingSelection, .canonicalListingId, .canonicalListing⟩,
    ⟨.marketingSelection, .companyPropertyId, .companyProperty⟩,
    ⟨.clientShortlistEntry, .clientSearchPresetId, .clientSearchPreset⟩,
    ⟨.clientShortlistEntry, .canonicalListingId, .canonicalListing⟩,
    ⟨.clientShortlistEntry, .companyPropertyId, .companyProperty⟩ ]

/-- The foreign keys of runs and observations. -/
def sourcesKeys : List (ForeignKey Table RefColumn) :=
  [ ⟨.sourceRun, .refreshRunId, .refreshRun⟩,
    ⟨.sourceRun, .sourceId, .source⟩,
    ⟨.sourceObservation, .sourceId, .source⟩,
    ⟨.sourceObservation, .sourceRunId, .sourceRun⟩,
    ⟨.adapterCheckpoint, .sourceRunId, .sourceRun⟩ ]

/-- The foreign keys of transit and commutes. -/
def transitKeys : List (ForeignKey Table RefColumn) :=
  [ ⟨.transitStop, .providerSourceId, .source⟩,
    ⟨.transitStop, .parentStopId, .transitStop⟩,
    ⟨.transitRoute, .providerSourceId, .source⟩,
    ⟨.transitStopRoute, .transitStopId, .transitStop⟩,
    ⟨.transitStopRoute, .transitRouteId, .transitRoute⟩,
    ⟨.transitAccess, .canonicalListingId, .canonicalListing⟩,
    ⟨.transitAccess, .transitStopId, .transitStop⟩,
    ⟨.transitAccess, .routeProviderRequestId, .providerRequest⟩,
    ⟨.transitAccessRoute, .transitAccessId, .transitAccess⟩,
    ⟨.transitAccessRoute, .transitRouteId, .transitRoute⟩,
    ⟨.destination, .addressId, .address⟩,
    ⟨.commuteResult, .canonicalListingId, .canonicalListing⟩,
    ⟨.commuteResult, .companyPropertyId, .companyProperty⟩,
    ⟨.commuteResult, .destinationId, .destination⟩,
    ⟨.commuteResult, .providerRequestId, .providerRequest⟩,
    ⟨.commuteResult, .modelExecutionId, .modelExecution⟩ ]

/-- All foreign keys. -/
def foreignKeys : List (ForeignKey Table RefColumn) :=
  addressesKeys ++ canonicalKeys ++ companyKeys ++ factsKeys ++ mediaKeys ++ opsKeys ++
    reviewKeys ++ sourcesKeys ++ transitKeys

end RentalAgent
