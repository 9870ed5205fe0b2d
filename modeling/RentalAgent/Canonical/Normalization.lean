import Mathlib.Data.List.Sort
import RentalAgent.Canonical.Facts
import RentalAgent.Canonical.Fingerprint

/-! # Normalization of observations

`NormalizationService.process_observation` and its steps. An observation with a
known source identity updates the listing of its link; a new identity is
attached to a listing on the same unit, to the only strong match without a unit,
or starts a new listing whose similar neighbours become duplicate candidates.
-/

namespace RentalAgent

open Relational

/-- What the services take from outside: drawn identifiers, Unicode tables, and the
order in which the database scans rows that a query leaves unordered. -/
structure Environment where
  ids : IdSupply
  unicode : UnicodeTables
  scan : Uuid → Nat

/-- `IDENTITY_RULE_VERSION`. -/
def identityRuleVersion : String := "phase3-skeleton-2"

/-- `derive_badge_eligibility`. -/
def deriveBadgeEligibility (laundryType : LaundryType) (validation : ValidationStatus)
    (resolution : ResolutionStatus) (humanConfirmed : Bool := false) : Bool :=
  laundryType = .inUnitWasherDryerConfirmed &&
    (validation = .passed || (validation = .notApplicable && humanConfirmed)) &&
      (resolution = .resolved || resolution = .manualOverride)

/-- `NormalizationOutcome.classification`. -/
inductive Classification
  | new | matchedExisting | unchanged | materialChange | unresolved
  deriving DecidableEq

structure NormalizationOutcome where
  classification : Classification
  canonicalListingId : Option Uuid := none
  listingSourceLinkId : Option Uuid := none
  eventsEmitted : List ListingEventType := []
  deriving DecidableEq

/-! ## What an observation states -/

/-- A text that is present and not empty. -/
def truthy (text : Option String) : Option String := text.filter (· ≠ "")

namespace ParsedSourceObservation

/-- The first geographic label; a municipality is never invented. -/
def locality (observation : ParsedSourceObservation) : String :=
  observation.identity.sourceGeographicLabels.head?.getD "UNRESOLVED"

def administrativeArea (observation : ParsedSourceObservation) : String :=
  if observation.locality ∈ ["Jersey City", "Hoboken", "Fort Lee"] then "NJ" else "NY"

/-- `raw_unit_label or normalized_unit_candidate`, when not empty. -/
def unitLabel (observation : ParsedSourceObservation) : Option String :=
  truthy ((truthy observation.identity.rawUnitLabel).or
    observation.identity.normalizedUnitCandidate)

/-- The rent the observation states. -/
def statedRent (observation : ParsedSourceObservation) : Option Nat :=
  observation.pricing.monthlyRentMinor

/-- The layout the observation states. -/
def statedLayout (observation : ParsedSourceObservation) : Option LayoutClass :=
  if observation.layout.proposedLayoutClass = .unknown then none
  else some observation.layout.proposedLayoutClass

/-- The laundry type the observation states. -/
def statedLaundry (observation : ParsedSourceObservation) : Option LaundryType :=
  if observation.laundry.proposedLaundryType = .unknown then none
  else some observation.laundry.proposedLaundryType

/-- The availability the observation states. -/
def statedAvailability (observation : ParsedSourceObservation) : Option AvailabilityStatus :=
  if observation.availability.proposedStatus = .unknown then none
  else some observation.availability.proposedStatus

end ParsedSourceObservation

/-- A layout that two listings can share as evidence. -/
def LayoutClass.known (layout : LayoutClass) : Bool :=
  layout ≠ .unknown && layout ≠ .conflicting

/-! ## New rows -/

/-- The address of a stated address text. -/
def statedAddress (observation : ParsedSourceObservation) (id : Uuid) (raw fingerprint : String) :
    Address where
  addressId := id
  addressLine1 := some raw
  locality := observation.locality
  administrativeArea := observation.administrativeArea
  formattedAddress := raw
  addressFingerprint := some fingerprint
  locationPrecision := .unknown
  boundaryStatus := .unresolved

/-- The placeholder address of an observation that withholds its address. -/
def withheldAddress (row : SourceObservation) (observation : ParsedSourceObservation) (id : Uuid) :
    Address where
  addressId := id
  addressLine1 := none
  locality := observation.locality
  administrativeArea := observation.administrativeArea
  formattedAddress := "[address unresolved] " ++ row.sourceUrl
  addressFingerprint := some ("unresolved:" ++ row.sourceUrl)
  locationPrecision := .unknown
  boundaryStatus := .unresolved

/-- The listing a new identity starts. -/
def newListing (row : SourceObservation) (observation : ParsedSourceObservation)
    (id buildingId : Uuid) (unitId : Option Uuid) : CanonicalListing where
  canonicalListingId := id
  buildingId := buildingId
  unitId := unitId
  layoutClass := observation.layout.proposedLayoutClass
  monthlyRentMinor := observation.pricing.monthlyRentMinor
  availabilityStatus := observation.availability.proposedStatus
  lifecycleStatus := .candidate
  laundryType := observation.laundry.proposedLaundryType
  indoorLaundryBadgeEligible := false
  descriptionCurrent := observation.description.text
  firstSeenAt := row.observedAt
  lastSeenAt := row.observedAt
  lastMaterialChangeAt := row.observedAt
  inactiveAt := none
  canonicalResolutionStatus := .provisional

/-- The link of a new source identity. -/
def newLink (row : SourceObservation) (discoveryMethod : DiscoveryMethod) (id listingId : Uuid)
    (identityMethod : IdentityMethod) (identityConfidence : IdentityConfidence) :
    ListingSourceLink where
  listingSourceLinkId := id
  canonicalListingId := listingId
  sourceId := row.sourceId
  sourceNativeId := row.sourceNativeId
  sourceUrl := row.sourceUrl
  firstObservationId := row.sourceObservationId
  latestObservationId := row.sourceObservationId
  firstSeenAt := row.observedAt
  lastSeenAt := row.observedAt
  linkStatus := .active
  discoveryMethod := discoveryMethod
  identityMethod := identityMethod
  identityConfidence := identityConfidence
  identityRuleVersion := identityRuleVersion

/-- The event a row causes on a listing. -/
def causedEvent (row : SourceObservation) (id listingId : Uuid) (eventType : ListingEventType)
    (before after : Option JsonObject) : ListingEvent where
  listingEventId := id
  canonicalListingId := listingId
  eventType := eventType
  eventTime := row.observedAt
  sourceObservationId := some row.sourceObservationId
  beforeValues := before
  afterValues := after
  idempotencyKey := ⟨listingId, eventType, .row row.sourceObservationId⟩

/-- The assertions an observation makes about its listing, in source order. -/
def listingFacts (listingId : Uuid) (observation : ParsedSourceObservation)
    (row : SourceObservation) : List FactRecord :=
  (observation.statedRent.map fun rent =>
    { entityType := .listing
      entityId := listingId
      factKey := "monthly_rent_minor"
      valueJson := .number rent
      confidence := .medium
      sourceObservationId := some row.sourceObservationId
      evidenceText := observation.pricing.sourcePriceText : FactRecord }).toList ++
  (observation.statedLayout.map fun layout =>
    { entityType := .listing
      entityId := listingId
      factKey := "layout_class"
      valueJson := .layout layout
      confidence := observation.layout.confidence
      sourceObservationId := some row.sourceObservationId
      evidenceText := observation.layout.rawLayoutText : FactRecord }).toList ++
  (observation.statedLaundry.map fun laundry =>
    { entityType := .listing
      entityId := listingId
      factKey := "laundry_type"
      valueJson := .laundry laundry
      confidence := observation.laundry.confidence
      sourceObservationId := some row.sourceObservationId
      evidenceText := observation.laundry.evidenceText : FactRecord }).toList ++
  (observation.statedAvailability.map fun availability =>
    { entityType := .listing
      entityId := listingId
      factKey := "availability_status"
      valueJson := .availability availability
      confidence := .medium
      sourceObservationId := some row.sourceObservationId
      evidenceText := observation.availability.sourceStatusText : FactRecord }).toList

/-! ## Duplicate candidates -/

/-- The distance of two rents. -/
def rentDelta (first second : Nat) : Nat := ((first : Int) - second).natAbs

/-- `rent_delta <= RENT_SIMILARITY_TOLERANCE * rent`, the product read exactly. -/
def similarRent (rent other : Nat) : Bool := 50 * rentDelta other rent ≤ rent

/-- The pair of two listings, ordered by the text of their ids. -/
def orderedPair (first second : Uuid) : Uuid × Uuid :=
  if first ≤ second then (first, second) else (second, first)

def proposedCandidate (id : Uuid) (pair : Uuid × Uuid) (layout : LayoutClass) (delta : Nat) :
    DuplicateCandidate where
  duplicateCandidateId := id
  listingAId := pair.1
  listingBId := pair.2
  evidence :=
    [("rule", .text "same_building_layout_similar_rent"), ("layout_class", .layout layout),
    ("rent_delta_minor", .number delta), ("tolerance", .text "0.02")]
  ruleVersion := identityRuleVersion
  status := .pending
  resolvedBy := none
  resolvedAt := none

def candidateIssue (id candidateId : Uuid) (pair : Uuid × Uuid) : ReviewIssue where
  reviewIssueId := id
  entityType := .listing
  entityId := pair.1
  issueType := .duplicateCandidate
  severity := .warning
  status := .open
  details := .duplicateCandidate candidateId pair.1 pair.2
  resolvedAt := none
  resolvedBy := none

/-- The listings `_generate_duplicate_candidates` compares a listing with. -/
def CanonicalListing.comparable (listing : CanonicalListing) (buildingId : Uuid)
    (other : CanonicalListing) : Bool :=
  other.buildingId = buildingId && other.canonicalListingId ≠ listing.canonicalListingId &&
    other.layoutClass = listing.layoutClass && other.monthlyRentMinor.isSome &&
      other.lifecycleStatus ≠ .merged

/-- The listings `_strong_multi_field_match` accepts. -/
def strongMatch (links : List ListingSourceLink) (row : SourceObservation) (buildingId : Uuid)
    (layout : LayoutClass) (rent : Nat) (listing : CanonicalListing) : Bool :=
  listing.buildingId = buildingId && listing.layoutClass = layout &&
    listing.monthlyRentMinor = some rent && listing.unitId = none &&
      listing.lifecycleStatus ≠ .merged && listing.lifecycleStatus ≠ .inactive &&
        !links.any fun link =>
          link.canonicalListingId = listing.canonicalListingId && link.sourceId = row.sourceId

/-- What the unit label of an observation leads to: no unit, a unit without a
listing, or a unit with the listing that stands on it. -/
inductive UnitMatch
  | noLabel
  | vacant (unit : BuildingUnit)
  | occupied (unit : BuildingUnit) (listing : CanonicalListing)
  deriving DecidableEq

def UnitMatch.unit : UnitMatch → Option BuildingUnit
  | .noLabel => none
  | .vacant unit => some unit
  | .occupied unit _ => some unit

def UnitMatch.listing : UnitMatch → Option CanonicalListing
  | .noLabel => none
  | .vacant _ => none
  | .occupied _ listing => some listing

namespace Database

/-! ## Identity -/

/-- `_find_link`. -/
def findLink (db : Database) (row : SourceObservation) :
    Except ServiceError (Option ListingSourceLink) :=
  match row.sourceNativeId with
  | some nativeId => scalarOneOrNone .multipleResultsFound (db.links.filter fun link =>
      link.sourceId = row.sourceId && link.sourceNativeId = some nativeId)
  | none => scalarOneOrNone .multipleResultsFound (db.links.filter fun link =>
      link.sourceId = row.sourceId && link.sourceUrl = row.sourceUrl)

/-- The address of an observation, found by fingerprint or added. -/
def resolveAddress (env : Environment) (row : SourceObservation)
    (observation : ParsedSourceObservation) (db : Database) :
    Except ServiceError (Database × Address) :=
  match truthy observation.identity.rawAddressText with
  | some raw => do
      let fingerprint := addressFingerprint env.unicode raw
      match ← scalarOneOrNone .multipleResultsFound
          (db.addresses.filter fun address => address.addressFingerprint = some fingerprint) with
      | some address => return (db, address)
      | none =>
          let address := statedAddress observation (env.ids.uuid db.drawn) raw fingerprint
          return ({ db with drawn := db.drawn + 1, addresses := db.addresses ++ [address] },
            address)
  | none =>
      let address := withheldAddress row observation (env.ids.uuid db.drawn)
      .ok ({ db with drawn := db.drawn + 1, addresses := db.addresses ++ [address] }, address)

/-- The building of an address, found or added. -/
def resolveBuilding (env : Environment) (address : Address) (db : Database) :
    Except ServiceError (Database × Building) := do
  match ← scalarOneOrNone .multipleResultsFound
      (db.buildings.filter fun building => building.addressId = address.addressId) with
  | some building => return (db, building)
  | none =>
      let building : Building := ⟨env.ids.uuid db.drawn, address.addressId⟩
      return ({ db with drawn := db.drawn + 1, buildings := db.buildings ++ [building] }, building)

/-- The most recently seen listing on a unit that is not merged; of several seen
at one time, the one scanned first. -/
def latestListingOn (db : Database) (scan : Uuid → Nat) (unitId : Uuid) :
    Option CanonicalListing :=
  ((db.listings.filter fun listing =>
      listing.unitId = some unitId && listing.lifecycleStatus ≠ .merged).insertionSort
    fun first second => second.lastSeenAt < first.lastSeenAt ∨
      second.lastSeenAt = first.lastSeenAt ∧
        scan first.canonicalListingId ≤ scan second.canonicalListingId).head?

/-- The unit of an observation, found or added, with its listing. -/
def resolveUnit (env : Environment) (building : Building) (observation : ParsedSourceObservation)
    (db : Database) : Except ServiceError (Database × UnitMatch) :=
  match observation.unitLabel with
  | none => .ok (db, .noLabel)
  | some label => do
      let fingerprint := unitFingerprint env.unicode label
      match ← scalarOneOrNone .multipleResultsFound (db.units.filter fun unit =>
          unit.buildingId = building.buildingId && unit.unitFingerprint = some fingerprint) with
      | some unit =>
          match db.latestListingOn env.scan unit.unitId with
          | some listing => return (db, .occupied unit listing)
          | none => return (db, .vacant unit)
      | none =>
          let unit : BuildingUnit :=
            { unitId := env.ids.uuid db.drawn
              buildingId := building.buildingId
              canonicalUnitLabel := some label
              unitFingerprint := some fingerprint
              layoutClass := observation.layout.proposedLayoutClass }
          return ({ db with drawn := db.drawn + 1, units := db.units ++ [unit] }, .vacant unit)

/-- The building and the unit of an observation. -/
def resolvePlace (env : Environment) (row : SourceObservation)
    (observation : ParsedSourceObservation) (db : Database) :
    Except ServiceError (Database × Building × UnitMatch) := do
  let (db, address) ← db.resolveAddress env row observation
  let (db, building) ← db.resolveBuilding env address
  let (db, unitMatch) ← db.resolveUnit env building observation
  return (db, building, unitMatch)

/-- `_strong_multi_field_match`. -/
def strongMultiFieldMatch (building : Building) (observation : ParsedSourceObservation)
    (row : SourceObservation) (db : Database) : Option CanonicalListing :=
  match observation.pricing.monthlyRentMinor with
  | none => none
  | some rent =>
      if observation.layout.proposedLayoutClass.known then
        match db.listings.filter (strongMatch db.links row building.buildingId
            observation.layout.proposedLayoutClass rent) with
        | [listing] => some listing
        | _ => none
      else none

/-! ## Evidence -/

/-- `_emit_event`. -/
def emitEvent (env : Environment) (row : SourceObservation) (listingId : Uuid)
    (eventType : ListingEventType) (before after : Option JsonObject) (db : Database) :
    Database × List ListingEventType :=
  let inserted :=
    db.insertEvent env.ids fun id => causedEvent row id listingId eventType before after
  (inserted.1, if inserted.2.isSome then [eventType] else [])

/-- `_record_listing_facts`. -/
def recordListingFacts (env : Environment) (now : Timestamp) (listingId : Uuid)
    (observation : ParsedSourceObservation) (row : SourceObservation) (db : Database) :
    Except ServiceError Database :=
  (listingFacts listingId observation row).foldlM
    (fun db record => db.recordFact env.ids now record) db

/-- One round of `_generate_duplicate_candidates`. -/
def proposeDuplicate (env : Environment) (listing : CanonicalListing) (rent : Nat) (db : Database)
    (other : CanonicalListing) : Database :=
  match other.monthlyRentMinor with
  | none => db
  | some otherRent =>
      let pair := orderedPair listing.canonicalListingId other.canonicalListingId
      if !similarRent rent otherRent || db.duplicateCandidates.any fun candidate =>
          candidate.listingAId = pair.1 && candidate.listingBId = pair.2 &&
            candidate.ruleVersion = identityRuleVersion then
        db
      else
        { db with
          drawn := db.drawn + 2
          duplicateCandidates := db.duplicateCandidates ++
            [proposedCandidate (env.ids.uuid db.drawn) pair listing.layoutClass
              (rentDelta otherRent rent)]
          reviewIssues := db.reviewIssues ++
            [candidateIssue (env.ids.uuid (db.drawn + 1)) (env.ids.uuid db.drawn) pair] }

/-- `_generate_duplicate_candidates`. -/
def generateDuplicateCandidates (env : Environment) (listing : CanonicalListing)
    (building : Building) (db : Database) : Database :=
  match listing.monthlyRentMinor with
  | none => db
  | some rent =>
      if listing.layoutClass.known then
        (db.listings.filter (listing.comparable building.buildingId)).foldl
          (proposeDuplicate env listing rent) db
      else db

/-! ## New identities -/

/-- `_attach_cross_source_link`. -/
def attachCrossSourceLink (env : Environment) (row : SourceObservation)
    (listing : CanonicalListing) (discoveryMethod : DiscoveryMethod)
    (identityMethod : IdentityMethod) (identityConfidence : IdentityConfidence) (db : Database) :
    Database × NormalizationOutcome :=
  let link := newLink row discoveryMethod (env.ids.uuid db.drawn) listing.canonicalListingId
    identityMethod identityConfidence
  ((db.insertLink link).updateListing listing.canonicalListingId fun listing =>
      { listing with lastSeenAt := max listing.lastSeenAt row.observedAt },
    { classification := .matchedExisting
      canonicalListingId := some listing.canonicalListingId
      listingSourceLinkId := some link.listingSourceLinkId })

/-- The new canonical chain of `_create_canonical`. -/
def startListing (env : Environment) (now : Timestamp) (row : SourceObservation)
    (observation : ParsedSourceObservation) (discoveryMethod : DiscoveryMethod)
    (building : Building) (unitId : Option Uuid) (db : Database) :
    Except ServiceError (Database × NormalizationOutcome) := do
  let listing := newListing row observation (env.ids.uuid db.drawn) building.buildingId unitId
  let link := newLink row discoveryMethod (env.ids.uuid (db.drawn + 1)) listing.canonicalListingId
    .sourceNativeContinuity .high
  let db := (db.insertListing listing).insertLink link
  let (db, emitted) := db.emitEvent env row listing.canonicalListingId .created none
    (some [("lifecycle_status", .lifecycle listing.lifecycleStatus)])
  let db ← db.recordListingFacts env now listing.canonicalListingId observation row
  let db := db.generateDuplicateCandidates env listing building
  return (db,
    { classification := .new
      canonicalListingId := some listing.canonicalListingId
      listingSourceLinkId := some link.listingSourceLinkId
      eventsEmitted := emitted })

/-- `_create_canonical`. -/
def createCanonical (env : Environment) (now : Timestamp) (row : SourceObservation)
    (observation : ParsedSourceObservation) (discoveryMethod : DiscoveryMethod) (db : Database) :
    Except ServiceError (Database × NormalizationOutcome) := do
  let (db, building, unitMatch) ← db.resolvePlace env row observation
  match unitMatch with
  | .occupied _ listing =>
      return db.attachCrossSourceLink env row listing discoveryMethod .exactAddressAndUnit .high
  | .vacant unit =>
      db.startListing env now row observation discoveryMethod building (some unit.unitId)
  | .noLabel =>
      match db.strongMultiFieldMatch building observation row with
      | some listing =>
          return db.attachCrossSourceLink env row listing discoveryMethod .strongMultiField .medium
      | none => db.startListing env now row observation discoveryMethod building none

/-! ## Known identities -/

/-- `_touch_freshness`. -/
def touchFreshness (link : ListingSourceLink) (listing : CanonicalListing)
    (row : SourceObservation) (db : Database) : Database :=
  let db :=
    if link.lastSeenAt ≤ row.observedAt then
      db.updateLink link.listingSourceLinkId fun link =>
        { link with
          lastSeenAt := row.observedAt
          latestObservationId := row.sourceObservationId }
    else db
  db.updateListing listing.canonicalListingId fun listing =>
    { listing with lastSeenAt := max listing.lastSeenAt row.observedAt }

/-- The latest observation of the link has the content of the row. -/
def sameContent (db : Database) (link : ListingSourceLink) (row : SourceObservation) : Bool :=
  (db.observation? link.latestObservationId).any fun previous =>
    previous.contentHash = row.contentHash

/-- One field of `_update_existing`: a stated value that differs from the
listing's is written with its event, unless an active override governs the field;
the override outranks the value and a disagreement with it is surfaced. -/
def applyField (env : Environment) (row : SourceObservation) (listing : CanonicalListing)
    (factKey : String) (eventType : ListingEventType) (stated : Option JsonScalar)
    (current : JsonScalar) (write : CanonicalListing → CanonicalListing)
    (state : Database × List ListingEventType) :
    Except ServiceError (Database × List ListingEventType) :=
  let (db, emitted) := state
  match stated with
  | none => .ok (db, emitted)
  | some incoming =>
      if incoming = current then .ok (db, emitted)
      else do
        match ← db.activeOverride .listing listing.canonicalListingId factKey with
        | some override =>
            if incoming = override.overrideValue then return (db, emitted)
            else
              return (db.raiseConflictWithOverride env.ids override listing.canonicalListingId
                factKey incoming, emitted)
        | none =>
            let (db, events) := db.emitEvent env row listing.canonicalListingId eventType
              (some [(factKey, current)]) (some [(factKey, incoming)])
            return (db.updateListing listing.canonicalListingId write, emitted ++ events)

/-- The rent part of `_update_existing`. -/
def applyRent (env : Environment) (row : SourceObservation) (observation : ParsedSourceObservation)
    (listing : CanonicalListing) : Database × List ListingEventType →
      Except ServiceError (Database × List ListingEventType) :=
  applyField env row listing "monthly_rent_minor" .priceChanged
    (observation.statedRent.map .number) (listing.monthlyRentMinor.elim .null .number)
    fun listing => { listing with monthlyRentMinor := observation.statedRent }

/-- The availability part of `_update_existing`. -/
def applyAvailability (env : Environment) (row : SourceObservation)
    (observation : ParsedSourceObservation) (listing : CanonicalListing) :
    Database × List ListingEventType → Except ServiceError (Database × List ListingEventType) :=
  applyField env row listing "availability_status" .availabilityChanged
    (observation.statedAvailability.map .availability) (.availability listing.availabilityStatus)
    fun listing => { listing with availabilityStatus := observation.availability.proposedStatus }

/-- The laundry part of `_update_existing`: the badge stays derived. -/
def applyLaundry (env : Environment) (row : SourceObservation)
    (observation : ParsedSourceObservation) (listing : CanonicalListing) :
    Database × List ListingEventType → Except ServiceError (Database × List ListingEventType) :=
  applyField env row listing "laundry_type" .laundryChanged
    (observation.statedLaundry.map .laundry) (.laundry listing.laundryType)
    fun listing => { listing with
      laundryType := observation.laundry.proposedLaundryType
      indoorLaundryBadgeEligible :=
        deriveBadgeEligibility observation.laundry.proposedLaundryType .pending .resolved }

/-- `_update_existing`. -/
def updateExisting (env : Environment) (now : Timestamp) (row : SourceObservation)
    (observation : ParsedSourceObservation) (link : ListingSourceLink) (db : Database) :
    Except ServiceError (Database × NormalizationOutcome) :=
  match db.listing? link.canonicalListingId with
  | none => .error .assertionError
  | some listing =>
      let outcome (classification : Classification) (emitted : List ListingEventType) :
          NormalizationOutcome :=
        { classification := classification
          canonicalListingId := some listing.canonicalListingId
          listingSourceLinkId := some link.listingSourceLinkId
          eventsEmitted := emitted }
      if link.latestObservationId = row.sourceObservationId then .ok (db, outcome .unchanged [])
      else
        let touched := db.touchFreshness link listing row
        if db.sameContent link row then .ok (touched, outcome .unchanged [])
        else do
          let db ← touched.recordListingFacts env now listing.canonicalListingId observation row
          let state ← applyRent env row observation listing (db, [])
          let state ← applyAvailability env row observation listing state
          let (db, emitted) ← applyLaundry env row observation listing state
          if emitted = [] then return (db, outcome .unchanged [])
          else
            return (db.updateListing listing.canonicalListingId fun listing =>
                { listing with lastMaterialChangeAt := row.observedAt },
              outcome .materialChange emitted)

/-- `process_observation`. -/
def processObservation (env : Environment) (now : Timestamp) (discoveryMethod : DiscoveryMethod)
    (observationId : Uuid) (db : Database) :
    Except ServiceError (Database × NormalizationOutcome) :=
  match db.observation? observationId with
  | none => .error .lookupError
  | some row =>
      if row.parseStatus ≠ .valid ∧ row.parseStatus ≠ .partialParse then
        .ok (db, { classification := .unresolved })
      else do
        match ← db.findLink row with
        | none => db.createCanonical env now row row.parsedPayload discoveryMethod
        | some link => db.updateExisting env now row row.parsedPayload link

end Database

end RentalAgent
