import Mathlib.Data.List.Sort
import RentalAgent.Database

/-! # Admission of candidates

`AdmissionService.evaluate_candidates` moves candidate and reappeared listings to
`ACTIVE` or `EXCLUDED`, or holds them. The query has a limit and no order, so the
order in which the database scans the joined rows is an argument.
-/

namespace RentalAgent

open Relational

/-- `ADMISSIBLE_LAYOUTS`. -/
def admissibleLayouts : List LayoutClass := [.studio, .oneBedroom, .twoBedroom]

/-- `ACCEPTABLE_PRECISION`. -/
def acceptablePrecision : List LocationPrecision :=
  [.rooftopOrEntrance, .building, .parcel, .interpolatedAddress]

/-- `BLOCKING_RESOLUTION`. -/
def blockingResolution : List CanonicalResolutionStatus := [.conflicting, .reviewRequired]

/-- `ADMISSION_RULE_VERSION`. -/
def admissionRuleVersion : String := "admission-v1"

/-- What `_evaluate_one` returns. -/
inductive AdmissionOutcome
  | activated | excluded | layoutUnresolved | geographyUnresolved | precisionInsufficient
  | identityBlocked | noActiveSourceLink
  deriving DecidableEq

/-- `AdmissionSummary`; the held listings are the outcomes that are neither of the
first two. -/
structure AdmissionSummary where
  evaluated : Nat
  activated : Nat
  excluded : Nat
  reasonsHeld : List AdmissionOutcome
  deriving DecidableEq

def AdmissionSummary.ofOutcomes (outcomes : List AdmissionOutcome) : AdmissionSummary where
  evaluated := outcomes.length
  activated := outcomes.count .activated
  excluded := outcomes.count .excluded
  reasonsHeld := outcomes.filter fun outcome => outcome ≠ .activated ∧ outcome ≠ .excluded

/-- The event `_emit` appends. -/
def admissionEvent (listingId : Uuid) (eventType : ListingEventType) (now : Timestamp)
    (reason : JsonScalar) (id : Uuid) : ListingEvent where
  listingEventId := id
  canonicalListingId := listingId
  eventType := eventType
  eventTime := now
  sourceObservationId := none
  beforeValues := none
  afterValues := some [("rule", .text admissionRuleVersion), ("reason", reason)]
  idempotencyKey := ⟨listingId, eventType, .rule admissionRuleVersion⟩

namespace Database

/-- A link with `LinkStatus.ACTIVE` supports the listing. -/
def hasActiveLink (db : Database) (listingId : Uuid) : Bool :=
  db.links.any fun link => link.canonicalListingId = listingId && link.linkStatus = .active

/-- Writing a verdict and its event. -/
def settle (ids : IdSupply) (now : Timestamp) (listing : CanonicalListing)
    (status : LifecycleStatus) (eventType : ListingEventType) (reason : JsonScalar)
    (db : Database) : Database :=
  ((db.updateListing listing.canonicalListingId fun row =>
      { row with lifecycleStatus := status }).insertEvent ids
    (admissionEvent listing.canonicalListingId eventType now reason)).1

/-- `_evaluate_one`. -/
def evaluateOne (ids : IdSupply) (now : Timestamp) (listing : CanonicalListing)
    (address : Address) (db : Database) : Database × AdmissionOutcome :=
  if listing.layoutClass = .outOfScope ∨ address.boundaryStatus = .outOfScope then
    (db.settle ids now listing .excluded .excluded
      (if listing.layoutClass = .outOfScope then .text "layout_out_of_scope"
        else .text "geography_out_of_scope"), .excluded)
  else if listing.layoutClass ∉ admissibleLayouts then (db, .layoutUnresolved)
  else if address.boundaryStatus ≠ .inScope then (db, .geographyUnresolved)
  else if address.locationPrecision ∉ acceptablePrecision then (db, .precisionInsufficient)
  else if listing.canonicalResolutionStatus ∈ blockingResolution then (db, .identityBlocked)
  else if !db.hasActiveLink listing.canonicalListingId then (db, .noActiveSourceLink)
  else (db.settle ids now listing .active .activated .null, .activated)

/-- The rows of the candidate query: the listing joined with its address. -/
def candidateRows (db : Database) : List (CanonicalListing × Address) :=
  (db.listings.filter fun listing =>
      listing.lifecycleStatus = .candidate || listing.lifecycleStatus = .reappeared).filterMap
    fun listing => do
      let building ← get Building.buildingId db.buildings listing.buildingId
      let address ← get Address.addressId db.addresses building.addressId
      return (listing, address)

/-- `AdmissionService.evaluate_candidates`; `rank` is the order in which the
database scans the rows. -/
def evaluateCandidates (ids : IdSupply) (now : Timestamp) (rank : Uuid → Nat) (limit : Nat)
    (db : Database) : Database × AdmissionSummary :=
  let rows := (db.candidateRows.insertionSort fun first second =>
    rank first.1.canonicalListingId ≤ rank second.1.canonicalListingId).take limit
  let (db, outcomes) := rows.foldl
    (fun (state : Database × List AdmissionOutcome) row =>
      let (db, outcome) := state.1.evaluateOne ids now row.1 row.2
      (db, state.2 ++ [outcome])) (db, [])
  (db, AdmissionSummary.ofOutcomes outcomes)

end Database

end RentalAgent
