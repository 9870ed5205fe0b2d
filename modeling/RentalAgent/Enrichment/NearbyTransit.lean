import RentalAgent.Enrichment.Transit

/-! # Nearby transit

`NearbyTransitService.enrich_listing` stores, for each mode, the station complexes nearest
to a listing. The rows carry a digest of the origin that they were found from, and they
are reused for as long as the digest of the origin is theirs.
-/

namespace RentalAgent

open Relational

/-! ## Rows -/

/-- Whether a stop is of use to a listing. -/
inductive UsefulnessStatus
  | useful | candidate | notUseful | unresolved
  deriving DecidableEq

/-- A row of `app.transit_access`, with the columns that enrichment fills. -/
structure TransitAccess where
  canonicalListingId : Uuid
  transitStopId : Uuid
  mode : TransitMode
  straightLineDistanceM : Int
  proximityRank : Nat
  usefulnessStatus : UsefulnessStatus
  validationStatus : TransitValidationStatus
  inputLocationHash : String
  datasetVersion : String
  calculatedAt : Timestamp
  deriving DecidableEq

/-- The tables that enrichment works on. `ingested` lists the dataset versions of each
provider in the order of their first ingest, the latest first; the program keeps no such
list. -/
structure NearbyTables where
  listings : List CanonicalListing
  buildings : List Building
  addresses : List Address
  transit : TransitTables
  access : List TransitAccess
  ingested : List (Uuid × String)
  deriving DecidableEq

/-- The tables before anything was written. -/
def NearbyTables.empty : NearbyTables where
  listings := []
  buildings := []
  addresses := []
  transit := ⟨0, [], []⟩
  access := []
  ingested := []

/-- `CANDIDATE_RADII_M`. -/
def candidateRadii : List (TransitMode × Rat) := [(.subway, 1600), (.path, 2000)]

/-- `MAX_CANDIDATES_PER_MODE`. -/
def maxCandidatesPerMode : Nat := 5

/-- A number with six decimals, as text shows it: its sign and its millionths. -/
def sixDecimals (value : Rat) : Bool × Nat :=
  (value < 0, (roundHalfEven (|value| * 1000000)).toNat)

/-- `int` of a number: the fraction is cut off. -/
def wholePart (value : Rat) : Int := value.num.tdiv value.den

/-- What enrichment is set up with: distances, where a scan meets a row, and the digest of an
origin. -/
structure NearbyEnvironment where
  ids : IdSupply
  scan : StopScan
  apart : Function.Injective scan.position
  digest : (Bool × Nat) × (Bool × Nat) × LocationPrecision → String

namespace NearbyTables

/-- The point and the precision of the address of a listing, when it is located. -/
def origin (tables : NearbyTables) (canonicalListingId : Uuid) :
    Option (Point × LocationPrecision) := do
  let listing ← get CanonicalListing.canonicalListingId tables.listings canonicalListingId
  let building ← get Building.buildingId tables.buildings listing.buildingId
  let address ← get Address.addressId tables.addresses building.addressId
  let point ← address.locationPoint
  return (point, address.locationPrecision)

/-- The rows of a listing. -/
def accessRows (tables : NearbyTables) (canonicalListingId : Uuid) : List TransitAccess :=
  tables.access.filter fun row => row.canonicalListingId = canonicalListingId

/-- The digest that the rows of a listing carry. -/
def existingHash (tables : NearbyTables) (canonicalListingId : Uuid) : Option String :=
  (tables.accessRows canonicalListingId).head?.map TransitAccess.inputLocationHash

end NearbyTables

namespace NearbyEnvironment

variable (env : NearbyEnvironment)

/-- The digest of an origin. -/
def locationHash (point : Point) (precision : LocationPrecision) : String :=
  env.digest (sixDecimals point.longitude, sixDecimals point.latitude, precision)

/-- The distance of a stop from a point. -/
def meters (point : Point) (stop : TransitStop) : Rat :=
  env.scan.distance stop.locationPoint point

/-- A station complex of the mode in service within the radius. -/
def candidate (point : Point) (mode : TransitMode) (radius : Rat) (stop : TransitStop) : Bool :=
  stop.mode = mode && env.scan.reaches point radius stop

/-- The nearest candidates, in the order of their distance. -/
def nearestStops (point : Point) (mode : TransitMode) (radius : Rat) (stops : List TransitStop) :
    List TransitStop :=
  Ranking.firstRows (env.scan.before (env.meters point)) (env.candidate point mode radius)
    maxCandidatesPerMode stops

/-- The row of a stop. -/
def accessRow (canonicalListingId : Uuid) (point : Point) (locationHash : String)
    (now : Timestamp) (mode : TransitMode) (ranked : TransitStop × Nat) : TransitAccess where
  canonicalListingId := canonicalListingId
  transitStopId := ranked.1.transitStopId
  mode := mode
  straightLineDistanceM := wholePart (env.meters point ranked.1)
  proximityRank := ranked.2
  usefulnessStatus := .candidate
  validationStatus := .pending
  inputLocationHash := locationHash
  datasetVersion := ranked.1.datasetVersion
  calculatedAt := now

/-- The rows of the nearest candidates of a mode. -/
def modeRows (canonicalListingId : Uuid) (point : Point) (locationHash : String)
    (now : Timestamp) (stops : List TransitStop) (mode : TransitMode × Rat) :
    List TransitAccess :=
  ((env.nearestStops point mode.1 mode.2 stops).zipIdx 1).map
    (env.accessRow canonicalListingId point locationHash now mode.1)

/-- `NearbyTransitService.enrich_listing`, with the number of rows created. -/
def enrichListing (canonicalListingId : Uuid) (now : Timestamp) (tables : NearbyTables) :
    NearbyTables × Nat :=
  match tables.origin canonicalListingId with
  | none => (tables, 0)
  | some (point, precision) =>
      let locationHash := env.locationHash point precision
      let existing := tables.existingHash canonicalListingId
      if existing = some locationHash then (tables, 0)
      else
        let kept := if existing = none then tables.access
          else tables.access.filter fun row => row.canonicalListingId ≠ canonicalListingId
        let created := candidateRadii.flatMap
          (env.modeRows canonicalListingId point locationHash now tables.transit.stops)
        ({ tables with access := kept ++ created }, created.length)

end NearbyEnvironment

/-! ## Histories -/

/-- What happens to the tables: an ingest, a write of others to where listings are, or an
enrichment. -/
inductive NearbyAction
  | ingest (dataset : TransitDataset) (providerSourceId : Uuid)
  | relocate (listings : List CanonicalListing) (buildings : List Building)
      (addresses : List Address)
  | enrich (canonicalListingId : Uuid) (now : Timestamp)

def NearbyEnvironment.step (env : NearbyEnvironment) (tables : NearbyTables) :
    NearbyAction → NearbyTables
  | .ingest dataset providerSourceId =>
      let version := (providerSourceId, dataset.datasetVersion)
      { tables with
        transit := (tables.transit.ingestDataset env.ids dataset providerSourceId).1
        ingested := if version ∈ tables.ingested then tables.ingested
          else version :: tables.ingested }
  | .relocate listings buildings addresses =>
      { tables with listings := listings, buildings := buildings, addresses := addresses }
  | .enrich canonicalListingId now => (env.enrichListing canonicalListingId now tables).1

end RentalAgent
