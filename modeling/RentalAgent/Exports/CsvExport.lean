import RentalAgent.Canonical.Selection
import RentalAgent.Enrichment.Commute
import RentalAgent.Enrichment.WalkingTimes
import RentalAgent.Foundation.Csv

/-! # The export of listings

`export_listings` writes five files: the listings asked for with their addresses, and for them
the links to their sources, the ways to transit, the commutes and the history. Every cell
passes `_safe`, which puts an apostrophe before a text that a spreadsheet could take for a
formula. A number is written only when it is true in Python's sense, so a stored zero is written
as nothing at all.
-/

namespace RentalAgent

open Relational

/-! ## Texts -/

/-- The first character of a text is of a kind. -/
def Opens (kind : Char → Bool) (text : String) : Bool := text.toList.head?.any kind

/-- `str` of what is no text in Python: identifiers, moments and objects, and the quotient of an
amount of cents by a hundred, which is a float. Only the first character matters here. -/
structure PythonTexts where
  uuid : Uuid → String
  isoformat : Timestamp → String
  dict : JsonObject → String
  dollars : Nat → String
  uuid_opens : ∀ id, Opens Char.isAlphanum (uuid id) = true
  isoformat_opens : ∀ moment, Opens Char.isDigit (isoformat moment) = true
  dict_opens : ∀ object, Opens (· = Char.ofNat 123) (dict object) = true
  dollars_opens : ∀ minor, Opens Char.isDigit (dollars minor) = true

/-- The members of an enumeration have texts that begin with a capital letter. -/
class StrEnum (Member : Type) where
  value : Member → String
  capital : ∀ member, Opens Char.isUpper (value member) = true

/-- The column `enrichment_status` of a listing. -/
inductive ListingEnrichmentStatus
  | notStarted | pending | inPart | complete | stale | failed | reviewRequired
  deriving DecidableEq

def LocationPrecision.value : LocationPrecision → String
  | .rooftopOrEntrance => "ROOFTOP_OR_ENTRANCE"
  | .building => "BUILDING"
  | .parcel => "PARCEL"
  | .interpolatedAddress => "INTERPOLATED_ADDRESS"
  | .street => "STREET"
  | .postalCode => "POSTAL_CODE"
  | .neighborhood => "NEIGHBORHOOD"
  | .city => "CITY"
  | .unknown => "UNKNOWN"

def BoundaryStatus.value : BoundaryStatus → String
  | .inScope => "IN_SCOPE"
  | .outOfScope => "OUT_OF_SCOPE"
  | .unresolved => "UNRESOLVED"

def DiscoveryMethod.value : DiscoveryMethod → String
  | .direct => "DIRECT"
  | .searchIndex => "SEARCH_INDEX"
  | .manualImport => "MANUAL_IMPORT"
  | .unknown => "UNKNOWN"

def LayoutClass.value : LayoutClass → String
  | .studio => "STUDIO"
  | .oneBedroom => "ONE_BEDROOM"
  | .twoBedroom => "TWO_BEDROOM"
  | .outOfScope => "OUT_OF_SCOPE"
  | .unknown => "UNKNOWN"
  | .conflicting => "CONFLICTING"

def AvailabilityStatus.value : AvailabilityStatus → String
  | .available => "AVAILABLE"
  | .availableFuture => "AVAILABLE_FUTURE"
  | .applicationPending => "APPLICATION_PENDING"
  | .noLongerAvailable => "NO_LONGER_AVAILABLE"
  | .sourceRemoved => "SOURCE_REMOVED"
  | .unknown => "UNKNOWN"
  | .conflicting => "CONFLICTING"

def LifecycleStatus.value : LifecycleStatus → String
  | .candidate => "CANDIDATE"
  | .active => "ACTIVE"
  | .missing => "MISSING"
  | .inactive => "INACTIVE"
  | .reappeared => "REAPPEARED"
  | .excluded => "EXCLUDED"
  | .merged => "MERGED"
  | .reviewRequired => "REVIEW_REQUIRED"

def LinkStatus.value : LinkStatus → String
  | .active => "ACTIVE"
  | .missing => "MISSING"
  | .removed => "REMOVED"
  | .superseded => "SUPERSEDED"
  | .conflicting => "CONFLICTING"

def IdentityMethod.value : IdentityMethod → String
  | .sourceNativeContinuity => "SOURCE_NATIVE_CONTINUITY"
  | .exactAddressAndUnit => "EXACT_ADDRESS_AND_UNIT"
  | .exactBuildingUnitLayout => "EXACT_BUILDING_UNIT_LAYOUT"
  | .strongMultiField => "STRONG_MULTI_FIELD"
  | .probabilisticReviewed => "PROBABILISTIC_REVIEWED"
  | .manual => "MANUAL"
  | .unresolved => "UNRESOLVED"

def Confidence.value : Confidence → String
  | .high => "HIGH"
  | .medium => "MEDIUM"
  | .low => "LOW"
  | .unknown => "UNKNOWN"

def ListingEventType.value : ListingEventType → String
  | .created => "CREATED"
  | .activated => "ACTIVATED"
  | .materialChange => "MATERIAL_CHANGE"
  | .priceChanged => "PRICE_CHANGED"
  | .availabilityChanged => "AVAILABILITY_CHANGED"
  | .mediaChanged => "MEDIA_CHANGED"
  | .laundryChanged => "LAUNDRY_CHANGED"
  | .addressChanged => "ADDRESS_CHANGED"
  | .missingStarted => "MISSING_STARTED"
  | .reappeared => "REAPPEARED"
  | .inactivated => "INACTIVATED"
  | .excluded => "EXCLUDED"
  | .merged => "MERGED"
  | .manualOverrideApplied => "MANUAL_OVERRIDE_APPLIED"
  | .manualOverrideRemoved => "MANUAL_OVERRIDE_REMOVED"

def UsefulnessStatus.value : UsefulnessStatus → String
  | .useful => "USEFUL"
  | .candidate => "CANDIDATE"
  | .notUseful => "NOT_USEFUL"
  | .unresolved => "UNRESOLVED"

def TransitValidationStatus.value : TransitValidationStatus → String
  | .pending => "PENDING"
  | .passed => "PASSED"
  | .warning => "WARNING"
  | .failed => "FAILED"
  | .unableToValidate => "UNABLE_TO_VALIDATE"

def CommuteResultType.value : CommuteResultType → String
  | .providerRoute => "PROVIDER_ROUTE"
  | .researchedEstimate => "RESEARCHED_ESTIMATE"

def ListingEnrichmentStatus.value : ListingEnrichmentStatus → String
  | .notStarted => "NOT_STARTED"
  | .pending => "PENDING"
  | .inPart => "PARTIAL"
  | .complete => "COMPLETE"
  | .stale => "STALE"
  | .failed => "FAILED"
  | .reviewRequired => "REVIEW_REQUIRED"

instance : StrEnum LocationPrecision :=
  ⟨LocationPrecision.value, fun member => by cases member <;> rfl⟩
instance : StrEnum BoundaryStatus := ⟨BoundaryStatus.value, fun member => by cases member <;> rfl⟩
instance : StrEnum DiscoveryMethod := ⟨DiscoveryMethod.value, fun member => by cases member <;> rfl⟩
instance : StrEnum LayoutClass := ⟨LayoutClass.value, fun member => by cases member <;> rfl⟩
instance : StrEnum AvailabilityStatus :=
  ⟨AvailabilityStatus.value, fun member => by cases member <;> rfl⟩
instance : StrEnum LifecycleStatus := ⟨LifecycleStatus.value, fun member => by cases member <;> rfl⟩
instance : StrEnum LinkStatus := ⟨LinkStatus.value, fun member => by cases member <;> rfl⟩
instance : StrEnum IdentityMethod := ⟨IdentityMethod.value, fun member => by cases member <;> rfl⟩
instance : StrEnum Confidence := ⟨Confidence.value, fun member => by cases member <;> rfl⟩
instance : StrEnum ListingEventType :=
  ⟨ListingEventType.value, fun member => by cases member <;> rfl⟩
instance : StrEnum UsefulnessStatus :=
  ⟨UsefulnessStatus.value, fun member => by cases member <;> rfl⟩
instance : StrEnum TransitValidationStatus :=
  ⟨TransitValidationStatus.value, fun member => by cases member <;> rfl⟩
instance : StrEnum CommuteResultType :=
  ⟨CommuteResultType.value, fun member => by cases member <;> rfl⟩
instance : StrEnum ListingEnrichmentStatus :=
  ⟨ListingEnrichmentStatus.value, fun member => by cases member <;> rfl⟩
instance : StrEnum LaundryType := ⟨LaundryType.value, fun member => by cases member <;> rfl⟩
instance : StrEnum TransitMode := ⟨TransitMode.value, fun member => by cases member <;> rfl⟩

/-! ## Cells -/

/-- What a cell holds before it is a text. -/
inductive Cell
  | null
  | text (value : String)
  | member (value : String) (capital : Opens Char.isUpper value = true)
  | uuid (id : Uuid)
  | integer (value : Int)
  /-- A decimal with one digit behind the point. -/
  | decimal (tenths : Int)
  /-- An amount of cents over a hundred. -/
  | dollars (minor : Nat)
  | boolean (value : Bool)
  | isoformat (moment : Timestamp)
  | dict (object : JsonObject)

namespace Cell

/-- A member of an enumeration. -/
def ofMember {Member : Type} [StrEnum Member] (member : Member) : Cell :=
  .member (StrEnum.value member) (StrEnum.capital member)

/-- A column that may be null. -/
def nullable {Value : Type} (cell : Value → Cell) : Option Value → Cell
  | none => .null
  | some value => cell value

/-- `cell(value) if value else None`, for a number. -/
def whenTrue (cell : Nat → Cell) : Option Nat → Cell
  | none => .null
  | some value => if value = 0 then .null else cell value

/-- The text of a decimal. -/
def decimalText (tenths : Int) : String :=
  (if tenths < 0 then "-" else "") ++ toString (tenths.natAbs / 10) ++ "." ++
    toString (tenths.natAbs % 10)

/-- `"" if value is None else str(value)`. -/
def str (texts : PythonTexts) : Cell → String
  | .null => ""
  | .text value => value
  | .member value _ => value
  | .uuid id => texts.uuid id
  | .integer value => toString value
  | .decimal tenths => decimalText tenths
  | .dollars minor => texts.dollars minor
  | .boolean value => if value then "True" else "False"
  | .isoformat moment => texts.isoformat moment
  | .dict object => texts.dict object

end Cell

/-- `_FORMULA_PREFIXES`. -/
def formulaPrefixes : List Char := ['=', '+', '-', '@', '\t']

/-- `_safe`. -/
def safe (texts : PythonTexts) (cell : Cell) : List Char :=
  if Opens (formulaPrefixes.contains ·) (cell.str texts) then
    Char.ofNat 39 :: (cell.str texts).toList
  else (cell.str texts).toList

/-- A file with its header, and the cells of its rows. -/
structure ExportedFile where
  fileName : String
  header : List String
  rows : List (List Cell)

/-- `_write`. -/
def ExportedFile.written (texts : PythonTexts) (file : ExportedFile) : List Char :=
  Csv.write (file.header.map String.toList :: file.rows.map fun row => row.map (safe texts))

/-! ## Tables -/

/-- A row of `app.canonical_listing`, with the columns that only the export reads. -/
structure ExportedListing extends CanonicalListing where
  bedroomCount : Option Int
  bathroomCount : Option Int
  currencyCode : String
  enrichmentStatus : ListingEnrichmentStatus
  deriving DecidableEq

/-- The tables of the export. -/
structure ExportTables where
  listings : List ExportedListing
  buildings : List Building
  addresses : List Address
  selections : List MarketingSelection
  links : List ListingSourceLink
  sources : List Source
  access : List RoutedAccess
  stops : List TransitStop
  commutes : List CommuteResult
  destinations : List Destination
  events : List ListingEvent

/-- A listing with its address and its selection. -/
structure ListingRow where
  listing : ExportedListing
  address : Address
  selection : Option SelectionStatus

/-- A link with its source. -/
structure SourceRow where
  link : ListingSourceLink
  source : Source

/-- A way with its stop. -/
structure TransitRow where
  access : RoutedAccess
  stop : TransitStop

/-- A commute with its destination. -/
structure CommuteRow where
  result : CommuteResult
  destination : Destination

namespace ExportTables

variable (position : Uuid → Nat) (tables : ExportTables)

/-- The listings with their addresses; a listing without a selection has none, as an outer join
does it. -/
def listingRows (listingIds : Option (List Uuid)) : List ListingRow :=
  (tables.listings.filter fun listing =>
      listingIds.all fun ids => ids.contains listing.canonicalListingId).flatMap fun listing =>
    match (get Building.buildingId tables.buildings listing.buildingId).bind fun building =>
        get Address.addressId tables.addresses building.addressId with
    | none => []
    | some address =>
        match tables.selections.filter fun selection =>
            selection.target = .listing listing.canonicalListingId with
        | [] => [⟨listing, address, none⟩]
        | selections =>
            selections.map fun selection => ⟨listing, address, some selection.selectionStatus⟩

/-- The identifiers of the listings in the first file. -/
def exportedIds (listingIds : Option (List Uuid)) : List Uuid :=
  (tables.listingRows listingIds).map fun row => row.listing.canonicalListingId

def sourceRows (ids : List Uuid) : List SourceRow :=
  (tables.links.filter fun link => ids.contains link.canonicalListingId).filterMap fun link =>
    (get Source.sourceId tables.sources link.sourceId).map (SourceRow.mk link)

/-- `ORDER BY canonical_listing_id, mode, proximity_rank`. -/
def accessBefore (first second : RoutedAccess) : Prop :=
  first.canonicalListingId < second.canonicalListingId ∨
    first.canonicalListingId = second.canonicalListingId ∧ first.before position second

instance : DecidableRel (accessBefore position) :=
  fun _ _ => inferInstanceAs (Decidable (_ ∨ _ ∧ _))

def transitRows (ids : List Uuid) : List TransitRow :=
  ((tables.access.filter fun access => ids.contains access.canonicalListingId).insertionSort
    (accessBefore position)).filterMap fun access =>
      (get TransitStop.transitStopId tables.stops access.transitStopId).map (TransitRow.mk access)

def commuteRows (ids : List Uuid) : List CommuteRow :=
  (tables.commutes.filter fun result =>
      result.canonicalListingId.any fun id => ids.contains id).filterMap fun result =>
    (get Destination.destinationId tables.destinations result.destinationId).map
      (CommuteRow.mk result)

/-- `ORDER BY canonical_listing_id, event_time`; rows that it does not order stay as the scan
meets them. -/
def eventBefore (first second : ListingEvent) : Prop :=
  first.canonicalListingId < second.canonicalListingId ∨
    first.canonicalListingId = second.canonicalListingId ∧
      (first.eventTime < second.eventTime ∨ first.eventTime = second.eventTime ∧
        position first.listingEventId ≤ position second.listingEventId)

instance : DecidableRel (eventBefore position) :=
  fun _ _ => inferInstanceAs (Decidable (_ ∨ _ ∧ (_ ∨ _ ∧ _)))

def eventRows (ids : List Uuid) : List ListingEvent :=
  (tables.events.filter fun event => ids.contains event.canonicalListingId).insertionSort
    (eventBefore position)

/-- The tables that `transit_for_listing` reads. -/
def walks : WalkTables where
  nearby :=
    { listings := tables.listings.map fun listing => listing.toCanonicalListing
      buildings := tables.buildings
      addresses := tables.addresses
      transit := ⟨0, tables.stops, []⟩
      access := tables.access.map fun access => access.toTransitAccess
      ingested := [] }
  access := tables.access

end ExportTables

/-! ## Rows of the files -/

namespace ListingRow

def header : List String :=
  ["canonical_listing_id", "address", "locality", "borough", "boundary_status", "layout_class",
    "bedrooms", "bathrooms", "monthly_rent_dollars", "currency", "availability_status",
    "lifecycle_status", "laundry_type", "indoor_laundry_badge_eligible", "location_precision",
    "first_seen_at", "last_seen_at", "last_material_change_at", "enrichment_status",
    "marketing_selected"]

def cells (row : ListingRow) : List Cell :=
  [.uuid row.listing.canonicalListingId,
    .text row.address.formattedAddress,
    .text row.address.locality,
    .nullable .text row.address.borough,
    .ofMember row.address.boundaryStatus,
    .ofMember row.listing.layoutClass,
    .nullable .decimal row.listing.bedroomCount,
    .nullable .decimal row.listing.bathroomCount,
    .whenTrue .dollars row.listing.monthlyRentMinor,
    .text row.listing.currencyCode,
    .ofMember row.listing.availabilityStatus,
    .ofMember row.listing.lifecycleStatus,
    .ofMember row.listing.laundryType,
    .boolean row.listing.indoorLaundryBadgeEligible,
    .ofMember row.address.locationPrecision,
    .isoformat row.listing.firstSeenAt,
    .isoformat row.listing.lastSeenAt,
    .isoformat row.listing.lastMaterialChangeAt,
    .ofMember row.listing.enrichmentStatus,
    .boolean (row.selection = some .selected)]

end ListingRow

namespace SourceRow

def header : List String :=
  ["canonical_listing_id", "source_code", "source_url", "discovery_method", "link_status",
    "identity_method", "first_seen_at", "last_seen_at"]

def cells (row : SourceRow) : List Cell :=
  [.uuid row.link.canonicalListingId,
    .text row.source.sourceCode,
    .text row.link.sourceUrl,
    .ofMember row.link.discoveryMethod,
    .ofMember row.link.linkStatus,
    .ofMember row.link.identityMethod,
    .isoformat row.link.firstSeenAt,
    .isoformat row.link.lastSeenAt]

end SourceRow

namespace TransitRow

def header : List String :=
  ["canonical_listing_id", "mode", "station", "operator", "straight_line_m", "walking_m",
    "walking_minutes", "proximity_rank", "usefulness_status", "validation_status"]

def cells (row : TransitRow) : List Cell :=
  [.uuid row.access.canonicalListingId,
    .ofMember row.access.mode,
    .text row.stop.stopName,
    .text row.stop.operatorCode,
    .integer row.access.straightLineDistanceM,
    .nullable (fun meters : Nat => .integer meters) row.access.walkingDistanceM,
    .whenTrue (fun seconds => .integer (seconds / 60 : Nat)) row.access.walkingDurationS,
    .integer row.access.proximityRank,
    .ofMember row.access.usefulnessStatus,
    .ofMember row.access.validationStatus]

end TransitRow

namespace CommuteRow

def header : List String :=
  ["canonical_listing_id", "destination_code", "destination", "result_type",
    "duration_min_minutes", "duration_max_minutes", "transfers", "confidence",
    "validation_status", "source_urls", "calculated_at", "expires_at"]

def cells (row : CommuteRow) : List Cell :=
  [.nullable .uuid row.result.canonicalListingId,
    .text row.destination.destinationCode,
    .text row.destination.displayName,
    .ofMember row.result.resultType,
    .whenTrue (fun seconds => .integer (seconds / 60 : Nat)) row.result.durationMinS,
    .whenTrue (fun seconds => .integer (seconds / 60 : Nat)) row.result.durationMaxS,
    .nullable (fun transfers : Nat => .integer transfers) row.result.transferCount,
    .ofMember row.result.confidence,
    .ofMember row.result.validationStatus,
    .text (" | ".intercalate (row.result.sources.map ResearchSource.url)),
    .isoformat row.result.calculatedAt,
    .nullable .isoformat row.result.expiresAt]

end CommuteRow

def eventHeader : List String :=
  ["canonical_listing_id", "event_type", "event_time", "before", "after"]

def eventCells (event : ListingEvent) : List Cell :=
  [.uuid event.canonicalListingId,
    .ofMember event.eventType,
    .isoformat event.eventTime,
    .nullable .dict event.beforeValues,
    .nullable .dict event.afterValues]

/-! ## The files -/

def listingsFile (rows : List ListingRow) : ExportedFile :=
  ⟨"listings.csv", ListingRow.header, rows.map ListingRow.cells⟩

def sourcesFile (rows : List SourceRow) : ExportedFile :=
  ⟨"sources.csv", SourceRow.header, rows.map SourceRow.cells⟩

def transitFile (rows : List TransitRow) : ExportedFile :=
  ⟨"transit.csv", TransitRow.header, rows.map TransitRow.cells⟩

def commutesFile (rows : List CommuteRow) : ExportedFile :=
  ⟨"commutes.csv", CommuteRow.header, rows.map CommuteRow.cells⟩

def historyFile (events : List ListingEvent) : ExportedFile :=
  ⟨"history.csv", eventHeader, events.map eventCells⟩

/-- `export_listings`: the listings with the given identifiers, or all, and what is known of
them. -/
def ExportTables.exportListings (position : Uuid → Nat) (tables : ExportTables)
    (listingIds : Option (List Uuid)) : List ExportedFile :=
  let ids := tables.exportedIds listingIds
  [listingsFile (tables.listingRows listingIds), sourcesFile (tables.sourceRows ids),
    transitFile (tables.transitRows position ids), commutesFile (tables.commuteRows ids),
    historyFile (tables.eventRows position ids)]

end RentalAgent
