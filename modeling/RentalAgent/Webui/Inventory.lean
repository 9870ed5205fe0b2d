import RentalAgent.Canonical.Selection
import RentalAgent.Enrichment.Office
import RentalAgent.Exports.CsvExport
import RentalAgent.Foundation.Joins
import RentalAgent.Foundation.Ranking
import RentalAgent.Webui.StudioFacts

/-! # The inventory query

`inventory` is the one query behind the map, the tables and the exports: listings joined with
their buildings, their addresses and the selection of the market, filtered, the latest sighting
first, up to a limit. In every state that the office and the desk reach it gives exactly the
listings that match, each once and with its own place and selection
(`Database.inventory_exact`).
-/

namespace RentalAgent

open Relational Transition

/-! ## Filters -/

/-- The geometries of the spatial filters: an envelope, and a GeoJSON text. -/
inductive MapRegion
  | envelope (minLon minLat maxLon maxLat : Rat)
  | geojson (geometry : String)

/-- PostgreSQL and PostGIS: `ILIKE`, `ST_Intersects`, and where a scan meets a listing. -/
structure MapEnvironment where
  ilike : String → String → Bool
  intersects : MapRegion → Point → Bool
  scan : Uuid → Nat

/-- `InventoryFilters`. -/
structure InventoryFilters where
  layouts : Option (List String) := none
  lifecycle : Option (List String) := none
  laundry : Option (List String) := none
  maxRentMinor : Option Nat := none
  minRentMinor : Option Nat := none
  locality : Option String := none
  selectedOnly : Bool := false
  hasRent : Bool := false
  hasFloorPlan : Bool := false
  bounds : Option (Rat × Rat × Rat × Rat) := none
  geometryGeojson : Option String := none
  limit : Nat := 500

/-- A row of the join: a listing with its building and its address, and its selection. -/
abbrev InventoryEntry := ((CanonicalListing × Building) × Address) × Option MarketingSelection

namespace InventoryEntry

variable (entry : InventoryEntry)

def listing : CanonicalListing := entry.1.1.1

def address : Address := entry.1.2

/-- The listing is selected for the market. -/
def selected : Bool :=
  entry.2.any fun selection => selection.selectionStatus = .selected

end InventoryEntry

/-- A filter by a list of values; an empty list filters nothing. -/
def oneOf (values : Option (List String)) (value : String) : Bool :=
  values.all fun values => values.isEmpty || values.contains value

/-- A media asset that is a floor plan is associated with the listing or with its building. -/
def Database.floorPlanOnFile (db : Database) (listing : CanonicalListing) : Bool :=
  db.mediaAssociations.any fun association =>
    db.mediaAssets.any fun asset =>
      asset.mediaAssetId = association.mediaAssetId && asset.mediaType = .floorPlan &&
        (association.canonicalListingId = some listing.canonicalListingId ||
          association.buildingId = some listing.buildingId)

namespace InventoryFilters

variable (filters : InventoryFilters)

/-- The geometries that a point has to meet. -/
def regions : List MapRegion :=
  (filters.bounds.map fun bounds =>
    MapRegion.envelope bounds.1 bounds.2.1 bounds.2.2.1 bounds.2.2.2).toList ++
  (filters.geometryGeojson.map MapRegion.geojson).toList

/-- The `WHERE` of the query. A bound of zero and an empty locality filter nothing, and an
address without a point matches no spatial filter. -/
def selects (env : MapEnvironment) (db : Database) (entry : InventoryEntry) : Bool :=
  oneOf filters.layouts entry.listing.layoutClass.value &&
  oneOf filters.lifecycle entry.listing.lifecycleStatus.value &&
  oneOf filters.laundry entry.listing.laundryType.value &&
  ((filters.maxRentMinor.filter (· ≠ 0)).all fun most =>
    entry.listing.monthlyRentMinor.any (· ≤ most)) &&
  ((filters.minRentMinor.filter (· ≠ 0)).all fun least =>
    entry.listing.monthlyRentMinor.any (least ≤ ·)) &&
  ((filters.locality.filter (· ≠ "")).all fun part =>
    env.ilike entry.address.locality ("%" ++ part ++ "%")) &&
  (! filters.selectedOnly || entry.selected) &&
  (! filters.hasRent || entry.listing.monthlyRentMinor.isSome) &&
  (! filters.hasFloorPlan || db.floorPlanOnFile entry.listing) &&
  filters.regions.all fun region => entry.address.locationPoint.any (env.intersects region)

end InventoryFilters

/-! ## Rows -/

/-- Commas between groups of three digits, from the last digit on. -/
def groupDigits : List Char → List Char
  | first :: second :: third :: fourth :: rest =>
      first :: second :: third :: ',' :: groupDigits (fourth :: rest)
  | digits => digits

/-- `f"{value:,}"`. -/
def thousands (value : Nat) : String :=
  String.ofList (groupDigits (Nat.toDigits 10 value).reverse).reverse

/-- An amount in cents as whole dollars: `f"${minor // 100:,}"`. -/
def dollars (minor : Nat) : String := "$" ++ thousands (minor / 100)

/-- A row that the query gives. -/
structure InventoryRow where
  listingId : Uuid
  buildingId : Uuid
  layout : LayoutClass
  rentMinor : Option Nat
  rent : String
  lifecycle : LifecycleStatus
  laundry : String
  address : String
  locality : String
  precision : LocationPrecision
  lon : Option Rat
  lat : Option Rat
  selected : Bool
  firstSeen : Timestamp
  lastSeen : Timestamp
  deriving DecidableEq

/-- What the query gives of a row of the join. -/
def InventoryEntry.row (entry : InventoryEntry) : InventoryRow where
  listingId := entry.listing.canonicalListingId
  buildingId := entry.listing.buildingId
  layout := entry.listing.layoutClass
  rentMinor := entry.listing.monthlyRentMinor
  rent :=
    match entry.listing.monthlyRentMinor with
    | some minor => dollars minor
    | none => "unknown"
  lifecycle := entry.listing.lifecycleStatus
  laundry := laundryLabel entry.listing.laundryType entry.listing.indoorLaundryBadgeEligible
  address := entry.address.formattedAddress
  locality := entry.address.locality
  precision := entry.address.locationPrecision
  lon := entry.address.locationPoint.map Point.longitude
  lat := entry.address.locationPoint.map Point.latitude
  selected := entry.selected
  firstSeen := entry.listing.firstSeenAt
  lastSeen := entry.listing.lastSeenAt

namespace Database

/-- The `FROM` of the query. -/
def inventoryEntries (db : Database) (desk : Desk) : List InventoryEntry :=
  outerJoin (fun row => Target.listing row.1.1.canonicalListingId) MarketingSelection.target
    desk.selections
    (join (fun row => row.2.addressId) Address.addressId db.addresses
      (join CanonicalListing.buildingId Building.buildingId db.buildings db.listings))

/-- `ORDER BY last_seen_at DESC`; a scan orders the listings that were seen together. -/
abbrev latestFirst (env : MapEnvironment) : InventoryEntry → InventoryEntry → Prop :=
  Ranking.ByMeasure (fun entry => OrderDual.toDual entry.listing.lastSeenAt)
    (fun entry => env.scan entry.listing.canonicalListingId)

instance latestFirstDecidable (env : MapEnvironment) : DecidableRel (latestFirst env) :=
  fun _ _ => inferInstanceAs (Decidable (_ ∨ _))

/-- `inventory`. -/
def inventory (env : MapEnvironment) (db : Database) (desk : Desk) (filters : InventoryFilters) :
    List InventoryRow :=
  (Ranking.firstRows (latestFirst env) (filters.selects env db) filters.limit
    (db.inventoryEntries desk)).map InventoryEntry.row

/-- What is known of one listing: its building, its address and its selection. -/
def entryOf (db : Database) (desk : Desk) (listing : CanonicalListing) :
    Option InventoryEntry :=
  (get Building.buildingId db.buildings listing.buildingId).bind fun building =>
    (get Address.addressId db.addresses building.addressId).map fun address =>
      (((listing, building), address),
        get MarketingSelection.target desk.selections (.listing listing.canonicalListingId))

/-! ## One entry for each listing -/

variable {ids : IdSupply} {db : Database} {desk : Desk}

/-- Every listing stands in a building at an address: it has an entry. -/
theorem exists_entryOf (sited : Sited ids db) {listing : CanonicalListing}
    (member : listing ∈ db.listings) : ∃ entry, db.entryOf desk listing = some entry ∧
      entry.listing = listing := by
  have site := sited.sites _ (List.mem_map_of_mem member)
  obtain ⟨building, stands, named⟩ := List.mem_map.mp site
  obtain ⟨address, inside, located⟩ := List.mem_map.mp (sited.lots building stands)
  have found : get Building.buildingId db.buildings listing.buildingId = some building :=
    (get_eq_some sited.buildings.primary).mpr ⟨stands, named⟩
  have placed : get Address.addressId db.addresses building.addressId = some address :=
    (get_eq_some sited.addresses.primary).mpr ⟨inside, located⟩
  refine ⟨(((listing, building), address),
    get MarketingSelection.target desk.selections (.listing listing.canonicalListingId)), ?_, rfl⟩
  rw [entryOf, found, Option.bind_some, placed, Option.map_some]

/-- The joins give the entries of the listings, each once. -/
theorem inventoryEntries_eq (sited : Sited ids db)
    (unique : PrimaryKey MarketingSelection.target desk.selections) :
    db.inventoryEntries desk = db.listings.filterMap (db.entryOf desk) := by
  rw [inventoryEntries, outerJoin_eq unique, join_eq sited.addresses.primary,
    join_eq sited.buildings.primary, List.filterMap_filterMap, List.map_filterMap]
  refine List.filterMap_congr fun listing _ => ?_
  rw [entryOf]
  cases get Building.buildingId db.buildings listing.buildingId with
  | none => rfl
  | some building =>
      rw [Option.map_some, Option.bind_some, Option.bind_some]
      cases get Address.addressId db.addresses building.addressId <;> rfl

theorem entryOf_listing {listing : CanonicalListing} {entry : InventoryEntry}
    (found : db.entryOf desk listing = some entry) : entry.listing = listing := by
  obtain ⟨building, -, found⟩ := Option.bind_eq_some_iff.mp found
  obtain ⟨address, -, rfl⟩ := Option.map_eq_some_iff.mp found
  rfl

/-- The entries of the page are those of the listings, one each. -/
theorem map_listing_entries (sited : Sited ids db)
    (unique : PrimaryKey MarketingSelection.target desk.selections) :
    (db.inventoryEntries desk).map InventoryEntry.listing = db.listings := by
  rw [inventoryEntries_eq sited unique, List.map_filterMap]
  refine (List.filterMap_congr fun listing member => ?_).trans List.filterMap_some
  obtain ⟨entry, found, same⟩ := exists_entryOf sited member
  rw [found, Option.map_some, same]

theorem mem_inventoryEntries (sited : Sited ids db)
    (unique : PrimaryKey MarketingSelection.target desk.selections) {entry : InventoryEntry} :
    entry ∈ db.inventoryEntries desk ↔
      ∃ listing ∈ db.listings, db.entryOf desk listing = some entry := by
  rw [inventoryEntries_eq sited unique, List.mem_filterMap]

/-- A row is given for a listing that the filters select. -/
theorem exists_of_mem_inventory (sited : Sited ids db)
    (unique : PrimaryKey MarketingSelection.target desk.selections) {env : MapEnvironment}
    {filters : InventoryFilters} {row : InventoryRow}
    (given : row ∈ db.inventory env desk filters) :
    ∃ listing ∈ db.listings, ∃ entry, db.entryOf desk listing = some entry ∧
      filters.selects env db entry = true ∧ entry.row = row := by
  obtain ⟨entry, first, rfl⟩ := List.mem_map.mp given
  obtain ⟨inside, selected⟩ := Ranking.mem_of_mem_firstRows first
  obtain ⟨listing, present, found⟩ := (mem_inventoryEntries sited unique).mp inside
  exact ⟨listing, present, entry, found, selected, rfl⟩

/-- The latest sighting comes first. -/
theorem pairwise_inventory (env : MapEnvironment) (db : Database) (desk : Desk)
    (filters : InventoryFilters) : (db.inventory env desk filters).Pairwise
      fun first second => second.lastSeen ≤ first.lastSeen := by
  rw [inventory, List.pairwise_map]
  exact Ranking.pairwise_firstRows.imp fun ahead => ahead.le

/-- The listing matches the filters. -/
def Matches (env : MapEnvironment) (db : Database) (desk : Desk) (filters : InventoryFilters)
    (listing : CanonicalListing) : Bool :=
  (db.entryOf desk listing).any (filters.selects env db)

/-- The count of the page is the count of the listings that the filters describe. -/
theorem countP_entries (sited : Sited ids db)
    (unique : PrimaryKey MarketingSelection.target desk.selections) (env : MapEnvironment)
    (filters : InventoryFilters) :
    (db.inventoryEntries desk).countP (filters.selects env db) =
      db.listings.countP (db.Matches env desk filters) := by
  rw [inventoryEntries_eq sited unique, List.countP_filterMap]
  refine List.countP_congr fun listing _ => ?_
  rw [Matches]
  cases db.entryOf desk listing <;> rfl

end Database

end RentalAgent
