import RentalAgent.Canonical.Services

/-! # Locations and scope

`GeocodeService` asks the geocoders in order for the point of an address, and checks an
answer against the polygon of the town that the address claims. `validate_boundaries` then
judges located addresses by the registry of boundaries. What a geocoder answers, and what
the spatial functions say of a geometry and a point, are parameters.
-/

namespace RentalAgent

open Relational

/-! ## Geocoders -/

/-- `NJ_LOCALITIES`. -/
def njLocalities : List String := ["Jersey City", "Hoboken", "Fort Lee"]

/-- `_LOCALITY_REGION_CODES`. -/
def localityRegionCodes : List (String × String) :=
  [("Jersey City", "NJ_JERSEY_CITY"), ("Hoboken", "NJ_HOBOKEN"), ("Fort Lee", "NJ_FORT_LEE"),
    ("Manhattan", "NYC_MANHATTAN"), ("Brooklyn", "NYC_BROOKLYN"), ("Queens", "NYC_QUEENS"),
    ("Bronx", "NYC_BRONX"), ("Staten Island", "NYC_STATEN_ISLAND")]

structure GeocodeRequest where
  formattedAddress : String
  locality : Option String
  administrativeArea : Option String
  postalCode : Option String := none
  deriving DecidableEq

/-- The answer of a geocoder; its components are texts or missing. -/
structure GeocodeResult where
  status : ProviderRequestStatus
  latitude : Option Rat := none
  longitude : Option Rat := none
  precision : LocationPrecision := .unknown
  providerResultId : Option String := none
  components : List (String × Option String) := []
  errorCode : Option String := none
  deriving DecidableEq

/-- The point of an answer that succeeded with both coordinates. -/
def GeocodeResult.point (result : GeocodeResult) : Option Point :=
  if result.status ≠ .succeeded then none
  else do
    let longitude ← result.longitude
    let latitude ← result.latitude
    return ⟨longitude, latitude⟩

/-- A geocoder, with what it answers when it is asked about an address. -/
structure Geocoder where
  providerCode : String
  geocode : Uuid → GeocodeRequest → GeocodeResult

/-- What geocoding and scope validation share: identifiers, Unicode tables, the digest of a
text, and `ST_Covers` and `ST_Intersects` of a geometry and a point. -/
structure LocationEnvironment where
  ids : IdSupply
  unicode : UnicodeTables
  sha256 : List Char → String
  covers : String → Point → Bool
  intersects : String → Point → Bool

namespace Address

/-- The stored area of a New Jersey town may wrongly be `NY`. -/
def adminArea (address : Address) : String :=
  if address.locality ∈ njLocalities then "NJ" else address.administrativeArea

def geocodeRequest (address : Address) (line : String) : GeocodeRequest where
  formattedAddress := line ++ ", " ++ address.locality ++ ", " ++ address.adminArea
  locality := some address.locality
  administrativeArea := some address.adminArea

/-- A geocoder that forces every text into the five boroughs is not asked about New Jersey. -/
def skips (address : Address) (geocoder : Geocoder) : Bool :=
  address.locality ∈ njLocalities && geocoder.providerCode = "nyc_geosearch"

/-- The columns that a match fills. -/
def locate (address : Address) (point : Point) (result : GeocodeResult) (sourceId : Uuid)
    (now : Timestamp) (inputHash : String) : Address :=
  { address with
    locationPoint := some point
    locationPrecision := result.precision
    geocoderSourceId := some sourceId
    geocoderResultId := result.providerResultId
    geocodedAt := some now
    geocodeInputHash := some inputHash
    geocodeStatus := .valid
    borough := (truthy (result.components.lookup "borough").join).or address.borough }

/-- An address without a usable line, or with the placeholder of a withheld one. -/
def placeholder (address : Address) : Bool :=
  (truthy address.addressLine1).isNone ||
    "[address unresolved]".toList.isPrefixOf address.formattedAddress.toList

/-- The address has no point and its geocoding has not failed. -/
def pending (address : Address) : Bool :=
  address.locationPoint = none && address.geocodeStatus ≠ .failed

/-- The point of the address meets the geometry. -/
def meets (env : LocationEnvironment) (address : Address) (geometry : String) : Bool :=
  address.locationPoint.any (env.intersects geometry)

end Address

/-- A match: the point, the answer and the code of the geocoder that gave it. -/
structure GeocodeMatch where
  point : Point
  result : GeocodeResult
  providerCode : String

/-- What asking geocoders in order led to. -/
structure GeocodeAttempt where
  db : Database
  queried : List String
  found : Option GeocodeMatch

/-- `counts[key] = counts.get(key, 0) + 1`. -/
def countKey (key : String) (counts : List (String × Nat)) : List (String × Nat) :=
  if counts.any fun entry => entry.1 = key then
    counts.map fun entry => if entry.1 = key then (entry.1, entry.2 + 1) else entry
  else counts ++ [(key, 1)]

structure GeocodeRunSummary where
  attempted : Nat := 0
  geocoded : Nat := 0
  failed : Nat := 0
  skippedUnresolved : Nat := 0
  byProvider : List (String × Nat) := []
  deriving DecidableEq

namespace Database

/-- `_source_id`: the source of a geocoder, found by its code or registered. -/
def geocoderSource (ids : IdSupply) (providerCode : String) (db : Database) : Database × Uuid :=
  match get Source.sourceCode db.sources providerCode with
  | some source => (db, source.sourceId)
  | none =>
      ({ db with
        drawn := db.drawn + 1
        sources := db.sources ++ [⟨ids.uuid db.drawn, providerCode⟩] }, ids.uuid db.drawn)

variable (env : LocationEnvironment) (now : Timestamp)

/-- `_record_request`: the first answer to a query is kept. -/
def recordRequest (providerCode queryText : String) (result : GeocodeResult) (db : Database) :
    Database :=
  let (db, sourceId) := db.geocoderSource env.ids providerCode
  let requestHash := env.sha256 queryText.toList
  if db.providerRequests.any fun request => request.sourceId = sourceId &&
      request.requestType = .geocode && request.requestHash = requestHash then db
  else
    { db with
      drawn := db.drawn + 1
      providerRequests := db.providerRequests ++ [{
        providerRequestId := env.ids.uuid db.drawn
        sourceId := sourceId
        requestType := .geocode
        requestHash := requestHash
        requestParameters := [("text", .text queryText)]
        providerResultId := result.providerResultId
        status := result.status
        requestedAt := now
        completedAt := some now
        errorCode := result.errorCode }] }

/-- `_within_locality_boundary`: a town without a loaded polygon is not checked. -/
def withinLocalityBoundary (locality : String) (point : Point) (db : Database) : Bool :=
  match localityRegionCodes.lookup locality with
  | none => true
  | some regionCode =>
      match get GeographicBoundary.regionCode db.boundaries regionCode with
      | none => true
      | some boundary => env.covers boundary.geometry point

/-- The geocoders in order: the first answer with a point inside the town of the address
wins, and every answer is recorded. -/
def askGeocoders (address : Address) (request : GeocodeRequest) :
    List Geocoder → Database → GeocodeAttempt
  | [], db => ⟨db, [], none⟩
  | geocoder :: rest, db =>
      if address.skips geocoder then askGeocoders address request rest db
      else
        let result := geocoder.geocode address.addressId request
        let db := db.recordRequest env now geocoder.providerCode request.formattedAddress result
        match result.point.filter fun point =>
            db.withinLocalityBoundary env address.locality point with
        | some point => ⟨db, [geocoder.providerCode], some ⟨point, result, geocoder.providerCode⟩⟩
        | none =>
            let attempt := askGeocoders address request rest db
            { attempt with queried := geocoder.providerCode :: attempt.queried }

/-- Writing the columns of one address. -/
def updateAddress (id : Uuid) (change : Address → Address) (db : Database) : Database :=
  { db with addresses := updateWhere (fun address => address.addressId = id) change db.addresses }

/-- `GeocodeService.geocode_address`, with the codes of the geocoders it asked. -/
def geocodeAddress (geocoders : List Geocoder) (address : Address) (db : Database) :
    Database × List String × Bool :=
  match truthy address.addressLine1 with
  | none => (db, [], false)
  | some line =>
      let request := address.geocodeRequest line
      let attempt := askGeocoders env now address request geocoders db
      match attempt.found with
      | some found =>
          let (db, sourceId) := attempt.db.geocoderSource env.ids found.providerCode
          (db.updateAddress address.addressId fun row => row.locate found.point found.result
            sourceId now (env.sha256 request.formattedAddress.toList), attempt.queried, true)
      | none =>
          (attempt.db.updateAddress address.addressId fun row =>
            { row with geocodeStatus := .failed }, attempt.queried, false)

/-- The code of the source that an address was located by. -/
def providerOf (addressId : Uuid) (db : Database) : String :=
  let source := do
    let address ← get Address.addressId db.addresses addressId
    get Source.sourceId db.sources (← address.geocoderSourceId)
  (source.map Source.sourceCode).getD "unknown"

/-- One round of the geocoding loop. -/
def geocodeRound (geocoders : List Geocoder) (state : Database × GeocodeRunSummary)
    (address : Address) : Database × GeocodeRunSummary :=
  let (db, summary) := state
  if address.placeholder then
    (db, { summary with skippedUnresolved := summary.skippedUnresolved + 1 })
  else
    let (db, _, located) := db.geocodeAddress env now geocoders address
    if located then
      (db, { summary with
        attempted := summary.attempted + 1
        geocoded := summary.geocoded + 1
        byProvider := countKey (db.providerOf address.addressId) summary.byProvider })
    else
      (db, { summary with
        attempted := summary.attempted + 1
        failed := summary.failed + 1 })

/-- The addresses a call selects; `scan` is the order in which the database scans them. -/
def pendingAddresses (scan : Uuid → Nat) (limit : Nat) (db : Database) : List Address :=
  ((db.addresses.filter Address.pending).insertionSort fun first second =>
    scan first.addressId ≤ scan second.addressId).take limit

/-- `GeocodeService.geocode_pending`. -/
def geocodePending (geocoders : List Geocoder) (scan : Uuid → Nat) (limit : Nat)
    (db : Database) : Database × GeocodeRunSummary :=
  (db.pendingAddresses scan limit).foldl (geocodeRound env now geocoders) (db, {})

end Database

/-! ## Boundaries -/

/-- What `upsert_boundary` is called with. Both loaders build the code from a fixed text, so
it is never empty. -/
structure BoundaryUpload where
  regionCode : String
  displayName : String
  regionGroup : String
  geometry : String
  datasetVersion : String
  named : regionCode ≠ ""

/-- A feature of a boundary dataset: its text properties and its geometry. -/
structure BoundaryFeature where
  properties : List (String × String)
  geometry : String

theorem append_ne_empty {start : String} (named : start ≠ "") (rest : String) :
    start ++ rest ≠ "" := fun empty => named (String.append_eq_empty_iff.mp empty).1

/-- The boundary that `load_nyc_boroughs` makes of a feature; one without a name is left
out. -/
def nycBoundary (unicode : UnicodeTables) (datasetVersion : String) (feature : BoundaryFeature) :
    Option BoundaryUpload := do
  let name ← (truthy (feature.properties.lookup "BoroName")).or
    (truthy (feature.properties.lookup "boro_name"))
  return {
    regionCode := "NYC_" ++ String.ofList
      ((unicode.upper name.toList).map fun c => if c = ' ' then '_' else c)
    displayName := name ++ " (NYC)"
    regionGroup := "NYC"
    geometry := feature.geometry
    datasetVersion := datasetVersion
    named := append_ne_empty (by decide) _ }

/-- `NJ_PLACES`. -/
def njPlaces : List (String × String) :=
  [("Jersey City", "NJ_JERSEY_CITY"), ("Hoboken", "NJ_HOBOKEN"), ("Fort Lee", "NJ_FORT_LEE")]

theorem njPlaces_named {name code : String} (listed : njPlaces.lookup name = some code) :
    code ≠ "" := by
  obtain ⟨before, after, places, _⟩ := List.lookup_eq_some_iff.mp listed
  have each : ∀ entry ∈ njPlaces, entry.2 ≠ "" := by decide
  exact each (name, code) (places ▸ List.mem_append_right _ List.mem_cons_self)

/-- The boundary that `load_nj_places` makes of a feature. -/
def njBoundary (datasetVersion : String) (feature : BoundaryFeature) : Option BoundaryUpload :=
  match feature.properties.lookup "BASENAME" with
  | none => none
  | some name =>
      match listed : njPlaces.lookup name with
      | none => none
      | some code => some {
          regionCode := code
          displayName := name ++ ", NJ"
          regionGroup := "NJ"
          geometry := feature.geometry
          datasetVersion := datasetVersion
          named := njPlaces_named listed }

structure ScopeRunSummary where
  evaluated : Nat := 0
  inScope : Nat := 0
  outOfScope : Nat := 0
  byRegion : List (String × Nat) := []
  deriving DecidableEq

/-- A row of the scope query: an address and the code of a boundary it meets, if any. -/
abbrev ScopeRow := Uuid × Option String

/-- The verdict of a row. -/
def ScopeRow.status (row : ScopeRow) : BoundaryStatus :=
  if (truthy row.2).isSome then .inScope else .outOfScope

namespace Database

/-- `upsert_boundary`; a code that exists is left as it is. -/
def upsertBoundary (ids : IdSupply) (upload : BoundaryUpload) (db : Database) : Database × Bool :=
  if db.boundaries.any fun boundary => boundary.regionCode = upload.regionCode then (db, false)
  else
    ({ db with
      drawn := db.drawn + 1
      boundaries := db.boundaries ++ [{
        geographicBoundaryId := ids.uuid db.drawn
        regionCode := upload.regionCode
        displayName := upload.displayName
        regionGroup := upload.regionGroup
        geometry := upload.geometry
        datasetVersion := upload.datasetVersion }] }, true)

/-- The loop of both loaders, with the number of boundaries added. -/
def loadBoundaries (ids : IdSupply) (uploads : List BoundaryUpload) (db : Database) :
    Database × Nat :=
  uploads.foldl (fun (state : Database × Nat) upload =>
    let (db, added) := state.1.upsertBoundary ids upload
    (db, if added then state.2 + 1 else state.2)) (db, 0)

/-- `load_nyc_boroughs`, on the features of the dataset. -/
def loadNycBoroughs (ids : IdSupply) (unicode : UnicodeTables) (datasetVersion : String)
    (features : List BoundaryFeature) (db : Database) : Database × Nat :=
  db.loadBoundaries ids (features.filterMap (nycBoundary unicode datasetVersion))

/-- `load_nj_places`, on the features of the dataset. -/
def loadNjPlaces (ids : IdSupply) (datasetVersion : String) (features : List BoundaryFeature)
    (db : Database) : Database × Nat :=
  db.loadBoundaries ids (features.filterMap (njBoundary datasetVersion))

variable (env : LocationEnvironment)

/-- The codes of the boundaries that an address meets. -/
def regionsOf (db : Database) (address : Address) : List String :=
  (db.boundaries.filter fun boundary => address.meets env boundary.geometry).map
    GeographicBoundary.regionCode

/-- The rows of the query: located addresses without a verdict, joined with the boundaries
they meet or with none. -/
def scopeRows (db : Database) : List ScopeRow :=
  (db.addresses.filter fun address =>
      address.locationPoint.isSome && address.boundaryStatus = .unresolved).flatMap fun address =>
    match db.regionsOf env address with
    | [] => [(address.addressId, none)]
    | codes => codes.map fun code => (address.addressId, some code)

/-- The rows a call selects; `scan` is the order in which the database scans them. -/
def selectedRows (scan : ScopeRow → Nat) (limit : Nat) (db : Database) : List ScopeRow :=
  ((db.scopeRows env).insertionSort fun first second => scan first ≤ scan second).take limit

/-- One round of the validation loop. -/
def judgeRow (state : Database × ScopeRunSummary) (row : ScopeRow) : Database × ScopeRunSummary :=
  let (db, summary) := state
  (db.updateAddress row.1 fun address => { address with boundaryStatus := ScopeRow.status row },
    match truthy row.2 with
    | some code => { summary with
        evaluated := summary.evaluated + 1
        inScope := summary.inScope + 1
        byRegion := countKey code summary.byRegion }
    | none => { summary with
        evaluated := summary.evaluated + 1
        outOfScope := summary.outOfScope + 1 })

/-- `validate_boundaries`; an empty registry is refused. -/
def validateBoundaries (scan : ScopeRow → Nat) (limit : Nat) (db : Database) :
    Database × ScopeRunSummary :=
  if db.boundaries = [] then (db, {})
  else (db.selectedRows env scan limit).foldl judgeRow (db, {})

end Database

end RentalAgent
