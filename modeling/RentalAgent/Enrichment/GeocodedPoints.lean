import RentalAgent.Enrichment.Surveys

/-! # Points that were answered

A wrong point is worse than none. `geocode_address` stores the point of the first geocoder it
asks whose answer is in the town of the address, with the precision and the source that belong
to it, or no point at all; a geocoder of New York alone is not asked about New Jersey, and
`geocode_pending` leaves an address without a line as it is
(`coordinates_are_never_a_guess`).
-/

namespace RentalAgent

open Relational

/-! ## Answers that fit -/

/-- The geocoders that are asked about an address, in order. -/
def Address.asked (address : Address) (geocoders : List Geocoder) : List Geocoder :=
  geocoders.filter fun geocoder => !address.skips geocoder

namespace Database

variable (env : LocationEnvironment) (db : Database)

/-- The point is inside the polygon of the town, when that polygon is loaded. -/
def InTown (locality : String) (point : Point) : Prop :=
  ∀ regionCode ∈ localityRegionCodes.lookup locality,
    ∀ boundary ∈ get GeographicBoundary.regionCode db.boundaries regionCode,
      env.covers boundary.geometry point = true

/-- The geocoder answers with both coordinates of a point in the town of the address. -/
def AnswersWith (address : Address) (line : String) (geocoder : Geocoder) (point : Point) :
    Prop :=
  (geocoder.geocode address.addressId (address.geocodeRequest line)).point = some point ∧
    db.InTown env address.locality point

/-- The geocoder is the first that is asked and answers so; those before it do not. -/
def FirstAnswer (address : Address) (line : String) (geocoders before : List Geocoder)
    (geocoder : Geocoder) (point : Point) : Prop :=
  ∃ after, address.asked geocoders = before ++ geocoder :: after ∧
    (∀ other ∈ before, ∀ elsewhere, ¬db.AnswersWith env address line other elsewhere) ∧
    db.AnswersWith env address line geocoder point

/-- No geocoder that is asked answers so. -/
def NoAnswer (address : Address) (line : String) (geocoders : List Geocoder) : Prop :=
  ∀ geocoder ∈ address.asked geocoders, ∀ point,
    ¬db.AnswersWith env address line geocoder point

variable {env db} {now : Timestamp} {address : Address} {line : String}
  {geocoders : List Geocoder}

/-- A point is within the boundary of its locality when it lies in a boundary of the town, as far
as one is loaded. -/
theorem withinLocalityBoundary_iff {locality : String} {point : Point} :
    db.withinLocalityBoundary env locality point = true ↔ db.InTown env locality point := by
  unfold withinLocalityBoundary InTown
  cases localityRegionCodes.lookup locality with
  | none => simp
  | some regionCode =>
      simp only [Option.mem_def, Option.some.injEq, forall_eq']
      cases get GeographicBoundary.regionCode db.boundaries regionCode with
      | none => simp
      | some boundary => simp

/-- Recording an answer does not change the polygons. -/
theorem RequestsOnly.answersWith {next : Database} (requests : RequestsOnly db next) :
    next.AnswersWith env address line = db.AnswersWith env address line := by
  unfold AnswersWith InTown
  rw [requests.frame]

/-- A geocoder that answers with a point in the town ends the loop, and another one leaves it
to those behind. -/
theorem askGeocoders_cons {geocoder : Geocoder} (asked : address.skips geocoder = false)
    (rest : List Geocoder) (db : Database) :
    (∃ point, db.AnswersWith env address line geocoder point ∧
      ∃ after, askGeocoders env now address (address.geocodeRequest line) (geocoder :: rest) db =
        ⟨after, [geocoder.providerCode],
          some ⟨point, geocoder.geocode address.addressId (address.geocodeRequest line),
            geocoder.providerCode⟩⟩) ∨
    (∀ point, ¬db.AnswersWith env address line geocoder point) ∧
      ∃ next, RequestsOnly db next ∧
        askGeocoders env now address (address.geocodeRequest line) (geocoder :: rest) db =
          let attempt := askGeocoders env now address (address.geocodeRequest line) rest next
          { attempt with queried := geocoder.providerCode :: attempt.queried } := by
  have recorded := recordRequest_requestsOnly env now geocoder.providerCode
    (address.geocodeRequest line).formattedAddress
    (geocoder.geocode address.addressId (address.geocodeRequest line)) db
  rw [askGeocoders, if_neg (by simp [asked]), ← recorded.answersWith]
  dsimp only
  generalize db.recordRequest env now geocoder.providerCode
    (address.geocodeRequest line).formattedAddress
    (geocoder.geocode address.addressId (address.geocodeRequest line)) = next at recorded ⊢
  split
  case h_1 point fits =>
    obtain ⟨answered, within⟩ := Option.filter_eq_some_iff.mp fits
    exact .inl ⟨point, ⟨answered, withinLocalityBoundary_iff.mp within⟩, next, rfl⟩
  case h_2 misses =>
    refine .inr ⟨fun point fits => ?_, next, recorded, rfl⟩
    exact Option.filter_eq_none_iff.mp misses point fits.1 (withinLocalityBoundary_iff.mpr fits.2)

/-- The first geocoder that answers with a point in the town decides, and those behind it are
not asked. -/
theorem askGeocoders_cases (env : LocationEnvironment) (now : Timestamp) (address : Address)
    (line : String) (geocoders : List Geocoder) (db : Database) :
    (∃ before geocoder point, db.FirstAnswer env address line geocoders before geocoder point ∧
      ∃ next, askGeocoders env now address (address.geocodeRequest line) geocoders db =
        ⟨next, (before ++ [geocoder]).map Geocoder.providerCode,
          some ⟨point, geocoder.geocode address.addressId (address.geocodeRequest line),
            geocoder.providerCode⟩⟩) ∨
    db.NoAnswer env address line geocoders ∧
      ∃ next, askGeocoders env now address (address.geocodeRequest line) geocoders db =
        ⟨next, (address.asked geocoders).map Geocoder.providerCode, none⟩ := by
  induction geocoders generalizing db with
  | nil => exact .inr ⟨by simp [NoAnswer, Address.asked], db, rfl⟩
  | cons geocoder rest ih =>
      unfold FirstAnswer NoAnswer at ih ⊢
      cases skipped : address.skips geocoder with
      | true =>
          have same : address.asked (geocoder :: rest) = address.asked rest :=
            List.filter_cons_of_neg (by simp [skipped])
          rw [same, askGeocoders, if_pos skipped]
          exact ih db
      | false =>
          have same : address.asked (geocoder :: rest) = geocoder :: address.asked rest :=
            List.filter_cons_of_pos (by simp [skipped])
          rw [same]
          rcases askGeocoders_cons skipped rest db with
            ⟨point, fits, next, outcome⟩ | ⟨misses, middle, recorded, outcome⟩
          · exact .inl ⟨[], geocoder, point, ⟨_, rfl, by simp, fits⟩, next, outcome⟩
          · rw [outcome, ← recorded.answersWith]
            rw [← recorded.answersWith] at misses
            rcases ih middle with
              ⟨before, first, point, ⟨after, split, missing, fits⟩, next, found⟩ |
                ⟨missing, next, found⟩
            · refine .inl ⟨geocoder :: before, first, point, ⟨after, ?_, ?_, fits⟩, next, ?_⟩
              · rw [split, List.cons_append]
              · exact List.forall_mem_cons.mpr ⟨misses, missing⟩
              · rw [found]
                rfl
            · refine .inr ⟨List.forall_mem_cons.mpr ⟨misses, missing⟩, next, ?_⟩
              rw [found]
              rfl

/-! ## Addresses -/

/-- The source of a geocoder is stored under its code. -/
theorem geocoderSource_mem (ids : IdSupply) (providerCode : String) (db : Database) :
    ∃ source ∈ (db.geocoderSource ids providerCode).1.sources,
      source.sourceId = (db.geocoderSource ids providerCode).2 ∧
        source.sourceCode = providerCode := by
  rw [geocoderSource]
  cases found : get Source.sourceCode db.sources providerCode with
  | none => exact ⟨⟨ids.uuid db.drawn, providerCode⟩, by simp, rfl, rfl⟩
  | some source => exact ⟨source, mem_of_get found, rfl, key_of_get found⟩

theorem get_updateAddress {id : Uuid} {change : Address → Address}
    (keeps : ∀ row, (change row).addressId = row.addressId) (db : Database) :
    get Address.addressId (db.updateAddress id change).addresses id =
      (get Address.addressId db.addresses id).map change :=
  get_updateWhere keeps

/-- `geocode_address` stores the first point that fits with its precision and its source, or
marks the address as failed and nothing else. -/
theorem geocodeAddress_cases (env : LocationEnvironment) (now : Timestamp)
    (geocoders : List Geocoder) (usable : truthy address.addressLine1 = some line)
    (stored : get Address.addressId db.addresses address.addressId = some address) :
    (∃ before geocoder point, db.FirstAnswer env address line geocoders before geocoder point ∧
      ∃ source ∈ (db.geocodeAddress env now geocoders address).1.sources,
        source.sourceCode = geocoder.providerCode ∧
        (db.geocodeAddress env now geocoders address).2 =
          ((before ++ [geocoder]).map Geocoder.providerCode, true) ∧
        get Address.addressId (db.geocodeAddress env now geocoders address).1.addresses
            address.addressId =
          some (address.locate point
            (geocoder.geocode address.addressId (address.geocodeRequest line)) source.sourceId now
            (env.sha256 (address.geocodeRequest line).formattedAddress.toList))) ∨
    db.NoAnswer env address line geocoders ∧
      (db.geocodeAddress env now geocoders address).2 =
        ((address.asked geocoders).map Geocoder.providerCode, false) ∧
      get Address.addressId (db.geocodeAddress env now geocoders address).1.addresses
          address.addressId = some { address with geocodeStatus := .failed } := by
  have requests := askGeocoders_requestsOnly env now address (address.geocodeRequest line)
    geocoders db
  rw [geocodeAddress, usable]
  dsimp only
  rcases askGeocoders_cases env now address line geocoders db with
    ⟨before, geocoder, point, first, next, outcome⟩ | ⟨missing, next, outcome⟩
  · rw [outcome] at requests ⊢
    obtain ⟨source, inside, same, code⟩ := geocoderSource_mem env.ids geocoder.providerCode next
    have registered := requests.trans
      (geocoderSource_requestsOnly env.ids geocoder.providerCode next)
    refine .inl ⟨before, geocoder, point, first, source, inside, code, rfl, ?_⟩
    dsimp only
    refine (get_updateAddress (by intro row; rfl) _).trans ?_
    rw [registered.addresses, stored, same]
    rfl
  · rw [outcome] at requests ⊢
    refine .inr ⟨missing, rfl, ?_⟩
    dsimp only
    refine (get_updateAddress (by intro row; rfl) _).trans ?_
    rw [requests.addresses, stored]
    rfl

/-- `geocode_address` leaves the other addresses as they are. -/
theorem geocodeAddress_others {other : Address} (stored : other ∈ db.addresses)
    (apart : other.addressId ≠ address.addressId) :
    other ∈ (db.geocodeAddress env now geocoders address).1.addresses := by
  obtain ⟨middle, change, requests, written, -⟩ :=
    geocodeAddress_writes env now geocoders address db
  rw [written]
  rw [← requests.addresses] at stored
  exact List.mem_map.mpr ⟨other, stored, by simp [apart]⟩

/-- The rounds leave an address alone that is not selected or has no usable line. -/
theorem geocodeRounds_others {rows : List Address} {row : Address}
    (state : Database × GeocodeRunSummary) (stored : row ∈ state.1.addresses)
    (unusable : ∀ other ∈ rows, other.addressId = row.addressId → other.placeholder = true) :
    row ∈ (rows.foldl (geocodeRound env now geocoders) state).1.addresses := by
  induction rows generalizing state with
  | nil => exact stored
  | cons selected rest ih =>
      obtain ⟨here, later⟩ := List.forall_mem_cons.mp unusable
      refine ih _ ?_ later
      by_cases placeholder : selected.placeholder = true
      · rw [geocodeRound]
        dsimp only
        rw [if_pos placeholder]
        exact stored
      · rcases geocodeRound_writes env now geocoders state selected with same | wrote
        · rw [same]
          exact stored
        · rw [wrote]
          exact geocodeAddress_others stored fun same => placeholder (here same.symm)

/-- `geocode_pending` leaves an address without a usable line as it is. -/
theorem geocodePending_placeholder (keyed : PrimaryKey Address.addressId db.addresses)
    (scan : Uuid → Nat) (limit : Nat) {row : Address} (stored : row ∈ db.addresses)
    (unusable : row.placeholder = true) :
    row ∈ (db.geocodePending env now geocoders scan limit).1.addresses := by
  refine geocodeRounds_others (db, {}) stored fun other member same => ?_
  have pending := (List.mem_insertionSort _).mp (List.mem_of_mem_take member)
  rwa [keyed.eq_of_mem (List.mem_filter.mp pending).1 stored same]

/-- **Coordinates are never a guess.** An address with a line gets the point of the first
geocoder asked that answers with a point in its town, with the precision and the source of that
answer, or is marked as failed and keeps everything else; `nyc_geosearch` is not asked about the
towns of New Jersey, the other addresses stay as they are, and `geocode_pending` leaves every
placeholder and every address without a line as it is. -/
theorem coordinates_are_never_a_guess (env : LocationEnvironment) (now : Timestamp)
    (geocoders : List Geocoder) (keyed : PrimaryKey Address.addressId db.addresses)
    (stored : address ∈ db.addresses) (usable : truthy address.addressLine1 = some line) :
    let geocoded := db.geocodeAddress env now geocoders address
    (address.locality ∈ ["Jersey City", "Hoboken", "Fort Lee"] →
      "nyc_geosearch" ∉ geocoded.2.1) ∧
    ((∃ before geocoder point, db.FirstAnswer env address line geocoders before geocoder point ∧
      ∃ source ∈ geocoded.1.sources, source.sourceCode = geocoder.providerCode ∧
        geocoded.2 = ((before ++ [geocoder]).map Geocoder.providerCode, true) ∧
        get Address.addressId geocoded.1.addresses address.addressId =
          some (address.locate point
            (geocoder.geocode address.addressId (address.geocodeRequest line)) source.sourceId now
            (env.sha256 (address.geocodeRequest line).formattedAddress.toList))) ∨
      db.NoAnswer env address line geocoders ∧
        geocoded.2 = ((address.asked geocoders).map Geocoder.providerCode, false) ∧
        get Address.addressId geocoded.1.addresses address.addressId =
          some { address with geocodeStatus := .failed }) ∧
    (∀ other ∈ db.addresses, other.addressId ≠ address.addressId →
      other ∈ geocoded.1.addresses) ∧
    ∀ scan limit, ∀ row ∈ db.addresses, row.placeholder = true →
      row ∈ (db.geocodePending env now geocoders scan limit).1.addresses := by
  have outcome := geocodeAddress_cases env now geocoders usable
    ((get_eq_some keyed).mpr ⟨stored, rfl⟩)
  refine ⟨fun town asked => ?_, outcome, fun other inside apart =>
    geocodeAddress_others inside apart, fun scan limit row inside unusable =>
    geocodePending_placeholder keyed scan limit inside unusable⟩
  have queried : ∀ code ∈ (db.geocodeAddress env now geocoders address).2.1,
      ∃ geocoder ∈ address.asked geocoders, geocoder.providerCode = code := by
    rcases outcome with ⟨before, geocoder, point, ⟨after, split, -⟩, source, -, -, codes, -⟩ |
      ⟨-, codes, -⟩
    · intro code member
      rw [codes] at member
      obtain ⟨asked, inside, same⟩ := List.mem_map.mp member
      refine ⟨asked, ?_, same⟩
      rw [split, List.append_cons]
      exact List.mem_append_left _ inside
    · intro code member
      rw [codes] at member
      exact List.mem_map.mp member
  obtain ⟨geocoder, inside, same⟩ := queried _ asked
  have kept := (List.mem_filter.mp inside).2
  simp [Address.skips, njLocalities, same] at kept town
  tauto

/-- A polygon is the longitude that it covers. -/
def longitudes : LocationEnvironment where
  ids := countingIds
  unicode := asciiTables
  sha256 := String.ofList
  covers _ point := point.longitude = -74
  intersects _ point := point.longitude = -74

/-- An address of Jersey City. -/
def columbusDrive : Address where
  addressId := 1
  addressLine1 := some "95 Columbus Dr"
  locality := "Jersey City"
  administrativeArea := "NY"
  formattedAddress := "95 Columbus Dr, Jersey City"
  addressFingerprint := none
  locationPrecision := .unknown
  boundaryStatus := .unresolved

/-- The address, a placeholder, and the polygon of the town. -/
def jerseyAddresses : Database :=
  { Database.empty with
    addresses := [columbusDrive,
      { columbusDrive with
        addressId := 2
        addressLine1 := none
        formattedAddress := "[address unresolved] https://example.org/1" }]
    boundaries := [⟨3, "NJ_JERSEY_CITY", "Jersey City, NJ", "NJ", "-74", "1"⟩] }

/-- A geocoder that answers with a longitude. -/
def geocoderAt (providerCode : String) (longitude : Rat) : Geocoder where
  providerCode := providerCode
  geocode _ _ := { status := .succeeded, longitude := some longitude, latitude := some 40 }

/-- The geocoder of New York is not asked, and the placeholder stays. -/
theorem jersey_is_not_guessed :
    "nyc_geosearch" ∉ (jerseyAddresses.geocodeAddress longitudes 5
      [geocoderAt "nyc_geosearch" (-73), geocoderAt "census" (-80), geocoderAt "photon" (-74)]
      columbusDrive).2.1 ∧
    ∀ scan limit, { columbusDrive with
        addressId := 2
        addressLine1 := none
        formattedAddress := "[address unresolved] https://example.org/1" } ∈
      (jerseyAddresses.geocodePending longitudes 5
        [geocoderAt "nyc_geosearch" (-73), geocoderAt "census" (-80), geocoderAt "photon" (-74)]
        scan limit).1.addresses := by
  have keyed : PrimaryKey Address.addressId jerseyAddresses.addresses :=
    primaryKey_iff_nodup.mpr (by decide)
  have stored : columbusDrive ∈ jerseyAddresses.addresses := by decide
  have usable : truthy columbusDrive.addressLine1 = some "95 Columbus Dr" := by decide
  obtain ⟨notAsked, -, -, kept⟩ := coordinates_are_never_a_guess longitudes 5
    [geocoderAt "nyc_geosearch" (-73), geocoderAt "census" (-80), geocoderAt "photon" (-74)]
    keyed stored usable
  exact ⟨notAsked (by decide), fun scan limit => kept scan limit _ (by decide) (by decide)⟩

end Database

end RentalAgent
