import RentalAgent.Canonical.History

/-! # Where listings stand

Every listing stands in a building of an address, and on a unit of that building when
it has one. The tables of places only grow, so a listing stays where it was started
(`Database.Stays`), and a call for a new identity ends at the address that the lookup by
fingerprint found or at a new one (`Database.Housed`).
-/

namespace RentalAgent

open Relational Transition

/-- The column is a primary key, filled with drawn ids. -/
structure Keyed {Row : Type} (ids : IdSupply) (drawn : Nat) (column : Row → Uuid)
    (rows : List Row) : Prop where
  primary : PrimaryKey column rows
  drawn : ∀ row ∈ rows, ∃ k < drawn, ids.uuid k = column row

namespace Keyed

variable {Row : Type} {ids : IdSupply} {drawn later : Nat} {column : Row → Uuid} {rows : List Row}

theorem nil : Keyed ids drawn column [] := ⟨uniqueIndex_nil, fun _ member => by cases member⟩

theorem mono (keyed : Keyed ids drawn column rows) (more : drawn ≤ later) :
    Keyed ids later column rows := by
  refine ⟨keyed.primary, fun row member => ?_⟩
  obtain ⟨k, earlier, same⟩ := keyed.drawn row member
  exact ⟨k, Nat.lt_of_lt_of_le earlier more, same⟩

theorem fresh (keyed : Keyed ids drawn column rows) {row : Row} (member : row ∈ rows) :
    column row ≠ ids.uuid drawn := by
  intro same
  obtain ⟨k, earlier, equal⟩ := keyed.drawn row member
  exact absurd (ids.distinct (equal.trans same)) (Nat.ne_of_lt earlier)

/-- A row with the next drawn id keeps the table keyed. -/
theorem insert (keyed : Keyed ids drawn column rows) {new : Row}
    (id : column new = ids.uuid drawn) :
    Keyed ids (drawn + 1) column (rows ++ [new]) := by
  refine ⟨keyed.primary.insert fun _ row member _ same => keyed.fresh member (same.trans id), ?_⟩
  intro row member
  rcases List.mem_append.mp member with old | last
  · exact (keyed.mono (Nat.le_succ _)).drawn row old
  · obtain rfl := List.mem_singleton.mp last
    exact ⟨drawn, Nat.lt_succ_self _, id.symm⟩

end Keyed

/-- What an address of the row is found by. -/
def SourceObservation.placeKey (unicode : UnicodeTables) (row : SourceObservation) : String :=
  match truthy row.parsedPayload.identity.rawAddressText with
  | some raw => addressFingerprint unicode raw
  | none => "unresolved:" ++ row.sourceUrl

namespace Database

variable {ids : IdSupply} {unicode : UnicodeTables} {env : Environment} {now : Timestamp}
  {db middle next : Database} {row : SourceObservation} {observation : ParsedSourceObservation}
  {method : DiscoveryMethod} {outcome : NormalizationOutcome} {listingId : Uuid}

/-- The columns that say where the listings stand. -/
def seats (db : Database) : List (Uuid × Uuid × Option Uuid) :=
  db.listings.map fun listing => (listing.canonicalListingId, listing.buildingId, listing.unitId)

/-- The building of a listing. -/
def siteOf (db : Database) (listingId : Uuid) : Option Uuid :=
  (get Prod.fst db.seats listingId).map fun seat => seat.2.1

/-- The address of a building. -/
def lotOf (db : Database) (buildingId : Uuid) : Option Uuid :=
  (get Building.buildingId db.buildings buildingId).map Building.addressId

/-- The address of a listing. -/
def addressOf (db : Database) (listingId : Uuid) : Option Uuid :=
  (db.siteOf listingId).bind db.lotOf

/-- The places refer to each other, under ids that were drawn. -/
structure Sited (ids : IdSupply) (db : Database) : Prop where
  addresses : Keyed ids db.drawn Address.addressId db.addresses
  buildings : Keyed ids db.drawn Building.buildingId db.buildings
  units : Keyed ids db.drawn BuildingUnit.unitId db.units
  lots : ∀ building ∈ db.buildings, building.addressId ∈ db.addresses.map Address.addressId
  sites : ∀ seat ∈ db.seats, seat.2.1 ∈ db.buildings.map Building.buildingId
  doors : ∀ seat ∈ db.seats, ∀ unitId, seat.2.2 = some unitId →
    ∃ unit ∈ db.units, unit.unitId = unitId ∧ unit.buildingId = seat.2.1

/-- What is known of places stays so. -/
structure Stays (db next : Database) : Prop where
  sites : ∀ listingId buildingId, db.siteOf listingId = some buildingId →
    next.siteOf listingId = some buildingId
  lots : ∀ buildingId addressId, db.lotOf buildingId = some addressId →
    next.lotOf buildingId = some addressId
  addresses : ∀ address ∈ db.addresses, address ∈ next.addresses

theorem Stays.refl (db : Database) : Stays db db :=
  ⟨fun _ _ same => same, fun _ _ same => same, fun _ member => member⟩

theorem Stays.trans (first : Stays db middle) (second : Stays middle next) : Stays db next :=
  ⟨fun _ _ same => second.sites _ _ (first.sites _ _ same),
    fun _ _ same => second.lots _ _ (first.lots _ _ same),
    fun _ member => second.addresses _ (first.addresses _ member)⟩

theorem Stays.addressOf (stays : Stays db next) {addressId : Uuid}
    (stands : db.addressOf listingId = some addressId) :
    next.addressOf listingId = some addressId := by
  obtain ⟨buildingId, site, lot⟩ := Option.bind_eq_some_iff.mp stands
  exact Option.bind_eq_some_iff.mpr ⟨buildingId, stays.sites _ _ site, stays.lots _ _ lot⟩

/-- Tables that only get longer keep what is known of places. -/
theorem stays_of_tables {moreSeats : List (Uuid × Uuid × Option Uuid)}
    {moreBuildings : List Building} {moreAddresses : List Address}
    (seats : next.seats = db.seats ++ moreSeats)
    (buildings : next.buildings = db.buildings ++ moreBuildings)
    (addresses : next.addresses = db.addresses ++ moreAddresses) : Stays db next := by
  refine ⟨fun listingId buildingId site => ?_, fun buildingId addressId lot => ?_,
    fun address member => addresses ▸ List.mem_append_left _ member⟩
  · obtain ⟨seat, found, rfl⟩ := Option.map_eq_some_iff.mp site
    rw [siteOf, seats, get_append found]
    rfl
  · obtain ⟨building, found, rfl⟩ := Option.map_eq_some_iff.mp lot
    rw [lotOf, buildings, get_append found]
    rfl

theorem sited_empty (ids : IdSupply) (observations : List SourceObservation)
    (overrides : List HumanOverride) : Sited ids (History.start observations overrides).db where
  addresses := .nil
  buildings := .nil
  units := .nil
  lots _ member := (List.not_mem_nil member).elim
  sites _ member := (List.not_mem_nil member).elim
  doors _ member := (List.not_mem_nil member).elim

/-- Where the tables of places and the seats stay, the listings stay sited. -/
theorem Sited.congr (sited : Sited ids db) (addresses : next.addresses = db.addresses)
    (buildings : next.buildings = db.buildings) (units : next.units = db.units)
    (seats : next.seats = db.seats) (drawn : db.drawn ≤ next.drawn) : Sited ids next where
  addresses := addresses ▸ sited.addresses.mono drawn
  buildings := buildings ▸ sited.buildings.mono drawn
  units := units ▸ sited.units.mono drawn
  lots := by simpa only [buildings, addresses] using sited.lots
  sites := by simpa only [seats, buildings] using sited.sites
  doors := by simpa only [seats, units] using sited.doors

/-! ## Seats -/

/-- A change of other columns leaves the seats of the listings alone. -/
theorem seats_updateListing {id : Uuid} {change : CanonicalListing → CanonicalListing}
    (keeps : ∀ listing, (change listing).canonicalListingId = listing.canonicalListingId ∧
      (change listing).buildingId = listing.buildingId ∧
        (change listing).unitId = listing.unitId) :
    (db.updateListing id change).seats = db.seats :=
  map_updateWhere _ fun listing _ _ =>
    Prod.ext (keeps listing).1 (Prod.ext (keeps listing).2.1 (keeps listing).2.2)

theorem seats_congr (same : next.listings = db.listings) : next.seats = db.seats := by
  rw [seats, same, seats]

/-- Freshness leaves the seats of the listings alone. -/
theorem touchFreshness_seats (link : ListingSourceLink) (listing : CanonicalListing)
    (row : SourceObservation) (db : Database) :
    (db.touchFreshness link listing row).seats = db.seats := by
  rw [seats_congr (touchFreshness_listings link listing row db)]
  refine seats_updateListing ?_
  intro _
  exact ⟨rfl, rfl, rfl⟩

/-- An update of a known identity leaves the seats of the listings alone. -/
theorem Update.seats {link : ListingSourceLink} {listing : CanonicalListing}
    (update : Update env row observation link listing db next) : next.seats = db.seats := by
  exact update.within (composes_of_column Database.seats)
    (touchFreshness_seats link listing row db)
    (fun facts => seats_congr facts.evidenceOnly.listings)
    (fun _ _ _ _ => seats_congr (raiseConflict_evidenceOnly ..).listings)
    (fun _ _ _ _ _ => seats_congr (emitEvent_evidenceOnly ..).listings)
    fun write fields _ => seats_updateListing fun listing => by rw [fields]; exact ⟨rfl, rfl, rfl⟩

/-! ## Places -/

/-- The address of a row: it has the key of the row, and an old address is this one just
when the row states an address and the old one has its key. -/
structure Addressed (unicode : UnicodeTables) (row : SourceObservation) (db next : Database)
    (address : Address) : Prop where
  member : address ∈ next.addresses
  key : address.addressFingerprint = some (row.placeKey unicode)
  old : ∀ other ∈ db.addresses, other.addressId = address.addressId ↔
    (truthy row.parsedPayload.identity.rawAddressText).isSome = true ∧
      other.addressFingerprint = some (row.placeKey unicode)

/-- A new address keeps the listings sited. -/
theorem Sited.insertAddress (sited : Sited ids db) {address : Address}
    (id : address.addressId = ids.uuid db.drawn) :
    Sited ids { db with drawn := db.drawn + 1, addresses := db.addresses ++ [address] } where
  addresses := sited.addresses.insert id
  buildings := sited.buildings.mono (Nat.le_succ _)
  units := sited.units.mono (Nat.le_succ _)
  lots building member := by
    rw [List.map_append]
    exact List.mem_append_left _ (sited.lots building member)
  sites := sited.sites
  doors := sited.doors

/-- A new building at an address that is there keeps the listings sited. -/
theorem Sited.insertBuilding (sited : Sited ids db) {building : Building}
    (id : building.buildingId = ids.uuid db.drawn)
    (lot : building.addressId ∈ db.addresses.map Address.addressId) :
    Sited ids { db with drawn := db.drawn + 1, buildings := db.buildings ++ [building] } where
  addresses := sited.addresses.mono (Nat.le_succ _)
  buildings := sited.buildings.insert id
  units := sited.units.mono (Nat.le_succ _)
  lots other member := by
    rcases List.mem_append.mp member with old | new
    · exact sited.lots other old
    · obtain rfl := List.mem_singleton.mp new
      exact lot
  sites seat member := by
    rw [List.map_append]
    exact List.mem_append_left _ (sited.sites seat member)
  doors := sited.doors

/-- A new unit keeps the listings sited. -/
theorem Sited.insertUnit (sited : Sited ids db) {unit : BuildingUnit}
    (id : unit.unitId = ids.uuid db.drawn) :
    Sited ids { db with drawn := db.drawn + 1, units := db.units ++ [unit] } where
  addresses := sited.addresses.mono (Nat.le_succ _)
  buildings := sited.buildings.mono (Nat.le_succ _)
  units := sited.units.insert id
  lots := sited.lots
  sites := sited.sites
  doors seat member unitId door := by
    obtain ⟨other, inside, same⟩ := sited.doors seat member unitId door
    exact ⟨other, List.mem_append_left _ inside, same⟩

/-- The address that is resolved has the key of its row, and it is an old one just when the row
states the key of that one. -/
theorem resolveAddress_addressed {address : Address} (sited : Sited env.ids db)
    (resolved : db.resolveAddress env row row.parsedPayload = .ok (next, address)) :
    Sited env.ids next ∧ Stays db next ∧ Addressed env.unicode row db next address := by
  cases resolveAddress_resolved resolved with
  | @found raw address stated only =>
      have key : row.placeKey env.unicode = addressFingerprint env.unicode raw := by
        rw [SourceObservation.placeKey, stated]
      obtain ⟨member, print⟩ := List.mem_filter.mp (only ▸ List.mem_singleton_self address)
      have printed : address.addressFingerprint = some (row.placeKey env.unicode) := by
        rw [key]
        exact of_decide_eq_true print
      refine ⟨sited, .refl db, member, printed,
        fun other otherMem => ⟨fun same => ?_, fun hit => ?_⟩⟩
      · obtain rfl := sited.addresses.primary.eq_of_mem otherMem member same
        exact ⟨by simp [stated], printed⟩
      · have selected : other ∈ db.addresses.filter fun address =>
            address.addressFingerprint = some (addressFingerprint env.unicode raw) :=
          List.mem_filter.mpr ⟨otherMem, decide_eq_true (key ▸ hit.2)⟩
        rw [only] at selected
        rw [List.mem_singleton.mp selected]
  | @added raw stated absent =>
      have key : row.placeKey env.unicode = addressFingerprint env.unicode raw := by
        rw [SourceObservation.placeKey, stated]
      refine ⟨sited.insertAddress rfl, stays_of_tables (List.append_nil _).symm
        (List.append_nil _).symm rfl, List.mem_append_right _ (List.mem_singleton_self _),
        congrArg some key.symm, fun other otherMem => ⟨fun same => ?_, fun hit => ?_⟩⟩
      · exact (sited.addresses.fresh otherMem same).elim
      · exact (List.filter_eq_nil_iff.mp absent other otherMem
          (decide_eq_true (key ▸ hit.2))).elim
  | withheld unstated =>
      have key : row.placeKey env.unicode = "unresolved:" ++ row.sourceUrl := by
        rw [SourceObservation.placeKey, unstated]
      refine ⟨sited.insertAddress rfl, stays_of_tables (List.append_nil _).symm
        (List.append_nil _).symm rfl, List.mem_append_right _ (List.mem_singleton_self _),
        congrArg some key.symm, fun other otherMem => ⟨fun same => ?_, fun hit => ?_⟩⟩
      · exact (sited.addresses.fresh otherMem same).elim
      · simp [unstated] at hit

theorem lotOf_of_mem (sited : Sited ids db) {building : Building}
    (member : building ∈ db.buildings) :
    db.lotOf building.buildingId = some building.addressId := by
  rw [lotOf, (get_eq_some sited.buildings.primary).mpr ⟨member, rfl⟩]
  rfl

/-- The building that is resolved stands at the address. -/
theorem resolveBuilding_sited {address : Address} {building : Building} (sited : Sited env.ids db)
    (member : address ∈ db.addresses)
    (resolved : db.resolveBuilding env address = .ok (next, building)) :
    Sited env.ids next ∧ Stays db next ∧ building ∈ next.buildings ∧
      building.addressId = address.addressId := by
  obtain ⟨found, query, wrote⟩ := bind_eq_ok.mp resolved
  cases found with
  | some other =>
      cases wrote
      have inside : building ∈ db.buildings.filter _ :=
        scalarOneOrNone_eq_some.mp query ▸ List.mem_singleton_self building
      obtain ⟨listed, lot⟩ := List.mem_filter.mp inside
      exact ⟨sited, .refl db, listed, of_decide_eq_true lot⟩
  | none =>
      cases wrote
      exact ⟨sited.insertBuilding rfl (List.mem_map_of_mem member),
        stays_of_tables (List.append_nil _).symm rfl (List.append_nil _).symm,
        List.mem_append_right _ (List.mem_singleton_self _), rfl⟩

/-- The unit of a building and the listing that stands on it. -/
theorem resolveUnit_sited {building : Building} {unitMatch : UnitMatch} (sited : Sited env.ids db)
    (resolved : db.resolveUnit env building observation = .ok (next, unitMatch)) :
    Sited env.ids next ∧ Stays db next ∧ (∀ unit, unitMatch.unit = some unit →
      unit ∈ next.units ∧ unit.buildingId = building.buildingId) := by
  cases resolveUnit_resolved resolved with
  | unlabelled => exact ⟨sited, .refl db, by simp [UnitMatch.unit]⟩
  | occupied _ only | vacant _ only =>
      obtain ⟨listed, inBuilding, _⟩ := unit_of_only only
      refine ⟨sited, .refl db, fun other same => ?_⟩
      cases same
      exact ⟨listed, inBuilding⟩
  | added _ _ id inBuilding =>
      refine ⟨sited.insertUnit id, stays_of_tables (List.append_nil _).symm
        (List.append_nil _).symm (List.append_nil _).symm, fun unit same => ?_⟩
      cases same
      exact ⟨List.mem_append_right _ (List.mem_singleton_self _), inBuilding⟩

/-- Where the listing of a new identity stands. -/
structure Housed (unicode : UnicodeTables) (row : SourceObservation) (db next : Database)
    (listingId : Uuid) (address : Address) : Prop where
  addressed : Addressed unicode row db next address
  stands : next.addressOf listingId = some address.addressId

/-- A new identity is housed, and everything else stays where it was. -/
structure NewlyHoused (ids : IdSupply) (unicode : UnicodeTables) (row : SourceObservation)
    (db next : Database) (outcome : NormalizationOutcome) : Prop where
  sited : Sited ids next
  stays : Stays db next
  housed : ∃ listingId address, outcome.canonicalListingId = some listingId ∧
    Housed unicode row db next listingId address

/-- The place that is resolved is a building at the address of the row, with a unit in it if one
is named. -/
theorem resolvePlace_sited {building : Building} {unitMatch : UnitMatch} (sited : Sited env.ids db)
    (resolved : db.resolvePlace env row row.parsedPayload = .ok (next, building, unitMatch)) :
    Sited env.ids next ∧ Stays db next ∧ building ∈ next.buildings ∧
      (∀ unit, unitMatch.unit = some unit →
        unit ∈ next.units ∧ unit.buildingId = building.buildingId) ∧
      ∃ address, Addressed env.unicode row db next address ∧
        next.lotOf building.buildingId = some address.addressId := by
  obtain ⟨⟨first, address⟩, addressed, resolved⟩ := bind_eq_ok.mp resolved
  obtain ⟨⟨second, place⟩, built, resolved⟩ := bind_eq_ok.mp resolved
  obtain ⟨⟨third, found⟩, unitResolved, wrote⟩ := bind_eq_ok.mp resolved
  cases wrote
  obtain ⟨firstSited, firstStays, result⟩ := resolveAddress_addressed sited addressed
  obtain ⟨secondSited, secondStays, member, lot⟩ :=
    resolveBuilding_sited firstSited result.member built
  obtain ⟨thirdSited, thirdStays, units⟩ := resolveUnit_sited secondSited unitResolved
  have laterStays := secondStays.trans thirdStays
  have buildings : next.buildings = second.buildings := resolveUnit_buildings unitResolved
  refine ⟨thirdSited, firstStays.trans laterStays, buildings ▸ member, units, address,
    ⟨laterStays.addresses _ result.member, result.key, result.old⟩, ?_⟩
  rw [← lot]
  exact lotOf_of_mem thirdSited (buildings ▸ member)

/-- A listing has the site that its row says. -/
theorem siteOf_of_mem (tracked : Tracked ids db) {listing : CanonicalListing}
    (member : listing ∈ db.listings) :
    db.siteOf listing.canonicalListingId = some listing.buildingId := by
  have primary : PrimaryKey Prod.fst db.seats := by
    rw [primaryKey_iff_nodup, seats, List.map_map]
    exact tracked.listingIds
  rw [siteOf, (get_eq_some primary).mpr ⟨List.mem_map_of_mem member, rfl⟩]
  rfl

theorem siteOf_congr (same : next.seats = db.seats) (listingId : Uuid) :
    next.siteOf listingId = db.siteOf listingId := by
  rw [siteOf, same, siteOf]

/-- A listing that starts stands in its building. -/
theorem startListing_sited (sited : Sited env.ids db) (tracked : Tracked env.ids db)
    {building : Building} {unitId : Option Uuid} (member : building ∈ db.buildings)
    (door : ∀ id, unitId = some id → ∃ unit ∈ db.units, unit.unitId = id ∧
      unit.buildingId = building.buildingId)
    (started : db.startListing env now row observation method building unitId =
      .ok (next, outcome)) :
    Sited env.ids next ∧ Stays db next ∧
      ∃ listingId, outcome.canonicalListingId = some listingId ∧
        next.siteOf listingId = some building.buildingId := by
  have evidence := startListing_evidenceOnly started
  have seats : next.seats =
      db.seats ++ [(env.ids.uuid db.drawn, building.buildingId, unitId)] := by
    rw [seats_congr evidence.listings]
    exact List.map_append
  have addresses : next.addresses = db.addresses := by rw [evidence.frame]; rfl
  have buildings : next.buildings = db.buildings := by rw [evidence.frame]; rfl
  have units : next.units = db.units := by rw [evidence.frame]; rfl
  have drawn : db.drawn ≤ next.drawn := Nat.le_trans (Nat.le_add_right _ 2) evidence.drawn
  refine ⟨?_, stays_of_tables seats (by rw [buildings, List.append_nil])
    (by rw [addresses, List.append_nil]), env.ids.uuid db.drawn,
    (startListing_outcome started).2, ?_⟩
  · constructor
    case addresses => exact addresses ▸ sited.addresses.mono drawn
    case buildings => exact buildings ▸ sited.buildings.mono drawn
    case units => exact units ▸ sited.units.mono drawn
    case lots => simpa only [buildings, addresses] using sited.lots
    case sites =>
      intro seat seatMem
      rw [seats] at seatMem
      rw [buildings]
      rcases List.mem_append.mp seatMem with old | new
      · exact sited.sites seat old
      · obtain rfl := List.mem_singleton.mp new
        exact List.mem_map_of_mem member
    case doors =>
      intro seat seatMem id hasDoor
      rw [seats] at seatMem
      rw [units]
      rcases List.mem_append.mp seatMem with old | new
      · exact sited.doors seat old id hasDoor
      · obtain rfl := List.mem_singleton.mp new
        exact door id hasDoor
  · have absent : Relational.get Prod.fst db.seats (env.ids.uuid db.drawn) = none := by
      refine get_eq_none.mpr fun seat seatMem same => ?_
      obtain ⟨listing, listed, rfl⟩ := List.mem_map.mp seatMem
      exact tracked.listing_fresh listed (Nat.le_refl _) same
    rw [Relational.get] at absent
    rw [siteOf, seats, Relational.get, List.find?_append, absent, Option.none_or]
    simp

/-- Attaching a link moves no listing. -/
theorem attachCrossSourceLink_sited (sited : Sited ids db) {listing : CanonicalListing}
    {identity : IdentityMethod} {confidence : IdentityConfidence}
    (attached : db.attachCrossSourceLink env row listing method identity confidence =
      (next, outcome)) :
    Sited ids next ∧ Stays db next ∧ next.seats = db.seats ∧
      outcome.canonicalListingId = some listing.canonicalListingId := by
  cases attached
  have seats : ((db.insertLink (newLink row method (env.ids.uuid db.drawn)
      listing.canonicalListingId identity confidence)).updateListing listing.canonicalListingId
        fun listing => { listing with
          lastSeenAt := max listing.lastSeenAt row.observedAt }).seats = db.seats := by
    refine (seats_updateListing ?_).trans rfl
    intro _
    exact ⟨rfl, rfl, rfl⟩
  exact ⟨sited.congr rfl rfl rfl seats (Nat.le_succ _),
    stays_of_tables (seats.trans (List.append_nil _).symm) (List.append_nil _).symm
      (List.append_nil _).symm, seats, rfl⟩

/-- **Housing.** A new identity ends at the address of its row. -/
theorem createCanonical_housed (sited : Sited env.ids db) (tracked : Tracked env.ids db)
    (created : db.createCanonical env now row row.parsedPayload method = .ok (next, outcome)) :
    NewlyHoused env.ids env.unicode row db next outcome := by
  obtain ⟨place, building, unitMatch, resolved, creation⟩ := createCanonical_cases created
  obtain ⟨placeSited, placeStays, member, doors, address, addressed, lot⟩ :=
    resolvePlace_sited sited resolved
  have placeTracked : Tracked env.ids place :=
    tracked.moves (resolvePlace_placeOnly resolved).quiet.refines
  -- a listing that stands in the building stands at the address
  have housed : ∀ listingId, outcome.canonicalListingId = some listingId → Sited env.ids next →
      Stays place next → next.siteOf listingId = some building.buildingId →
        NewlyHoused env.ids env.unicode row db next outcome := by
    intro listingId named nextSited stays site
    refine ⟨nextSited, placeStays.trans stays, listingId, address, named,
      ⟨stays.addresses _ addressed.member, addressed.key, addressed.old⟩, ?_⟩
    exact Option.bind_eq_some_iff.mpr ⟨_, site, stays.lots _ _ lot⟩
  have begun : ∀ unitId, (∀ id, unitId = some id → ∃ unit ∈ place.units, unit.unitId = id ∧
        unit.buildingId = building.buildingId) →
      place.startListing env now row row.parsedPayload method building unitId =
        .ok (next, outcome) → NewlyHoused env.ids env.unicode row db next outcome := by
    intro unitId door started
    obtain ⟨nextSited, stays, listingId, named, site⟩ :=
      startListing_sited placeSited placeTracked member door started
    exact housed listingId named nextSited stays site
  have joined : ∀ (listing : CanonicalListing) (identity : IdentityMethod)
      (confidence : IdentityConfidence), listing ∈ place.listings →
      listing.buildingId = building.buildingId →
      place.attachCrossSourceLink env row listing method identity confidence = (next, outcome) →
        NewlyHoused env.ids env.unicode row db next outcome := by
    intro listing identity confidence listed inBuilding attached
    obtain ⟨nextSited, stays, seats, named⟩ := attachCrossSourceLink_sited placeSited attached
    refine housed _ named nextSited stays ?_
    rw [siteOf_congr seats, siteOf_of_mem placeTracked listed, inBuilding]
  generalize result : Except.ok (next, outcome) = ended at creation
  cases creation with
  | exact =>
      rename_i unit listing
      obtain ⟨listed, onUnit, _⟩ := latestListingOn_eq_some (resolvePlace_occupied resolved)
      obtain ⟨unitMem, inBuilding⟩ := doors unit rfl
      obtain ⟨other, otherMem, same, otherBuilding⟩ :=
        placeSited.doors _ (List.mem_map_of_mem listed) unit.unitId onUnit
      obtain rfl := placeSited.units.primary.eq_of_mem otherMem unitMem same
      exact joined listing _ _ listed (otherBuilding.symm.trans inBuilding)
        (Except.ok.inj result).symm
  | strong found =>
      rename_i listing
      obtain ⟨rent, _, _, only⟩ := strongMultiFieldMatch_eq_some.mp found
      have inside : listing ∈ place.listings.filter _ := only ▸ List.mem_singleton_self listing
      obtain ⟨listed, matched⟩ := List.mem_filter.mp inside
      simp only [strongMatch, Bool.and_eq_true, decide_eq_true_eq] at matched
      exact joined listing _ _ listed matched.1.1.1.1.1.1 (Except.ok.inj result).symm
  | vacant =>
      rename_i unit
      obtain ⟨unitMem, inBuilding⟩ := doors unit rfl
      exact begun _ (fun id same => ⟨unit, unitMem, Option.some.inj same, inBuilding⟩) result.symm
  | unmatched _ => exact begun none (fun _ same => by cases same) result.symm

end Database

end RentalAgent
