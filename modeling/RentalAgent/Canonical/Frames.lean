import RentalAgent.Canonical.Normalization

/-! # What the steps of normalization leave alone

Recording facts, emitting events, proposing duplicates and surfacing conflicts
write evidence tables only (`Database.EvidenceOnly`); resolving the address, the
building and the unit of an observation adds rows to those three tables only
(`Database.PlaceOnly`).
-/

namespace RentalAgent

open Relational Transition

namespace Database

/-- The step wrote evidence tables only. -/
structure EvidenceOnly (db next : Database) : Prop where
  frame : next = { db with
    drawn := next.drawn
    duplicateCandidates := next.duplicateCandidates
    reviewIssues := next.reviewIssues
    events := next.events
    assertions := next.assertions
    resolutions := next.resolutions }
  drawn : db.drawn ≤ next.drawn

/-- The step wrote facts only. -/
structure FactsOnly (db next : Database) : Prop where
  frame : next = { db with
    drawn := next.drawn
    assertions := next.assertions
    resolutions := next.resolutions }
  drawn : db.drawn ≤ next.drawn

/-- The step recorded events only. -/
structure EventsOnly (db next : Database) : Prop where
  frame : next = { db with
    drawn := next.drawn
    events := next.events }
  drawn : db.drawn ≤ next.drawn

/-- The step raised issues and proposed duplicates only. -/
structure ReviewsOnly (db next : Database) : Prop where
  frame : next = { db with
    drawn := next.drawn
    duplicateCandidates := next.duplicateCandidates
    reviewIssues := next.reviewIssues }
  drawn : db.drawn ≤ next.drawn

/-- The step added addresses, buildings and units only. -/
structure PlaceOnly (db next : Database) : Prop where
  frame : next = { db with
    drawn := next.drawn
    addresses := next.addresses
    buildings := next.buildings
    units := next.units }
  drawn : db.drawn ≤ next.drawn

variable {env : Environment} {now : Timestamp} {db middle next : Database}

/-- What steps leave alone, sequences of them leave alone. -/
theorem composes_of_column {Column : Type} (column : Database → Column) :
    Composes fun db next => column next = column db :=
  ⟨fun _ => rfl, fun first second => second.trans first⟩

theorem FactsOnly.refl (db : Database) : FactsOnly db db := ⟨rfl, Nat.le_refl _⟩

theorem FactsOnly.trans (first : FactsOnly db middle) (second : FactsOnly middle next) :
    FactsOnly db next := by
  refine ⟨?_, Nat.le_trans first.drawn second.drawn⟩
  rw [second.frame, first.frame]

theorem FactsOnly.evidenceOnly (facts : FactsOnly db next) : EvidenceOnly db next :=
  ⟨by rw [facts.frame], facts.drawn⟩

theorem EventsOnly.evidenceOnly (events : EventsOnly db next) : EvidenceOnly db next :=
  ⟨by rw [events.frame], events.drawn⟩

theorem ReviewsOnly.evidenceOnly (reviews : ReviewsOnly db next) : EvidenceOnly db next :=
  ⟨by rw [reviews.frame], reviews.drawn⟩

theorem reviewsOnly_composes : Composes ReviewsOnly where
  refl _ := ⟨rfl, Nat.le_refl _⟩
  trans := by
    intro db middle next first second
    refine ⟨?_, Nat.le_trans first.drawn second.drawn⟩
    rw [second.frame, first.frame]

theorem EvidenceOnly.refl (db : Database) : EvidenceOnly db db := ⟨rfl, Nat.le_refl _⟩

theorem EvidenceOnly.trans (first : EvidenceOnly db middle) (second : EvidenceOnly middle next) :
    EvidenceOnly db next := by
  refine ⟨?_, Nat.le_trans first.drawn second.drawn⟩
  rw [second.frame, first.frame]

theorem PlaceOnly.refl (db : Database) : PlaceOnly db db := ⟨rfl, Nat.le_refl _⟩

theorem PlaceOnly.trans (first : PlaceOnly db middle) (second : PlaceOnly middle next) :
    PlaceOnly db next := by
  refine ⟨?_, Nat.le_trans first.drawn second.drawn⟩
  rw [second.frame, first.frame]

namespace EvidenceOnly

variable (evidence : EvidenceOnly db next)

include evidence

theorem listings : next.listings = db.listings := by rw [evidence.frame]
theorem links : next.links = db.links := by rw [evidence.frame]
theorem merges : next.merges = db.merges := by rw [evidence.frame]
theorem overrides : next.overrides = db.overrides := by rw [evidence.frame]
end EvidenceOnly

namespace PlaceOnly

variable (place : PlaceOnly db next)

include place

theorem listings : next.listings = db.listings := by rw [place.frame]
theorem links : next.links = db.links := by rw [place.frame]
theorem merges : next.merges = db.merges := by rw [place.frame]
theorem events : next.events = db.events := by rw [place.frame]
theorem duplicateCandidates : next.duplicateCandidates = db.duplicateCandidates := by
  rw [place.frame]
theorem reviewIssues : next.reviewIssues = db.reviewIssues := by rw [place.frame]

end PlaceOnly

/-! ## Evidence -/

/-- Recording a fact writes assertions and resolutions only. -/
theorem recordFact_factsOnly {ids : IdSupply} {record : FactRecord}
    (recorded : db.recordFact ids now record = .ok next) : FactsOnly db next := by
  obtain ⟨override, _, wrote⟩ := bind_eq_ok.mp recorded
  cases override with
  | some _ =>
      cases wrote
      exact ⟨rfl, Nat.le_succ _⟩
  | none =>
      cases wrote
      exact ⟨rfl, Nat.le_add_right _ 2⟩

/-- Recording the facts of an observation writes assertions and resolutions only. -/
theorem recordListingFacts_factsOnly {listingId : Uuid} {observation : ParsedSourceObservation}
    {row : SourceObservation}
    (recorded : db.recordListingFacts env now listingId observation row = .ok next) :
    FactsOnly db next := by
  unfold recordListingFacts at recorded
  generalize listingFacts listingId observation row = records at recorded
  induction records generalizing db with
  | nil =>
      cases recorded
      exact .refl _
  | cons record rest ih =>
      rw [List.foldlM_cons] at recorded
      obtain ⟨middle, first, later⟩ := bind_eq_ok.mp recorded
      exact (recordFact_factsOnly first).trans (ih later)

/-- An event is inserted into its table only. -/
theorem insertEvent_eventsOnly (ids : IdSupply) (event : Uuid → ListingEvent) (db : Database) :
    EventsOnly db (db.insertEvent ids event).1 := by
  unfold insertEvent
  dsimp only
  split
  · exact ⟨rfl, Nat.le_refl _⟩
  · exact ⟨rfl, Nat.le_succ _⟩

theorem insertEvent_evidenceOnly (ids : IdSupply) (event : Uuid → ListingEvent) (db : Database) :
    EvidenceOnly db (db.insertEvent ids event).1 :=
  (insertEvent_eventsOnly ids event db).evidenceOnly

theorem emitEvent_evidenceOnly (row : SourceObservation) (listingId : Uuid)
    (eventType : ListingEventType) (before after : Option JsonObject) (db : Database) :
    EvidenceOnly db (db.emitEvent env row listingId eventType before after).1 :=
  insertEvent_evidenceOnly env.ids _ db

/-- A conflict with an override raises an issue only. -/
theorem raiseConflict_reviewsOnly (ids : IdSupply) (override : HumanOverride) (entityId : Uuid)
    (factKey : String) (incoming : JsonScalar) (db : Database) :
    ReviewsOnly db (db.raiseConflictWithOverride ids override entityId factKey incoming) := by
  unfold raiseConflictWithOverride
  split
  · exact reviewsOnly_composes.refl db
  · exact ⟨rfl, Nat.le_succ _⟩

theorem raiseConflict_evidenceOnly (ids : IdSupply) (override : HumanOverride) (entityId : Uuid)
    (factKey : String) (incoming : JsonScalar) (db : Database) :
    EvidenceOnly db (db.raiseConflictWithOverride ids override entityId factKey incoming) :=
  (raiseConflict_reviewsOnly ids override entityId factKey incoming db).evidenceOnly

/-- A proposal writes a candidate and its issue only. -/
theorem proposeDuplicate_reviewsOnly (listing : CanonicalListing) (rent : Nat) (db : Database)
    (other : CanonicalListing) : ReviewsOnly db (proposeDuplicate env listing rent db other) := by
  unfold proposeDuplicate
  split
  · exact reviewsOnly_composes.refl db
  · dsimp only
    split
    · exact reviewsOnly_composes.refl db
    · exact ⟨rfl, Nat.le_add_right _ 2⟩

/-- What each proposal keeps, the search for duplicates of a listing keeps. -/
theorem generateDuplicateCandidates_within {related : Database → Database → Prop}
    (composes : Composes related) (listing : CanonicalListing) (building : Building)
    (each : ∀ rent db other, related db (proposeDuplicate env listing rent db other))
    (db : Database) : related db (db.generateDuplicateCandidates env listing building) := by
  unfold generateDuplicateCandidates
  split
  · exact composes.refl db
  · split
    · exact composes.foldl id (each _) _ db
    · exact composes.refl db

theorem generateDuplicateCandidates_reviewsOnly (env : Environment) (listing : CanonicalListing)
    (building : Building) (db : Database) :
    ReviewsOnly db (db.generateDuplicateCandidates env listing building) :=
  generateDuplicateCandidates_within reviewsOnly_composes listing building
    (proposeDuplicate_reviewsOnly listing) db

/-- The listing and the link that `startListing` inserts. -/
def startedOn (env : Environment) (row : SourceObservation) (observation : ParsedSourceObservation)
    (method : DiscoveryMethod) (building : Building) (unitId : Option Uuid) (db : Database) :
    Database :=
  (db.insertListing
      (newListing row observation (env.ids.uuid db.drawn) building.buildingId unitId)).insertLink
    (newLink row method (env.ids.uuid (db.drawn + 1)) (env.ids.uuid db.drawn)
      .sourceNativeContinuity .high)

/-- A started listing gets its event, its facts and its proposals. -/
theorem startListing_eq_ok {row : SourceObservation} {observation : ParsedSourceObservation}
    {method : DiscoveryMethod} {building : Building} {unitId : Option Uuid}
    {outcome : NormalizationOutcome}
    (started : db.startListing env now row observation method building unitId =
      .ok (next, outcome)) :
    ∃ recorded, FactsOnly
        ((db.startedOn env row observation method building unitId).emitEvent env row
          (env.ids.uuid db.drawn) .created none
          (some [("lifecycle_status", .lifecycle .candidate)])).1
        recorded ∧
      next = recorded.generateDuplicateCandidates env
        (newListing row observation (env.ids.uuid db.drawn) building.buildingId unitId)
        building := by
  obtain ⟨recorded, facts, wrote⟩ := bind_eq_ok.mp started
  cases wrote
  exact ⟨recorded, recordListingFacts_factsOnly facts, rfl⟩

/-- Beyond its listing and its link a new listing writes evidence only. -/
theorem startListing_evidenceOnly {row : SourceObservation} {observation : ParsedSourceObservation}
    {method : DiscoveryMethod} {building : Building} {unitId : Option Uuid}
    {outcome : NormalizationOutcome}
    (started : db.startListing env now row observation method building unitId =
      .ok (next, outcome)) :
    EvidenceOnly (db.startedOn env row observation method building unitId) next := by
  obtain ⟨recorded, facts, rfl⟩ := startListing_eq_ok started
  exact ((emitEvent_evidenceOnly row _ _ _ _ _).trans facts.evidenceOnly).trans
    (generateDuplicateCandidates_reviewsOnly env _ building recorded).evidenceOnly

/-! ## Places -/

/-- The ways an address is resolved: by its fingerprint, as a new address, or as one that is
withheld. -/
inductive AddressResolved (env : Environment) (row : SourceObservation)
    (observation : ParsedSourceObservation) (db : Database) : Database → Address → Prop
  | found {raw : String} {address : Address}
      (stated : truthy observation.identity.rawAddressText = some raw)
      (only : db.addresses.filter (fun address =>
        address.addressFingerprint = some (addressFingerprint env.unicode raw)) = [address]) :
      AddressResolved env row observation db db address
  | added {raw : String} (stated : truthy observation.identity.rawAddressText = some raw)
      (absent : db.addresses.filter (fun address =>
        address.addressFingerprint = some (addressFingerprint env.unicode raw)) = []) :
      AddressResolved env row observation db
        { db with
          drawn := db.drawn + 1
          addresses := db.addresses ++ [statedAddress observation (env.ids.uuid db.drawn) raw
            (addressFingerprint env.unicode raw)] }
        (statedAddress observation (env.ids.uuid db.drawn) raw
          (addressFingerprint env.unicode raw))
  | withheld (unstated : truthy observation.identity.rawAddressText = none) :
      AddressResolved env row observation db
        { db with
          drawn := db.drawn + 1
          addresses := db.addresses ++ [withheldAddress row observation (env.ids.uuid db.drawn)] }
        (withheldAddress row observation (env.ids.uuid db.drawn))

/-- A resolved address is found, added or withheld. -/
theorem resolveAddress_resolved {row : SourceObservation} {observation : ParsedSourceObservation}
    {address : Address} (resolved : db.resolveAddress env row observation = .ok (next, address)) :
    AddressResolved env row observation db next address := by
  unfold resolveAddress at resolved
  split at resolved
  · rename_i raw stated
    obtain ⟨found, query, wrote⟩ := bind_eq_ok.mp resolved
    cases found with
    | some other =>
        cases wrote
        exact .found stated (scalarOneOrNone_eq_some.mp query)
    | none =>
        cases wrote
        exact .added stated (scalarOneOrNone_eq_none.mp query)
  · rename_i unstated
    cases resolved
    exact .withheld unstated

/-- The ways a unit is resolved: there is no label, or a unit with the label stands in the
building, occupied or vacant, or one is added. -/
inductive UnitResolved (env : Environment) (building : Building)
    (observation : ParsedSourceObservation) (db : Database) : Database → UnitMatch → Prop
  | unlabelled (unstated : observation.unitLabel = none) :
      UnitResolved env building observation db db .noLabel
  | occupied {label : String} {unit : BuildingUnit} {listing : CanonicalListing}
      (stated : observation.unitLabel = some label)
      (only : db.units.filter (fun unit => unit.buildingId = building.buildingId &&
        unit.unitFingerprint = some (unitFingerprint env.unicode label)) = [unit])
      (latest : db.latestListingOn env.scan unit.unitId = some listing) :
      UnitResolved env building observation db db (.occupied unit listing)
  | vacant {label : String} {unit : BuildingUnit} (stated : observation.unitLabel = some label)
      (only : db.units.filter (fun unit => unit.buildingId = building.buildingId &&
        unit.unitFingerprint = some (unitFingerprint env.unicode label)) = [unit])
      (empty : db.latestListingOn env.scan unit.unitId = none) :
      UnitResolved env building observation db db (.vacant unit)
  | added {label : String} {unit : BuildingUnit} (stated : observation.unitLabel = some label)
      (absent : db.units.filter (fun unit => unit.buildingId = building.buildingId &&
        unit.unitFingerprint = some (unitFingerprint env.unicode label)) = [])
      (id : unit.unitId = env.ids.uuid db.drawn)
      (inBuilding : unit.buildingId = building.buildingId)
      (fingerprint : unit.unitFingerprint = some (unitFingerprint env.unicode label)) :
      UnitResolved env building observation db
        { db with drawn := db.drawn + 1, units := db.units ++ [unit] } (.vacant unit)

/-- A resolved unit is unlabelled, occupied, vacant or added. -/
theorem resolveUnit_resolved {building : Building} {observation : ParsedSourceObservation}
    {unitMatch : UnitMatch}
    (resolved : db.resolveUnit env building observation = .ok (next, unitMatch)) :
    UnitResolved env building observation db next unitMatch := by
  unfold resolveUnit at resolved
  split at resolved
  · rename_i unstated
    cases resolved
    exact .unlabelled unstated
  · rename_i label stated
    obtain ⟨found, query, wrote⟩ := bind_eq_ok.mp resolved
    cases found with
    | some unit =>
        have only := scalarOneOrNone_eq_some.mp query
        dsimp only at wrote
        split at wrote
        · rename_i listing latest
          cases wrote
          exact .occupied stated only latest
        · rename_i empty
          cases wrote
          exact .vacant stated only empty
    | none =>
        cases wrote
        exact .added stated (scalarOneOrNone_eq_none.mp query) rfl rfl rfl

/-- The unit that is found stands in the building and has the fingerprint of the label. -/
theorem unit_of_only {building : Building} {label : String} {unit : BuildingUnit}
    (only : db.units.filter (fun unit => unit.buildingId = building.buildingId &&
      unit.unitFingerprint = some (unitFingerprint env.unicode label)) = [unit]) :
    unit ∈ db.units ∧ unit.buildingId = building.buildingId ∧
      unit.unitFingerprint = some (unitFingerprint env.unicode label) := by
  obtain ⟨inside, selected⟩ := List.mem_filter.mp (only ▸ List.mem_singleton_self unit)
  simp only [Bool.and_eq_true, decide_eq_true_eq] at selected
  exact ⟨inside, selected⟩

theorem resolveAddress_placeOnly {row : SourceObservation} {observation : ParsedSourceObservation}
    {address : Address} (resolved : db.resolveAddress env row observation = .ok (next, address)) :
    PlaceOnly db next := by
  cases resolveAddress_resolved resolved with
  | found => exact .refl _
  | added | withheld => exact ⟨rfl, Nat.le_succ _⟩

/-- Resolving a building writes places only. -/
theorem resolveBuilding_placeOnly {address : Address} {building : Building}
    (resolved : db.resolveBuilding env address = .ok (next, building)) : PlaceOnly db next := by
  obtain ⟨found, _, wrote⟩ := bind_eq_ok.mp resolved
  cases found with
  | some _ =>
      cases wrote
      exact .refl _
  | none =>
      cases wrote
      exact ⟨rfl, Nat.le_succ _⟩

/-- Resolving a unit writes places only. -/
theorem resolveUnit_placeOnly {building : Building} {observation : ParsedSourceObservation}
    {unitMatch : UnitMatch}
    (resolved : db.resolveUnit env building observation = .ok (next, unitMatch)) :
    PlaceOnly db next := by
  cases resolveUnit_resolved resolved with
  | unlabelled | occupied | vacant => exact .refl _
  | added => exact ⟨rfl, Nat.le_succ _⟩

theorem resolveUnit_buildings {building : Building} {observation : ParsedSourceObservation}
    {unitMatch : UnitMatch}
    (resolved : db.resolveUnit env building observation = .ok (next, unitMatch)) :
    next.buildings = db.buildings := by
  cases resolveUnit_resolved resolved <;> rfl

/-- Resolving a place writes addresses, buildings and units only. -/
theorem resolvePlace_placeOnly {row : SourceObservation} {observation : ParsedSourceObservation}
    {building : Building} {unitMatch : UnitMatch}
    (resolved : db.resolvePlace env row observation = .ok (next, building, unitMatch)) :
    PlaceOnly db next := by
  obtain ⟨⟨first, address⟩, resolvedAddress, resolved⟩ := bind_eq_ok.mp resolved
  obtain ⟨⟨second, place⟩, resolvedBuilding, resolved⟩ := bind_eq_ok.mp resolved
  obtain ⟨⟨third, found⟩, resolvedUnit, wrote⟩ := bind_eq_ok.mp resolved
  cases wrote
  exact ((resolveAddress_placeOnly resolvedAddress).trans
    (resolveBuilding_placeOnly resolvedBuilding)).trans (resolveUnit_placeOnly resolvedUnit)

/-! ## Fields -/

/-- A field update either leaves the listings alone or writes a stated value that
differs and that no active override governs. -/
theorem applyField_eq_ok {row : SourceObservation} {listing : CanonicalListing} {factKey : String}
    {eventType : ListingEventType} {stated : Option JsonScalar} {current : JsonScalar}
    {write : CanonicalListing → CanonicalListing} {emitted after : List ListingEventType}
    (applied : applyField env row listing factKey eventType stated current write (db, emitted) =
      .ok (next, after)) :
    (EvidenceOnly db next ∧ after = emitted ∧ (∀ incoming, stated = some incoming →
      incoming ≠ current →
        db.activeOverride .listing listing.canonicalListingId factKey ≠ .ok none)) ∨
    ∃ incoming middle events, stated = some incoming ∧ incoming ≠ current ∧
      db.activeOverride .listing listing.canonicalListingId factKey = .ok none ∧
      EvidenceOnly db middle ∧ after = emitted ++ events ∧
      next = middle.updateListing listing.canonicalListingId write := by
  unfold applyField at applied
  dsimp only at applied
  split at applied
  · cases applied
    exact .inl ⟨.refl db, rfl, by simp⟩
  · rename_i incoming
    split at applied
    · rename_i same
      cases applied
      exact .inl ⟨.refl db, rfl, fun _ stated differs => (differs (by simp_all)).elim⟩
    · rename_i differs
      obtain ⟨override, query, wrote⟩ := bind_eq_ok.mp applied
      cases override with
      | some override =>
          have governed : db.activeOverride .listing listing.canonicalListingId factKey ≠
              .ok none := by simp [query]
          dsimp only at wrote
          split at wrote
          · cases wrote
            exact .inl ⟨.refl db, rfl, fun _ _ _ => governed⟩
          · cases wrote
            exact .inl ⟨raiseConflict_evidenceOnly env.ids override _ _ _ db, rfl,
              fun _ _ _ => governed⟩
      | none =>
          cases wrote
          exact .inr ⟨incoming, _, _, rfl, differs, query,
            emitEvent_evidenceOnly row listing.canonicalListingId eventType _ _ db, rfl, rfl⟩

/-- The ways a field update ends: nothing is stated, the value is the listing's, an
active override agrees with it or disagrees, or it is written with its event. -/
inductive FieldStep (env : Environment) (row : SourceObservation) (listing : CanonicalListing)
    (factKey : String) (eventType : ListingEventType) (stated : Option JsonScalar)
    (current : JsonScalar) (write : CanonicalListing → CanonicalListing) (db : Database) :
    Database → List ListingEventType → Prop
  | unstated (silent : stated = none) :
      FieldStep env row listing factKey eventType stated current write db db []
  | agrees (same : stated = some current) :
      FieldStep env row listing factKey eventType stated current write db db []
  | overridden {incoming : JsonScalar} {override : HumanOverride} (states : stated = some incoming)
      (differs : incoming ≠ current)
      (governs : db.activeOverride .listing listing.canonicalListingId factKey =
        .ok (some override))
      (same : incoming = override.overrideValue) :
      FieldStep env row listing factKey eventType stated current write db db []
  | disputed {incoming : JsonScalar} {override : HumanOverride} (states : stated = some incoming)
      (differs : incoming ≠ current)
      (governs : db.activeOverride .listing listing.canonicalListingId factKey =
        .ok (some override))
      (disagrees : incoming ≠ override.overrideValue) :
      FieldStep env row listing factKey eventType stated current write db
        (db.raiseConflictWithOverride env.ids override listing.canonicalListingId factKey
          incoming) []
  | written {incoming : JsonScalar} (states : stated = some incoming) (differs : incoming ≠ current)
      (free : db.activeOverride .listing listing.canonicalListingId factKey = .ok none) :
      FieldStep env row listing factKey eventType stated current write db
        ((db.emitEvent env row listing.canonicalListingId eventType (some [(factKey, current)])
          (some [(factKey, incoming)])).1.updateListing listing.canonicalListingId write)
        (db.emitEvent env row listing.canonicalListingId eventType (some [(factKey, current)])
          (some [(factKey, incoming)])).2

/-- **What a field can do.** A relation between databases that a conflict over the field and an
event with the write of the field keep is kept by the update of the field. -/
theorem FieldStep.within {row : SourceObservation} {listing : CanonicalListing} {factKey : String}
    {eventType : ListingEventType} {stated : Option JsonScalar} {current : JsonScalar}
    {write : CanonicalListing → CanonicalListing} {events : List ListingEventType}
    {related : Database → Database → Prop} (composes : Composes related)
    (step : FieldStep env row listing factKey eventType stated current write db next events)
    (disputed : ∀ override incoming, related db (db.raiseConflictWithOverride env.ids override
      listing.canonicalListingId factKey incoming))
    (emitted : ∀ before after, related db
      (db.emitEvent env row listing.canonicalListingId eventType before after).1)
    (written : ∀ db, related db (db.updateListing listing.canonicalListingId write)) :
    related db next := by
  cases step with
  | unstated _ | agrees _ | overridden _ _ _ _ => exact composes.refl db
  | disputed _ _ _ _ => exact disputed _ _
  | written _ _ _ => exact composes.trans (emitted _ _) (written _)

/-- A field update that does not fail is one step of its field. -/
theorem applyField_cases {row : SourceObservation} {listing : CanonicalListing} {factKey : String}
    {eventType : ListingEventType} {stated : Option JsonScalar} {current : JsonScalar}
    {write : CanonicalListing → CanonicalListing} {emitted after : List ListingEventType}
    (applied : applyField env row listing factKey eventType stated current write (db, emitted) =
      .ok (next, after)) :
    ∃ events, after = emitted ++ events ∧
      FieldStep env row listing factKey eventType stated current write db next events := by
  unfold applyField at applied
  dsimp only at applied
  split at applied
  · cases applied
    exact ⟨[], (List.append_nil _).symm, .unstated rfl⟩
  · rename_i incoming
    split at applied
    · rename_i same
      cases applied
      exact ⟨[], (List.append_nil _).symm, .agrees (congrArg some same)⟩
    · rename_i differs
      obtain ⟨override, query, wrote⟩ := bind_eq_ok.mp applied
      cases override with
      | none =>
          cases wrote
          exact ⟨_, rfl, .written rfl differs query⟩
      | some override =>
          dsimp only at wrote
          split at wrote
          · rename_i same
            cases wrote
            exact ⟨[], (List.append_nil _).symm, .overridden rfl differs query same⟩
          · rename_i disagrees
            cases wrote
            exact ⟨[], (List.append_nil _).symm, .disputed rfl differs query disagrees⟩

/-! ## Known identities -/

/-- The three ways `_update_existing` ends: the row is the latest observation
already, it has the content of the latest one, or its statements are applied. -/
inductive Update (env : Environment) (row : SourceObservation)
    (observation : ParsedSourceObservation) (link : ListingSourceLink) (listing : CanonicalListing)
    (db : Database) : Database → Prop
  | replayed (same : link.latestObservationId = row.sourceObservationId) :
      Update env row observation link listing db db
  | sameContent (new : link.latestObservationId ≠ row.sourceObservationId)
      (same : db.sameContent link row = true) :
      Update env row observation link listing db (db.touchFreshness link listing row)
  | applied (new : link.latestObservationId ≠ row.sourceObservationId)
      (differs : db.sameContent link row = false) {recorded rented available washed : Database}
      {first second third : List ListingEventType}
      (facts : FactsOnly (db.touchFreshness link listing row) recorded)
      (rent : applyRent env row observation listing (recorded, []) = .ok (rented, first))
      (availability : applyAvailability env row observation listing (rented, first) =
        .ok (available, second))
      (laundry : applyLaundry env row observation listing (available, second) =
        .ok (washed, third))
      {next : Database} (wrote : next = washed ∨
        next = washed.updateListing listing.canonicalListingId fun listing =>
          { listing with lastMaterialChangeAt := row.observedAt }) :
      Update env row observation link listing db next

/-- An update of a known identity that does not fail is one of the three ways of `Update`. -/
theorem updateExisting_cases {row : SourceObservation} {observation : ParsedSourceObservation}
    {link : ListingSourceLink} {outcome : NormalizationOutcome}
    (updated : db.updateExisting env now row observation link = .ok (next, outcome)) :
    ∃ listing, db.listing? link.canonicalListingId = some listing ∧
      Update env row observation link listing db next := by
  unfold updateExisting at updated
  dsimp only at updated
  split at updated
  · cases updated
  · rename_i listing found
    refine ⟨listing, found, ?_⟩
    split at updated
    · rename_i same
      cases updated
      exact .replayed same
    · rename_i new
      split at updated
      · rename_i same
        cases updated
        exact .sameContent new same
      · rename_i differs
        obtain ⟨recorded, facts, updated⟩ := bind_eq_ok.mp updated
        obtain ⟨⟨rented, first⟩, rent, updated⟩ := bind_eq_ok.mp updated
        obtain ⟨⟨available, second⟩, availability, updated⟩ := bind_eq_ok.mp updated
        obtain ⟨⟨washed, third⟩, laundry, wrote⟩ := bind_eq_ok.mp updated
        refine .applied new (Bool.not_eq_true _ ▸ differs) (recordListingFacts_factsOnly facts) rent
          availability laundry ?_
        dsimp only at wrote
        split at wrote
        · cases wrote
          exact .inl rfl
        · cases wrote
          exact .inr rfl

/-- A row that is new and passes the content check records its facts and goes through
the three field updates. -/
theorem updateExisting_applied {row : SourceObservation} {observation : ParsedSourceObservation}
    {link : ListingSourceLink} {listing : CanonicalListing} {outcome : NormalizationOutcome}
    (found : db.listing? link.canonicalListingId = some listing)
    (new : link.latestObservationId ≠ row.sourceObservationId)
    (differs : db.sameContent link row = false)
    (updated : db.updateExisting env now row observation link = .ok (next, outcome)) :
    ∃ recorded rented available washed first second third,
      (db.touchFreshness link listing row).recordListingFacts env now listing.canonicalListingId
          observation row = .ok recorded ∧
        applyRent env row observation listing (recorded, []) = .ok (rented, first) ∧
        applyAvailability env row observation listing (rented, first) = .ok (available, second) ∧
        applyLaundry env row observation listing (available, second) = .ok (washed, third) ∧
        next = if third = [] then washed else
          washed.updateListing listing.canonicalListingId fun listing =>
            { listing with lastMaterialChangeAt := row.observedAt } := by
  unfold updateExisting at updated
  simp only [found, new, differs, ↓reduceIte, Bool.false_eq_true] at updated
  obtain ⟨recorded, facts, updated⟩ := bind_eq_ok.mp updated
  obtain ⟨⟨rented, first⟩, rent, updated⟩ := bind_eq_ok.mp updated
  obtain ⟨⟨available, second⟩, availability, updated⟩ := bind_eq_ok.mp updated
  obtain ⟨⟨washed, third⟩, laundry, wrote⟩ := bind_eq_ok.mp updated
  refine ⟨recorded, rented, available, washed, first, second, third, facts, rent, availability,
    laundry, ?_⟩
  dsimp only at wrote
  split at wrote
  · rename_i silent
    cases wrote
    rw [if_pos silent]
  · rename_i loud
    cases wrote
    rw [if_neg loud]

/-- The update wrote links, listings and evidence only. -/
structure InventoryOnly (db next : Database) : Prop where
  frame : next = { db with
    drawn := next.drawn
    links := next.links
    listings := next.listings
    duplicateCandidates := next.duplicateCandidates
    reviewIssues := next.reviewIssues
    events := next.events
    assertions := next.assertions
    resolutions := next.resolutions }

theorem InventoryOnly.trans (first : InventoryOnly db middle) (second : InventoryOnly middle next) :
    InventoryOnly db next :=
  ⟨by rw [second.frame, first.frame]⟩

theorem EvidenceOnly.inventoryOnly (evidence : EvidenceOnly db next) : InventoryOnly db next :=
  ⟨by rw [evidence.frame]⟩

theorem updateListing_inventoryOnly (id : Uuid) (change : CanonicalListing → CanonicalListing)
    (db : Database) : InventoryOnly db (db.updateListing id change) := ⟨rfl⟩

/-- Touching the freshness of a link writes the link and its listing only. -/
theorem touchFreshness_frame (link : ListingSourceLink) (listing : CanonicalListing)
    (row : SourceObservation) (db : Database) :
    db.touchFreshness link listing row = { db with
      links := (db.touchFreshness link listing row).links
      listings := (db.touchFreshness link listing row).listings } := by
  unfold touchFreshness
  dsimp only
  split <;> rfl

theorem touchFreshness_inventoryOnly (link : ListingSourceLink) (listing : CanonicalListing)
    (row : SourceObservation) (db : Database) :
    InventoryOnly db (db.touchFreshness link listing row) :=
  ⟨by rw [touchFreshness_frame]⟩

/-- A field update writes its listing and evidence only. -/
theorem applyField_inventoryOnly {row : SourceObservation} {listing : CanonicalListing}
    {factKey : String} {eventType : ListingEventType} {stated : Option JsonScalar}
    {current : JsonScalar} {write : CanonicalListing → CanonicalListing}
    {emitted after : List ListingEventType}
    (applied : applyField env row listing factKey eventType stated current write (db, emitted) =
      .ok (next, after)) : InventoryOnly db next := by
  rcases applyField_eq_ok applied with
    ⟨evidence, _⟩ | ⟨incoming, middle, events, _, _, _, evidence, _, rfl⟩
  · exact evidence.inventoryOnly
  · exact evidence.inventoryOnly.trans (updateListing_inventoryOnly _ _ _)

/-- The write is about columns that an observation can state, and the time of their change. -/
def WritesFields (write : CanonicalListing → CanonicalListing) : Prop :=
  ∀ listing, write listing = { listing with
    monthlyRentMinor := (write listing).monthlyRentMinor
    availabilityStatus := (write listing).availabilityStatus
    laundryType := (write listing).laundryType
    indoorLaundryBadgeEligible := (write listing).indoorLaundryBadgeEligible
    lastMaterialChangeAt := (write listing).lastMaterialChangeAt }

/-- The events that an update of a listing emits. -/
def fieldEvents : List ListingEventType := [.priceChanged, .availabilityChanged, .laundryChanged]

/-- **What an update can do.** A relation between databases is kept by an update when the touch
of the freshness keeps it, and so do recorded facts, conflicts, the events of fields and the
writes of fields. -/
theorem Update.within {row : SourceObservation} {observation : ParsedSourceObservation}
    {link : ListingSourceLink} {listing : CanonicalListing}
    {related : Database → Database → Prop} (composes : Composes related)
    (update : Update env row observation link listing db next)
    (touched : related db (db.touchFreshness link listing row))
    (recorded : ∀ {db next}, FactsOnly db next → related db next)
    (disputed : ∀ factKey override incoming db, related db (db.raiseConflictWithOverride env.ids
      override listing.canonicalListingId factKey incoming))
    (emitted : ∀ eventType ∈ fieldEvents, ∀ before after db, related db
      (db.emitEvent env row listing.canonicalListingId eventType before after).1)
    (written : ∀ write, WritesFields write → ∀ db,
      related db (db.updateListing listing.canonicalListingId write)) : related db next := by
  have field : ∀ {factKey eventType stated current write db emissions next after},
      eventType ∈ fieldEvents → WritesFields write →
        applyField env row listing factKey eventType stated current write (db, emissions) =
          .ok (next, after) → related db next := by
    intro factKey eventType stated current write db emissions next after listed fields applied
    obtain ⟨events, -, step⟩ := applyField_cases applied
    exact step.within composes (disputed factKey · · db) (emitted eventType listed · · db)
      (written write fields)
  cases update with
  | replayed _ => exact composes.refl db
  | sameContent _ _ => exact touched
  | applied _ _ facts rent availability laundry wrote =>
      have noted := composes.trans touched (recorded facts)
      have priced := composes.trans noted (field (by decide) (fun _ => rfl) rent)
      have opened := composes.trans priced (field (by decide) (fun _ => rfl) availability)
      have furnished := composes.trans opened (field (by decide) (fun _ => rfl) laundry)
      rcases wrote with rfl | rfl
      · exact furnished
      · exact composes.trans furnished (written _ (fun _ => rfl) _)

/-- An update of a known identity writes inventory and evidence only. -/
theorem Update.inventoryOnly {row : SourceObservation} {observation : ParsedSourceObservation}
    {link : ListingSourceLink} {listing : CanonicalListing}
    (update : Update env row observation link listing db next) : InventoryOnly db next :=
  update.within ⟨fun _ => ⟨rfl⟩, .trans⟩ (touchFreshness_inventoryOnly link listing row db)
    (fun facts => facts.evidenceOnly.inventoryOnly)
    (fun _ _ _ _ => (raiseConflict_evidenceOnly ..).inventoryOnly)
    (fun _ _ _ _ _ => (emitEvent_evidenceOnly ..).inventoryOnly)
    fun write _ db => updateListing_inventoryOnly _ write db

/-- What `_touch_freshness` does to the listings. -/
theorem touchFreshness_listings (link : ListingSourceLink) (listing : CanonicalListing)
    (row : SourceObservation) (db : Database) :
    (db.touchFreshness link listing row).listings =
      (db.updateListing listing.canonicalListingId fun listing =>
        { listing with lastSeenAt := max listing.lastSeenAt row.observedAt }).listings := by
  unfold touchFreshness
  dsimp only
  split <;> rfl

/-- What `_touch_freshness` does to each link. -/
def touchLink (link : ListingSourceLink) (row : SourceObservation) (other : ListingSourceLink) :
    ListingSourceLink :=
  if link.lastSeenAt ≤ row.observedAt ∧ other.listingSourceLinkId = link.listingSourceLinkId then
    { other with
      lastSeenAt := row.observedAt
      latestObservationId := row.sourceObservationId }
  else other

/-- Freshness touches the links of the observation. -/
theorem touchFreshness_links (link : ListingSourceLink) (listing : CanonicalListing)
    (row : SourceObservation) (db : Database) :
    (db.touchFreshness link listing row).links = db.links.map (touchLink link row) := by
  unfold touchFreshness touchLink
  by_cases fresh : link.lastSeenAt ≤ row.observedAt
  · simp [fresh, updateListing, updateLink, updateWhere]
  · simp [fresh, updateListing]

/-- A field update leaves the links alone. -/
theorem applyField_links {row : SourceObservation} {listing : CanonicalListing} {factKey : String}
    {eventType : ListingEventType} {stated : Option JsonScalar} {current : JsonScalar}
    {write : CanonicalListing → CanonicalListing} {emitted after : List ListingEventType}
    (applied : applyField env row listing factKey eventType stated current write (db, emitted) =
      .ok (next, after)) : next.links = db.links := by
  rcases applyField_eq_ok applied with
    ⟨evidence, _⟩ | ⟨incoming, middle, events, _, _, _, evidence, _, rfl⟩
  · exact evidence.links
  · exact evidence.links

/-- Beyond the freshness of its link an update leaves the links alone. -/
theorem Update.links {row : SourceObservation} {observation : ParsedSourceObservation}
    {link : ListingSourceLink} {listing : CanonicalListing}
    (update : Update env row observation link listing db next) :
    next.links = if link.latestObservationId = row.sourceObservationId then db.links
      else db.links.map (touchLink link row) := by
  cases update with
  | replayed same => rw [if_pos same]
  | sameContent new _ => rw [if_neg new, touchFreshness_links]
  | applied new _ facts rent availability laundry wrote =>
      rw [if_neg new, ← touchFreshness_links link listing row db,
        ← facts.evidenceOnly.links, ← applyField_links rent, ← applyField_links availability,
        ← applyField_links laundry]
      rcases wrote with rfl | rfl <;> rfl

/-- A change of the links that keeps source identities keeps what `_find_link` finds. -/
theorem findLink_map {change : ListingSourceLink → ListingSourceLink}
    (keeps : ∀ link, (change link).sourceId = link.sourceId ∧
      (change link).sourceNativeId = link.sourceNativeId ∧ (change link).sourceUrl = link.sourceUrl)
    (links : next.links = db.links.map change) (row : SourceObservation) :
    next.findLink row = (db.findLink row).map (Option.map change) := by
  have query : ∀ (rows : List ListingSourceLink),
      (scalarOneOrNone .multipleResultsFound (rows.map change) :
        Except ServiceError (Option ListingSourceLink)) =
          (scalarOneOrNone .multipleResultsFound rows).map (Option.map change) := by
    rintro (_ | ⟨_, _ | ⟨_, _⟩⟩) <;> rfl
  unfold findLink
  cases row.sourceNativeId with
  | some nativeId =>
      simp only [links, List.filter_map, query, Function.comp_def, (keeps _).1, (keeps _).2.1]
  | none =>
      simp only [links, List.filter_map, query, Function.comp_def, (keeps _).1, (keeps _).2.2]

theorem touchLink_keeps (link : ListingSourceLink) (row : SourceObservation)
    (other : ListingSourceLink) : (touchLink link row other).sourceId = other.sourceId ∧
      (touchLink link row other).sourceNativeId = other.sourceNativeId ∧
        (touchLink link row other).sourceUrl = other.sourceUrl := by
  unfold touchLink
  split <;> exact ⟨rfl, rfl, rfl⟩

theorem touchLink_owner (link : ListingSourceLink) (row : SourceObservation)
    (other : ListingSourceLink) :
    (touchLink link row other).canonicalListingId = other.canonicalListingId := by
  unfold touchLink
  split <;> rfl

/-- An observation with a known identity leaves the link of the identity with its
listing. -/
theorem Update.findLink {row : SourceObservation} {observation : ParsedSourceObservation}
    {link : ListingSourceLink} {listing : CanonicalListing}
    (update : Update env row observation link listing db next)
    (known : db.findLink row = .ok (some link)) :
    ∃ later, next.findLink row = .ok (some later) ∧
      later.canonicalListingId = link.canonicalListingId := by
  have links := update.links
  by_cases same : link.latestObservationId = row.sourceObservationId
  · rw [if_pos same] at links
    refine ⟨link, ?_, rfl⟩
    simpa only [Database.findLink, links] using known
  · rw [if_neg same] at links
    refine ⟨touchLink link row link, ?_, touchLink_owner ..⟩
    rw [findLink_map (touchLink_keeps link row) links, known]
    rfl

end Database

end RentalAgent
