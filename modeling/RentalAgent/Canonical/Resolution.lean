import RentalAgent.Canonical.Frames

/-! # What identity resolution finds

One lemma for each query of `_create_canonical`, and the three ways it ends
(`Database.createCanonical_cases`): the listing on the unit, the only strong match
without a unit, or a new listing. Processing an observation writes the canonical
tables only (`Database.processObservation_canonicalOnly`).
-/

namespace RentalAgent

open Relational

namespace Database

variable {env : Environment} {now : Timestamp} {db next : Database} {row : SourceObservation}
  {observation : ParsedSourceObservation} {method : DiscoveryMethod}
  {outcome : NormalizationOutcome}

/-! ## Listings -/

theorem latestListingOn_eq_some {scan : Uuid → Nat} {unitId : Uuid} {listing : CanonicalListing}
    (found : db.latestListingOn scan unitId = some listing) :
    listing ∈ db.listings ∧ listing.unitId = some unitId ∧ listing.lifecycleStatus ≠ .merged := by
  have member := List.mem_of_head? found
  rw [List.mem_insertionSort, List.mem_filter] at member
  simpa using member

/-- The strong match finds a listing when rent and layout are stated and it is the only match. -/
theorem strongMultiFieldMatch_eq_some {building : Building} {listing : CanonicalListing} :
    db.strongMultiFieldMatch building observation row = some listing ↔
      ∃ rent, observation.pricing.monthlyRentMinor = some rent ∧
        observation.layout.proposedLayoutClass.known = true ∧
        db.listings.filter (strongMatch db.links row building.buildingId
          observation.layout.proposedLayoutClass rent) = [listing] := by
  unfold strongMultiFieldMatch
  cases observation.pricing.monthlyRentMinor with
  | none => simp
  | some rent =>
      by_cases known : observation.layout.proposedLayoutClass.known = true
      · simp only [known, ↓reduceIte, Option.some.injEq, true_and, exists_eq_left']
        split
        · rename_i only same
          simp [same]
        · rename_i several
          simp only [reduceCtorEq, false_iff]
          exact several listing
      · simp [known]

/-- What the strong match finds is a listing that was not merged. -/
theorem strongMatch_of_strongMultiFieldMatch {building : Building} {listing : CanonicalListing}
    (found : db.strongMultiFieldMatch building observation row = some listing) :
    listing ∈ db.listings ∧ listing.lifecycleStatus ≠ .merged := by
  obtain ⟨rent, _, _, only⟩ := strongMultiFieldMatch_eq_some.mp found
  have member : listing ∈ db.listings.filter _ := only ▸ List.mem_singleton_self listing
  obtain ⟨inside, matched⟩ := List.mem_filter.mp member
  simp only [strongMatch, Bool.and_eq_true, decide_eq_true_eq] at matched
  exact ⟨inside, matched.1.1.2⟩

/-! ## Places -/

/-- What a labelled unit resolves to: a unit of the building with the fingerprint of
the label, and the latest listing on it. -/
structure UnitFound (env : Environment) (label : String) (building : Building) (db next : Database)
    (unitMatch : UnitMatch) (unit : BuildingUnit) : Prop where
  atUnit : unitMatch.unit = some unit
  member : unit ∈ next.units
  inBuilding : unit.buildingId = building.buildingId
  fingerprint : unit.unitFingerprint = some (unitFingerprint env.unicode label)
  occupied : ∀ listing, unitMatch.listing = some listing →
    next.latestListingOn env.scan unit.unitId = some listing
  vacant : unitMatch.listing = none → unit ∈ db.units →
    next.latestListingOn env.scan unit.unitId = none

/-- There is no unit just when there is no label. -/
theorem resolveUnit_eq_ok {building : Building} {unitMatch : UnitMatch}
    (resolved : db.resolveUnit env building observation = .ok (next, unitMatch)) :
    (unitMatch = .noLabel ∧ observation.unitLabel = none) ∨
      ∃ label unit, observation.unitLabel = some label ∧
        UnitFound env label building db next unitMatch unit := by
  cases resolveUnit_resolved resolved with
  | unlabelled unstated => exact .inl ⟨rfl, unstated⟩
  | occupied stated only latest =>
      obtain ⟨inside, inBuilding, fingerprint⟩ := unit_of_only only
      exact .inr ⟨_, _, stated, rfl, inside, inBuilding, fingerprint,
        fun _ same => latest.trans same, by simp [UnitMatch.listing]⟩
  | vacant stated only empty =>
      obtain ⟨inside, inBuilding, fingerprint⟩ := unit_of_only only
      exact .inr ⟨_, _, stated, rfl, inside, inBuilding, fingerprint,
        by simp [UnitMatch.listing], fun _ _ => empty⟩
  | added stated absent id inBuilding fingerprint =>
      refine .inr ⟨_, _, stated, rfl, List.mem_append_right _ (List.mem_singleton_self _),
        inBuilding, fingerprint, by simp [UnitMatch.listing], fun _ present => ?_⟩
      exact (List.filter_eq_nil_iff.mp absent _ present (by simp [inBuilding, fingerprint])).elim

theorem resolveAddress_units {address : Address}
    (resolved : db.resolveAddress env row observation = .ok (next, address)) :
    next.units = db.units := by
  cases resolveAddress_resolved resolved <;> rfl

theorem resolveBuilding_units {address : Address} {building : Building}
    (resolved : db.resolveBuilding env address = .ok (next, building)) :
    next.units = db.units := by
  obtain ⟨found, _, wrote⟩ := bind_eq_ok.mp resolved
  cases found <;> (cases wrote; rfl)

/-- The resolved place has a unit just when the observation has a label. -/
theorem resolvePlace_eq_ok {building : Building} {unitMatch : UnitMatch}
    (resolved : db.resolvePlace env row observation = .ok (next, building, unitMatch)) :
    (unitMatch = .noLabel ∧ observation.unitLabel = none) ∨
      ∃ label unit, observation.unitLabel = some label ∧
        UnitFound env label building db next unitMatch unit := by
  obtain ⟨⟨first, address⟩, addressed, resolved⟩ := bind_eq_ok.mp resolved
  obtain ⟨⟨second, place⟩, built, resolved⟩ := bind_eq_ok.mp resolved
  obtain ⟨⟨third, found⟩, unitResolved, wrote⟩ := bind_eq_ok.mp resolved
  cases wrote
  have units : second.units = db.units :=
    (resolveBuilding_units built).trans (resolveAddress_units addressed)
  rcases resolveUnit_eq_ok unitResolved with unlabelled | ⟨label, unit, stated, found⟩
  · exact .inl unlabelled
  · refine .inr ⟨label, unit, stated, found.atUnit, found.member, found.inBuilding,
      found.fingerprint, found.occupied, fun unoccupied present => ?_⟩
    exact found.vacant unoccupied (units ▸ present)

/-- A place that resolves to a listing on the unit names the latest one. -/
theorem resolvePlace_occupied {building : Building} {unit : BuildingUnit}
    {listing : CanonicalListing}
    (resolved : db.resolvePlace env row observation =
      .ok (next, building, .occupied unit listing)) :
    next.latestListingOn env.scan unit.unitId = some listing := by
  rcases resolvePlace_eq_ok resolved with ⟨unlabelled, _⟩ | ⟨label, other, _, found⟩
  · cases unlabelled
  · cases found.atUnit
    exact found.occupied listing rfl

/-! ## The ways a new identity ends -/

/-- The three ways `_create_canonical` ends. -/
inductive Creation (env : Environment) (now : Timestamp) (row : SourceObservation)
    (observation : ParsedSourceObservation) (method : DiscoveryMethod) (db : Database)
    (building : Building) : UnitMatch → Except ServiceError (Database × NormalizationOutcome) → Prop
  | exact {unit : BuildingUnit} {listing : CanonicalListing} :
      Creation env now row observation method db building (.occupied unit listing)
        (.ok (db.attachCrossSourceLink env row listing method .exactAddressAndUnit .high))
  | strong {listing : CanonicalListing}
      (found : db.strongMultiFieldMatch building observation row = some listing) :
      Creation env now row observation method db building .noLabel
        (.ok (db.attachCrossSourceLink env row listing method .strongMultiField .medium))
  | vacant {unit : BuildingUnit} :
      Creation env now row observation method db building (.vacant unit)
        (db.startListing env now row observation method building (some unit.unitId))
  | unmatched (ambiguous : db.strongMultiFieldMatch building observation row = none) :
      Creation env now row observation method db building .noLabel
        (db.startListing env now row observation method building none)

/-- A new identity resolves its place and ends in one of the ways of `Creation`. -/
theorem createCanonical_cases (created : db.createCanonical env now row observation method =
      .ok (next, outcome)) :
    ∃ place building unitMatch,
      db.resolvePlace env row observation = .ok (place, building, unitMatch) ∧
      Creation env now row observation method place building unitMatch (.ok (next, outcome)) := by
  obtain ⟨⟨place, building, unitMatch⟩, resolved, wrote⟩ := bind_eq_ok.mp created
  refine ⟨place, building, unitMatch, resolved, ?_⟩
  cases unitMatch with
  | occupied unit listing =>
      rw [← wrote]
      exact .exact
  | vacant unit =>
      rw [← wrote]
      exact .vacant
  | noLabel =>
      cases found : place.strongMultiFieldMatch building observation row with
      | some listing =>
          rw [← wrote]
          simp only [found]
          exact .strong found
      | none =>
          rw [← wrote]
          simp only [found]
          exact .unmatched found

/-- A new listing and its link have the next two ids. -/
theorem startListing_outcome {building : Building} {unitId : Option Uuid}
    (started : db.startListing env now row observation method building unitId =
      .ok (next, outcome)) :
    outcome.listingSourceLinkId = some (env.ids.uuid (db.drawn + 1)) ∧
      outcome.canonicalListingId = some (env.ids.uuid db.drawn) := by
  obtain ⟨_, _, wrote⟩ := bind_eq_ok.mp started
  cases wrote
  exact ⟨rfl, rfl⟩

/-- A new identity joins a listing of its place or starts one there. -/
theorem createCanonical_ends (created : db.createCanonical env now row observation method =
      .ok (next, outcome)) :
    ∃ place building unitMatch,
      db.resolvePlace env row observation = .ok (place, building, unitMatch) ∧
        ((∃ listing identity confidence,
            place.attachCrossSourceLink env row listing method identity confidence =
              (next, outcome)) ∨
          ∃ unitId, place.startListing env now row observation method building unitId =
            .ok (next, outcome)) := by
  obtain ⟨place, building, unitMatch, resolved, creation⟩ := createCanonical_cases created
  refine ⟨place, building, unitMatch, resolved, ?_⟩
  generalize result : Except.ok (next, outcome) = ended at creation
  cases creation with
  | exact => exact .inl ⟨_, _, _, (Except.ok.inj result).symm⟩
  | strong _ => exact .inl ⟨_, _, _, (Except.ok.inj result).symm⟩
  | vacant => exact .inr ⟨_, rfl⟩
  | unmatched _ => exact .inr ⟨_, rfl⟩

/-- A new identity gets a link, which the outcome names. -/
theorem createCanonical_link
    (created : db.createCanonical env now row observation method = .ok (next, outcome)) :
    ∃ id listingId identity confidence,
      next.links = db.links ++ [newLink row method id listingId identity confidence] ∧
        outcome.listingSourceLinkId = some id ∧ outcome.canonicalListingId = some listingId := by
  obtain ⟨place, building, unitMatch, resolved, ends⟩ := createCanonical_ends created
  rw [← (resolvePlace_placeOnly resolved).links]
  rcases ends with ⟨listing, identity, confidence, attached⟩ | ⟨unitId, started⟩
  · cases attached
    exact ⟨_, _, _, _, rfl, rfl, rfl⟩
  · obtain ⟨linkId, listingId⟩ := startListing_outcome started
    exact ⟨_, _, _, _, (startListing_evidenceOnly started).links, linkId, listingId⟩

/-! ## What processing writes -/

/-- The step wrote places, inventory and evidence only. -/
structure CanonicalOnly (db next : Database) : Prop where
  frame : next = { db with
    drawn := next.drawn
    addresses := next.addresses
    buildings := next.buildings
    units := next.units
    listings := next.listings
    links := next.links
    duplicateCandidates := next.duplicateCandidates
    reviewIssues := next.reviewIssues
    events := next.events
    assertions := next.assertions
    resolutions := next.resolutions }

theorem CanonicalOnly.trans {middle : Database} (first : CanonicalOnly db middle)
    (second : CanonicalOnly middle next) : CanonicalOnly db next :=
  ⟨by rw [second.frame, first.frame]⟩

theorem PlaceOnly.canonicalOnly (place : PlaceOnly db next) : CanonicalOnly db next :=
  ⟨by rw [place.frame]⟩

theorem InventoryOnly.canonicalOnly (inventory : InventoryOnly db next) : CanonicalOnly db next :=
  ⟨by rw [inventory.frame]⟩

/-- A new identity writes places, inventory and evidence only. -/
theorem createCanonical_canonicalOnly
    (created : db.createCanonical env now row observation method = .ok (next, outcome)) :
    CanonicalOnly db next := by
  obtain ⟨place, building, unitMatch, resolved, ends⟩ := createCanonical_ends created
  refine (resolvePlace_placeOnly resolved).canonicalOnly.trans ?_
  rcases ends with ⟨listing, identity, confidence, attached⟩ | ⟨unitId, started⟩
  · cases attached
    exact ⟨rfl⟩
  · have inserted :
        InventoryOnly place (place.startedOn env row observation method building unitId) :=
      ⟨rfl⟩
    exact (inserted.trans (startListing_evidenceOnly started).inventoryOnly).canonicalOnly

/-- What processing a row does: a row that was not parsed is put aside, a new identity is
resolved, and an observation of a known one goes to its link. -/
inductive Processes (env : Environment) (now : Timestamp) (method : DiscoveryMethod)
    (row : SourceObservation) (db next : Database) (outcome : NormalizationOutcome) : Prop
  | aside (unparsed : row.parseStatus ≠ .valid ∧ row.parseStatus ≠ .partialParse)
      (same : next = db) : Processes env now method row db next outcome
  | opened (parsed : row.parseStatus = .valid ∨ row.parseStatus = .partialParse)
      (unknown : db.findLink row = .ok none)
      (created : db.createCanonical env now row row.parsedPayload method = .ok (next, outcome)) :
      Processes env now method row db next outcome
  | continued {link : ListingSourceLink}
      (parsed : row.parseStatus = .valid ∨ row.parseStatus = .partialParse)
      (known : db.findLink row = .ok (some link))
      (updated : db.updateExisting env now row row.parsedPayload link = .ok (next, outcome)) :
      Processes env now method row db next outcome

/-- Normalization that does not fail ends in one of the ways of `Processes`. -/
theorem processObservation_processes {observationId : Uuid}
    (processed : db.processObservation env now method observationId = .ok (next, outcome)) :
    ∃ row, db.observation? observationId = some row ∧
      Processes env now method row db next outcome := by
  unfold processObservation at processed
  split at processed
  · cases processed
  · rename_i row found
    refine ⟨row, found, ?_⟩
    split at processed
    · rename_i unparsed
      cases processed
      exact .aside unparsed rfl
    · rename_i parsed
      rw [not_and_or, not_not, not_not] at parsed
      obtain ⟨link, query, wrote⟩ := bind_eq_ok.mp processed
      cases link with
      | none => exact .opened parsed query wrote
      | some link => exact .continued parsed query wrote

/-- Normalization writes places, inventory and evidence only. -/
theorem processObservation_canonicalOnly {observationId : Uuid}
    (processed : db.processObservation env now method observationId = .ok (next, outcome)) :
    CanonicalOnly db next := by
  obtain ⟨row, -, processes⟩ := processObservation_processes processed
  cases processes with
  | aside _ same => exact same ▸ ⟨rfl⟩
  | opened _ _ created => exact createCanonical_canonicalOnly created
  | continued _ _ updated =>
      obtain ⟨_, _, update⟩ := updateExisting_cases updated
      exact update.inventoryOnly.canonicalOnly

end Database

end RentalAgent
