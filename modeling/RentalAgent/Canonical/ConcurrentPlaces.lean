import RentalAgent.Canonical.Durability
import RentalAgent.Foundation.ReadCommitted

/-! # Places of concurrent calls

A call for a new source identity looks its address, its building and its unit up and adds
what it does not find; the three tables enforce no key. Alone, the statements of a call
are `Database.resolvePlace` (`placeProgram_refines`). Of calls that several workers run at
once, two may miss the same address, building or unit, and both add it; the keys stay
unique just when no key is committed between the lookup that missed it and the commit
(`places_unique_iff`).
-/

namespace RentalAgent

open ReadCommitted Relational Transition

/-- A row of one of the three tables of places. -/
inductive PlaceRow
  | address (address : Address)
  | building (building : Building)
  | unit (unit : BuildingUnit)
  deriving DecidableEq

/-- What the code takes for the identity of a place. -/
inductive PlaceKey
  | address (fingerprint : String)
  | building (addressId : Uuid)
  | unit (buildingId : Uuid) (fingerprint : String)
  deriving DecidableEq

namespace PlaceRow

def address? : PlaceRow → Option Address
  | .address row => some row
  | .building _ | .unit _ => none

def building? : PlaceRow → Option Building
  | .building row => some row
  | .address _ | .unit _ => none

def unit? : PlaceRow → Option BuildingUnit
  | .unit row => some row
  | .address _ | .building _ => none

/-- The key of a row; a placeholder for a withheld address has none. -/
def key : PlaceRow → Option PlaceKey
  | .address row =>
      if row.addressLine1.isSome then row.addressFingerprint.map .address else none
  | .building row => some (.building row.addressId)
  | .unit row => row.unitFingerprint.map (.unit row.buildingId)

end PlaceRow

/-- The statements of a call: it ends with the building and the unit of the observation. -/
abbrev PlaceProgram := Transaction Uuid PlaceRow ServiceError (Uuid × Option Uuid)

/-- The address statements of `_create_canonical`. -/
def addressStatements (unicode : UnicodeTables) (row : SourceObservation)
    (observation : ParsedSourceObservation) (rest : Uuid → PlaceProgram) : PlaceProgram :=
  match truthy observation.identity.rawAddressText with
  | some raw =>
      let fingerprint := addressFingerprint unicode raw
      .selectOne PlaceRow.address? (fun address => address.addressFingerprint = some fingerprint)
        .multipleResultsFound fun
          | some address => rest address.addressId
          | none =>
              .insert (fun id => .address (statedAddress observation id raw fingerprint)) rest
  | none => .insert (fun id => .address (withheldAddress row observation id)) rest

/-- The building statements of `_create_canonical`. -/
def buildingStatements (addressId : Uuid) (rest : Uuid → PlaceProgram) : PlaceProgram :=
  .selectOne PlaceRow.building? (fun building => building.addressId = addressId)
    .multipleResultsFound fun
      | some building => rest building.buildingId
      | none => .insert (fun id => .building ⟨id, addressId⟩) rest

/-- The unit statements of `_create_canonical`. -/
def unitStatements (unicode : UnicodeTables) (observation : ParsedSourceObservation)
    (buildingId : Uuid) : PlaceProgram :=
  match observation.unitLabel with
  | none => .finish (.ok (buildingId, none))
  | some label =>
      let fingerprint := unitFingerprint unicode label
      .selectOne PlaceRow.unit?
        (fun unit => unit.buildingId = buildingId && unit.unitFingerprint = some fingerprint)
        .multipleResultsFound fun
          | some unit => .finish (.ok (buildingId, some unit.unitId))
          | none =>
              .insert
                (fun id => .unit
                  { unitId := id
                    buildingId := buildingId
                    canonicalUnitLabel := some label
                    unitFingerprint := some fingerprint
                    layoutClass := observation.layout.proposedLayoutClass })
                fun id => .finish (.ok (buildingId, some id))

/-- The statements about places of a call for an observation of a new identity. -/
def placeProgram (unicode : UnicodeTables) (row : SourceObservation) : PlaceProgram :=
  addressStatements unicode row row.parsedPayload fun addressId =>
    buildingStatements addressId fun buildingId =>
      unitStatements unicode row.parsedPayload buildingId

/-- Workers that run calls for new identities side by side. -/
abbrev PlaceSystem (Worker : Type) :=
  System Worker Uuid PlaceRow ServiceError (Uuid × Option Uuid)

section Workers

variable {Worker : Type} [DecidableEq Worker]

def placeStep (ids : IdSupply) (unicode : UnicodeTables) :
    PlaceSystem Worker → Action Worker SourceObservation → PlaceSystem Worker :=
  System.step ids.uuid (placeProgram unicode)

/-- The workers and the committed rows after the actions, from empty tables. -/
abbrev placesAfter (ids : IdSupply) (unicode : UnicodeTables)
    (actions : List (Action Worker SourceObservation)) : PlaceSystem Worker :=
  run (placeStep ids unicode) System.empty actions

end Workers

/-- At most one address for each fingerprint of a stated address, at most one building
for each address, at most one unit for each building and fingerprint. -/
structure PlacesUnique (rows : List PlaceRow) : Prop where
  addresses : UniqueIndex
    (fun address : Address => address.addressLine1.isSome ∧ address.addressFingerprint.isSome)
    Address.addressFingerprint (rows.filterMap PlaceRow.address?)
  buildings : UniqueIndex (fun _ => True) Building.addressId (rows.filterMap PlaceRow.building?)
  units : UniqueIndex (fun unit : BuildingUnit => unit.unitFingerprint.isSome)
    (fun unit => (unit.buildingId, unit.unitFingerprint)) (rows.filterMap PlaceRow.unit?)

/-- Two rows have different keys when each table keeps its own apart. -/
theorem key_apart_iff (first second : PlaceRow) :
    (∀ value, first.key = some value → second.key ≠ some value) ↔
      (∀ address ∈ first.address?, ∀ other ∈ second.address?,
        address.addressLine1.isSome ∧ address.addressFingerprint.isSome →
          other.addressLine1.isSome ∧ other.addressFingerprint.isSome →
            address.addressFingerprint ≠ other.addressFingerprint) ∧
      (∀ building ∈ first.building?, ∀ other ∈ second.building?,
        building.addressId ≠ other.addressId) ∧
      ∀ unit ∈ first.unit?, ∀ other ∈ second.unit?,
        unit.unitFingerprint.isSome → other.unitFingerprint.isSome →
          (unit.buildingId, unit.unitFingerprint) ≠ (other.buildingId, other.unitFingerprint) := by
  cases first with
  | address first =>
      cases second with
      | address second =>
          cases one : first.addressFingerprint <;> cases two : second.addressFingerprint <;>
            simp [PlaceRow.key, PlaceRow.address?, PlaceRow.building?, PlaceRow.unit?, one, two]
          grind
      | building _ | unit _ =>
          simp [PlaceRow.key, PlaceRow.address?, PlaceRow.building?, PlaceRow.unit?]
          grind
  | building first =>
      cases second with
      | building second =>
          simp [PlaceRow.key, PlaceRow.address?, PlaceRow.building?, PlaceRow.unit?]
          exact not_congr ⟨Eq.symm, Eq.symm⟩
      | address _ | unit _ =>
          simp [PlaceRow.key, PlaceRow.address?, PlaceRow.building?, PlaceRow.unit?]
  | unit first =>
      cases second with
      | unit second =>
          cases one : first.unitFingerprint <;> cases two : second.unitFingerprint <;>
            simp [PlaceRow.key, PlaceRow.address?, PlaceRow.building?, PlaceRow.unit?, one, two]
          grind
      | address _ | building _ =>
          simp [PlaceRow.key, PlaceRow.address?, PlaceRow.building?, PlaceRow.unit?]

/-- The rows of the three tables have unique keys just when the places are unique. -/
theorem uniqueKeys_iff_placesUnique (rows : List PlaceRow) :
    UniqueKeys PlaceRow.key rows ↔ PlacesUnique rows := by
  have tables : PlacesUnique rows ↔
      UniqueIndex (fun address : Address =>
          address.addressLine1.isSome ∧ address.addressFingerprint.isSome)
        Address.addressFingerprint (rows.filterMap PlaceRow.address?) ∧
      UniqueIndex (fun _ => True) Building.addressId (rows.filterMap PlaceRow.building?) ∧
      UniqueIndex (fun unit : BuildingUnit => unit.unitFingerprint.isSome)
        (fun unit => (unit.buildingId, unit.unitFingerprint)) (rows.filterMap PlaceRow.unit?) :=
    ⟨fun ⟨first, second, third⟩ => ⟨first, second, third⟩,
      fun ⟨first, second, third⟩ => ⟨first, second, third⟩⟩
  rw [tables]
  unfold UniqueIndex UniqueKeys
  rw [List.pairwise_filterMap, List.pairwise_filterMap, List.pairwise_filterMap,
    ← List.pairwise_and_iff, ← List.pairwise_and_iff]
  refine List.Pairwise.iff fun first second => (key_apart_iff first second).trans ?_
  simp only [Option.mem_def, true_imp_iff]

/-! ## Careful calls -/

/-- Selecting an address by its fingerprint looks up its key. -/
theorem looksUp_address (fingerprint : String) :
    LooksUp PlaceRow.key (fun row => row.address?.any fun address =>
      address.addressFingerprint = some fingerprint) (.address fingerprint) where
  finds row keyed := by
    cases row with
    | address row =>
        obtain ⟨_, printed⟩ := Option.ite_none_right_eq_some.mp keyed
        obtain ⟨_, has, same⟩ := Option.map_eq_some_iff.mp printed
        cases same
        simp [PlaceRow.address?, has]
    | building _ => cases keyed
    | unit row =>
        obtain ⟨_, _, same⟩ := Option.map_eq_some_iff.mp keyed
        cases same
  only row selected := by
    cases row with
    | address row =>
        have has : row.addressFingerprint = some fingerprint := by
          simpa [PlaceRow.address?] using selected
        by_cases stated : row.addressLine1.isSome = true
        · exact .inl (by simp [PlaceRow.key, stated, has])
        · exact .inr (by simp [PlaceRow.key, stated])
    | building _ | unit _ => cases selected

/-- Selecting a building by its address looks up its key. -/
theorem looksUp_building (addressId : Uuid) :
    LooksUp PlaceRow.key (fun row => row.building?.any fun building =>
      building.addressId = addressId) (.building addressId) where
  finds row keyed := by
    cases row with
    | address row =>
        obtain ⟨_, printed⟩ := Option.ite_none_right_eq_some.mp keyed
        obtain ⟨_, _, same⟩ := Option.map_eq_some_iff.mp printed
        cases same
    | building row =>
        cases keyed
        simp [PlaceRow.building?]
    | unit row =>
        obtain ⟨_, _, same⟩ := Option.map_eq_some_iff.mp keyed
        cases same
  only row selected := by
    cases row with
    | building row =>
        have same : row.addressId = addressId := by simpa [PlaceRow.building?] using selected
        exact .inl (by simp [PlaceRow.key, same])
    | address _ | unit _ => cases selected

/-- Selecting a unit by its building and fingerprint looks up its key. -/
theorem looksUp_unit (buildingId : Uuid) (fingerprint : String) :
    LooksUp PlaceRow.key (fun row => row.unit?.any fun unit =>
      unit.buildingId = buildingId && unit.unitFingerprint = some fingerprint)
        (.unit buildingId fingerprint) where
  finds row keyed := by
    cases row with
    | address row =>
        obtain ⟨_, printed⟩ := Option.ite_none_right_eq_some.mp keyed
        obtain ⟨_, _, same⟩ := Option.map_eq_some_iff.mp printed
        cases same
    | building _ => cases keyed
    | unit row =>
        obtain ⟨_, has, same⟩ := Option.map_eq_some_iff.mp keyed
        cases same
        simp [PlaceRow.unit?, has]
  only row selected := by
    cases row with
    | unit row =>
        have same : row.buildingId = buildingId ∧ row.unitFingerprint = some fingerprint := by
          simpa [PlaceRow.unit?] using selected
        exact .inl (by simp [PlaceRow.key, same.1, same.2])
    | address _ | building _ => cases selected

variable {unicode : UnicodeTables} {row : SourceObservation}
  {observation : ParsedSourceObservation}

/-- The statements about a unit look up the key of the row that they insert. -/
theorem unitStatements_careful (buildingId : Uuid) {own : List PlaceRow}
    (notOwn : ∀ row ∈ own, row.unit? = none) :
    (unitStatements unicode observation buildingId).failed = false ∧
      Careful PlaceRow.key none own (unitStatements unicode observation buildingId) := by
  unfold unitStatements
  split
  · exact ⟨rfl, trivial⟩
  · refine ⟨rfl, careful_selectOne (looksUp_unit _ _)
      (fun row member => by simp [notOwn row member]) (fun found => by cases found <;> rfl)
      (fun id => ⟨fun value keyed => ?_, rfl, trivial⟩) fun _ => trivial⟩
    simpa [PlaceRow.key] using keyed

/-- The statements about a building look up the keys of the rows that they insert. -/
theorem buildingStatements_careful (addressId : Uuid) {own : List PlaceRow}
    (noBuilding : ∀ row ∈ own, row.building? = none) (noUnit : ∀ row ∈ own, row.unit? = none) :
    Careful PlaceRow.key none own (buildingStatements addressId fun buildingId =>
      unitStatements unicode observation buildingId) := by
  refine careful_selectOne (looksUp_building addressId)
    (fun row member => by simp [noBuilding row member]) (fun found => ?_) (fun id => ?_)
    fun found => ?_
  · cases found with
    | none => rfl
    | some building => exact (unitStatements_careful building.buildingId noUnit).1
  · have stays : ∀ row ∈ own ++ [PlaceRow.building ⟨id, addressId⟩], row.unit? = none := by
      intro row member
      rcases List.mem_append.mp member with old | new
      · exact noUnit row old
      · cases List.mem_singleton.mp new
        rfl
    exact ⟨fun value keyed => keyed, unitStatements_careful id stays⟩
  · exact (unitStatements_careful found.buildingId noUnit).2

/-- Calls look up the key of what they add, and raise only at several rows. -/
theorem placeProgram_careful (unicode : UnicodeTables) (row : SourceObservation) :
    (placeProgram unicode row).failed = false ∧
      Careful PlaceRow.key none [] (placeProgram unicode row) := by
  have rest : ∀ (address : Address) (addressId : Uuid),
      Careful PlaceRow.key none [PlaceRow.address address]
        (buildingStatements addressId fun buildingId =>
          unitStatements unicode row.parsedPayload buildingId) := fun address addressId =>
    buildingStatements_careful addressId (by simp [PlaceRow.building?]) (by simp [PlaceRow.unit?])
  unfold placeProgram addressStatements
  split
  · rename_i raw _
    refine ⟨rfl, careful_selectOne (looksUp_address _) (by simp)
      (fun found => by cases found <;> rfl) (fun id => ⟨fun value keyed => ?_, rfl, rest _ id⟩)
      fun found => buildingStatements_careful found.addressId (by simp) (by simp)⟩
    simpa [PlaceRow.key, statedAddress] using keyed
  · exact ⟨rfl, fun id => ⟨fun value keyed => by simp [PlaceRow.key, withheldAddress] at keyed, rfl,
      rest _ id⟩⟩

/-! ## A call alone -/

/-- The rows are those of the three tables. -/
structure HoldsPlaces (rows : List PlaceRow) (db : Database) : Prop where
  addresses : rows.filterMap PlaceRow.address? = db.addresses
  buildings : rows.filterMap PlaceRow.building? = db.buildings
  units : rows.filterMap PlaceRow.unit? = db.units

section Alone

variable {env : Environment} {db next : Database} {rows : List PlaceRow}
  {rest : Uuid → PlaceProgram}

/-- Both ran to the same end: the call returned what the function did and left the rows
of its database, or both raised. -/
def SameEnd (result : Except ServiceError (Database × Building × UnitMatch))
    (ended : (List PlaceRow × Nat) × Except ServiceError (Uuid × Option Uuid)) : Prop :=
  match result with
  | .ok (next, building, unitMatch) =>
      ended.2 = .ok (building.buildingId, unitMatch.unit.map BuildingUnit.unitId) ∧
        ended.1.2 = next.drawn ∧ HoldsPlaces ended.1.1 next
  | .error failure => ended.2 = .error failure

/-- A new address is held by the first table. -/
theorem HoldsPlaces.address (holds : HoldsPlaces rows db) (added : Address) (drawn : Nat) :
    HoldsPlaces (rows ++ [.address added])
      { db with drawn := drawn, addresses := db.addresses ++ [added] } := by
  refine ⟨?_, ?_, ?_⟩ <;> rw [List.filterMap_append]
  · rw [holds.addresses]
    rfl
  · exact (List.append_nil _).trans holds.buildings
  · exact (List.append_nil _).trans holds.units

/-- A new building is held by the second table. -/
theorem HoldsPlaces.building (holds : HoldsPlaces rows db) (added : Building) (drawn : Nat) :
    HoldsPlaces (rows ++ [.building added])
      { db with drawn := drawn, buildings := db.buildings ++ [added] } := by
  refine ⟨?_, ?_, ?_⟩ <;> rw [List.filterMap_append]
  · exact (List.append_nil _).trans holds.addresses
  · rw [holds.buildings]
    rfl
  · exact (List.append_nil _).trans holds.units

/-- A new unit is held by the third table. -/
theorem HoldsPlaces.unit (holds : HoldsPlaces rows db) (added : BuildingUnit) (drawn : Nat) :
    HoldsPlaces (rows ++ [.unit added])
      { db with drawn := drawn, units := db.units ++ [added] } := by
  refine ⟨?_, ?_, ?_⟩ <;> rw [List.filterMap_append]
  · exact (List.append_nil _).trans holds.addresses
  · exact (List.append_nil _).trans holds.buildings
  · rw [holds.units]
    rfl

/-- Alone, the statements about a unit end as `resolveUnit` does. -/
theorem unitStatements_alone (holds : HoldsPlaces rows db) (building : Building) :
    SameEnd (do
        let (db, unitMatch) ← db.resolveUnit env building observation
        return (db, building, unitMatch))
      ((unitStatements env.unicode observation building.buildingId).alone env.ids.uuid rows
        db.drawn) := by
  unfold unitStatements Database.resolveUnit
  cases observation.unitLabel with
  | none => exact ⟨rfl, rfl, holds⟩
  | some label =>
      dsimp only
      rw [alone_selectOne, holds.units]
      cases scalarOneOrNone ServiceError.multipleResultsFound (db.units.filter fun unit =>
          unit.buildingId = building.buildingId &&
            unit.unitFingerprint = some (unitFingerprint env.unicode label)) with
      | error failure => rfl
      | ok result =>
          cases result with
          | none => exact ⟨rfl, rfl, holds.unit _ _⟩
          | some unit =>
              simp only [ok_bind]
              split <;> exact ⟨rfl, rfl, holds⟩

/-- Alone, the statements about a building end as `resolveBuilding` and `resolveUnit` do. -/
theorem buildingStatements_alone (holds : HoldsPlaces rows db) (address : Address) :
    SameEnd (do
        let (db, building) ← db.resolveBuilding env address
        let (db, unitMatch) ← db.resolveUnit env building observation
        return (db, building, unitMatch))
      ((buildingStatements address.addressId fun buildingId =>
        unitStatements env.unicode observation buildingId).alone env.ids.uuid rows db.drawn) := by
  unfold buildingStatements Database.resolveBuilding
  rw [alone_selectOne, holds.buildings]
  cases scalarOneOrNone ServiceError.multipleResultsFound (db.buildings.filter fun building =>
      building.addressId = address.addressId) with
  | error failure => rfl
  | ok result =>
      cases result with
      | none => exact unitStatements_alone (holds.building _ _) _
      | some building => exact unitStatements_alone holds building

/-- **Refinement.** Alone, a call does what `resolvePlace` does. -/
theorem placeProgram_refines (holds : HoldsPlaces rows db) (env : Environment)
    (row : SourceObservation) :
    SameEnd (db.resolvePlace env row row.parsedPayload)
      ((placeProgram env.unicode row).alone env.ids.uuid rows db.drawn) := by
  unfold placeProgram addressStatements Database.resolvePlace Database.resolveAddress
  cases truthy row.parsedPayload.identity.rawAddressText with
  | none => exact buildingStatements_alone (holds.address _ _) _
  | some raw =>
      dsimp only
      rw [alone_selectOne, holds.addresses]
      cases scalarOneOrNone ServiceError.multipleResultsFound (db.addresses.filter fun address =>
          address.addressFingerprint = some (addressFingerprint env.unicode raw)) with
      | error failure => rfl
      | ok result =>
          cases result with
          | none => exact buildingStatements_alone (holds.address _ _) _
          | some address => exact buildingStatements_alone holds address

end Alone

/-! ## Workers side by side -/

/-- **Places of concurrent calls.** However the statements of any number of workers are
interleaved, in every state addresses, buildings and units are unique and no lookup has
found several rows, just when no row is committed whose key another call has committed
since the lookup that missed it, and an address lookup that finds a placeholder finds
nothing else. -/
theorem places_unique_iff {Worker : Type} [DecidableEq Worker] (ids : IdSupply)
    (unicode : UnicodeTables) (actions : List (Action Worker SourceObservation)) :
    (∀ earlier later, actions = earlier ++ later →
      PlacesUnique (placesAfter ids unicode earlier).committed ∧
        ∀ worker session, (placesAfter ids unicode earlier).session worker = some session →
          session.program.failed = false) ↔
    Permitted (placeStep ids unicode) (System.Valid PlaceRow.key) System.empty actions := by
  have healthy : (∀ earlier later, actions = earlier ++ later →
      (placesAfter ids unicode earlier).Healthy PlaceRow.key) ↔
        Permitted (placeStep ids unicode) (System.Valid PlaceRow.key) System.empty actions :=
    healthy_iff (fun row => (placeProgram_careful unicode row).2)
      (fun row => (placeProgram_careful unicode row).1) (sound_empty _) (healthy_empty _) actions
  rw [← healthy]
  refine forall_congr' fun earlier => forall_congr' fun later => imp_congr_right fun _ => ?_
  rw [← uniqueKeys_iff_placesUnique]
  exact ⟨fun both => ⟨both.1, both.2⟩, fun both => ⟨both.unique, both.answered⟩⟩

/-! ## Two calls for one apartment -/

/-- Two workers look up the address of one apartment before either commits. -/
def apartmentRace : List (Action Nat SourceObservation) :=
  [.start 0 (Database.observedAt 1 1 "a" (some "A")),
    .start 1 (Database.observedAt 2 2 "b" (some "A")), .advance 0, .advance 1] ++
  List.replicate 5 (.advance 0) ++ List.replicate 5 (.advance 1) ++ [.commit 0, .commit 1]

/-- Both add the address, and the address lookup of a later call fails with two rows. -/
theorem apartment_duplicated :
    let raced := placesAfter countingIds Database.asciiTables apartmentRace
    let later := placesAfter countingIds Database.asciiTables
      (apartmentRace ++ [.start 2 (Database.observedAt 3 3 "c" (some "A")), .advance 2])
    (raced.committed.filterMap PlaceRow.address?).map Address.addressFingerprint =
        [some "1 main", some "1 main"] ∧
      ¬ PlacesUnique raced.committed ∧
      (later.session 2).map (fun session => session.program.failed) = some true := by
  intro raced later
  have fingerprints : (raced.committed.filterMap PlaceRow.address?).map Address.addressFingerprint =
      [some "1 main", some "1 main"] := by decide
  refine ⟨fingerprints, fun unique => ?_, by decide⟩
  exact absurd unique.addresses (by decide)

end RentalAgent
