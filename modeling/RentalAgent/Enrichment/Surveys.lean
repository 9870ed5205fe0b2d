import RentalAgent.Canonical.Sites
import RentalAgent.Canonical.Standings
import RentalAgent.Enrichment.Location

/-! # How addresses advance

The services, geocoding and scope validation write the same addresses. A located address
keeps its point and its precision, and an address with a verdict keeps it
(`Address.Advances`); every call writes addresses ahead and adds addresses without a verdict
(`Database.Surveys`).
-/

namespace RentalAgent

open Relational Transition

/-- The call, with the geography left to geocoding and scope validation. -/
def ServiceAction.grounded : ServiceAction → ServiceAction
  | .outside write => .outside { write with
      geography := fun address => (address.locationPrecision, address.boundaryStatus) }
  | action => action

/-- An address with a verdict is located. -/
def Address.Surveyed (address : Address) : Prop :=
  address.boundaryStatus ≠ .unresolved → address.locationPoint ≠ none

/-- A point stays with its precision, a verdict stays, and a verdict takes a point. -/
structure Address.Advances (old new : Address) : Prop where
  addressId : new.addressId = old.addressId
  located : old.locationPoint ≠ none →
    new.locationPoint = old.locationPoint ∧ new.locationPrecision = old.locationPrecision
  resolved : old.boundaryStatus ≠ .unresolved → new.boundaryStatus = old.boundaryStatus
  surveyed : old.Surveyed → new.Surveyed

theorem Address.Advances.refl (address : Address) : address.Advances address :=
  ⟨rfl, fun _ => ⟨rfl, rfl⟩, fun _ => rfl, id⟩

/-- What is gained in two advances is gained in one. -/
theorem Address.Advances.trans {old middle new : Address} (first : old.Advances middle)
    (second : middle.Advances new) : old.Advances new where
  addressId := second.addressId.trans first.addressId
  located point := by
    obtain ⟨samePoint, samePrecision⟩ := first.located point
    obtain ⟨laterPoint, laterPrecision⟩ := second.located (samePoint ▸ point)
    exact ⟨laterPoint.trans samePoint, laterPrecision.trans samePrecision⟩
  resolved verdict := by
    have same := first.resolved verdict
    exact (second.resolved (same ▸ verdict)).trans same
  surveyed := second.surveyed ∘ first.surveyed

namespace Database

/-- Addresses advance and are added without a verdict, and buildings are added. -/
structure Surveys (ids : IdSupply) (db next : Database) : Prop where
  addresses : ∃ (change : Address → Address) (more : List Address),
    next.addresses = db.addresses.map change ++ more ∧
      (∀ address ∈ db.addresses, address.Advances (change address)) ∧
      ∀ address ∈ more, address.Surveyed
  buildings : ∃ more, next.buildings = db.buildings ++ more
  keyed : Keyed ids db.drawn Address.addressId db.addresses →
    Keyed ids next.drawn Address.addressId next.addresses

variable {ids : IdSupply} {unicode : UnicodeTables} {env : LocationEnvironment}
  {now : Timestamp} {db middle next : Database}

/-- Surveys made one after the other are one survey. -/
theorem Surveys.trans (first : Surveys ids db middle) (second : Surveys ids middle next) :
    Surveys ids db next := by
  obtain ⟨change, more, wrote, advanced, surveyed⟩ := first.addresses
  obtain ⟨later, extra, laterWrote, laterAdvanced, laterSurveyed⟩ := second.addresses
  obtain ⟨built, buildings⟩ := first.buildings
  obtain ⟨laterBuilt, laterBuildings⟩ := second.buildings
  rw [wrote] at laterAdvanced
  refine ⟨⟨later ∘ change, more.map later ++ extra, ?_, fun address member => ?_, ?_⟩,
    ⟨built ++ laterBuilt, ?_⟩, second.keyed ∘ first.keyed⟩
  · rw [laterWrote, wrote, List.map_append, List.map_map, List.append_assoc]
  · have inside : change address ∈ db.addresses.map change ++ more :=
      List.mem_append_left _ (List.mem_map_of_mem member)
    exact (advanced address member).trans (laterAdvanced _ inside)
  · intro address member
    rcases List.mem_append.mp member with old | new
    · obtain ⟨added, inside, rfl⟩ := List.mem_map.mp old
      exact (laterAdvanced _ (List.mem_append_right _ inside)).surveyed (surveyed added inside)
    · exact laterSurveyed address new
  · rw [laterBuildings, buildings, List.append_assoc]

theorem surveys_of_same (addresses : next.addresses = db.addresses)
    (buildings : next.buildings = db.buildings) (drawn : db.drawn ≤ next.drawn) :
    Surveys ids db next where
  addresses := ⟨id, [], by simp [addresses], fun address _ => .refl address, by simp⟩
  buildings := ⟨[], by simp [buildings]⟩
  keyed keyed := addresses ▸ keyed.mono drawn

theorem Surveys.refl (db : Database) : Surveys ids db db :=
  surveys_of_same rfl rfl (Nat.le_refl _)

/-- Writing each address ahead. -/
theorem surveys_of_map {change : Address → Address}
    (addresses : next.addresses = db.addresses.map change)
    (advances : ∀ address ∈ db.addresses, address.Advances (change address))
    (buildings : next.buildings = db.buildings) (drawn : db.drawn ≤ next.drawn) :
    Surveys ids db next where
  addresses := ⟨change, [], by simp [addresses], advances, by simp⟩
  buildings := ⟨[], by simp [buildings]⟩
  keyed keyed := by
    have ids : next.addresses.map Address.addressId = db.addresses.map Address.addressId := by
      rw [addresses, List.map_map]
      exact List.map_congr_left fun address member => (advances address member).addressId
    refine ⟨primaryKey_iff_nodup.mpr (ids ▸ primaryKey_iff_nodup.mp keyed.primary),
      fun address member => ?_⟩
    obtain ⟨old, inside, same⟩ := List.mem_map.mp (ids ▸ List.mem_map_of_mem member)
    exact same ▸ (keyed.mono drawn).drawn old inside

/-! ## Geocoding -/

/-- Writing one address ahead. -/
theorem updateAddress_surveys {id : Uuid} {change : Address → Address}
    (advances : ∀ address ∈ db.addresses, address.addressId = id →
      address.Advances (change address)) : Surveys ids db (db.updateAddress id change) := by
  refine surveys_of_map rfl (fun address member => ?_) rfl (Nat.le_refl _)
  split
  · rename_i same
    exact advances address member (of_decide_eq_true same)
  · exact .refl address

/-- The step registered sources and recorded requests only. -/
structure RequestsOnly (db next : Database) : Prop where
  frame : next = { db with
    drawn := next.drawn
    sources := next.sources
    providerRequests := next.providerRequests }
  drawn : db.drawn ≤ next.drawn

theorem RequestsOnly.refl (db : Database) : RequestsOnly db db := ⟨rfl, Nat.le_refl _⟩

theorem RequestsOnly.trans (first : RequestsOnly db middle) (second : RequestsOnly middle next) :
    RequestsOnly db next := by
  refine ⟨?_, Nat.le_trans first.drawn second.drawn⟩
  rw [second.frame, first.frame]

theorem RequestsOnly.addresses (requests : RequestsOnly db next) :
    next.addresses = db.addresses := by
  rw [requests.frame]

theorem RequestsOnly.surveys (requests : RequestsOnly db next) : Surveys ids db next :=
  surveys_of_same requests.addresses (by rw [requests.frame]) requests.drawn

theorem geocoderSource_requestsOnly (ids : IdSupply) (providerCode : String) (db : Database) :
    RequestsOnly db (db.geocoderSource ids providerCode).1 := by
  unfold geocoderSource
  split
  · exact .refl db
  · exact ⟨rfl, Nat.le_succ _⟩

/-- Recording a request writes geocode requests only. -/
theorem recordRequest_requestsOnly (env : LocationEnvironment) (now : Timestamp)
    (providerCode queryText : String) (result : GeocodeResult) (db : Database) :
    RequestsOnly db (db.recordRequest env now providerCode queryText result) := by
  refine (geocoderSource_requestsOnly env.ids providerCode db).trans ?_
  unfold recordRequest
  dsimp only
  split
  · exact .refl _
  · exact ⟨rfl, Nat.le_succ _⟩

/-- Asking the geocoders writes geocode requests only. -/
theorem askGeocoders_requestsOnly (env : LocationEnvironment) (now : Timestamp) (address : Address)
    (request : GeocodeRequest) (geocoders : List Geocoder) (db : Database) :
    RequestsOnly db (askGeocoders env now address request geocoders db).db := by
  induction geocoders generalizing db with
  | nil => exact .refl db
  | cons geocoder rest ih =>
      unfold askGeocoders
      dsimp only
      split
      · exact ih db
      · split
        · exact recordRequest_requestsOnly ..
        · exact (recordRequest_requestsOnly ..).trans (ih _)

/-- Filling the columns of an address without a point. -/
theorem advances_locate {address : Address}
    (pending : address.locationPoint = none) (point : Point) (result : GeocodeResult)
    (sourceId : Uuid) (inputHash : String) :
    address.Advances (address.locate point result sourceId now inputHash) :=
  ⟨rfl, fun located => (located pending).elim, fun _ => rfl, fun _ _ => by simp [Address.locate]⟩

/-- Geocoding an address writes that address alone, ahead when it has no point. -/
theorem geocodeAddress_writes (env : LocationEnvironment) (now : Timestamp)
    (geocoders : List Geocoder) (address : Address) (db : Database) :
    ∃ (middle : Database) (change : Address → Address), RequestsOnly db middle ∧
      (db.geocodeAddress env now geocoders address).1 =
        middle.updateAddress address.addressId change ∧
      ∀ row : Address, row.locationPoint = none → row.Advances (change row) := by
  unfold geocodeAddress
  split
  · refine ⟨db, id, .refl db, ?_, fun row _ => .refl row⟩
    simp [updateAddress, updateWhere]
  · rename_i line _
    have asked := askGeocoders_requestsOnly env now address (address.geocodeRequest line) geocoders
      db
    dsimp only
    split
    · exact ⟨_, _, asked.trans (geocoderSource_requestsOnly env.ids _ _), rfl,
        fun row pending => advances_locate pending _ _ _ _⟩
    · exact ⟨_, _, asked, rfl, fun row _ => ⟨rfl, fun _ => ⟨rfl, rfl⟩, fun _ => rfl, id⟩⟩

/-- A round leaves the database as it was, or geocodes the address of the round. -/
theorem geocodeRound_writes (env : LocationEnvironment) (now : Timestamp)
    (geocoders : List Geocoder) (state : Database × GeocodeRunSummary) (address : Address) :
    (geocodeRound env now geocoders state address).1 = state.1 ∨
      (geocodeRound env now geocoders state address).1 =
        (state.1.geocodeAddress env now geocoders address).1 := by
  unfold geocodeRound
  dsimp only
  split
  · exact .inl rfl
  · split <;> exact .inr rfl

/-- A round for an address without a point leaves the other addresses as they are. -/
theorem geocodeRound_surveys {geocoders : List Geocoder} {state : Database × GeocodeRunSummary}
    {address : Address}
    (keyed : Keyed ids state.1.drawn Address.addressId state.1.addresses)
    (member : address ∈ state.1.addresses) (pending : address.locationPoint = none) :
    Surveys ids state.1 (geocodeRound env now geocoders state address).1 ∧
      ∀ other ∈ state.1.addresses, other.addressId ≠ address.addressId →
        other ∈ (geocodeRound env now geocoders state address).1.addresses := by
  rcases geocodeRound_writes env now geocoders state address with same | wrote
  · rw [same]
    exact ⟨.refl _, fun other inside _ => inside⟩
  · obtain ⟨middle, change, requests, written, advances⟩ :=
      geocodeAddress_writes env now geocoders address state.1
    rw [wrote, written]
    refine ⟨requests.surveys.trans (updateAddress_surveys fun row inside same => ?_),
      fun other inside apart => ?_⟩
    · obtain rfl := keyed.primary.eq_of_mem (requests.addresses ▸ inside) member same
      exact advances row pending
    · rw [← requests.addresses] at inside
      exact List.mem_map.mpr ⟨other, inside, by simp [apart]⟩

/-- Rounds over different addresses without a point survey the database: what one of them has
located is no longer among the rest. -/
theorem geocodeRounds_surveys {geocoders : List Geocoder} {rows : List Address}
    (state : Database × GeocodeRunSummary) (distinct : (rows.map Address.addressId).Nodup)
    (keyed : Keyed ids state.1.drawn Address.addressId state.1.addresses)
    (selected : ∀ row ∈ rows, row ∈ state.1.addresses ∧ row.locationPoint = none) :
    Surveys ids state.1 (rows.foldl (geocodeRound env now geocoders) state).1 := by
  induction rows generalizing state with
  | nil => exact .refl _
  | cons row rest ih =>
      obtain ⟨apart, distinct⟩ := List.nodup_cons.mp distinct
      obtain ⟨⟨member, pending⟩, later⟩ := List.forall_mem_cons.mp selected
      obtain ⟨surveys, others⟩ := geocodeRound_surveys keyed member pending
      refine surveys.trans (ih _ distinct (surveys.keyed keyed) fun other inside => ?_)
      refine ⟨others other (later other inside).1 fun same => apart ?_, (later other inside).2⟩
      exact same ▸ List.mem_map_of_mem inside

/-- A pass of geocoding surveys the database. -/
theorem geocodePending_surveys (keyed : Keyed ids db.drawn Address.addressId db.addresses)
    (geocoders : List Geocoder) (scan : Uuid → Nat) (limit : Nat) :
    Surveys ids db (db.geocodePending env now geocoders scan limit).1 := by
  refine geocodeRounds_surveys (db, {}) ?_ keyed fun row member => ?_
  · have sorted := (List.perm_insertionSort (fun first second : Address =>
      scan first.addressId ≤ scan second.addressId) (db.addresses.filter Address.pending))
    refine List.Nodup.sublist ((List.take_sublist _ _).map _) ?_
    rw [(sorted.map Address.addressId).nodup_iff]
    exact (primaryKey_iff_nodup.mp keyed.primary).sublist (List.filter_sublist.map _)
  · obtain ⟨inside, pending⟩ :=
      List.mem_filter.mp ((List.mem_insertionSort _).mp (List.mem_of_mem_take member))
    simp only [Address.pending, Bool.and_eq_true, decide_eq_true_eq] at pending
    exact ⟨inside, pending.1⟩

/-! ## Scope validation -/

/-- The last row of an address decides; an address without a row stays as it is. -/
theorem judgeRows_writes (rows : List ScopeRow) (state : Database × ScopeRunSummary) :
    ∃ change : Address → Address,
      (rows.foldl judgeRow state).1 =
          { state.1 with addresses := state.1.addresses.map change } ∧
        ∀ address, (change address = address ∧ ∀ row ∈ rows, row.1 ≠ address.addressId) ∨
          ∃ row ∈ rows, row.1 = address.addressId ∧
            change address = { address with boundaryStatus := ScopeRow.status row } := by
  induction rows generalizing state with
  | nil => exact ⟨id, by simp, fun address => .inl ⟨rfl, by simp⟩⟩
  | cons row rest ih =>
      obtain ⟨later, wrote, decided⟩ := ih (judgeRow state row)
      refine ⟨later ∘ fun address => if address.addressId = row.1 then
          { address with boundaryStatus := ScopeRow.status row } else address, ?_,
        fun address => ?_⟩
      · rw [List.foldl_cons, wrote]
        simp [judgeRow, updateAddress, updateWhere]
      · simp only [Function.comp_apply]
        split
        · rename_i same
          rcases decided { address with boundaryStatus := ScopeRow.status row } with
            ⟨stays, _⟩ | ⟨other, member, sameId, judged⟩
          · exact .inr ⟨row, List.mem_cons_self, same.symm, stays⟩
          · exact .inr ⟨other, List.mem_cons_of_mem _ member, sameId, judged⟩
        · rename_i apart
          rcases decided address with ⟨stays, unnamed⟩ | ⟨other, member, sameId, judged⟩
          · exact .inl ⟨stays, List.forall_mem_cons.mpr ⟨fun same => apart same.symm, unnamed⟩⟩
          · exact .inr ⟨other, List.mem_cons_of_mem _ member, sameId, judged⟩

/-- A row of the query is about a located address without a verdict, and about a boundary
that its point meets when there is one. -/
theorem mem_scopeRows {row : ScopeRow} :
    row ∈ db.scopeRows env ↔ ∃ address ∈ db.addresses, address.locationPoint ≠ none ∧
      address.boundaryStatus = .unresolved ∧ row.1 = address.addressId ∧
        (db.regionsOf env address = [] ∧ row.2 = none ∨
          ∃ code ∈ db.regionsOf env address, row.2 = some code) := by
  simp only [scopeRows, List.mem_flatMap, List.mem_filter, Bool.and_eq_true,
    decide_eq_true_eq, Option.isSome_iff_ne_none, and_assoc]
  refine exists_congr fun address => and_congr_right fun _ => and_congr_right fun _ =>
    and_congr_right fun _ => ?_
  obtain ⟨id, region⟩ := row
  cases db.regionsOf env address with
  | nil => simp
  | cons code codes =>
      simp only [List.mem_map, Prod.mk.injEq, reduceCtorEq, false_and, false_or]
      constructor
      · rintro ⟨other, member, rfl, rfl⟩
        exact ⟨rfl, other, member, rfl⟩
      · rintro ⟨rfl, other, member, rfl⟩
        exact ⟨other, member, rfl, rfl⟩

theorem mem_selectedRows {scan : ScopeRow → Nat} {limit : Nat} {row : ScopeRow}
    (selected : row ∈ db.selectedRows env scan limit) : row ∈ db.scopeRows env :=
  (List.mem_insertionSort _).mp (List.mem_of_mem_take selected)

/-- Validation writes the verdicts of the rows it selects, and no other column. -/
theorem validateBoundaries_writes (env : LocationEnvironment) (scan : ScopeRow → Nat)
    (limit : Nat) (db : Database) :
    ∃ change : Address → Address,
      (db.validateBoundaries env scan limit).1 =
          { db with addresses := db.addresses.map change } ∧
        ∀ address, (change address = address ∧ (db.boundaries ≠ [] →
            ∀ row ∈ db.selectedRows env scan limit, row.1 ≠ address.addressId)) ∨
          (db.boundaries ≠ [] ∧ ∃ row ∈ db.selectedRows env scan limit,
            row.1 = address.addressId ∧
              change address = { address with boundaryStatus := ScopeRow.status row }) := by
  unfold validateBoundaries
  split
  · rename_i empty
    exact ⟨id, by simp, fun address => .inl ⟨rfl, fun loaded => (loaded empty).elim⟩⟩
  · rename_i loaded
    obtain ⟨change, wrote, decided⟩ := judgeRows_writes (db.selectedRows env scan limit) (db, {})
    exact ⟨change, wrote, fun address => (decided address).imp
      (fun ⟨stays, unnamed⟩ => ⟨stays, fun _ => unnamed⟩) fun judged => ⟨loaded, judged⟩⟩

/-- The address of a selected row, when ids are unique. -/
theorem located_of_selected (keyed : PrimaryKey Address.addressId db.addresses)
    {scan : ScopeRow → Nat} {limit : Nat} {row : ScopeRow} {address : Address}
    (selected : row ∈ db.selectedRows env scan limit) (member : address ∈ db.addresses)
    (same : row.1 = address.addressId) :
    address.locationPoint ≠ none ∧ address.boundaryStatus = .unresolved ∧
      (db.regionsOf env address = [] ∧ row.2 = none ∨
        ∃ code ∈ db.regionsOf env address, row.2 = some code) := by
  obtain ⟨other, inside, located, unresolved, sameId, regions⟩ :=
    mem_scopeRows.mp (mem_selectedRows selected)
  obtain rfl := keyed.eq_of_mem inside member (sameId.symm.trans same)
  exact ⟨located, unresolved, regions⟩

/-- A pass of scope validation surveys the database. -/
theorem validateBoundaries_surveys (keyed : Keyed ids db.drawn Address.addressId db.addresses)
    (scan : ScopeRow → Nat) (limit : Nat) :
    Surveys ids db (db.validateBoundaries env scan limit).1 := by
  obtain ⟨change, wrote, decided⟩ := validateBoundaries_writes env scan limit db
  rw [wrote]
  refine surveys_of_map rfl (fun address member => ?_) rfl (Nat.le_refl _)
  rcases decided address with ⟨stays, _⟩ | ⟨_, row, selected, same, judged⟩
  · rw [stays]
    exact .refl address
  · obtain ⟨located, unresolved, _⟩ := located_of_selected keyed.primary selected member same
    rw [judged]
    exact ⟨rfl, fun _ => ⟨rfl, rfl⟩, fun verdict => (verdict unresolved).elim, fun _ _ => located⟩

theorem upsertBoundary_surveys (upload : BoundaryUpload) (db : Database) :
    Surveys ids db (db.upsertBoundary env.ids upload).1 := by
  unfold upsertBoundary
  split
  · exact .refl db
  · exact surveys_of_same rfl rfl (Nat.le_succ _)

/-! ## The services -/

section Services

variable {place : Environment} {row : SourceObservation} {observation : ParsedSourceObservation}
  {method : DiscoveryMethod} {outcome : NormalizationOutcome}

/-- A new address has no verdict. -/
theorem insertAddress_surveys {address : Address} (id : address.addressId = ids.uuid db.drawn)
    (unresolved : address.boundaryStatus = .unresolved) :
    Surveys ids db { db with drawn := db.drawn + 1, addresses := db.addresses ++ [address] } where
  addresses := by
    refine ⟨fun address => address, [address], by simp, fun address _ => .refl address,
      fun other member => ?_⟩
    obtain rfl := List.mem_singleton.mp member
    exact fun verdict => (verdict unresolved).elim
  buildings := ⟨[], (List.append_nil _).symm⟩
  keyed keyed := keyed.insert id

theorem resolveAddress_surveys {address : Address}
    (resolved : db.resolveAddress place row observation = .ok (next, address)) :
    Surveys place.ids db next := by
  cases resolveAddress_resolved resolved with
  | found => exact .refl _
  | added | withheld => exact insertAddress_surveys rfl rfl

/-- Resolving a building adds an address without a verdict, or none. -/
theorem resolveBuilding_surveys {address : Address} {building : Building}
    (resolved : db.resolveBuilding place address = .ok (next, building)) :
    Surveys place.ids db next := by
  obtain ⟨found, _, wrote⟩ := bind_eq_ok.mp resolved
  cases found with
  | some _ =>
      cases wrote
      exact .refl _
  | none =>
      cases wrote
      exact ⟨⟨id, [], by simp, fun address _ => .refl address, by simp⟩, ⟨_, rfl⟩,
        fun keyed => keyed.mono (Nat.le_succ _)⟩

theorem resolveUnit_surveys {building : Building} {unitMatch : UnitMatch}
    (resolved : db.resolveUnit place building observation = .ok (next, unitMatch)) :
    Surveys place.ids db next := by
  cases resolveUnit_resolved resolved with
  | unlabelled | occupied | vacant => exact .refl _
  | added => exact surveys_of_same rfl rfl (Nat.le_succ _)

/-- Resolving a place surveys the database as its building does. -/
theorem resolvePlace_surveys {building : Building} {unitMatch : UnitMatch}
    (resolved : db.resolvePlace place row observation = .ok (next, building, unitMatch)) :
    Surveys place.ids db next := by
  obtain ⟨⟨first, address⟩, resolvedAddress, resolved⟩ := bind_eq_ok.mp resolved
  obtain ⟨⟨second, lot⟩, resolvedBuilding, resolved⟩ := bind_eq_ok.mp resolved
  obtain ⟨⟨third, found⟩, resolvedUnit, wrote⟩ := bind_eq_ok.mp resolved
  cases wrote
  exact ((resolveAddress_surveys resolvedAddress).trans
    (resolveBuilding_surveys resolvedBuilding)).trans (resolveUnit_surveys resolvedUnit)

/-- Creating a listing surveys the database as its place does. -/
theorem createCanonical_surveys
    (created : db.createCanonical place now row observation method = .ok (next, outcome)) :
    Surveys place.ids db next := by
  obtain ⟨stand, building, unitMatch, resolved, ends⟩ := createCanonical_ends created
  refine (resolvePlace_surveys resolved).trans ?_
  rcases ends with ⟨listing, identity, confidence, attached⟩ | ⟨unitId, started⟩
  · cases attached
    exact surveys_of_same rfl rfl (Nat.le_succ _)
  · have evidence := startListing_evidenceOnly started
    refine surveys_of_same (by rw [evidence.frame]; rfl) (by rw [evidence.frame]; rfl) ?_
    exact Nat.le_trans (Nat.le_add_right _ 2) evidence.drawn

/-- Processing an observation surveys the database. -/
theorem processObservation_surveys (tracked : Tracked place.ids db) {observationId : Uuid}
    (processed : db.processObservation place now method observationId = .ok (next, outcome)) :
    Surveys place.ids db next := by
  have drawn := (processObservation_grows processed tracked).moves.drawn
  obtain ⟨row, -, processes⟩ := processObservation_processes processed
  cases processes with
  | aside _ same =>
      cases same
      exact .refl _
  | opened _ _ created => exact createCanonical_surveys created
  | continued _ _ updated =>
      obtain ⟨_, _, update⟩ := updateExisting_cases updated
      have frame := update.inventoryOnly.frame
      exact surveys_of_same (by rw [frame]) (by rw [frame]) drawn

/-- Every service call surveys the database, geocoding and validation left aside. -/
theorem step_surveys (tracked : Tracked ids db) (action : ServiceAction) :
    Surveys ids db (db.step ids unicode action.grounded) := by
  have drawn : db.drawn ≤ (db.step ids unicode action.grounded).drawn :=
    (step_moves tracked action.grounded).drawn
  unfold step at drawn ⊢
  cases performed : db.perform ids unicode action.grounded with
  | error failure => exact .refl db
  | ok next =>
      rw [performed] at drawn
      dsimp only at drawn ⊢
      cases action with
      | processObservation scan now method observationId =>
          obtain ⟨⟨after, outcome⟩, processed, wrote⟩ := bind_eq_ok.mp performed
          cases wrote
          exact processObservation_surveys tracked processed
      | outside write =>
          cases performed
          refine surveys_of_same ?_ rfl drawn
          simp [writeOutside]
      | mergeListings _ _ | reverseMerge _ _ _ _ _ | resolveDuplicateCandidate _ _ _ _ _ _
      | evaluateCandidates _ _ _ | processSourceRun _ _ =>
          have ledger := perform_ledgerOnly performed (by simp [ServiceAction.grounded])
            (by simp [ServiceAction.grounded])
          exact surveys_of_same ledger.addresses ledger.buildings drawn

end Services

end Database

end RentalAgent
