import Mathlib.Data.Rat.Floor
import RentalAgent.Database
import RentalAgent.Foundation.Ranking

/-! # Transit datasets

Stops and routes are ingested under a dataset version, and a query finds the station
complexes around a point. How far apart two points are, and in which order a scan meets
rows that a query does not order, are parameters.
-/

namespace RentalAgent

open Relational

/-! ## Values -/

/-- The modes of transit. -/
inductive TransitMode
  | subway | path | bus | rail | ferry | other
  deriving DecidableEq

/-- Whether a stop is in service. -/
inductive TransitStopActiveStatus
  | active | temporarilyClosed | inactive | unknown
  deriving DecidableEq

/-- The outcome of validating transit data. -/
inductive TransitValidationStatus
  | pending | passed | warning | failed | unableToValidate
  deriving DecidableEq

/-- A float rounded to an integer, a half to the even neighbour. -/
def roundHalfEven (value : Rat) : Int :=
  let below := value.floor
  let rest := value - below
  if rest < 1 / 2 then below
  else if 1 / 2 < rest then below + 1
  else if below % 2 = 0 then below
  else below + 1

/-! ## Rows -/

/-- A row of `app.transit_stop`. -/
structure TransitStop where
  transitStopId : Uuid
  providerSourceId : Uuid
  providerStopId : String
  parentStopId : Option Uuid := none
  operatorCode : String
  stopName : String
  mode : TransitMode
  locationPoint : Point
  activeStatus : TransitStopActiveStatus
  datasetVersion : String
  deriving DecidableEq

/-- A row of `app.transit_route`. -/
structure TransitRoute where
  transitRouteId : Uuid
  providerSourceId : Uuid
  providerRouteId : String
  operatorCode : String
  routeShortName : Option String
  routeLongName : Option String
  mode : TransitMode
  datasetVersion : String
  deriving DecidableEq

/-- The tables of transit data, and the number of identifiers drawn so far. -/
structure TransitTables where
  drawn : Nat
  stops : List TransitStop
  routes : List TransitRoute
  deriving DecidableEq

/-! ## Datasets -/

structure TransitDatasetStop where
  providerStopId : String
  parentProviderStopId : Option String := none
  operatorCode : String
  stopName : String
  mode : TransitMode
  latitude : Rat
  longitude : Rat
  deriving DecidableEq

structure TransitDatasetRoute where
  providerRouteId : String
  operatorCode : String
  routeShortName : Option String := none
  routeLongName : Option String := none
  mode : TransitMode
  deriving DecidableEq

structure TransitDataset where
  operatorCode : String
  datasetVersion : String
  stops : List TransitDatasetStop := []
  routes : List TransitDatasetRoute := []
  deriving DecidableEq

/-- What an ingest reports. -/
structure IngestCounts where
  stopsInserted : Nat := 0
  routesInserted : Nat := 0
  parentsLinked : Nat := 0
  deriving DecidableEq

/-- The unique key of a stop. -/
def TransitStop.key (stop : TransitStop) : Uuid × String × String :=
  (stop.providerSourceId, stop.providerStopId, stop.datasetVersion)

/-- The unique key of a route. -/
def TransitRoute.key (route : TransitRoute) : Uuid × String × String :=
  (route.providerSourceId, route.providerRouteId, route.datasetVersion)

/-- The row of a stop in a dataset; its parent is linked later. -/
def TransitDatasetStop.row (stop : TransitDatasetStop) (providerSourceId : Uuid)
    (datasetVersion : String) (id : Uuid) : TransitStop where
  transitStopId := id
  providerSourceId := providerSourceId
  providerStopId := stop.providerStopId
  operatorCode := stop.operatorCode
  stopName := stop.stopName
  mode := stop.mode
  locationPoint := ⟨stop.longitude, stop.latitude⟩
  activeStatus := .active
  datasetVersion := datasetVersion

def TransitDatasetRoute.row (route : TransitDatasetRoute) (providerSourceId : Uuid)
    (datasetVersion : String) (id : Uuid) : TransitRoute where
  transitRouteId := id
  providerSourceId := providerSourceId
  providerRouteId := route.providerRouteId
  operatorCode := route.operatorCode
  routeShortName := route.routeShortName
  routeLongName := route.routeLongName
  mode := route.mode
  datasetVersion := datasetVersion

namespace TransitTables

variable (ids : IdSupply)

/-- Inserting a stop unless its key is there already, with the number of rows inserted. -/
def insertStop (row : Uuid → TransitStop) (tables : TransitTables) : TransitTables × Nat :=
  let stop := row (ids.uuid tables.drawn)
  if tables.stops.any fun other => other.key = stop.key then (tables, 0)
  else ({ tables with drawn := tables.drawn + 1, stops := tables.stops ++ [stop] }, 1)

/-- Inserting a route unless its key is there already, with the number of rows inserted. -/
def insertRoute (row : Uuid → TransitRoute) (tables : TransitTables) : TransitTables × Nat :=
  let route := row (ids.uuid tables.drawn)
  if tables.routes.any fun other => other.key = route.key then (tables, 0)
  else ({ tables with drawn := tables.drawn + 1, routes := tables.routes ++ [route] }, 1)

/-- The entries of a dataset one after the other, with what the writes counted. -/
def forEach {Entry : Type} (write : Entry → TransitTables → TransitTables × Nat) :
    List Entry → TransitTables → TransitTables × Nat
  | [], tables => (tables, 0)
  | entry :: rest, tables =>
      let written := write entry tables
      let later := forEach write rest written.1
      (later.1, written.2 + later.2)

/-- `id_by_provider.get`: the stop of a provider under a dataset version. -/
def stopId? (tables : TransitTables) (providerSourceId : Uuid) (datasetVersion : String)
    (providerStopId : String) : Option Uuid :=
  (tables.stops.find? fun stop => stop.key = (providerSourceId, providerStopId, datasetVersion)).map
    TransitStop.transitStopId

/-- The parent of a stop linked, when both are stored and the stop has no parent yet. -/
def linkParent (providerSourceId : Uuid) (datasetVersion : String) (stop : TransitDatasetStop)
    (tables : TransitTables) : TransitTables × Nat :=
  let link := do
    let parentProviderStopId ← stop.parentProviderStopId.filter (· ≠ "")
    let child ← tables.stopId? providerSourceId datasetVersion stop.providerStopId
    let parent ← tables.stopId? providerSourceId datasetVersion parentProviderStopId
    let row ← get TransitStop.transitStopId tables.stops child
    if row.parentStopId = none then return (child, parent) else none
  match link with
  | none => (tables, 0)
  | some (child, parent) =>
      ({ tables with
        stops := updateWhere (fun row => row.transitStopId = child)
          (fun row => { row with parentStopId := some parent }) tables.stops }, 1)

/-- `ingest_dataset`. The parents are linked in a second pass, so the order of a file does
not matter. -/
def ingestDataset (dataset : TransitDataset) (providerSourceId : Uuid) (tables : TransitTables) :
    TransitTables × IngestCounts :=
  let version := dataset.datasetVersion
  let (tables, routesInserted) :=
    forEach (fun route => insertRoute ids (route.row providerSourceId version))
      dataset.routes tables
  let (tables, stopsInserted) :=
    forEach (fun stop => insertStop ids (stop.row providerSourceId version))
      dataset.stops tables
  let (tables, parentsLinked) :=
    forEach (linkParent providerSourceId version) dataset.stops tables
  (tables, ⟨stopsInserted, routesInserted, parentsLinked⟩)

/-! ### What an ingest keeps -/

variable {ids} {tables : TransitTables} {holds : TransitTables → Prop}

/-- What each write keeps, a pass keeps. -/
theorem forEach_keeps {Entry : Type} {write : Entry → TransitTables → TransitTables × Nat}
    (keeps : ∀ entry tables, holds tables → holds (write entry tables).1) (entries : List Entry)
    (start : holds tables) : holds (forEach write entries tables).1 := by
  induction entries generalizing tables with
  | nil => exact start
  | cons entry rest ih => exact ih (keeps entry tables start)

/-- What inserting a route, inserting a stop and linking a parent keep, an ingest keeps. -/
theorem ingestDataset_keeps (holds : TransitTables → Prop) {dataset : TransitDataset}
    {providerSourceId : Uuid}
    (routes : ∀ row tables, holds tables → holds (insertRoute ids row tables).1)
    (stops : ∀ (stop : TransitDatasetStop) tables, holds tables →
      holds (insertStop ids (stop.row providerSourceId dataset.datasetVersion) tables).1)
    (links : ∀ stop tables, holds tables →
      holds (linkParent providerSourceId dataset.datasetVersion stop tables).1)
    (start : holds tables) :
    holds (tables.ingestDataset ids dataset providerSourceId).1 :=
  forEach_keeps links _ (forEach_keeps stops _ (forEach_keeps (fun _ => routes _) _ start))

/-- Linking a parent changes the parents of stops and nothing else of them. -/
theorem map_linkParent {Value : Type} (column : TransitStop → Value)
    (blind : ∀ stop parent, column { stop with parentStopId := parent } = column stop)
    (providerSourceId : Uuid) (datasetVersion : String) (stop : TransitDatasetStop)
    (tables : TransitTables) :
    (linkParent providerSourceId datasetVersion stop tables).1.stops.map column =
      tables.stops.map column := by
  unfold linkParent
  dsimp only
  split
  · rfl
  · exact map_updateWhere column fun row _ _ => blind row _

theorem drawn_linkParent (providerSourceId : Uuid) (datasetVersion : String)
    (stop : TransitDatasetStop) (tables : TransitTables) :
    (linkParent providerSourceId datasetVersion stop tables).1.drawn = tables.drawn := by
  unfold linkParent
  dsimp only
  split <;> rfl

/-- A route leaves the stops alone. -/
theorem insertRoute_stops (row : Uuid → TransitRoute) (tables : TransitTables) :
    (insertRoute ids row tables).1.stops = tables.stops ∧
      tables.drawn ≤ (insertRoute ids row tables).1.drawn := by
  unfold insertRoute
  dsimp only
  split
  · exact ⟨rfl, Nat.le_refl _⟩
  · exact ⟨rfl, Nat.le_succ _⟩

/-- A stop is inserted under a new identifier, when its key is new. -/
theorem insertStop_cases (row : Uuid → TransitStop) (tables : TransitTables) :
    (insertStop ids row tables).1 = tables ∨
      (∀ other ∈ tables.stops, other.key ≠ (row (ids.uuid tables.drawn)).key) ∧
        (insertStop ids row tables).1 = { tables with
          drawn := tables.drawn + 1
          stops := tables.stops ++ [row (ids.uuid tables.drawn)] } := by
  unfold insertStop
  dsimp only
  split
  · exact .inl rfl
  · rename_i absent
    refine .inr ⟨fun other member same => absent ?_, rfl⟩
    exact List.any_eq_true.mpr ⟨other, member, decide_eq_true same⟩

/-- The identifiers and the keys of stops are unique, and the identifiers were drawn. -/
structure Keyed (ids : IdSupply) (tables : TransitTables) : Prop where
  stopIds : PrimaryKey TransitStop.transitStopId tables.stops
  stopKeys : PrimaryKey TransitStop.key tables.stops
  drawn : ∀ id ∈ tables.stops.map TransitStop.transitStopId, ∃ k < tables.drawn, id = ids.uuid k

theorem Keyed.insertRoute (keyed : Keyed ids tables) (row : Uuid → TransitRoute) :
    Keyed ids (tables.insertRoute ids row).1 := by
  obtain ⟨same, more⟩ := insertRoute_stops row tables
  refine ⟨same ▸ keyed.stopIds, same ▸ keyed.stopKeys, fun id member => ?_⟩
  obtain ⟨k, below, drawn⟩ := keyed.drawn id (same ▸ member)
  exact ⟨k, below.trans_le more, drawn⟩

/-- A new stop takes an id that no other has. -/
theorem Keyed.insertStop (keyed : Keyed ids tables) (stop : TransitDatasetStop)
    (providerSourceId : Uuid) (datasetVersion : String) :
    Keyed ids (tables.insertStop ids (stop.row providerSourceId datasetVersion)).1 := by
  rcases insertStop_cases (stop.row providerSourceId datasetVersion) tables with
    same | ⟨absent, inserted⟩
  · rwa [same]
  · rw [inserted]
    refine ⟨keyed.stopIds.insert fun _ other member _ same => ?_,
      keyed.stopKeys.insert fun _ other member _ same => absent other member same,
      fun id member => ?_⟩
    · obtain ⟨k, below, drawn⟩ := keyed.drawn _ (List.mem_map_of_mem member)
      exact below.ne (ids.distinct (drawn.symm.trans same))
    · rw [List.map_append, List.mem_append] at member
      rcases member with old | new
      · obtain ⟨k, below, drawn⟩ := keyed.drawn id old
        exact ⟨k, below.trans (Nat.lt_succ_self _), drawn⟩
      · exact ⟨tables.drawn, Nat.lt_succ_self _, List.mem_singleton.mp new⟩

/-- Linking a stop to its parent leaves the ids alone. -/
theorem Keyed.linkParent (keyed : Keyed ids tables) (providerSourceId : Uuid)
    (datasetVersion : String) (stop : TransitDatasetStop) :
    Keyed ids (tables.linkParent providerSourceId datasetVersion stop).1 := by
  have stopIds := map_linkParent TransitStop.transitStopId (fun _ _ => rfl) providerSourceId
    datasetVersion stop tables
  have stopKeys := map_linkParent TransitStop.key (fun _ _ => rfl) providerSourceId
    datasetVersion stop tables
  refine ⟨?_, ?_, ?_⟩
  · rw [primaryKey_iff_nodup, stopIds]
    exact primaryKey_iff_nodup.mp keyed.stopIds
  · rw [primaryKey_iff_nodup, stopKeys]
    exact primaryKey_iff_nodup.mp keyed.stopKeys
  · rw [stopIds, drawn_linkParent]
    exact keyed.drawn

theorem Keyed.ingestDataset (keyed : Keyed ids tables) (dataset : TransitDataset)
    (providerSourceId : Uuid) :
    Keyed ids (tables.ingestDataset ids dataset providerSourceId).1 :=
  ingestDataset_keeps (Keyed ids) (fun row _ keyed => keyed.insertRoute row)
    (fun stop _ keyed => keyed.insertStop stop _ _) (fun stop _ keyed => keyed.linkParent _ _ stop)
    keyed

/-- A stop that is stored stays. -/
theorem mem_stopIds_ingestDataset {id : Uuid} (dataset : TransitDataset) (providerSourceId : Uuid)
    (stored : id ∈ tables.stops.map TransitStop.transitStopId) :
    id ∈ (tables.ingestDataset ids dataset providerSourceId).1.stops.map
      TransitStop.transitStopId := by
  refine ingestDataset_keeps (fun tables => id ∈ tables.stops.map TransitStop.transitStopId)
    ?_ ?_ ?_ stored
  · intro row tables stored
    rwa [(insertRoute_stops row tables).1]
  · intro stop tables stored
    rcases insertStop_cases (stop.row providerSourceId dataset.datasetVersion) tables with
      same | ⟨_, inserted⟩
    · rwa [same]
    · rw [inserted, List.map_append]
      exact List.mem_append_left _ stored
  · intro stop tables stored
    rwa [map_linkParent TransitStop.transitStopId fun _ _ => rfl]

end TransitTables

/-! ## Stops around a point -/

/-- What a query about stops consults: the distance of two points in meters, and the
position of a row in a scan. -/
structure StopScan where
  distance : Point → Point → Rat
  position : Uuid → Nat

namespace StopScan

variable (scan : StopScan)

/-- A station complex in service within the radius. -/
def reaches (origin : Point) (radius : Rat) (stop : TransitStop) : Bool :=
  stop.parentStopId = none && stop.activeStatus = .active &&
    scan.distance stop.locationPoint origin ≤ radius

/-- `ORDER BY` a measure of the stops; stops of one measure stay as the scan meets them. -/
def before (measure : TransitStop → Rat) (first second : TransitStop) : Prop :=
  measure first < measure second ∨ measure first = measure second ∧
    scan.position first.transitStopId ≤ scan.position second.transitStopId

instance (measure : TransitStop → Rat) : DecidableRel (scan.before measure) :=
  fun _ _ => inferInstanceAs (Decidable (_ ∨ _))

/-- The nearer stop comes first. -/
theorem before_eq (measure : TransitStop → Rat) : scan.before measure =
    Ranking.ByMeasure measure (fun stop => scan.position stop.transitStopId) := rfl

instance (measure : TransitStop → Rat) : Std.Total (scan.before measure) :=
  scan.before_eq measure ▸ inferInstance

instance (measure : TransitStop → Rat) : IsTrans TransitStop (scan.before measure) :=
  scan.before_eq measure ▸ inferInstance

variable {scan}

theorem le_of_before {measure : TransitStop → Rat} {first second : TransitStop}
    (ahead : scan.before measure first second) : measure first ≤ measure second := by
  rw [before_eq] at ahead
  exact ahead.le

end StopScan

end RentalAgent
