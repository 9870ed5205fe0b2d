import RentalAgent.Enrichment.Transit

/-! # What an ingest stores

The rows of an ingest are inserted in the order of the dataset, and the parents are linked in a
second pass through the stops that are stored by then. A dataset whose version the store does
not hold yet is stored as it is, each stop below its parent when the dataset has it; the order
of its stops and routes does not matter, and a second ingest changes nothing
(`ingest_is_order_free_and_idempotent`).
-/

namespace RentalAgent

open Relational

/-! ## Content -/

/-- What is stored of a stop apart from identifiers; a parent is given by its key. -/
structure StopContent where
  key : Uuid × String × String
  operatorCode : String
  stopName : String
  mode : TransitMode
  locationPoint : Point
  activeStatus : TransitStopActiveStatus
  parent : Option (Uuid × String × String)
  deriving DecidableEq

/-- What is stored of a route apart from its identifier. -/
structure RouteContent where
  key : Uuid × String × String
  operatorCode : String
  routeShortName : Option String
  routeLongName : Option String
  mode : TransitMode
  deriving DecidableEq

/-- The parent that a stop declares; an empty text declares none. -/
def TransitDatasetStop.declaredParent (stop : TransitDatasetStop) : Option String :=
  stop.parentProviderStopId.filter (· ≠ "")

namespace TransitDataset

variable (dataset : TransitDataset) (providerSourceId : Uuid)

/-- What a stop of the dataset is stored as: its parent is the one it declares, if the dataset
has it. -/
def stopContent (stop : TransitDatasetStop) : StopContent where
  key := (providerSourceId, stop.providerStopId, dataset.datasetVersion)
  operatorCode := stop.operatorCode
  stopName := stop.stopName
  mode := stop.mode
  locationPoint := ⟨stop.longitude, stop.latitude⟩
  activeStatus := .active
  parent := (stop.declaredParent.filter
    (· ∈ dataset.stops.map TransitDatasetStop.providerStopId)).map
      (providerSourceId, ·, dataset.datasetVersion)

/-- What a route of the dataset is stored as. -/
def routeContent (route : TransitDatasetRoute) : RouteContent where
  key := (providerSourceId, route.providerRouteId, dataset.datasetVersion)
  operatorCode := route.operatorCode
  routeShortName := route.routeShortName
  routeLongName := route.routeLongName
  mode := route.mode

end TransitDataset

/-- The content of the row of a route. -/
def TransitRoute.content (row : TransitRoute) : RouteContent where
  key := row.key
  operatorCode := row.operatorCode
  routeShortName := row.routeShortName
  routeLongName := row.routeLongName
  mode := row.mode

namespace TransitTables

variable (tables : TransitTables) (providerSourceId : Uuid) (datasetVersion : String)

/-- The content of the row of a stop. -/
def content (row : TransitStop) : StopContent where
  key := row.key
  operatorCode := row.operatorCode
  stopName := row.stopName
  mode := row.mode
  locationPoint := row.locationPoint
  activeStatus := row.activeStatus
  parent := row.parentStopId.bind fun id =>
    (get TransitStop.transitStopId tables.stops id).map TransitStop.key

/-- What is stored of the stops of a provider under a dataset version. -/
def storedStops : List StopContent :=
  (tables.stops.filter fun row => row.providerSourceId = providerSourceId ∧
    row.datasetVersion = datasetVersion).map tables.content

/-- What is stored of the routes of a provider under a dataset version. -/
def storedRoutes : List RouteContent :=
  (tables.routes.filter fun row => row.providerSourceId = providerSourceId ∧
    row.datasetVersion = datasetVersion).map TransitRoute.content

/-- The identifier of the parent that a stop declares, if it is stored. -/
def parentOf (stop : TransitDatasetStop) : Option Uuid :=
  stop.declaredParent.bind (tables.stopId? providerSourceId datasetVersion)

/-- The row with its parent, if it is the row of the stop and has none yet. -/
def linked (stop : TransitDatasetStop) (row : TransitStop) : TransitStop :=
  if row.key = (providerSourceId, stop.providerStopId, datasetVersion) ∧
      row.parentStopId = none then
    { row with parentStopId := tables.parentOf providerSourceId datasetVersion stop }
  else row

variable {tables providerSourceId datasetVersion} {ids : IdSupply}

/-! ## Linking -/

/-- A stop is found by the key of its dataset. -/
theorem stopId?_eq_some (keyed : Keyed ids tables) {providerStopId : String} {id : Uuid} :
    tables.stopId? providerSourceId datasetVersion providerStopId = some id ↔
      ∃ row ∈ tables.stops, row.key = (providerSourceId, providerStopId, datasetVersion) ∧
        row.transitStopId = id := by
  have found : tables.stopId? providerSourceId datasetVersion providerStopId =
      (get TransitStop.key tables.stops
        (providerSourceId, providerStopId, datasetVersion)).map TransitStop.transitStopId := rfl
  simp only [found, Option.map_eq_some_iff, get_eq_some keyed.stopKeys, and_assoc]

/-- Linking a parent does nothing, or gives the row of the stop its parent. -/
theorem linkParent_cases (keyed : Keyed ids tables) (providerSourceId : Uuid)
    (datasetVersion : String) (stop : TransitDatasetStop) :
    (linkParent providerSourceId datasetVersion stop tables = (tables, 0) ∧
      ∀ row ∈ tables.stops, row.key = (providerSourceId, stop.providerStopId, datasetVersion) →
        row.parentStopId = none → tables.parentOf providerSourceId datasetVersion stop = none) ∨
    ∃ child ∈ tables.stops, ∃ parent,
      child.key = (providerSourceId, stop.providerStopId, datasetVersion) ∧
      child.parentStopId = none ∧
      tables.parentOf providerSourceId datasetVersion stop = some parent ∧
      linkParent providerSourceId datasetVersion stop tables =
        ({ tables with
          stops := updateWhere (fun row => row.transitStopId = child.transitStopId)
            (fun row => { row with parentStopId := some parent }) tables.stops }, 1) := by
  unfold linkParent parentOf TransitDatasetStop.declaredParent
  dsimp only
  cases stop.parentProviderStopId.filter (· ≠ "") with
  | none => exact .inl ⟨rfl, fun _ _ _ _ => rfl⟩
  | some declared =>
      cases stored : tables.stopId? providerSourceId datasetVersion stop.providerStopId with
      | none =>
          refine .inl ⟨rfl, fun row member key _ => ?_⟩
          have known := (stopId?_eq_some keyed).mpr ⟨row, member, key, rfl⟩
          cases stored.symm.trans known
      | some id =>
          obtain ⟨child, member, key, rfl⟩ := (stopId?_eq_some keyed).mp stored
          have only : ∀ row ∈ tables.stops,
              row.key = (providerSourceId, stop.providerStopId, datasetVersion) → row = child :=
            fun row inside same => keyed.stopKeys.eq_of_mem inside member (same.trans key.symm)
          cases known : tables.stopId? providerSourceId datasetVersion declared with
          | none => exact .inl ⟨by simp [known], fun _ _ _ _ => by simp [known]⟩
          | some parent =>
              have found : get TransitStop.transitStopId tables.stops child.transitStopId =
                  some child := (get_eq_some keyed.stopIds).mpr ⟨member, rfl⟩
              by_cases free : child.parentStopId = none
              · exact .inr ⟨child, member, parent, key, free, by simp [known],
                  by simp [known, found, free]⟩
              · refine .inl ⟨by simp [found, free], fun row inside same unlinked => ?_⟩
                rw [only row inside same] at unlinked
                exact (free unlinked).elim

/-- Linking a parent changes the row of the stop, if it has no parent yet. -/
theorem linkParent_stops (keyed : Keyed ids tables) (stop : TransitDatasetStop) :
    (linkParent providerSourceId datasetVersion stop tables).1 = { tables with
      stops := tables.stops.map (tables.linked providerSourceId datasetVersion stop) } := by
  rcases linkParent_cases keyed providerSourceId datasetVersion stop with
    ⟨idle, orphan⟩ | ⟨child, member, parent, key, free, known, linked⟩
  · rw [idle]
    have same : ∀ row ∈ tables.stops,
        tables.linked providerSourceId datasetVersion stop row = row := by
      intro row inside
      rw [TransitTables.linked]
      split
      · rename_i both
        rw [orphan row inside both.1 both.2, ← both.2]
      · rfl
    rw [List.map_congr_left same, List.map_id']
  · rw [linked]
    dsimp only
    rw [updateWhere]
    congr 1
    refine List.map_congr_left fun row inside => ?_
    rw [TransitTables.linked, known]
    by_cases same : row = child
    · subst same
      simp [key, free]
    · have otherId : row.transitStopId ≠ child.transitStopId := fun equal =>
        same (keyed.stopIds.eq_of_mem inside member equal)
      have otherKey : row.key ≠ (providerSourceId, stop.providerStopId, datasetVersion) :=
        fun equal => same (keyed.stopKeys.eq_of_mem inside member (equal.trans key.symm))
      simp [otherId, otherKey]

/-- A stop whose row has its parent already is not linked. -/
theorem linkParent_idle (keyed : Keyed ids tables) {stop : TransitDatasetStop}
    (settled : ∀ row ∈ tables.stops,
      row.key = (providerSourceId, stop.providerStopId, datasetVersion) →
        row.parentStopId = none → tables.parentOf providerSourceId datasetVersion stop = none) :
    linkParent providerSourceId datasetVersion stop tables = (tables, 0) := by
  rcases linkParent_cases keyed providerSourceId datasetVersion stop with
    ⟨idle, -⟩ | ⟨child, member, parent, key, free, known, -⟩
  · exact idle
  · cases known.symm.trans (settled child member key free)

theorem linked_keeps (tables : TransitTables) (stop : TransitDatasetStop) (row : TransitStop) :
    (tables.linked providerSourceId datasetVersion stop row).transitStopId = row.transitStopId ∧
      (tables.linked providerSourceId datasetVersion stop row).key = row.key := by
  unfold linked
  split <;> exact ⟨rfl, rfl⟩

/-- The lookup of a parent goes by the identifiers and the keys of the stops. -/
theorem parentOf_map {change : TransitStop → TransitStop}
    (keeps : ∀ row, (change row).transitStopId = row.transitStopId ∧ (change row).key = row.key)
    (tables : TransitTables) (stop : TransitDatasetStop) :
    { tables with stops := tables.stops.map change }.parentOf providerSourceId datasetVersion stop =
      tables.parentOf providerSourceId datasetVersion stop := by
  unfold parentOf
  congr 1
  funext name
  change (get TransitStop.key (tables.stops.map change) _).map TransitStop.transitStopId =
    (get TransitStop.key tables.stops _).map TransitStop.transitStopId
  rw [get_map fun row _ => (keeps row).2, Option.map_map]
  congr 1
  funext row
  exact (keeps row).1

theorem parentOf_linkParent (keyed : Keyed ids tables) (stop other : TransitDatasetStop) :
    (linkParent providerSourceId datasetVersion stop tables).1.parentOf providerSourceId
      datasetVersion other = tables.parentOf providerSourceId datasetVersion other := by
  rw [linkParent_stops keyed]
  exact parentOf_map (linked_keeps tables stop) tables other

/-- The row with the parent that the first of the stops gives it, if it has none yet. -/
def linkedBy (tables : TransitTables) (providerSourceId : Uuid) (datasetVersion : String)
    (stops : List TransitDatasetStop) (row : TransitStop) : TransitStop :=
  if row.parentStopId = none then
    { row with
      parentStopId := stops.findSome? fun stop =>
        if row.key = (providerSourceId, stop.providerStopId, datasetVersion) then
          tables.parentOf providerSourceId datasetVersion stop
        else none }
  else row

/-- Linking a stop keeps its id and its key. -/
theorem linkedBy_keeps (tables : TransitTables) (stops : List TransitDatasetStop)
    (row : TransitStop) :
    (tables.linkedBy providerSourceId datasetVersion stops row).transitStopId =
        row.transitStopId ∧
      (tables.linkedBy providerSourceId datasetVersion stops row).key = row.key := by
  unfold linkedBy
  split <;> exact ⟨rfl, rfl⟩

/-- Linking the stops of a dataset is linking the first and then the rest. -/
theorem linkedBy_cons (tables : TransitTables) (stop : TransitDatasetStop)
    (rest : List TransitDatasetStop) (row : TransitStop) :
    tables.linkedBy providerSourceId datasetVersion (stop :: rest) row =
      tables.linkedBy providerSourceId datasetVersion rest
        (tables.linked providerSourceId datasetVersion stop row) := by
  unfold linkedBy linked
  rw [List.findSome?_cons]
  by_cases free : row.parentStopId = none
  · by_cases same : row.key = (providerSourceId, stop.providerStopId, datasetVersion)
    · simp only [free, same, and_self, if_true]
      cases known : tables.parentOf providerSourceId datasetVersion stop with
      | none =>
          have unchanged : { row with parentStopId := none } = row := by rw [← free]
          rw [unchanged]
          simp [same]
      | some parent => simp
    · simp [free, same]
  · simp [free]

/-- The second pass gives each row the parent that its stop declares. -/
theorem linkParents_stops (keyed : Keyed ids tables) (stops : List TransitDatasetStop) :
    (forEach (linkParent providerSourceId datasetVersion) stops tables).1 = { tables with
      stops := tables.stops.map (tables.linkedBy providerSourceId datasetVersion stops) } := by
  induction stops generalizing tables with
  | nil =>
      have same : tables.linkedBy providerSourceId datasetVersion [] = id := by
        funext row
        unfold linkedBy
        split
        · rename_i free
          exact congrArg (fun parent => { row with parentStopId := parent }) free.symm
        · rfl
      rw [same, List.map_id]
      rfl
  | cons stop rest ih =>
      have first : (linkParent providerSourceId datasetVersion stop tables).1 = _ :=
        linkParent_stops keyed stop
      have later : (linkParent providerSourceId datasetVersion stop tables).1.linkedBy
          providerSourceId datasetVersion rest =
            tables.linkedBy providerSourceId datasetVersion rest := by
        funext row
        unfold linkedBy
        simp only [parentOf_linkParent keyed stop]
      change (forEach _ rest (linkParent providerSourceId datasetVersion stop tables).1).1 = _
      rw [ih (keyed.linkParent _ _ stop), later, first]
      simp only [List.map_map]
      congr 1
      exact List.map_congr_left fun row _ => (linkedBy_cons tables stop rest row).symm

/-- A pass whose writes do nothing does nothing. -/
theorem forEach_idle {Entry : Type} {write : Entry → TransitTables → TransitTables × Nat}
    {entries : List Entry} (idle : ∀ entry ∈ entries, write entry tables = (tables, 0)) :
    forEach write entries tables = (tables, 0) := by
  induction entries with
  | nil => rfl
  | cons entry rest ih =>
      obtain ⟨here, later⟩ := List.forall_mem_cons.mp idle
      simp only [forEach, here, ih later]

/-! ## Inserting -/

section Inserts

variable {Entry Row Key : Type} [DecidableEq Key]

/-- The rows of new entries, with the identifiers drawn for them. -/
def newRows (ids : IdSupply) (row : Entry → Uuid → Row) (drawn : Nat) : List Entry → List Row
  | [] => []
  | entry :: rest => row entry (ids.uuid drawn) :: newRows ids row (drawn + 1) rest

/-- A column that a row takes from its entry reads as it does in the entries. -/
theorem map_newRows {Value : Type} {row : Entry → Uuid → Row} {column : Row → Value}
    {value : Entry → Value} {entries : List Entry}
    (same : ∀ entry ∈ entries, ∀ id, column (row entry id) = value entry) (drawn : Nat) :
    (newRows ids row drawn entries).map column = entries.map value := by
  induction entries generalizing drawn with
  | nil => rfl
  | cons entry rest ih =>
      obtain ⟨here, later⟩ := List.forall_mem_cons.mp same
      rw [newRows, List.map_cons, List.map_cons, here, ih later]

/-- Every entry has a new row. -/
theorem exists_mem_newRows {row : Entry → Uuid → Row} {entries : List Entry} {entry : Entry}
    (member : entry ∈ entries) (drawn : Nat) :
    ∃ id, row entry id ∈ newRows ids row drawn entries := by
  induction entries generalizing drawn with
  | nil => cases member
  | cons first rest ih =>
      rcases List.mem_cons.mp member with rfl | later
      · exact ⟨_, List.mem_cons_self⟩
      · obtain ⟨id, inside⟩ := ih later (drawn + 1)
        exact ⟨id, List.mem_cons_of_mem _ inside⟩

theorem length_newRows {row : Entry → Uuid → Row} {entries : List Entry} {drawn : Nat} :
    (newRows ids row drawn entries).length = entries.length := by
  induction entries generalizing drawn with
  | nil => rfl
  | cons entry rest ih => rw [newRows, List.length_cons, List.length_cons, ih]

/-- Every new row has an entry. -/
theorem mem_newRows {row : Entry → Uuid → Row} {entries : List Entry} {drawn : Nat} {new : Row}
    (member : new ∈ newRows ids row drawn entries) :
    ∃ entry ∈ entries, ∃ id, new = row entry id := by
  induction entries generalizing drawn with
  | nil => cases member
  | cons entry rest ih =>
      rcases List.mem_cons.mp member with rfl | later
      · exact ⟨entry, List.mem_cons_self, _, rfl⟩
      · obtain ⟨other, inside, id, same⟩ := ih later
        exact ⟨other, List.mem_cons_of_mem _ inside, id, same⟩

variable {rows : TransitTables → List Row} {add : Row → TransitTables → TransitTables}
  {key : Row → Key} {row : Entry → Uuid → Row} {entries : List Entry}

/-- A row inserted unless its key is there already. -/
def insertNew (ids : IdSupply) (rows : TransitTables → List Row)
    (add : Row → TransitTables → TransitTables) (key : Row → Key) (row : Uuid → Row)
    (tables : TransitTables) : TransitTables × Nat :=
  let new := row (ids.uuid tables.drawn)
  if (rows tables).any fun other => key other = key new then (tables, 0) else (add new tables, 1)

/-- Entries with new keys are all inserted. -/
theorem forEach_insertNew (add : Row → TransitTables → TransitTables)
    (appends : ∀ new tables, rows (add new tables) = rows tables ++ [new])
    (draws : ∀ new tables, (add new tables).drawn = tables.drawn + 1) {entryKey : Entry → Key}
    (keyed : ∀ entry id, key (row entry id) = entryKey entry)
    (distinct : (entries.map entryKey).Nodup)
    (absent : ∀ entry ∈ entries, ∀ other ∈ rows tables, key other ≠ entryKey entry) :
    forEach (fun entry => insertNew ids rows add key (row entry)) entries tables =
      ((newRows ids row tables.drawn entries).foldl (fun tables new => add new tables) tables,
        entries.length) := by
  induction entries generalizing tables with
  | nil => rfl
  | cons entry rest ih =>
      obtain ⟨apart, distinct⟩ := List.nodup_cons.mp distinct
      obtain ⟨here, later⟩ := List.forall_mem_cons.mp absent
      have inserted : insertNew ids rows add key (row entry) tables =
          (add (row entry (ids.uuid tables.drawn)) tables, 1) := by
        refine if_neg fun present => ?_
        obtain ⟨other, member, same⟩ := List.any_eq_true.mp present
        exact here other member ((of_decide_eq_true same).trans (keyed _ _))
      have stillAbsent : ∀ next ∈ rest,
          ∀ other ∈ rows (add (row entry (ids.uuid tables.drawn)) tables),
            key other ≠ entryKey next := by
        intro next inside other member
        rw [appends, List.mem_append, List.mem_singleton] at member
        rcases member with old | rfl
        · exact later next inside other old
        · rw [keyed]
          exact fun same => apart (same ▸ List.mem_map_of_mem inside)
      have after := ih distinct stillAbsent
      rw [draws] at after
      simp only [forEach, inserted, after, newRows, List.foldl_cons, List.length_cons]
      rw [Nat.add_comm 1 rest.length]

/-- Entries whose keys are all there are not inserted. -/
theorem forEach_insertNew_idle (add : Row → TransitTables → TransitTables) (key : Row → Key)
    (present : ∀ entry ∈ entries, ∀ id, ∃ other ∈ rows tables,
      key other = key (row entry id)) :
    forEach (fun entry => insertNew ids rows add key (row entry)) entries tables = (tables, 0) := by
  refine forEach_idle fun entry inside => if_pos ?_
  obtain ⟨other, member, same⟩ := present entry inside (ids.uuid tables.drawn)
  exact List.any_eq_true.mpr ⟨other, member, decide_eq_true same⟩

end Inserts

/-- A row added to the stops. -/
def addStop (stop : TransitStop) (tables : TransitTables) : TransitTables :=
  { tables with drawn := tables.drawn + 1, stops := tables.stops ++ [stop] }

/-- A row added to the routes. -/
def addRoute (route : TransitRoute) (tables : TransitTables) : TransitTables :=
  { tables with drawn := tables.drawn + 1, routes := tables.routes ++ [route] }

/-- Loading stops adds their rows and nothing else. -/
theorem foldl_addStop (stops : List TransitStop) (tables : TransitTables) :
    stops.foldl (fun tables stop => addStop stop tables) tables =
      { tables with drawn := tables.drawn + stops.length, stops := tables.stops ++ stops } := by
  induction stops generalizing tables with
  | nil => simp
  | cons stop rest ih =>
      rw [List.foldl_cons, ih]
      simp only [addStop, List.append_assoc, List.singleton_append, List.length_cons]
      congr 1
      omega

/-- Loading routes adds their rows and nothing else. -/
theorem foldl_addRoute (routes : List TransitRoute) (tables : TransitTables) :
    routes.foldl (fun tables route => addRoute route tables) tables =
      { tables with drawn := tables.drawn + routes.length, routes := tables.routes ++ routes } := by
  induction routes generalizing tables with
  | nil => simp
  | cons route rest ih =>
      rw [List.foldl_cons, ih]
      simp only [addRoute, List.append_assoc, List.singleton_append, List.length_cons]
      congr 1
      omega

/-! ## One ingest -/

/-- The pass over the routes. -/
def insertRoutes (ids : IdSupply) (dataset : TransitDataset) (providerSourceId : Uuid)
    (tables : TransitTables) : TransitTables × Nat :=
  forEach (fun route => insertRoute ids (route.row providerSourceId dataset.datasetVersion))
    dataset.routes tables

/-- The pass over the stops. -/
def insertStops (ids : IdSupply) (dataset : TransitDataset) (providerSourceId : Uuid)
    (tables : TransitTables) : TransitTables × Nat :=
  forEach (fun stop => insertStop ids (stop.row providerSourceId dataset.datasetVersion))
    dataset.stops tables

/-- The pass over the parents. -/
def linkParents (dataset : TransitDataset) (providerSourceId : Uuid) (tables : TransitTables) :
    TransitTables × Nat :=
  forEach (linkParent providerSourceId dataset.datasetVersion) dataset.stops tables

theorem ingestDataset_passes (ids : IdSupply) (dataset : TransitDataset) (providerSourceId : Uuid)
    (tables : TransitTables) : tables.ingestDataset ids dataset providerSourceId =
      let routed := tables.insertRoutes ids dataset providerSourceId
      let stopped := routed.1.insertStops ids dataset providerSourceId
      let linked := stopped.1.linkParents dataset providerSourceId
      (linked.1, ⟨stopped.2, routed.2, linked.2⟩) := rfl

/-- The rows of the routes of a dataset. -/
def newRoutes (ids : IdSupply) (dataset : TransitDataset) (providerSourceId : Uuid)
    (drawn : Nat) : List TransitRoute :=
  newRows ids (TransitDatasetRoute.row · providerSourceId dataset.datasetVersion) drawn
    dataset.routes

/-- The rows of the stops of a dataset, without their parents. -/
def newStops (ids : IdSupply) (dataset : TransitDataset) (providerSourceId : Uuid)
    (drawn : Nat) : List TransitStop :=
  newRows ids (TransitDatasetStop.row · providerSourceId dataset.datasetVersion) drawn
    dataset.stops

/-- A search that only one entry can answer. -/
theorem findSome?_eq_of_unique {Entry Value : Type} {answer : Entry → Option Value}
    {entries : List Entry} {entry : Entry} (member : entry ∈ entries)
    (only : ∀ other ∈ entries, other ≠ entry → answer other = none) :
    entries.findSome? answer = answer entry := by
  induction entries with
  | nil => cases member
  | cons first rest ih =>
      obtain ⟨here, later⟩ := List.forall_mem_cons.mp only
      rw [List.findSome?_cons]
      by_cases same : first = entry
      · subst same
        cases answered : answer first with
        | some value => rfl
        | none =>
            refine List.findSome?_eq_none_iff.mpr fun other inside => ?_
            by_cases again : other = first
            · rw [again, answered]
            · exact later other inside again
      · rw [here same]
        exact ih ((List.mem_cons.mp member).resolve_left (Ne.symm same)) later

/-- The store holds nothing of a provider under a dataset version. -/
structure Lacks (tables : TransitTables) (providerSourceId : Uuid) (datasetVersion : String) :
    Prop where
  stops : ∀ row ∈ tables.stops,
    ¬(row.providerSourceId = providerSourceId ∧ row.datasetVersion = datasetVersion)
  routes : ∀ row ∈ tables.routes,
    ¬(row.providerSourceId = providerSourceId ∧ row.datasetVersion = datasetVersion)

variable {dataset : TransitDataset}

/-- The routes of a new version are all inserted. -/
theorem insertRoutes_eq (lacks : ∀ row ∈ tables.routes,
      ¬(row.providerSourceId = providerSourceId ∧ row.datasetVersion = dataset.datasetVersion))
    (routeIds : (dataset.routes.map TransitDatasetRoute.providerRouteId).Nodup) :
    (tables.insertRoutes ids dataset providerSourceId).1 = { tables with
      drawn := tables.drawn + dataset.routes.length
      routes := tables.routes ++ newRoutes ids dataset providerSourceId tables.drawn } := by
  have distinct : (dataset.routes.map fun route =>
      (providerSourceId, route.providerRouteId, dataset.datasetVersion)).Nodup := by
    refine List.Nodup.of_map (fun key : Uuid × String × String => key.2.1) ?_
    rwa [List.map_map]
  have absent : ∀ route ∈ dataset.routes, ∀ row ∈ tables.routes,
      row.key ≠ (providerSourceId, route.providerRouteId, dataset.datasetVersion) :=
    fun route _ row member same => lacks row member
      ⟨congrArg Prod.fst same, congrArg (·.2.2) same⟩
  have inserted : tables.insertRoutes ids dataset providerSourceId = _ :=
    forEach_insertNew addRoute (fun _ _ => rfl) (fun _ _ => rfl) (fun _ _ => rfl) distinct absent
  rw [inserted]
  dsimp only
  rw [foldl_addRoute, length_newRows]
  rfl

/-- The stops of a new version are all inserted. -/
theorem insertStops_eq (lacks : ∀ row ∈ tables.stops,
      ¬(row.providerSourceId = providerSourceId ∧ row.datasetVersion = dataset.datasetVersion))
    (stopIds : (dataset.stops.map TransitDatasetStop.providerStopId).Nodup) :
    (tables.insertStops ids dataset providerSourceId).1 = { tables with
      drawn := tables.drawn + dataset.stops.length
      stops := tables.stops ++ newStops ids dataset providerSourceId tables.drawn } := by
  have distinct : (dataset.stops.map fun stop =>
      (providerSourceId, stop.providerStopId, dataset.datasetVersion)).Nodup := by
    refine List.Nodup.of_map (fun key : Uuid × String × String => key.2.1) ?_
    rwa [List.map_map]
  have absent : ∀ stop ∈ dataset.stops, ∀ row ∈ tables.stops,
      row.key ≠ (providerSourceId, stop.providerStopId, dataset.datasetVersion) :=
    fun stop _ row member same => lacks row member
      ⟨congrArg Prod.fst same, congrArg (·.2.2) same⟩
  have inserted : tables.insertStops ids dataset providerSourceId = _ :=
    forEach_insertNew addStop (fun _ _ => rfl) (fun _ _ => rfl) (fun _ _ => rfl) distinct absent
  rw [inserted]
  dsimp only
  rw [foldl_addStop, length_newRows]
  rfl

theorem mem_newRoutes (ids : IdSupply) (providerSourceId : Uuid) {route : TransitDatasetRoute}
    (member : route ∈ dataset.routes) (drawn : Nat) :
    ∃ id, route.row providerSourceId dataset.datasetVersion id ∈
      newRoutes ids dataset providerSourceId drawn := exists_mem_newRows member drawn

theorem mem_newStops (ids : IdSupply) (providerSourceId : Uuid) {stop : TransitDatasetStop}
    (member : stop ∈ dataset.stops) (drawn : Nat) :
    ∃ id, stop.row providerSourceId dataset.datasetVersion id ∈
      newStops ids dataset providerSourceId drawn := exists_mem_newRows member drawn

/-- The tables between the inserts and the links. -/
def placed (ids : IdSupply) (dataset : TransitDataset) (providerSourceId : Uuid)
    (tables : TransitTables) : TransitTables where
  drawn := tables.drawn + dataset.routes.length + dataset.stops.length
  stops := tables.stops ++
    newStops ids dataset providerSourceId (tables.drawn + dataset.routes.length)
  routes := tables.routes ++ newRoutes ids dataset providerSourceId tables.drawn

/-- A dataset whose version the store does not hold, and whose identifiers are distinct. -/
structure Fresh (ids : IdSupply) (dataset : TransitDataset) (providerSourceId : Uuid)
    (tables : TransitTables) : Prop where
  keyed : Keyed ids tables
  lacks : tables.Lacks providerSourceId dataset.datasetVersion
  stopIds : (dataset.stops.map TransitDatasetStop.providerStopId).Nodup
  routeIds : (dataset.routes.map TransitDatasetRoute.providerRouteId).Nodup

namespace Fresh

/-- The inserts of a fresh ingest. -/
theorem inserts (fresh : Fresh ids dataset providerSourceId tables) :
    ((tables.insertRoutes ids dataset providerSourceId).1.insertStops ids dataset
      providerSourceId).1 = tables.placed ids dataset providerSourceId := by
  rw [insertRoutes_eq fresh.lacks.routes fresh.routeIds]
  exact insertStops_eq fresh.lacks.stops fresh.stopIds

/-- The keys are unique before the parents are linked. -/
theorem placed_keyed (fresh : Fresh ids dataset providerSourceId tables) :
    Keyed ids (tables.placed ids dataset providerSourceId) := by
  have routed : Keyed ids (tables.insertRoutes ids dataset providerSourceId).1 :=
    forEach_keeps (fun _ _ keyed => keyed.insertRoute _) _ fresh.keyed
  have stopped : Keyed ids ((tables.insertRoutes ids dataset providerSourceId).1.insertStops ids
      dataset providerSourceId).1 :=
    forEach_keeps (fun stop _ keyed => keyed.insertStop stop _ _) _ routed
  rwa [fresh.inserts] at stopped

/-- A fresh ingest gives each row its parent. -/
theorem ingest (fresh : Fresh ids dataset providerSourceId tables) :
    (tables.ingestDataset ids dataset providerSourceId).1 =
      { tables.placed ids dataset providerSourceId with
        stops := (tables.placed ids dataset providerSourceId).stops.map
          ((tables.placed ids dataset providerSourceId).linkedBy providerSourceId
            dataset.datasetVersion dataset.stops) } := by
  rw [ingestDataset_passes]
  dsimp only
  rw [fresh.inserts, linkParents, linkParents_stops fresh.placed_keyed]

/-- An old row is not linked. -/
theorem linkedBy_old (fresh : Fresh ids dataset providerSourceId tables) {row : TransitStop}
    (member : row ∈ tables.stops) (other : TransitTables) :
    other.linkedBy providerSourceId dataset.datasetVersion dataset.stops row = row := by
  unfold linkedBy
  split
  · rename_i free
    have none : (dataset.stops.findSome? fun stop =>
        if row.key = (providerSourceId, stop.providerStopId, dataset.datasetVersion) then
          other.parentOf providerSourceId dataset.datasetVersion stop
        else none) = none := by
      refine List.findSome?_eq_none_iff.mpr fun stop _ => if_neg fun same => ?_
      exact fresh.lacks.stops row member ⟨congrArg Prod.fst same, congrArg (·.2.2) same⟩
    rw [none, ← free]
  · rfl

/-- The new row of a stop is linked to the parent that the stop declares. -/
theorem linkedBy_new (fresh : Fresh ids dataset providerSourceId tables)
    {stop : TransitDatasetStop} (member : stop ∈ dataset.stops) (id : Uuid)
    (other : TransitTables) :
    other.linkedBy providerSourceId dataset.datasetVersion dataset.stops
        (stop.row providerSourceId dataset.datasetVersion id) =
      { stop.row providerSourceId dataset.datasetVersion id with
        parentStopId := other.parentOf providerSourceId dataset.datasetVersion stop } := by
  have only : (dataset.stops.findSome? fun next =>
      if (stop.row providerSourceId dataset.datasetVersion id).key =
          (providerSourceId, next.providerStopId, dataset.datasetVersion) then
        other.parentOf providerSourceId dataset.datasetVersion next
      else none) = other.parentOf providerSourceId dataset.datasetVersion stop := by
    refine (findSome?_eq_of_unique member fun next inside apart => if_neg fun same => ?_).trans
      (if_pos rfl)
    exact apart (List.inj_on_of_nodup_map fresh.stopIds inside member
      (congrArg (·.2.1) same).symm)
  have free : (stop.row providerSourceId dataset.datasetVersion id).parentStopId = none := rfl
  rw [linkedBy, if_pos free, only]

/-- The lookup of a parent between the passes: what the dataset has is found. -/
theorem parentOf_placed (fresh : Fresh ids dataset providerSourceId tables)
    {stop : TransitDatasetStop} {id : Uuid} :
    (tables.placed ids dataset providerSourceId).parentOf providerSourceId dataset.datasetVersion
        stop = some id ↔
      ∃ row ∈ (tables.placed ids dataset providerSourceId).stops, row.transitStopId = id ∧
        ∃ declared, stop.declaredParent = some declared ∧
          row.key = (providerSourceId, declared, dataset.datasetVersion) := by
  unfold parentOf
  simp only [Option.bind_eq_some_iff, stopId?_eq_some fresh.placed_keyed]
  constructor
  · rintro ⟨declared, declares, row, member, key, same⟩
    exact ⟨row, member, same, declared, declares, key⟩
  · rintro ⟨row, member, same, declared, declares, key⟩
    exact ⟨declared, declares, row, member, key, same⟩

/-- A key of the new version is that of a stop in the dataset. -/
theorem mem_placed_key (fresh : Fresh ids dataset providerSourceId tables) {name : String} :
    (∃ row ∈ (tables.placed ids dataset providerSourceId).stops,
      row.key = (providerSourceId, name, dataset.datasetVersion)) ↔
      name ∈ dataset.stops.map TransitDatasetStop.providerStopId := by
  have keys : (newStops ids dataset providerSourceId
      (tables.drawn + dataset.routes.length)).map TransitStop.key =
        dataset.stops.map fun stop =>
          (providerSourceId, stop.providerStopId, dataset.datasetVersion) := by
    rw [newStops]
    exact map_newRows (by intros; rfl) _
  constructor
  · rintro ⟨row, member, key⟩
    rcases List.mem_append.mp member with old | new
    · exact (fresh.lacks.stops row old ⟨congrArg Prod.fst key, congrArg (·.2.2) key⟩).elim
    · have listed := keys ▸ List.mem_map_of_mem new
      obtain ⟨stop, inside, same⟩ := List.mem_map.mp listed
      exact List.mem_map.mpr ⟨stop, inside, congrArg (·.2.1) (same.trans key)⟩
  · intro listed
    obtain ⟨stop, inside, rfl⟩ := List.mem_map.mp listed
    have keyed : (providerSourceId, stop.providerStopId, dataset.datasetVersion) ∈
        (newStops ids dataset providerSourceId (tables.drawn + dataset.routes.length)).map
          TransitStop.key := keys ▸ List.mem_map_of_mem inside
    obtain ⟨row, member, key⟩ := List.mem_map.mp keyed
    exact ⟨row, List.mem_append_right _ member, key⟩

/-- The stops after a fresh ingest: the old ones as they were, and the new ones linked. -/
theorem ingest_stops (fresh : Fresh ids dataset providerSourceId tables) :
    (tables.ingestDataset ids dataset providerSourceId).1.stops = tables.stops ++
      (newStops ids dataset providerSourceId (tables.drawn + dataset.routes.length)).map
        ((tables.placed ids dataset providerSourceId).linkedBy providerSourceId
          dataset.datasetVersion dataset.stops) := by
  rw [fresh.ingest]
  dsimp only
  rw [placed, List.map_append, List.map_congr_left fun row member => fresh.linkedBy_old member _,
    List.map_id']

/-- The content of the new row of a stop. -/
theorem content_new (fresh : Fresh ids dataset providerSourceId tables)
    {stop : TransitDatasetStop} (member : stop ∈ dataset.stops) (id : Uuid) :
    (tables.ingestDataset ids dataset providerSourceId).1.content
        ((tables.placed ids dataset providerSourceId).linkedBy providerSourceId
          dataset.datasetVersion dataset.stops
          (stop.row providerSourceId dataset.datasetVersion id)) =
      dataset.stopContent providerSourceId stop := by
  rw [fresh.linkedBy_new member, content, TransitDataset.stopContent, StopContent.mk.injEq]
  refine ⟨rfl, rfl, rfl, rfl, rfl, rfl, ?_⟩
  dsimp only
  have lookup : ∀ parent, (get TransitStop.transitStopId
      (tables.ingestDataset ids dataset providerSourceId).1.stops parent).map TransitStop.key =
        (get TransitStop.transitStopId (tables.placed ids dataset providerSourceId).stops
          parent).map TransitStop.key := by
    intro parent
    rw [fresh.ingest]
    dsimp only
    rw [get_map fun row _ => (linkedBy_keeps _ _ row).1, Option.map_map]
    congr 1
    funext row
    exact (linkedBy_keeps _ _ row).2
  simp only [lookup]
  cases known : (tables.placed ids dataset providerSourceId).parentOf providerSourceId
      dataset.datasetVersion stop with
  | some parent =>
      obtain ⟨row, inside, rfl, declared, declares, key⟩ := fresh.parentOf_placed.mp known
      have listed := fresh.mem_placed_key.mp ⟨row, inside, key⟩
      have found := (get_eq_some fresh.placed_keyed.stopIds).mpr ⟨inside, rfl⟩
      rw [Option.bind_some, found, Option.map_some, key, declares, Option.filter_some,
        if_pos (decide_eq_true listed), Option.map_some]
  | none =>
      rw [Option.bind_none]
      cases declares : stop.declaredParent with
      | none => rfl
      | some declared =>
          have missing : ¬decide (declared ∈
              dataset.stops.map TransitDatasetStop.providerStopId) = true := by
            intro listed
            obtain ⟨row, inside, key⟩ := fresh.mem_placed_key.mpr (of_decide_eq_true listed)
            cases known.symm.trans
              (fresh.parentOf_placed.mpr ⟨row, inside, rfl, declared, declares, key⟩)
          rw [Option.filter_some, if_neg missing, Option.map_none]

/-- The contents of the new rows are those of the dataset, in its order. -/
theorem content_newStops (fresh : Fresh ids dataset providerSourceId tables) :
    ((newStops ids dataset providerSourceId (tables.drawn + dataset.routes.length)).map
      ((tables.placed ids dataset providerSourceId).linkedBy providerSourceId
        dataset.datasetVersion dataset.stops)).map
          (tables.ingestDataset ids dataset providerSourceId).1.content =
      dataset.stops.map (dataset.stopContent providerSourceId) := by
  rw [List.map_map, newStops]
  refine map_newRows (fun stop member id => ?_) _
  exact fresh.content_new member id

theorem content_newRoutes (ids : IdSupply) (drawn : Nat) :
    (newRoutes ids dataset providerSourceId drawn).map TransitRoute.content =
      dataset.routes.map (dataset.routeContent providerSourceId) := by
  rw [newRoutes]
  exact map_newRows (by intros; rfl) _

/-- A fresh ingest stores the stops of the dataset, in its order. -/
theorem storedStops_ingest (fresh : Fresh ids dataset providerSourceId tables) :
    (tables.ingestDataset ids dataset providerSourceId).1.storedStops providerSourceId
      dataset.datasetVersion = dataset.stops.map (dataset.stopContent providerSourceId) := by
  have old : tables.stops.filter (fun row => row.providerSourceId = providerSourceId ∧
      row.datasetVersion = dataset.datasetVersion) = [] :=
    List.filter_eq_nil_iff.mpr fun row member => by simpa using fresh.lacks.stops row member
  have new : ∀ row ∈ (newStops ids dataset providerSourceId
        (tables.drawn + dataset.routes.length)).map
          ((tables.placed ids dataset providerSourceId).linkedBy providerSourceId
            dataset.datasetVersion dataset.stops),
      decide (row.providerSourceId = providerSourceId ∧
        row.datasetVersion = dataset.datasetVersion) = true := by
    intro row member
    obtain ⟨unlinked, inside, rfl⟩ := List.mem_map.mp member
    rw [newStops] at inside
    obtain ⟨stop, -, id, rfl⟩ := mem_newRows inside
    have key : ((tables.placed ids dataset providerSourceId).linkedBy providerSourceId
        dataset.datasetVersion dataset.stops
        (stop.row providerSourceId dataset.datasetVersion id)).key =
          (stop.row providerSourceId dataset.datasetVersion id).key :=
      (linkedBy_keeps _ _ _).2
    exact decide_eq_true ⟨congrArg Prod.fst key, congrArg (·.2.2) key⟩
  rw [storedStops, fresh.ingest_stops, List.filter_append, old, List.nil_append,
    List.filter_eq_self.mpr new]
  exact fresh.content_newStops

/-- A fresh ingest stores the routes of the dataset, in its order. -/
theorem storedRoutes_ingest (fresh : Fresh ids dataset providerSourceId tables) :
    (tables.ingestDataset ids dataset providerSourceId).1.storedRoutes providerSourceId
      dataset.datasetVersion = dataset.routes.map (dataset.routeContent providerSourceId) := by
  have old : tables.routes.filter (fun row => row.providerSourceId = providerSourceId ∧
      row.datasetVersion = dataset.datasetVersion) = [] :=
    List.filter_eq_nil_iff.mpr fun row member => by simpa using fresh.lacks.routes row member
  have new : ∀ row ∈ newRoutes ids dataset providerSourceId tables.drawn,
      decide (row.providerSourceId = providerSourceId ∧
        row.datasetVersion = dataset.datasetVersion) = true := by
    intro row member
    rw [newRoutes] at member
    obtain ⟨route, -, id, rfl⟩ := mem_newRows member
    exact decide_eq_true ⟨rfl, rfl⟩
  rw [fresh.ingest, storedRoutes]
  dsimp only
  rw [placed, List.filter_append, old, List.nil_append, List.filter_eq_self.mpr new]
  exact content_newRoutes ids _

/-- After a fresh ingest every row of the new version has the parent that its stop declares. -/
theorem settled (fresh : Fresh ids dataset providerSourceId tables) {stop : TransitDatasetStop}
    (member : stop ∈ dataset.stops) {row : TransitStop}
    (inside : row ∈ (tables.ingestDataset ids dataset providerSourceId).1.stops)
    (key : row.key = (providerSourceId, stop.providerStopId, dataset.datasetVersion))
    (free : row.parentStopId = none) :
    (tables.ingestDataset ids dataset providerSourceId).1.parentOf providerSourceId
      dataset.datasetVersion stop = none := by
  rw [fresh.ingest_stops, List.mem_append, List.mem_map] at inside
  rcases inside with old | ⟨unlinked, new, rfl⟩
  · exact (fresh.lacks.stops row old ⟨congrArg Prod.fst key, congrArg (·.2.2) key⟩).elim
  · rw [newStops] at new
    obtain ⟨other, listed, id, rfl⟩ := mem_newRows new
    rw [(linkedBy_keeps _ _ _).2] at key
    obtain rfl := List.inj_on_of_nodup_map fresh.stopIds listed member (congrArg (·.2.1) key)
    rw [fresh.linkedBy_new listed] at free
    rw [fresh.ingest, parentOf_map (linkedBy_keeps _ _)]
    exact free

/-- A second ingest changes nothing. -/
theorem ingest_again (fresh : Fresh ids dataset providerSourceId tables) :
    (tables.ingestDataset ids dataset providerSourceId).1.ingestDataset ids dataset
      providerSourceId = ((tables.ingestDataset ids dataset providerSourceId).1, ⟨0, 0, 0⟩) := by
  have keyed := fresh.keyed.ingestDataset dataset providerSourceId
  have stops := fresh.ingest_stops
  have linked := fun stop (member : stop ∈ dataset.stops) =>
    linkParent_idle keyed fun row inside key free => fresh.settled member inside key free
  have routes : (tables.ingestDataset ids dataset providerSourceId).1.routes =
      tables.routes ++ newRoutes ids dataset providerSourceId tables.drawn := by
    rw [fresh.ingest]
    rfl
  generalize (tables.ingestDataset ids dataset providerSourceId).1 = ingested at *
  have noRoutes : ingested.insertRoutes ids dataset providerSourceId = (ingested, 0) := by
    refine forEach_insertNew_idle addRoute TransitRoute.key fun route member _ => ?_
    obtain ⟨id, inside⟩ := mem_newRoutes ids providerSourceId member tables.drawn
    refine ⟨_, routes ▸ List.mem_append_right _ inside, ?_⟩
    rfl
  have noStops : ingested.insertStops ids dataset providerSourceId = (ingested, 0) := by
    refine forEach_insertNew_idle addStop TransitStop.key fun stop member _ => ?_
    obtain ⟨id, inside⟩ := mem_newStops ids providerSourceId member
      (tables.drawn + dataset.routes.length)
    refine ⟨_, stops ▸ List.mem_append_right _ (List.mem_map_of_mem inside), ?_⟩
    exact (linkedBy_keeps _ _ _).2
  rw [ingestDataset_passes, noRoutes]
  dsimp only
  rw [noStops]
  dsimp only
  rw [linkParents, forEach_idle linked]

/-- A dataset in another order is as fresh. -/
theorem perm (fresh : Fresh ids dataset providerSourceId tables) {other : TransitDataset}
    (version : other.datasetVersion = dataset.datasetVersion)
    (stops : other.stops.Perm dataset.stops) (routes : other.routes.Perm dataset.routes) :
    Fresh ids other providerSourceId tables where
  keyed := fresh.keyed
  lacks := version ▸ fresh.lacks
  stopIds := ((stops.map _).nodup_iff).mpr fresh.stopIds
  routeIds := ((routes.map _).nodup_iff).mpr fresh.routeIds

end Fresh

/-- The content of a stop does not depend on the order of the dataset. -/
theorem stopContent_perm {other : TransitDataset}
    (version : other.datasetVersion = dataset.datasetVersion)
    (stops : other.stops.Perm dataset.stops) :
    other.stopContent providerSourceId = dataset.stopContent providerSourceId := by
  have same : ∀ declared, declared ∈ other.stops.map TransitDatasetStop.providerStopId ↔
      declared ∈ dataset.stops.map TransitDatasetStop.providerStopId :=
    fun _ => (stops.map _).mem_iff
  funext stop
  simp only [TransitDataset.stopContent, version, same]

/-- **Ingests.** The ingest of a dataset with distinct identifiers, under a version that the store
does not hold, leaves the old rows as they are and stores the stops and the routes of the
dataset, each stop below the parent it declares if the dataset has it; a dataset in another
order is stored with the same content, and a second ingest changes nothing and counts
nothing. -/
theorem ingest_is_order_free_and_idempotent (keyed : Keyed ids tables)
    (stopIds : (dataset.stops.map TransitDatasetStop.providerStopId).Nodup)
    (routeIds : (dataset.routes.map TransitDatasetRoute.providerRouteId).Nodup)
    (lacks : tables.Lacks providerSourceId dataset.datasetVersion) :
    let ingested := (tables.ingestDataset ids dataset providerSourceId).1
    ((∃ stops, ingested.stops = tables.stops ++ stops ∧
        stops.map ingested.content = dataset.stops.map (dataset.stopContent providerSourceId)) ∧
      ∃ routes, ingested.routes = tables.routes ++ routes ∧
        routes.map TransitRoute.content =
          dataset.routes.map (dataset.routeContent providerSourceId)) ∧
    (∀ other : TransitDataset, other.datasetVersion = dataset.datasetVersion →
      other.stops.Perm dataset.stops → other.routes.Perm dataset.routes →
      let reordered := (tables.ingestDataset ids other providerSourceId).1
      (reordered.storedStops providerSourceId dataset.datasetVersion).Perm
          (ingested.storedStops providerSourceId dataset.datasetVersion) ∧
        (reordered.storedRoutes providerSourceId dataset.datasetVersion).Perm
          (ingested.storedRoutes providerSourceId dataset.datasetVersion)) ∧
    ingested.ingestDataset ids dataset providerSourceId = (ingested, ⟨0, 0, 0⟩) := by
  intro ingested
  have fresh : Fresh ids dataset providerSourceId tables := ⟨keyed, lacks, stopIds, routeIds⟩
  refine ⟨⟨⟨_, fresh.ingest_stops, fresh.content_newStops⟩, ?_⟩, ?_, fresh.ingest_again⟩
  · refine ⟨_, ?_, Fresh.content_newRoutes ids tables.drawn⟩
    change (tables.ingestDataset ids dataset providerSourceId).1.routes = _
    rw [fresh.ingest]
    rfl
  · intro other version stops routes
    have reordered := fresh.perm version stops routes
    have routeContent : other.routeContent providerSourceId =
        dataset.routeContent providerSourceId := by
      funext route
      simp only [TransitDataset.routeContent, version]
    dsimp only
    rw [fresh.storedStops_ingest, fresh.storedRoutes_ingest, ← version,
      reordered.storedStops_ingest, reordered.storedRoutes_ingest, stopContent_perm version stops,
      routeContent]
    exact ⟨stops.map _, routes.map _⟩

/-- A platform before its station, and one whose station is missing. -/
def threePlatforms : TransitDataset where
  operatorCode := "PATH"
  datasetVersion := "v1"
  stops := [
    ⟨"26728-1", some "26728", "PATH", "Grove Street 1", .path, 40, -74⟩,
    ⟨"26728", none, "PATH", "Grove Street", .path, 40, -74⟩,
    ⟨"26729-1", some "26729", "PATH", "Exchange Place 1", .path, 40, -74⟩]
  routes := [⟨"862", "PATH", some "JSQ-33", none, .path⟩]

/-- The platforms in an empty store: the content, and a second ingest. -/
theorem three_platforms_ingested :
    (∃ stops, ((⟨0, [], []⟩ : TransitTables).ingestDataset countingIds threePlatforms 9).1.stops =
        [] ++ stops ∧
      stops.map
          ((⟨0, [], []⟩ : TransitTables).ingestDataset countingIds threePlatforms 9).1.content =
        threePlatforms.stops.map (threePlatforms.stopContent 9)) ∧
    ((⟨0, [], []⟩ : TransitTables).ingestDataset countingIds threePlatforms 9).1.ingestDataset
        countingIds threePlatforms 9 =
      (((⟨0, [], []⟩ : TransitTables).ingestDataset countingIds threePlatforms 9).1,
        ⟨0, 0, 0⟩) := by
  have keyed : Keyed countingIds ⟨0, [], []⟩ :=
    ⟨uniqueIndex_nil, uniqueIndex_nil, by simp⟩
  have lacks : Lacks ⟨0, [], []⟩ 9 threePlatforms.datasetVersion := ⟨by simp, by simp⟩
  obtain ⟨⟨stops, -⟩, -, again⟩ :=
    ingest_is_order_free_and_idempotent keyed (by decide) (by decide) lacks
  exact ⟨stops, again⟩

/-- The platform is below its station, and the one without a station is below nothing. -/
example : (threePlatforms.stops.map (threePlatforms.stopContent 9)).map StopContent.parent =
    [some (9, "26728", "v1"), none, none] := by decide

end TransitTables

end RentalAgent
