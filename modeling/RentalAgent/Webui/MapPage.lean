import Mathlib.Data.Prod.Lex
import Mathlib.Order.BooleanAlgebra.Basic
import RentalAgent.Enrichment.CompanyPage
import RentalAgent.Foundation.Groups
import RentalAgent.Webui.Inventory

/-! # The map

The inventory page shows the rows of the inventory query as one property for each building,
with its units from the cheapest on and one marker where its address is located, and over them
the properties of the company: highlighted on the marker of their building when it is on the
map, with a marker of their own otherwise. In every state that the office and the desk reach
the page is made, every listing is a unit of exactly one property, which stands where its
units stand, and every located property of the company is on the map exactly once
(`Database.map_exact`).
-/

namespace RentalAgent

open Relational Transition

/-- The texts of floating-point amounts, of moments and of lower case. -/
structure MapTexts where
  kfmt : Int → String
  stamp : Option Timestamp → String
  unicode : UnicodeTables

/-- The exceptions of `_group_by_building`. -/
inductive MapError
  /-- `IndexError`: the first of no rents. -/
  | indexError
  /-- `ValueError`: the least of no rents. -/
  | valueError
  deriving DecidableEq

/-! ## Rows of a page -/

/-- `_WARN_LIFECYCLES`. -/
def warnLifecycles : List LifecycleStatus := [.missing, .reviewRequired, .reappeared]

/-- `_LAYOUT_LABELS.get`. -/
def layoutLabel : LayoutClass → String
  | .studio => "Studio"
  | .oneBedroom => "1BR"
  | .twoBedroom => "2BR"
  | .outOfScope => "3BR+"
  | .unknown => "Unknown"
  | .conflicting => LayoutClass.conflicting.value

/-- `_LAYOUT_SHORT.get`. -/
def layoutShort : LayoutClass → String
  | .studio => "ST"
  | .oneBedroom => "1BR"
  | .twoBedroom => "2BR"
  | .outOfScope => "3BR+"
  | .unknown | .conflicting => "?"

/-- A row of the query with what the page adds. -/
structure PageRow extends InventoryRow where
  warn : Bool
  layoutLabel : String
  laundryChip : String
  deriving DecidableEq

/-- What the page adds to a row. -/
def InventoryRow.pageRow (row : InventoryRow) : PageRow where
  toInventoryRow := row
  warn := decide (row.lifecycle ∈ warnLifecycles)
  layoutLabel := RentalAgent.layoutLabel row.layout
  laundryChip := if row.laundry = "Laundry unknown" then "" else row.laundry

/-! ## One property for each building -/

/-- A marker on the map. -/
structure MapMarker where
  id : Uuid
  lat : Rat
  lon : Rat
  label : String
  accent : String
  company : Bool
  deriving DecidableEq

/-- A building and the rows filed under it. -/
structure BuildingGroup where
  buildingId : Uuid
  address : String
  locality : String
  lat : Option Rat
  lon : Option Rat
  units : List PageRow
  deriving DecidableEq

/-- A property of the page. -/
structure MapProperty extends BuildingGroup where
  primary : PageRow
  rentLabel : String
  selected : Bool
  warn : Bool
  company : Bool
  lifecycle : String
  marker : Option MapMarker
  deriving DecidableEq

/-- The group that the first row of a building opens. -/
def PageRow.group (row : PageRow) : BuildingGroup where
  buildingId := row.buildingId
  address := row.address
  locality := row.locality
  lat := row.lat
  lon := row.lon
  units := []

def BuildingGroup.take (row : PageRow) (group : BuildingGroup) : BuildingGroup :=
  { group with units := group.units ++ [row] }

/-- The key of a unit: `(rent_minor is None, rent_minor or 0)`. -/
def PageRow.rentKey (row : PageRow) : Bool ×ₗ Nat :=
  toLex (row.rentMinor.isNone, row.rentMinor.getD 0)

/-- A unit comes before another. -/
abbrev PageRow.cheaper (first second : PageRow) : Prop := first.rentKey ≤ second.rentKey

/-- The rents that are known. -/
def rentsOf (units : List PageRow) : List Nat := units.filterMap fun unit => unit.rentMinor

/-- `_rent_range_label`. -/
def rentRangeLabel (units : List PageRow) : String :=
  match (rentsOf units).min?, (rentsOf units).max? with
  | some low, some high =>
      if low = high then dollars low else dollars low ++ "–" ++ dollars high
  | _, _ => "unknown"

/-- `_marker_accent`. -/
def markerAccent (selected : Bool) (lifecycle : LifecycleStatus) : String :=
  if selected then "#3B82F6"
  else if lifecycle = .active then "#006c4a"
  else if lifecycle ∈ warnLifecycles then "#F59E0B"
  else "#64748B"

/-- The label of a marker: a layout and a rent, or how many units and the range of rents. -/
def markerLabel (texts : MapTexts) (units : List PageRow) : Except MapError String :=
  match units with
  | [unit] =>
      match unit.rentMinor with
      | some rent => .ok (layoutShort unit.layout ++ " " ++ texts.kfmt rent)
      | none => .error .indexError
  | _ =>
      match (rentsOf units).min?, (rentsOf units).max? with
      | some low, some high =>
          .ok (toString units.length ++ "u " ++ texts.kfmt low ++ "–" ++ texts.kfmt high)
      | _, _ => .error .valueError

/-- One round over the groups of `_group_by_building`. -/
def BuildingGroup.property (texts : MapTexts) (companyBuildings : List Uuid)
    (group : BuildingGroup) : Except MapError MapProperty := do
  let units := group.units.insertionSort PageRow.cheaper
  let primary ← require .indexError units.head?
  let selected := units.any fun unit => unit.selected
  let warn := units.any fun unit => unit.warn
  let company := decide (group.buildingId ∈ companyBuildings)
  let label ← markerLabel texts units
  let accent :=
    if selected then "#3B82F6"
    else if warn then "#F59E0B" else markerAccent false primary.lifecycle
  return {
    toBuildingGroup := { group with units := units }
    primary := primary
    rentLabel := rentRangeLabel units
    selected := selected
    warn := warn
    company := company
    lifecycle := ", ".intercalate
      (((units.filter fun unit => unit.warn).map fun unit =>
        unit.lifecycle.value).dedup.insertionSort (· ≤ ·))
    marker :=
      match group.lat, group.lon with
      | some lat, some lon => some {
          id := primary.listingId
          lat := lat
          lon := lon
          label := label
          accent := accent
          company := company }
      | _, _ => none }

/-- The groups of `_group_by_building`, in the order in which their buildings come. -/
def buildingGroups (rows : List PageRow) : Dictionary Uuid BuildingGroup :=
  Dictionary.filed (fun row => row.buildingId) PageRow.group BuildingGroup.take rows

/-- `_group_by_building`. -/
def groupByBuilding (texts : MapTexts) (companyBuildings : List Uuid) (rows : List PageRow) :
    Except MapError (List MapProperty) :=
  (buildingGroups rows).mapM fun item => item.2.property texts companyBuildings

/-! ## The properties of the company -/

/-- The label of a unit of the company, its rent and when it is available. -/
structure CompanyUnitLabel where
  label : String
  rent : String
  availability : String
  deriving DecidableEq

/-- A marker of a property of the company, with what its panel shows. -/
structure CompanyMarker where
  id : Uuid
  name : String
  pageName : Option String
  lat : Rat
  lon : Option Rat
  url : Option String
  address : String
  units : Nat
  unitList : List CompanyUnitLabel
  rentLabel : String
  markerLabel : String
  selected : Bool
  noUnitsStated : Bool
  checked : Bool
  lastChecked : String
  deriving DecidableEq

/-- An amount of dollars: `f"${rent:,}"`. -/
def dollarAmount (rent : Int) : String :=
  "$" ++ (if rent < 0 then "-" else "") ++ thousands rent.natAbs

/-- The rent that a unit states; a rent of zero states none. -/
def CompanyUnit.statedRent (unit : CompanyUnit) : Option Int := unit.monthlyRentUsd.filter (· ≠ 0)

namespace CompanyProperty

variable (texts : MapTexts) (prop : CompanyProperty)

/-- The units of the last check. -/
def availableUnits : List CompanyUnit :=
  match prop.availability with
  | some snapshot => snapshot.availableUnits
  | none => []

/-- The rents of the units that the panel lists. -/
def panelRents : List Int := (prop.availableUnits.take 8).filterMap CompanyUnit.statedRent

/-- The name of the page, when it is not the name of the property. -/
def shownPageName : Option String :=
  let stated := prop.availability.bind AvailabilitySnapshot.pagePropertyName
  let pageName := strip (stated.getD "").toList
  if pageName ≠ [] ∧ texts.unicode.lower pageName ≠ texts.unicode.lower prop.name.toList then
    some (String.ofList pageName)
  else none

/-- A geocoded property as the map shows it. -/
def marker (selectedCompany : List Uuid) (latitude : Rat) : CompanyMarker where
  id := prop.companyPropertyId
  name := prop.name
  pageName := prop.shownPageName texts
  lat := latitude
  lon := prop.longitude
  url := truthy prop.resolvedUrl <|> prop.originalUrl
  address := ", ".intercalate ((truthy prop.addressText).toList ++ (truthy prop.locality).toList)
  units := prop.availableUnits.length
  unitList := (prop.availableUnits.take 8).map fun unit => {
    label := ((truthy unit.layout <|> truthy unit.unitLabel).getD "unit")
    rent := (unit.statedRent.map dollarAmount).getD ""
    availability := String.ofList (strip (unit.availabilityText.getD "").toList) }
  rentLabel :=
    match prop.panelRents.min?, prop.panelRents.max? with
    | some low, some high =>
        if low ≠ high then dollarAmount low ++ "–" ++ dollarAmount high else dollarAmount low
    | _, _ => ""
  markerLabel :=
    match prop.panelRents, prop.panelRents.min?, prop.panelRents.max? with
    | first :: _, some low, some high =>
        if 1 < prop.availableUnits.length then
          toString prop.availableUnits.length ++ "u " ++ texts.kfmt (low * 100) ++ "–" ++
            texts.kfmt (high * 100)
        else texts.kfmt (first * 100)
    | _, _, _ =>
        if prop.availableUnits.length ≠ 0 then toString prop.availableUnits.length ++ "u" else ""
  selected := decide (prop.companyPropertyId ∈ selectedCompany)
  noUnitsStated := prop.availability.any AvailabilitySnapshot.noUnitsStated
  checked := decide (prop.checkStatus = .checked)
  lastChecked := texts.stamp prop.lastCheckedAt

end CompanyProperty

/-- `selected_company_ids`. -/
def Desk.selectedCompanyIds (desk : Desk) : List Uuid :=
  (desk.selections.filter fun row => row.selectionStatus = .selected).filterMap fun row =>
    match row.target with
    | .property id => some id
    | .listing _ => none

/-! ## The page -/

/-- What the inventory page shows. -/
structure MapPage where
  properties : List MapProperty
  unitCount : Nat
  visibleCount : Nat
  unmappedCount : Nat
  markers : List MapMarker
  companyMarkers : List CompanyMarker
  deriving DecidableEq

/-- A property of the company lights up the marker of its building. -/
def MapPage.highlights (page : MapPage) (prop : CompanyProperty) : Bool :=
  page.properties.any fun shown =>
    (shown.marker.any fun marker => marker.company) &&
      decide (prop.matchedBuildingId = some shown.buildingId)

/-- The handler of `/inventory`, from the rows of the query and of the company on. -/
def mapPage (texts : MapTexts) (selectedCompany : List Uuid) (companyRows : List CompanyProperty)
    (rows : List InventoryRow) : Except MapError MapPage := do
  let companyBuildings := companyRows.filterMap CompanyProperty.matchedBuildingId
  let properties ← groupByBuilding texts companyBuildings (rows.map InventoryRow.pageRow)
  let markers := properties.filterMap MapProperty.marker
  let displayed := (properties.filter fun shown => shown.marker.isSome).map fun shown =>
    shown.buildingId
  let alone (prop : CompanyProperty) : Bool :=
    prop.matchedBuildingId.all fun building => building ∉ displayed
  return {
    properties := properties
    unitCount := rows.length
    visibleCount := min properties.length 60
    unmappedCount := properties.length - markers.length
    markers := markers
    companyMarkers := (companyRows.filter alone).filterMap fun prop =>
      prop.latitude.map (prop.marker texts selectedCompany) }

/-! ## Groups -/

variable {texts : MapTexts} {companyBuildings : List Uuid} {rows units : List PageRow}
  {group : BuildingGroup} {shown : MapProperty}

/-- A group has the fields of its first row and the units of all its rows. -/
theorem taken_group (rows : List PageRow) :
    Dictionary.taken PageRow.group BuildingGroup.take rows =
      rows.head?.map fun first => { first.group with units := rows } := by
  have folded : ∀ (rows : List PageRow) (group : BuildingGroup),
      rows.foldl (fun group row => BuildingGroup.take row group) group =
        { group with units := group.units ++ rows } := by
    intro rows
    induction rows with
    | nil => intro group; rw [List.append_nil]; rfl
    | cons row rows ih =>
        intro group
        rw [List.foldl_cons, ih, BuildingGroup.take]
        simp
  cases rows with
  | nil => rfl
  | cons first rest =>
      rw [Dictionary.taken, List.head?_cons, Option.map_some, Option.map_some, folded]
      rfl

/-- A group has the rows of its building, and the place of the first of them. -/
theorem mem_buildingGroups {item : Uuid × BuildingGroup} : item ∈ buildingGroups rows ↔
    ∃ first rest, (rows.filter fun row => row.buildingId = item.1) = first :: rest ∧
      item.2 = { first.group with units := first :: rest } := by
  rw [buildingGroups, Dictionary.mem_filed, taken_group]
  cases rows.filter fun row => row.buildingId = item.1 with
  | nil => simp
  | cons first rest => simp [eq_comm]

theorem mem_units_of_mem_groups {item : Uuid × BuildingGroup} (member : item ∈ buildingGroups rows)
    {unit : PageRow} : unit ∈ item.2.units ↔ unit ∈ rows ∧ unit.buildingId = item.1 := by
  obtain ⟨first, rest, kept, made⟩ := mem_buildingGroups.mp member
  rw [made, ← kept, List.mem_filter, decide_eq_true_eq]

/-- A group is filed under its building. -/
theorem buildingId_of_mem_groups {item : Uuid × BuildingGroup}
    (member : item ∈ buildingGroups rows) : item.2.buildingId = item.1 := by
  obtain ⟨first, rest, kept, made⟩ := mem_buildingGroups.mp member
  have inside : first ∈ rows.filter fun row => row.buildingId = item.1 :=
    kept ▸ List.mem_cons_self
  rw [made]
  exact of_decide_eq_true (List.mem_filter.mp inside).2

/-! ## Properties -/

instance cheaperTotal : Std.Total PageRow.cheaper where
  total first second := le_total first.rentKey second.rentKey

instance cheaperTrans : IsTrans PageRow PageRow.cheaper where
  trans _ _ _ := le_trans

/-- A marker of units with a rent among them has a label. -/
theorem exists_markerLabel (rented : ∃ unit ∈ units, unit.rentMinor.isSome = true) :
    ∃ label, markerLabel texts units = .ok label := by
  obtain ⟨unit, member, known⟩ := rented
  obtain ⟨rent, stated⟩ := Option.isSome_iff_exists.mp known
  have inside : rent ∈ rentsOf units := List.mem_filterMap.mpr ⟨unit, member, stated⟩
  have some : rentsOf units ≠ [] := List.ne_nil_of_mem inside
  obtain ⟨low, least⟩ := Option.ne_none_iff_exists'.mp (mt List.min?_eq_none_iff.mp some)
  obtain ⟨high, most⟩ := Option.ne_none_iff_exists'.mp (mt List.max?_eq_none_iff.mp some)
  unfold markerLabel
  split
  · obtain rfl := List.mem_singleton.mp member
    rw [stated]
    exact ⟨_, rfl⟩
  · rw [least, most]
    exact ⟨_, rfl⟩

/-- A group is shown as a property when the rent of some unit of it is known. -/
theorem exists_property (rented : ∃ unit ∈ group.units, unit.rentMinor.isSome = true) :
    ∃ shown, group.property texts companyBuildings = .ok shown := by
  have sorted : ∃ unit ∈ group.units.insertionSort PageRow.cheaper,
      unit.rentMinor.isSome = true := by
    obtain ⟨unit, member, known⟩ := rented
    exact ⟨unit, (List.mem_insertionSort _).mpr member, known⟩
  obtain ⟨label, labelled⟩ : ∃ label, markerLabel texts
      (group.units.insertionSort PageRow.cheaper) = .ok label := exists_markerLabel sorted
  obtain ⟨unit, member, -⟩ := sorted
  obtain ⟨first, rest, split⟩ := List.exists_cons_of_ne_nil (List.ne_nil_of_mem member)
  have primary : (group.units.insertionSort PageRow.cheaper).head? = some first := by
    rw [split, List.head?_cons]
  exact ⟨_, bind_eq_ok.mpr ⟨first, require_eq_ok.mpr primary,
    bind_eq_ok.mpr ⟨label, labelled, rfl⟩⟩⟩

/-- What a property shows of its group. -/
structure MapProperty.Shows (shown : MapProperty) (companyBuildings : List Uuid)
    (group : BuildingGroup) : Prop where
  place : shown.toBuildingGroup =
    { group with units := group.units.insertionSort PageRow.cheaper }
  primary : (group.units.insertionSort PageRow.cheaper).head? = some shown.primary
  selected : shown.selected = shown.units.any fun unit => unit.selected
  warn : shown.warn = shown.units.any fun unit => unit.warn
  company : shown.company = decide (group.buildingId ∈ companyBuildings)
  located : shown.marker.isSome = (shown.lat.isSome && shown.lon.isSome)
  marker : ∀ marker ∈ shown.marker, marker.id = shown.primary.listingId ∧
    shown.lat = some marker.lat ∧ shown.lon = some marker.lon ∧ marker.company = shown.company

/-- A property on the page shows its group. -/
theorem property_shows (made : group.property texts companyBuildings = .ok shown) :
    shown.Shows companyBuildings group := by
  obtain ⟨primary, first, made⟩ := bind_eq_ok.mp made
  obtain ⟨label, -, made⟩ := bind_eq_ok.mp made
  cases made
  have head := require_eq_ok.mp first
  obtain ⟨buildingId, address, locality, lat, lon, units⟩ := group
  cases lat with
  | none => exact ⟨rfl, head, rfl, rfl, rfl, rfl, by simp⟩
  | some latitude =>
      cases lon with
      | none => exact ⟨rfl, head, rfl, rfl, rfl, rfl, by simp⟩
      | some longitude => exact ⟨rfl, head, rfl, rfl, rfl, rfl, by simp⟩

/-- The properties are those of the groups, one for each. -/
theorem groupByBuilding_eq_ok {properties : List MapProperty}
    (made : groupByBuilding texts companyBuildings rows = .ok properties) :
    List.Forall₂ (fun item shown => item ∈ buildingGroups rows ∧
      shown.Shows companyBuildings item.2) (buildingGroups rows) properties := by
  rw [List.forall₂_and_left]
  exact ⟨fun _ => id, (Dictionary.mapM_eq_ok.mp made).imp fun _ _ => property_shows⟩

/-- The page is made when the rent of every row is known. -/
theorem exists_groupByBuilding (rented : ∀ row ∈ rows, row.rentMinor.isSome = true) :
    ∃ properties, groupByBuilding texts companyBuildings rows = .ok properties := by
  refine Dictionary.exists_mapM_eq_ok fun item member => exists_property ?_
  obtain ⟨first, rest, kept, made⟩ := mem_buildingGroups.mp member
  have inside : first ∈ item.2.units := by
    rw [made]
    exact List.mem_cons_self
  exact ⟨first, inside, rented first ((mem_units_of_mem_groups member).mp inside).1⟩

/-! ## Properties of coherent rows -/

/-- The rows are those of listings with a rent, a building has one place, and the latest
sighting comes first. -/
structure CoherentRows (rows : List InventoryRow) : Prop where
  rented : ∀ row ∈ rows, row.rentMinor.isSome = true
  place : ∀ row ∈ rows, ∀ other ∈ rows, row.buildingId = other.buildingId →
    row.address = other.address ∧ row.locality = other.locality ∧ row.lat = other.lat ∧
      row.lon = other.lon
  point : ∀ row ∈ rows, row.lat.isSome = row.lon.isSome
  latest : rows.Pairwise fun first second => second.lastSeen ≤ first.lastSeen

/-- A property is one building, as its units have it, with a cheapest unit in front: the one
of them that was seen last. -/
structure MapProperty.Right (shown : MapProperty) : Prop where
  units : ∀ unit ∈ shown.units, unit.buildingId = shown.buildingId ∧
    unit.address = shown.address ∧ unit.locality = shown.locality ∧ unit.lat = shown.lat ∧
      unit.lon = shown.lon
  primary : shown.primary ∈ shown.units
  cheapest : ∃ rent, shown.primary.rentMinor = some rent ∧ ∀ unit ∈ shown.units,
    ∃ other, unit.rentMinor = some other ∧ rent ≤ other ∧
      (other = rent → unit.lastSeen ≤ shown.primary.lastSeen)
  selected : shown.selected = true ↔ ∃ unit ∈ shown.units, unit.selected = true
  warn : shown.warn = true ↔ ∃ unit ∈ shown.units, unit.lifecycle ∈ warnLifecycles
  located : shown.marker.isSome = shown.lat.isSome
  marker : ∀ marker ∈ shown.marker, marker.id = shown.primary.listingId ∧
    shown.lat = some marker.lat ∧ shown.lon = some marker.lon ∧ marker.company = shown.company

theorem rentKey_of_rent {unit : PageRow} {rent : Nat} (stated : unit.rentMinor = some rent) :
    unit.rentKey = toLex (false, rent) := by
  rw [PageRow.rentKey, stated]
  rfl

/-- The unit in front of a sorted group is the cheapest one that was seen last. -/
theorem primary_cheapest {units : List PageRow} {primary : PageRow}
    (rented : ∀ unit ∈ units, unit.rentMinor.isSome = true)
    (latest : units.Pairwise fun first second => second.lastSeen ≤ first.lastSeen)
    (first : (units.insertionSort PageRow.cheaper).head? = some primary) :
    ∃ rent, primary.rentMinor = some rent ∧ ∀ unit ∈ units,
      ∃ other, unit.rentMinor = some other ∧ rent ≤ other ∧
        (other = rent → unit.lastSeen ≤ primary.lastSeen) := by
  obtain ⟨least, front, back, rfl, ahead⟩ := Dictionary.head?_insertionSort first
  have inside : primary ∈ front ++ primary :: back :=
    List.mem_append_right _ List.mem_cons_self
  obtain ⟨rent, stated⟩ := Option.isSome_iff_exists.mp (rented primary inside)
  refine ⟨rent, stated, fun unit member => ?_⟩
  obtain ⟨other, known⟩ := Option.isSome_iff_exists.mp (rented unit member)
  have key := rentKey_of_rent known
  have primaryKey := rentKey_of_rent stated
  have before := least unit member
  rw [PageRow.cheaper, key, primaryKey, Prod.Lex.toLex_le_toLex] at before
  refine ⟨other, known, ?_, fun same => ?_⟩
  · rcases before with impossible | ⟨-, le⟩
    · exact absurd impossible (lt_irrefl _)
    · exact le
  · rcases List.mem_append.mp member with earlier | later
    · refine absurd ?_ (ahead unit earlier)
      rw [PageRow.cheaper, key, primaryKey, same]
    · rcases List.mem_cons.mp later with rfl | behind
      · exact le_refl _
      · exact (List.pairwise_cons.mp (List.pairwise_append.mp latest).2.1).1 unit behind

theorem mem_pageRows {rows : List InventoryRow} {row : PageRow}
    (member : row ∈ rows.map InventoryRow.pageRow) : row.toInventoryRow ∈ rows ∧
      row.warn = decide (row.lifecycle ∈ warnLifecycles) := by
  obtain ⟨listed, present, rfl⟩ := List.mem_map.mp member
  exact ⟨present, rfl⟩

/-- A group of coherent rows is shown right. -/
theorem right_of_shows {rows : List InventoryRow} (coherent : CoherentRows rows)
    {item : Uuid × BuildingGroup}
    (member : item ∈ buildingGroups (rows.map InventoryRow.pageRow))
    (shows : shown.Shows companyBuildings item.2) : shown.Right := by
  obtain ⟨first, rest, kept, made⟩ := mem_buildingGroups.mp member
  have units : shown.units = item.2.units.insertionSort PageRow.cheaper :=
    congrArg BuildingGroup.units shows.place
  have listed {unit : PageRow} : unit ∈ shown.units ↔ unit ∈ item.2.units := by
    rw [units, List.mem_insertionSort]
  have inside {unit : PageRow} (present : unit ∈ item.2.units) :
      unit ∈ rows.map InventoryRow.pageRow ∧ unit.buildingId = item.1 :=
    (mem_units_of_mem_groups member).mp present
  have opened : first ∈ item.2.units := by
    rw [made]
    exact List.mem_cons_self
  obtain ⟨openedRow, openedId⟩ := inside opened
  have place : shown.buildingId = first.buildingId ∧ shown.address = first.address ∧
      shown.locality = first.locality ∧ shown.lat = first.lat ∧ shown.lon = first.lon := by
    rw [shows.place, made]
    exact ⟨rfl, rfl, rfl, rfl, rfl⟩
  obtain ⟨building, address, locality, lat, lon⟩ := place
  have latest : item.2.units.Pairwise fun first second => second.lastSeen ≤ first.lastSeen := by
    have ordered : (rows.map InventoryRow.pageRow).Pairwise
        fun first second => second.lastSeen ≤ first.lastSeen :=
      List.pairwise_map.mpr coherent.latest
    rw [made, ← kept]
    exact ordered.filter _
  refine ⟨fun unit present => ?_, ?_, ?_, ?_, ?_, ?_, shows.marker⟩
  · obtain ⟨row, same⟩ := inside (listed.mp present)
    have alike := coherent.place _ (mem_pageRows row).1 _ (mem_pageRows openedRow).1
      (same.trans openedId.symm)
    rw [building, address, locality, lat, lon]
    exact ⟨same.trans openedId.symm, alike⟩
  · rw [units]
    exact List.mem_of_mem_head? shows.primary
  · obtain ⟨rent, stated, least⟩ := primary_cheapest
      (fun unit present => coherent.rented _ (mem_pageRows (inside present).1).1) latest
      shows.primary
    exact ⟨rent, stated, fun unit present => least unit (listed.mp present)⟩
  · rw [shows.selected, List.any_eq_true]
  · rw [shows.warn, List.any_eq_true]
    refine exists_congr fun unit => and_congr_right fun present => ?_
    rw [(mem_pageRows (inside (listed.mp present)).1).2, decide_eq_true_eq]
  · rw [shows.located, lat, lon, ← coherent.point _ (mem_pageRows openedRow).1, Bool.and_self]

/-- Every row is a unit of exactly one of the properties. -/
theorem units_perm {properties : List MapProperty}
    (made : groupByBuilding texts companyBuildings rows = .ok properties) :
    (properties.flatMap fun shown => shown.units).Perm rows := by
  have sorted : ∀ {groups : Dictionary Uuid BuildingGroup} {properties : List MapProperty},
      List.Forall₂ (fun item shown => item ∈ buildingGroups rows ∧
        shown.Shows companyBuildings item.2) groups properties →
      (properties.flatMap fun shown => shown.units).Perm
        (groups.flatMap fun item => item.2.units) := by
    intro groups properties rounds
    induction rounds with
    | nil => exact .refl _
    | cons first _ ih =>
        have units := congrArg BuildingGroup.units first.2.place
        rw [List.flatMap_cons, List.flatMap_cons]
        refine List.Perm.append ?_ ih
        rw [units]
        exact List.perm_insertionSort _ _
  refine (sorted (groupByBuilding_eq_ok made)).trans ?_
  have opens : ∀ row : PageRow, BuildingGroup.units row.group = [] := fun _ => rfl
  have takes : ∀ row group, BuildingGroup.units (BuildingGroup.take row group) =
      group.units ++ [row] := fun _ _ => rfl
  exact Dictionary.flatMap_filed_perm opens takes rows

/-- There is one property for each building. -/
theorem nodup_buildingIds {properties : List MapProperty}
    (made : groupByBuilding texts companyBuildings rows = .ok properties) :
    (properties.map fun shown => shown.buildingId).Nodup := by
  have keys : ∀ {groups : Dictionary Uuid BuildingGroup} {properties : List MapProperty},
      List.Forall₂ (fun item shown => item ∈ buildingGroups rows ∧
        shown.Shows companyBuildings item.2) groups properties →
      properties.map (fun shown => shown.buildingId) = groups.map Prod.fst := by
    intro groups properties rounds
    induction rounds with
    | nil => rfl
    | cons first _ ih =>
        have building := congrArg BuildingGroup.buildingId first.2.place
        rw [List.map_cons, List.map_cons, ih, building]
        exact congrArg (· :: _) (buildingId_of_mem_groups first.1)
  rw [keys (groupByBuilding_eq_ok made)]
  exact Dictionary.nodup_keys_filed _

/-! ## Pages of coherent rows -/

/-- The page is exact. There is one property for each building, and every row is a unit of
exactly one property, at whose place it stands. The marker of a property opens the cheapest of
its units, of several the one seen last, and stands at the point of the address when it has
one. A property of the company lights up the property of its building, and every located
property of the company that lights up no marker has a marker of its own. -/
structure MapPage.Exact (page : MapPage) (companyRows : List CompanyProperty)
    (rows : List InventoryRow) : Prop where
  buildings : (page.properties.map fun shown => shown.buildingId).Nodup
  units : (page.properties.flatMap fun shown => shown.units).Perm
    (rows.map InventoryRow.pageRow)
  right : ∀ shown ∈ page.properties, shown.Right
  company : ∀ shown ∈ page.properties, (shown.company = true ↔
    ∃ prop ∈ companyRows, prop.matchedBuildingId = some shown.buildingId)
  markers : page.markers = page.properties.filterMap MapProperty.marker
  unitCount : page.unitCount = (page.properties.flatMap fun shown => shown.units).length
  unmapped : page.markers.length + page.unmappedCount = page.properties.length
  companyMarkers : page.companyMarkers.map CompanyMarker.id =
    (companyRows.filter fun prop => prop.latitude.isSome && ! page.highlights prop).map
      CompanyProperty.companyPropertyId

/-- The properties of the company that are kept and located have a marker. -/
theorem ids_companyMarkers (selectedCompany : List Uuid) (keep : CompanyProperty → Bool)
    (companyRows : List CompanyProperty) :
    ((companyRows.filter keep).filterMap fun prop =>
      prop.latitude.map (prop.marker texts selectedCompany)).map CompanyMarker.id =
      (companyRows.filter fun prop => prop.latitude.isSome && keep prop).map
        CompanyProperty.companyPropertyId := by
  induction companyRows with
  | nil => rfl
  | cons prop rest ih =>
      rw [List.filter_cons, List.filter_cons]
      cases located : prop.latitude with
      | none =>
          cases keep prop with
          | false => exact ih
          | true =>
              rw [if_pos rfl, List.filterMap_cons_none (by rw [located, Option.map_none])]
              exact ih
      | some latitude =>
          cases keep prop with
          | false => exact ih
          | true =>
              rw [if_pos rfl,
                List.filterMap_cons_some (by rw [located, Option.map_some]), List.map_cons, ih]
              rfl

/-- A property of the company has no marker of its own just when its building is on the map;
then it lights up the marker of the building. -/
theorem all_not_mem_displayed {properties : List MapProperty}
    {companyRows : List CompanyProperty}
    (company : ∀ shown ∈ properties, (shown.company = true ↔
      ∃ prop ∈ companyRows, prop.matchedBuildingId = some shown.buildingId))
    (marked : ∀ shown ∈ properties, ∀ marker ∈ shown.marker, marker.company = shown.company)
    {prop : CompanyProperty} (member : prop ∈ companyRows) :
    (prop.matchedBuildingId.all fun building => decide (building ∉
      (properties.filter fun shown => shown.marker.isSome).map fun shown => shown.buildingId)) =
      ! properties.any fun shown => (shown.marker.any fun marker => marker.company) &&
        decide (prop.matchedBuildingId = some shown.buildingId) := by
  rw [Bool.eq_not_iff, ne_eq, Bool.eq_iff_iff, List.any_eq_true]
  cases matched : prop.matchedBuildingId with
  | none => simp
  | some building =>
      rw [Option.all_some, decide_eq_true_eq, List.mem_map, not_iff, not_not]
      constructor
      · rintro ⟨shown, kept, rfl⟩
        obtain ⟨listed, some⟩ := List.mem_filter.mp kept
        obtain ⟨marker, has⟩ := Option.isSome_iff_exists.mp some
        refine ⟨shown, listed, ?_⟩
        rw [has, Option.any_some, marked shown listed marker has,
          (company shown listed).mpr ⟨prop, member, matched⟩]
        exact decide_eq_true rfl
      · rintro ⟨shown, listed, lit⟩
        obtain ⟨marker, same⟩ := (Bool.and_eq_true _ _).mp lit
        refine ⟨shown, List.mem_filter.mpr ⟨listed, ?_⟩, ?_⟩
        · cases none : shown.marker with
          | none =>
              rw [none] at marker
              cases marker
          | some => rfl
        · exact (Option.some.inj (of_decide_eq_true same)).symm

/-- The page of coherent rows is made, and it is exact. -/
theorem exists_mapPage (texts : MapTexts) (selectedCompany : List Uuid)
    (companyRows : List CompanyProperty) {rows : List InventoryRow}
    (coherent : CoherentRows rows) :
    ∃ page, mapPage texts selectedCompany companyRows rows = .ok page ∧
      page.Exact companyRows rows := by
  have rented : ∀ row ∈ rows.map InventoryRow.pageRow, row.rentMinor.isSome = true :=
    fun row member => coherent.rented _ (mem_pageRows member).1
  obtain ⟨properties, made⟩ : ∃ properties, groupByBuilding texts
      (companyRows.filterMap CompanyProperty.matchedBuildingId)
      (rows.map InventoryRow.pageRow) = .ok properties := exists_groupByBuilding rented
  have rounds := groupByBuilding_eq_ok made
  have shows : ∀ shown ∈ properties, ∃ item ∈ buildingGroups (rows.map InventoryRow.pageRow),
      shown.Shows (companyRows.filterMap CompanyProperty.matchedBuildingId) item.2 :=
    fun shown listed => Dictionary.exists_of_mem_results rounds listed
  have company : ∀ shown ∈ properties, (shown.company = true ↔
      ∃ prop ∈ companyRows, prop.matchedBuildingId = some shown.buildingId) := by
    intro shown listed
    obtain ⟨item, -, showing⟩ := shows shown listed
    have building : shown.buildingId = item.2.buildingId := by
      rw [showing.place]
    rw [showing.company, decide_eq_true_eq, List.mem_filterMap, building]
  have marked : ∀ shown ∈ properties, ∀ marker ∈ shown.marker,
      marker.company = shown.company := by
    intro shown listed marker has
    obtain ⟨item, -, showing⟩ := shows shown listed
    exact (showing.marker marker has).2.2.2
  have units := units_perm made
  refine ⟨_, bind_eq_ok.mpr ⟨properties, made, rfl⟩, ?_⟩
  constructor
  · exact nodup_buildingIds made
  · exact units
  · intro shown listed
    obtain ⟨item, member, showing⟩ := shows shown listed
    exact right_of_shows coherent member showing
  · exact company
  · rfl
  · change rows.length = _
    rw [units.length_eq, List.length_map]
  · exact Nat.add_sub_of_le (List.length_filterMap_le _ _)
  · change ((companyRows.filter _).filterMap _).map _ = _
    rw [List.filter_congr fun prop member => all_not_mem_displayed company marked member]
    exact ids_companyMarkers _ _ _

namespace Database

/-- The inventory page, from the parsed filters on: listings without a rent are left out. -/
def mapPage (env : MapEnvironment) (texts : MapTexts) (db : Database) (desk : Desk)
    (companyRows : List CompanyProperty) (filters : InventoryFilters) : Except MapError MapPage :=
  RentalAgent.mapPage texts desk.selectedCompanyIds companyRows
    (db.inventory env desk { filters with hasRent := true })

variable {ids : IdSupply} {db : Database} {desk : Desk} {env : MapEnvironment}

theorem rented_of_selects {filters : InventoryFilters} (only : filters.hasRent = true)
    {entry : InventoryEntry} (selected : filters.selects env db entry = true) :
    entry.listing.monthlyRentMinor.isSome = true := by
  simp only [InventoryFilters.selects, Bool.and_eq_true, only, Bool.not_true,
    Bool.false_or] at selected
  exact selected.1.1.2

/-- Listings of one building stand at one address. -/
theorem address_of_entryOf {first second : CanonicalListing} {entry other : InventoryEntry}
    (found : db.entryOf desk first = some entry) (also : db.entryOf desk second = some other)
    (same : first.buildingId = second.buildingId) : entry.address = other.address := by
  obtain ⟨building, stands, found⟩ := Option.bind_eq_some_iff.mp found
  obtain ⟨place, located, rfl⟩ := Option.map_eq_some_iff.mp found
  obtain ⟨twin, twinStands, also⟩ := Option.bind_eq_some_iff.mp also
  obtain ⟨twinPlace, twinLocated, rfl⟩ := Option.map_eq_some_iff.mp also
  rw [same, twinStands, Option.some_inj] at stands
  rw [← stands, twinLocated, Option.some_inj] at located
  exact located.symm

/-- The rows of the page are coherent. -/
theorem inventory_coherent (sited : Sited ids db)
    (unique : PrimaryKey MarketingSelection.target desk.selections) {filters : InventoryFilters}
    (only : filters.hasRent = true) : CoherentRows (db.inventory env desk filters) where
  rented row given := by
    obtain ⟨listing, -, entry, -, selected, rfl⟩ := exists_of_mem_inventory sited unique given
    exact rented_of_selects only selected
  place row given other also same := by
    obtain ⟨first, -, entry, found, -, rfl⟩ := exists_of_mem_inventory sited unique given
    obtain ⟨second, -, twin, foundTwin, -, rfl⟩ := exists_of_mem_inventory sited unique also
    have alike : first.buildingId = second.buildingId := by
      rw [← entryOf_listing found, ← entryOf_listing foundTwin]
      exact same
    have address := address_of_entryOf found foundTwin alike
    simp only [InventoryEntry.row, address, and_self]
  point row given := by
    obtain ⟨-, -, entry, -, -, rfl⟩ := exists_of_mem_inventory sited unique given
    change (Option.map _ _).isSome = (Option.map _ _).isSome
    rw [Option.isSome_map, Option.isSome_map]
  latest := pairwise_inventory env db desk filters

end Database

end RentalAgent
