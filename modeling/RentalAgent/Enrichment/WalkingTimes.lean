import RentalAgent.Canonical.Reversal
import RentalAgent.Enrichment.CompanyCheck
import RentalAgent.Enrichment.NearbyTransit

/-! # Walking times

`WalkingEnrichmentService` routes the walk from a listing to its nearest stops and stores what
the router answers together with a verdict, and `transit_for_listing` shows the minutes.
The verdict is stored and not read: a listing shows the time of an implausible walk, and it
shows no minutes at all for half a minute. A company property shows neither. The two agree
exactly on plausible walks of more than half a minute (`walking_times_agree_iff`).
-/

namespace RentalAgent

open Relational

/-! ## Rows -/

/-- What is stored with the verdict on a walk. -/
inductive WalkIssue
  | routedShorterThanStraightLine
  /-- The speed in hundredths of a meter per second. -/
  | implausibleSpeed (hundredths : Int)
  deriving DecidableEq

/-- A row of `app.transit_access`, with the columns of the walk. -/
structure RoutedAccess extends TransitAccess where
  transitAccessId : Uuid
  walkingDistanceM : Option Nat := none
  walkingDurationS : Option Nat := none
  walkIssue : Option WalkIssue := none
  deriving DecidableEq

/-- The tables that walks are routed on. -/
structure WalkTables where
  nearby : NearbyTables
  access : List RoutedAccess

/-- A router for walks: the distance and the duration, unless it fails. -/
abbrev WalkRouter := Point → Point → Option (Nat × Nat)

/-! ## Routing -/

/-- `GEOMETRY_TOLERANCE_M`. -/
def geometryToleranceM : Nat := 30

/-- `WALK_SPEED_MIN_MPS`. -/
def walkSpeedMin : Rat := 0.5

/-- `WALK_SPEED_MAX_MPS`. -/
def walkSpeedMax : Rat := 2.2

/-- What speaks against a walk; a walk that takes no time has no speed. -/
def walkIssueOf (straight : Int) (distance duration : Nat) : Option WalkIssue :=
  if (distance + geometryToleranceM : Int) < straight then some .routedShorterThanStraightLine
  else if 0 < duration then
    let speed : Rat := distance / duration
    if walkSpeedMin ≤ speed ∧ speed ≤ walkSpeedMax then none
    else some (.implausibleSpeed (roundHalfEven (speed * 100)))
  else none

/-- A row with the walk that was routed. -/
def RoutedAccess.withWalk (row : RoutedAccess) (distance duration : Nat) : RoutedAccess :=
  { row with
    walkingDistanceM := some distance
    walkingDurationS := some duration
    validationStatus :=
      if walkIssueOf row.straightLineDistanceM distance duration = none then .passed else .warning
    walkIssue := walkIssueOf row.straightLineDistanceM distance duration }

namespace WalkTables

/-- The points that a walk is routed between. -/
def ends (tables : WalkTables) (row : RoutedAccess) : Option (Point × TransitStop) := do
  let (origin, _) ← tables.nearby.origin row.canonicalListingId
  let stop ← get TransitStop.transitStopId tables.nearby.transit.stops row.transitStopId
  return (origin, stop)

/-- The rows of the nearest stops that lack a walk, as many as the limit allows; the query does
not order them. -/
def dueRows (position : Uuid → Nat) (limit : Nat) (tables : WalkTables) : List RoutedAccess :=
  ((tables.access.filter fun row => row.proximityRank = 1 && row.walkingDistanceM = none &&
      (tables.ends row).isSome).insertionSort
    fun first second => position first.transitAccessId ≤ position second.transitAccessId).take limit

/-- One round of the loop over the rows: a failure of the router leaves the row alone. -/
def walkRow (route : WalkRouter) (tables : WalkTables) (row : RoutedAccess) : WalkTables :=
  match (tables.ends row).bind fun walk => route walk.1 walk.2.locationPoint with
  | none => tables
  | some (distance, duration) =>
      { tables with
        access := updateWhere (fun stored => stored.transitAccessId = row.transitAccessId)
          (RoutedAccess.withWalk · distance duration) tables.access }

/-- `WalkingEnrichmentService.enrich_primary_candidates`. -/
def enrichPrimaryCandidates (route : WalkRouter) (position : Uuid → Nat) (limit : Nat)
    (tables : WalkTables) : WalkTables :=
  (tables.dueRows position limit).foldl (walkRow route) tables

end WalkTables

/-! ## Display -/

/-- What the page of a listing shows of a stop. -/
structure StopView where
  mode : TransitMode
  stop : String
  operator : String
  straightLineM : Int
  walkingM : Option Nat
  walkMin : Option Int
  rank : Nat
  usefulness : UsefulnessStatus
  dataset : String
  deriving DecidableEq

/-- The walking time in minutes as `transit_for_listing` rounds it. -/
def RoutedAccess.walkMin (row : RoutedAccess) : Option Int :=
  row.walkingDurationS.map fun duration => roundHalfEven (duration / 60)

/-- The view of a row with its stop. -/
def RoutedAccess.view (row : RoutedAccess) (stop : TransitStop) : StopView where
  mode := row.mode
  stop := stop.stopName
  operator := stop.operatorCode
  straightLineM := row.straightLineDistanceM
  walkingM := row.walkingDistanceM
  walkMin := row.walkMin
  rank := row.proximityRank
  usefulness := row.usefulnessStatus
  dataset := row.datasetVersion

/-- The text of a mode. -/
def TransitMode.value : TransitMode → String
  | .subway => "SUBWAY"
  | .path => "PATH"
  | .bus => "BUS"
  | .rail => "RAIL"
  | .ferry => "FERRY"
  | .other => "OTHER"

/-- `ORDER BY mode, proximity_rank`; rows that it does not order stay as the scan meets them. -/
def RoutedAccess.before (position : Uuid → Nat) (first second : RoutedAccess) : Prop :=
  first.mode.value < second.mode.value ∨ first.mode.value = second.mode.value ∧
    (first.proximityRank < second.proximityRank ∨ first.proximityRank = second.proximityRank ∧
      position first.transitAccessId ≤ position second.transitAccessId)

instance (position : Uuid → Nat) : DecidableRel (RoutedAccess.before position) :=
  fun _ _ => inferInstanceAs (Decidable (_ ∨ _ ∧ (_ ∨ _ ∧ _)))

/-- `transit_for_listing`. -/
def WalkTables.transitForListing (position : Uuid → Nat) (tables : WalkTables)
    (canonicalListingId : Uuid) : List StopView :=
  ((tables.access.filter fun row =>
      row.canonicalListingId = canonicalListingId).insertionSort
    (RoutedAccess.before position)).filterMap fun row =>
      (get TransitStop.transitStopId tables.nearby.transit.stops row.transitStopId).map row.view

/-! ## Plausible walks -/

/-- A walk that is not shorter than the straight line, at the speed of a pedestrian. -/
def PlausibleWalk (straight : Int) (distance duration : Nat) : Prop :=
  straight ≤ distance + geometryToleranceM ∧ 0 < duration ∧
    walkSpeedMin ≤ (distance / duration : Rat) ∧ (distance / duration : Rat) ≤ walkSpeedMax

/-- A number is rounded to one or more exactly if it is more than a half. -/
theorem one_le_roundHalfEven {value : Rat} : 1 ≤ roundHalfEven value ↔ 1 / 2 < value := by
  have below := Int.floor_le value
  have above := Int.lt_floor_add_one value
  change ((value.floor : Int) : Rat) ≤ value at below
  change value < ((value.floor : Int) : Rat) + 1 at above
  rw [roundHalfEven]
  generalize value.floor = floor at below above ⊢
  rcases lt_trichotomy floor 0 with negative | rfl | positive
  · have small : ((floor : Int) : Rat) + 1 ≤ 0 := by exact_mod_cast negative
    refine iff_of_false ?_ (by linarith)
    split_ifs <;> omega
  · rw [Int.cast_zero] at below above ⊢
    rw [sub_zero]
    split_ifs with less more
    · exact iff_of_false (by omega) (by linarith)
    · exact iff_of_true (by omega) more
    · exact iff_of_false (by omega) more
    · exact absurd (by decide) ‹¬(0 : Int) % 2 = 0›
  · have large : (1 : Rat) ≤ ((floor : Int) : Rat) := by exact_mod_cast positive
    refine iff_of_true ?_ (by linarith)
    split_ifs <;> omega

/-- What a company property shows of a walk. -/
theorem walkMin_nearbyStop (route : Point → Point → Option (Int × Int)) (origin : Point)
    (straight : Int) (stop : TransitStop) {distance duration : Nat}
    (answer : route origin stop.locationPoint = some ((distance : Int), (duration : Int))) :
    (PlausibleWalk straight distance duration ∧
        (CompanyProperty.nearbyStop route origin straight stop).walkMin =
          some (max 1 (roundHalfEven ((duration : Rat) / 60)))) ∨
      (¬PlausibleWalk straight distance duration ∧
        (CompanyProperty.nearbyStop route origin straight stop).walkMin = none) := by
  have judged : (straight ≤ (distance : Int) + 30 ∧
      0.5 ≤ (if (duration : Int) = 0 then 0
        else ((distance : Int) : Rat) / ((duration : Int) : Rat)) ∧
      (if (duration : Int) = 0 then 0 else ((distance : Int) : Rat) / ((duration : Int) : Rat)) ≤
        2.2) ↔ PlausibleWalk straight distance duration := by
    rw [PlausibleWalk]
    by_cases instant : (duration : Int) = 0
    · rw [if_pos instant]
      exact iff_of_false (fun slow => absurd slow.2.1 (by norm_num)) fun moving => by omega
    · rw [if_neg instant, Int.cast_natCast, Int.cast_natCast]
      have moving : 0 < duration := by omega
      exact and_congr_right fun _ => (and_iff_right moving).symm
  rw [CompanyProperty.nearbyStop, answer]
  change (_ ∧ (if _ then _ else _ : NearbyStop).walkMin = _) ∨
    (_ ∧ (if _ then _ else _ : NearbyStop).walkMin = _)
  by_cases sound : PlausibleWalk straight distance duration
  · left
    rw [if_pos (judged.mpr sound)]
    exact ⟨sound, rfl⟩
  · right
    rw [if_neg (mt judged.mp sound)]
    exact ⟨sound, rfl⟩

/-! ## Both paths -/

/-- A row with what the router answered for it. -/
def RoutedAccess.walked (row : RoutedAccess) : Option (Nat × Nat) → RoutedAccess
  | none => row
  | some (distance, duration) => row.withWalk distance duration

namespace WalkTables

variable {route : WalkRouter} {position : Uuid → Nat} {limit : Nat} {tables : WalkTables}
  {row : RoutedAccess}

/-- What the router answers for a row. -/
def answer (route : WalkRouter) (tables : WalkTables) (row : RoutedAccess) : Option (Nat × Nat) :=
  (tables.ends row).bind fun walk => route walk.1 walk.2.locationPoint

/-- A routed row is written back to its access, and the others stay. -/
theorem access_walkRow (route : WalkRouter) (tables : WalkTables) (row : RoutedAccess) :
    (tables.walkRow route row).access = tables.access.map fun stored =>
      if stored.transitAccessId = row.transitAccessId then
        stored.walked (tables.answer route row) else stored := by
  rw [walkRow, ← answer]
  cases tables.answer route row with
  | none =>
      change tables.access = _
      simp only [RoutedAccess.walked, ite_self, List.map_id']
  | some walk =>
      change updateWhere _ _ _ = _
      simp only [updateWhere, decide_eq_true_eq]
      rfl

theorem answer_walkRow (row other : RoutedAccess) :
    (tables.walkRow route row).answer route other = tables.answer route other := by
  rw [walkRow]
  split <;> rfl

/-- After the loop every row of the batch has the walk that was routed for it. -/
theorem get_foldl_walkRow {rows : List RoutedAccess}
    (distinct : (rows.map RoutedAccess.transitAccessId).Nodup) (id : Uuid) :
    get RoutedAccess.transitAccessId (rows.foldl (walkRow route) tables).access id =
      (get RoutedAccess.transitAccessId tables.access id).map fun stored =>
        match get RoutedAccess.transitAccessId rows id with
        | some row => stored.walked (tables.answer route row)
        | none => stored := by
  induction rows generalizing tables with
  | nil => exact (Option.map_id' ▸ rfl)
  | cons first rest following =>
      obtain ⟨fresh, later⟩ := List.nodup_cons.mp distinct
      rw [List.foldl_cons, following later, access_walkRow, get_map fun stored _ => ?_,
        Option.map_map]
      · refine Option.map_congr fun stored found => ?_
        have key := key_of_get found
        rw [Function.comp_apply]
        simp only [answer_walkRow]
        by_cases here : first.transitAccessId = id
        · have absent : get RoutedAccess.transitAccessId rest id = none := by
            refine get_eq_none.mpr fun row member same => fresh ?_
            rw [here, ← same]
            exact List.mem_map_of_mem member
          have head : get RoutedAccess.transitAccessId (first :: rest) id = some first :=
            List.find?_cons_of_pos (decide_eq_true here)
          rw [absent, head, key, if_pos here.symm]
        · have tail : get RoutedAccess.transitAccessId (first :: rest) id =
              get RoutedAccess.transitAccessId rest id :=
            List.find?_cons_of_neg (by simpa using here)
          rw [tail, key, if_neg (Ne.symm here)]
      · split
        · cases tables.answer route first <;> rfl
        · rfl

/-- Walking times leave the nearby stops alone. -/
theorem nearby_foldl_walkRow (rows : List RoutedAccess) :
    (rows.foldl (walkRow route) tables).nearby = tables.nearby := by
  induction rows generalizing tables with
  | nil => rfl
  | cons first rest following =>
      rw [List.foldl_cons, following, walkRow]
      split <;> rfl

/-- The rows of a batch are stored rows, each once. -/
theorem dueRows_spec (keyed : PrimaryKey RoutedAccess.transitAccessId tables.access) :
    (∀ row ∈ tables.dueRows position limit, row ∈ tables.access) ∧
      ((tables.dueRows position limit).map RoutedAccess.transitAccessId).Nodup := by
  have taken := List.take_sublist limit ((tables.access.filter fun row =>
      row.proximityRank = 1 && row.walkingDistanceM = none &&
        (tables.ends row).isSome).insertionSort
    fun first second => position first.transitAccessId ≤ position second.transitAccessId)
  have sorted := List.perm_insertionSort
    (fun first second : RoutedAccess =>
      position first.transitAccessId ≤ position second.transitAccessId)
    (tables.access.filter fun row =>
      row.proximityRank = 1 && row.walkingDistanceM = none && (tables.ends row).isSome)
  refine ⟨fun row member => (List.mem_filter.mp (sorted.mem_iff.mp (taken.subset member))).1, ?_⟩
  refine (taken.map _).nodup ((sorted.map _).nodup_iff.mpr ?_)
  exact (List.filter_sublist.map _).nodup (primaryKey_iff_nodup.mp keyed)

/-- A row of a batch is shown with the walk that was routed for it. -/
theorem view_mem_transitForListing
    (keyed : PrimaryKey RoutedAccess.transitAccessId tables.access)
    (due : row ∈ tables.dueRows position limit) {stop : TransitStop}
    (stops : get TransitStop.transitStopId tables.nearby.transit.stops row.transitStopId =
      some stop) {distance duration : Nat}
    (answered : tables.answer route row = some (distance, duration)) :
    (row.withWalk distance duration).view stop ∈
      (tables.enrichPrimaryCandidates route position limit).transitForListing position
        row.canonicalListingId := by
  obtain ⟨kept, distinct⟩ : (∀ row ∈ tables.dueRows position limit, row ∈ tables.access) ∧
      ((tables.dueRows position limit).map RoutedAccess.transitAccessId).Nodup :=
    dueRows_spec keyed
  have batch : get RoutedAccess.transitAccessId (tables.dueRows position limit)
      row.transitAccessId = some row :=
    (get_eq_some (primaryKey_iff_nodup.mpr distinct)).mpr ⟨due, rfl⟩
  have before : get RoutedAccess.transitAccessId tables.access row.transitAccessId = some row :=
    (get_eq_some keyed).mpr ⟨kept row due, rfl⟩
  have after : get RoutedAccess.transitAccessId
      (tables.enrichPrimaryCandidates route position limit).access row.transitAccessId =
        some (row.withWalk distance duration) := by
    rw [enrichPrimaryCandidates, get_foldl_walkRow distinct, before, batch]
    change some (row.walked _) = _
    rw [answered]
    rfl
  refine List.mem_filterMap.mpr ⟨row.withWalk distance duration, ?_, ?_⟩
  · refine (List.mem_insertionSort _).mpr (List.mem_filter.mpr ⟨mem_of_get after, ?_⟩)
    exact decide_eq_true rfl
  · rw [enrichPrimaryCandidates, nearby_foldl_walkRow]
    exact congrArg (Option.map _) stops

end WalkTables

/-- **Walking times.** A listing and a company property show the same minutes of a walk exactly
if the walk is plausible and takes more than half a minute. -/
theorem walking_times_agree_iff {route : WalkRouter} {position : Uuid → Nat} {limit : Nat}
    {tables : WalkTables} {row : RoutedAccess} {stop : TransitStop} {distance duration : Nat}
    (keyed : PrimaryKey RoutedAccess.transitAccessId tables.access)
    (due : row ∈ tables.dueRows position limit)
    (stops : get TransitStop.transitStopId tables.nearby.transit.stops row.transitStopId =
      some stop)
    (answered : tables.answer route row = some (distance, duration)) (origin : Point) :
    (row.withWalk distance duration).view stop ∈
        (tables.enrichPrimaryCandidates route position limit).transitForListing position
          row.canonicalListingId ∧
      (((row.withWalk distance duration).view stop).walkMin =
          (CompanyProperty.nearbyStop (fun _ _ => some ((distance : Int), (duration : Int))) origin
            row.straightLineDistanceM stop).walkMin ↔
        PlausibleWalk row.straightLineDistanceM distance duration ∧ 30 < duration) := by
  refine ⟨WalkTables.view_mem_transitForListing keyed due stops answered, ?_⟩
  have shown : ((row.withWalk distance duration).view stop).walkMin =
      some (roundHalfEven ((duration : Rat) / 60)) := rfl
  rw [shown]
  have long : 1 ≤ roundHalfEven ((duration : Rat) / 60) ↔ 30 < duration := by
    rw [one_le_roundHalfEven, lt_div_iff₀ (by norm_num)]
    norm_num
  rcases walkMin_nearbyStop (fun _ _ => some ((distance : Int), (duration : Int))) origin
      row.straightLineDistanceM stop rfl with ⟨sound, minutes⟩ | ⟨unsound, minutes⟩
  · rw [minutes, and_iff_right sound, ← long, Option.some.injEq, eq_comm, max_eq_right_iff]
  · rw [minutes]
    exact iff_of_false (by simp) fun plain => unsound plain.1

/-- A stop in the street of a listing. -/
def nearStop : TransitStop where
  transitStopId := 5
  providerSourceId := 9
  providerStopId := "127"
  operatorCode := "MTA"
  stopName := "Times Sq-42 St"
  mode := .subway
  locationPoint := ⟨1, 1⟩
  activeStatus := .active
  datasetVersion := "v1"

/-- The row of the stop, 350 meters from the listing. -/
def nearAccess : RoutedAccess where
  canonicalListingId := 1
  transitStopId := 5
  mode := .subway
  straightLineDistanceM := 350
  proximityRank := 1
  usefulnessStatus := .candidate
  validationStatus := .pending
  inputLocationHash := "hash"
  datasetVersion := "v1"
  calculatedAt := 0
  transitAccessId := 7

/-- A located listing and its nearest stop. -/
def oneStop : WalkTables where
  nearby := {
    listings := [Database.plainListing 1 .active]
    buildings := [⟨0, 3⟩]
    addresses := [{
      addressId := 3, addressLine1 := none, locality := "New York", administrativeArea := "NY"
      formattedAddress := "", addressFingerprint := none, locationPrecision := .building
      boundaryStatus := .unresolved, locationPoint := some ⟨0, 0⟩ }]
    transit := ⟨0, [nearStop], []⟩
    access := []
    ingested := [] }
  access := [nearAccess]

/-- A walk of 400 meters in five minutes is shown on both pages. -/
theorem plausible_walk_agrees :
    (nearAccess.withWalk 400 300).view nearStop ∈
        (oneStop.enrichPrimaryCandidates (fun _ _ => some (400, 300)) id 200).transitForListing id
          1 ∧
      (((nearAccess.withWalk 400 300).view nearStop).walkMin =
          (CompanyProperty.nearbyStop (fun _ _ => some ((400 : Nat), (300 : Nat))) ⟨0, 0⟩ 350
            nearStop).walkMin ↔
        PlausibleWalk 350 400 300 ∧ 30 < 300) :=
  walking_times_agree_iff (primaryKey_iff_nodup.mpr (by decide)) (by decide) (by decide)
    (by decide) ⟨0, 0⟩

/-- A walk of five kilometers in ten minutes is shown on the page of a listing alone. -/
theorem implausible_walk_is_shown :
    ((oneStop.enrichPrimaryCandidates (fun _ _ => some (5000, 600)) id 200).transitForListing id
        1).map StopView.walkMin = [some 10] ∧
      (CompanyProperty.nearbyStop (fun _ _ => some (5000, 600)) ⟨0, 0⟩ 350 nearStop).walkMin =
        none := by
  decide +kernel

end RentalAgent
