import RentalAgent.Enrichment.CompanyPage
import RentalAgent.Enrichment.Location

/-! # Checking company properties

`CompanyAvailabilityService.check` fetches the page of a property, has a model read the
advertised units out of it and writes what it learned to the row; `run_company_refresh`
commits the row after each check and rolls back when the check raises.
-/

namespace RentalAgent

open Dialogue

/-- `TASK_TYPE`. -/
def companyTaskType : String := "company_availability_extract"

/-- `PROMPT_VERSION`. -/
def companyPromptVersion : String := "company-availability-v2"

/-- `OUTPUT_SCHEMA_VERSION`. -/
def companyOutputSchemaVersion : String := "2"

/-- `CHECK_LOG_CAP`. -/
def checkLogCap : Nat := 30

/-! ## Answers from outside -/

/-- What the model reads out of a page. -/
structure CompanyPageAvailability where
  pageIsThisProperty : Bool := false
  propertyName : Option String := none
  address : Option String := none
  locality : Option String := none
  availableUnits : List CompanyUnit := []
  noUnitsStated : Bool := false
  evidence : String := ""
  laundryType : String := "UNKNOWN"
  laundryEvidence : String := ""
  amenities : List String := []
  feeStatus : String := "UNKNOWN"
  feeEvidence : String := ""
  description : Option String := none
  floorPlanPresent : Bool := false
  floorPlanUrl : Option String := none
  deriving DecidableEq

structure CompanyTaskRequest where
  taskType : String
  promptVersion : String
  outputSchemaVersion : String
  companyProperty : Uuid
  url : String
  propertyName : String
  knownAddress : Option String
  pageText : List Char

/-- The output of the model: none, one that does not validate, or what a page states. -/
inductive CompanyTaskOutput
  | missing
  | invalid
  | valid (extracted : CompanyPageAvailability)
  deriving DecidableEq

structure CompanyTaskResult where
  status : ModelExecutionStatus
  output : CompanyTaskOutput
  errorCode : Option String := none

/-- What the model read, or the error that a check records. -/
def CompanyTaskResult.read (result : CompanyTaskResult) : Except String CompanyPageAvailability :=
  if result.status ≠ .succeeded ∨ result.output = .missing then
    .error ("LLM extraction failed (" ++ result.errorCode.getD "None" ++ ")")
  else
    match result.output with
    | .valid extracted => .ok extracted
    | _ => .error "LLM output failed schema validation"

/-- The environment of a check: the model, the geocoders, the router for walks when there is
one, and the rows of other tables that a check reads. -/
structure CompanyEnvironment extends PageSearch where
  llm : CompanyTaskRequest → CompanyTaskResult
  geocoders : List Geocoder
  walkRouter : Option (Point → Point → Option (Int × Int))
  scan : StopScan
  addresses : List Address
  buildings : List Building
  stops : List TransitStop

namespace CompanyProperty

/-! ## History -/

/-- What a successful check was, after the last successful one. -/
def checkedEvent (previous : Option CheckLogEntry) (unitCount : Nat)
    (minRent maxRent : Option Int) : CheckEvent :=
  match previous with
  | none => .firstCheck
  | some previous =>
      if previous.unitCount ≠ unitCount then .availabilityChanged
      else if (previous.minRent, previous.maxRent) ≠ (minRent, maxRent) then .priceChanged
      else .unchanged

/-- `_append_check_log`. -/
def appendCheckLog (status : CompanyCheckStatus) (units : List CompanyUnit) (now : Timestamp)
    (prop : CompanyProperty) : CompanyProperty :=
  let rents := units.filterMap fun unit => unit.monthlyRentUsd.filter (· ≠ 0)
  let entries := prop.checkLog.getD []
  let previous := entries.find? fun entry => entry.status = .checked
  let event :=
    if status ≠ .checked then .checkFailed
    else checkedEvent previous units.length rents.min? rents.max?
  let entry : CheckLogEntry := ⟨now, status, units.length, rents.min?, rents.max?, event⟩
  { prop with checkLog := some ((entry :: entries).take checkLogCap) }

/-! ## Location -/

variable (env : CompanyEnvironment)

/-- `_is_nj`. The locality of a page is free text. -/
def isNj (prop : CompanyProperty) : Bool :=
  let text := env.unicode.lower
    (prop.locality.getD "" ++ " " ++ prop.addressText.getD "").toList
  (njLocalities.any fun town => occursIn (env.unicode.lower town.toList) text) ||
    "nj".toList ∈ (text.splitBy fun a b => env.unicode.isWord a = env.unicode.isWord b) ||
    occursIn "new jersey".toList text

/-- `_in_metro`. -/
def inMetro : Option Rat → Option Rat → Option Point
  | some latitude, some longitude =>
      if 40.4 ≤ latitude ∧ latitude ≤ 41.2 ∧ -74.5 ≤ longitude ∧ longitude ≤ -73.5 then
        some ⟨longitude, latitude⟩
      else none
  | _, _ => none

/-- The geocoders in order: the first point in the metropolitan area is stored. When there
is none but an answer outside of it, the stored point is a wrong match. -/
def askGeocoders (request : GeocodeRequest) (nj : Bool) :
    Bool → List Geocoder → CompanyProperty → CompanyProperty
  | sawOutOfMetro, [], prop =>
      if sawOutOfMetro then { prop with latitude := none, longitude := none } else prop
  | sawOutOfMetro, geocoder :: rest, prop =>
      if nj && geocoder.providerCode = "nyc_geosearch" then
        askGeocoders request nj sawOutOfMetro rest prop
      else
        let result := geocoder.geocode prop.companyPropertyId request
        if result.status ≠ .succeeded then askGeocoders request nj sawOutOfMetro rest prop
        else
          match inMetro result.latitude result.longitude with
          | some point =>
              { prop with latitude := some point.latitude, longitude := some point.longitude }
          | none => askGeocoders request nj true rest prop

/-- `_geocode`. -/
def geocode (prop : CompanyProperty) : CompanyProperty :=
  match truthy prop.addressText with
  | none => prop
  | some address =>
      let nj := prop.isNj env
      askGeocoders
        { formattedAddress := address ++ ", " ++ (truthy prop.locality).getD "New York"
          locality := prop.locality
          administrativeArea := some (if nj then "NJ" else "NY") }
        nj false env.geocoders prop

/-- `_match_building`: a building at the address, the one a scan meets first. -/
def matchBuilding (prop : CompanyProperty) : CompanyProperty :=
  match truthy prop.addressText with
  | none => prop
  | some address =>
      let fingerprint := addressFingerprint env.unicode address
      let found := env.buildings.filter fun building => env.addresses.any fun row =>
        row.addressId = building.addressId && row.addressFingerprint = some fingerprint
      let ordered := found.insertionSort fun first second =>
        env.scan.position first.buildingId ≤ env.scan.position second.buildingId
      match ordered.head? with
      | none => prop
      | some building => { prop with matchedBuildingId := some building.buildingId }

/-- `_resolve_location`. -/
def resolveLocation (prop : CompanyProperty) : CompanyProperty :=
  (prop.geocode env).matchBuilding env

/-! ## Transit -/

/-- The walk to a stop, when it is not shorter than the straight line and its speed is that
of a pedestrian. -/
def nearbyStop (route : Point → Point → Option (Int × Int)) (origin : Point) (meters : Int)
    (stop : TransitStop) : NearbyStop :=
  let entry : NearbyStop := { stop := stop.stopName, mode := stop.mode, straightLineM := meters }
  match route origin stop.locationPoint with
  | none => entry
  | some (distance, duration) =>
      let speed : Rat := if duration = 0 then 0 else distance / duration
      if meters ≤ distance + 30 ∧ 0.5 ≤ speed ∧ speed ≤ 2.2 then
        { entry with
          walkingM := some distance
          walkMin := some (max 1 (roundHalfEven (duration / 60))) }
      else { entry with validation := some "implausible_route" }

/-- `attach_nearby_transit`: the five nearest complexes within two kilometers. -/
def attachNearbyTransit (route : Point → Point → Option (Int × Int)) (prop : CompanyProperty) :
    CompanyProperty :=
  match prop.latitude, prop.longitude, prop.availability with
  | some latitude, some longitude, some availability =>
      let origin : Point := ⟨longitude, latitude⟩
      let meters := fun stop : TransitStop =>
        roundHalfEven (env.scan.distance stop.locationPoint origin)
      let stops := Ranking.firstRows (env.scan.before fun stop => meters stop)
        (env.scan.reaches origin 2000) 5 env.stops
      let transit := stops.map fun stop => nearbyStop route origin (meters stop) stop
      { prop with availability := some { availability with nearbyTransit := some transit } }
  | _, _, _ => prop

/-! ## Checking -/

/-- A name that is a street address stands in for a missing address. -/
def nameAsAddress (prop : CompanyProperty) : CompanyProperty :=
  if env.looksLikeAddress prop.name ∧ truthy prop.addressText = none then
    { prop with addressText := some (TextRules.stripped prop.name) }
  else prop

/-- Recording a check that failed: a full re-check discards the snapshot. -/
def recordFailure (now : Timestamp) (discardStale : Bool) (error : String)
    (prop : CompanyProperty) : CompanyProperty :=
  let prop := { prop with
    lastCheckedAt := some now
    checkStatus := .failed
    checkError := some error
    availability := if discardStale then none else prop.availability }
  (prop.appendCheckLog .failed [] now).resolveLocation env

/-- What is stored of a page that was read. -/
def snapshot (now : Timestamp) (url : String) (units : List CompanyUnit)
    (extracted : CompanyPageAvailability) : AvailabilitySnapshot where
  availableUnits := units
  noUnitsStated := extracted.noUnitsStated
  pageIsThisProperty := extracted.pageIsThisProperty
  pagePropertyName := truthy (some (TextRules.stripped (extracted.propertyName.getD "")))
  evidence := String.ofList (extracted.evidence.toList.take 500)
  sourceUrl := url
  checkedAt := now
  laundryType :=
    if laundryTypes.any fun laundry => laundry.value = extracted.laundryType then
      extracted.laundryType
    else "UNKNOWN"
  laundryEvidence := String.ofList (extracted.laundryEvidence.toList.take 300)
  amenities := ((extracted.amenities.map TextRules.stripped).filter (· ≠ "")).take 25
  feeStatus :=
    if extracted.feeStatus ∈ ["NO_FEE", "FEE_CHARGED"] then extracted.feeStatus else "UNKNOWN"
  feeEvidence := String.ofList (extracted.feeEvidence.toList.take 300)
  description := truthy (some (String.ofList
    ((strip (extracted.description.getD "").toList).take 1500)))
  floorPlanPresent := extracted.floorPlanPresent
  floorPlanUrl := extracted.floorPlanUrl

/-- Recording a check that read a page. -/
def recordChecked (now : Timestamp) (page : FetchedPage) (extracted : CompanyPageAvailability)
    (prop : CompanyProperty) : CompanyProperty :=
  let units := extracted.availableUnits.filter fun unit =>
    unit.monthlyRentUsd.all fun usd => 300 ≤ usd && usd ≤ 100000
  let prop := { prop with
    lastCheckedAt := some now
    resolvedUrl := some page.url
    resolvedUrlKind := some page.kind
    linkStatus := if page.kind = LinkKind.original then .ok else .replaced
    addressText := if truthy prop.addressText = none then
      (truthy extracted.address).or prop.addressText else prop.addressText
    locality := if truthy prop.locality = none then
      (truthy extracted.locality).or prop.locality else prop.locality
    availability := some (snapshot now page.url units extracted) }
  let prop := { prop.appendCheckLog .checked units now with
    checkStatus := .checked
    checkError := none }
  let prop := prop.resolveLocation env
  env.walkRouter.elim prop fun route => prop.attachNearbyTransit env route

/-- What the model is asked about a page. -/
def taskRequest (prop : CompanyProperty) (url text : String) : CompanyTaskRequest where
  taskType := companyTaskType
  promptVersion := companyPromptVersion
  outputSchemaVersion := companyOutputSchemaVersion
  companyProperty := prop.companyPropertyId
  url := url
  propertyName := prop.name
  knownAddress := prop.addressText
  pageText := relevantExcerpt env.unicode text.toList

/-! ## What the parts of a check leave alone -/

/-- Asking the geocoders moves the point and nothing else. -/
theorem askGeocoders_moves (request : GeocodeRequest) (nj sawOutOfMetro : Bool)
    (geocoders : List Geocoder) (prop : CompanyProperty) :
    ∃ latitude longitude, askGeocoders request nj sawOutOfMetro geocoders prop =
      { prop with latitude := latitude, longitude := longitude } := by
  induction geocoders generalizing sawOutOfMetro with
  | nil =>
      unfold askGeocoders
      split
      · exact ⟨none, none, rfl⟩
      · exact ⟨prop.latitude, prop.longitude, rfl⟩
  | cons geocoder rest ih =>
      unfold askGeocoders
      dsimp only
      split
      · exact ih sawOutOfMetro
      · split
        · exact ih sawOutOfMetro
        · split
          · exact ⟨_, _, rfl⟩
          · exact ih true

/-- Resolving the location moves the point, matches a building and does nothing else. -/
theorem resolveLocation_moves (prop : CompanyProperty) :
    ∃ latitude longitude building, prop.resolveLocation env =
      { prop with
        latitude := latitude
        longitude := longitude
        matchedBuildingId := building } := by
  obtain ⟨latitude, longitude, moved⟩ : ∃ latitude longitude, prop.geocode env =
      { prop with latitude := latitude, longitude := longitude } := by
    unfold geocode
    split
    · exact ⟨prop.latitude, prop.longitude, rfl⟩
    · exact askGeocoders_moves _ _ _ _ prop
  rw [resolveLocation, moved]
  unfold matchBuilding
  split
  · exact ⟨latitude, longitude, prop.matchedBuildingId, rfl⟩
  · dsimp only
    split
    · exact ⟨latitude, longitude, prop.matchedBuildingId, rfl⟩
    · exact ⟨latitude, longitude, _, rfl⟩

/-- Attaching stops writes to the snapshot there is. -/
theorem attachNearbyTransit_writes (route : Point → Point → Option (Int × Int))
    (prop : CompanyProperty) :
    (prop.attachNearbyTransit env route).checkStatus = prop.checkStatus ∧
      ((prop.attachNearbyTransit env route).availability = none ↔ prop.availability = none) := by
  unfold attachNearbyTransit
  split
  · rename_i stored
    simp [stored]
  · exact ⟨rfl, Iff.rfl⟩

variable {env} {prop : CompanyProperty}

@[simp] theorem resolveLocation_checkStatus :
    (prop.resolveLocation env).checkStatus = prop.checkStatus := by
  obtain ⟨latitude, longitude, building, moved⟩ := resolveLocation_moves env prop
  rw [moved]

@[simp] theorem resolveLocation_availability :
    (prop.resolveLocation env).availability = prop.availability := by
  obtain ⟨latitude, longitude, building, moved⟩ := resolveLocation_moves env prop
  rw [moved]

/-- A check that read a page is recorded, with a snapshot. -/
theorem recordChecked_writes (env : CompanyEnvironment) (prop : CompanyProperty)
    (now : Timestamp) (page : FetchedPage) (extracted : CompanyPageAvailability) :
    (prop.recordChecked env now page extracted).checkStatus = .checked ∧
      (prop.recordChecked env now page extracted).availability ≠ none := by
  unfold recordChecked
  cases env.walkRouter with
  | none => simp [appendCheckLog]
  | some route =>
      have writes := attachNearbyTransit_writes env route
      simp [writes, appendCheckLog]

end CompanyProperty

/-- What `check` returns. -/
inductive CheckResult
  | checked | failed | rateLimited
  deriving DecidableEq

namespace CompanyEnvironment

variable (env : CompanyEnvironment)

/-- The part of `check` after the page was fetched, or was not. -/
def judgePage (now : Timestamp) (discardStale : Bool) (prop : CompanyProperty) :
    Option FetchedPage → CheckResult × CompanyProperty
  | none =>
      let error := "page unreachable: file link" ++
        (if env.searches then " and web fallbacks" else "") ++ " all failed"
      (.failed, { prop with linkStatus := .failed }.recordFailure env now discardStale error)
  | some page =>
      match (env.llm (prop.taskRequest env page.url page.text)).read with
      | .error error => (.failed, prop.recordFailure env now discardStale error)
      | .ok extracted => (.checked, prop.recordChecked env now page extracted)

/-- `CompanyAvailabilityService.check`, with the row as it leaves it. -/
def check (now : Timestamp) (discardStale : Bool) (prop : CompanyProperty) :
    TavilyDialogue (CheckResult × CompanyProperty) := do
  let prop := prop.nameAsAddress env
  match ← (env.fetchPage prop).attempt with
  | .error .tavilyQuotaError => return (.rateLimited, prop)
  | .error error => lift (.error error)
  | .ok page => return env.judgePage now discardStale prop page

/-- The row that is stored when the session commits: a row that was changed has the time of
the transaction. -/
def commitRow (committedAt : Timestamp) (row changed : CompanyProperty) : CompanyProperty :=
  if changed = row then row else { changed with updatedAt := committedAt }

/-- The part of `run_company_refresh` that checks one property: the row as it is stored
afterwards, with what the check returned unless it raised. -/
def refreshProperty (now committedAt : Timestamp) (discardStale : Bool) (row : CompanyProperty) :
    TavilyDialogue (Option CheckResult × CompanyProperty) := do
  match ← (env.check now discardStale row).attempt with
  | .ok (result, changed) => return (some result, commitRow committedAt row changed)
  | .error _ => return (none, row)

/-- How a check ends when its page fetch ends so. -/
def checkEnding (now : Timestamp) (discardStale : Bool) (prop : CompanyProperty) :
    Except ServiceError (Option FetchedPage) → Except ServiceError (CheckResult × CompanyProperty)
  | .error .tavilyQuotaError => .ok (.rateLimited, prop)
  | .error error => .error error
  | .ok page => .ok (env.judgePage now discardStale prop page)

/-- What the check returned and the row that is stored, when the check ends so. -/
def stored (committedAt : Timestamp) (row : CompanyProperty) :
    Except ServiceError (CheckResult × CompanyProperty) → Option CheckResult × CompanyProperty
  | .ok (result, changed) => (some result, commitRow committedAt row changed)
  | .error _ => (none, row)

variable {env}

@[simp] theorem commitRow_checkStatus (committedAt : Timestamp) (row changed : CompanyProperty) :
    (commitRow committedAt row changed).checkStatus = changed.checkStatus := by
  unfold commitRow
  split
  · rename_i same
    rw [same]
  · rfl

@[simp] theorem commitRow_availability (committedAt : Timestamp) (row changed : CompanyProperty) :
    (commitRow committedAt row changed).availability = changed.availability := by
  unfold commitRow
  split
  · rename_i same
    rw [same]
  · rfl

@[simp] theorem commitRow_addressText (committedAt : Timestamp) (row changed : CompanyProperty) :
    (commitRow committedAt row changed).addressText = changed.addressText := by
  unfold commitRow
  split
  · rename_i same
    rw [same]
  · rfl

/-- The exchanges of a check are those of its page fetch, whose ending it goes by. -/
theorem check_talk {now : Timestamp} {discardStale : Bool} {prop : CompanyProperty}
    {talk : List TavilyExchange} {ending : Except ServiceError (CheckResult × CompanyProperty)}
    (conversation : Conversation (env.check now discardStale prop) talk ending) :
    ∃ outcome, Conversation (env.fetchPage (prop.nameAsAddress env)) talk outcome ∧
      ending = env.checkEnding now discardStale (prop.nameAsAddress env) outcome := by
  rcases conversation_bind.mp conversation with
    ⟨error, failed, _⟩ | ⟨outcome, first, second, fetch, rest, rfl⟩
  · exact (not_conversation_attempt failed).elim
  · rw [conversation_attempt] at fetch
    refine ⟨outcome, ?_⟩
    unfold checkEnding
    split at rest
    · obtain ⟨rfl, same⟩ := conversation_pure.mp rest
      exact ⟨(List.append_nil first).symm ▸ fetch, same⟩
    · obtain ⟨rfl, same⟩ := conversation_lift.mp rest
      exact ⟨(List.append_nil first).symm ▸ fetch, same⟩
    · obtain ⟨rfl, same⟩ := conversation_pure.mp rest
      exact ⟨(List.append_nil first).symm ▸ fetch, same⟩

/-- A check is the fetch of a page, a reading of it and what follows from both. -/
theorem refreshProperty_talk {now committedAt : Timestamp} {discardStale : Bool}
    {row : CompanyProperty} {talk : List TavilyExchange}
    {result : Option CheckResult × CompanyProperty}
    (conversation : Conversation (env.refreshProperty now committedAt discardStale row) talk
      (.ok result)) :
    ∃ outcome, Conversation (env.fetchPage (row.nameAsAddress env)) talk outcome ∧
      result = stored committedAt row
        (env.checkEnding now discardStale (row.nameAsAddress env) outcome) := by
  rcases conversation_bind.mp conversation with
    ⟨error, _, same⟩ | ⟨ending, first, second, check, last, rfl⟩
  · cases same
  · rw [conversation_attempt] at check
    obtain ⟨outcome, fetch, rfl⟩ := check_talk check
    refine ⟨outcome, ?_⟩
    unfold stored
    split at last
    · obtain ⟨rfl, same⟩ := conversation_pure.mp last
      exact ⟨(List.append_nil first).symm ▸ fetch, Except.ok.inj same⟩
    · obtain ⟨rfl, same⟩ := conversation_pure.mp last
      exact ⟨(List.append_nil first).symm ▸ fetch, Except.ok.inj same⟩

end CompanyEnvironment

end RentalAgent
