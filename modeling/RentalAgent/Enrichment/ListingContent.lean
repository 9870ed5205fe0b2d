import RentalAgent.Canonical.Normalization
import RentalAgent.Enrichment.PageText

/-! # Enrichment from the page of a listing

`ListingContentEnrichmentService.enrich`: the page of the latest active link of a
listing, or the site of its building, is fetched, a model extracts what the page
states, and the statements are recorded and partly written to the listing. What the
fetcher, the search provider and the model answer is a parameter of each call.
-/

namespace RentalAgent

open Relational

/-- `TASK_TYPE`. -/
def detailTaskType : String := "listing_detail_extract"

/-- `PROMPT_VERSION`. -/
def detailPromptVersion : String := "detail-extract-v3"

/-- `OUTPUT_SCHEMA_VERSION`. -/
def detailOutputSchemaVersion : String := "1"

/-! ## Answers from outside -/

/-- What the extraction endpoint answers: a refusal, nothing, or the contents of its
results. -/
inductive PosterAnswer
  | httpError (code : Nat)
  | unreachable
  | results (rawContents : List (Option String))

/-- `TavilyExtractClient.extract`: a refusal of the account is raised, any other failure
is a page without content. -/
def PosterAnswer.extract : PosterAnswer → Except ServiceError (Option String)
  | .httpError code => if code = 429 ∨ code = 432 then .error .tavilyQuotaError else .ok none
  | .unreachable => .ok none
  | .results rawContents => .ok (rawContents.findSome? truthy)

structure SearchQuery where
  query : String
  maxResults : Nat

/-- The status of a search and the URLs it found. -/
structure SearchResponse where
  status : ProviderRequestStatus
  items : List String

/-- `ListingPageFacts`. -/
structure ListingPageFacts where
  laundryType : String := "UNKNOWN"
  laundryEvidence : String := ""
  floorPlanPresent : Bool := false
  floorPlanUrl : Option String := none
  amenities : List String := []
  feeStatus : String := "UNKNOWN"
  feeEvidence : String := ""
  monthlyRentUsd : Option Int := none
  rentEvidence : String := ""
  deriving DecidableEq

structure LlmTaskRequest where
  taskType : String
  promptVersion : String
  outputSchemaVersion : String
  listing : Uuid
  url : String
  pageText : List Char

/-- The output of a model task: none, one that does not validate, or page facts. -/
inductive LlmOutput
  | missing
  | invalid
  | valid (facts : ListingPageFacts)
  deriving DecidableEq

structure LlmTaskResult where
  status : ModelExecutionStatus
  output : LlmOutput
  modelId : String

/-- The answers one call meets: of the extraction endpoint, by the number of the request
and its URL; of the search provider, when there is one; and of the model. -/
structure PageAnswers where
  poster : Nat → String → PosterAnswer
  search : Option (SearchQuery → SearchResponse)
  llm : LlmTaskRequest → LlmTaskResult

/-- The environment of a call: the answers it meets, the digest of a text, and which
network locations `urlparse` accepts. -/
structure ContentEnvironment extends Environment where
  answers : PageAnswers
  sha256 : List Char → String
  acceptsNetloc : List Char → Bool

/-- `EnrichmentOutcome.status`. -/
inductive EnrichmentStatus
  | enriched | skippedUnchanged | noLink | extractFailed | llmFailed
  deriving DecidableEq

/-- The entries of `facts_written`. -/
inductive WrittenFact
  | monthlyRent (usd : Nat)
  | laundryType (laundry : LaundryType)
  | feeStatus (status : String)
  | amenities (count : Nat)
  | floorPlan
  deriving DecidableEq

structure EnrichmentOutcome where
  listingId : Uuid
  status : EnrichmentStatus
  factsWritten : List WrittenFact := []
  deriving DecidableEq

/-! ## What a page states -/

/-- The text of a laundry type. -/
def LaundryType.value : LaundryType → String
  | .inUnitWasherDryerConfirmed => "IN_UNIT_WASHER_DRYER_CONFIRMED"
  | .inUnitWasherOnly => "IN_UNIT_WASHER_ONLY"
  | .inUnitDryerOnly => "IN_UNIT_DRYER_ONLY"
  | .inUnitHookupOnly => "IN_UNIT_HOOKUP_ONLY"
  | .buildingSharedLaundry => "BUILDING_SHARED_LAUNDRY"
  | .offsiteOrNearbyLaundry => "OFFSITE_OR_NEARBY_LAUNDRY"
  | .noLaundryStated => "NO_LAUNDRY_STATED"
  | .explicitlyNoLaundry => "EXPLICITLY_NO_LAUNDRY"
  | .conflicting => "CONFLICTING"
  | .unknown => "UNKNOWN"

def laundryTypes : List LaundryType :=
  [.inUnitWasherDryerConfirmed, .inUnitWasherOnly, .inUnitDryerOnly, .inUnitHookupOnly,
    .buildingSharedLaundry, .offsiteOrNearbyLaundry, .noLaundryStated, .explicitlyNoLaundry,
    .conflicting, .unknown]

namespace ListingPageFacts

/-- The stated rent in whole dollars, when it lies within the bounds of a rent. -/
def statedRentUsd (facts : ListingPageFacts) : Option Nat :=
  (facts.monthlyRentUsd.filter fun usd => 300 ≤ usd && usd ≤ 100000).map Int.toNat

/-- The laundry type whose text is stated, unless it is unknown. -/
def statedLaundry (facts : ListingPageFacts) : Option LaundryType :=
  laundryTypes.find? fun laundry => laundry.value = facts.laundryType && laundry ≠ .unknown

/-- The fee status, when the page states one. -/
def statedFee (facts : ListingPageFacts) : Option String :=
  if facts.feeStatus ∈ ["NO_FEE", "FEE_CHARGED"] then some facts.feeStatus else none

/-- The first amenities that are not blank. -/
def statedAmenities (facts : ListingPageFacts) : List String :=
  ((facts.amenities.map fun amenity => String.ofList (strip amenity.toList)).filter
    (· ≠ "")).take 25

end ListingPageFacts

/-- `evidence[:500] or None`. -/
def quotedEvidence (evidence : String) : Option String :=
  truthy (some (String.ofList (evidence.toList.take 500)))

/-- A fact that the model extracted from a page. -/
def pageFact (listingId : Uuid) (factKey : String) (value : JsonScalar) (confidence : Confidence)
    (evidence : Option String := none) : FactRecord where
  entityType := .listing
  entityId := listingId
  factKey := factKey
  valueJson := value
  derivationType := .llmDerived
  confidence := confidence
  evidenceText := evidence

/-- The marker of the page content a listing was enriched at. -/
def contentHashFact (listingId : Uuid) (contentHash : String) : FactRecord where
  entityType := .listing
  entityId := listingId
  factKey := "detail_extract_hash"
  valueJson := .text contentHash
  derivationType := .ruleDerived
  confidence := .high

/-- The listing with the rent a page states. -/
def CanonicalListing.reprice (now : Timestamp) (minor : Nat) (listing : CanonicalListing) :
    CanonicalListing :=
  { listing with
    monthlyRentMinor := some minor
    lastMaterialChangeAt := now }

/-- The event of a rent that a page corrects. -/
def pageRentEvent (listing : CanonicalListing) (now : Timestamp) (minor : Nat) (id : Uuid) :
    ListingEvent where
  listingEventId := id
  canonicalListingId := listing.canonicalListingId
  eventType := .priceChanged
  eventTime := now
  sourceObservationId := none
  beforeValues := some [("monthly_rent_minor", listing.monthlyRentMinor.elim .null .number)]
  afterValues := some [("monthly_rent_minor", .number minor),
    ("source", .text "detail_page_extract")]
  idempotencyKey := ⟨listing.canonicalListingId, .priceChanged, .detailExtract minor⟩

def modelExecution (id : Uuid) (contentHash modelId : String) : ModelExecution where
  modelExecutionId := id
  taskType := detailTaskType
  inputHash := contentHash
  promptVersion := detailPromptVersion
  outputSchemaVersion := detailOutputSchemaVersion
  modelId := modelId

def floorPlanAsset (link : ListingSourceLink) (planUrl : String) (id : Uuid) : MediaAsset where
  mediaAssetId := id
  sourceId := link.sourceId
  sourceUrl := planUrl
  mediaType := .floorPlan
  availabilityStatus := .referenced
  policyVersion := detailPromptVersion

def floorPlanAssociation (listing : CanonicalListing) (facts : ListingPageFacts)
    (id assetId : Uuid) : MediaAssociation where
  mediaAssociationId := id
  mediaAssetId := assetId
  canonicalListingId := some listing.canonicalListingId
  buildingId := some listing.buildingId
  associationLevel := .listingSourceAssociated
  associationStatus := if (truthy facts.floorPlanUrl).isSome then .confirmed else .provisional
  confidence := .medium

/-- What a call has read when it comes to write: the listing and its link, where the page
is, the digest of its excerpt, and what the named model extracted from it. -/
structure PageReading where
  listing : CanonicalListing
  link : ListingSourceLink
  sourceUrlUsed : String
  contentHash : String
  modelId : String
  facts : ListingPageFacts
  deriving DecidableEq

namespace Database

/-! ## Pages -/

/-- The address of a listing's building that has a first line, with that line. -/
def streetAddress (db : Database) (listing : CanonicalListing) : Option (Address × String) := do
  let building ← Relational.get Building.buildingId db.buildings listing.buildingId
  let address ← Relational.get Address.addressId db.addresses building.addressId
  let addressLine1 ← truthy address.addressLine1
  return (address, addressLine1)

/-- The first URL whose host may be a building's own site. -/
def firstOfficial (env : ContentEnvironment) : List String → Except ServiceError (Option String)
  | [] => .ok none
  | url :: rest =>
      let location := netloc url.toList
      if !env.acceptsNetloc location then .error .valueError
      else if neverOfficial (siteHost env.unicode location) then firstOfficial env rest
      else .ok (some url)

/-- `_find_official_site`. -/
def findOfficialSite (env : ContentEnvironment) (listing : CanonicalListing) (db : Database) :
    Except ServiceError (Option String) :=
  match env.answers.search, db.streetAddress listing with
  | some search, some (address, addressLine1) =>
      let response := search
        { query := "\"" ++ addressLine1 ++ "\" " ++ address.locality ++
            " apartments official website leasing"
          maxResults := 8 }
      if response.status = .succeeded then firstOfficial env response.items else .ok none
  | _, _ => .ok none

/-- `_page_matches_address`. -/
def pageMatchesAddress (env : ContentEnvironment) (text : String) (listing : CanonicalListing)
    (db : Database) : Bool :=
  (db.streetAddress listing).any fun found =>
    mentionsAddress env.unicode found.2.toList text.toList

/-- The text of the page a listing is enriched from, with its URL: the page of the link,
or the building's own site when that page has no content. -/
def findPage (env : ContentEnvironment) (listing : CanonicalListing) (link : ListingSourceLink)
    (db : Database) : Except ServiceError (Option (String × String)) := do
  match ← (env.answers.poster 0 link.sourceUrl).extract with
  | some text => return some (text, link.sourceUrl)
  | none =>
      match truthy (← db.findOfficialSite env listing) with
      | none => return none
      | some officialUrl =>
          match ← (env.answers.poster 1 officialUrl).extract with
          | none => return none
          | some text =>
              if db.pageMatchesAddress env text listing then return some (text, officialUrl)
              else return none

/-- The active link of a listing that was seen last; of several seen at one time, the one
scanned first. -/
def latestActiveLink (db : Database) (scan : Uuid → Nat) (listingId : Uuid) :
    Option ListingSourceLink :=
  ((db.links.filter fun link =>
      link.canonicalListingId = listingId && link.linkStatus = .active).insertionSort
    fun first second => second.lastSeenAt < first.lastSeenAt ∨
      second.lastSeenAt = first.lastSeenAt ∧
        scan first.listingSourceLinkId ≤ scan second.listingSourceLinkId).head?

/-- `_already_extracted`. -/
def alreadyExtracted (db : Database) (scan : Uuid → Nat) (listingId : Uuid)
    (contentHash : String) : Bool :=
  (((db.assertions.filter fun row =>
      row.entityId = listingId && row.factKey = "detail_extract_hash").insertionSort
    fun first second => second.assertedAt < first.assertedAt ∨
      second.assertedAt = first.assertedAt ∧
        scan first.factAssertionId ≤ scan second.factAssertionId).head?).any fun latest =>
    latest.valueJson = .text contentHash

/-- The first part of `enrich`: it ends early, or comes to validated page facts. -/
def readPage (env : ContentEnvironment) (listingId : Uuid) (force : Bool) (db : Database) :
    Except ServiceError (EnrichmentStatus ⊕ PageReading) :=
  match db.listing? listingId, db.latestActiveLink env.scan listingId with
  | some listing, some link => do
      match ← db.findPage env listing link with
      | none => return .inl .extractFailed
      | some (page, sourceUrlUsed) =>
          let pageText := relevantExcerpt env.unicode page.toList
          let contentHash := env.sha256 pageText
          if !force && db.alreadyExtracted env.scan listingId contentHash then
            return .inl .skippedUnchanged
          else
            let result := env.answers.llm
              { taskType := detailTaskType
                promptVersion := detailPromptVersion
                outputSchemaVersion := detailOutputSchemaVersion
                listing := listingId
                url := sourceUrlUsed
                pageText := pageText }
            match result.status, result.output with
            | .succeeded, .valid facts =>
                return .inr
                  { listing := listing
                    link := link
                    sourceUrlUsed := sourceUrlUsed
                    contentHash := contentHash
                    modelId := (truthy (some result.modelId)).getD "unknown"
                    facts := facts }
            | _, _ => return .inl .llmFailed
  | _, _ => .ok (.inl .noLink)

/-! ## Writes -/

/-- Recording the execution, unless its cache key is there already. -/
def recordExecution (ids : IdSupply) (contentHash modelId : String) (db : Database) : Database :=
  if db.modelExecutions.any fun row =>
      row.taskType = detailTaskType && row.inputHash = contentHash &&
        row.promptVersion = detailPromptVersion &&
          row.outputSchemaVersion = detailOutputSchemaVersion && row.modelId = modelId then
    db
  else
    { db with
      drawn := db.drawn + 1
      modelExecutions := db.modelExecutions ++
        [modelExecution (ids.uuid db.drawn) contentHash modelId] }

/-- The rent part of `_apply`. The override is looked up and the fact recorded under
`"monthly_rent"`. -/
def applyPageRent (ids : IdSupply) (now : Timestamp) (listing : CanonicalListing)
    (facts : ListingPageFacts) (db : Database) :
    Except ServiceError (Database × List WrittenFact) :=
  match facts.statedRentUsd with
  | none => .ok (db, [])
  | some usd =>
      let minor := usd * 100
      if listing.monthlyRentMinor = some minor then .ok (db, [])
      else do
        let override ← db.activeOverride .listing listing.canonicalListingId "monthly_rent"
        let db ← db.recordFact ids now (pageFact listing.canonicalListingId "monthly_rent"
          (.number minor) .high (quotedEvidence facts.rentEvidence))
        match override with
        | some override =>
            return (db.raiseConflictWithOverride ids override listing.canonicalListingId
              "monthly_rent" (.number minor), [])
        | none =>
            let db := db.updateListing listing.canonicalListingId
              (CanonicalListing.reprice now minor)
            match db.insertEvent ids (pageRentEvent listing now minor) with
            | (db, some _) => return (db, [.monthlyRent usd])
            | (_, none) => .error .integrityError

/-- The laundry part of `_apply`: the badge is not granted here. -/
def applyPageLaundry (ids : IdSupply) (now : Timestamp) (listing : CanonicalListing)
    (facts : ListingPageFacts) (db : Database) :
    Except ServiceError (Database × List WrittenFact) :=
  match facts.statedLaundry with
  | none => .ok (db, [])
  | some laundry => do
      let override ← db.activeOverride .listing listing.canonicalListingId "laundry_type"
      let db ← db.recordFact ids now (pageFact listing.canonicalListingId "laundry_type"
        (.laundry laundry) .medium (quotedEvidence facts.laundryEvidence))
      match override with
      | some override =>
          return (db.raiseConflictWithOverride ids override listing.canonicalListingId
            "laundry_type" (.laundry laundry), [.laundryType laundry])
      | none =>
          return (db.updateListing listing.canonicalListingId fun listing =>
            { listing with laundryType := laundry }, [.laundryType laundry])

/-- The fee part of `_apply`. -/
def recordPageFee (ids : IdSupply) (now : Timestamp) (listing : CanonicalListing)
    (facts : ListingPageFacts) (db : Database) :
    Except ServiceError (Database × List WrittenFact) :=
  match facts.statedFee with
  | none => .ok (db, [])
  | some status => do
      let db ← db.recordFact ids now (pageFact listing.canonicalListingId "fee_status"
        (.text status) .medium (quotedEvidence facts.feeEvidence))
      return (db, [.feeStatus status])

/-- The amenities part of `_apply`. -/
def recordPageAmenities (ids : IdSupply) (now : Timestamp) (listing : CanonicalListing)
    (facts : ListingPageFacts) (db : Database) :
    Except ServiceError (Database × List WrittenFact) :=
  match facts.statedAmenities with
  | [] => .ok (db, [])
  | amenities => do
      let db ← db.recordFact ids now (pageFact listing.canonicalListingId "amenities"
        (.texts amenities) .medium)
      return (db, [.amenities amenities.length])

/-- A floor plan at the URL is associated with the listing. -/
def hasFloorPlan (db : Database) (listingId : Uuid) (planUrl : String) : Bool :=
  db.mediaAssociations.any fun association =>
    association.canonicalListingId = some listingId && db.mediaAssets.any fun asset =>
      asset.mediaAssetId = association.mediaAssetId && asset.sourceUrl = planUrl &&
        asset.mediaType = .floorPlan

/-- The floor plan part of `_apply`. -/
def attachFloorPlan (ids : IdSupply) (reading : PageReading) (db : Database) :
    Database × List WrittenFact :=
  if reading.facts.floorPlanPresent then
    let planUrl := (truthy reading.facts.floorPlanUrl).getD reading.sourceUrlUsed
    if db.hasFloorPlan reading.listing.canonicalListingId planUrl then (db, [.floorPlan])
    else
      ({ db with
          drawn := db.drawn + 2
          mediaAssets := db.mediaAssets ++
            [floorPlanAsset reading.link planUrl (ids.uuid db.drawn)]
          mediaAssociations := db.mediaAssociations ++
            [floorPlanAssociation reading.listing reading.facts (ids.uuid (db.drawn + 1))
              (ids.uuid db.drawn)] },
        [.floorPlan])
  else (db, [])

/-- `_apply`. -/
def applyPage (ids : IdSupply) (now : Timestamp) (reading : PageReading) (db : Database) :
    Except ServiceError (Database × List WrittenFact) := do
  let (db, rent) ← db.applyPageRent ids now reading.listing reading.facts
  let (db, laundry) ← db.applyPageLaundry ids now reading.listing reading.facts
  let (db, fee) ← db.recordPageFee ids now reading.listing reading.facts
  let (db, amenities) ← db.recordPageAmenities ids now reading.listing reading.facts
  let (db, floorPlan) := db.attachFloorPlan ids reading
  return (db, rent ++ laundry ++ fee ++ amenities ++ floorPlan)

/-- `enrich`. -/
def enrich (env : ContentEnvironment) (now : Timestamp) (canonicalListingId : Uuid)
    (force : Bool) (db : Database) : Except ServiceError (Database × EnrichmentOutcome) := do
  match ← db.readPage env canonicalListingId force with
  | .inl status => return (db, { listingId := canonicalListingId, status := status })
  | .inr reading =>
      let db := db.recordExecution env.ids reading.contentHash reading.modelId
      let (db, written) ← db.applyPage env.ids now reading
      let db ← db.recordFact env.ids now (contentHashFact canonicalListingId reading.contentHash)
      return (db,
        { listingId := canonicalListingId
          status := .enriched
          factsWritten := written })

end Database

end RentalAgent
