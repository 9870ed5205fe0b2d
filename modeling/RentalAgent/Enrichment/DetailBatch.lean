import RentalAgent.Enrichment.Office
import RentalAgent.Enrichment.PageRent
import RentalAgent.Foundation.Batch
import RentalAgent.Foundation.Ranking

/-! # Batches of detail pages

`run_detail_enrichment` takes the listings on the market, those seen last first, and enriches
one after the other, each in a transaction of its own, while other processes work on the same
database. It is a run of the back office over the listings that it takes, and its counts
account for each of them (`Database.detail_enrichment_exact`). A batch that follows another
with the same pages consults no model for what the first one digested, and changes nothing
there (`Database.detail_rerun_idle`).
-/

namespace RentalAgent

open Relational Transition

/-- `_LIFECYCLES`. -/
def detailLifecycles : List LifecycleStatus := [.active, .candidate, .reappeared]

/-- The columns of a listing that a batch looks up. -/
def CanonicalListing.placard (listing : CanonicalListing) :
    Uuid × Uuid × LifecycleStatus × Timestamp :=
  (listing.canonicalListingId, listing.buildingId, listing.lifecycleStatus, listing.lastSeenAt)

/-- What a batch meets when a listing comes to its turn: the calls that other processes made
since the turn before it, the order in which rows are scanned, the time, and the answers. -/
structure Turn where
  meanwhile : List OfficeAction
  scan : Uuid → Nat
  now : Timestamp
  answers : PageAnswers

/-- The calls of a turn, those of other processes first. -/
def Turn.calls (turn : Turn) (listingId : Uuid) (force : Bool) : List OfficeAction :=
  turn.meanwhile ++ [.enrich turn.scan turn.now turn.answers listingId force]

/-- The keys of the counts. -/
inductive DetailCount
  | status (status : EnrichmentStatus)
  | error | rateLimited | missingKeys
  deriving DecidableEq

namespace Database

/-- The listings that a batch is to take. -/
def detailIds (scan : Uuid → Nat) (limit : Nat) (db : Database) : List Uuid :=
  let ids := ((db.listings.filter (·.lifecycleStatus ∈ detailLifecycles)).insertionSort
    fun first second => second.lastSeenAt < first.lastSeenAt ∨
      second.lastSeenAt = first.lastSeenAt ∧
        scan first.canonicalListingId ≤ scan second.canonicalListingId).map
    CanonicalListing.canonicalListingId
  if limit = 0 then ids else ids.take limit

/-- The turn of a listing. What raises is rolled back. -/
def detailTurn (env : OfficeEnvironment) (turns : Uuid → Turn) (force : Bool) (db : Database)
    (listingId : Uuid) : Database × Batch.Verdict DetailCount :=
  let turn := turns listingId
  let db := run (office env) db turn.meanwhile
  match db.enrich (env.content turn.scan turn.answers) turn.now listingId force with
  | .ok (next, outcome) => (next, .counted (.status outcome.status))
  | .error .tavilyQuotaError => (db, .aborted .rateLimited)
  | .error _ => (db, .counted .error)

/-- `run_detail_enrichment`, with the configured keys. -/
def runDetailEnrichment (env : OfficeEnvironment) (searchKey openaiKey : Option String)
    (scan : Uuid → Nat) (turns : Uuid → Turn) (limit : Nat) (force : Bool) (db : Database) :
    Database × (DetailCount → Nat) :=
  match searchKey, openaiKey with
  | some _, some _ =>
      Batch.work (detailTurn env turns force) db (fun _ => 0) (db.detailIds scan limit)
  | _, _ => (db, Function.update (fun _ => 0) .missingKeys 1)

/-! ## The listings that a batch takes -/

variable {env : OfficeEnvironment} {turns : Uuid → Turn} {force : Bool} {db middle next : Database}
  {listingId : Uuid} {scan : Uuid → Nat} {now : Timestamp} {limit : Nat}

/-- Without a limit the batch is over all listings in a lifecycle for details. -/
theorem mem_detailIds : listingId ∈ db.detailIds scan 0 ↔
    ∃ listing ∈ db.listings, listing.canonicalListingId = listingId ∧
      listing.lifecycleStatus ∈ detailLifecycles := by
  rw [detailIds, if_pos rfl]
  simp only [List.mem_map, List.mem_insertionSort, List.mem_filter, decide_eq_true_eq]
  constructor
  · rintro ⟨listing, ⟨member, chosen⟩, named⟩
    exact ⟨listing, member, named, chosen⟩
  · rintro ⟨listing, member, named, chosen⟩
    exact ⟨listing, ⟨member, chosen⟩, named⟩

/-- A limited batch takes the first listings of an unlimited one. -/
theorem detailIds_isPrefix : db.detailIds scan limit <+: db.detailIds scan 0 := by
  unfold detailIds
  dsimp only
  rw [if_pos rfl]
  split
  · exact List.prefix_refl _
  · exact List.take_prefix _ _

/-- A batch takes each listing once. -/
theorem nodup_detailIds (distinct : (db.listings.map CanonicalListing.canonicalListingId).Nodup) :
    (db.detailIds scan limit).Nodup := by
  refine List.Nodup.sublist detailIds_isPrefix.sublist ?_
  rw [detailIds, if_pos rfl]
  have chosen := distinct.sublist
    ((db.listings.filter_sublist (p := (·.lifecycleStatus ∈ detailLifecycles))).map _)
  exact ((List.perm_insertionSort _ _).map _).nodup_iff.mpr chosen

/-! ## A batch as a run of the back office -/

/-- A turn is a run of the calls of other processes and its own. -/
theorem advance_detailTurn (db : Database) (listingId : Uuid) :
    Batch.advance (detailTurn env turns force) db listingId =
      run (office env) db ((turns listingId).calls listingId force) := by
  rw [Turn.calls, run_append, run_cons, run_nil, Batch.advance, detailTurn]
  unfold office
  dsimp only
  split <;> rename_i same <;> rw [same]

/-- A turn that counts is not rate limited, and one that aborts is. -/
theorem label_detailTurn (db : Database) (listingId : Uuid) (label : DetailCount) :
    ((detailTurn env turns force db listingId).2 = .counted label → label ≠ .rateLimited) ∧
      ((detailTurn env turns force db listingId).2 = .aborted label → label = .rateLimited) := by
  unfold detailTurn
  dsimp only
  split
  · exact ⟨by rintro ⟨⟩; exact nofun, by rintro ⟨⟩⟩
  · exact ⟨by rintro ⟨⟩, by rintro ⟨⟩; rfl⟩
  · exact ⟨by rintro ⟨⟩; exact nofun, by rintro ⟨⟩⟩

/-- The keys under which the turns of a batch are counted. -/
def detailCounts : List DetailCount :=
  [.status .enriched, .status .skippedUnchanged, .status .noLink, .status .extractFailed,
    .status .llmFailed, .error, .rateLimited]

/-- Every turn has one of the labels that are counted. -/
theorem exists_label_detailTurn (db : Database) (listingId : Uuid) :
    ∃ label ∈ detailCounts, (detailTurn env turns force db listingId).2.label = some label := by
  unfold detailTurn
  dsimp only
  split
  · rename_i next outcome _
    exact ⟨.status outcome.status, by cases outcome.status <;> decide, rfl⟩
  · exact ⟨.rateLimited, by decide, rfl⟩
  · exact ⟨.error, by decide, rfl⟩

/-- The counts of a batch are those of the verdicts of its turns. -/
theorem counts_runDetailEnrichment (env : OfficeEnvironment) (searchKey openaiKey : String)
    (scan : Uuid → Nat) (turns : Uuid → Turn) (limit : Nat) (force : Bool) (db : Database)
    (label : DetailCount) :
    (db.runDetailEnrichment env (some searchKey) (some openaiKey) scan turns limit force).2 label =
      (Batch.verdicts (detailTurn env turns force) db
        (Batch.taken (detailTurn env turns force) db (db.detailIds scan limit))).countP
          fun verdict => verdict.label = some label := by
  have counted := @Batch.counts_work _ _ _ (detailTurn env turns force) db
    (db.detailIds scan limit) _ (fun _ => 0) (· = .rateLimited)
    (fun state id label same => (label_detailTurn state id label).1 same)
    (fun state id label same => (label_detailTurn state id label).2 same) (fun _ _ => rfl) label
  rw [Nat.zero_add] at counted
  exact counted

/-- What a batch reports on the listings that it took and those that it left. -/
structure DetailReport (env : OfficeEnvironment) (actions : List OfficeAction)
    (turns : Uuid → Turn) (force : Bool) (done left : List Uuid)
    (report : Database × (DetailCount → Nat)) : Prop where
  state : report.1 =
    worked env (actions ++ done.flatMap fun id => (turns id).calls id force)
  counts : ∀ label, report.2 label =
    (Batch.verdicts (detailTurn env turns force) (worked env actions) done).countP
      fun verdict => verdict.label = some label
  total : (detailCounts.map report.2).sum = done.length
  refused : ∀ before id after, done = before ++ id :: after →
    ((detailTurn env turns force
        (worked env (actions ++ before.flatMap fun id => (turns id).calls id force)) id).2 =
      .aborted .rateLimited ↔ after = [] ∧ report.2 .rateLimited = 1)
  complete : left ≠ [] → report.2 .rateLimited = 1

/-- **Batches.** Whatever other processes do meanwhile, a batch takes the listings in order, each
once and in a transaction of its own: the state it ends in is that of the calls made. Its counts
are those of the outcomes and add up to the listings taken. The first quota refusal is the last
call, and only then are listings left. -/
theorem detail_enrichment_exact (env : OfficeEnvironment) (actions : List OfficeAction)
    (searchKey openaiKey : String) (scan : Uuid → Nat) (turns : Uuid → Turn) (limit : Nat)
    (force : Bool) :
    let db := worked env actions
    let chosen := db.detailIds scan limit
    chosen.Nodup ∧
    (limit = 0 → ∀ id, id ∈ chosen ↔ ∃ listing ∈ db.listings,
      listing.canonicalListingId = id ∧ listing.lifecycleStatus ∈ detailLifecycles) ∧
    ∃ done left, chosen = done ++ left ∧
      DetailReport env actions turns force done left
        (db.runDetailEnrichment env (some searchKey) (some openaiKey) scan turns limit force) := by
  intro db chosen
  have filed : Filed env.ids db := (run_works (filed_empty env.ids) actions).filed
  refine ⟨nodup_detailIds filed.tracked.listingIds, by rintro rfl id; exact mem_detailIds, ?_⟩
  let step := detailTurn env turns force
  let done := Batch.taken step db chosen
  obtain ⟨left, split⟩ : done <+: chosen := Batch.taken_isPrefix
  have reached (before : List Uuid) : run (Batch.advance step) db before =
      worked env (actions ++ before.flatMap fun id => (turns id).calls id force) := by
    rw [Batch.run_advance_eq advance_detailTurn, worked, run_append]
  have counts (label : DetailCount) :
      (db.runDetailEnrichment env (some searchKey) (some openaiKey) scan turns limit force).2
        label = (Batch.verdicts step db done).countP fun verdict => verdict.label = some label :=
    counts_runDetailEnrichment env searchKey openaiKey scan turns limit force db label
  have only (state : Database) (id : Uuid) : (step state id).2 ≠ .counted .rateLimited :=
    fun same => (label_detailTurn state id _).1 same rfl
  refine ⟨done, left, split.symm, ?_, counts, ?_, ?_, ?_⟩
  · rw [← reached]
    exact Batch.state_work
  · rw [funext counts, Batch.sum_counts (by decide), Batch.length_verdicts]
    intro verdict member
    obtain ⟨moment, -, rfl⟩ := List.mem_map.mp member
    exact exists_label_detailTurn moment.1 moment.2
  · intro before id after last
    rw [← reached, counts]
    constructor
    · intro refused
      obtain rfl := Batch.eq_nil_of_aborts last (by rw [refused]; rfl)
      refine ⟨rfl, ?_⟩
      rw [Batch.countP_verdicts_of_abort only last, if_pos refused]
    · rintro ⟨rfl, one⟩
      rw [Batch.countP_verdicts_of_abort only last] at one
      by_contra other
      rw [if_neg other] at one
      cases one
  · intro more
    rw [counts]
    have ended := @Batch.taken_eq_or_aborts _ _ _ step db chosen
    rcases ended with all | ⟨before, last, final, aborts⟩
    · rw [show done = chosen from all] at split
      exact absurd (List.append_right_eq_self.mp split) more
    · rw [Batch.countP_verdicts_of_abort only final, if_pos]
      cases verdict : (step (run (Batch.advance step) db before) last).2 with
      | counted label => simp [verdict] at aborts
      | passed => simp [verdict] at aborts
      | aborted label => rw [(label_detailTurn _ _ label).2 verdict]

/-! ## What a batch finds again -/

/-- What a batch looks up of the inventory. -/
abbrev stock (db : Database) :=
  (db.links, db.places, db.listings.map CanonicalListing.placard)

/-- The digests that were recorded of the pages of a listing. -/
def digests (db : Database) (listingId : Uuid) : List FactAssertion :=
  db.assertions.filter fun row =>
    row.entityId = listingId && row.factKey = "detail_extract_hash"

/-- The step wrote nothing that a batch looks up. -/
structure Unnoticed (db next : Database) : Prop where
  stock : next.stock = db.stock
  digests : ∀ id, next.digests id = db.digests id

theorem Unnoticed.refl (db : Database) : Unnoticed db db := ⟨rfl, fun _ => rfl⟩

theorem Unnoticed.trans (first : Unnoticed db middle) (second : Unnoticed middle next) :
    Unnoticed db next :=
  ⟨second.stock.trans first.stock, fun id => (second.digests id).trans (first.digests id)⟩

variable {ids : IdSupply} {record : FactRecord} {listing : CanonicalListing}
  {facts : ListingPageFacts} {factKey : String} {reading : PageReading}

theorem PagesOnly.unnoticed (pages : PagesOnly db next) : Unnoticed db next := by
  constructor
  · rw [pages.frame]
  · intro id
    rw [digests, pages.frame]
    rfl

theorem recordFact_stock (recorded : db.recordFact ids now record = .ok next) :
    next.stock = db.stock := by
  rw [(recordFact_factsOnly recorded).frame]

/-- Only a recorded digest of the listing is looked up later. -/
theorem recordFact_digests (recorded : db.recordFact ids now record = .ok next) (id : Uuid) :
    next.digests id = db.digests id ++
      if record.entityId = id ∧ record.factKey = "detail_extract_hash" then
        [record.assertion now (ids.uuid db.drawn)]
      else [] := by
  rw [digests, (recordFact_recorded recorded).assertions, List.filter_append]
  congr 1
  have selects : (decide ((record.assertion now (ids.uuid db.drawn)).entityId = id) &&
      decide ((record.assertion now (ids.uuid db.drawn)).factKey = "detail_extract_hash")) = true ↔
        record.entityId = id ∧ record.factKey = "detail_extract_hash" := by
    rw [Bool.and_eq_true, decide_eq_true_eq, decide_eq_true_eq]
    rfl
  by_cases named : record.entityId = id ∧ record.factKey = "detail_extract_hash"
  · rw [if_pos named]
    exact List.filter_cons_of_pos (selects.mpr named)
  · rw [if_neg named]
    exact List.filter_cons_of_neg (mt selects.mp named)

theorem recordFact_unnoticed (other : record.factKey ≠ "detail_extract_hash")
    (recorded : db.recordFact ids now record = .ok next) : Unnoticed db next :=
  ⟨recordFact_stock recorded, fun id => by
    rw [recordFact_digests recorded, if_neg fun same => other same.2, List.append_nil]⟩

theorem pageFact_unnoticed {listingId : Uuid} {value : JsonScalar} {confidence : Confidence}
    {evidence : Option String} (other : factKey ≠ "detail_extract_hash")
    (recorded : db.recordFact ids now (pageFact listingId factKey value confidence evidence) =
      .ok next) : Unnoticed db next :=
  recordFact_unnoticed other recorded

/-- No batch looks up conflicts. -/
theorem raiseConflict_unnoticed (override : HumanOverride) (entityId : Uuid) (factKey : String)
    (incoming : JsonScalar) (db : Database) :
    Unnoticed db (db.raiseConflictWithOverride ids override entityId factKey incoming) := by
  have evidence := raiseConflict_evidenceOnly ids override entityId factKey incoming db
  constructor
  · rw [evidence.frame]
  · intro id
    rw [digests, raiseConflict_assertions]
    rfl

/-- An event is not noticed by the lookups of a batch. -/
theorem insertEvent_unnoticed (event : Uuid → ListingEvent) (db : Database) :
    Unnoticed db (db.insertEvent ids event).1 := by
  have evidence := insertEvent_evidenceOnly ids event db
  constructor
  · rw [evidence.frame]
  · intro id
    rw [digests, insertEvent_assertions]
    rfl

/-- A batch does not notice an update that keeps the placard of the listing. -/
theorem updateListing_unnoticed {id : Uuid} {change : CanonicalListing → CanonicalListing}
    (keeps : ∀ listing, (change listing).placard = listing.placard) (db : Database) :
    Unnoticed db (db.updateListing id change) := by
  refine ⟨?_, fun _ => rfl⟩
  have same : (db.updateListing id change).listings.map CanonicalListing.placard =
      db.listings.map CanonicalListing.placard := by
    change (updateWhere _ change db.listings).map _ = _
    rw [updateWhere, List.map_map]
    refine List.map_congr_left fun listing _ => ?_
    dsimp only [Function.comp]
    split
    · exact keeps listing
    · rfl
  rw [stock, same]
  rfl

/-- No batch notices a corrected rent. -/
theorem PageRentStep.unnoticed (step : PageRentStep ids now listing facts db next) :
    Unnoticed db next := by
  cases step with
  | unstated _ | agrees _ _ => exact .refl db
  | disputed _ _ _ record =>
      exact (pageFact_unnoticed (by decide) record).trans (raiseConflict_unnoticed _ _ _ _ _)
  | written _ _ _ record _ =>
      exact ((pageFact_unnoticed (by decide) record).trans
        (updateListing_unnoticed (by intro _; rfl) _)).trans (insertEvent_unnoticed _ _)

/-- No batch notices a stated laundry. -/
theorem PageLaundryStep.unnoticed (step : PageLaundryStep ids now listing facts db next) :
    Unnoticed db next := by
  cases step with
  | unstated _ => exact .refl db
  | disputed _ _ record =>
      exact (pageFact_unnoticed (by decide) record).trans (raiseConflict_unnoticed _ _ _ _ _)
  | written _ _ record =>
      exact (pageFact_unnoticed (by decide) record).trans
        (updateListing_unnoticed (by intro _; rfl) _)

/-- A fact under another key than the hash is not noticed by them either. -/
theorem SideFact.unnoticed {listingId : Uuid} (other : factKey ≠ "detail_extract_hash")
    (side : SideFact ids now listingId factKey db next) : Unnoticed db next := by
  cases side with
  | none => exact .refl db
  | recorded name record =>
      obtain ⟨-, -, same⟩ := FactName.mk.inj name
      exact recordFact_unnoticed (same ▸ other) record

/-- No batch notices what a page writes before its digest. -/
theorem applyPage_unnoticed {written : List WrittenFact}
    (applied : db.applyPage ids now reading = .ok (next, written)) : Unnoticed db next := by
  obtain ⟨⟨priced, first⟩, rent, applied⟩ := bind_eq_ok.mp applied
  obtain ⟨⟨washed, second⟩, laundry, applied⟩ := bind_eq_ok.mp applied
  obtain ⟨⟨charged, third⟩, fee, applied⟩ := bind_eq_ok.mp applied
  obtain ⟨⟨furnished, fourth⟩, amenities, applied⟩ := bind_eq_ok.mp applied
  cases applied
  exact ((((applyPageRent_cases rent).unnoticed.trans
    (applyPageLaundry_cases laundry).unnoticed).trans
      ((recordPageFee_sideFact fee).unnoticed (by decide))).trans
        ((recordPageAmenities_sideFact amenities).unnoticed (by decide))).trans
          (attachFloorPlan_pagesOnly ids reading furnished).unnoticed

section Stock

variable (same : next.stock = db.stock)

include same

/-- States of one stock have the listings in the same buildings. -/
theorem buildingId_of_stock (id : Uuid) : (next.listing? id).map CanonicalListing.buildingId =
    (db.listing? id).map CanonicalListing.buildingId := by
  have listings := congrArg (fun stock => stock.2.2.find? (·.1 = id)) same
  simp only [List.find?_map] at listings
  have buildings := congrArg (Option.map fun placard => placard.2.1) listings
  rw [Option.map_map, Option.map_map] at buildings
  exact buildings

/-- States of one stock have the same street addresses. -/
theorem streetAddress_of_stock {before after : CanonicalListing}
    (housed : after.buildingId = before.buildingId) :
    next.streetAddress after = db.streetAddress before := by
  have places : next.places = db.places := congrArg (fun stock => stock.2.1) same
  rw [streetAddress, streetAddress, housed,
    show next.buildings = db.buildings from congrArg (fun places => places.2.1) places,
    show next.addresses = db.addresses from congrArg Prod.fst places]

/-- The page of a listing depends on the stock and the building of the listing alone. -/
theorem findPage_of_stock {env : ContentEnvironment} {before after : CanonicalListing}
    (housed : after.buildingId = before.buildingId) (link : ListingSourceLink) :
    next.findPage env after link = db.findPage env before link := by
  have street := streetAddress_of_stock same housed
  have site : next.findOfficialSite env after = db.findOfficialSite env before := by
    rw [findOfficialSite, street]
    rfl
  have mentions (text : String) :
      next.pageMatchesAddress env text after = db.pageMatchesAddress env text before := by
    rw [pageMatchesAddress, street]
    rfl
  simp only [findPage, site, mentions]

/-- The page that a call reads depends on what is looked up. -/
theorem pageText_of_stock (env : ContentEnvironment) (id : Uuid) :
    next.pageText env id = db.pageText env id := by
  have building := buildingId_of_stock same id
  have link : next.latestActiveLink env.scan id = db.latestActiveLink env.scan id := by
    rw [latestActiveLink, show next.links = db.links from congrArg Prod.fst same]
    rfl
  unfold pageText
  rw [link]
  cases after : next.listing? id with
  | none =>
      rw [after] at building
      rw [Option.map_eq_none_iff.mp building.symm]
  | some after =>
      rw [‹next.listing? id = _›] at building
      obtain ⟨before, found, housed⟩ := Option.map_eq_some_iff.mp building.symm
      rw [found]
      cases db.latestActiveLink env.scan id with
      | none => rfl
      | some link =>
          dsimp only
          rw [findPage_of_stock same housed.symm]

/-- The listings that a batch takes depend on what is looked up. -/
theorem detailIds_of_stock (scan : Uuid → Nat) (limit : Nat) :
    next.detailIds scan limit = db.detailIds scan limit := by
  have listings : next.listings.map CanonicalListing.placard =
      db.listings.map CanonicalListing.placard := congrArg (fun stock => stock.2.2) same
  let precedes (first second : Uuid × Uuid × LifecycleStatus × Timestamp) : Prop :=
    second.2.2.2 < first.2.2.2 ∨ second.2.2.2 = first.2.2.2 ∧ scan first.1 ≤ scan second.1
  have read (rows : List CanonicalListing) :
      ((rows.filter (·.lifecycleStatus ∈ detailLifecycles)).insertionSort
        fun first second => second.lastSeenAt < first.lastSeenAt ∨
          second.lastSeenAt = first.lastSeenAt ∧
            scan first.canonicalListingId ≤ scan second.canonicalListingId).map
        CanonicalListing.canonicalListingId =
      (((rows.map CanonicalListing.placard).filter
        (·.2.2.1 ∈ detailLifecycles)).insertionSort precedes).map Prod.fst := by
    rw [List.filter_map, ← List.map_insertionSort (r := fun first second : CanonicalListing =>
      second.lastSeenAt < first.lastSeenAt ∨ second.lastSeenAt = first.lastSeenAt ∧
        scan first.canonicalListingId ≤ scan second.canonicalListingId), List.map_map]
    · rfl
    · exact fun _ _ _ _ => Iff.rfl
  rw [detailIds, detailIds, read, read, listings]

end Stock

/-! ## What a call digests -/

/-- The page of the listing is found with the digest that was recorded last. -/
def Digested (env : ContentEnvironment) (listingId : Uuid) (db : Database) : Prop :=
  ∃ text, db.pageText env listingId = some text ∧
    db.alreadyExtracted env.scan listingId (env.sha256 text) = true

/-- A digest that is later than the others is the one that is compared. -/
theorem alreadyExtracted_of_latest {row : FactAssertion} {contentHash : String}
    (member : row ∈ db.digests listingId) (value : row.valueJson = .text contentHash)
    (latest : ∀ other ∈ db.digests listingId, other = row ∨ other.assertedAt < row.assertedAt) :
    db.alreadyExtracted scan listingId contentHash = true := by
  have first : ((db.digests listingId).insertionSort fun first second =>
      second.assertedAt < first.assertedAt ∨ second.assertedAt = first.assertedAt ∧
        scan first.factAssertionId ≤ scan second.factAssertionId).head? = some row :=
    @Ranking.head?_insertionSort_latest _ _ _ _ _ FactAssertion.assertedAt
      (fun row => scan row.factAssertionId) member latest
  change (((db.digests listingId).insertionSort fun first second =>
      second.assertedAt < first.assertedAt ∨ second.assertedAt = first.assertedAt ∧
        scan first.factAssertionId ≤ scan second.factAssertionId).head?).any _ = true
  rw [first]
  exact decide_eq_true value

/-- A page stays digested while stock and digests stay. -/
theorem digested_of_stock {env : ContentEnvironment} (digested : db.Digested env listingId)
    (same : next.stock = db.stock) (digests : next.digests listingId = db.digests listingId) :
    next.Digested env listingId := by
  obtain ⟨text, found, marked⟩ := digested
  refine ⟨text, (pageText_of_stock same env listingId).trans found, ?_⟩
  rw [alreadyExtracted, show next.assertions.filter _ = _ from digests]
  exact marked

/-- A call about a digested page skips it, unless it is forced. -/
theorem Digested.skipped {env : ContentEnvironment} (digested : db.Digested env listingId)
    (now : Timestamp) : db.enrich env now listingId false =
      .ok (db, { listingId := listingId, status := .skippedUnchanged }) := by
  obtain ⟨text, found, marked⟩ := digested
  have read := Watched.readPage_of_pageText false found
  rw [if_pos (by rw [marked]; rfl)] at read
  rw [enrich, read]
  rfl

/-- A call that comes to a digest has found the page. -/
theorem readPage_cases {env : ContentEnvironment} {read : EnrichmentStatus ⊕ PageReading}
    (found : db.readPage env listingId force = .ok read) :
    match read with
    | .inl status => status ≠ .enriched ∧ (status = .skippedUnchanged → db.Digested env listingId)
    | .inr reading =>
        ∃ text, db.pageText env listingId = some text ∧ reading.contentHash = env.sha256 text := by
  unfold readPage at found
  split at found
  · rename_i listing link listed linked
    obtain ⟨page, fetched, found⟩ := bind_eq_ok.mp found
    cases page with
    | none =>
        cases found
        exact ⟨by decide, fun impossible => by cases impossible⟩
    | some page =>
        have text : db.pageText env listingId =
            some (relevantExcerpt env.unicode page.1.toList) := by
          rw [pageText, listed, linked]
          dsimp only
          rw [fetched]
        dsimp only at found
        split at found
        · rename_i marked
          cases found
          rw [Bool.and_eq_true] at marked
          exact ⟨by decide, fun _ => ⟨_, text, marked.2⟩⟩
        · split at found <;> cases found
          · exact ⟨_, text, rfl⟩
          · exact ⟨by decide, fun impossible => by cases impossible⟩
  · cases found
    exact ⟨by decide, fun impossible => by cases impossible⟩

/-- How a call ends: it writes nothing, or it records the digest of the page it has read. -/
theorem enrich_effect {env : ContentEnvironment} {outcome : EnrichmentOutcome}
    (enriched : db.enrich env now listingId force = .ok (next, outcome)) :
    (next = db ∧ outcome.status ≠ .enriched ∧
      (outcome.status = .skippedUnchanged → db.Digested env listingId)) ∨
    ∃ text row, outcome.status = .enriched ∧ db.pageText env listingId = some text ∧
      row.valueJson = .text (env.sha256 text) ∧ row.assertedAt = now ∧ next.stock = db.stock ∧
        ∀ id, next.digests id = db.digests id ++ if listingId = id then [row] else [] := by
  obtain ⟨read, found, wrote⟩ := bind_eq_ok.mp enriched
  have known := readPage_cases found
  cases read with
  | inl status =>
      cases wrote
      exact .inl ⟨rfl, known⟩
  | inr reading =>
      obtain ⟨text, page, hash⟩ := known
      obtain ⟨⟨planned, written⟩, applied, wrote⟩ := bind_eq_ok.mp wrote
      obtain ⟨last, marker, wrote⟩ := bind_eq_ok.mp wrote
      cases wrote
      have beside := (recordExecution_pagesOnly env.ids reading.contentHash reading.modelId
        db).unnoticed.trans (applyPage_unnoticed applied)
      refine .inr ⟨text, (contentHashFact listingId reading.contentHash).assertion now
        (env.ids.uuid planned.drawn), rfl, page, congrArg _ hash, rfl,
        (recordFact_stock marker).trans beside.stock, fun id => ?_⟩
      rw [recordFact_digests marker, beside.digests id]
      by_cases own : listingId = id
      · rw [if_pos own, if_pos ⟨own, rfl⟩]
      · rw [if_neg own, if_neg fun same => own same.1]

/-! ## One batch after the other -/

/-- The listing was enriched, or its page is the one that was read before. -/
def PageDone (verdict : Batch.Verdict DetailCount) : Prop :=
  verdict.label = some (.status .enriched) ∨ verdict.label = some (.status .skippedUnchanged)

/-- The page that a listing has at its turn. -/
abbrev pageOf (env : OfficeEnvironment) (turns : Uuid → Turn) (listingId : Uuid) :
    ContentEnvironment :=
  env.content (turns listingId).scan (turns listingId).answers

section Alone

variable (alone : ∀ id, (turns id).meanwhile = [])

include alone

/-- A turn changes nothing that is looked up but the digests of its listing. -/
theorem detailTurn_beside (listingId : Uuid) :
    (detailTurn env turns force db listingId).1.stock = db.stock ∧ ∀ other, listingId ≠ other →
      (detailTurn env turns force db listingId).1.digests other = db.digests other := by
  unfold detailTurn
  dsimp only
  rw [alone listingId, run_nil]
  split
  · rename_i next outcome enriched
    rcases enrich_effect enriched with ⟨rfl, -⟩ | ⟨_, _, _, _, _, _, stock, digests⟩
    · exact ⟨rfl, fun _ _ => rfl⟩
    · refine ⟨stock, fun other differs => ?_⟩
      rw [digests, if_neg differs, List.append_nil]
  · exact ⟨rfl, fun _ _ => rfl⟩
  · exact ⟨rfl, fun _ _ => rfl⟩

/-- A turn that settles its listing leaves the digest of its page as the last one. -/
theorem detailTurn_digested {listingId : Uuid}
    (clock : ∀ row ∈ db.digests listingId, row.assertedAt < (turns listingId).now)
    (settled : PageDone (detailTurn env turns force db listingId).2) :
    (detailTurn env turns force db listingId).1.Digested (pageOf env turns listingId)
      listingId := by
  unfold detailTurn at settled ⊢
  dsimp only at settled ⊢
  rw [alone listingId, run_nil] at settled ⊢
  split at settled
  · rename_i next outcome enriched
    rcases enrich_effect enriched with
      ⟨rfl, other, skipped⟩ | ⟨text, row, _, found, value, time, stock, digests⟩
    · refine skipped ?_
      cases status : outcome.status with
      | skippedUnchanged => rfl
      | enriched => exact absurd status other
      | noLink => simp [PageDone, status] at settled
      | extractFailed => simp [PageDone, status] at settled
      | llmFailed => simp [PageDone, status] at settled
    · have mine : next.digests listingId = db.digests listingId ++ [row] := by
        rw [digests, if_pos rfl]
      exact ⟨text, (pageText_of_stock stock _ _).trans found,
        alreadyExtracted_of_latest (mine ▸ List.mem_append_right _ (List.mem_singleton_self row))
          value fun other member => by
            rw [mine, List.mem_append, List.mem_singleton] at member
            rcases member with earlier | rfl
            · exact .inr (time ▸ clock other earlier)
            · exact .inl rfl⟩
  · simp [PageDone] at settled
  · simp [PageDone] at settled

/-- Turns of other listings keep a digested page. -/
theorem run_detailTurns_digested {page : ContentEnvironment} {taken : List Uuid}
    (digested : db.Digested page listingId) (others : listingId ∉ taken) :
    (run (Batch.advance (detailTurn env turns force)) db taken).Digested page listingId := by
  induction taken generalizing db with
  | nil => exact digested
  | cons id rest ih =>
      rw [List.mem_cons, not_or] at others
      obtain ⟨stock, digests⟩ := @detailTurn_beside env turns force db alone id
      exact ih (digested_of_stock digested stock (digests listingId (Ne.symm others.1))) others.2

theorem run_detailTurns_stock (taken : List Uuid) :
    (run (Batch.advance (detailTurn env turns force)) db taken).stock = db.stock := by
  induction taken generalizing db with
  | nil => rfl
  | cons id rest ih => exact ih.trans (detailTurn_beside alone id).1

/-- What a batch settles is digested at its end. -/
theorem digested_of_moment {taken : List Uuid} (distinct : taken.Nodup)
    (clock : ∀ id ∈ taken, ∀ row ∈ db.digests id, row.assertedAt < (turns id).now)
    {moment : Database × Uuid}
    (member : moment ∈ moments (Batch.advance (detailTurn env turns force)) db taken)
    (settled : PageDone (detailTurn env turns force moment.1 moment.2).2) :
    (run (Batch.advance (detailTurn env turns force)) db taken).Digested
      (pageOf env turns moment.2) moment.2 := by
  induction taken generalizing db with
  | nil => cases member
  | cons id rest ih =>
      obtain ⟨once, distinct⟩ := List.nodup_cons.mp distinct
      obtain ⟨first, later⟩ := List.forall_mem_cons.mp clock
      rcases List.mem_cons.mp member with rfl | member
      · change (run (Batch.advance (detailTurn env turns force))
          (Batch.advance (detailTurn env turns force) db id) rest).Digested (pageOf env turns id) id
        exact run_detailTurns_digested alone (detailTurn_digested alone first settled) once
      · refine ih distinct (fun other listed row recorded => later other listed row ?_) member
        have differs : id ≠ other := fun same => once (same ▸ listed)
        rwa [Batch.advance, (detailTurn_beside alone id).2 other differs] at recorded

end Alone

/-- The official site is found without the language model. -/
theorem firstOfficial_llm (scan : Uuid → Nat) (answers : PageAnswers)
    (llm : LlmTaskRequest → LlmTaskResult) (urls : List String) :
    firstOfficial (env.content scan { answers with llm := llm }) urls =
      firstOfficial (env.content scan answers) urls := by
  induction urls with
  | nil => rfl
  | cons url rest ih =>
      rw [firstOfficial, firstOfficial, ih]
      rfl

/-- The page that is found is not the model's. -/
theorem pageText_llm (scan : Uuid → Nat) (answers : PageAnswers)
    (llm : LlmTaskRequest → LlmTaskResult) (listingId : Uuid) :
    db.pageText (env.content scan { answers with llm := llm }) listingId =
      db.pageText (env.content scan answers) listingId := by
  have site (listing : CanonicalListing) :
      db.findOfficialSite (env.content scan { answers with llm := llm }) listing =
        db.findOfficialSite (env.content scan answers) listing := by
    unfold findOfficialSite
    simp only [firstOfficial_llm]
    rfl
  unfold pageText findPage
  simp only [site]
  rfl

/-- A turn of a digested page skips it, whatever a model would answer. -/
theorem detailTurn_skipped {later : Uuid → Turn} (alone : (later listingId).meanwhile = [])
    (scans : (later listingId).scan = (turns listingId).scan)
    (answers : (later listingId).answers =
      { (turns listingId).answers with llm := (later listingId).answers.llm })
    (digested : db.Digested (pageOf env turns listingId) listingId) :
    detailTurn env later false db listingId = (db, .counted (.status .skippedUnchanged)) := by
  have page : db.Digested (pageOf env later listingId) listingId := by
    obtain ⟨text, found, marked⟩ := digested
    rw [pageOf, scans, answers]
    exact ⟨text, (pageText_llm _ _ _ listingId).trans found, marked⟩
  unfold detailTurn
  dsimp only
  rw [alone, run_nil, page.skipped]

/-- **Rerun.** A batch that follows another, with the same pages and with no other process at
work, takes the same listings. It skips each one that the first one settled, writes nothing for
it and consults no model, whatever that would answer; when the first one settled all of them,
it changes nothing at all. The queries leave ties open: both batches scan the rows alike, and
the first one runs later than every stored assertion. -/
theorem detail_rerun_idle (env : OfficeEnvironment) (actions : List OfficeAction)
    (searchKey openaiKey : String) (scan : Uuid → Nat) (turns later : Uuid → Turn) (limit : Nat)
    (force : Bool) (alone : ∀ id, (turns id).meanwhile = [] ∧ (later id).meanwhile = [])
    (pages : ∀ id, (later id).scan = (turns id).scan ∧
      (later id).answers = { (turns id).answers with llm := (later id).answers.llm })
    (clock : ∀ id, ∀ row ∈ (worked env actions).assertions, row.assertedAt < (turns id).now) :
    let db := worked env actions
    let chosen := db.detailIds scan limit
    let first :=
      db.runDetailEnrichment env (some searchKey) (some openaiKey) scan turns limit force
    let again :=
      first.1.runDetailEnrichment env (some searchKey) (some openaiKey) scan later limit false
    let done := Batch.taken (detailTurn env turns force) db chosen
    first.1.detailIds scan limit = chosen ∧
    (∀ moment ∈ moments (Batch.advance (detailTurn env turns force)) db done,
      PageDone (detailTurn env turns force moment.1 moment.2).2 →
      ∀ other ∈ moments (Batch.advance (detailTurn env later false)) first.1
          (Batch.taken (detailTurn env later false) first.1 chosen),
        other.2 = moment.2 → detailTurn env later false other.1 other.2 =
          (other.1, .counted (.status .skippedUnchanged))) ∧
    (first.2 (.status .enriched) + first.2 (.status .skippedUnchanged) = chosen.length →
      again = (first.1, Function.update (fun _ => 0) (.status .skippedUnchanged)
        chosen.length)) := by
  intro db chosen first again done
  have before (id : Uuid) : (turns id).meanwhile = [] := (alone id).1
  have after (id : Uuid) : (later id).meanwhile = [] := (alone id).2
  have distinct : chosen.Nodup :=
    nodup_detailIds (run_works (filed_empty env.ids) actions).filed.tracked.listingIds
  have taken : done <+: chosen := Batch.taken_isPrefix
  have final : first.1 = run (Batch.advance (detailTurn env turns force)) db done :=
    Batch.state_work
  have same : first.1.detailIds scan limit = chosen := by
    rw [final]
    exact detailIds_of_stock (run_detailTurns_stock before done) scan limit
  have digested : ∀ moment ∈ moments (Batch.advance (detailTurn env turns force)) db done,
      PageDone (detailTurn env turns force moment.1 moment.2).2 →
        first.1.Digested (pageOf env turns moment.2) moment.2 := by
    intro moment member settled
    rw [final]
    exact digested_of_moment before (distinct.sublist taken.sublist)
      (fun id _ row recorded => clock id row (List.mem_filter.mp recorded).1) member settled
  refine ⟨same, fun moment member settled other step named => ?_, fun all => ?_⟩
  · have kept : Preserved (Batch.advance (detailTurn env later false)) (fun _ _ => True)
        fun state => state.Digested (pageOf env turns moment.2) moment.2 := by
      intro state id digested _
      by_cases own : id = moment.2
      · subst own
        rw [Batch.advance, detailTurn_skipped (after _) (pages _).1 (pages _).2 digested]
        exact digested
      · obtain ⟨stock, digests⟩ := @detailTurn_beside env later false state after id
        exact digested_of_stock digested stock (digests _ own)
    have found := kept.moments (digested moment member settled)
      (permitted_of_forall fun _ _ => trivial) other step
    rw [← named] at found
    exact detailTurn_skipped (after _) (pages _).1 (pages _).2 found
  · have counts := counts_runDetailEnrichment env searchKey openaiKey scan turns limit force db
    have full := all
    rw [show first.2 _ = _ from counts _, show first.2 _ = _ from counts _] at full
    have settled := Batch.label_of_countP_add (by decide) (le_of_le_of_eq
      (Batch.length_verdicts.trans_le taken.length_le) full.symm)
    have length : chosen.length ≤ done.length := by
      rw [← full, Batch.countP_add (by decide)]
      exact List.countP_le_length.trans_eq Batch.length_verdicts
    have whole : done = chosen := taken.eq_of_length_le length
    have idle : ∀ id ∈ chosen, detailTurn env later false first.1 id =
        (first.1, .counted (.status .skippedUnchanged)) := by
      intro id member
      obtain ⟨moment, listed, rfl⟩ := @Batch.exists_moment _ _ _ (detailTurn env turns force) db id
        done (whole ▸ member)
      exact detailTurn_skipped (after _) (pages _).1 (pages _).2
        (digested moment listed (settled _ (List.mem_map_of_mem listed)))
    change Batch.work (detailTurn env later false) first.1 (fun _ => 0)
      (first.1.detailIds scan limit) = _
    rw [same, Batch.work_idle idle, Nat.zero_add]

/-- An office in which texts are their own digests. -/
def asciiOffice : OfficeEnvironment where
  ids := countingIds
  unicode := asciiTables
  sha256 := String.ofList
  covers _ _ := false
  intersects _ _ := false
  acceptsNetloc _ := true

/-- A listing is observed. -/
def listingSeen : List OfficeAction :=
  [.location (.service (.outside (outsideWrite [rentSeen 1 0 100000 "x"] []))),
    .location (.service (.processObservation (fun _ => 0) 0 .direct 1))]

/-- A page with another rent at the first batch, and no model at the second one. -/
theorem detail_rerun_idle_seen :
    let db := worked asciiOffice listingSeen
    let answers := pageStating { monthlyRentUsd := some 2000 }
    let first := db.runDetailEnrichment asciiOffice (some "search") (some "model") (fun _ => 0)
      (fun _ => ⟨[], fun _ => 0, 20, answers⟩) 0 false
    first.1.runDetailEnrichment asciiOffice (some "search") (some "model") (fun _ => 0)
        (fun _ => ⟨[], fun _ => 0, 30, { answers with llm := fun _ => ⟨.failed, .missing, ""⟩ }⟩)
        0 false =
      (first.1, Function.update (fun _ => 0) (.status .skippedUnchanged) 1) := by
  have rerun := detail_rerun_idle asciiOffice listingSeen "search" "model" (fun _ => 0)
    (fun _ => ⟨[], fun _ => 0, 20, pageStating { monthlyRentUsd := some 2000 }⟩)
    (fun _ => ⟨[], fun _ => 0, 30, { pageStating { monthlyRentUsd := some 2000 } with
      llm := fun _ => ⟨.failed, .missing, ""⟩ }⟩)
    0 false (fun _ => ⟨rfl, rfl⟩) (fun _ => ⟨rfl, rfl⟩) (fun _ => by decide)
  exact rerun.2.2 (by decide)

end Database

end RentalAgent
