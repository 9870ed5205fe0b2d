import RentalAgent.Canonical.Currentness
import RentalAgent.Canonical.FieldUpdates
import RentalAgent.Canonical.Services
import RentalAgent.Enrichment.ListingContent

/-! # The two pipelines as one system

Observations and pages write the same listings. An action is a call of either
pipeline, or a write of the components around them; a call that raises is rolled back.
A page writes the rent and the laundry of its listing and nothing else of any listing
(`Database.enrich_fields`).
-/

namespace RentalAgent

open Relational Transition

/-- What every call shares: identifiers, Unicode tables, the digest of a text, and which
network locations `urlparse` accepts. -/
structure ContentLibrary where
  ids : IdSupply
  unicode : UnicodeTables
  sha256 : List Char → String
  acceptsNetloc : List Char → Bool

def ContentLibrary.environment (library : ContentLibrary) (scan : Uuid → Nat) : Environment :=
  ⟨library.ids, library.unicode, scan⟩

def ContentLibrary.content (library : ContentLibrary) (scan : Uuid → Nat) (answers : PageAnswers) :
    ContentEnvironment :=
  ⟨library.environment scan, answers, library.sha256, library.acceptsNetloc⟩

/-- The calls of the two pipelines, with the clock reading, the scan order and the
answers each one meets, and the writes of other components. -/
inductive ContentAction
  | processObservation (scan : Uuid → Nat) (now : Timestamp) (discoveryMethod : DiscoveryMethod)
      (observationId : Uuid)
  | enrich (scan : Uuid → Nat) (now : Timestamp) (answers : PageAnswers)
      (canonicalListingId : Uuid) (force : Bool)
  | outside (write : OutsideWrite)

namespace Database

variable (library : ContentLibrary)

/-- The database after a call, or the exception it raises; overrides that violate their
unique index are refused. -/
def performContent (db : Database) : ContentAction → Except ServiceError Database
  | .processObservation scan now method observationId => do
      let (db, _) ← db.processObservation (library.environment scan) now method observationId
      return db
  | .enrich scan now answers listingId force => do
      let (db, _) ← db.enrich (library.content scan answers) now listingId force
      return db
  | .outside write =>
      if OneActiveOverride write.overrides then .ok (db.writeOutside write)
      else .error .integrityError

/-- One call as a transaction. -/
def contentStep (db : Database) (action : ContentAction) : Database :=
  match db.performContent library action with
  | .ok next => next
  | .error _ => db

/-- The database after the calls, from the empty one. -/
abbrev enriched (actions : List ContentAction) : Database :=
  run (contentStep library) Database.empty actions

/-- The step wrote executions and media only. -/
structure PagesOnly (db next : Database) : Prop where
  frame : next = { db with
    drawn := next.drawn
    modelExecutions := next.modelExecutions
    mediaAssets := next.mediaAssets
    mediaAssociations := next.mediaAssociations }
  drawn : db.drawn ≤ next.drawn

variable {library} {ids : IdSupply} {env : ContentEnvironment} {now : Timestamp}
  {db middle next : Database} {field : ListingField} {listingId : Uuid} {force : Bool}
  {reading : PageReading} {listing : CanonicalListing} {facts : ListingPageFacts}
  {written : List WrittenFact} {outcome : EnrichmentOutcome}

theorem recordExecution_pagesOnly (ids : IdSupply) (contentHash modelId : String) (db : Database) :
    PagesOnly db (db.recordExecution ids contentHash modelId) := by
  unfold recordExecution
  split
  · exact ⟨rfl, Nat.le_refl _⟩
  · exact ⟨rfl, Nat.le_succ _⟩

/-- Attaching a floor plan writes the media of the page only. -/
theorem attachFloorPlan_pagesOnly (ids : IdSupply) (reading : PageReading) (db : Database) :
    PagesOnly db (db.attachFloorPlan ids reading).1 := by
  unfold attachFloorPlan
  dsimp only
  split
  · split
    · exact ⟨rfl, Nat.le_refl _⟩
    · exact ⟨rfl, Nat.le_add_right _ 2⟩
  · exact ⟨rfl, Nat.le_refl _⟩

theorem PagesOnly.untouched (pages : PagesOnly db next) : Untouched field listingId db next := by
  apply untouched_congr <;> rw [pages.frame]

theorem PagesOnly.overrides (pages : PagesOnly db next) : next.overrides = db.overrides := by
  rw [pages.frame]

/-! ## Reading a page -/

/-- What was read is about the listing asked for, as it is stored. -/
theorem readPage_listing (read : db.readPage env listingId force = .ok (.inr reading)) :
    db.listing? listingId = some reading.listing := by
  unfold readPage at read
  split at read
  · rename_i listing link found _
    obtain ⟨page, _, read⟩ := bind_eq_ok.mp read
    cases page with
    | none => cases read
    | some page =>
        dsimp only at read
        split at read
        · cases read
        · split at read <;> cases read
          exact found
  · cases read

/-! ## Writing what a page states -/

/-- The ways the rent part ends: nothing is stated, the rent is the listing's, an
override under `"monthly_rent"` keeps the rent, or it is written with its event. -/
inductive PageRentStep (ids : IdSupply) (now : Timestamp) (listing : CanonicalListing)
    (facts : ListingPageFacts) (db : Database) : Database → Prop
  | unstated (silent : facts.statedRentUsd = none) : PageRentStep ids now listing facts db db
  | agrees {usd : Nat} (states : facts.statedRentUsd = some usd)
      (same : listing.monthlyRentMinor = some (usd * 100)) :
      PageRentStep ids now listing facts db db
  | disputed {usd : Nat} {override : HumanOverride} {recorded : Database}
      (states : facts.statedRentUsd = some usd)
      (differs : listing.monthlyRentMinor ≠ some (usd * 100))
      (governs : db.activeOverride .listing listing.canonicalListingId "monthly_rent" =
        .ok (some override))
      (record : db.recordFact ids now (pageFact listing.canonicalListingId "monthly_rent"
        (.number (usd * 100)) .high (quotedEvidence facts.rentEvidence)) = .ok recorded) :
      PageRentStep ids now listing facts db
        (recorded.raiseConflictWithOverride ids override listing.canonicalListingId "monthly_rent"
          (.number (usd * 100)))
  | written {usd : Nat} {recorded : Database}
      (states : facts.statedRentUsd = some usd)
      (differs : listing.monthlyRentMinor ≠ some (usd * 100))
      (free : db.activeOverride .listing listing.canonicalListingId "monthly_rent" = .ok none)
      (record : db.recordFact ids now (pageFact listing.canonicalListingId "monthly_rent"
        (.number (usd * 100)) .high (quotedEvidence facts.rentEvidence)) = .ok recorded)
      (unused : .detailExtract (usd * 100) ∉
        (db.journal .rent listing.canonicalListingId).usedKeys) :
      PageRentStep ids now listing facts db
        ((recorded.updateListing listing.canonicalListingId
          (CanonicalListing.reprice now (usd * 100))).insertEvent ids
            (pageRentEvent listing now (usd * 100))).1

theorem pageRentEvent_makes (listing : CanonicalListing) (now : Timestamp) (minor : Nat) :
    MakesEvent (pageRentEvent listing now minor) listing.canonicalListingId .priceChanged
      (.detailExtract minor) :=
  ⟨fun _ => rfl, fun _ => rfl, fun _ => rfl⟩

theorem rent_eventType : ListingField.rent.eventType = some .priceChanged := rfl

/-- The rent part of a page that does not fail is one of its steps: without a correction nothing
is written, a governed rent raises a conflict, and a free one is written with its fact. -/
theorem applyPageRent_cases
    (applied : db.applyPageRent ids now listing facts = .ok (next, written)) :
    PageRentStep ids now listing facts db next := by
  unfold applyPageRent at applied
  split at applied
  · rename_i silent
    cases applied
    exact .unstated silent
  · rename_i usd states
    dsimp only at applied
    split at applied
    · rename_i same
      cases applied
      exact .agrees states same
    · rename_i differs
      obtain ⟨override, query, applied⟩ := bind_eq_ok.mp applied
      obtain ⟨recorded, record, applied⟩ := bind_eq_ok.mp applied
      cases override with
      | some override =>
          cases applied
          exact .disputed states differs query record
      | none =>
          dsimp only at applied
          split at applied
          · rename_i inserted id emitted
            cases applied
            have journal := insertEvent_journal ids
              (recorded.updateListing listing.canonicalListingId
                (CanonicalListing.reprice now (usd * 100)))
              (pageRentEvent_makes listing now (usd * 100)) rent_eventType
            have kept : recorded.journal .rent listing.canonicalListingId =
                db.journal .rent listing.canonicalListingId :=
              (recordFact_factsOnly record).untouched.journal
            have unused : .detailExtract (usd * 100) ∉
                (db.journal .rent listing.canonicalListingId).usedKeys := by
              intro used
              have none := journal.2.mpr (kept ▸ used)
              simp [emitted] at none
            have step := PageRentStep.written states differs query record unused
            rwa [emitted] at step
          · cases applied

/-- The ways the laundry part ends: nothing is stated, an override keeps the laundry, or
it is written without an event. -/
inductive PageLaundryStep (ids : IdSupply) (now : Timestamp) (listing : CanonicalListing)
    (facts : ListingPageFacts) (db : Database) : Database → Prop
  | unstated (silent : facts.statedLaundry = none) : PageLaundryStep ids now listing facts db db
  | disputed {laundry : LaundryType} {override : HumanOverride} {recorded : Database}
      (states : facts.statedLaundry = some laundry)
      (governs : db.activeOverride .listing listing.canonicalListingId "laundry_type" =
        .ok (some override))
      (record : db.recordFact ids now (pageFact listing.canonicalListingId "laundry_type"
        (.laundry laundry) .medium (quotedEvidence facts.laundryEvidence)) = .ok recorded) :
      PageLaundryStep ids now listing facts db
        (recorded.raiseConflictWithOverride ids override listing.canonicalListingId "laundry_type"
          (.laundry laundry))
  | written {laundry : LaundryType} {recorded : Database}
      (states : facts.statedLaundry = some laundry)
      (free : db.activeOverride .listing listing.canonicalListingId "laundry_type" = .ok none)
      (record : db.recordFact ids now (pageFact listing.canonicalListingId "laundry_type"
        (.laundry laundry) .medium (quotedEvidence facts.laundryEvidence)) = .ok recorded) :
      PageLaundryStep ids now listing facts db
        (recorded.updateListing listing.canonicalListingId fun listing =>
          { listing with laundryType := laundry })

/-- The laundry part of a page that does not fail is one of its steps. -/
theorem applyPageLaundry_cases
    (applied : db.applyPageLaundry ids now listing facts = .ok (next, written)) :
    PageLaundryStep ids now listing facts db next := by
  unfold applyPageLaundry at applied
  split at applied
  · rename_i silent
    cases applied
    exact .unstated silent
  · rename_i laundry states
    obtain ⟨override, query, applied⟩ := bind_eq_ok.mp applied
    obtain ⟨recorded, record, applied⟩ := bind_eq_ok.mp applied
    cases override with
    | some override =>
        cases applied
        exact .disputed states query record
    | none =>
        cases applied
        exact .written states query record

/-- A fact about another matter of the listing was recorded, or nothing. -/
inductive SideFact (ids : IdSupply) (now : Timestamp) (listingId : Uuid) (factKey : String)
    (db : Database) : Database → Prop
  | none : SideFact ids now listingId factKey db db
  | recorded {record : FactRecord} {next : Database}
      (name : record.name = ⟨.listing, listingId, factKey⟩)
      (record : db.recordFact ids now record = .ok next) :
      SideFact ids now listingId factKey db next

/-- The fee is recorded as a fact of its own, or nothing is. -/
theorem recordPageFee_sideFact
    (applied : db.recordPageFee ids now listing facts = .ok (next, written)) :
    SideFact ids now listing.canonicalListingId "fee_status" db next := by
  unfold recordPageFee at applied
  split at applied
  · cases applied
    exact .none
  · obtain ⟨recorded, record, applied⟩ := bind_eq_ok.mp applied
    cases applied
    exact .recorded rfl record

/-- The amenities are recorded as a fact of their own, or nothing is. -/
theorem recordPageAmenities_sideFact
    (applied : db.recordPageAmenities ids now listing facts = .ok (next, written)) :
    SideFact ids now listing.canonicalListingId "amenities" db next := by
  unfold recordPageAmenities at applied
  split at applied
  · cases applied
    exact .none
  · obtain ⟨recorded, record, applied⟩ := bind_eq_ok.mp applied
    cases applied
    exact .recorded rfl record

theorem SideFact.factsOnly {factKey : String} (side : SideFact ids now listingId factKey db next) :
    FactsOnly db next := by
  cases side with
  | none => exact .refl db
  | recorded _ record => exact recordFact_factsOnly record

/-- What a call that has read a page writes, in order. -/
structure PageWrites (ids : IdSupply) (now : Timestamp) (reading : PageReading)
    (db next : Database) where
  executed : Database
  priced : Database
  washed : Database
  charged : Database
  furnished : Database
  planned : Database
  execution : PagesOnly db executed
  rent : PageRentStep ids now reading.listing reading.facts executed priced
  laundry : PageLaundryStep ids now reading.listing reading.facts priced washed
  fee : SideFact ids now reading.listing.canonicalListingId "fee_status" washed charged
  amenities : SideFact ids now reading.listing.canonicalListingId "amenities" charged furnished
  floorPlan : PagesOnly furnished planned
  marker : SideFact ids now reading.listing.canonicalListingId "detail_extract_hash" planned next

/-- A call writes nothing, or what it read. -/
theorem enrich_cases (enriched : db.enrich env now listingId force = .ok (next, outcome)) :
    (next = db ∧ ∀ reading, db.readPage env listingId force ≠ .ok (.inr reading)) ∨
      ∃ reading, db.readPage env listingId force = .ok (.inr reading) ∧
        Nonempty (PageWrites env.ids now reading db next) := by
  obtain ⟨read, found, wrote⟩ := bind_eq_ok.mp enriched
  cases read with
  | inl status =>
      cases wrote
      exact .inl ⟨rfl, by simp [found]⟩
  | inr reading =>
      obtain ⟨⟨planned, written⟩, applied, wrote⟩ := bind_eq_ok.mp wrote
      obtain ⟨last, marker, wrote⟩ := bind_eq_ok.mp wrote
      cases wrote
      obtain ⟨⟨priced, first⟩, rent, applied⟩ := bind_eq_ok.mp applied
      obtain ⟨⟨washed, second⟩, laundry, applied⟩ := bind_eq_ok.mp applied
      obtain ⟨⟨charged, third⟩, fee, applied⟩ := bind_eq_ok.mp applied
      obtain ⟨⟨furnished, fourth⟩, amenities, applied⟩ := bind_eq_ok.mp applied
      cases applied
      have named : reading.listing.canonicalListingId = listingId :=
      key_of_get (readPage_listing found)
      refine .inr ⟨reading, found, ⟨?_⟩⟩
      exact
        { executed := db.recordExecution env.ids reading.contentHash reading.modelId
          priced := priced
          washed := washed
          charged := charged
          furnished := furnished
          planned := (furnished.attachFloorPlan env.ids reading).1
          execution := recordExecution_pagesOnly env.ids _ _ db
          rent := applyPageRent_cases rent
          laundry := applyPageLaundry_cases laundry
          fee := recordPageFee_sideFact fee
          amenities := recordPageAmenities_sideFact amenities
          floorPlan := attachFloorPlan_pagesOnly env.ids reading furnished
          marker := .recorded (named ▸ rfl) marker }

/-! ## What a page does to the fields -/

/-- What a page does to the rent of its listing: nothing, or it writes the rent with an
event under a key that was not used. -/
inductive PageRent (now : Timestamp) (listing : CanonicalListing) (facts : ListingPageFacts)
    (db next : Database) : Prop
  | kept
      (keeps : ∀ usd ∈ facts.statedRentUsd, listing.monthlyRentMinor = some (usd * 100) ∨
        db.activeOverride .listing listing.canonicalListingId "monthly_rent" ≠ .ok none)
      (untouched : Untouched .rent listing.canonicalListingId db next)
  | written {usd : Nat} {id : Uuid} (states : facts.statedRentUsd = some usd)
      (differs : listing.monthlyRentMinor ≠ some (usd * 100))
      (free : db.activeOverride .listing listing.canonicalListingId "monthly_rent" = .ok none)
      (unused : .detailExtract (usd * 100) ∉
        (db.journal .rent listing.canonicalListingId).usedKeys)
      (column : next.column .rent listing.canonicalListingId = some (.number (usd * 100)))
      (journal : next.journal .rent listing.canonicalListingId =
        { db.journal .rent listing.canonicalListingId with
          events := (db.journal .rent listing.canonicalListingId).events ++
            [pageRentEvent listing now (usd * 100) id]
          usedKeys := (db.journal .rent listing.canonicalListingId).usedKeys ++
            [.detailExtract (usd * 100)] })

/-- What a page does to the laundry of its listing: nothing, a conflict with the override,
or it writes the laundry and leaves the journal alone. -/
inductive PageLaundry (listing : CanonicalListing) (facts : ListingPageFacts) (db next : Database) :
    Prop
  | unstated (silent : facts.statedLaundry = none)
      (untouched : Untouched .laundry listing.canonicalListingId db next)
  | governed {laundry : LaundryType} {override : HumanOverride} {issue : ReviewIssue}
      (states : facts.statedLaundry = some laundry)
      (governs : db.activeOverride .listing listing.canonicalListingId "laundry_type" =
        .ok (some override))
      (column : next.column .laundry listing.canonicalListingId =
        db.column .laundry listing.canonicalListingId)
      (journal : next.journal .laundry listing.canonicalListingId =
        if override.reviewOnNewConflict = false ∨
            (db.journal .laundry listing.canonicalListingId).conflicts ≠ [] then
          db.journal .laundry listing.canonicalListingId
        else { db.journal .laundry listing.canonicalListingId with conflicts := [issue] })
  | written {laundry : LaundryType} (states : facts.statedLaundry = some laundry)
      (free : db.activeOverride .listing listing.canonicalListingId "laundry_type" = .ok none)
      (column : next.column .laundry listing.canonicalListingId = some (.laundry laundry))
      (journal : next.journal .laundry listing.canonicalListingId =
        db.journal .laundry listing.canonicalListingId)

/-- A page touches the rent and the laundry of its listing only. -/
structure PageFields (now : Timestamp) (reading : PageReading) (db next : Database) : Prop where
  others : ∀ field listingId, (listingId = reading.listing.canonicalListingId →
    field = .layout ∨ field = .availability) → Untouched field listingId db next
  rent : PageRent now reading.listing reading.facts db next
  laundry : PageLaundry reading.listing reading.facts db next

/-- Steps that leave the rent alone can come before the rent part and after it. -/
theorem PageRent.between {before after : Database}
    (rent : PageRent now listing facts before after) (overrides : before.overrides = db.overrides)
    (first : Untouched .rent listing.canonicalListingId db before)
    (last : Untouched .rent listing.canonicalListingId after next) :
    PageRent now listing facts db next := by
  cases rent with
  | kept keeps untouched =>
      rw [activeOverride_congr overrides] at keeps
      exact .kept keeps ((first.trans untouched).trans last)
  | written states differs free unused column journal =>
      rw [activeOverride_congr overrides] at free
      rw [first.journal] at unused
      rw [first.journal, ← last.journal] at journal
      exact .written states differs free unused (last.column.trans column) journal

/-- Steps that leave the laundry alone can come before the laundry part and after it. -/
theorem PageLaundry.between {before after : Database}
    (laundry : PageLaundry listing facts before after)
    (overrides : before.overrides = db.overrides)
    (first : Untouched .laundry listing.canonicalListingId db before)
    (last : Untouched .laundry listing.canonicalListingId after next) :
    PageLaundry listing facts db next := by
  cases laundry with
  | unstated silent untouched => exact .unstated silent ((first.trans untouched).trans last)
  | governed states governs column journal =>
      rw [activeOverride_congr overrides] at governs
      rw [first.journal, ← last.journal] at journal
      exact .governed states governs ((last.column.trans column).trans first.column) journal
  | written states free column journal =>
      rw [activeOverride_congr overrides] at free
      exact .written states free (last.column.trans column)
        ((last.journal.trans journal).trans first.journal)

/-- The rent part of a page writes inventory and evidence only. -/
theorem PageRentStep.inventoryOnly (step : PageRentStep ids now listing facts db next) :
    InventoryOnly db next := by
  cases step with
  | unstated _ => exact ⟨rfl⟩
  | agrees _ _ => exact ⟨rfl⟩
  | disputed _ _ _ record =>
      exact (recordFact_factsOnly record).evidenceOnly.inventoryOnly.trans
        (raiseConflict_evidenceOnly ids _ _ _ _ _).inventoryOnly
  | written _ _ _ record _ =>
      exact ((recordFact_factsOnly record).evidenceOnly.inventoryOnly.trans
        (updateListing_inventoryOnly _ _ _)).trans (insertEvent_evidenceOnly ids _ _).inventoryOnly

/-- The laundry part of a page writes inventory and evidence only. -/
theorem PageLaundryStep.inventoryOnly (step : PageLaundryStep ids now listing facts db next) :
    InventoryOnly db next := by
  cases step with
  | unstated _ => exact ⟨rfl⟩
  | disputed _ _ record =>
      exact (recordFact_factsOnly record).evidenceOnly.inventoryOnly.trans
        (raiseConflict_evidenceOnly ids _ _ _ _ _).inventoryOnly
  | written _ _ record =>
      exact (recordFact_factsOnly record).evidenceOnly.inventoryOnly.trans
        (updateListing_inventoryOnly _ _ _)

/-- The rent part leaves every field but the rent of its listing alone. -/
theorem PageRentStep.untouched (step : PageRentStep ids now listing facts db next)
    (other : listingId = listing.canonicalListingId → field ≠ .rent) :
    Untouched field listingId db next := by
  cases step with
  | unstated _ => exact .refl field listingId db
  | agrees _ _ => exact .refl field listingId db
  | disputed _ _ _ record =>
      exact (recordFact_factsOnly record).untouched.trans
        (raiseConflict_untouched _ _ fun _ => by cases field <;> decide)
  | written _ _ _ record _ =>
      refine ((recordFact_factsOnly record).untouched.trans (updateListing_untouched
        (by intro _; rfl) fun same _ => ?_)).trans
          (insertEvent_untouched (pageRentEvent_makes listing now _) fun same => ?_)
      · cases field <;> first | rfl | exact (other same rfl).elim
      · cases field <;> first | decide | exact (other same rfl).elim

/-- The laundry part leaves every field but the laundry of its listing alone. -/
theorem PageLaundryStep.untouched (step : PageLaundryStep ids now listing facts db next)
    (other : listingId = listing.canonicalListingId → field ≠ .laundry) :
    Untouched field listingId db next := by
  cases step with
  | unstated _ => exact .refl field listingId db
  | disputed _ _ record =>
      refine (recordFact_factsOnly record).untouched.trans
        (raiseConflict_untouched _ _ fun same => ?_)
      exact ListingField.key_injective.ne (other same)
  | written _ _ record =>
      refine (recordFact_factsOnly record).untouched.trans (updateListing_untouched
        (by intro _; rfl) fun same _ => ?_)
      cases field <;> first | rfl | exact (other same rfl).elim

/-- The rent part of a page, as far as its listing and the journal of the rent go. -/
theorem PageRentStep.pageRent (step : PageRentStep ids now listing facts db next)
    {stored : CanonicalListing} (found : db.listing? listing.canonicalListingId = some stored) :
    PageRent now listing facts db next := by
  cases step with
  | unstated silent => exact .kept (by simp [silent]) (.refl _ _ db)
  | agrees states same => exact .kept (by simp [states, same]) (.refl _ _ db)
  | disputed states differs governs record =>
      refine .kept (fun _ _ => .inr (by simp [governs])) ?_
      exact (recordFact_factsOnly record).untouched.trans
        (raiseConflict_untouched _ _ fun _ => by decide)
  | written states differs free record unused =>
      rename_i usd recorded
      have kept : Untouched .rent listing.canonicalListingId db recorded :=
        (recordFact_factsOnly record).untouched
      have inserted := (insertEvent_journal ids (recorded.updateListing listing.canonicalListingId
        (CanonicalListing.reprice now (usd * 100))) (pageRentEvent_makes listing now (usd * 100))
          rent_eventType).1
      have before : (recorded.updateListing listing.canonicalListingId
          (CanonicalListing.reprice now (usd * 100))).journal .rent listing.canonicalListingId =
            db.journal .rent listing.canonicalListingId := kept.journal
      rw [before, if_neg unused] at inserted
      refine .written states differs free unused ?_ inserted
      rw [column, listing?_congr (insertEvent_listings _ _)]
      refine (column_updateListing (by intro _; rfl)).trans ?_
      rw [if_pos rfl, listing?_congr (recordFact_factsOnly record).evidenceOnly.listings, found]
      rfl

/-- The laundry part of a page, as far as its listing and the journal of the laundry go. -/
theorem PageLaundryStep.pageLaundry (step : PageLaundryStep ids now listing facts db next)
    {stored : CanonicalListing} (found : db.listing? listing.canonicalListingId = some stored) :
    PageLaundry listing facts db next := by
  cases step with
  | unstated silent => exact .unstated silent (.refl _ _ db)
  | disputed states governs record =>
      rename_i laundry override recorded
      have kept : Untouched .laundry listing.canonicalListingId db recorded :=
        (recordFact_factsOnly record).untouched
      obtain ⟨issue, journal⟩ : ∃ issue, (recorded.raiseConflictWithOverride ids override
          listing.canonicalListingId "laundry_type" (.laundry laundry)).journal .laundry
            listing.canonicalListingId = _ := raiseConflict_journal override (.laundry laundry)
      rw [kept.journal] at journal
      exact .governed states governs ((raiseConflict_column override _ _ _).trans kept.column)
        journal
  | written states free record =>
      refine .written states free ?_ (recordFact_factsOnly record).untouched.journal
      refine (column_updateListing (by intro _; rfl)).trans ?_
      rw [if_pos rfl, listing?_congr (recordFact_factsOnly record).evidenceOnly.listings, found]
      rfl

/-! ## One page -/

/-- A page leaves the overrides of the reviewers alone. -/
theorem PageWrites.overrides (writes : PageWrites ids now reading db next) :
    next.overrides = db.overrides := by
  have priced := writes.rent.inventoryOnly
  have washed := writes.laundry.inventoryOnly
  rw [writes.marker.factsOnly.evidenceOnly.overrides, writes.floorPlan.overrides,
    writes.amenities.factsOnly.evidenceOnly.overrides, writes.fee.factsOnly.evidenceOnly.overrides,
    washed.frame, priced.frame, writes.execution.overrides]

/-- What a page writes, field by field. -/
theorem PageWrites.fields (writes : PageWrites ids now reading db next)
    (found : db.listing? reading.listing.canonicalListingId = some reading.listing) :
    PageFields now reading db next := by
  have executed : ∀ field listingId, Untouched field listingId db writes.executed :=
    fun _ _ => writes.execution.untouched
  have later : ∀ field listingId, Untouched field listingId writes.washed next := fun _ _ =>
    ((writes.fee.factsOnly.untouched.trans writes.amenities.factsOnly.untouched).trans
      writes.floorPlan.untouched).trans writes.marker.factsOnly.untouched
  have priced : ∀ field listingId, (listingId = reading.listing.canonicalListingId →
      field ≠ .rent) → Untouched field listingId db writes.priced :=
    fun field listingId other => (executed field listingId).trans (writes.rent.untouched other)
  refine ⟨fun field listingId other => ?_, ?_, ?_⟩
  · refine ((priced field listingId fun same => ?_).trans
      (writes.laundry.untouched fun same => ?_)).trans (later field listingId)
    · rcases other same with rfl | rfl <;> decide
    · rcases other same with rfl | rfl <;> decide
  · obtain ⟨_, stored⟩ := (executed .layout _).exists_stored found
    exact (writes.rent.pageRent stored).between writes.execution.overrides (executed _ _)
      ((writes.laundry.untouched fun _ => by decide).trans (later _ _))
  · obtain ⟨_, stored⟩ := (priced .layout _ fun _ => by decide).exists_stored found
    have overrides : writes.priced.overrides = db.overrides := by
      rw [writes.rent.inventoryOnly.frame, writes.execution.overrides]
    exact (writes.laundry.pageLaundry stored).between overrides
      (priced _ _ fun _ => by decide) (later _ _)

/-- **Effect of a page.** A call that read a page touches the rent and the laundry of its
listing only; any other call changes nothing. -/
theorem enrich_fields (enriched : db.enrich env now listingId force = .ok (next, outcome)) :
    (next = db ∧ ∀ reading, db.readPage env listingId force ≠ .ok (.inr reading)) ∨
      ∃ reading, db.readPage env listingId force = .ok (.inr reading) ∧
        db.listing? listingId = some reading.listing ∧
          reading.listing.canonicalListingId = listingId ∧ PageFields now reading db next := by
  rcases enrich_cases enriched with idle | ⟨reading, read, ⟨writes⟩⟩
  · exact .inl idle
  · have found := readPage_listing read
    have named : reading.listing.canonicalListingId = listingId := key_of_get found
    exact .inr ⟨reading, read, found, named, writes.fields (named ▸ found)⟩

theorem enrich_overrides (enriched : db.enrich env now listingId force = .ok (next, outcome)) :
    next.overrides = db.overrides := by
  rcases enrich_cases enriched with ⟨rfl, _⟩ | ⟨_, _, ⟨writes⟩⟩
  · rfl
  · exact writes.overrides

/-! ## When a page is written -/

/-- The page corrects the rent to one that an earlier page corrected it to. -/
def RentCollides (db : Database) (reading : PageReading) : Prop :=
  ∃ usd ∈ reading.facts.statedRentUsd, reading.listing.monthlyRentMinor ≠ some (usd * 100) ∧
    db.activeOverride .listing reading.listing.canonicalListingId "monthly_rent" = .ok none ∧
      .detailExtract (usd * 100) ∈
        (db.journal .rent reading.listing.canonicalListingId).usedKeys

/-- A page whose fields were written collided with no override. -/
theorem PageFields.not_collides (fields : PageFields now reading db next) :
    ¬ db.RentCollides reading := by
  rintro ⟨usd, states, differs, free, used⟩
  cases fields.rent with
  | kept keeps _ => exact (keeps usd states).elim differs fun governed => governed free
  | written again _ _ unused _ _ =>
      cases Option.some.inj (again.symm.trans states)
      exact unused used

theorem pageFact_ok (ids : IdSupply) (now : Timestamp) (answered : db.Answered listingId)
    (factKey : String) (value : JsonScalar) (confidence : Confidence) (evidence : Option String) :
    ∃ next, db.recordFact ids now (pageFact listingId factKey value confidence evidence) =
      .ok next :=
  recordFact_ok ids now answered rfl rfl

/-- The rent part of a page does not raise where overrides are answered and the correction is
new. -/
theorem applyPageRent_ok (ids : IdSupply) (now : Timestamp)
    (answered : db.Answered reading.listing.canonicalListingId)
    (clear : ¬ db.RentCollides reading) :
    ∃ next written, db.applyPageRent ids now reading.listing reading.facts =
      .ok (next, written) := by
  unfold applyPageRent
  cases states : reading.facts.statedRentUsd with
  | none => exact ⟨_, _, rfl⟩
  | some usd =>
      dsimp only
      by_cases same : reading.listing.monthlyRentMinor = some (usd * 100)
      · rw [if_pos same]
        exact ⟨_, _, rfl⟩
      · rw [if_neg same]
        obtain ⟨found, query⟩ := answered "monthly_rent"
        obtain ⟨recorded, record⟩ := pageFact_ok ids now answered "monthly_rent"
          (.number (usd * 100)) .high (quotedEvidence reading.facts.rentEvidence)
        rw [query, ok_bind, record, ok_bind]
        cases found with
        | some override => exact ⟨_, _, rfl⟩
        | none =>
            have journal := insertEvent_journal ids
              (recorded.updateListing reading.listing.canonicalListingId
                (CanonicalListing.reprice now (usd * 100)))
              (pageRentEvent_makes reading.listing now (usd * 100)) rent_eventType
            have kept : recorded.journal .rent reading.listing.canonicalListingId =
                db.journal .rent reading.listing.canonicalListingId :=
              (recordFact_factsOnly record).untouched.journal
            have emitted : ((recorded.updateListing reading.listing.canonicalListingId
                (CanonicalListing.reprice now (usd * 100))).insertEvent ids
                  (pageRentEvent reading.listing now (usd * 100))).2 ≠ none :=
              fun none => clear ⟨usd, states, same, query, kept ▸ journal.2.mp none⟩
            dsimp only
            split
            · exact ⟨_, _, rfl⟩
            · rename_i silent
              rw [silent] at emitted
              exact (emitted rfl).elim

/-- The laundry part of a page does not raise where overrides are answered. -/
theorem applyPageLaundry_ok (ids : IdSupply) (now : Timestamp) (facts : ListingPageFacts)
    (answered : db.Answered listing.canonicalListingId) :
    ∃ next written, db.applyPageLaundry ids now listing facts = .ok (next, written) := by
  unfold applyPageLaundry
  cases facts.statedLaundry with
  | none => exact ⟨_, _, rfl⟩
  | some laundry =>
      obtain ⟨found, query⟩ := answered "laundry_type"
      obtain ⟨recorded, record⟩ := pageFact_ok ids now answered "laundry_type" (.laundry laundry)
        .medium (quotedEvidence facts.laundryEvidence)
      simp only [query, ok_bind, record]
      cases found <;> exact ⟨_, _, rfl⟩

/-- Recording the fee does not raise where overrides are answered. -/
theorem recordPageFee_ok (ids : IdSupply) (now : Timestamp) (facts : ListingPageFacts)
    (answered : db.Answered listing.canonicalListingId) :
    ∃ next written, db.recordPageFee ids now listing facts = .ok (next, written) := by
  unfold recordPageFee
  cases facts.statedFee with
  | none => exact ⟨_, _, rfl⟩
  | some status =>
      obtain ⟨recorded, record⟩ := pageFact_ok ids now answered "fee_status" (.text status) .medium
        (quotedEvidence facts.feeEvidence)
      simp only [ok_bind, record]
      exact ⟨_, _, rfl⟩

/-- Recording the amenities does not raise where overrides are answered. -/
theorem recordPageAmenities_ok (ids : IdSupply) (now : Timestamp) (facts : ListingPageFacts)
    (answered : db.Answered listing.canonicalListingId) :
    ∃ next written, db.recordPageAmenities ids now listing facts = .ok (next, written) := by
  unfold recordPageAmenities
  split
  · exact ⟨_, _, rfl⟩
  · obtain ⟨recorded, record⟩ := pageFact_ok ids now answered "amenities"
      (.texts facts.statedAmenities) .medium none
    simp only [ok_bind, record]
    exact ⟨_, _, rfl⟩

/-- A call that read a page returns unless its rent collides. -/
theorem enrich_ok (read : db.readPage env listingId force = .ok (.inr reading)) (now : Timestamp)
    (answered : db.Answered listingId) (clear : ¬ db.RentCollides reading) :
    ∃ next outcome, db.enrich env now listingId force = .ok (next, outcome) := by
  have found := readPage_listing read
  obtain rfl : reading.listing.canonicalListingId = listingId := key_of_get found
  have execution := recordExecution_pagesOnly env.ids reading.contentHash reading.modelId db
  have executedClear : ¬ (db.recordExecution env.ids reading.contentHash
      reading.modelId).RentCollides reading := by
    rintro ⟨usd, states, differs, free, used⟩
    rw [activeOverride_congr execution.overrides] at free
    rw [execution.untouched.journal] at used
    exact clear ⟨usd, states, differs, free, used⟩
  have executed := answered_congr answered execution.overrides
  obtain ⟨priced, first, rent⟩ := applyPageRent_ok env.ids now executed executedClear
  have pricedAnswered := executed.inventoryOnly (applyPageRent_cases rent).inventoryOnly
  obtain ⟨washed, second, laundry⟩ := applyPageLaundry_ok env.ids now reading.facts pricedAnswered
  have washedAnswered := pricedAnswered.inventoryOnly (applyPageLaundry_cases laundry).inventoryOnly
  obtain ⟨charged, third, fee⟩ := recordPageFee_ok env.ids now reading.facts washedAnswered
  have chargedAnswered := washedAnswered.inventoryOnly
    (recordPageFee_sideFact fee).factsOnly.evidenceOnly.inventoryOnly
  obtain ⟨furnished, fourth, amenities⟩ :=
    recordPageAmenities_ok env.ids now reading.facts chargedAnswered
  have furnishedAnswered := chargedAnswered.inventoryOnly
    (recordPageAmenities_sideFact amenities).factsOnly.evidenceOnly.inventoryOnly
  obtain ⟨last, marker⟩ : ∃ last, (furnished.attachFloorPlan env.ids reading).1.recordFact env.ids
      now (contentHashFact reading.listing.canonicalListingId reading.contentHash) = .ok last :=
    recordFact_ok env.ids now (answered_congr furnishedAnswered
      (attachFloorPlan_pagesOnly env.ids reading furnished).overrides) rfl rfl
  have applied : (db.recordExecution env.ids reading.contentHash reading.modelId).applyPage env.ids
      now reading = .ok ((furnished.attachFloorPlan env.ids reading).1,
        first ++ second ++ third ++ fourth ++ (furnished.attachFloorPlan env.ids reading).2) := by
    unfold applyPage
    simp only [rent, laundry, fee, amenities, ok_bind]
    rfl
  refine ⟨last, ⟨reading.listing.canonicalListingId, .enriched,
    first ++ second ++ third ++ fourth ++
    (furnished.attachFloorPlan env.ids reading).2⟩, ?_⟩
  unfold enrich
  simp only [read, applied, marker, ok_bind]
  rfl

/-! ## The system -/

/-- Where active overrides are unique, each lookup of one is answered. -/
theorem answered_of_unique (unique : OneActiveOverride db.overrides) (listingId : Uuid) :
    db.Answered listingId := fun factKey =>
  activeOverride_of_unique unique
    { entityType := .listing
      entityId := listingId
      factKey := factKey
      valueJson := .null
      confidence := .unknown }

/-- What a returning call did. -/
theorem performContent_cases {action : ContentAction}
    (performed : db.performContent library action = .ok next) :
    (∃ scan now method observationId outcome,
      action = .processObservation scan now method observationId ∧
        db.processObservation (library.environment scan) now method observationId =
          .ok (next, outcome)) ∨
    (∃ scan now answers listingId force outcome,
      action = .enrich scan now answers listingId force ∧
        db.enrich (library.content scan answers) now listingId force = .ok (next, outcome)) ∨
    ∃ write, action = .outside write ∧ OneActiveOverride write.overrides ∧
      next = db.writeOutside write := by
  cases action with
  | processObservation scan now method observationId =>
      obtain ⟨⟨after, outcome⟩, processed, wrote⟩ := bind_eq_ok.mp performed
      cases wrote
      exact .inl ⟨scan, now, method, observationId, outcome, rfl, processed⟩
  | enrich scan now answers listingId force =>
      obtain ⟨⟨after, outcome⟩, enriched, wrote⟩ := bind_eq_ok.mp performed
      cases wrote
      exact .inr (.inl ⟨scan, now, answers, listingId, force, outcome, rfl, enriched⟩)
  | outside write =>
      by_cases unique : OneActiveOverride write.overrides
      · simp only [performContent, unique, ↓reduceIte, Except.ok.injEq] at performed
        exact .inr (.inr ⟨write, rfl, unique, performed.symm⟩)
      · simp [performContent, unique] at performed

/-- A property that returning calls keep is kept by every action. -/
theorem contentStep_keeps (holds : Database → Prop) {action : ContentAction} (start : holds db)
    (keeps : ∀ next, db.performContent library action = .ok next → holds next) :
    holds (db.contentStep library action) := by
  unfold contentStep
  split
  · rename_i next performed
    exact keeps next performed
  · exact start

/-- Every action keeps the active overrides unique. -/
theorem uniqueOverrides_preserved :
    Preserved (contentStep library) (fun _ _ => True) fun db => OneActiveOverride db.overrides := by
  intro db action unique _
  refine contentStep_keeps (fun db => OneActiveOverride db.overrides) unique
    fun next performed => ?_
  rcases performContent_cases performed with
    ⟨_, _, _, _, _, _, processed⟩ | ⟨_, _, _, _, _, _, _, enriched⟩ | ⟨write, _, refused, rfl⟩
  · rw [(processObservation_canonicalOnly processed).frame]
    exact unique
  · rw [enrich_overrides enriched]
    exact unique
  · exact refused

theorem PagesOnly.quiet (pages : PagesOnly db next) : Quiet db next := by
  refine ⟨?_, pages.drawn⟩
  rw [ledger, ledger, pages.frame]

/-- The rent part of a page leaves the ledger alone. -/
theorem PageRentStep.quiet (step : PageRentStep ids now listing facts db next) : Quiet db next := by
  cases step with
  | unstated _ => exact .refl db
  | agrees _ _ => exact .refl db
  | disputed _ _ _ record =>
      exact (recordFact_factsOnly record).evidenceOnly.quiet.trans
        (raiseConflict_evidenceOnly ids _ _ _ _ _).quiet
  | written _ _ _ record _ =>
      exact ((recordFact_factsOnly record).evidenceOnly.quiet.trans
        (quiet_updateListing_keeps (by intro _; exact ⟨rfl, rfl⟩))).trans
          (insertEvent_evidenceOnly ids _ _).quiet

/-- The laundry part of a page leaves the ledger alone. -/
theorem PageLaundryStep.quiet (step : PageLaundryStep ids now listing facts db next) :
    Quiet db next := by
  cases step with
  | unstated _ => exact .refl db
  | disputed _ _ record =>
      exact (recordFact_factsOnly record).evidenceOnly.quiet.trans
        (raiseConflict_evidenceOnly ids _ _ _ _ _).quiet
  | written _ _ record =>
      exact (recordFact_factsOnly record).evidenceOnly.quiet.trans
        (quiet_updateListing_keeps (by intro _; exact ⟨rfl, rfl⟩))

theorem PageWrites.quiet (writes : PageWrites ids now reading db next) : Quiet db next := by
  exact ((((writes.execution.quiet.trans writes.rent.quiet).trans writes.laundry.quiet).trans
    (writes.fee.factsOnly.evidenceOnly.quiet.trans
      writes.amenities.factsOnly.evidenceOnly.quiet)).trans writes.floorPlan.quiet).trans
        writes.marker.factsOnly.evidenceOnly.quiet

/-- Both pipelines keep the ownership ledger valid. -/
theorem content_tracked_preserved :
    Preserved (contentStep library) (fun _ _ => True) (Tracked library.ids) := by
  intro db action tracked _
  refine contentStep_keeps (Tracked library.ids) tracked fun next performed => ?_
  rcases performContent_cases performed with
    ⟨_, _, _, _, _, _, processed⟩ | ⟨_, _, _, _, _, _, _, enriched⟩ | ⟨write, _, _, rfl⟩
  · exact tracked.moves (processObservation_grows processed tracked).moves
  · rcases enrich_cases enriched with ⟨rfl, _⟩ | ⟨_, _, ⟨writes⟩⟩
    · exact tracked
    · exact tracked.moves writes.quiet.refines
  · exact tracked.moves (writeOutside_quiet write db).refines

end Database

end RentalAgent
