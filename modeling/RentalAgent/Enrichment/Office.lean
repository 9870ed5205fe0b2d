import RentalAgent.Canonical.Permanence
import RentalAgent.Canonical.Sites
import RentalAgent.Enrichment.GeographicScope
import RentalAgent.Enrichment.Pipelines

/-! # The back office as one system

The services, geocoding, scope validation and the detail pages write one database. In
every order of their calls nothing is taken back (`Database.history_permanent`) and every
row refers to rows that are there (`Database.references_sound`).
-/

namespace RentalAgent

open Relational Transition

/-- What every call shares. -/
structure OfficeEnvironment extends LocationEnvironment where
  acceptsNetloc : List Char → Bool

def OfficeEnvironment.content (env : OfficeEnvironment) (scan : Uuid → Nat)
    (answers : PageAnswers) : ContentEnvironment :=
  ⟨⟨env.ids, env.unicode, scan⟩, answers, env.sha256, env.acceptsNetloc⟩

/-- The calls of the services, of geocoding and the boundary registry, and of the detail
pages. -/
inductive OfficeAction
  | location (action : LocationAction)
  | enrich (scan : Uuid → Nat) (now : Timestamp) (answers : PageAnswers)
      (canonicalListingId : Uuid) (force : Bool)

namespace Database

/-- One call as a transaction. -/
def office (env : OfficeEnvironment) (db : Database) : OfficeAction → Database
  | .location action => db.survey env.toLocationEnvironment action
  | .enrich scan now answers listingId force =>
      match db.enrich (env.content scan answers) now listingId force with
      | .ok (next, _) => next
      | .error _ => db

/-- The database after the calls, from the empty one. -/
abbrev worked (env : OfficeEnvironment) (actions : List OfficeAction) : Database :=
  run (office env) Database.empty actions

variable {ids : IdSupply} {env : OfficeEnvironment} {now : Timestamp}
  {db middle next : Database} {reading : PageReading} {listing : CanonicalListing}
  {facts : ListingPageFacts} {factKey : String}

/-! ## Detail pages -/

/-- The tables of the places. -/
abbrev places (db : Database) : List Address × List Building × List BuildingUnit :=
  (db.addresses, db.buildings, db.units)

/-- What a page does to the tables that it shares with the services. -/
structure PageStep (db next : Database) : Prop where
  persists : Persists db next
  undocketed : Undocketed db next
  places : next.places = db.places

theorem PageStep.refl (db : Database) : PageStep db db := ⟨.refl db, .refl db, rfl⟩

theorem PageStep.trans (first : PageStep db middle) (second : PageStep middle next) :
    PageStep db next :=
  ⟨first.persists.trans second.persists, first.undocketed.trans second.undocketed,
    second.places.trans first.places⟩

theorem PageStep.addresses (step : PageStep db next) : next.addresses = db.addresses :=
  congrArg Prod.fst step.places

theorem PageStep.listed (step : PageStep db next) {id : Uuid} (listed : db.HasListing id) :
    next.HasListing id :=
  step.persists.knows.listings id listed

/-- Storing a page touches none of the tables shared with the services. -/
theorem PagesOnly.pageStep (pages : PagesOnly db next) : PageStep db next := by
  have persists : ∀ {drawn executions assets associations}, Persists db { db with
      drawn := drawn
      modelExecutions := executions
      mediaAssets := assets
      mediaAssociations := associations } := by
    intro drawn executions assets associations
    constructor <;> exact .refl _
  refine ⟨?_, undocketed_of_same (by rw [pages.frame]) (by rw [pages.frame]), by rw [pages.frame]⟩
  rw [pages.frame]
  exact persists

theorem recordFact_pageStep {record : FactRecord} (about : record.entityType = .listing)
    (listed : db.HasListing record.entityId)
    (recorded : db.recordFact ids now record = .ok next) : PageStep db next := by
  have facts := recordFact_factsOnly recorded
  exact ⟨recordFact_persists about listed recorded, facts.undocketed, by rw [facts.frame]⟩

theorem raiseConflict_pageStep {override : HumanOverride} {entityId : Uuid} {factKey : String}
    {incoming : JsonScalar} (listed : db.HasListing entityId) :
    PageStep db (db.raiseConflictWithOverride ids override entityId factKey incoming) := by
  have evidence := raiseConflict_evidenceOnly ids override entityId factKey incoming db
  exact ⟨raiseConflict_persists listed, raiseConflict_undocketed _ _ _ _ _, by rw [evidence.frame]⟩

theorem updateListing_pageStep {id : Uuid} {change : CanonicalListing → CanonicalListing}
    (ages : ∀ listing : CanonicalListing, listing.Ages (change listing)) (db : Database) :
    PageStep db (db.updateListing id change) :=
  ⟨updateListing_persists ages db, undocketed_of_same rfl rfl, rfl⟩

theorem insertEvent_pageStep {event : Uuid → ListingEvent}
    (listed : ∀ id, db.HasListing (event id).canonicalListingId) :
    PageStep db (db.insertEvent ids event).1 := by
  have evidence := insertEvent_evidenceOnly ids event db
  exact ⟨insertEvent_persists listed, insertEvent_undocketed _ _, by rw [evidence.frame]⟩

/-- A corrected rent takes nothing back. -/
theorem PageRentStep.pageStep (listed : db.HasListing listing.canonicalListingId)
    (step : PageRentStep ids now listing facts db next) : PageStep db next := by
  cases step with
  | unstated _ | agrees _ _ => exact .refl db
  | disputed _ _ _ record =>
      have noted := recordFact_pageStep rfl listed record
      exact noted.trans (raiseConflict_pageStep (noted.listed listed))
  | written _ _ _ record _ =>
      rename_i usd recorded _ _ _ _
      have noted := recordFact_pageStep rfl listed record
      have priced := noted.trans (@updateListing_pageStep listing.canonicalListingId
        (CanonicalListing.reprice now (usd * 100)) (fun _ => ages_of_frame rfl) recorded)
      exact priced.trans (insertEvent_pageStep fun _ => priced.listed listed)

/-- A stated laundry takes nothing back. -/
theorem PageLaundryStep.pageStep (listed : db.HasListing listing.canonicalListingId)
    (step : PageLaundryStep ids now listing facts db next) : PageStep db next := by
  cases step with
  | unstated _ => exact .refl db
  | disputed _ _ record =>
      have noted := recordFact_pageStep rfl listed record
      exact noted.trans (raiseConflict_pageStep (noted.listed listed))
  | written _ _ record =>
      exact (recordFact_pageStep rfl listed record).trans
        (updateListing_pageStep (fun _ => ages_of_frame rfl) _)

/-- A side fact of a known listing is a step that a page may make. -/
theorem SideFact.pageStep {listingId : Uuid} (listed : db.HasListing listingId)
    (side : SideFact ids now listingId factKey db next) : PageStep db next := by
  cases side with
  | none => exact .refl db
  | recorded name record =>
      obtain ⟨about, entity, -⟩ := FactName.mk.inj name
      exact recordFact_pageStep about (entity ▸ listed) record

/-- What a page writes takes nothing back. -/
theorem PageWrites.pageStep (listed : db.HasListing reading.listing.canonicalListingId)
    (writes : PageWrites ids now reading db next) : PageStep db next := by
  have executed := writes.execution.pageStep
  have priced := executed.trans (writes.rent.pageStep (executed.listed listed))
  have washed := priced.trans (writes.laundry.pageStep (priced.listed listed))
  have charged := washed.trans (writes.fee.pageStep (washed.listed listed))
  have furnished := charged.trans (writes.amenities.pageStep (charged.listed listed))
  have planned := furnished.trans writes.floorPlan.pageStep
  exact planned.trans (writes.marker.pageStep (planned.listed listed))

/-! ## Geocoding and scope -/

/-- Requests of geocoders take nothing back. -/
theorem RequestsOnly.persists (requests : RequestsOnly db next) : Persists db next := by
  have same : ∀ {drawn sources providerRequests}, Persists db { db with
      drawn := drawn
      sources := sources
      providerRequests := providerRequests } := by
    intro drawn sources providerRequests
    constructor <;> exact .refl _
  rw [requests.frame]
  exact same

theorem updateAddress_persists {id : Uuid} {change : Address → Address}
    (ages : ∀ address : Address, address.Ages (change address)) (db : Database) :
    Persists db (db.updateAddress id change) := by
  constructor
  case addresses => exact accrues_updateWhere fun address _ _ => ages address
  all_goals exact .refl _

/-- Geocoding an address takes nothing back. -/
theorem geocodeAddress_persists (env : LocationEnvironment) (now : Timestamp)
    (geocoders : List Geocoder) (address : Address) (db : Database) :
    Persists db (db.geocodeAddress env now geocoders address).1 := by
  unfold geocodeAddress
  split
  · exact .refl db
  · rename_i line _
    have asked := askGeocoders_requestsOnly env now address (address.geocodeRequest line) geocoders
      db
    dsimp only
    split
    · exact (asked.trans (geocoderSource_requestsOnly env.ids _ _)).persists.trans
        (updateAddress_persists (by intro _; rfl) _)
    · exact asked.persists.trans (updateAddress_persists (by intro _; rfl) _)

/-- Geocoding the addresses that wait takes nothing back. -/
theorem geocodePending_persists (env : LocationEnvironment) (geocoders : List Geocoder)
    (scan : Uuid → Nat) (limit : Nat) (db : Database) :
    Persists db (db.geocodePending env now geocoders scan limit).1 := by
  refine persists_foldl Prod.fst ((db, {}) : Database × GeocodeRunSummary)
    fun address _ state _ => ?_
  rcases geocodeRound_writes env now geocoders state address with same | wrote
  · rw [same]
    exact .refl _
  · rw [wrote]
    exact geocodeAddress_persists env now geocoders address state.1

/-- Scope validation keeps what is permanent. -/
theorem validateBoundaries_persists (env : LocationEnvironment) (scan : ScopeRow → Nat)
    (limit : Nat) (db : Database) : Persists db (db.validateBoundaries env scan limit).1 := by
  unfold validateBoundaries
  split
  · exact .refl db
  · exact persists_foldl Prod.fst ((db, {}) : Database × ScopeRunSummary) fun _ _ state _ =>
      updateAddress_persists (by intro _; rfl) state.1

theorem upsertBoundary_persists (upload : BoundaryUpload) (db : Database) :
    Persists db (db.upsertBoundary ids upload).1 := by
  unfold upsertBoundary
  split
  · exact .refl db
  · constructor <;> exact .refl _

/-! ## Every call -/

/-- What the calls rely on: the ledger, the docket, and the keys of the addresses. -/
structure Filed (ids : IdSupply) (db : Database) : Prop where
  tracked : Tracked ids db
  docketed : Docketed ids db
  keyed : Keyed ids db.drawn Address.addressId db.addresses

theorem filed_empty (ids : IdSupply) : Filed ids Database.empty :=
  ⟨tracked_empty ids, docketed_empty ids, .nil⟩

/-- Addresses advance, and those that come are surveyed. -/
theorem Surveys.accrues (surveys : Surveys ids db next) :
    Accrues Address.Advances Address.Surveyed db.addresses next.addresses := by
  obtain ⟨change, more, wrote, advances, surveyed⟩ := surveys.addresses
  refine ⟨db.addresses.map change, more, ?_, wrote, surveyed⟩
  rw [List.forall₂_map_right_iff]
  exact List.forall₂_same.mpr advances

instance advances_aging : Aging Address.Advances Address.Surveyed where
  still := .refl
  chain earlier later := earlier.trans later
  stays advances := advances.surveyed

/-- What a call does: nothing is taken back, and addresses advance. -/
structure Works (ids : IdSupply) (db next : Database) : Prop where
  filed : Filed ids next
  persists : Persists db next
  advances : Accrues Address.Advances Address.Surveyed db.addresses next.addresses

theorem Filed.unchanged (filed : Filed ids db) : Works ids db db :=
  ⟨filed, .refl db, .refl _⟩

/-- An enrichment takes nothing back and leaves the addresses alone. -/
theorem enrich_works (filed : Filed env.ids db) {scan : Uuid → Nat} {answers : PageAnswers}
    {listingId : Uuid} {force : Bool} {outcome : EnrichmentOutcome}
    (enriched : db.enrich (env.content scan answers) now listingId force = .ok (next, outcome)) :
    Works env.ids db next := by
  rcases enrich_cases enriched with ⟨rfl, -⟩ | ⟨reading, read, ⟨writes⟩⟩
  · exact filed.unchanged
  · have quiet := writes.quiet
    have step := writes.pageStep (List.mem_map_of_mem (mem_of_get (readPage_listing read)))
    refine ⟨⟨filed.tracked.moves quiet.refines, filed.docketed.undocketed step.undocketed
      quiet.drawn, ?_⟩, step.persists, ?_⟩
    · rw [step.addresses]
      exact filed.keyed.mono quiet.drawn
    · rw [step.addresses]
      exact .refl _

/-- A call on locations takes nothing back, and addresses advance. -/
theorem survey_works (filed : Filed env.ids db) (action : LocationAction) :
    Works env.ids db (db.survey env.toLocationEnvironment action) := by
  have tracked := survey_tracked filed.tracked action
  have surveys := survey_surveys filed.tracked filed.keyed action
  have beside : (∀ call, action ≠ .service call) →
      Persists db (db.survey env.toLocationEnvironment action) →
        Works env.ids db (db.survey env.toLocationEnvironment action) := by
    intro other persists
    have location : LocationOnly db (db.survey env.toLocationEnvironment action) :=
      survey_locationOnly action other
    have undocketed : Undocketed db (db.survey env.toLocationEnvironment action) :=
      undocketed_of_same (by rw [location.frame]) (by rw [location.frame])
    exact ⟨⟨tracked, filed.docketed.undocketed undocketed location.drawn,
      surveys.keyed filed.keyed⟩, persists, surveys.accrues⟩
  cases action with
  | service call =>
      exact ⟨⟨tracked, (step_docketed filed.tracked filed.docketed call.grounded).1,
        surveys.keyed filed.keyed⟩, step_persists filed.tracked filed.docketed call.grounded,
        surveys.accrues⟩
  | geocodePending geocoders scan now limit =>
      exact beside (by simp) (geocodePending_persists _ geocoders scan limit db)
  | upsertBoundary upload => exact beside (by simp) (upsertBoundary_persists upload db)
  | validateBoundaries scan limit =>
      exact beside (by simp) (validateBoundaries_persists _ scan limit db)

/-- **Step lemma.** Every call keeps the books and takes nothing back. -/
theorem office_works (filed : Filed env.ids db) (action : OfficeAction) :
    Works env.ids db (db.office env action) := by
  cases action with
  | location action => exact survey_works filed action
  | enrich scan now answers listingId force =>
      unfold Database.office
      dsimp only
      split
      · rename_i enriched
        exact enrich_works filed enriched
      · exact filed.unchanged

/-- **Run lemma.** What happens from a state that keeps the books takes nothing back. -/
theorem run_works (filed : Filed env.ids db) (actions : List OfficeAction) :
    Works env.ids db (run (office env) db actions) := by
  induction actions generalizing db with
  | nil => exact filed.unchanged
  | cons action rest ih =>
      have first := office_works filed action
      have later := ih first.filed
      exact ⟨later.filed, first.persists.trans later.persists,
        first.advances.trans later.advances⟩

/-! ## Places -/

/-- A service keeps the listings sited, or writes no building and no unit. -/
theorem step_places {unicode : UnicodeTables} (tracked : Tracked ids db) (sited : Sited ids db)
    (action : ServiceAction) : Sited ids (db.step ids unicode action) ∨
      (db.step ids unicode action).buildings = db.buildings ∧
        (db.step ids unicode action).units = db.units ∧
          db.drawn ≤ (db.step ids unicode action).drawn := by
  have drawn : db.drawn ≤ (db.step ids unicode action).drawn := (step_moves tracked action).drawn
  cases performed : db.perform ids unicode action with
  | error failure =>
      have same : db.step ids unicode action = db := by
        unfold step
        rw [performed]
      rw [same]
      exact .inl sited
  | ok next =>
      have done : db.step ids unicode action = next := by
        unfold step
        rw [performed]
      rw [done] at drawn ⊢
      by_cases observes : ∃ scan now method observationId,
          action = .processObservation scan now method observationId
      · obtain ⟨scan, now, method, observationId, rfl⟩ := observes
        cases perform_performs performed with
        | processObservation processed =>
            obtain ⟨row, -, processes⟩ := processObservation_processes processed
            cases processes with
            | aside _ same =>
                cases same
                exact .inl sited
            | opened _ _ created => exact .inl (createCanonical_housed sited tracked created).sited
            | continued _ _ updated =>
                obtain ⟨listing, _, update⟩ := updateExisting_cases updated
                have frame := update.inventoryOnly.frame
                exact .inr ⟨by rw [frame], by rw [frame], drawn⟩
      · push Not at observes
        by_cases called : ∃ write, action = .outside write
        · obtain ⟨write, rfl⟩ := called
          cases performed
          exact .inr ⟨rfl, rfl, drawn⟩
        · push Not at called
          have frame := (perform_ledgerOnly performed observes called).frame
          exact .inr ⟨by rw [frame], by rw [frame], drawn⟩

/-- A call for a new identity opens places; the others leave the buildings and the units. -/
theorem office_places (filed : Filed env.ids db) (sited : Sited env.ids db)
    (action : OfficeAction) : Sited env.ids (db.office env action) ∨
      (db.office env action).buildings = db.buildings ∧
        (db.office env action).units = db.units ∧ db.drawn ≤ (db.office env action).drawn := by
  cases action with
  | enrich scan now answers listingId force =>
      unfold Database.office
      dsimp only
      split
      · rename_i enriched
        rcases enrich_cases enriched with ⟨rfl, -⟩ | ⟨reading, read, ⟨writes⟩⟩
        · exact .inl sited
        · have step := writes.pageStep (List.mem_map_of_mem (mem_of_get (readPage_listing read)))
          have places := congrArg Prod.snd step.places
          exact .inr ⟨congrArg Prod.fst places, congrArg Prod.snd places, writes.quiet.drawn⟩
      · exact .inl sited
  | location action =>
      by_cases service : ∃ call, action = .service call
      · obtain ⟨call, rfl⟩ := service
        exact step_places filed.tracked sited call.grounded
      · push Not at service
        have location : LocationOnly db (db.survey env.toLocationEnvironment action) :=
          survey_locationOnly action service
        refine .inr ⟨?_, ?_, location.drawn⟩
        · change (db.survey env.toLocationEnvironment action).buildings = _
          rw [location.frame]
        · change (db.survey env.toLocationEnvironment action).units = _
          rw [location.frame]

/-- The places of every state that the office reaches refer to each other. -/
theorem sited_worked (env : OfficeEnvironment) (actions : List OfficeAction) :
    Sited env.ids (worked env actions) := by
  induction actions using List.reverseRecOn with
  | nil => exact sited_empty env.ids [] []
  | append_singleton actions action sited =>
      have before : Filed env.ids (worked env actions) :=
        (run_works (filed_empty env.ids) actions).filed
      have works : Works env.ids Database.empty (worked env (actions ++ [action])) :=
        run_works (filed_empty env.ids) (actions ++ [action])
      have last : worked env (actions ++ [action]) = office env (worked env actions) action := by
        rw [worked, run_append]
        rfl
      rw [last] at works ⊢
      rcases office_places before sited action with done | ⟨buildings, units, drawn⟩
      · exact done
      · have listings := works.persists.listings.forall_mem (by simp [Database.empty])
        have lots := works.persists.buildings.forall_mem (by simp [Database.empty])
        refine ⟨works.filed.keyed, buildings ▸ sited.buildings.mono drawn,
          units ▸ sited.units.mono drawn, lots, fun seat member => ?_, fun seat member => ?_⟩
        · obtain ⟨listing, inside, rfl⟩ := List.mem_map.mp member
          obtain ⟨building, stands, same⟩ := (listings listing inside).building
          exact List.mem_map.mpr ⟨building, stands, same⟩
        · obtain ⟨listing, inside, rfl⟩ := List.mem_map.mp member
          exact (listings listing inside).unit

/-! ## The history of the office -/

/-- **Permanence.** Between any two states of a run of the back office, no row of the
inventory, of its evidence or of its journals is lost. Buildings, units, events, assertions
and audit entries are never written again; addresses, listings and links keep the columns
that identify them, and their sightings and points do not move back; a reversal, a verdict,
a closed issue and a superseded resolution stand. -/
theorem history_permanent (env : OfficeEnvironment) (earlier later : List OfficeAction) :
    let before := worked env earlier
    let after := worked env (earlier ++ later)
    (before.buildings <+: after.buildings ∧ before.units <+: after.units ∧
      before.events <+: after.events ∧ before.assertions <+: after.assertions ∧
        before.auditLog <+: after.auditLog) ∧
    (∀ row ∈ before.addresses, ∃ new ∈ after.addresses, row.Ages new ∧ row.Advances new) ∧
    (∀ row ∈ before.listings, ∃ new ∈ after.listings, row.Ages new) ∧
    (∀ row ∈ before.links, ∃ new ∈ after.links, row.Ages new) ∧
    (∀ row ∈ before.merges, ∃ new ∈ after.merges, CanonicalMerge.Ages row new) ∧
    (∀ row ∈ before.duplicateCandidates, ∃ new ∈ after.duplicateCandidates,
      DuplicateCandidate.Ages row new) ∧
    (∀ row ∈ before.reviewIssues, ∃ new ∈ after.reviewIssues, ReviewIssue.Ages row new) ∧
    ∀ row ∈ before.resolutions, ∃ new ∈ after.resolutions, FactResolution.Ages row new := by
  intro before after
  have filed : Filed env.ids before := (run_works (filed_empty env.ids) earlier).filed
  have works : Works env.ids before after := by
    have rest := run_works filed later
    rwa [← run_append] at rest
  have persists := works.persists
  exact ⟨⟨persists.buildings.isPrefix, persists.units.isPrefix, persists.events.isPrefix,
    persists.assertions.isPrefix, persists.auditLog.isPrefix⟩,
    fun _ => (persists.addresses.and works.advances).exists_of_mem,
    fun _ => persists.listings.exists_of_mem, fun _ => persists.links.exists_of_mem,
    fun _ => persists.merges.exists_of_mem, fun _ => persists.candidates.exists_of_mem,
    fun _ => persists.issues.exists_of_mem, fun _ => persists.resolutions.exists_of_mem⟩

/-- **Referential integrity.** In every state that the back office reaches, every row refers
to rows that are there: a building to its address, a unit to its building, a listing to its
building and to a unit of that building, a link, an event, an assertion and an audit entry to
a listing, a merge and a candidate to two different ones, a resolution to an assertion of its
fact. Sightings are in order, and what is inactive or closed is dated. -/
theorem references_sound (env : OfficeEnvironment) (actions : List OfficeAction) :
    let db := worked env actions
    (∀ row ∈ db.buildings, row.Sound db) ∧ (∀ row ∈ db.units, row.Sound db) ∧
    (∀ row ∈ db.listings, row.Sound db) ∧
    (∀ row ∈ db.links, row.Sound ∧ db.HasListing row.canonicalListingId) ∧
    (∀ row ∈ db.merges, row.Sound db) ∧ (∀ row ∈ db.duplicateCandidates, row.Sound db) ∧
    (∀ row ∈ db.reviewIssues, row.Sound db) ∧ (∀ row ∈ db.events, row.Sound db) ∧
    (∀ row ∈ db.assertions, row.Sound db) ∧ (∀ row ∈ db.resolutions, row.Sound db) ∧
    ∀ row ∈ db.auditLog, row.Sound db := by
  intro db
  have none : ∀ {Row : Type} {sound : Row → Prop}, ∀ row ∈ ([] : List Row), sound row := by simp
  obtain ⟨filed, persists, -⟩ := run_works (filed_empty env.ids) actions
  exact ⟨persists.buildings.forall_mem none,
    persists.units.forall_mem none,
    persists.listings.forall_mem none,
    fun row member => ⟨persists.links.forall_mem none row member,
      List.mem_map.mpr (filed.tracked.owner member)⟩,
    persists.merges.forall_mem none,
    persists.candidates.forall_mem none,
    persists.issues.forall_mem none,
    persists.events.forall_mem none,
    persists.assertions.forall_mem none,
    persists.resolutions.forall_mem none,
    persists.auditLog.forall_mem none⟩

end Database

end RentalAgent
