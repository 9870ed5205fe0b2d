import RentalAgent.Canonical.Presence

/-! # The standing of listings and links

What the lifecycle rules read of a listing and of a link. Normalization only starts
candidates and active links, a merge marks its source, and a reversal sends it to review;
no call of a service touches the tables of acquisition (`Database.ServiceOnly`).
-/

namespace RentalAgent

open Relational Transition

/-- The columns of a listing that its lifecycle depends on. -/
structure Standing where
  listingId : Uuid
  buildingId : Uuid
  layoutClass : LayoutClass
  canonicalResolutionStatus : CanonicalResolutionStatus
  lifecycleStatus : LifecycleStatus
  deriving DecidableEq

/-- The columns of a link that its status depends on. -/
structure LinkStanding where
  linkId : Uuid
  sourceId : Uuid
  discoveryMethod : DiscoveryMethod
  linkStatus : LinkStatus
  deriving DecidableEq

def CanonicalListing.standing (listing : CanonicalListing) : Standing where
  listingId := listing.canonicalListingId
  buildingId := listing.buildingId
  layoutClass := listing.layoutClass
  canonicalResolutionStatus := listing.canonicalResolutionStatus
  lifecycleStatus := listing.lifecycleStatus

def ListingSourceLink.standing (link : ListingSourceLink) : LinkStanding where
  linkId := link.listingSourceLinkId
  sourceId := link.sourceId
  discoveryMethod := link.discoveryMethod
  linkStatus := link.linkStatus

/-- The standing of a listing after the lifecycle of one listing was written. -/
def Standing.settle (id : Uuid) (status : LifecycleStatus) (standing : Standing) : Standing :=
  if standing.listingId = id then { standing with lifecycleStatus := status } else standing

namespace Database

def standings (db : Database) : List Standing := db.listings.map CanonicalListing.standing

def linkStandings (db : Database) : List LinkStanding := db.links.map ListingSourceLink.standing

variable {env : Environment} {ids : IdSupply} {unicode : UnicodeTables} {now : Timestamp}
  {db middle next : Database} {row : SourceObservation} {observation : ParsedSourceObservation}
  {method : DiscoveryMethod} {outcome : NormalizationOutcome}

theorem mem_standings {standing : Standing} :
    standing ∈ db.standings ↔ ∃ listing ∈ db.listings, listing.standing = standing :=
  List.mem_map

theorem standings_congr (same : next.listings = db.listings) : next.standings = db.standings :=
  congrArg (List.map CanonicalListing.standing) same

theorem linkStandings_congr (same : next.links = db.links) :
    next.linkStandings = db.linkStandings :=
  congrArg (List.map ListingSourceLink.standing) same

/-- Columns beside the standing. -/
theorem updateListing_standings {id : Uuid} {change : CanonicalListing → CanonicalListing}
    (keeps : ∀ listing, (change listing).standing = listing.standing) :
    (db.updateListing id change).standings = db.standings :=
  map_updateWhere _ fun listing _ _ => keeps listing

/-- The lifecycle of one listing. -/
theorem updateListing_settles {id : Uuid} {status : LifecycleStatus}
    {change : CanonicalListing → CanonicalListing}
    (sets : ∀ listing, (change listing).standing =
      { listing.standing with lifecycleStatus := status }) :
    (db.updateListing id change).standings = db.standings.map (Standing.settle id status) := by
  simp only [standings, updateListing, updateWhere, List.map_map]
  apply List.map_congr_left
  intro listing _
  by_cases same : listing.canonicalListingId = id
  · have settled : listing.standing.listingId = id := same
    simp [same, sets, Standing.settle, settled]
  · have other : listing.standing.listingId ≠ id := same
    simp [same, Standing.settle, other]

theorem insertEvent_standings (event : Uuid → ListingEvent) (db : Database) :
    (db.insertEvent ids event).1.standings = db.standings :=
  standings_congr (insertEvent_evidenceOnly ids event db).listings

/-! ## Normalization -/

theorem touchFreshness_standings (link : ListingSourceLink) (listing : CanonicalListing)
    (row : SourceObservation) (db : Database) :
    (db.touchFreshness link listing row).standings = db.standings := by
  rw [standings_congr (touchFreshness_listings link listing row db)]
  exact updateListing_standings fun _ => by rfl

/-- An update of a known identity leaves the standings of the listings alone. -/
theorem Update.standings {link : ListingSourceLink} {listing : CanonicalListing}
    (update : Update env row observation link listing db next) :
    next.standings = db.standings := by
  exact update.within (composes_of_column Database.standings)
    (touchFreshness_standings link listing row db)
    (fun facts => standings_congr facts.evidenceOnly.listings)
    (fun _ _ _ _ => standings_congr (raiseConflict_evidenceOnly ..).listings)
    (fun _ _ _ _ _ => standings_congr (emitEvent_evidenceOnly ..).listings)
    fun write fields _ => updateListing_standings fun listing => by rw [fields]; rfl

/-- An update of a known identity leaves the standings of the links alone. -/
theorem Update.linkStandings {link : ListingSourceLink} {listing : CanonicalListing}
    (update : Update env row observation link listing db next) :
    next.linkStandings = db.linkStandings := by
  unfold Database.linkStandings
  rw [update.links]
  split
  · rfl
  · rw [List.map_map]
    apply List.map_congr_left
    intro other _
    change (touchLink link row other).standing = other.standing
    unfold touchLink
    split <;> rfl

/-- Normalization starts at most one listing, a candidate with the layout that the observation
proposes. -/
theorem processObservation_starts {observationId : Uuid}
    (processed : db.processObservation env now method observationId = .ok (next, outcome)) :
    ∃ started : List Standing, next.standings = db.standings ++ started ∧
      ∀ standing ∈ started, standing.lifecycleStatus = .candidate ∧
        ∃ row, db.observation? observationId = some row ∧
          standing.layoutClass = row.parsedPayload.layout.proposedLayoutClass := by
  obtain ⟨row, found, processes⟩ := processObservation_processes processed
  cases processes with
  | aside _ same => exact ⟨[], same ▸ (List.append_nil _).symm, by simp⟩
  | continued _ _ updated =>
      obtain ⟨listing, _, update⟩ := updateExisting_cases updated
      exact ⟨[], by rw [update.standings, List.append_nil], by simp⟩
  | opened _ _ created =>
      obtain ⟨place, building, unitMatch, resolved, ends⟩ := createCanonical_ends created
      rw [← standings_congr (resolvePlace_placeOnly resolved).listings]
      rcases ends with ⟨listing, identity, confidence, attached⟩ | ⟨unitId, began⟩
      · cases attached
        exact ⟨[], (updateListing_standings fun _ => by rfl).trans
          (List.append_nil _).symm, by simp⟩
      · refine ⟨[(newListing row row.parsedPayload (env.ids.uuid place.drawn)
          building.buildingId unitId).standing], ?_, ?_⟩
        · rw [standings_congr (startListing_evidenceOnly began).listings]
          exact List.map_append
        · intro standing member
          rw [List.mem_singleton.mp member]
          exact ⟨rfl, row, found, rfl⟩

/-- Normalization starts at most one listing, as a candidate. -/
theorem processObservation_standings {observationId : Uuid}
    (processed : db.processObservation env now method observationId = .ok (next, outcome)) :
    ∃ started : List Standing, next.standings = db.standings ++ started ∧
      ∀ standing ∈ started, standing.lifecycleStatus = .candidate := by
  obtain ⟨started, same, starts⟩ := processObservation_starts processed
  exact ⟨started, same, fun standing member => (starts standing member).1⟩

/-- Normalization adds at most one link, as an active one. -/
theorem processObservation_linkStandings {observationId : Uuid}
    (processed : db.processObservation env now method observationId = .ok (next, outcome)) :
    ∃ added : List LinkStanding, next.linkStandings = db.linkStandings ++ added ∧
      ∀ standing ∈ added, standing.linkStatus = .active := by
  obtain ⟨row, -, processes⟩ := processObservation_processes processed
  cases processes with
  | aside _ same => exact ⟨[], same ▸ (List.append_nil _).symm, by simp⟩
  | continued _ _ updated =>
      obtain ⟨listing, _, update⟩ := updateExisting_cases updated
      exact ⟨[], by rw [update.linkStandings, List.append_nil], by simp⟩
  | opened _ _ created =>
      obtain ⟨id, listingId, identity, confidence, links, _⟩ := createCanonical_link created
      refine ⟨[(newLink row method id listingId identity confidence).standing], ?_, ?_⟩
      · rw [linkStandings, links, List.map_append]
        rfl
      · simp [ListingSourceLink.standing, newLink]

/-! ## Merges, admission and inactivation -/

/-- A merge settles its source as merged. -/
theorem applyMerge_standings (ids : IdSupply) (now : Timestamp) (request : MergeRequest)
    (source : CanonicalListing) (db : Database) :
    (db.applyMerge ids now request source).1.standings =
      db.standings.map (Standing.settle request.sourceListingId .merged) := by
  unfold applyMerge
  dsimp only
  rw [insertEvent_standings, updateListing_standings fun _ => by rfl,
    updateListing_settles fun _ => by rfl]
  rfl

/-- A merge gives links to its target and leaves their standing. -/
theorem applyMerge_linkStandings (ids : IdSupply) (now : Timestamp) (request : MergeRequest)
    (source : CanonicalListing) (db : Database) :
    (db.applyMerge ids now request source).1.linkStandings = db.linkStandings := by
  unfold applyMerge
  dsimp only
  rw [linkStandings_congr (insertEvent_links _ _)]
  exact map_updateWhere _ fun _ _ _ => rfl

/-- A reversal sends its source back to review. -/
theorem applyReversal_standings (ids : IdSupply) (now : Timestamp) (merge : CanonicalMerge)
    (actor : String) (actorType : ActorType) (reason : String) (db : Database) :
    (db.applyReversal ids now merge actor actorType reason).standings =
      db.standings.map (Standing.settle merge.sourceListingId .reviewRequired) := by
  unfold applyReversal
  dsimp only
  rw [updateListing_settles fun _ => by rfl]
  rfl

theorem applyReversal_linkStandings (ids : IdSupply) (now : Timestamp) (merge : CanonicalMerge)
    (actor : String) (actorType : ActorType) (reason : String) (db : Database) :
    (db.applyReversal ids now merge actor actorType reason).linkStandings = db.linkStandings :=
  map_updateWhere _ fun _ _ _ => rfl

theorem settle_standings (listing : CanonicalListing) (status : LifecycleStatus)
    (eventType : ListingEventType) (reason : JsonScalar) (db : Database) :
    (db.settle ids now listing status eventType reason).standings =
      db.standings.map (Standing.settle listing.canonicalListingId status) := by
  rw [settle, insertEvent_standings]
  exact updateListing_settles fun _ => by rfl

/-! ## What the services leave alone -/

/-- The step wrote none of the tables of acquisition, and no override. -/
structure ServiceOnly (db next : Database) : Prop where
  queue : next.queue = db.queue
  sources : next.sources = db.sources
  refreshRuns : next.refreshRuns = db.refreshRuns
  sourceRuns : next.sourceRuns = db.sourceRuns
  checkpoints : next.checkpoints = db.checkpoints
  observations : next.observations = db.observations
  overrides : next.overrides = db.overrides

theorem CanonicalOnly.serviceOnly (canonical : CanonicalOnly db next) : ServiceOnly db next := by
  rw [canonical.frame]
  exact ⟨rfl, rfl, rfl, rfl, rfl, rfl, rfl⟩

/-- The step wrote inventory, merges and evidence only, and no place. -/
structure LedgerOnly (db next : Database) : Prop where
  frame : next = { db with
    drawn := next.drawn
    listings := next.listings
    links := next.links
    merges := next.merges
    duplicateCandidates := next.duplicateCandidates
    reviewIssues := next.reviewIssues
    events := next.events
    assertions := next.assertions
    resolutions := next.resolutions
    auditLog := next.auditLog }

theorem LedgerOnly.refl (db : Database) : LedgerOnly db db := ⟨rfl⟩

theorem LedgerOnly.trans (first : LedgerOnly db middle) (second : LedgerOnly middle next) :
    LedgerOnly db next :=
  ⟨by rw [second.frame, first.frame]⟩

theorem ledgerOnly_composes : Composes LedgerOnly := ⟨.refl, .trans⟩

theorem LedgerOnly.serviceOnly (ledger : LedgerOnly db next) : ServiceOnly db next := by
  rw [ledger.frame]
  exact ⟨rfl, rfl, rfl, rfl, rfl, rfl, rfl⟩

theorem LedgerOnly.addresses (ledger : LedgerOnly db next) : next.addresses = db.addresses := by
  rw [ledger.frame]

theorem LedgerOnly.buildings (ledger : LedgerOnly db next) : next.buildings = db.buildings := by
  rw [ledger.frame]

theorem LedgerOnly.boundaries (ledger : LedgerOnly db next) : next.boundaries = db.boundaries := by
  rw [ledger.frame]

/-- The step wrote links and events only. -/
structure LinksOnly (db next : Database) : Prop where
  frame : next = { db with
    drawn := next.drawn
    links := next.links
    events := next.events }

theorem linksOnly_composes : Composes LinksOnly :=
  ⟨fun _ => ⟨rfl⟩, fun first second => ⟨by rw [second.frame, first.frame]⟩⟩

theorem EventsOnly.linksOnly (events : EventsOnly db next) : LinksOnly db next :=
  ⟨by rw [events.frame]⟩

theorem LinksOnly.ledgerOnly (links : LinksOnly db next) : LedgerOnly db next :=
  ⟨by rw [links.frame]⟩

theorem InventoryOnly.ledgerOnly (inventory : InventoryOnly db next) : LedgerOnly db next :=
  ⟨by rw [inventory.frame]⟩

theorem insertEvent_ledgerOnly (event : Uuid → ListingEvent) (db : Database) :
    LedgerOnly db (db.insertEvent ids event).1 :=
  (insertEvent_evidenceOnly ids event db).inventoryOnly.ledgerOnly

/-- A merge writes no place. -/
theorem mergeListings_ledgerOnly {request : MergeRequest} {merge : CanonicalMerge}
    (merged : db.mergeListings ids now request = .ok (next, merge)) : LedgerOnly db next := by
  obtain ⟨_, source, _, _, _, _, _, wrote⟩ := mergeListings_eq_ok merged
  obtain rfl := congrArg Prod.fst wrote
  unfold applyMerge
  dsimp only
  refine LedgerOnly.trans ?_ (insertEvent_ledgerOnly _ _)
  exact ⟨rfl⟩

/-- A verdict about a listing writes no place. -/
theorem evaluateOne_ledgerOnly (listing : CanonicalListing) (address : Address) (db : Database) :
    LedgerOnly db (db.evaluateOne ids now listing address).1 := by
  have settled : ∀ status eventType reason,
      LedgerOnly db (db.settle ids now listing status eventType reason) := by
    intro status eventType reason
    unfold settle
    exact (updateListing_inventoryOnly _ _ db).ledgerOnly.trans (insertEvent_ledgerOnly _ _)
  unfold evaluateOne
  repeat' split
  all_goals first | exact .refl db | exact settled _ _ _

theorem evaluateCandidates_ledgerOnly (scan : Uuid → Nat) (limit : Nat) (db : Database) :
    LedgerOnly db (db.evaluateCandidates ids now scan limit).1 := by
  refine ledgerOnly_composes.foldl Prod.fst (fun state row => ?_) _
    ((db, []) : Database × List AdmissionOutcome)
  exact evaluateOne_ledgerOnly row.1 row.2 state.1

/-- A round of the link loop writes its link and an event only. -/
theorem processLink_linksOnly (run : SourceRun) (observed : ListingSourceLink → Bool)
    (state : Database × DisappearanceSummary) (link : ListingSourceLink) :
    LinksOnly state.1 (processLink ids now run observed state link).1 := by
  have written : ∀ status, LinksOnly state.1 (state.1.setLinkStatus link status) :=
    fun _ => ⟨rfl⟩
  unfold processLink
  dsimp only
  repeat' split
  all_goals first
    | exact linksOnly_composes.refl _
    | exact written _
    | exact linksOnly_composes.trans (written _) (insertEvent_eventsOnly ..).linksOnly

theorem processLinks_linksOnly (run : SourceRun) (observed : ListingSourceLink → Bool)
    (links : List ListingSourceLink) (state : Database × DisappearanceSummary) :
    LinksOnly state.1 (links.foldl (processLink ids now run observed) state).1 :=
  linksOnly_composes.foldl Prod.fst (processLink_linksOnly run observed) links state

/-- Inactivations write no place. -/
theorem inactivateUnsupported_ledgerOnly (state : Database × DisappearanceSummary) :
    LedgerOnly state.1 (inactivateUnsupported ids now state).1 := by
  unfold inactivateUnsupported
  dsimp only
  split
  · exact .refl state.1
  · split
    · exact ⟨rfl⟩
    · refine ledgerOnly_composes.foldl id (fun db listing => ?_) _ state.1
      unfold id inactivate
      exact (updateListing_inventoryOnly _ _ db).ledgerOnly.trans (insertEvent_ledgerOnly _ _)

/-- Looking for what has disappeared writes no place. -/
theorem processSourceRun_ledgerOnly {sourceRunId : Uuid} {summary : DisappearanceSummary}
    (processed : db.processSourceRun ids now sourceRunId = .ok (next, summary)) :
    LedgerOnly db next := by
  obtain ⟨run, -, ⟨-, rfl⟩ | ⟨-, rfl⟩⟩ := processSourceRun_eq_ok processed
  · exact .refl _
  · refine LedgerOnly.trans ?_ (inactivateUnsupported_ledgerOnly _)
    exact (processLinks_linksOnly _ _ _ (db, {})).ledgerOnly

/-- Only normalization writes places. -/
theorem perform_ledgerOnly {action : ServiceAction}
    (performed : db.perform ids unicode action = .ok next)
    (observes : ∀ scan now method observationId,
      action ≠ .processObservation scan now method observationId)
    (called : ∀ write, action ≠ .outside write) : LedgerOnly db next := by
  cases perform_performs performed with
  | processObservation processed => exact (observes _ _ _ _ rfl).elim
  | mergeListings merged => exact mergeListings_ledgerOnly merged
  | reverseMerge reversed =>
      obtain ⟨_, merge, _, _, rfl⟩ := reverseMerge_eq_ok reversed
      exact ⟨rfl⟩
  | resolveDuplicateCandidate resolved =>
      obtain rfl | ⟨request, middle, merge, merged, rfl⟩ :=
        resolveDuplicateCandidate_eq_ok resolved
      · exact ⟨rfl⟩
      · exact (mergeListings_ledgerOnly merged).trans ⟨rfl⟩
  | evaluateCandidates scan now limit => exact evaluateCandidates_ledgerOnly scan limit db
  | processSourceRun processed => exact processSourceRun_ledgerOnly processed
  | outside write => exact (called write rfl).elim

/-- No call of a service writes the tables of acquisition. -/
theorem step_serviceOnly (action : ServiceAction) (called : ∀ write, action ≠ .outside write) :
    ServiceOnly db (db.step ids unicode action) := by
  unfold step
  cases performed : db.perform ids unicode action with
  | error failure => exact (LedgerOnly.refl db).serviceOnly
  | ok next =>
      dsimp only
      by_cases observes : ∃ scan now method observationId,
          action = .processObservation scan now method observationId
      · obtain ⟨scan, now, method, observationId, rfl⟩ := observes
        cases perform_performs performed with
        | processObservation processed =>
            exact (processObservation_canonicalOnly processed).serviceOnly
      · push Not at observes
        exact (perform_ledgerOnly performed observes called).serviceOnly

/-! ## Links beside the source runs -/

/-- A verdict about a listing leaves the links alone. -/
theorem evaluateOne_links (listing : CanonicalListing) (address : Address) (db : Database) :
    (db.evaluateOne ids now listing address).1.links = db.links := by
  have settled : ∀ status eventType reason,
      (db.settle ids now listing status eventType reason).links = db.links :=
    fun _ _ _ => insertEvent_links _ _
  unfold evaluateOne
  repeat' split
  all_goals first | rfl | exact settled _ _ _

theorem evaluateCandidates_links (scan : Uuid → Nat) (limit : Nat) (db : Database) :
    (db.evaluateCandidates ids now scan limit).1.links = db.links := by
  -- every round keeps the links of the database it is handed
  refine List.foldlRecOn (motive := fun state : Database × List AdmissionOutcome =>
    state.1.links = db.links) _ _ rfl ?_
  exact fun state held row _ => (evaluateOne_links row.1 row.2 state.1).trans held

/-- The step wrote the status of no link, and the links it added are active. -/
def LinksStand (db next : Database) : Prop :=
  ∃ added : List LinkStanding, next.linkStandings = db.linkStandings ++ added ∧
    ∀ standing ∈ added, standing.linkStatus = .active

theorem linksStand_of_links (same : next.links = db.links) : LinksStand db next :=
  ⟨[], by rw [linkStandings_congr same, List.append_nil], by simp⟩

/-- Only the processing of a source run writes the status of a link. -/
theorem step_linksStand (action : ServiceAction)
    (away : ∀ now sourceRunId, action ≠ .processSourceRun now sourceRunId) :
    LinksStand db (db.step ids unicode action) := by
  have merges : ∀ {request : MergeRequest} {next : Database} {merge : CanonicalMerge} {now},
      db.mergeListings ids now request = .ok (next, merge) →
        next.linkStandings = db.linkStandings := by
    intro request next merge now merged
    obtain ⟨_, source, _, _, _, _, _, wrote⟩ := mergeListings_eq_ok merged
    have kept := applyMerge_linkStandings ids now request source db
    rwa [wrote] at kept
  unfold step
  cases performed : db.perform ids unicode action with
  | error failure => exact linksStand_of_links rfl
  | ok next =>
      dsimp only
      cases perform_performs performed with
      | processObservation processed => exact processObservation_linkStandings processed
      | mergeListings merged => exact ⟨[], by rw [merges merged, List.append_nil], by simp⟩
      | reverseMerge reversed =>
          obtain ⟨_, merge, _, _, rfl⟩ := reverseMerge_eq_ok reversed
          exact ⟨[], by rw [applyReversal_linkStandings, List.append_nil], by simp⟩
      | resolveDuplicateCandidate resolved =>
          obtain rfl | ⟨request, middle, merge, merged, rfl⟩ :=
            resolveDuplicateCandidate_eq_ok resolved
          · exact linksStand_of_links rfl
          · exact ⟨[], (merges merged).trans (List.append_nil _).symm, by simp⟩
      | evaluateCandidates scan now limit =>
          exact linksStand_of_links (evaluateCandidates_links scan limit db)
      | processSourceRun _ => exact (away _ _ rfl).elim
      | outside write => exact linksStand_of_links rfl

end Database

end RentalAgent
