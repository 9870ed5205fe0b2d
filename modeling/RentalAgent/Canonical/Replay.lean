import RentalAgent.Canonical.Order

/-! # Replaying an observation

Processing an observation again is harmless when it is the latest one of its link.
Otherwise its freshness, its facts and its fields are written once more, whatever
was processed since: nothing changes just when the observation is older than the
link and has the latest content or states nothing (`Database.replay_idempotent_iff`).
-/

namespace RentalAgent

open Relational Transition

/-- The observation states none of the recorded facts. -/
def ParsedSourceObservation.Silent (observation : ParsedSourceObservation) : Prop :=
  observation.statedRent = none ∧ observation.statedLayout = none ∧
    observation.statedLaundry = none ∧ observation.statedAvailability = none

instance : DecidablePred ParsedSourceObservation.Silent := fun _ =>
  inferInstanceAs (Decidable (_ ∧ _))

namespace Database

variable {ids : IdSupply} {unicode : UnicodeTables} {env : Environment} {now : Timestamp}
  {db middle next : Database} {row : SourceObservation} {observation : ParsedSourceObservation}
  {link : ListingSourceLink} {listing : CanonicalListing} {method : DiscoveryMethod}
  {outcome : NormalizationOutcome}

/-- The inventory, its facts, its events and its proposals are as before. -/
structure Unchanged (db next : Database) : Prop where
  listings : next.listings = db.listings
  links : next.links = db.links
  assertions : next.assertions = db.assertions
  resolutions : next.resolutions = db.resolutions
  events : next.events = db.events
  duplicateCandidates : next.duplicateCandidates = db.duplicateCandidates
  reviewIssues : next.reviewIssues = db.reviewIssues

theorem Unchanged.refl (db : Database) : Unchanged db db := ⟨rfl, rfl, rfl, rfl, rfl, rfl, rfl⟩

/-- Processing the row leaves its link's freshness alone, and it has the latest
content or states nothing. -/
def NothingNew (db : Database) (row : SourceObservation) (link : ListingSourceLink) : Prop :=
  link.latestObservationId = row.sourceObservationId ∨
    row.observedAt < link.lastSeenAt ∧ (db.sameContent link row = true ∨ row.parsedPayload.Silent)

/-! ## Listings are at least as fresh as their links -/

/-- The ids of the listings with their freshness. -/
def freshness (db : Database) : List (Uuid × Timestamp) :=
  db.listings.map fun listing => (listing.canonicalListingId, listing.lastSeenAt)

/-- No link is fresher than its listing. -/
def ListingsFresh (db : Database) : Prop :=
  ∀ link ∈ db.links, ∀ entry ∈ db.freshness, entry.1 = link.canonicalListingId →
    link.lastSeenAt ≤ entry.2

/-- The freshness of the listing after one more observation. -/
def bump (listingId : Uuid) (time : Timestamp) (entry : Uuid × Timestamp) : Uuid × Timestamp :=
  if entry.1 = listingId then (entry.1, max entry.2 time) else entry

theorem freshness_congr (same : next.listings = db.listings) : next.freshness = db.freshness := by
  rw [freshness, same, freshness]

theorem freshness_updateListing {id : Uuid} {change : CanonicalListing → CanonicalListing}
    (keeps : ∀ listing, (change listing).canonicalListingId = listing.canonicalListingId ∧
      (change listing).lastSeenAt = listing.lastSeenAt) :
    (db.updateListing id change).freshness = db.freshness :=
  map_updateWhere _ fun listing _ _ => Prod.ext (keeps listing).1 (keeps listing).2

/-- Touching a time leaves the rest of the freshness alone. -/
theorem freshness_touch (id : Uuid) (time : Timestamp) (db : Database) :
    (db.updateListing id fun listing => { listing with
      lastSeenAt := max listing.lastSeenAt time }).freshness = db.freshness.map (bump id time) := by
  unfold freshness updateListing updateWhere
  rw [List.map_map, List.map_map]
  apply List.map_congr_left
  intro listing _
  by_cases same : listing.canonicalListingId = id <;> simp [bump, same]

/-- A field update leaves the freshness of the listings alone. -/
theorem applyField_freshness {factKey : String} {eventType : ListingEventType}
    {stated : Option JsonScalar} {current : JsonScalar}
    {write : CanonicalListing → CanonicalListing} {emitted after : List ListingEventType}
    (applied : applyField env row listing factKey eventType stated current write (db, emitted) =
      .ok (next, after))
    (keeps : ∀ listing, (write listing).canonicalListingId = listing.canonicalListingId ∧
      (write listing).lastSeenAt = listing.lastSeenAt) : next.freshness = db.freshness := by
  rcases applyField_eq_ok applied with
    ⟨evidence, _⟩ | ⟨incoming, middle, events, _, _, _, evidence, _, rfl⟩
  · exact freshness_congr evidence.listings
  · rw [freshness_updateListing keeps, freshness_congr evidence.listings]

theorem touchFreshness_freshness (link : ListingSourceLink) (listing : CanonicalListing)
    (row : SourceObservation) (db : Database) :
    (db.touchFreshness link listing row).freshness =
      db.freshness.map (bump listing.canonicalListingId row.observedAt) := by
  rw [← freshness_touch]
  exact freshness_congr (touchFreshness_listings link listing row db)

/-- An update bumps the freshness of its listing, unless it is a replay. -/
theorem Update.freshness (update : Update env row observation link listing db next) :
    next.freshness = if link.latestObservationId = row.sourceObservationId then db.freshness
      else db.freshness.map (bump listing.canonicalListingId row.observedAt) := by
  cases update with
  | replayed same => rw [if_pos same]
  | sameContent new _ => rw [if_neg new, touchFreshness_freshness]
  | applied new _ facts rent availability laundry wrote =>
      rw [if_neg new, ← touchFreshness_freshness link listing row db,
        ← freshness_congr facts.evidenceOnly.listings,
        ← applyField_freshness rent fun _ => ⟨rfl, rfl⟩,
        ← applyField_freshness availability fun _ => ⟨rfl, rfl⟩,
        ← applyField_freshness laundry fun _ => ⟨rfl, rfl⟩]
      rcases wrote with rfl | rfl
      · rfl
      · exact freshness_updateListing fun _ => ⟨rfl, rfl⟩

theorem listingsFresh_congr (fresh : db.ListingsFresh) (listings : next.listings = db.listings)
    (links : next.links = db.links) : next.ListingsFresh := by
  rw [ListingsFresh, freshness_congr listings, links]
  exact fresh

/-- The touched link is no fresher than the bumped listing. -/
theorem Update.listingsFresh (update : Update env row observation link listing db next)
    (fresh : db.ListingsFresh)
    (distinct : (db.links.map ListingSourceLink.listingSourceLinkId).Nodup)
    (member : link ∈ db.links)
    (owner : listing.canonicalListingId = link.canonicalListingId) : next.ListingsFresh := by
  by_cases same : link.latestObservationId = row.sourceObservationId
  · rw [ListingsFresh, update.links, update.freshness, if_pos same, if_pos same]
    exact fresh
  rw [ListingsFresh, update.links, update.freshness, if_neg same, if_neg same]
  intro after afterMem entry entryMem owns
  obtain ⟨other, otherMem, rfl⟩ := List.mem_map.mp afterMem
  obtain ⟨old, oldMem, rfl⟩ := List.mem_map.mp entryMem
  have named : (bump listing.canonicalListingId row.observedAt old).1 = old.1 := by
    unfold bump
    split <;> rfl
  have grown : old.2 ≤ (bump listing.canonicalListingId row.observedAt old).2 := by
    unfold bump
    split
    · exact le_max_left _ _
    · exact le_refl _
  rw [touchLink_owner, named] at owns
  have before := le_trans (fresh other otherMem old oldMem owns) grown
  unfold touchLink
  split
  · rename_i touched
    cases List.inj_on_of_nodup_map distinct otherMem member touched.2
    rw [bump, if_pos (owns.trans owner.symm)]
    exact le_max_right _ _
  · exact before

/-- The listing that a link is attached to is made as fresh as the link. -/
theorem attachCrossSourceLink_listingsFresh (fresh : db.ListingsFresh)
    (listing : CanonicalListing) (identity : IdentityMethod) (confidence : IdentityConfidence) :
    (db.attachCrossSourceLink env row listing method identity confidence).1.ListingsFresh := by
  have bumped : (db.attachCrossSourceLink env row listing method identity confidence).1.freshness =
      db.freshness.map (bump listing.canonicalListingId row.observedAt) :=
    freshness_touch listing.canonicalListingId row.observedAt (db.insertLink _)
  intro link linkMem entry entryMem owns
  rw [bumped] at entryMem
  obtain ⟨old, oldMem, rfl⟩ := List.mem_map.mp entryMem
  rcases List.mem_append.mp linkMem with before | new
  · unfold bump at owns ⊢
    split at owns
    · rename_i same
      rw [if_pos same]
      exact le_trans (fresh link before old oldMem owns) (le_max_left _ _)
    · rename_i other
      rw [if_neg other]
      exact fresh link before old oldMem owns
  · obtain rfl := List.mem_singleton.mp new
    unfold bump at owns ⊢
    split at owns
    · rename_i same
      rw [if_pos same]
      exact le_max_right _ _
    · rename_i other
      exact (other owns).elim

/-- A new listing is as fresh as its link. -/
theorem startListing_listingsFresh (fresh : db.ListingsFresh) (tracked : Tracked env.ids db)
    {building : Building} {unitId : Option Uuid}
    (started : db.startListing env now row observation method building unitId =
      .ok (next, outcome)) : next.ListingsFresh := by
  have evidence := startListing_evidenceOnly started
  refine listingsFresh_congr ?_ evidence.listings evidence.links
  intro link linkMem entry entryMem owns
  obtain ⟨listing, listingMem, rfl⟩ := List.mem_map.mp entryMem
  rcases List.mem_append.mp linkMem with oldLink | newLink
  · rcases List.mem_append.mp listingMem with oldListing | newListing
    · exact fresh link oldLink _ (List.mem_map_of_mem oldListing) owns
    · obtain rfl := List.mem_singleton.mp newListing
      obtain ⟨owner, ownerMem, same⟩ := tracked.owner oldLink
      exact (tracked.listing_fresh ownerMem (Nat.le_refl _) (same.trans owns.symm)).elim
  · obtain rfl := List.mem_singleton.mp newLink
    rcases List.mem_append.mp listingMem with oldListing | newListing
    · exact (tracked.listing_fresh oldListing (Nat.le_refl _) owns).elim
    · obtain rfl := List.mem_singleton.mp newListing
      exact le_refl _

/-- A new identity leaves every listing as fresh as its links. -/
theorem createCanonical_listingsFresh (fresh : db.ListingsFresh) (tracked : Tracked env.ids db)
    (created : db.createCanonical env now row observation method = .ok (next, outcome)) :
    next.ListingsFresh := by
  obtain ⟨place, building, unitMatch, resolved, ends⟩ := createCanonical_ends created
  have placed := resolvePlace_placeOnly resolved
  have placedFresh : place.ListingsFresh := listingsFresh_congr fresh placed.listings placed.links
  have placedTracked : Tracked env.ids place := tracked.moves placed.quiet.refines
  rcases ends with ⟨listing, identity, confidence, attached⟩ | ⟨unitId, started⟩
  · cases attached
    exact attachCrossSourceLink_listingsFresh placedFresh _ _ _
  · exact startListing_listingsFresh placedFresh placedTracked started

theorem findLink_mem (known : db.findLink row = .ok (some link)) : link ∈ db.links := by
  unfold findLink at known
  split at known <;>
    exact (List.mem_filter.mp (scalarOneOrNone_eq_some.mp known ▸ List.mem_singleton_self link)).1

/-- Normalization leaves every listing as fresh as its links. -/
theorem processObservation_listingsFresh {observationId : Uuid} (fresh : db.ListingsFresh)
    (tracked : Tracked env.ids db)
    (processed : db.processObservation env now method observationId = .ok (next, outcome)) :
    next.ListingsFresh := by
  obtain ⟨row, -, processes⟩ := processObservation_processes processed
  cases processes with
  | aside _ same => exact same ▸ fresh
  | opened _ _ created => exact createCanonical_listingsFresh fresh tracked created
  | continued _ known updated =>
      obtain ⟨listing, found, update⟩ := updateExisting_cases updated
      exact update.listingsFresh fresh tracked.linkIds (findLink_mem known) (key_of_get found)

/-- Refreshing keeps every listing as fresh as its links. -/
theorem listingsFresh_preserved : Preserved (step ids unicode)
    (fun _ action => action.refreshes = true) fun db => Tracked ids db ∧ db.ListingsFresh := by
  rintro db action ⟨tracked, fresh⟩ refreshes
  refine ⟨tracked.moves (step_moves tracked action), ?_⟩
  unfold step
  split
  · rename_i next performed
    cases perform_performs performed with
    | processObservation processed =>
        exact processObservation_listingsFresh fresh tracked processed
    | outside write => exact fresh
    | mergeListings _ | reverseMerge _ | resolveDuplicateCandidate _ | evaluateCandidates _ _ _
    | processSourceRun _ => cases refreshes
  · exact fresh

theorem listingsFresh_run (ids : IdSupply) (unicode : UnicodeTables) (history : List ServiceAction)
    (only : ∀ action ∈ history, action.refreshes = true) :
    (reached ids unicode history).ListingsFresh :=
  (listingsFresh_preserved.run ⟨tracked_empty ids, fun _ member => (List.not_mem_nil member).elim⟩
    (permitted_of_forall only)).2

/-! ## Evidence of an update -/

theorem insertEvent_assertions (event : Uuid → ListingEvent) (db : Database) :
    (db.insertEvent ids event).1.assertions = db.assertions := by
  rw [(insertEvent_eventsOnly ids event db).frame]

theorem raiseConflict_assertions (override : HumanOverride) (entityId : Uuid) (factKey : String)
    (incoming : JsonScalar) (db : Database) :
    (db.raiseConflictWithOverride ids override entityId factKey incoming).assertions =
      db.assertions := by
  rw [(raiseConflict_reviewsOnly ids override entityId factKey incoming db).frame]

theorem applyField_assertions {factKey : String} {eventType : ListingEventType}
    {stated : Option JsonScalar} {current : JsonScalar}
    {write : CanonicalListing → CanonicalListing} {emitted after : List ListingEventType}
    (applied : applyField env row listing factKey eventType stated current write (db, emitted) =
      .ok (next, after)) : next.assertions = db.assertions := by
  obtain ⟨events, _, step⟩ := applyField_cases applied
  exact step.within (composes_of_column Database.assertions)
    (fun _ _ => raiseConflict_assertions ..) (fun _ _ => insertEvent_assertions ..) fun _ => rfl

/-- Each recorded fact is one more assertion. -/
theorem recordListingFacts_assertions {listingId : Uuid}
    (recorded : db.recordListingFacts env now listingId observation row = .ok next) :
    next.assertions.length =
      db.assertions.length + (listingFacts listingId observation row).length := by
  unfold recordListingFacts at recorded
  generalize listingFacts listingId observation row = records at recorded
  induction records generalizing db with
  | nil =>
      cases recorded
      rfl
  | cons record rest ih =>
      rw [List.foldlM_cons] at recorded
      obtain ⟨middle, first, later⟩ := bind_eq_ok.mp recorded
      have one : middle.assertions.length = db.assertions.length + 1 := by
        obtain ⟨override, _, wrote⟩ := bind_eq_ok.mp first
        cases override <;> (cases wrote; exact List.length_append)
      rw [ih later, one, List.length_cons]
      omega

theorem listingFacts_eq_nil {listingId : Uuid} :
    listingFacts listingId observation row = [] ↔ observation.Silent := by
  simp [listingFacts, ParsedSourceObservation.Silent]

/-- A silent observation only touches the freshness. -/
theorem updateExisting_of_silent (found : db.listing? link.canonicalListingId = some listing)
    (new : link.latestObservationId ≠ row.sourceObservationId)
    (differs : db.sameContent link row = false) (silent : observation.Silent)
    (updated : db.updateExisting env now row observation link = .ok (next, outcome)) :
    next = db.touchFreshness link listing row := by
  obtain ⟨recorded, rented, available, washed, first, second, third, facts, rent, availability,
    laundry, wrote⟩ := updateExisting_applied found new differs updated
  rw [recordListingFacts, listingFacts_eq_nil.mpr silent] at facts
  cases facts
  simp only [applyRent, applyField, silent.1, Option.map_none, Except.ok.injEq, Prod.mk.injEq]
    at rent
  obtain ⟨rfl, rfl⟩ := rent
  simp only [applyAvailability, applyField, silent.2.2.2, Option.map_none, Except.ok.injEq,
    Prod.mk.injEq] at availability
  obtain ⟨rfl, rfl⟩ := availability
  simp only [applyLaundry, applyField, silent.2.2.1, Option.map_none, Except.ok.injEq,
    Prod.mk.injEq] at laundry
  obtain ⟨rfl, rfl⟩ := laundry
  rw [wrote, if_pos rfl]

/-- An observation that is older than its link leaves a listing that is as fresh as the
link alone. -/
theorem touchFreshness_of_older (fresh : db.ListingsFresh) (member : link ∈ db.links)
    (owner : listing.canonicalListingId = link.canonicalListingId)
    (older : row.observedAt < link.lastSeenAt) : db.touchFreshness link listing row = db := by
  have same : db.updateListing listing.canonicalListingId (fun listing =>
      { listing with lastSeenAt := max listing.lastSeenAt row.observedAt }) = db := by
    have rows : updateWhere (fun other : CanonicalListing =>
          other.canonicalListingId = listing.canonicalListingId) (fun listing =>
          { listing with lastSeenAt := max listing.lastSeenAt row.observedAt }) db.listings =
        db.listings := by
      unfold updateWhere
      conv_rhs => rw [← List.map_id db.listings]
      apply List.map_congr_left
      intro other otherMem
      by_cases owned : other.canonicalListingId = listing.canonicalListingId
      · have seen : link.lastSeenAt ≤ other.lastSeenAt :=
          fresh link member _ (List.mem_map_of_mem otherMem) (owned.trans owner)
        rw [if_pos (decide_eq_true owned)]
        dsimp only
        rw [max_eq_left (le_trans (le_of_lt older) seen)]
        rfl
      · simp [owned]
    rw [updateListing, rows]
  unfold touchFreshness
  simp only [not_le.mpr older, ↓reduceIte]
  exact same

/-- An observation that is at least as new as its link and not its latest one becomes
its latest one. -/
theorem links_ne_of_newer (update : Update env row observation link listing db next)
    (member : link ∈ db.links) (new : link.latestObservationId ≠ row.sourceObservationId)
    (newer : link.lastSeenAt ≤ row.observedAt) : next.links ≠ db.links := by
  rw [update.links, if_neg new]
  intro same
  have kept := List.map_inj_left.mp (same.trans (List.map_id _).symm) link member
  rw [touchLink_self, if_pos newer] at kept
  exact new (congrArg ListingSourceLink.latestObservationId kept).symm

/-- An update changes nothing just when there is nothing new in the row. -/
theorem updateExisting_unchanged_iff (fresh : db.ListingsFresh) (member : link ∈ db.links)
    (updated : db.updateExisting env now row row.parsedPayload link = .ok (next, outcome)) :
    Unchanged db next ↔ db.NothingNew row link := by
  obtain ⟨listing, found, update⟩ := updateExisting_cases updated
  have owner : listing.canonicalListingId = link.canonicalListingId := key_of_get found
  by_cases new : link.latestObservationId = row.sourceObservationId
  · refine iff_of_true ?_ (.inl new)
    cases update with
    | replayed _ => exact .refl db
    | sameContent other _ => exact (other new).elim
    | applied other _ _ _ _ _ _ => exact (other new).elim
  by_cases newer : link.lastSeenAt ≤ row.observedAt
  · refine iff_of_false (fun same => links_ne_of_newer update member new newer same.links) ?_
    rintro (same | ⟨older, _⟩)
    · exact new same
    · exact absurd newer (not_le.mpr older)
  have older := not_le.mp newer
  have untouched := touchFreshness_of_older fresh member owner older
  by_cases same : db.sameContent link row = true
  · refine iff_of_true ?_ (.inr ⟨older, .inl same⟩)
    cases update with
    | replayed _ => exact .refl db
    | sameContent _ _ =>
        rw [untouched]
        exact .refl db
    | applied _ differs _ _ _ _ _ => simp [same] at differs
  have differs : db.sameContent link row = false := by simpa using same
  by_cases silent : row.parsedPayload.Silent
  · refine iff_of_true ?_ (.inr ⟨older, .inr silent⟩)
    rw [updateExisting_of_silent found new differs silent updated, untouched]
    exact .refl db
  refine iff_of_false (fun unchanged => silent ?_) ?_
  · obtain ⟨recorded, rented, available, washed, first, second, third, facts, rent, availability,
      laundry, wrote⟩ := updateExisting_applied found new differs updated
    have assertions : next.assertions = recorded.assertions := by
      rw [← applyField_assertions rent, ← applyField_assertions availability,
        ← applyField_assertions laundry, wrote]
      split <;> rfl
    have grown := recordListingFacts_assertions facts
    rw [← assertions, unchanged.assertions, untouched] at grown
    exact listingFacts_eq_nil.mp (List.eq_nil_of_length_eq_zero (Nat.left_eq_add.mp grown))
  · rintro (latest | ⟨_, content | none⟩)
    · exact new latest
    · exact same content
    · exact silent none

/-! ## Replays -/

/-- The row is put aside, or its identity is known and there is nothing new in it. -/
def Harmless (db : Database) (row : SourceObservation) : Prop :=
  row.processable = true → ∃ link, db.findLink row = .ok (some link) ∧ db.NothingNew row link

/-- Normalization changes nothing just when the row is harmless. -/
theorem processObservation_unchanged_iff {observationId : Uuid} (fresh : db.ListingsFresh)
    (found : db.observation? observationId = some row)
    (processed : db.processObservation env now method observationId = .ok (next, outcome)) :
    Unchanged db next ↔ db.Harmless row := by
  obtain ⟨other, again, processes⟩ := processObservation_processes processed
  cases found.symm.trans again
  cases processes with
  | aside unparsed same =>
      exact iff_of_true (same ▸ .refl db) fun processable =>
        (SourceObservation.not_processable_iff.mpr unparsed processable).elim
  | opened parsed unknown created =>
      obtain ⟨_, _, _, _, links, _⟩ := createCanonical_link created
      refine iff_of_false (fun unchanged => ?_) (fun harmless => ?_)
      · simp [unchanged.links] at links
      · obtain ⟨_, known, _⟩ := harmless (SourceObservation.processable_iff.mpr parsed)
        cases unknown.symm.trans known
  | continued parsed known updated =>
      rw [updateExisting_unchanged_iff fresh (findLink_mem known) updated]
      constructor
      · exact fun nothing _ => ⟨_, known, nothing⟩
      · intro harmless
        obtain ⟨other, same, nothing⟩ := harmless (SourceObservation.processable_iff.mpr parsed)
        cases known.symm.trans same
        exact nothing

/-- **Replay.** After every history of refreshes, a call that processes an observation
changes nothing just when the row is put aside, is the latest observation of its
link, or is older than its link and has the content of the latest one or states
nothing. -/
theorem replay_idempotent_iff (ids : IdSupply) (unicode : UnicodeTables)
    (history : List ServiceAction) (only : ∀ action ∈ history, action.refreshes = true)
    {scan : Uuid → Nat} {now : Timestamp} {method : DiscoveryMethod} {observationId : Uuid}
    {row : SourceObservation} {next : Database} {outcome : NormalizationOutcome}
    (found : (reached ids unicode history).observation? observationId = some row)
    (processed : (reached ids unicode history).processObservation ⟨ids, unicode, scan⟩ now method
      observationId = .ok (next, outcome)) :
    Unchanged (reached ids unicode history) next ↔ (reached ids unicode history).Harmless row :=
  processObservation_unchanged_iff (listingsFresh_run ids unicode history only) found processed

/-! ## A replay after a later observation -/

/-- Two rents of one rental, processed in the order of observation. -/
def rentHistory : List ServiceAction :=
  [.outside
      { observations := [rentSeen 1 0 100 "x", rentSeen 2 10 200 "y"]
        sourceRuns := []
        overrides := []
        geography := fun address => (address.locationPrecision, address.boundaryStatus) },
    process 1, process 2]

/-- Replaying the later one changes nothing. -/
theorem replay_idempotent_iff_latest :
    ∃ next outcome, (reached countingIds asciiTables rentHistory).processObservation
        ⟨countingIds, asciiTables, fun _ => 0⟩ 0 .direct 2 = .ok (next, outcome) ∧
      Unchanged (reached countingIds asciiTables rentHistory) next := by
  have found : (reached countingIds asciiTables rentHistory).observation? 2 =
      some (rentSeen 2 10 200 "y") := by decide
  obtain ⟨next, outcome, processed⟩ : ∃ next outcome,
      (reached countingIds asciiTables rentHistory).processObservation
        ⟨countingIds, asciiTables, fun _ => 0⟩ 0 .direct 2 = .ok (next, outcome) := ⟨_, _, rfl⟩
  refine ⟨next, outcome, processed,
    (replay_idempotent_iff countingIds asciiTables rentHistory (by decide) found processed).mpr
      fun _ => ?_⟩
  exact ⟨(reached countingIds asciiTables rentHistory).links.head (by decide), by decide,
    .inl (by decide)⟩

/-- Replaying the earlier one puts its rent back. -/
theorem replay_restores_rent :
    process 1 ∈ rentHistory ∧
      ∃ next outcome, (reached countingIds asciiTables rentHistory).processObservation
          ⟨countingIds, asciiTables, fun _ => 0⟩ 0 .direct 1 = .ok (next, outcome) ∧
        ¬ Unchanged (reached countingIds asciiTables rentHistory) next := by
  refine ⟨by simp [rentHistory], _, _, rfl, fun unchanged => ?_⟩
  have rents := congrArg (List.map CanonicalListing.monthlyRentMinor) unchanged.listings
  exact absurd rents (by decide)

end Database

end RentalAgent
