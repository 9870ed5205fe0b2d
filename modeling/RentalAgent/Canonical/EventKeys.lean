import RentalAgent.Canonical.DuplicateReview
import RentalAgent.Canonical.LifecycleMoves
import RentalAgent.Foundation.Journal

/-! # The keys that the services post

The events of a database are a journal: a service posts the key of an event, and a key
that is there already is dropped. Every service posts its keys in a fixed order, those
of admission and inactivation together with the verdict that they are about
(`Database.Gives`).
-/

namespace RentalAgent

open Absorption Relational Transition

/-- The events of admission, disappearance and merges. -/
def ListingEventType.ofTransition : ListingEventType → Bool
  | .activated | .excluded | .missingStarted | .inactivated | .merged => true
  | .created | .materialChange | .priceChanged | .availabilityChanged | .mediaChanged
  | .laundryChanged | .addressChanged | .reappeared | .manualOverrideApplied
  | .manualOverrideRemoved => false

namespace Database

/-- The events of the type about the listing. -/
def eventCount (db : Database) (eventType : ListingEventType) (listingId : Uuid) : Nat :=
  db.events.countP fun event =>
    event.eventType = eventType && event.canonicalListingId = listingId

variable {ids : IdSupply} {unicode : UnicodeTables} {env : Environment} {now : Timestamp}
  {db middle next : Database} {row : SourceObservation} {observation : ParsedSourceObservation}
  {method : DiscoveryMethod} {outcome : NormalizationOutcome} {posts later : List EventKey}

/-! ## The journal of a database -/

/-- The keys of the events. -/
def keys (db : Database) : List EventKey := db.events.map ListingEvent.idempotencyKey

/-- The key of every event names its listing and its type. -/
def EventsKeyed (db : Database) : Prop :=
  ∀ event ∈ db.events, event.idempotencyKey.listing = event.canonicalListingId ∧
    event.idempotencyKey.eventType = event.eventType

/-- The keys of a type about a listing. -/
def classOf (eventType : ListingEventType) (listingId : Uuid) (key : EventKey) : Bool :=
  key.eventType = eventType && key.listing = listingId

/-- Events of a type about a listing are counted by their keys. -/
theorem EventsKeyed.eventCount (keyed : db.EventsKeyed) (eventType : ListingEventType)
    (listingId : Uuid) :
    db.eventCount eventType listingId = db.keys.countP (classOf eventType listingId) := by
  rw [Database.eventCount, keys, List.countP_map]
  apply List.countP_congr
  intro event member
  obtain ⟨listing, type⟩ := keyed event member
  simp only [Function.comp_apply, classOf, listing, type]

/-- The step posted the keys, in order, and wrote no other event. -/
structure Posts (posts : List EventKey) (db next : Database) : Prop where
  kept : db.events <+: next.events
  keys : next.keys = Journal.postAll db.keys posts
  keyed : db.EventsKeyed → next.EventsKeyed

theorem posts_of_events (same : next.events = db.events) : Posts [] db next := by
  refine ⟨same ▸ List.prefix_rfl, ?_, fun keyed => ?_⟩
  · rw [Database.keys, same]
    rfl
  · rw [EventsKeyed, same]
    exact keyed

theorem Posts.trans (first : Posts posts db middle) (second : Posts later middle next) :
    Posts (posts ++ later) db next where
  kept := first.kept.trans second.kept
  keys := by rw [second.keys, first.keys, Journal.postAll_append]
  keyed := fun keyed => second.keyed (first.keyed keyed)

theorem Posts.after (second : Posts posts middle next) (same : middle.events = db.events) :
    Posts posts db next :=
  (posts_of_events same).trans second

theorem Posts.before (first : Posts posts db middle) (same : next.events = middle.events) :
    Posts posts db next := by
  simpa using first.trans (posts_of_events same)

/-- Inserting an event posts its key, whether the row is new or not. -/
theorem insertEvent_posts (event : Uuid → ListingEvent) (db : Database) {key : EventKey}
    (names : ∀ id, (event id).idempotencyKey = key ∧ (event id).canonicalListingId = key.listing ∧
      (event id).eventType = key.eventType) :
    Posts [key] db (db.insertEvent ids event).1 := by
  obtain ⟨same, listing, type⟩ := names (ids.uuid db.drawn)
  have known : (db.events.any fun other => other.idempotencyKey =
      (event (ids.uuid db.drawn)).idempotencyKey) = true ↔ key ∈ db.keys := by
    rw [List.any_eq_true, keys, List.mem_map, same]
    simp
  unfold insertEvent
  dsimp only
  by_cases member : key ∈ db.keys
  · rw [if_pos (known.mpr member)]
    exact ⟨List.prefix_rfl, (Journal.post_of_mem member).symm, id⟩
  · rw [if_neg fun present => member (known.mp present)]
    refine ⟨List.prefix_append _ _, ?_, fun keyed other inside => ?_⟩
    · rw [Journal.postAll_cons, Journal.postAll_nil, Journal.post_of_not_mem member, ← same]
      exact List.map_append
    · rcases List.mem_append.mp inside with old | new
      · exact keyed other old
      · obtain rfl := List.mem_singleton.mp new
        rw [same]
        exact ⟨listing.symm, type.symm⟩

theorem filter_class_of_other {keys : List EventKey} {eventType : ListingEventType}
    (other : ∀ key ∈ keys, key.eventType ≠ eventType) (listingId : Uuid) :
    keys.filter (classOf eventType listingId) = [] :=
  List.filter_eq_nil_iff.mpr fun key member => by simp [classOf, other key member]

/-- Every post of a type about a listing is an event just when its key is new. -/
theorem Posts.logged_iff (posted : Posts posts db next) (keyed : db.EventsKeyed)
    {eventType : ListingEventType} {listingId : Uuid} {group : List EventKey}
    (same : posts.filter (classOf eventType listingId) =
      group.filter (classOf eventType listingId)) :
    next.eventCount eventType listingId =
        db.eventCount eventType listingId + group.countP (classOf eventType listingId) ↔
      (group.filter (classOf eventType listingId)).Nodup ∧
        ∀ key ∈ group, classOf eventType listingId key = true → key ∉ db.keys := by
  have counts : group.countP (classOf eventType listingId) =
      posts.countP (classOf eventType listingId) := by
    rw [List.countP_eq_length_filter, List.countP_eq_length_filter, same]
  rw [(posted.keyed keyed).eventCount, keyed.eventCount, posted.keys, counts,
    Journal.countP_postAll_iff, same]
  refine and_congr_right fun _ => ?_
  have members : ∀ key, (key ∈ posts ∧ classOf eventType listingId key = true) ↔
      key ∈ group ∧ classOf eventType listingId key = true := by
    intro key
    rw [← List.mem_filter, ← List.mem_filter, same]
  constructor
  · intro fresh key member chosen
    obtain ⟨inside, _⟩ := (members key).mpr ⟨member, chosen⟩
    exact fresh key inside chosen
  · intro fresh key member chosen
    obtain ⟨inside, _⟩ := (members key).mp ⟨member, chosen⟩
    exact fresh key inside chosen

/-! ## Normalization -/

/-- The step posted only keys about the listing, of no transition. -/
def PostsBeside (listingId : Uuid) (db next : Database) : Prop :=
  ∃ posts, Posts posts db next ∧
    ∀ key ∈ posts, key.eventType.ofTransition = false ∧ key.listing = listingId

theorem postsBeside_of_events {listingId : Uuid} (same : next.events = db.events) :
    PostsBeside listingId db next :=
  ⟨[], posts_of_events same, by simp⟩

theorem PostsBeside.trans {listingId : Uuid} (first : PostsBeside listingId db middle)
    (second : PostsBeside listingId middle next) : PostsBeside listingId db next := by
  obtain ⟨posts, posted, beside⟩ := first
  obtain ⟨later, laterPosted, laterBeside⟩ := second
  refine ⟨posts ++ later, posted.trans laterPosted, fun key member => ?_⟩
  exact (List.mem_append.mp member).elim (beside key) (laterBeside key)

theorem emitEvent_beside (row : SourceObservation) (listingId : Uuid)
    {eventType : ListingEventType} (other : eventType.ofTransition = false)
    (before after : Option JsonObject) (db : Database) :
    PostsBeside listingId db (db.emitEvent env row listingId eventType before after).1 :=
  ⟨[⟨listingId, eventType, .row row.sourceObservationId⟩],
    insertEvent_posts _ db fun _ => ⟨rfl, rfl, rfl⟩, by simpa using other⟩

theorem FactsOnly.events (facts : FactsOnly db next) : next.events = db.events := by
  rw [facts.frame]

theorem ReviewsOnly.events (reviews : ReviewsOnly db next) : next.events = db.events := by
  rw [reviews.frame]

theorem postsBeside_composes (listingId : Uuid) : Composes (PostsBeside listingId) :=
  ⟨fun _ => postsBeside_of_events rfl, .trans⟩

/-- An update of a known identity posts keys about its listing, of no transition. -/
theorem Update.postsBeside {link : ListingSourceLink} {listing : CanonicalListing}
    (update : Update env row observation link listing db next) :
    PostsBeside listing.canonicalListingId db next := by
  have others : ∀ eventType ∈ fieldEvents, eventType.ofTransition = false := by decide
  exact update.within (postsBeside_composes _)
    (postsBeside_of_events (by rw [touchFreshness_frame]))
    (fun facts => postsBeside_of_events facts.events)
    (fun _ _ _ _ => postsBeside_of_events (raiseConflict_reviewsOnly ..).events)
    (fun eventType listed _ _ db => emitEvent_beside row _ (others eventType listed) _ _ db)
    fun _ _ _ => postsBeside_of_events rfl

/-- A new listing posts keys about itself only, of no transition. -/
theorem startListing_beside {building : Building} {unitId : Option Uuid}
    (started : db.startListing env now row observation method building unitId =
      .ok (next, outcome)) :
    ∃ listing ∈ next.listings, PostsBeside listing.canonicalListingId db next := by
  have evidence := startListing_evidenceOnly started
  obtain ⟨recorded, facts, rfl⟩ := startListing_eq_ok started
  refine ⟨newListing row observation (env.ids.uuid db.drawn) building.buildingId unitId, ?_, ?_⟩
  · rw [evidence.listings]
    exact List.mem_append_right _ (List.mem_singleton_self _)
  · have proposed (listing : CanonicalListing) :=
      generateDuplicateCandidates_reviewsOnly env listing building recorded
    refine PostsBeside.trans ?_ (postsBeside_of_events (proposed _).events)
    refine PostsBeside.trans ?_ (postsBeside_of_events facts.events)
    refine PostsBeside.trans ?_ (emitEvent_beside row _ rfl _ _ _)
    exact postsBeside_of_events rfl

/-- Normalization posts keys about one listing, of no transition. -/
theorem processObservation_beside (tracked : Tracked env.ids db) {observationId : Uuid}
    (processed : db.processObservation env now method observationId = .ok (next, outcome)) :
    next = db ∨ ∃ listing ∈ next.listings, PostsBeside listing.canonicalListingId db next := by
  obtain ⟨row, -, processes⟩ := processObservation_processes processed
  cases processes with
  | aside _ same => exact .inl same
  | continued _ _ updated =>
      obtain ⟨listing, found, update⟩ := updateExisting_cases updated
      have kept : listing.canonicalListingId ∈
          next.listings.map CanonicalListing.canonicalListingId := by
        rw [(updateExisting_quiet updated).listingIds]
        exact List.mem_map_of_mem (mem_of_get found)
      obtain ⟨later, member, same⟩ := List.mem_map.mp kept
      exact .inr ⟨later, member, same ▸ update.postsBeside⟩
  | opened _ _ created =>
      right
      obtain ⟨place, building, unitMatch, resolved, ends⟩ := createCanonical_ends created
      have placed := resolvePlace_placeOnly resolved
      rcases ends with ⟨listing, identity, confidence, attached⟩ | ⟨unitId, began⟩
      · cases attached
        have grows := createCanonical_grows tracked created
        obtain ⟨_, _, _, _, links, _⟩ := createCanonical_link created
        obtain ⟨owner, member, _⟩ := (tracked.moves grows.moves).owner
          (links ▸ List.mem_append_right _ (List.mem_singleton_self _))
        exact ⟨owner, member, postsBeside_of_events placed.events⟩
      · obtain ⟨listing, member, beside⟩ := startListing_beside began
        exact ⟨listing, member, (postsBeside_of_events placed.events).trans beside⟩

/-! ## Verdicts -/

/-- A listing and the status that a call gives it. -/
abbrev Verdict := Uuid × LifecycleStatus

/-- The key that is posted with a verdict of admission or disappearance. -/
def verdictKey (verdict : Verdict) : EventKey :=
  match verdict.2 with
  | .active => ⟨verdict.1, .activated, .rule admissionRuleVersion⟩
  | .excluded => ⟨verdict.1, .excluded, .rule admissionRuleVersion⟩
  | .candidate | .missing | .inactive | .reappeared | .merged | .reviewRequired =>
      ⟨verdict.1, .inactivated, .rule disappearanceRuleVersion⟩

/-- The standing after the verdicts. -/
def decided (verdicts : List Verdict) (standing : Standing) : Standing :=
  { standing with
    lifecycleStatus := (verdicts.lookup standing.listingId).getD standing.lifecycleStatus }

/-- The step gave the verdicts, to different listings, and posted their keys after some
others. -/
structure Gives (verdicts : List Verdict) (posts : List EventKey) (db next : Database) :
    Prop where
  distinct : (verdicts.map Prod.fst).Nodup
  standings : next.standings = db.standings.map (decided verdicts)
  posted : Posts (posts ++ verdicts.map verdictKey) db next

/-- A step that posts keys and moves no standing gives no verdict. -/
theorem gives_none (standings : next.standings = db.standings) (posted : Posts posts db next) :
    Gives [] posts db next where
  distinct := List.nodup_nil
  standings := by
    rw [standings]
    exact (List.map_id _).symm
  posted := by rwa [List.map_nil, List.append_nil]

theorem lookup_absent {verdicts : List Verdict} {listingId : Uuid}
    (absent : listingId ∉ verdicts.map Prod.fst) : verdicts.lookup listingId = none := by
  rw [List.lookup_eq_none_iff]
  intro verdict member
  refine bne_iff_ne.mpr fun same => absent ?_
  exact same ▸ List.mem_map_of_mem member

/-- Verdicts on different listings are found by their listing. -/
theorem lookup_of_mem {verdicts : List Verdict} (distinct : (verdicts.map Prod.fst).Nodup)
    {verdict : Verdict} (member : verdict ∈ verdicts) :
    verdicts.lookup verdict.1 = some verdict.2 := by
  induction verdicts with
  | nil => cases member
  | cons first rest ih =>
      obtain ⟨apart, distinctRest⟩ := List.nodup_cons.mp distinct
      rcases List.mem_cons.mp member with rfl | later
      · exact List.lookup_cons_self
      · have other : verdict.1 ≠ first.1 := fun same =>
          apart (same ▸ List.mem_map_of_mem later)
        rw [List.lookup_cons, beq_false_of_ne other]
        exact ih distinctRest later

theorem mem_of_lookup {verdicts : List Verdict} {listingId : Uuid} {status : LifecycleStatus}
    (found : verdicts.lookup listingId = some status) : (listingId, status) ∈ verdicts := by
  obtain ⟨before, after, rfl, _⟩ := List.lookup_eq_some_iff.mp found
  exact List.mem_append_right _ List.mem_cons_self

/-- The first verdict can be applied first, as no other one is about its listing. -/
theorem decided_cons {verdict : Verdict} {verdicts : List Verdict}
    (apart : verdict.1 ∉ verdicts.map Prod.fst) (standing : Standing) :
    decided (verdict :: verdicts) standing =
      decided verdicts (standing.settle verdict.1 verdict.2) := by
  unfold decided Standing.settle
  by_cases same : standing.listingId = verdict.1
  · rw [if_pos same, List.lookup_cons, same, beq_self_eq_true, lookup_absent apart]
    rfl
  · rw [if_neg same, List.lookup_cons, beq_false_of_ne same]

/-- A verdict is given and its key posted, then others are. -/
theorem Gives.cons {verdict : Verdict} {verdicts : List Verdict}
    (apart : verdict.1 ∉ verdicts.map Prod.fst)
    (standings : middle.standings = db.standings.map (Standing.settle verdict.1 verdict.2))
    (posted : Posts [verdictKey verdict] db middle) (rest : Gives verdicts [] middle next) :
    Gives (verdict :: verdicts) [] db next where
  distinct := List.nodup_cons.mpr ⟨apart, rest.distinct⟩
  standings := by
    rw [rest.standings, standings, List.map_map]
    exact List.map_congr_left fun standing _ => (decided_cons apart standing).symm
  posted := posted.trans rest.posted

/-! ## Admission -/

/-- Settling a listing posts the key of the verdict. -/
theorem settle_posts (listing : CanonicalListing) {status : LifecycleStatus}
    {eventType : ListingEventType} (reason : JsonScalar) (db : Database)
    (names : verdictKey (listing.canonicalListingId, status) =
      ⟨listing.canonicalListingId, eventType, .rule admissionRuleVersion⟩) :
    Posts [verdictKey (listing.canonicalListingId, status)] db
      (db.settle ids now listing status eventType reason) := by
  rw [names]
  refine Posts.after (insertEvent_posts (admissionEvent listing.canonicalListingId eventType now
    reason) _ fun _ => ⟨rfl, rfl, rfl⟩) ?_
  rfl

/-- Judging one candidate leaves everything alone, or gives it one verdict and posts its key. -/
theorem evaluateOne_gives (ids : IdSupply) (now : Timestamp) (listing : CanonicalListing)
    (address : Address) (db : Database) :
    (db.evaluateOne ids now listing address).1 = db ∨ ∃ status,
      (status = .active ∨ status = .excluded) ∧
        (db.evaluateOne ids now listing address).1.standings =
          db.standings.map (Standing.settle listing.canonicalListingId status) ∧
        Posts [verdictKey (listing.canonicalListingId, status)] db
          (db.evaluateOne ids now listing address).1 := by
  unfold evaluateOne
  split
  · refine .inr ⟨.excluded, .inr rfl, settle_standings listing _ _ _ db,
      settle_posts listing _ db rfl⟩
  · repeat' split
    all_goals first
      | exact .inl rfl
      | exact .inr ⟨.active, .inl rfl, settle_standings listing _ _ _ db,
          settle_posts listing _ db rfl⟩

/-- Judging candidates one after another gives each of them one verdict at most. -/
theorem evaluateRows_gives (ids : IdSupply) (now : Timestamp) (db : Database)
    {rows : List (CanonicalListing × Address)}
    (distinct : (rows.map fun row => row.1.canonicalListingId).Nodup)
    (outcomes : List AdmissionOutcome) :
    ∃ verdicts, Gives verdicts [] db (rows.foldl (evaluateRow ids now) (db, outcomes)).1 ∧
      ∀ verdict ∈ verdicts, (verdict.2 = .active ∨ verdict.2 = .excluded) ∧
        ∃ row ∈ rows, row.1.canonicalListingId = verdict.1 := by
  induction rows generalizing db outcomes with
  | nil => exact ⟨[], gives_none rfl (posts_of_events rfl), by simp⟩
  | cons row rest ih =>
      obtain ⟨apart, distinct⟩ := List.nodup_cons.mp distinct
      obtain ⟨verdicts, gives, each⟩ := ih (db.evaluateOne ids now row.1 row.2).1 distinct
        (outcomes ++ [(db.evaluateOne ids now row.1 row.2).2])
      have later : ∀ verdict ∈ verdicts, (verdict.2 = .active ∨ verdict.2 = .excluded) ∧
          ∃ other ∈ row :: rest, other.1.canonicalListingId = verdict.1 := by
        intro verdict member
        obtain ⟨either, other, inside, same⟩ := each verdict member
        exact ⟨either, other, List.mem_cons_of_mem _ inside, same⟩
      rcases evaluateOne_gives ids now row.1 row.2 db with idle | ⟨status, either, wrote, posted⟩
      · refine ⟨verdicts, ?_, later⟩
        rw [idle] at gives
        rw [List.foldl_cons]
        unfold evaluateRow
        dsimp only
        rwa [idle]
      · refine ⟨(row.1.canonicalListingId, status) :: verdicts, ?_, ?_⟩
        · rw [List.foldl_cons]
          refine Gives.cons (fun member => apart ?_) wrote posted gives
          obtain ⟨verdict, inside, same⟩ := List.mem_map.mp member
          obtain ⟨_, other, otherMem, otherSame⟩ := each verdict inside
          exact List.mem_map.mpr ⟨other, otherMem, otherSame.trans same⟩
        · intro verdict member
          rcases List.mem_cons.mp member with rfl | inside
          · exact ⟨either, row, List.mem_cons_self, rfl⟩
          · exact later verdict inside

/-- Admission gives its verdicts to listings that wait for them. -/
theorem evaluateCandidates_gives (tracked : Tracked ids db) (scan : Uuid → Nat) (limit : Nat) :
    ∃ verdicts, Gives verdicts [] db (db.evaluateCandidates ids now scan limit).1 ∧
      ∀ verdict ∈ verdicts, (verdict.2 = .active ∨ verdict.2 = .excluded) ∧
        ∃ standing ∈ db.standings, standing.listingId = verdict.1 ∧
          (standing.lifecycleStatus = .candidate ∨ standing.lifecycleStatus = .reappeared) := by
  obtain ⟨verdicts, gives, each⟩ :=
    evaluateRows_gives ids now db (evaluatedRows_nodup tracked scan limit) []
  refine ⟨verdicts, gives, fun verdict member => ?_⟩
  obtain ⟨either, row, inside, same⟩ := each verdict member
  obtain ⟨listed, waiting, _⟩ := mem_candidateRows (mem_evaluatedRows inside)
  exact ⟨either, row.1.standing, List.mem_map_of_mem listed, same, waiting⟩

/-! ## Disappearance -/

/-- The key that a missing link posts. -/
def missingKey (sourceRunId : Uuid) (link : ListingSourceLink) : EventKey :=
  ⟨link.canonicalListingId, .missingStarted, .row sourceRunId⟩

/-- The round of the link finds it missing for the first time. -/
def firstMissed (db : Database) (now : Timestamp) (run : SourceRun)
    (observed : ListingSourceLink → Bool) (link : ListingSourceLink) : Bool :=
  !observed link && !decide (db.removalDue now run link) && link.linkStatus = .active

/-- A round of the link loop posts the key of a link that is missed for the first time, and no
other. -/
theorem processLink_posts (ids : IdSupply) (now : Timestamp) (run : SourceRun)
    (observed : ListingSourceLink → Bool)
    (state : Database × DisappearanceSummary) (link : ListingSourceLink) :
    Posts (([link].filter (state.1.firstMissed now run observed)).map
        (missingKey run.sourceRunId)) state.1
      (processLink ids now run observed state link).1 := by
  unfold processLink
  dsimp only
  cases seen : observed link with
  | true =>
      have unmissed : state.1.firstMissed now run observed link = false := by
        simp [firstMissed, seen]
      rw [List.filter_cons_of_neg (by simp [unmissed])]
      simp only [↓reduceIte]
      split <;> exact posts_of_events rfl
  | false =>
      simp only [Bool.false_eq_true, ↓reduceIte]
      by_cases due : state.1.removalDue now run link
      · have unmissed : state.1.firstMissed now run observed link = false := by
          simp [firstMissed, due]
        rw [if_pos due, List.filter_cons_of_neg (by simp [unmissed])]
        exact posts_of_events rfl
      · rw [if_neg due]
        by_cases active : link.linkStatus = .active
        · have missed : state.1.firstMissed now run observed link = true := by
            simp [firstMissed, seen, due, active]
          rw [if_pos active, List.filter_cons_of_pos missed]
          refine Posts.after (insertEvent_posts (disappearanceEvent link.canonicalListingId
            .missingStarted now (.row run.sourceRunId)) _ fun _ => ⟨rfl, rfl, rfl⟩) ?_
          rfl
        · have unmissed : state.1.firstMissed now run observed link = false := by
            simp [firstMissed, active]
          rw [if_neg active, List.filter_cons_of_neg (by simp [unmissed])]
          exact posts_of_events rfl

/-- What is missed for the first time depends on the source runs alone. -/
theorem firstMissed_congr (same : next.sourceRuns = db.sourceRuns) (now : Timestamp)
    (run : SourceRun) (observed : ListingSourceLink → Bool) :
    next.firstMissed now run observed = db.firstMissed now run observed := by
  have counts : next.healthyRunsSince = db.healthyRunsSince := by
    funext sourceId since
    rw [healthyRunsSince, healthyRunsSince, same]
  funext link
  unfold firstMissed removalDue
  rw [counts]

/-- The link loop posts a key for each link it finds missing. -/
theorem processLinks_posts (ids : IdSupply) (now : Timestamp) (run : SourceRun)
    (observed : ListingSourceLink → Bool)
    (links : List ListingSourceLink) (state : Database × DisappearanceSummary) :
    Posts ((links.filter (state.1.firstMissed now run observed)).map
        (missingKey run.sourceRunId)) state.1
      (links.foldl (processLink ids now run observed) state).1 := by
  induction links generalizing state with
  | nil => exact posts_of_events rfl
  | cons link rest ih =>
      have runs : (processLink ids now run observed state link).1.sourceRuns =
          state.1.sourceRuns :=
        (processLink_linksOnly run observed state link).ledgerOnly.serviceOnly.sourceRuns
      have first := processLink_posts ids now run observed state link
      have later := ih (processLink ids now run observed state link)
      rw [firstMissed_congr runs] at later
      have whole := first.trans later
      rwa [← List.map_append, ← List.filter_append] at whole

theorem inactivate_posts (listing : CanonicalListing) (db : Database) :
    Posts [verdictKey (listing.canonicalListingId, .inactive)] db
      (inactivate ids now db listing) := by
  refine Posts.after (insertEvent_posts (disappearanceEvent listing.canonicalListingId
    .inactivated now (.rule disappearanceRuleVersion)) _ fun _ => ⟨rfl, rfl, rfl⟩) ?_
  rfl

theorem inactivate_standings (listing : CanonicalListing) (db : Database) :
    (inactivate ids now db listing).standings =
      db.standings.map (Standing.settle listing.canonicalListingId .inactive) := by
  rw [inactivate, insertEvent_standings]
  exact updateListing_settles fun _ => by rfl

/-- The inactivations of different listings. -/
theorem inactivates_gives (ids : IdSupply) (now : Timestamp) {chosen : List CanonicalListing}
    (distinct : (chosen.map CanonicalListing.canonicalListingId).Nodup) (db : Database) :
    Gives (chosen.map fun listing => (listing.canonicalListingId, .inactive)) [] db
      (chosen.foldl (inactivate ids now) db) := by
  induction chosen generalizing db with
  | nil => exact gives_none rfl (posts_of_events rfl)
  | cons listing rest ih =>
      obtain ⟨apart, distinct⟩ := List.nodup_cons.mp distinct
      refine Gives.cons (fun member => apart ?_) (inactivate_standings listing db)
        (inactivate_posts listing db) (ih distinct _)
      rwa [List.map_map] at member

/-- Inactivation ends candidates and active listings. -/
theorem inactivateUnsupported_gives (ids : IdSupply) (now : Timestamp)
    (state : Database × DisappearanceSummary) (tracked : Tracked ids state.1) :
    ∃ verdicts, Gives verdicts [] state.1 (inactivateUnsupported ids now state).1 ∧
      ∀ verdict ∈ verdicts, verdict.2 = .inactive ∧
        ∃ standing ∈ state.1.standings, standing.listingId = verdict.1 ∧
          (standing.lifecycleStatus = .active ∨ standing.lifecycleStatus = .candidate) := by
  unfold inactivateUnsupported
  dsimp only
  split
  · exact ⟨[], gives_none rfl (posts_of_events rfl), by simp⟩
  · split
    · exact ⟨[], gives_none rfl (posts_of_events rfl), by simp⟩
    · refine ⟨_, inactivates_gives ids now
        (tracked.listingIds.sublist (List.filter_sublist.map _)) state.1, ?_⟩
      intro verdict member
      obtain ⟨listing, chosen, rfl⟩ := List.mem_map.mp member
      obtain ⟨inside, eligible⟩ := List.mem_filter.mp chosen
      simp only [Bool.and_eq_true, Bool.or_eq_true, decide_eq_true_eq] at eligible
      exact ⟨rfl, listing.standing, List.mem_map_of_mem inside, rfl, eligible.1.1⟩

/-- A gate-passed run posts a key for each link it finds missing, and then gives its
verdicts. -/
theorem processSourceRun_gives (tracked : Tracked ids db) {sourceRunId : Uuid} {run : SourceRun}
    {summary : DisappearanceSummary} (found : db.sourceRun? sourceRunId = some run)
    (passed : run.healthGatePassed = some true)
    (processed : db.processSourceRun ids now sourceRunId = .ok (next, summary)) :
    ∃ verdicts, Gives verdicts (((db.links.filter (judges run)).filter
          (db.firstMissed now run (db.observedInRun run.sourceRunId))).map
            (missingKey run.sourceRunId)) db next ∧
      ∀ verdict ∈ verdicts, verdict.2 = .inactive ∧
        ∃ standing ∈ db.standings, standing.listingId = verdict.1 ∧
          (standing.lifecycleStatus = .active ∨ standing.lifecycleStatus = .candidate) := by
  obtain rfl := processSourceRun_passed found passed processed
  obtain rfl : run.sourceRunId = sourceRunId := key_of_get found
  have quiet := processLinks_quiet ids now run (db.observedInRun run.sourceRunId)
    (db.links.filter (judges run)) (db, {})
  have posted := processLinks_posts ids now run (db.observedInRun run.sourceRunId)
    (db.links.filter (judges run)) (db, {})
  have standings := standings_congr (processLinks_inventoryKept ids now run
    (db.observedInRun run.sourceRunId) (db.links.filter (judges run)) (db, {})).listings
  obtain ⟨verdicts, gives, each⟩ :=
    inactivateUnsupported_gives ids now _ (tracked.moves quiet.refines)
  rw [standings] at each
  exact ⟨verdicts, ⟨gives.distinct,
    gives.standings.trans (congrArg (List.map (decided verdicts)) standings),
    posted.trans gives.posted⟩, each⟩

end Database

end RentalAgent
