import RentalAgent.Canonical.Ownership
import RentalAgent.Canonical.Resolution

/-! # The services refine the ledger

Each operation of the services takes steps of the ownership ledger. An operation
that is refused writes nothing, so only the successful ones are considered.
-/

namespace RentalAgent

open Absorption Relational Relation Transition

namespace Database

variable {env : Environment} {ids : IdSupply} {now : Timestamp} {db next : Database}
  {row : SourceObservation} {observation : ParsedSourceObservation} {method : DiscoveryMethod}
  {outcome : NormalizationOutcome}

/-! ## Normalization -/

theorem known_of_item {id owner : Uuid} (member : (id, owner) ∈ db.ledger.owners) :
    id ∈ db.known :=
  List.mem_append_left _ (List.mem_append_right _ (List.mem_map_of_mem member))

theorem standing_of_mem {listing : CanonicalListing} (member : listing ∈ db.listings)
    (standing : listing.lifecycleStatus ≠ .merged) :
    (listing.canonicalListingId, false) ∈ db.ledger.nodes :=
  List.mem_map.mpr ⟨listing, member, by simp [CanonicalListing.isMerged, standing]⟩

@[simp] theorem ledger_insertLink (link : ListingSourceLink) (db : Database) :
    (db.insertLink link).ledger =
      db.ledger.attach link.listingSourceLinkId link.canonicalListingId := by
  simp only [ledger, insertLink, Ledger.attach, List.map_append, List.map_singleton]

@[simp] theorem ledger_insertListing (listing : CanonicalListing) (db : Database)
    (standing : listing.isMerged = false) :
    (db.insertListing listing).ledger = db.ledger.enter listing.canonicalListingId := by
  simp only [ledger, insertListing, Ledger.enter, List.map_append, List.map_singleton, standing]

/-- A new link of a standing listing is attached in the ledger. -/
theorem insertLink_grows (tracked : Tracked ids db) (link : ListingSourceLink)
    (drawn : link.listingSourceLinkId = ids.uuid db.drawn)
    (standing : (link.canonicalListingId, false) ∈ db.ledger.nodes) :
    Grows ids db (db.insertLink link) := by
  refine ⟨?_, Nat.le_succ _, ?_⟩
  · rw [ledger_insertLink]
    refine .single (.attach _ _ (fun member => ?_) standing)
    obtain ⟨⟨id, owner⟩, inside, same⟩ := List.mem_map.mp member
    exact tracked.fresh (Nat.le_refl _) (drawn ▸ same ▸ known_of_item inside)
  · intro id member
    rw [known, ledger_insertLink] at member
    simp only [Ledger.attach, List.map_append, List.mem_append, List.map_singleton,
      List.mem_singleton] at member
    rcases member with (node | old | new) | key
    · exact .inl (by simp [known, node])
    · exact .inl (by simp [known, old])
    · exact .inr ⟨db.drawn, Nat.le_refl _, Nat.lt_succ_self _, drawn.symm.trans new.symm⟩
    · exact .inl (by simp [known, key])

/-- A new listing enters the ledger. -/
theorem insertListing_grows (tracked : Tracked ids db) (listing : CanonicalListing)
    (drawn : listing.canonicalListingId = ids.uuid db.drawn)
    (standing : listing.isMerged = false) : Grows ids db (db.insertListing listing) := by
  refine ⟨?_, Nat.le_succ _, ?_⟩
  · rw [ledger_insertListing listing db standing]
    refine .single (.enter _ fun member => ?_)
    exact tracked.fresh (Nat.le_refl _)
      (List.mem_append_left _ (List.mem_append_left _ (drawn ▸ member)))
  · intro id member
    rw [known, ledger_insertListing listing db standing] at member
    simp only [Ledger.enter, List.map_append, List.mem_append, List.map_singleton,
      List.mem_singleton] at member
    rcases member with ((old | new) | item) | key
    · exact .inl (by simp [known, old])
    · exact .inr ⟨db.drawn, Nat.le_refl _, Nat.lt_succ_self _, drawn.symm.trans new.symm⟩
    · exact .inl (by simp [known, item])
    · exact .inl (by simp [known, key])

/-- A link attached to a standing listing lets the ledger grow. -/
theorem attachCrossSourceLink_grows (tracked : Tracked env.ids db) {listing : CanonicalListing}
    (member : listing ∈ db.listings) (standing : listing.lifecycleStatus ≠ .merged)
    (identity : IdentityMethod) (confidence : IdentityConfidence) :
    Grows env.ids db
      (db.attachCrossSourceLink env row listing method identity confidence).1 := by
  have attached := insertLink_grows tracked
    (newLink row method (env.ids.uuid db.drawn) listing.canonicalListingId identity confidence) rfl
    (standing_of_mem member standing)
  refine attached.trans (Quiet.refines ?_)
  apply quiet_updateListing_keeps
  exact fun _ => ⟨rfl, rfl⟩

/-- A started listing enters the ledger with its link. -/
theorem startListing_grows (tracked : Tracked env.ids db) {building : Building}
    {unitId : Option Uuid}
    (started : db.startListing env now row observation method building unitId =
      .ok (next, outcome)) : Grows env.ids db next := by
  have admitted := insertListing_grows tracked
    (newListing row observation (env.ids.uuid db.drawn) building.buildingId unitId) rfl rfl
  have attached := insertLink_grows (tracked.moves admitted.moves)
    (newLink row method (env.ids.uuid (db.drawn + 1)) (env.ids.uuid db.drawn)
      .sourceNativeContinuity .high) rfl
    (List.mem_map.mpr ⟨_, List.mem_append_right _ (List.mem_singleton_self _), rfl⟩)
  exact (admitted.trans attached).trans (startListing_evidenceOnly started).quiet.refines

/-- A new identity lets the ledger grow. -/
theorem createCanonical_grows (tracked : Tracked env.ids db)
    (created : db.createCanonical env now row observation method = .ok (next, outcome)) :
    Grows env.ids db next := by
  obtain ⟨place, building, unitMatch, resolved, creation⟩ := createCanonical_cases created
  have placed : Grows env.ids db place := (resolvePlace_placeOnly resolved).quiet.refines
  have tracked' := tracked.moves placed.moves
  refine placed.trans ?_
  generalize result : Except.ok (next, outcome) = ended at creation
  cases creation with
  | exact =>
      obtain ⟨member, _, standing⟩ := latestListingOn_eq_some (resolvePlace_occupied resolved)
      cases result
      exact attachCrossSourceLink_grows tracked' member standing _ _
  | strong found =>
      obtain ⟨member, standing⟩ := strongMatch_of_strongMultiFieldMatch found
      cases result
      exact attachCrossSourceLink_grows tracked' member standing _ _
  | vacant => exact startListing_grows tracked' result.symm
  | unmatched _ => exact startListing_grows tracked' result.symm

/-- Touching the freshness leaves the ledger alone. -/
theorem touchFreshness_quiet (link : ListingSourceLink) (listing : CanonicalListing)
    (row : SourceObservation) (db : Database) : Quiet db (db.touchFreshness link listing row) := by
  have listed : ∀ (db : Database) (id : Uuid), Quiet db (db.updateListing id fun listing =>
      { listing with lastSeenAt := max listing.lastSeenAt row.observedAt }) :=
    fun db id => quiet_updateListing_keeps fun _ => ⟨rfl, rfl⟩
  unfold touchFreshness
  dsimp only
  split
  · refine Quiet.trans ?_ (listed _ _)
    apply quiet_updateLink
    exact fun _ => ⟨rfl, rfl⟩
  · exact listed db _

/-- An observation with a known identity moves no link and merges nothing. -/
theorem updateExisting_quiet {link : ListingSourceLink}
    (updated : db.updateExisting env now row observation link = .ok (next, outcome)) :
    Quiet db next := by
  obtain ⟨listing, _, update⟩ := updateExisting_cases updated
  exact update.within ⟨.refl, .trans⟩ (touchFreshness_quiet link listing row db)
    (fun facts => facts.evidenceOnly.quiet) (fun _ _ _ _ => (raiseConflict_evidenceOnly ..).quiet)
    (fun _ _ _ _ _ => (emitEvent_evidenceOnly ..).quiet)
    fun write fields _ => quiet_updateListing_keeps fun listing => by rw [fields]; exact ⟨rfl, rfl⟩

/-- Normalization lets the ledger grow, or leaves it alone. -/
theorem processObservation_grows {observationId : Uuid}
    (processed : db.processObservation env now method observationId = .ok (next, outcome))
    (tracked : Tracked env.ids db) : Grows env.ids db next := by
  obtain ⟨row, -, processes⟩ := processObservation_processes processed
  cases processes with
  | aside _ same =>
      cases same
      exact .refl env.ids _
  | opened _ _ created => exact createCanonical_grows tracked created
  | continued _ _ updated => exact (updateExisting_quiet updated).refines

/-! ## Merges -/

variable {request : MergeRequest} {merge : CanonicalMerge}

/-- What `merge_listings` has checked when it writes. -/
theorem mergeListings_eq_ok (merged : db.mergeListings ids now request = .ok (next, merge)) :
    request.sourceListingId ≠ request.targetListingId ∧
      ∃ source target, db.listing? request.sourceListingId = some source ∧
        db.listing? request.targetListingId = some target ∧
          source.lifecycleStatus ≠ .merged ∧ target.lifecycleStatus ≠ .merged ∧
            db.applyMerge ids now request source = (next, merge) := by
  simp only [mergeListings, bind_eq_ok, refuse_eq_ok, require_eq_ok] at merged
  obtain ⟨_, _, _, apart, source, sourceFound, target, targetFound, _, sourceStanding, _,
    targetStanding, wrote⟩ := merged
  cases wrote
  exact ⟨apart, source, target, sourceFound, targetFound, sourceStanding, targetStanding, rfl⟩

/-- What `reverse_merge` has checked when it writes. -/
theorem reverseMerge_eq_ok {mergeId : Uuid} {actor reason : String} {actorType : ActorType}
    (reversed : db.reverseMerge ids now mergeId actor actorType reason = .ok next) :
    actorType = .human ∧ ∃ merge, db.merge? mergeId = some merge ∧ merge.reversedAt = none ∧
      db.applyReversal ids now merge actor actorType reason = next := by
  simp only [reverseMerge, requireHuman, bind_eq_ok, refuse_eq_ok, require_eq_ok] at reversed
  obtain ⟨_, human, merge, found, _, opened, _, _, wrote⟩ := reversed
  cases wrote
  exact ⟨Decidable.not_not.mp human, merge, found, by simpa using opened, rfl⟩

/-- Setting whether a listing is merged marks its node. -/
theorem nodes_updateListing {id : Uuid} {flag : Bool} {change : CanonicalListing → CanonicalListing}
    (marks : ∀ listing, (change listing).canonicalListingId = listing.canonicalListingId ∧
      (change listing).isMerged = flag) :
    (db.updateListing id change).ledger.nodes = Ledger.mark id flag db.ledger.nodes := by
  simp only [ledger, updateListing, updateWhere, Ledger.mark, List.map_map]
  apply List.map_congr_left
  intro listing _
  by_cases same : listing.canonicalListingId = id
  · simp [same, (marks listing).2, (marks listing).1.trans same]
  · simp [same]

theorem itemsOf_ledger (id : Uuid) : db.ledger.itemsOf id =
    (db.links.filter (ListingSourceLink.ownedBy id)).map
      ListingSourceLink.listingSourceLinkId := by
  simp only [Ledger.itemsOf, ledger, List.filter_map, List.map_map]
  rfl

/-- A merge absorbs its source into its target. -/
theorem ledger_applyMerge (ids : IdSupply) (now : Timestamp) (request : MergeRequest)
    (source : CanonicalListing) (db : Database) :
    (db.applyMerge ids now request source).1.ledger =
      db.ledger.absorb (ids.uuid db.drawn) request.sourceListingId request.targetListingId := by
  unfold applyMerge
  dsimp only
  rw [(insertEvent_evidenceOnly ids _ _).quiet.ledger,
    (quiet_updateListing_keeps (by intro _; exact ⟨rfl, rfl⟩)).ledger]
  refine Ledger.ext (nodes_updateListing fun _ => ⟨rfl, rfl⟩) ?_ ?_
  · simp only [ledger, updateListing, updateWhere, Ledger.absorb, List.map_map]
    apply List.map_congr_left
    intro link _
    by_cases owned : link.canonicalListingId = request.sourceListingId <;>
      simp [ListingSourceLink.ownedBy, owned]
  · rw [Ledger.absorb, itemsOf_ledger]
    simp only [ledger, updateListing, List.map_append, List.map_singleton]
    rfl

/-- A reversal releases the absorption of its merge. -/
theorem ledger_applyReversal (ids : IdSupply) (now : Timestamp) (merge : CanonicalMerge)
    (actor : String) (actorType : ActorType) (reason : String) (db : Database) :
    (db.applyReversal ids now merge actor actorType reason).ledger =
      db.ledger.release merge.entry := by
  unfold applyReversal
  dsimp only
  refine Ledger.ext (nodes_updateListing fun _ => ⟨rfl, rfl⟩) ?_ ?_
  · simp only [ledger, updateListing, updateWhere, Ledger.release, List.map_map]
    apply List.map_congr_left
    intro link _
    by_cases moved : link.listingSourceLinkId ∈ merge.movedLinkIds <;>
      simp [CanonicalMerge.entry, moved]
  · simp only [ledger, updateListing, updateWhere, Ledger.release, List.map_map]
    apply List.map_congr_left
    intro row _
    by_cases same : row.canonicalMergeId = merge.canonicalMergeId <;>
      simp [CanonicalMerge.entry, same]

theorem standing_of_found {id : Uuid} {listing : CanonicalListing}
    (found : db.listing? id = some listing) (standing : listing.lifecycleStatus ≠ .merged) :
    (id, false) ∈ db.ledger.nodes :=
  key_of_get found ▸ standing_of_mem (mem_of_get found) standing

theorem drawn_applyMerge (ids : IdSupply) (now : Timestamp) (request : MergeRequest)
    (source : CanonicalListing) (db : Database) :
    db.drawn < (db.applyMerge ids now request source).1.drawn := by
  unfold applyMerge
  refine Nat.lt_of_lt_of_le ?_ (insertEvent_evidenceOnly ids _ _).drawn
  exact Nat.lt_add_of_pos_right Nat.two_pos

/-- A merge absorbs its source into its target. -/
theorem mergeListings_moves (tracked : Tracked ids db)
    (merged : db.mergeListings ids now request = .ok (next, merge)) : Moves ids db next := by
  obtain ⟨apart, source, target, sourceFound, targetFound, sourceStanding, targetStanding,
    wrote⟩ := mergeListings_eq_ok merged
  have absorbed := ledger_applyMerge ids now request source db
  have drawn := drawn_applyMerge ids now request source db
  rw [wrote] at absorbed drawn
  refine ⟨?_, Nat.le_of_lt drawn, fun id member => ?_⟩
  · rw [absorbed]
    refine .single (.absorb _ _ _ ?_ apart (standing_of_found sourceFound sourceStanding)
      (standing_of_found targetFound targetStanding))
    exact fun used => tracked.fresh (Nat.le_refl _) (List.mem_append_right _ used)
  · rw [known, absorbed, Ledger.items_absorb] at member
    simp only [Ledger.absorb, Ledger.map_fst_mark, List.map_append, List.map_singleton,
      List.mem_append, List.mem_singleton] at member
    rcases member with (node | item) | old | new
    · exact .inl (by simp [known, node])
    · exact .inl (by simp [known, item])
    · exact .inl (by simp [known, old])
    · exact .inr ⟨db.drawn, Nat.le_refl _, drawn, new.symm⟩

/-- The outstanding absorptions are the merges that were not reversed. -/
theorem mem_outstanding {entry : Entry Uuid Uuid Uuid} :
    entry ∈ db.ledger.outstanding ↔
      ∃ merge ∈ db.merges, merge.reversedAt = none ∧ merge.entry = entry := by
  rw [Ledger.outstanding, List.mem_filter]
  constructor
  · rintro ⟨member, opened⟩
    obtain ⟨merge, inside, rfl⟩ := List.mem_map.mp member
    exact ⟨merge, inside, by simpa [CanonicalMerge.entry] using opened, rfl⟩
  · rintro ⟨merge, inside, opened, rfl⟩
    exact ⟨List.mem_map_of_mem inside, by simp [CanonicalMerge.entry, opened]⟩

/-- A reversal releases what its merge absorbed. -/
theorem reverseMerge_moves {mergeId : Uuid} {actor reason : String} {actorType : ActorType}
    (reversed : db.reverseMerge ids now mergeId actor actorType reason = .ok next) :
    Moves ids db next := by
  obtain ⟨_, merge, found, opened, rfl⟩ := reverseMerge_eq_ok reversed
  have released := ledger_applyReversal ids now merge actor actorType reason db
  refine ⟨?_, Nat.le_succ _, fun id member => .inl ?_⟩
  · rw [released]
    exact .single (.release _ (mem_outstanding.mpr ⟨merge, mem_of_get found, opened, rfl⟩))
  · rw [known, released, Ledger.items_release, Ledger.keys_release, Ledger.release,
      Ledger.map_fst_mark] at member
    exact member

theorem closeCandidate_quiet (now : Timestamp) (candidateId : Uuid)
    (status : DuplicateCandidateStatus) (actor : String) (db : Database) :
    Quiet db (db.closeCandidate now candidateId status actor) :=
  ⟨rfl, Nat.le_refl _⟩

/-- A resolution closes its candidate, after merging the pair when it is a duplicate. -/
theorem resolveDuplicateCandidate_eq_ok {candidateId : Uuid} {confirmedDuplicate : Bool}
    {actor : String} {actorType : ActorType} {survivor : Option Uuid}
    (resolved : db.resolveDuplicateCandidate ids now candidateId confirmedDuplicate actor actorType
      survivor = .ok next) :
    next = db.closeCandidate now candidateId .confirmedDistinct actor ∨
      ∃ request middle merge, db.mergeListings ids now request = .ok (middle, merge) ∧
        next = middle.closeCandidate now candidateId .confirmedDuplicate actor := by
  simp only [resolveDuplicateCandidate, bind_eq_ok, refuse_eq_ok, require_eq_ok] at resolved
  obtain ⟨_, _, candidate, _, _, _, resolved⟩ := resolved
  cases confirmedDuplicate with
  | false =>
      cases resolved
      exact .inl rfl
  | true =>
      rw [if_pos rfl] at resolved
      obtain ⟨_, _, resolved⟩ := bind_eq_ok.mp resolved
      obtain ⟨⟨middle, merge⟩, merged, wrote⟩ := bind_eq_ok.mp resolved
      cases wrote
      exact .inr ⟨_, middle, merge, merged, rfl⟩

/-- The review of a candidate makes moves of the ledger. -/
theorem resolveDuplicateCandidate_moves {candidateId : Uuid} {confirmedDuplicate : Bool}
    {actor : String} {actorType : ActorType} {survivor : Option Uuid} (tracked : Tracked ids db)
    (resolved : db.resolveDuplicateCandidate ids now candidateId confirmedDuplicate actor actorType
      survivor = .ok next) : Moves ids db next := by
  obtain rfl | ⟨request, middle, merge, merged, rfl⟩ := resolveDuplicateCandidate_eq_ok resolved
  · exact (closeCandidate_quiet now candidateId _ actor db).refines
  · exact (mergeListings_moves tracked merged).trans
      (closeCandidate_quiet now candidateId _ actor middle).refines

/-! ## Admission and disappearance -/

/-- A verdict about a standing listing leaves the ledger alone. -/
theorem evaluateOne_quiet (valid : db.ledger.Valid) {listing : CanonicalListing}
    (standing : (listing.canonicalListingId, false) ∈ db.ledger.nodes) (address : Address) :
    Quiet db (db.evaluateOne ids now listing address).1 := by
  have admits : ∀ (status : LifecycleStatus) (eventType : ListingEventType) (reason : JsonScalar),
      status ≠ .merged → Quiet db (db.settle ids now listing status eventType reason) := by
    intro status eventType reason apart
    refine Quiet.trans ?_ (insertEvent_evidenceOnly ids _ _).quiet
    apply quiet_setLifecycle valid standing
    exact fun _ => ⟨rfl, by simpa [CanonicalListing.isMerged] using apart⟩
  unfold evaluateOne
  split
  · exact admits _ _ _ (by simp)
  · repeat' split
    all_goals first | exact .refl db | exact admits _ _ _ (by simp)

/-- Candidates for admission stand. -/
theorem candidateRows_standing {row : CanonicalListing × Address}
    (member : row ∈ db.candidateRows) :
    (row.1.canonicalListingId, false) ∈ db.ledger.nodes := by
  obtain ⟨listing, candidate, joined⟩ := List.mem_filterMap.mp member
  obtain ⟨inside, status⟩ := List.mem_filter.mp candidate
  simp only [Bool.or_eq_true, decide_eq_true_eq] at status
  obtain ⟨building, _, joined⟩ := Option.bind_eq_some_iff.mp joined
  obtain ⟨address, _, same⟩ := Option.bind_eq_some_iff.mp joined
  cases same
  refine standing_of_mem inside fun merged => ?_
  rcases status with status | status <;> simp [status] at merged

/-- Verdicts about candidates leave the ledger alone. -/
theorem evaluateCandidates_quiet (valid : db.ledger.Valid) (rank : Uuid → Nat) (limit : Nat) :
    Quiet db (db.evaluateCandidates ids now rank limit).1 := by
  unfold evaluateCandidates
  refine quiet_foldl Prod.fst (db, []) fun row member middle same => ?_
  have standing := candidateRows_standing
    ((List.mem_insertionSort _).mp (List.mem_of_mem_take member))
  exact evaluateOne_quiet (same ▸ valid) (same ▸ standing) row.2

theorem setLinkStatus_quiet (link : ListingSourceLink) (status : LinkStatus) (db : Database) :
    Quiet db (db.setLinkStatus link status) :=
  quiet_updateLink fun _ => ⟨rfl, rfl⟩

/-- A round of the link loop leaves the ledger alone. -/
theorem processLink_quiet (run : SourceRun) (observed : ListingSourceLink → Bool)
    (state : Database × DisappearanceSummary) (link : ListingSourceLink) :
    Quiet state.1 (processLink ids now run observed state link).1 := by
  unfold processLink
  dsimp only
  repeat' split
  all_goals first
    | exact .refl _
    | exact setLinkStatus_quiet ..
    | exact (setLinkStatus_quiet ..).trans (insertEvent_evidenceOnly ..).quiet

theorem processLinks_quiet (ids : IdSupply) (now : Timestamp) (run : SourceRun)
    (observed : ListingSourceLink → Bool) (links : List ListingSourceLink)
    (state : Database × DisappearanceSummary) :
    Quiet state.1 (links.foldl (processLink ids now run observed) state).1 :=
  quiet_foldl Prod.fst state fun link _ middle _ => processLink_quiet run observed middle link

theorem inactivate_quiet (valid : db.ledger.Valid) {listing : CanonicalListing}
    (standing : (listing.canonicalListingId, false) ∈ db.ledger.nodes) :
    Quiet db (inactivate ids now db listing) := by
  refine Quiet.trans ?_ (insertEvent_evidenceOnly ids _ _).quiet
  apply quiet_setLifecycle valid standing
  exact fun _ => ⟨rfl, rfl⟩

/-- A listing that is eligible for inactivation is unmarked in the ledger. -/
theorem eligible_standing {listing : CanonicalListing}
    (member : listing ∈ db.eligibleForInactivation) :
    (listing.canonicalListingId, false) ∈ db.ledger.nodes := by
  obtain ⟨inside, eligible⟩ := List.mem_filter.mp member
  simp only [Bool.and_eq_true, Bool.or_eq_true, decide_eq_true_eq] at eligible
  refine standing_of_mem inside fun merged => ?_
  rcases eligible.1.1 with status | status <;> simp [status] at merged

/-- Inactivations leave the ledger alone. -/
theorem inactivateUnsupported_quiet (ids : IdSupply) (now : Timestamp)
    (state : Database × DisappearanceSummary) (valid : state.1.ledger.Valid) :
    Quiet state.1 (inactivateUnsupported ids now state).1 := by
  unfold inactivateUnsupported
  dsimp only
  split
  · exact .refl state.1
  · split
    · exact ⟨rfl, Nat.le_succ _⟩
    · exact quiet_foldl id state.1 fun listing member middle same =>
        inactivate_quiet (same ▸ valid) (same ▸ eligible_standing member)

/-- A refused run leaves everything as it is; a run that passed its gate goes over the links of
its source and then over the listings. -/
theorem processSourceRun_eq_ok {sourceRunId : Uuid} {summary : DisappearanceSummary}
    (processed : db.processSourceRun ids now sourceRunId = .ok (next, summary)) :
    ∃ run, db.sourceRun? sourceRunId = some run ∧
      ((run.healthGatePassed ≠ some true ∧ next = db) ∨
        run.healthGatePassed = some true ∧ next = (inactivateUnsupported ids now
          ((db.links.filter fun link => link.sourceId = run.sourceId &&
            (link.linkStatus = .active || link.linkStatus = .missing)).foldl
              (processLink ids now run (db.observedInRun sourceRunId)) (db, {}))).1) := by
  unfold processSourceRun at processed
  split at processed
  · cases processed
  · rename_i run found
    refine ⟨run, found, ?_⟩
    split at processed
    · rename_i refused
      cases processed
      exact .inl ⟨refused, rfl⟩
    · rename_i passed
      exact .inr ⟨not_not.mp passed, (congrArg Prod.fst (Except.ok.inj processed)).symm⟩

/-- A source run leaves the ledger alone. -/
theorem processSourceRun_quiet {sourceRunId : Uuid} {summary : DisappearanceSummary}
    (valid : db.ledger.Valid)
    (processed : db.processSourceRun ids now sourceRunId = .ok (next, summary)) :
    Quiet db next := by
  obtain ⟨run, -, ⟨-, rfl⟩ | ⟨-, rfl⟩⟩ := processSourceRun_eq_ok processed
  · exact .refl _
  · have linked := processLinks_quiet ids now run (db.observedInRun sourceRunId)
      (db.links.filter fun link => link.sourceId = run.sourceId &&
        (link.linkStatus = .active || link.linkStatus = .missing)) (db, {})
    exact linked.trans (inactivateUnsupported_quiet ids now _ (linked.ledger ▸ valid))

end Database

end RentalAgent
