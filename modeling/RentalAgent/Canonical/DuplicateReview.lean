import RentalAgent.Canonical.CircuitBreaker
import RentalAgent.Canonical.Identity

/-! # The review of duplicate candidates

Every pending candidate has one issue of its own (`Database.Docketed`), and a human
verdict closes just that issue. A verdict needs both listings of the pair to stand:
nothing but a merge takes that away, and a merge leaves the other pending candidates
of its source as they are (`Database.reached_resolvable_iff`).
-/

namespace RentalAgent

open Absorption Relational Transition

/-- The candidate that the details of an issue name. -/
def ReviewIssue.candidate? (issue : ReviewIssue) : Option Uuid :=
  match issue.details with
  | .duplicateCandidate id _ _ => some id
  | .overrideConflict .. | .circuitBreaker .. => none

/-- The issue after a verdict. -/
def ReviewIssue.closed (now : Timestamp) (actor : String) (issue : ReviewIssue) : ReviewIssue :=
  { issue with status := .resolved, resolvedAt := some now, resolvedBy := some actor }

/-- The listing is one of the pair. -/
def DuplicateCandidate.Names (candidate : DuplicateCandidate) (listingId : Uuid) : Prop :=
  candidate.listingAId = listingId ∨ candidate.listingBId = listingId

instance (candidate : DuplicateCandidate) (listingId : Uuid) :
    Decidable (candidate.Names listingId) :=
  inferInstanceAs (Decidable (_ ∨ _))

/-- The survivor a verdict asks for is one of the pair; the first one is the default. -/
def DuplicateCandidate.Admits (candidate : DuplicateCandidate) (survivor : Option Uuid) : Prop :=
  candidate.Names (survivor.getD candidate.listingAId)

namespace Database

/-- The listing exists and is not merged. -/
def Stands (db : Database) (listingId : Uuid) : Prop :=
  ∃ listing ∈ db.listings, listing.canonicalListingId = listingId ∧
    listing.lifecycleStatus ≠ .merged

/-- One issue was closed, the one that surfaces the candidate. -/
def ClosesIssue (candidate : DuplicateCandidate) (now : Timestamp) (actor : String)
    (db next : Database) : Prop :=
  ∃ before issue after, issue.Surfaces candidate ∧
    db.reviewIssues = before ++ issue :: after ∧
      next.reviewIssues = before ++ issue.closed now actor :: after

/-- A human can resolve the candidate either way: the pair is two standing listings, and
every verdict succeeds and closes the issue of the candidate. -/
structure Resolvable (ids : IdSupply) (db : Database) (candidate : DuplicateCandidate) :
    Prop where
  distinct : candidate.listingAId ≠ candidate.listingBId
  firstStands : db.Stands candidate.listingAId
  secondStands : db.Stands candidate.listingBId
  resolves : ∀ now actor confirmedDuplicate survivor,
    (confirmedDuplicate = true → candidate.Admits survivor) →
      ∃ next, db.resolveDuplicateCandidate ids now candidate.duplicateCandidateId
        confirmedDuplicate actor .human survivor = .ok next ∧
          ClosesIssue candidate now actor db next

/-- Every pending candidate can be resolved. -/
def PendingResolvable (ids : IdSupply) (db : Database) : Prop :=
  ∀ candidate ∈ db.duplicateCandidates, candidate.status = .pending →
    db.Resolvable ids candidate

/-- No pending candidate names the listing, those with the given id left aside. -/
def Unlisted (db : Database) (listingId : Uuid) (aside : Uuid → Prop) : Prop :=
  ∀ candidate ∈ db.duplicateCandidates, candidate.status = .pending →
    candidate.Names listingId → aside candidate.duplicateCandidateId

/-- The call merges away no listing of a pending candidate, but that of the candidate
it resolves. -/
def SparesPending (db : Database) : ServiceAction → Prop
  | .mergeListings _ request =>
      (request.reasonCode = .manual → request.actorType = .human) →
        request.sourceListingId ≠ request.targetListingId →
          db.Stands request.sourceListingId → db.Stands request.targetListingId →
            db.Unlisted request.sourceListingId fun _ => False
  | .resolveDuplicateCandidate _ candidateId confirmedDuplicate _ actorType survivor =>
      confirmedDuplicate = true → actorType = .human →
        ∀ candidate ∈ db.duplicateCandidates, candidate.duplicateCandidateId = candidateId →
          candidate.status = .pending → candidate.Admits survivor →
            db.Unlisted (candidate.mergedAway (survivor.getD candidate.listingAId))
              fun other => other = candidateId
  | .processObservation .. | .reverseMerge .. | .evaluateCandidates .. | .processSourceRun ..
  | .outside _ => True

/-- The docket: candidates and the issues about them are told apart by their ids, which
were drawn, and every pending candidate is surfaced. -/
structure Docketed (ids : IdSupply) (db : Database) : Prop where
  candidateIds : PrimaryKey DuplicateCandidate.duplicateCandidateId db.duplicateCandidates
  candidateDrawn : ∀ candidate ∈ db.duplicateCandidates,
    ∃ k < db.drawn, ids.uuid k = candidate.duplicateCandidateId
  distinct : ∀ candidate ∈ db.duplicateCandidates, candidate.listingAId ≠ candidate.listingBId
  issueCandidates : UniqueIndex (fun issue => issue.candidate?.isSome = true)
    ReviewIssue.candidate? db.reviewIssues
  issueDrawn : ∀ issue ∈ db.reviewIssues, ∀ id, issue.candidate? = some id →
    ∃ k < db.drawn, ids.uuid k = id
  surfaced : ∀ candidate ∈ db.duplicateCandidates, candidate.status = .pending →
    ∃ issue ∈ db.reviewIssues, issue.Surfaces candidate

/-- Both listings of every pending candidate stand. -/
def PendingStand (db : Database) : Prop :=
  ∀ candidate ∈ db.duplicateCandidates, candidate.status = .pending → ∀ listingId,
    candidate.Names listingId → (listingId, false) ∈ db.ledger.nodes

variable {ids : IdSupply} {unicode : UnicodeTables} {env : Environment} {now : Timestamp}
  {db middle next : Database} {row : SourceObservation} {observation : ParsedSourceObservation}
  {method : DiscoveryMethod} {outcome : NormalizationOutcome}

/-- A listing stands when it is a root of the ledger. -/
theorem stands_iff {listingId : Uuid} :
    db.Stands listingId ↔ (listingId, false) ∈ db.ledger.nodes := by
  constructor
  · rintro ⟨listing, member, rfl, standing⟩
    exact standing_of_mem member standing
  · intro node
    obtain ⟨listing, member, same⟩ := List.mem_map.mp node
    refine ⟨listing, member, congrArg Prod.fst same, fun merged => ?_⟩
    have mark := congrArg Prod.snd same
    simp [CanonicalListing.isMerged, merged] at mark

theorem surfacesCandidate_iff {candidateId : Uuid} {issue : ReviewIssue} :
    issue.surfacesCandidate candidateId = true ↔ issue.issueType = .duplicateCandidate ∧
      issue.status = .open ∧ issue.candidate? = some candidateId := by
  unfold ReviewIssue.surfacesCandidate ReviewIssue.candidate?
  cases issue.details <;> simp [and_assoc]

theorem surfaces_candidate? {issue : ReviewIssue} {candidate : DuplicateCandidate}
    (surfaces : issue.Surfaces candidate) :
    issue.candidate? = some candidate.duplicateCandidateId := by
  simp [ReviewIssue.candidate?, surfaces.details]

/-! ## Steps beside the docket -/

/-- The step wrote no candidate and no issue about one. -/
structure Undocketed (db next : Database) : Prop where
  candidates : next.duplicateCandidates = db.duplicateCandidates
  issues : ∃ added, next.reviewIssues = db.reviewIssues ++ added ∧
    ∀ issue ∈ added, issue.candidate? = none

theorem undocketed_of_same (candidates : next.duplicateCandidates = db.duplicateCandidates)
    (issues : next.reviewIssues = db.reviewIssues) : Undocketed db next :=
  ⟨candidates, [], by rw [issues, List.append_nil], by simp⟩

theorem undocketed_of_added (candidates : next.duplicateCandidates = db.duplicateCandidates)
    {issue : ReviewIssue} (issues : next.reviewIssues = db.reviewIssues ++ [issue])
    (other : issue.candidate? = none) : Undocketed db next :=
  ⟨candidates, [issue], issues, by simpa using other⟩

theorem Undocketed.refl (db : Database) : Undocketed db db := undocketed_of_same rfl rfl

/-- Two steps off the docket are off it together. -/
theorem Undocketed.trans (first : Undocketed db middle) (second : Undocketed middle next) :
    Undocketed db next := by
  obtain ⟨added, issues, others⟩ := first.issues
  obtain ⟨later, laterIssues, laterOthers⟩ := second.issues
  refine ⟨second.candidates.trans first.candidates, added ++ later, ?_, ?_⟩
  · rw [laterIssues, issues, List.append_assoc]
  · intro issue member
    exact (List.mem_append.mp member).elim (others issue) (laterOthers issue)

theorem undocketed_composes : Composes Undocketed := ⟨.refl, .trans⟩

theorem LinksOnly.undocketed (links : LinksOnly db next) : Undocketed db next := by
  rw [links.frame]
  exact undocketed_of_same rfl rfl

theorem insertEvent_undocketed (event : Uuid → ListingEvent) (db : Database) :
    Undocketed db (db.insertEvent ids event).1 :=
  (insertEvent_eventsOnly ids event db).linksOnly.undocketed

theorem FactsOnly.undocketed (facts : FactsOnly db next) : Undocketed db next := by
  rw [facts.frame]
  exact undocketed_of_same rfl rfl

/-- A conflict with an override is an issue about no candidate. -/
theorem raiseConflict_undocketed (override : HumanOverride) (entityId : Uuid) (factKey : String)
    (incoming : JsonScalar) (db : Database) :
    Undocketed db (db.raiseConflictWithOverride ids override entityId factKey incoming) := by
  unfold raiseConflictWithOverride
  split
  · exact .refl db
  · exact undocketed_of_added rfl rfl rfl

/-- An update of a known identity proposes no duplicates. -/
theorem Update.undocketed {link : ListingSourceLink} {listing : CanonicalListing}
    (update : Update env row observation link listing db next) : Undocketed db next := by
  have touched : Undocketed db (db.touchFreshness link listing row) := by
    rw [touchFreshness_frame]
    exact undocketed_of_same rfl rfl
  exact update.within undocketed_composes touched FactsOnly.undocketed
    (fun _ _ _ db => raiseConflict_undocketed _ _ _ _ db)
    (fun _ _ _ _ db => insertEvent_undocketed _ db) fun _ _ _ => undocketed_of_same rfl rfl

theorem applyMerge_undocketed (request : MergeRequest) (source : CanonicalListing)
    (db : Database) : Undocketed db (db.applyMerge ids now request source).1 := by
  unfold applyMerge
  dsimp only
  refine Undocketed.trans ?_ (insertEvent_undocketed _ _)
  exact undocketed_of_same rfl rfl

/-- A merge writes no issues. -/
theorem applyMerge_reviewIssues (request : MergeRequest) (source : CanonicalListing)
    (db : Database) :
    (db.applyMerge ids now request source).1.reviewIssues = db.reviewIssues := by
  unfold applyMerge
  dsimp only
  rw [(insertEvent_inventoryKept _ _).reviewIssues]
  rfl

/-- A verdict about a listing proposes no duplicates. -/
theorem evaluateOne_undocketed (listing : CanonicalListing) (address : Address) (db : Database) :
    Undocketed db (db.evaluateOne ids now listing address).1 := by
  have settled : ∀ status eventType reason,
      Undocketed db (db.settle ids now listing status eventType reason) := by
    intro status eventType reason
    refine Undocketed.trans ?_ (insertEvent_undocketed _ _)
    exact undocketed_of_same rfl rfl
  unfold evaluateOne
  repeat' split
  all_goals first | exact .refl db | exact settled _ _ _

theorem evaluateCandidates_undocketed (scan : Uuid → Nat) (limit : Nat) (db : Database) :
    Undocketed db (db.evaluateCandidates ids now scan limit).1 := by
  refine undocketed_composes.foldl Prod.fst (fun state row => ?_) _
    ((db, []) : Database × List AdmissionOutcome)
  exact evaluateOne_undocketed row.1 row.2 state.1

/-- Inactivations propose no duplicates, nor does the blocking issue. -/
theorem inactivateUnsupported_undocketed (state : Database × DisappearanceSummary) :
    Undocketed state.1 (inactivateUnsupported ids now state).1 := by
  unfold inactivateUnsupported
  dsimp only
  split
  · exact .refl _
  · split
    · exact undocketed_of_added rfl rfl rfl
    · refine undocketed_composes.foldl id (fun db listing => ?_) _ state.1
      refine Undocketed.trans ?_ (insertEvent_undocketed _ _)
      exact undocketed_of_same rfl rfl

/-- Looking for what has disappeared leaves the docket alone. -/
theorem processSourceRun_undocketed {sourceRunId : Uuid} {summary : DisappearanceSummary}
    (processed : db.processSourceRun ids now sourceRunId = .ok (next, summary)) :
    Undocketed db next := by
  obtain ⟨run, -, ⟨-, rfl⟩ | ⟨-, rfl⟩⟩ := processSourceRun_eq_ok processed
  · exact .refl _
  · exact (processLinks_linksOnly _ _ _ (db, {})).undocketed.trans
      (inactivateUnsupported_undocketed _)

/-! ## The docket -/

theorem docketed_empty (ids : IdSupply) : Docketed ids Database.empty where
  candidateIds := uniqueIndex_nil
  candidateDrawn := by simp [Database.empty]
  distinct := by simp [Database.empty]
  issueCandidates := uniqueIndex_nil
  issueDrawn := by simp [Database.empty]
  surfaced := by simp [Database.empty]

/-- Steps beside the docket keep it. -/
theorem Docketed.undocketed (docketed : Docketed ids db) (other : Undocketed db next)
    (drawn : db.drawn ≤ next.drawn) : Docketed ids next := by
  obtain ⟨candidates, added, issues, others⟩ := other
  have later : ∀ {id}, (∃ k < db.drawn, ids.uuid k = id) → ∃ k < next.drawn, ids.uuid k = id :=
    fun ⟨k, earlier, same⟩ => ⟨k, Nat.lt_of_lt_of_le earlier drawn, same⟩
  have unnamed : ∀ issue ∈ added, ∀ id, issue.candidate? ≠ some id := by
    intro issue member id
    simp [others issue member]
  refine ⟨candidates ▸ docketed.candidateIds, ?_, candidates ▸ docketed.distinct, ?_, ?_, ?_⟩
  · rw [candidates]
    exact fun candidate member => later (docketed.candidateDrawn candidate member)
  · rw [issues, UniqueIndex, List.pairwise_append]
    refine ⟨docketed.issueCandidates, ?_, ?_⟩
    · refine List.pairwise_of_forall_mem_list fun first firstMem _ _ firstNames _ => ?_
      obtain ⟨id, names⟩ := Option.isSome_iff_exists.mp firstNames
      exact (unnamed first firstMem id names).elim
    · intro _ _ last lastMem _ lastNames
      obtain ⟨id, names⟩ := Option.isSome_iff_exists.mp lastNames
      exact (unnamed last lastMem id names).elim
  · intro issue member id names
    rw [issues] at member
    rcases List.mem_append.mp member with old | new
    · exact later (docketed.issueDrawn issue old id names)
    · exact (unnamed issue new id names).elim
  · rw [candidates, issues]
    intro candidate member pending
    obtain ⟨issue, inside, surfaces⟩ := docketed.surfaced candidate member pending
    exact ⟨issue, List.mem_append_left _ inside, surfaces⟩

/-- A round of proposals opens a candidate with its issue, about two standing listings. -/
theorem proposeDuplicate_docketed (docketed : Docketed ids db) {listing other : CanonicalListing}
    (scan : Uuid → Nat) (rent : Nat)
    (apart : listing.canonicalListingId ≠ other.canonicalListingId) :
    Docketed ids (proposeDuplicate ⟨ids, unicode, scan⟩ listing rent db other) := by
  unfold proposeDuplicate
  split
  · exact docketed
  · dsimp only
    split
    · exact docketed
    · have later : ∀ {id}, (∃ k < db.drawn, ids.uuid k = id) →
          ∃ k < db.drawn + 2, ids.uuid k = id :=
        fun ⟨k, earlier, same⟩ => ⟨k, Nat.lt_add_right 2 earlier, same⟩
      have fresh : ∀ {id}, (∃ k < db.drawn, ids.uuid k = id) → id ≠ ids.uuid db.drawn := by
        rintro _ ⟨k, earlier, rfl⟩ same
        exact Nat.ne_of_lt earlier (ids.distinct same)
      have drawn : ∃ k < db.drawn + 2, ids.uuid k = ids.uuid db.drawn :=
        ⟨db.drawn, Nat.lt_add_of_pos_right Nat.two_pos, rfl⟩
      refine ⟨?_, ?_, ?_, ?_, ?_, ?_⟩
      · refine docketed.candidateIds.insert fun _ old member _ => ?_
        exact fresh (docketed.candidateDrawn old member)
      · intro candidate member
        rcases List.mem_append.mp member with old | new
        · exact later (docketed.candidateDrawn candidate old)
        · cases List.mem_singleton.mp new
          exact drawn
      · intro candidate member
        rcases List.mem_append.mp member with old | new
        · exact docketed.distinct candidate old
        · cases List.mem_singleton.mp new
          change (orderedPair _ _).1 ≠ (orderedPair _ _).2
          unfold orderedPair
          split
          · exact apart
          · exact apart.symm
      · refine docketed.issueCandidates.insert fun _ old member names same => ?_
        exact fresh (docketed.issueDrawn old member _ same) rfl
      · intro issue member id names
        rcases List.mem_append.mp member with old | new
        · exact later (docketed.issueDrawn issue old id names)
        · cases List.mem_singleton.mp new
          cases names
          exact drawn
      · intro candidate member pending
        rcases List.mem_append.mp member with old | new
        · obtain ⟨issue, inside, surfaces⟩ := docketed.surfaced candidate old pending
          exact ⟨issue, List.mem_append_left _ inside, surfaces⟩
        · cases List.mem_singleton.mp new
          exact ⟨_, List.mem_append_right _ (List.mem_singleton_self _), rfl, rfl, rfl, rfl⟩

/-- Proposing two listings that stand keeps every pending pair standing. -/
theorem proposeDuplicate_pendingStand (stands : PendingStand db) {listing other : CanonicalListing}
    (rent : Nat) (listingStands : (listing.canonicalListingId, false) ∈ db.ledger.nodes)
    (otherStands : (other.canonicalListingId, false) ∈ db.ledger.nodes) :
    PendingStand (proposeDuplicate env listing rent db other) := by
  have quiet : (proposeDuplicate env listing rent db other).ledger = db.ledger :=
    (proposeDuplicate_reviewsOnly listing rent db other).evidenceOnly.quiet.ledger
  unfold PendingStand
  rw [quiet]
  unfold proposeDuplicate
  split
  · exact stands
  · dsimp only
    split
    · exact stands
    · intro candidate member pending listingId names
      rcases List.mem_append.mp member with old | new
      · exact stands candidate old pending listingId names
      · cases List.mem_singleton.mp new
        change (orderedPair _ _).1 = listingId ∨ (orderedPair _ _).2 = listingId at names
        unfold orderedPair at names
        split at names <;> rcases names with rfl | rfl <;> assumption

/-- The proposals of a standing listing keep the docket. -/
theorem generateDuplicateCandidates_docketed (docketed : Docketed ids db)
    (unicode : UnicodeTables) (scan : Uuid → Nat) (listing : CanonicalListing) (building : Building)
    (standing : (listing.canonicalListingId, false) ∈ db.ledger.nodes) :
    Docketed ids (db.generateDuplicateCandidates ⟨ids, unicode, scan⟩ listing building) ∧
      (PendingStand db →
        PendingStand (db.generateDuplicateCandidates ⟨ids, unicode, scan⟩ listing building)) := by
  have rounds : ∀ (others : List CanonicalListing) (rent : Nat) (db : Database),
      (listing.canonicalListingId, false) ∈ db.ledger.nodes →
        (∀ other ∈ others, listing.canonicalListingId ≠ other.canonicalListingId ∧
          (other.canonicalListingId, false) ∈ db.ledger.nodes) → Docketed ids db →
        Docketed ids (others.foldl (proposeDuplicate ⟨ids, unicode, scan⟩ listing rent) db) ∧
          (PendingStand db → PendingStand
            (others.foldl (proposeDuplicate ⟨ids, unicode, scan⟩ listing rent) db)) := by
    intro others rent
    induction others with
    | nil => exact fun db _ _ docketed => ⟨docketed, id⟩
    | cons other rest ih =>
        intro db standing each docketed
        obtain ⟨⟨apart, otherStands⟩, eachRest⟩ := List.forall_mem_cons.mp each
        have quiet : (proposeDuplicate ⟨ids, unicode, scan⟩ listing rent db other).ledger =
            db.ledger :=
          (proposeDuplicate_reviewsOnly listing rent db other).evidenceOnly.quiet.ledger
        obtain ⟨kept, stands⟩ := ih (proposeDuplicate ⟨ids, unicode, scan⟩ listing rent db other)
          (quiet ▸ standing) (quiet ▸ eachRest)
          (proposeDuplicate_docketed docketed scan rent apart)
        exact ⟨kept, fun before =>
          stands (proposeDuplicate_pendingStand before rent standing otherStands)⟩
  unfold generateDuplicateCandidates
  split
  · exact ⟨docketed, id⟩
  · split
    · refine rounds _ _ db standing (fun other member => ?_) docketed
      obtain ⟨inside, comparable⟩ := List.mem_filter.mp member
      simp only [CanonicalListing.comparable, Bool.and_eq_true, decide_eq_true_eq] at comparable
      exact ⟨Ne.symm comparable.1.1.1.2, standing_of_mem inside comparable.2⟩
    · exact ⟨docketed, id⟩

/-- Steps beside the docket that merge nothing leave the pending pairs standing. -/
theorem PendingStand.undocketed (stands : PendingStand db) (other : Undocketed db next)
    (kept : ∀ listingId, (listingId, false) ∈ db.ledger.nodes →
      (listingId, false) ∈ next.ledger.nodes) : PendingStand next := by
  unfold PendingStand
  rw [other.candidates]
  exact fun candidate member pending listingId names =>
    kept listingId (stands candidate member pending listingId names)

/-- A started listing is proposed as a duplicate of standing ones. -/
theorem startListing_docketed (docketed : Docketed ids db) {scan : Uuid → Nat}
    {building : Building} {unitId : Option Uuid}
    (started : db.startListing ⟨ids, unicode, scan⟩ now row observation method building unitId =
      .ok (next, outcome)) :
    Docketed ids next ∧ (PendingStand db → PendingStand next) := by
  obtain ⟨recorded, facts, rfl⟩ := startListing_eq_ok started
  have inserted : Undocketed db recorded := by
    refine Undocketed.trans ?_ facts.undocketed
    refine Undocketed.trans ?_ (insertEvent_undocketed _ _)
    exact undocketed_of_same rfl rfl
  have evidence := (emitEvent_evidenceOnly _ _ _ _ _ _).trans facts.evidenceOnly
  have listings : recorded.listings = db.listings ++
      [newListing row observation (ids.uuid db.drawn) building.buildingId unitId] := by
    rw [evidence.listings]
    rfl
  have nodes : recorded.ledger.nodes = db.ledger.nodes ++ [(ids.uuid db.drawn, false)] := by
    simp only [ledger, listings, List.map_append]
    rfl
  have standing : (ids.uuid db.drawn, false) ∈ recorded.ledger.nodes :=
    nodes ▸ List.mem_append_right _ (List.mem_singleton_self _)
  obtain ⟨kept, stands⟩ := generateDuplicateCandidates_docketed
    (docketed.undocketed inserted (Nat.le_trans (Nat.le_add_right _ 2) evidence.drawn)) unicode scan
    (newListing row observation (ids.uuid db.drawn) building.buildingId unitId) building standing
  refine ⟨kept, fun before => stands (before.undocketed inserted fun listingId node => ?_)⟩
  exact nodes ▸ List.mem_append_left _ node

/-- Normalization proposes standing pairs. -/
theorem processObservation_docketed (docketed : Docketed ids db) (tracked : Tracked ids db)
    {scan : Uuid → Nat} {observationId : Uuid}
    (processed : db.processObservation ⟨ids, unicode, scan⟩ now method observationId =
      .ok (next, outcome)) :
    Docketed ids next ∧ (PendingStand db → PendingStand next) := by
  have grows := processObservation_grows processed tracked
  have nodes := (Ledger.keeps_of_growth grows.steps).2
  have beside : Undocketed db next →
      Docketed ids next ∧ (PendingStand db → PendingStand next) := fun other =>
    ⟨docketed.undocketed other grows.drawn, fun stands =>
      stands.undocketed other fun listingId node => nodes _ node⟩
  obtain ⟨row, -, processes⟩ := processObservation_processes processed
  cases processes with
  | aside _ same => exact beside (same ▸ .refl db)
  | continued _ _ updated =>
      obtain ⟨listing, _, update⟩ := updateExisting_cases updated
      exact beside update.undocketed
  | opened _ _ created =>
      obtain ⟨place, building, unitMatch, resolved, ends⟩ := createCanonical_ends created
      have placed := resolvePlace_placeOnly resolved
      have located : Undocketed db place :=
        undocketed_of_same placed.duplicateCandidates placed.reviewIssues
      rcases ends with ⟨listing, identity, confidence, attached⟩ | ⟨unitId, began⟩
      · cases attached
        exact beside (located.trans (undocketed_of_same rfl rfl))
      · obtain ⟨kept, stands⟩ := startListing_docketed
          (docketed.undocketed located placed.drawn) began
        refine ⟨kept, fun before => stands (before.undocketed located fun listingId node => ?_)⟩
        rwa [placed.quiet.ledger]

/-! ## Merges and verdicts -/

/-- After a merge the pending pairs still stand, some candidates left aside, just when no
other pair has the source. -/
theorem applyMerge_stands_iff (stands : PendingStand db) (request : MergeRequest)
    (source : CanonicalListing) (aside : Uuid → Prop) :
    (∀ candidate ∈ db.duplicateCandidates, candidate.status = .pending →
        ¬ aside candidate.duplicateCandidateId → ∀ listingId, candidate.Names listingId →
          (listingId, false) ∈ (db.applyMerge ids now request source).1.ledger.nodes) ↔
      db.Unlisted request.sourceListingId aside := by
  rw [ledger_applyMerge, Ledger.absorb]
  constructor
  · intro after candidate member pending names
    by_contra counted
    exact Bool.false_ne_true
      (Ledger.eq_of_mem_mark_self (after candidate member pending counted _ names))
  · intro unlisted candidate member pending counted listingId names
    have node := stands candidate member pending listingId names
    refine (Ledger.mem_mark_of_ne fun same => ?_).mpr node
    exact counted (unlisted candidate member pending (same ▸ names))

/-- The pending candidates after a verdict are the others. -/
theorem pending_closeCandidate {candidateId : Uuid} {status : DuplicateCandidateStatus}
    {actor : String} (decided : status ≠ .pending) {candidate : DuplicateCandidate} :
    candidate ∈ (db.closeCandidate now candidateId status actor).duplicateCandidates ∧
        candidate.status = .pending ↔
      candidate ∈ db.duplicateCandidates ∧ candidate.status = .pending ∧
        candidate.duplicateCandidateId ≠ candidateId := by
  change candidate ∈ updateWhere _ _ db.duplicateCandidates ∧ _ ↔ _
  rw [mem_updateWhere]
  constructor
  · rintro ⟨⟨old, member, rfl⟩, pending⟩
    by_cases same : old.duplicateCandidateId = candidateId
    · simp only [same, decide_true, ↓reduceIte] at pending
      exact (decided pending).elim
    · simp only [same, decide_false, Bool.false_eq_true, ↓reduceIte] at pending ⊢
      exact ⟨member, pending, same⟩
  · rintro ⟨member, pending, apart⟩
    exact ⟨⟨candidate, member, by simp [apart]⟩, pending⟩

/-- A verdict takes its candidate off the docket. -/
theorem closeCandidate_docketed (docketed : Docketed ids db) (candidateId : Uuid)
    {status : DuplicateCandidateStatus} (decided : status ≠ .pending) (actor : String) :
    Docketed ids (db.closeCandidate now candidateId status actor) := by
  have origin : ∀ candidate ∈
      (db.closeCandidate now candidateId status actor).duplicateCandidates,
      ∃ old ∈ db.duplicateCandidates,
        old.duplicateCandidateId = candidate.duplicateCandidateId ∧
          old.listingAId = candidate.listingAId ∧ old.listingBId = candidate.listingBId := by
    intro candidate member
    obtain ⟨old, inside, rfl⟩ := mem_updateWhere.mp member
    refine ⟨old, inside, ?_⟩
    split <;> exact ⟨rfl, rfl, rfl⟩
  refine ⟨docketed.candidateIds.updateWhere fun _ _ _ _ => ⟨trivial, rfl⟩, ?_, ?_,
    docketed.issueCandidates.updateWhere fun _ _ _ named => ⟨named, rfl⟩, ?_, ?_⟩
  · intro candidate member
    obtain ⟨old, inside, same, _⟩ := origin candidate member
    exact same ▸ docketed.candidateDrawn old inside
  · intro candidate member
    obtain ⟨old, inside, _, first, second⟩ := origin candidate member
    exact first ▸ second ▸ docketed.distinct old inside
  · intro issue member id names
    obtain ⟨old, inside, rfl⟩ := mem_updateWhere.mp member
    refine docketed.issueDrawn old inside id ?_
    split at names <;> exact names
  · intro candidate member pending
    obtain ⟨inside, _, apart⟩ := (pending_closeCandidate decided).mp ⟨member, pending⟩
    obtain ⟨issue, issueMem, surfaces⟩ := docketed.surfaced candidate inside pending
    refine ⟨issue, mem_updateWhere.mpr ⟨issue, issueMem, if_neg fun selected => ?_⟩, surfaces⟩
    have named := (surfacesCandidate_iff.mp selected).2.2
    rw [surfaces_candidate? surfaces] at named
    exact apart (Option.some.inj named)

theorem mergedAway_names (candidate : DuplicateCandidate) (survivor : Uuid) :
    candidate.Names (candidate.mergedAway survivor) := by
  unfold DuplicateCandidate.mergedAway
  split
  · exact .inr rfl
  · exact .inl rfl

/-- The listing that is merged away is not the survivor. -/
theorem mergedAway_ne {candidate : DuplicateCandidate} {survivor : Uuid}
    (distinct : candidate.listingAId ≠ candidate.listingBId) :
    candidate.mergedAway survivor ≠ survivor := by
  unfold DuplicateCandidate.mergedAway
  split
  · rename_i first
    exact first ▸ distinct.symm
  · rename_i other
    exact Ne.symm other

/-- A listing stands when it is found and not merged. -/
theorem stands_iff_found (tracked : Tracked ids db) {listingId : Uuid} :
    db.Stands listingId ↔
      ∃ listing, db.listing? listingId = some listing ∧ listing.lifecycleStatus ≠ .merged := by
  constructor
  · rintro ⟨listing, member, same, standing⟩
    exact ⟨listing, (get_eq_some (primaryKey_iff_nodup.mpr tracked.listingIds)).mpr
      ⟨member, same⟩, standing⟩
  · rintro ⟨listing, found, standing⟩
    exact ⟨listing, mem_of_get found, key_of_get found, standing⟩

/-- Manual merges are a human's. -/
theorem mergeListings_human {request : MergeRequest} {merge : CanonicalMerge}
    (merged : db.mergeListings ids now request = .ok (next, merge)) :
    request.reasonCode = .manual → request.actorType = .human := by
  intro manual
  simp only [mergeListings, manual, ↓reduceIte, requireHuman, bind_eq_ok, refuse_eq_ok] at merged
  obtain ⟨_, human, _⟩ := merged
  exact Decidable.not_not.mp human

/-- A merge is accepted for two different standing listings, and a manual one from a human. -/
theorem mergeListings_of_stands (tracked : Tracked ids db) (now : Timestamp)
    {request : MergeRequest}
    (human : request.reasonCode = .manual → request.actorType = .human)
    (apart : request.sourceListingId ≠ request.targetListingId)
    (sourceStands : db.Stands request.sourceListingId)
    (targetStands : db.Stands request.targetListingId) :
    ∃ source, db.mergeListings ids now request = .ok (db.applyMerge ids now request source) := by
  obtain ⟨source, sourceFound, sourceLives⟩ := (stands_iff_found tracked).mp sourceStands
  obtain ⟨target, targetFound, targetLives⟩ := (stands_iff_found tracked).mp targetStands
  refine ⟨source, ?_⟩
  have allowed : (if request.reasonCode = .manual then requireHuman request.actorType
      else .ok ⟨⟩) = .ok ⟨⟩ := by
    split
    · rename_i manual
      simp [requireHuman, human manual]
    · rfl
  unfold mergeListings
  rw [allowed]
  simp only [ok_bind, sourceFound, targetFound, refuse, require, apart, sourceLives, targetLives,
    ↓reduceIte]
  rfl

/-- The merge that a verdict asks for. -/
def verdictMerge (candidate : DuplicateCandidate) (candidateId : Uuid) (actor : String)
    (actorType : ActorType) (survivor : Option Uuid) : MergeRequest where
  sourceListingId := candidate.mergedAway (survivor.getD candidate.listingAId)
  targetListingId := survivor.getD candidate.listingAId
  actor := actor
  actorType := actorType
  reasonCode := .manual
  evidence := [("duplicate_candidate_id", .uuid candidateId)]

/-- An accepted verdict is a human's on a pending candidate; a duplicate merges the pair. -/
theorem resolveDuplicateCandidate_cases {candidateId : Uuid} {confirmedDuplicate : Bool}
    {actor : String} {actorType : ActorType} {survivor : Option Uuid}
    (resolved : db.resolveDuplicateCandidate ids now candidateId confirmedDuplicate actor actorType
      survivor = .ok next) :
    actorType = .human ∧ ∃ candidate, db.duplicateCandidate? candidateId = some candidate ∧
      candidate.status = .pending ∧
        ((confirmedDuplicate = false ∧
            next = db.closeCandidate now candidateId .confirmedDistinct actor) ∨
          confirmedDuplicate = true ∧ candidate.Admits survivor ∧ ∃ middle merge,
            db.mergeListings ids now
                (verdictMerge candidate candidateId actor actorType survivor) =
              .ok (middle, merge) ∧
            next = middle.closeCandidate now candidateId .confirmedDuplicate actor) := by
  simp only [resolveDuplicateCandidate, requireHuman, bind_eq_ok, refuse_eq_ok, require_eq_ok]
    at resolved
  obtain ⟨_, human, candidate, found, _, pending, resolved⟩ := resolved
  refine ⟨Decidable.not_not.mp human, candidate, found, Decidable.not_not.mp pending, ?_⟩
  cases confirmedDuplicate with
  | false =>
      cases resolved
      exact .inl ⟨rfl, rfl⟩
  | true =>
      rw [if_pos rfl] at resolved
      obtain ⟨_, inside, resolved⟩ := bind_eq_ok.mp resolved
      obtain ⟨⟨middle, merge⟩, merged, wrote⟩ := bind_eq_ok.mp resolved
      cases wrote
      refine .inr ⟨rfl, ?_, middle, merge, merged, rfl⟩
      by_contra outside
      obtain ⟨first, second⟩ := not_or.mp outside
      exact refuse_eq_ok.mp inside ⟨Ne.symm first, Ne.symm second⟩

/-- A duplicate verdict on a pending candidate stands when its merge does. -/
theorem resolveDuplicateCandidate_of_merged {candidate : DuplicateCandidate} {candidateId : Uuid}
    (found : db.duplicateCandidate? candidateId = some candidate)
    (pending : candidate.status = .pending) {actor : String} {survivor : Option Uuid}
    (admits : candidate.Admits survivor) {merge : CanonicalMerge}
    (merged : db.mergeListings ids now (verdictMerge candidate candidateId actor .human survivor) =
      .ok (middle, merge)) :
    db.resolveDuplicateCandidate ids now candidateId true actor .human survivor =
      .ok (middle.closeCandidate now candidateId .confirmedDuplicate actor) := by
  have inside : ¬ (survivor.getD candidate.listingAId ≠ candidate.listingAId ∧
      survivor.getD candidate.listingAId ≠ candidate.listingBId) := by
    rintro ⟨first, second⟩
    exact admits.elim (fun same => first same.symm) fun same => second same.symm
  unfold resolveDuplicateCandidate
  simp only [verdictMerge] at merged
  simp only [requireHuman, refuse, require, ne_eq, not_true_eq_false, ↓reduceIte, ok_bind, found,
    pending, inside, merged]
  rfl

/-- A human verdict on a pending candidate with a standing pair is accepted. -/
theorem resolveDuplicateCandidate_of_stands (tracked : Tracked ids db) (now : Timestamp)
    {candidate : DuplicateCandidate} {candidateId : Uuid}
    (found : db.duplicateCandidate? candidateId = some candidate)
    (pending : candidate.status = .pending)
    (distinct : candidate.listingAId ≠ candidate.listingBId)
    (stands : ∀ listingId, candidate.Names listingId → db.Stands listingId)
    (confirmedDuplicate : Bool) (actor : String) {survivor : Option Uuid}
    (admits : confirmedDuplicate = true → candidate.Admits survivor) :
    ∃ (middle : Database) (status : DuplicateCandidateStatus),
      middle.reviewIssues = db.reviewIssues ∧ status ≠ .pending ∧
      db.resolveDuplicateCandidate ids now candidateId confirmedDuplicate actor .human survivor =
        .ok (middle.closeCandidate now candidateId status actor) := by
  cases confirmedDuplicate with
  | false =>
      refine ⟨db, .confirmedDistinct, rfl, by simp, ?_⟩
      unfold resolveDuplicateCandidate
      simp only [requireHuman, refuse, require, ne_eq, not_true_eq_false, ↓reduceIte, ok_bind,
        found, pending]
      rfl
  | true =>
      have names := admits rfl
      obtain ⟨source, merged⟩ : ∃ source, db.mergeListings ids now
          (verdictMerge candidate candidateId actor .human survivor) = _ :=
        mergeListings_of_stands tracked now (fun _ => rfl) (mergedAway_ne distinct)
          (stands _ (mergedAway_names candidate _)) (stands _ names)
      exact ⟨_, .confirmedDuplicate, applyMerge_reviewIssues _ source db, by simp,
        resolveDuplicateCandidate_of_merged found pending names merged⟩

/-- **Verdicts.** On a docket the pending candidates can be resolved either way just when
their pairs stand. -/
theorem pendingResolvable_iff (tracked : Tracked ids db) (docketed : Docketed ids db) :
    PendingResolvable ids db ↔ PendingStand db := by
  constructor
  · intro resolvable candidate member pending listingId names
    have each := resolvable candidate member pending
    rcases names with rfl | rfl
    · exact stands_iff.mp each.firstStands
    · exact stands_iff.mp each.secondStands
  · intro pendingStand candidate member pending
    have stands : ∀ listingId, candidate.Names listingId → db.Stands listingId :=
      fun listingId names => stands_iff.mpr (pendingStand candidate member pending listingId names)
    have distinct := docketed.distinct candidate member
    have found : db.duplicateCandidate? candidate.duplicateCandidateId = some candidate :=
      (get_eq_some docketed.candidateIds).mpr ⟨member, rfl⟩
    refine ⟨distinct, stands _ (.inl rfl), stands _ (.inr rfl), ?_⟩
    intro now actor confirmedDuplicate survivor admits
    obtain ⟨middle, status, issues, _, resolved⟩ := resolveDuplicateCandidate_of_stands
      tracked now found pending distinct stands confirmedDuplicate actor admits
    obtain ⟨issue, inside, surfaces⟩ := docketed.surfaced candidate member pending
    refine ⟨_, resolved, ?_⟩
    obtain ⟨before, after, split, closed⟩ : ∃ before after,
        db.reviewIssues = before ++ issue :: after ∧
          updateWhere (ReviewIssue.surfacesCandidate candidate.duplicateCandidateId)
              (ReviewIssue.closed now actor) db.reviewIssues =
            before ++ issue.closed now actor :: after := by
      refine docketed.issueCandidates.updateWhere_single (some candidate.duplicateCandidateId) ?_
        inside (surfacesCandidate_iff.mpr
          ⟨surfaces.issueType, surfaces.status, surfaces_candidate? surfaces⟩)
      intro other _ selected
      have named := (surfacesCandidate_iff.mp selected).2.2
      exact ⟨by rw [named]; rfl, named⟩
    refine ⟨before, issue, after, surfaces, split, ?_⟩
    rw [← closed, ← issues]
    rfl

/-! ## Runs -/

/-- A merge that is accepted keeps the docket. -/
theorem mergeListings_docketed (docketed : Docketed ids db) {request : MergeRequest}
    {merge : CanonicalMerge} (merged : db.mergeListings ids now request = .ok (next, merge)) :
    Docketed ids next ∧ next.duplicateCandidates = db.duplicateCandidates ∧
      (PendingStand db → ∀ aside : Uuid → Prop,
        ((∀ candidate ∈ db.duplicateCandidates, candidate.status = .pending →
            ¬ aside candidate.duplicateCandidateId → ∀ listingId, candidate.Names listingId →
              (listingId, false) ∈ next.ledger.nodes) ↔
          db.Unlisted request.sourceListingId aside)) := by
  obtain ⟨_, source, _, _, _, _, _, wrote⟩ := mergeListings_eq_ok merged
  obtain rfl := congrArg Prod.fst wrote
  have other : Undocketed db (db.applyMerge ids now request source).1 :=
    applyMerge_undocketed request source db
  exact ⟨docketed.undocketed other (Nat.le_of_lt (drawn_applyMerge ids now request source db)),
    other.candidates, fun stands aside => applyMerge_stands_iff stands request source aside⟩

/-- A verdict that is accepted keeps the docket, and the pending pairs standing just when
it spares them. -/
theorem resolveDuplicateCandidate_docketed (docketed : Docketed ids db) {candidateId : Uuid}
    {confirmedDuplicate : Bool} {actor : String} {actorType : ActorType} {survivor : Option Uuid}
    (resolved : db.resolveDuplicateCandidate ids now candidateId confirmedDuplicate actor actorType
      survivor = .ok next) :
    Docketed ids next ∧ (PendingStand db → (PendingStand next ↔ db.SparesPending
      (.resolveDuplicateCandidate now candidateId confirmedDuplicate actor actorType
        survivor))) := by
  obtain ⟨human, candidate, found, pending, distinct | duplicate⟩ :=
    resolveDuplicateCandidate_cases resolved
  · obtain ⟨unconfirmed, rfl⟩ := distinct
    refine ⟨closeCandidate_docketed docketed _ (by simp) actor, fun stands => iff_of_true ?_ ?_⟩
    · intro other member waits listingId names
      obtain ⟨inside, _, _⟩ := (pending_closeCandidate (by simp)).mp ⟨member, waits⟩
      exact stands other inside waits listingId names
    · exact fun confirmed => by simp [unconfirmed] at confirmed
  · obtain ⟨confirmed, admits, middle, merge, merged, rfl⟩ := duplicate
    obtain ⟨kept, candidates, spared⟩ := mergeListings_docketed docketed merged
    refine ⟨closeCandidate_docketed kept _ (by simp) actor, fun stands => ?_⟩
    rw [PendingStand, (closeCandidate_quiet now candidateId _ actor middle).ledger]
    have others := spared stands fun id => id = candidateId
    constructor
    · intro after _ _ other inside same _ _
      obtain rfl : other = candidate :=
        docketed.candidateIds.eq_of_mem inside (mem_of_get found)
          (same.trans (key_of_get found).symm)
      refine others.mp fun third member waits apart => after third ?_ waits
      exact ((pending_closeCandidate (by simp)).mpr ⟨candidates ▸ member, waits, apart⟩).1
    · intro spares third member waits
      obtain ⟨inside, _, apart⟩ := (pending_closeCandidate (by simp)).mp ⟨member, waits⟩
      have unlisted := spares confirmed human candidate (mem_of_get found) (key_of_get found)
        pending admits
      exact others.mpr unlisted third (candidates ▸ inside) waits apart

/-- A step that fails spares the pending pairs: what would merge one away does not fail. -/
theorem sparesPending_of_failed (tracked : Tracked ids db) (docketed : Docketed ids db)
    (stands : PendingStand db) {action : ServiceAction} {failure : ServiceError}
    (failed : db.perform ids unicode action = .error failure) : db.SparesPending action := by
  cases action with
  | processObservation | reverseMerge | evaluateCandidates | processSourceRun | outside => trivial
  | mergeListings now request =>
      intro human apart sourceStands targetStands
      obtain ⟨source, merged⟩ :=
        mergeListings_of_stands tracked now human apart sourceStands targetStands
      simp [perform, merged] at failed
  | resolveDuplicateCandidate now candidateId confirmed actor actorType survivor =>
      rintro confirms rfl candidate inside rfl pending admits
      obtain ⟨middle, status, _, _, resolved⟩ := resolveDuplicateCandidate_of_stands tracked now
        ((get_eq_some docketed.candidateIds).mpr ⟨inside, rfl⟩) pending
        (docketed.distinct candidate inside)
        (fun listingId names => stands_iff.mpr (stands candidate inside pending listingId names))
        confirmed actor fun _ => admits
      simp [perform, resolved] at failed

/-- A merge keeps the pending pairs standing just when its source is in none of them. -/
theorem mergeListings_spares (tracked : Tracked ids db) (docketed : Docketed ids db)
    {request : MergeRequest} {merge : CanonicalMerge}
    (merged : db.mergeListings ids now request = .ok (next, merge)) (stands : PendingStand db) :
    PendingStand next ↔ db.SparesPending (.mergeListings now request) := by
  obtain ⟨-, candidates, spared⟩ := mergeListings_docketed docketed merged
  obtain ⟨apart, source, target, sourceFound, targetFound, sourceLives, targetLives, _⟩ :=
    mergeListings_eq_ok merged
  have unlisted := spared stands fun _ => False
  simp only [not_false_eq_true, true_implies] at unlisted
  rw [PendingStand, candidates, unlisted]
  refine ⟨fun spares _ _ _ _ => spares, fun spares => ?_⟩
  refine spares ?_ apart ((stands_iff_found tracked).mpr ⟨source, sourceFound, sourceLives⟩)
    ((stands_iff_found tracked).mpr ⟨target, targetFound, targetLives⟩)
  exact mergeListings_human merged

/-- A reversal keeps the docket and the pending pairs: it brings a listing back. -/
theorem reverseMerge_docketed (docketed : Docketed ids db) {mergeId : Uuid} {actor : String}
    {actorType : ActorType} {reason : String}
    (reversed : db.reverseMerge ids now mergeId actor actorType reason = .ok next) :
    Docketed ids next ∧ (PendingStand db → PendingStand next) := by
  obtain ⟨_, merge, _, _, rfl⟩ := reverseMerge_eq_ok reversed
  have other : Undocketed db (db.applyReversal ids now merge actor actorType reason) :=
    undocketed_of_same rfl rfl
  refine ⟨docketed.undocketed other (Nat.le_succ _), fun stands => ?_⟩
  refine stands.undocketed other fun listingId node => ?_
  rw [ledger_applyReversal, Ledger.release]
  by_cases same : listingId = merge.sourceListingId
  · exact same ▸ Ledger.mem_mark_self (same ▸ node)
  · exact (Ledger.mem_mark_of_ne same).mpr node

/-- **Step lemma.** Every step keeps the docket, and keeps the pending pairs standing just
when it spares them. -/
theorem step_docketed (tracked : Tracked ids db) (docketed : Docketed ids db)
    (action : ServiceAction) :
    Docketed ids (db.step ids unicode action) ∧ (PendingStand db →
      (PendingStand (db.step ids unicode action) ↔ db.SparesPending action)) := by
  have quietly : ∀ {next}, Undocketed db next → Quiet db next →
      Docketed ids next ∧ (PendingStand db → (PendingStand next ↔ True)) := by
    intro next other quiet
    refine ⟨docketed.undocketed other quiet.drawn, fun stands => iff_true_intro ?_⟩
    exact stands.undocketed other fun listingId node => quiet.ledger ▸ node
  unfold step
  cases performed : db.perform ids unicode action with
  | error failure =>
      exact ⟨docketed, fun stands =>
        iff_of_true stands (sparesPending_of_failed tracked docketed stands performed)⟩
  | ok next =>
      dsimp only
      cases perform_performs performed with
      | processObservation processed =>
          obtain ⟨kept, stands⟩ := processObservation_docketed docketed tracked processed
          exact ⟨kept, fun before => iff_true_intro (stands before)⟩
      | mergeListings merged =>
          obtain ⟨kept, -⟩ := mergeListings_docketed docketed merged
          exact ⟨kept, mergeListings_spares tracked docketed merged⟩
      | reverseMerge reversed =>
          obtain ⟨kept, stands⟩ := reverseMerge_docketed docketed reversed
          exact ⟨kept, fun before => iff_true_intro (stands before)⟩
      | resolveDuplicateCandidate resolved =>
          exact resolveDuplicateCandidate_docketed docketed resolved
      | evaluateCandidates scan now limit =>
          exact quietly (evaluateCandidates_undocketed scan limit db)
            (evaluateCandidates_quiet tracked.valid scan limit)
      | processSourceRun processed =>
          exact quietly (processSourceRun_undocketed processed)
            (processSourceRun_quiet tracked.valid processed)
      | outside write =>
          exact quietly (undocketed_of_same rfl rfl) (writeOutside_quiet write db)

/-- After a step every pending issue can be resolved just when the step spares what is pending. -/
theorem step_resolvable_iff (tracked : Tracked ids db) (docketed : Docketed ids db)
    (stands : PendingStand db) (action : ServiceAction) :
    PendingResolvable ids (db.step ids unicode action) ↔ db.SparesPending action := by
  obtain ⟨kept, spared⟩ : Docketed ids (db.step ids unicode action) ∧ _ :=
    step_docketed tracked docketed action
  rw [pendingResolvable_iff (tracked.moves (step_moves tracked action)) kept]
  exact spared stands

/-- **Duplicate review.** In every state of a run every pending candidate can be resolved
either way, and its resolution closes just its issue, when and only when no call of the
run merges away a listing of a pending candidate that the call does not resolve. -/
theorem reached_resolvable_iff (ids : IdSupply) (unicode : UnicodeTables)
    (actions : List ServiceAction) :
    (∀ earlier later, actions = earlier ++ later →
        PendingResolvable ids (reached ids unicode earlier)) ↔
      Permitted (step ids unicode) SparesPending Database.empty actions := by
  have start : PendingResolvable ids Database.empty := by
    simp [PendingResolvable, Database.empty]
  have vacant : PendingStand Database.empty := by simp [PendingStand, Database.empty]
  rw [forall_prefix_iff, and_iff_right start]
  have preserved : Preserved (step ids unicode)
      (fun db action => True ∧ db.SparesPending action)
      fun db => Tracked ids db ∧ Docketed ids db ∧ PendingStand db := by
    rintro db action ⟨tracked, docketed, stands⟩ ⟨_, spares⟩
    obtain ⟨kept, spared⟩ := step_docketed tracked docketed action
    exact ⟨tracked.moves (step_moves tracked action), kept, (spared stands).mpr spares⟩
  refine permitted_congr preserved ?_ ⟨tracked_empty ids, docketed_empty ids, vacant⟩
    fun _ _ => trivial
  rintro db action ⟨tracked, docketed, stands⟩ _
  exact step_resolvable_iff tracked docketed stands action

/-- Three similar studios of one building make three pairs; one of them is confirmed as a
duplicate. -/
def similarStudiosRun : List ServiceAction :=
  [.outside
      { observations := [observedStudio 1 "a" 300000, observedStudio 2 "b" 301000,
          observedStudio 3 "c" 302000]
        sourceRuns := []
        overrides := []
        geography := fun address => (address.locationPrecision, address.boundaryStatus) },
    process 1, process 2, process 3,
    .resolveDuplicateCandidate 0 116 true "reviewer" .human none]

/-- The pair of the merged studio and the third one is pending still, and can no longer be
confirmed. -/
theorem similarStudios_not_resolvable :
    ¬ PendingResolvable countingIds (reached countingIds asciiTables similarStudiosRun) := by
  intro resolvable
  have refused : (reached countingIds asciiTables similarStudiosRun).resolveDuplicateCandidate
      countingIds 0 127 true "reviewer" .human none = .error .targetMerged := by decide
  have pending : ∃ candidate ∈
      (reached countingIds asciiTables similarStudiosRun).duplicateCandidates,
      candidate.duplicateCandidateId = 127 ∧ candidate.status = .pending := by decide
  obtain ⟨candidate, member, same, waits⟩ := pending
  obtain ⟨next, resolved, _⟩ :=
    (resolvable candidate member waits).resolves 0 "reviewer" true none fun _ => .inl rfl
  rw [same, refused] at resolved
  cases resolved

end Database

end RentalAgent
