import RentalAgent.Canonical.EventKeys

/-! # The events of the lifecycle

Every call posts the keys of its transitions to the journal of events, which drops a key
it has already. Activation, exclusion and inactivation happen once to a listing, so their
keys are new. The key of a merge names its pair and the key of a missing link names its
listing and the run, and both can come again (`Database.transitions_logged_iff`).
-/

namespace RentalAgent

open Absorption Relational Transition

namespace Database

/-- The merges that had the listing as source. -/
def mergeCount (db : Database) (listingId : Uuid) : Nat :=
  db.merges.countP fun merge => merge.sourceListingId = listingId

/-- The active links of the listing that are missing after the step. -/
def goneMissing (db next : Database) (listingId : Uuid) : Nat :=
  db.links.countP fun link =>
    link.canonicalListingId = listingId && link.linkStatus = .active &&
      next.links.any fun after =>
        after.listingSourceLinkId = link.listingSourceLinkId && after.linkStatus = .missing

/-- One when the step turned the listing to the status, zero otherwise. -/
def turned (db next : Database) (status : LifecycleStatus) (listingId : Uuid) : Nat :=
  db.listings.countP fun listing =>
    listing.canonicalListingId = listingId && listing.lifecycleStatus ≠ status &&
      next.listings.any fun after =>
        after.canonicalListingId = listingId && after.lifecycleStatus = status

/-- The step appended as many events of each type as it made transitions. -/
structure TransitionsLogged (db next : Database) : Prop where
  appended : db.events <+: next.events
  missing : ∀ listingId, next.eventCount .missingStarted listingId =
    db.eventCount .missingStarted listingId + goneMissing db next listingId
  inactivated : ∀ listingId, next.eventCount .inactivated listingId =
    db.eventCount .inactivated listingId + turned db next .inactive listingId
  activated : ∀ listingId, next.eventCount .activated listingId =
    db.eventCount .activated listingId + turned db next .active listingId
  excluded : ∀ listingId, next.eventCount .excluded listingId =
    db.eventCount .excluded listingId + turned db next .excluded listingId

/-- Every listing has as many events of merges as there were merges of it. -/
def MergesLogged (db : Database) : Prop :=
  ∀ listingId, db.eventCount .merged listingId = db.mergeCount listingId

/-- The call is accepted and merges the source into the target. -/
def MergesPair (db : Database) : ServiceAction → Uuid → Uuid → Prop
  | .mergeListings _ request, source, target =>
      source = request.sourceListingId ∧ target = request.targetListingId ∧
        (request.reasonCode = .manual → request.actorType = .human) ∧ source ≠ target ∧
          db.Stands source ∧ db.Stands target
  | .resolveDuplicateCandidate _ candidateId confirmedDuplicate _ actorType survivor, source,
      target =>
      confirmedDuplicate = true ∧ actorType = .human ∧
        ∃ candidate, db.duplicateCandidate? candidateId = some candidate ∧
          candidate.status = .pending ∧ candidate.Admits survivor ∧
            target = survivor.getD candidate.listingAId ∧ source = candidate.mergedAway target ∧
              source ≠ target ∧ db.Stands source ∧ db.Stands target
  | .processObservation .., _, _ | .reverseMerge .., _, _ | .evaluateCandidates .., _, _
  | .processSourceRun .., _, _ | .outside _, _, _ => False

/-- The run finds the active link missing. -/
def GoesMissing (db : Database) (now : Timestamp) (run : SourceRun) (link : ListingSourceLink) :
    Prop :=
  link.sourceId = run.sourceId ∧ link.linkStatus = .active ∧
    db.observedInRun run.sourceRunId link = false ∧ ¬ db.removalDue now run link

instance (db : Database) (now : Timestamp) (run : SourceRun) (link : ListingSourceLink) :
    Decidable (db.GoesMissing now run link) :=
  inferInstanceAs (Decidable (_ ∧ _))

/-- The run finds at most one link of a listing missing, and none of a listing that it
found missing before. -/
def MissingOnce (db : Database) (now : Timestamp) (run : SourceRun) : Prop :=
  (∀ first ∈ db.links, ∀ second ∈ db.links, db.GoesMissing now run first →
      db.GoesMissing now run second →
        first.canonicalListingId = second.canonicalListingId → first = second) ∧
    ∀ link ∈ db.links, db.GoesMissing now run link → ∀ event ∈ db.events,
      event.idempotencyKey ≠ ⟨link.canonicalListingId, .missingStarted, .row run.sourceRunId⟩

/-- The call merges no pair that was merged before, and finds links missing once. -/
structure FreshKeys (db : Database) (action : ServiceAction) : Prop where
  pairs : ∀ source target, db.MergesPair action source target → ∀ merge ∈ db.merges,
    merge.sourceListingId = source → merge.targetListingId ≠ target
  missing : ∀ now sourceRunId, action = .processSourceRun now sourceRunId →
    ∀ run, db.sourceRun? sourceRunId = some run → run.healthGatePassed = some true →
      db.MissingOnce now run

variable {ids : IdSupply} {unicode : UnicodeTables} {env : Environment} {now : Timestamp}
  {db middle next : Database} {row : SourceObservation} {observation : ParsedSourceObservation}
  {method : DiscoveryMethod} {outcome : NormalizationOutcome} {posts later : List EventKey}

/-! ## Counting -/

/-- The statuses that verdicts give. -/
def VerdictStatus (status : LifecycleStatus) : Prop :=
  status = .active ∨ status = .excluded ∨ status = .inactive

/-- The type of the event of a verdict. -/
def verdictType (status : LifecycleStatus) : ListingEventType := (verdictKey (0, status)).eventType

/-- The key of a verdict is of the class of its listing and status, and of no other. -/
theorem verdictKey_class {verdict : Verdict} (given : VerdictStatus verdict.2)
    {status : LifecycleStatus} (asked : VerdictStatus status) (listingId : Uuid) :
    classOf (verdictType status) listingId (verdictKey verdict) = true ↔
      verdict = (listingId, status) := by
  obtain ⟨id, decided⟩ := verdict
  rcases given with rfl | rfl | rfl <;> rcases asked with rfl | rfl | rfl <;>
    simp [classOf, verdictType, verdictKey] <;> exact decide_eq_true_iff

/-- Different verdicts have different keys. -/
theorem verdictKey_injective {first second : Verdict} (firstGiven : VerdictStatus first.2)
    (secondGiven : VerdictStatus second.2) (same : verdictKey first = verdictKey second) :
    first = second := by
  obtain ⟨id, status⟩ := first
  obtain ⟨other, otherStatus⟩ := second
  rcases firstGiven with rfl | rfl | rfl <;> rcases secondGiven with rfl | rfl | rfl <;>
    simp_all [verdictKey]

/-- A listing of another status has this one afterwards just when a verdict gives it. -/
theorem Gives.status_iff {verdicts : List Verdict} (gives : Gives verdicts posts db next)
    (tracked : Tracked ids db) {status : LifecycleStatus} {listing : CanonicalListing}
    (member : listing ∈ db.listings) (differs : listing.lifecycleStatus ≠ status) :
    (next.listings.any fun after =>
        after.canonicalListingId = listing.canonicalListingId && after.lifecycleStatus = status) =
        true ↔
      (listing.canonicalListingId, status) ∈ verdicts := by
  have own : listing.standing ∈ db.standings := List.mem_map_of_mem member
  rw [List.any_eq_true]
  constructor
  · rintro ⟨later, laterMem, states⟩
    rw [Bool.and_eq_true, decide_eq_true_eq, decide_eq_true_eq] at states
    have inside : later.standing ∈ next.standings := List.mem_map_of_mem laterMem
    rw [gives.standings] at inside
    obtain ⟨old, oldMem, equal⟩ := List.mem_map.mp inside
    obtain ⟨other, otherMem, rfl⟩ := mem_standings.mp oldMem
    have sameId : other.canonicalListingId = listing.canonicalListingId :=
      (congrArg Standing.listingId equal).trans states.1
    obtain rfl := List.inj_on_of_nodup_map tracked.listingIds otherMem member sameId
    have becomes : (verdicts.lookup other.canonicalListingId).getD other.lifecycleStatus =
        status := (congrArg Standing.lifecycleStatus equal).trans states.2
    cases found : verdicts.lookup other.canonicalListingId with
    | none => exact (differs (by simpa [found] using becomes)).elim
    | some given =>
        rw [found, Option.getD_some] at becomes
        exact mem_of_lookup (becomes ▸ found)
  · intro given
    have found : verdicts.lookup listing.canonicalListingId = some status :=
      lookup_of_mem gives.distinct given
    have inside : decided verdicts listing.standing ∈ next.standings :=
      gives.standings ▸ List.mem_map_of_mem own
    obtain ⟨later, laterMem, equal⟩ := mem_standings.mp inside
    refine ⟨later, laterMem, ?_⟩
    have sameId : later.canonicalListingId = listing.canonicalListingId :=
      congrArg Standing.listingId equal
    have becomes : later.lifecycleStatus =
        (verdicts.lookup listing.canonicalListingId).getD listing.lifecycleStatus :=
      congrArg Standing.lifecycleStatus equal
    rw [found, Option.getD_some] at becomes
    simp [sameId, becomes]

/-- The listing turned to the status just when the verdicts say so. -/
theorem Gives.turned {verdicts : List Verdict} (gives : Gives verdicts posts db next)
    (tracked : Tracked ids db)
    (moves : ∀ verdict ∈ verdicts, ∃ standing ∈ db.standings, standing.listingId = verdict.1 ∧
      standing.lifecycleStatus ≠ verdict.2)
    (status : LifecycleStatus) (listingId : Uuid) :
    turned db next status listingId = verdicts.count (listingId, status) := by
  by_cases given : (listingId, status) ∈ verdicts
  · have once : verdicts.count (listingId, status) = 1 :=
      List.count_eq_one_of_mem (List.Nodup.of_map Prod.fst gives.distinct) given
    obtain ⟨_, standingMem, same, differs⟩ := moves _ given
    obtain ⟨listing, member, rfl⟩ := mem_standings.mp standingMem
    obtain rfl : listing.canonicalListingId = listingId := same
    have single : db.listings.filter (fun other =>
        other.canonicalListingId = listing.canonicalListingId &&
          other.lifecycleStatus ≠ status && next.listings.any fun after =>
            after.canonicalListingId = listing.canonicalListingId &&
              after.lifecycleStatus = status) =
        [listing] := by
      refine UniqueIndex.filter_eq_singleton (primaryKey_iff_nodup.mpr tracked.listingIds)
        listing.canonicalListingId ?_ member ?_
      · intro other _ chosen
        simp only [Bool.and_eq_true, decide_eq_true_eq] at chosen
        exact ⟨trivial, chosen.1.1⟩
      · rw [(gives.status_iff tracked member differs).mpr given, Bool.and_true, Bool.and_eq_true,
          decide_eq_true_eq, decide_eq_true_eq]
        exact ⟨rfl, differs⟩
    rw [Database.turned, List.countP_eq_length_filter, single, once]
    rfl
  · rw [List.count_eq_zero.mpr given]
    refine List.countP_eq_zero.mpr fun listing member chosen => given ?_
    simp only [Bool.and_eq_true, decide_eq_true_eq] at chosen
    obtain ⟨⟨rfl, differs⟩, states⟩ := chosen
    exact (gives.status_iff tracked member differs).mp states

/-- A step whose moves lead elsewhere turns no listing to the status. -/
theorem turned_of_settles (tracked : Tracked ids db)
    {moves : Standing → LifecycleStatus → Prop} (settles : Settles moves db next)
    {status : LifecycleStatus} (elsewhere : ∀ standing, ¬ moves standing status)
    (started : status ≠ .candidate) (listingId : Uuid) : turned db next status listingId = 0 := by
  refine List.countP_eq_zero.mpr fun listing member chosen => ?_
  simp only [Bool.and_eq_true, decide_eq_true_eq] at chosen
  obtain ⟨⟨same, differs⟩, any⟩ := chosen
  obtain ⟨after, afterMem, becomes⟩ := List.any_eq_true.mp any
  rw [Bool.and_eq_true, decide_eq_true_eq, decide_eq_true_eq] at becomes
  have inside : after.standing ∈ next.standings := List.mem_map_of_mem afterMem
  rcases settles.origin inside with candidate | ⟨old, oldMem, equal, stays | moved⟩
  · exact started (becomes.2.symm.trans candidate)
  · obtain ⟨other, otherMem, rfl⟩ := mem_standings.mp oldMem
    have sameId : other.canonicalListingId = listing.canonicalListingId :=
      ((congrArg Standing.listingId equal).symm.trans becomes.1).trans same.symm
    obtain rfl := List.inj_on_of_nodup_map tracked.listingIds otherMem member sameId
    exact differs (stays.symm.trans becomes.2)
  · have atStatus : after.standing.lifecycleStatus = status := becomes.2
    exact elsewhere old (atStatus ▸ moved)

/-- A step that writes no link status loses no active link. -/
theorem goneMissing_of_stand (tracked : Tracked ids next) (stand : LinksStand db next)
    (listingId : Uuid) : goneMissing db next listingId = 0 := by
  refine List.countP_eq_zero.mpr fun link member chosen => ?_
  simp only [Bool.and_eq_true, decide_eq_true_eq] at chosen
  obtain ⟨⟨_, active⟩, any⟩ := chosen
  obtain ⟨after, afterMem, becomes⟩ := List.any_eq_true.mp any
  rw [Bool.and_eq_true, decide_eq_true_eq, decide_eq_true_eq] at becomes
  obtain ⟨added, standings, _⟩ := stand
  have inside : link.standing ∈ next.linkStandings :=
    standings ▸ List.mem_append_left _ (List.mem_map_of_mem member)
  obtain ⟨kept, keptMem, same⟩ := List.mem_map.mp inside
  have sameId : kept.listingSourceLinkId = after.listingSourceLinkId :=
    (congrArg LinkStanding.linkId same).trans becomes.1.symm
  obtain rfl := List.inj_on_of_nodup_map tracked.linkIds keptMem afterMem sameId
  have stays : kept.linkStatus = link.linkStatus := congrArg LinkStanding.linkStatus same
  rw [becomes.2, active] at stays
  cases stays

/-! ## Missing links -/

/-- A link goes missing when the run judges it and misses it for the first time. -/
theorem goesMissing_iff {run : SourceRun} {link : ListingSourceLink} :
    db.GoesMissing now run link ↔ judges run link = true ∧
      db.firstMissed now run (db.observedInRun run.sourceRunId) link = true := by
  unfold GoesMissing judges firstMissed
  simp only [Bool.and_eq_true, Bool.or_eq_true, decide_eq_true_eq, Bool.not_eq_true',
    decide_eq_false_iff_not]
  constructor
  · rintro ⟨source, active, unseen, early⟩
    exact ⟨⟨source, .inl active⟩, ⟨unseen, early⟩, active⟩
  · rintro ⟨⟨source, _⟩, ⟨unseen, early⟩, active⟩
    exact ⟨source, active, unseen, early⟩

/-- The links missed for the first time are those that go missing. -/
theorem missed_links (db : Database) (now : Timestamp) (run : SourceRun) :
    (db.links.filter (judges run)).filter
        (db.firstMissed now run (db.observedInRun run.sourceRunId)) =
      db.links.filter fun link => db.GoesMissing now run link := by
  rw [List.filter_filter]
  refine List.filter_congr fun link _ => ?_
  rw [Bool.eq_iff_iff, decide_eq_true_eq, goesMissing_iff, Bool.and_eq_true]
  exact and_comm

/-- After a gate-passed run the active links that are missing are those it found missing. -/
theorem goneMissing_of_run (tracked : Tracked ids db) {run : SourceRun}
    (links : next.links = db.links.map fun link => link.withStatus (db.linkVerdict now run link))
    (listingId : Uuid) :
    goneMissing db next listingId = (db.links.filter fun link =>
      db.GoesMissing now run link).countP fun link => link.canonicalListingId = listingId := by
  rw [List.countP_filter]
  refine List.countP_congr fun link member => ?_
  have after : (next.links.any fun after => after.listingSourceLinkId = link.listingSourceLinkId &&
      after.linkStatus = .missing) = true ↔ db.linkVerdict now run link = .missing := by
    rw [links, List.any_map, List.any_eq_true]
    constructor
    · rintro ⟨other, otherMem, found⟩
      simp only [Function.comp_apply, Bool.and_eq_true, decide_eq_true_eq] at found
      obtain rfl := List.inj_on_of_nodup_map tracked.linkIds otherMem member found.1
      exact found.2
    · intro missing
      exact ⟨link, member, by simp [ListingSourceLink.withStatus, missing]⟩
  simp only [Bool.and_eq_true, after, decide_eq_true_eq, and_assoc]
  refine and_congr_right fun _ => ?_
  by_cases active : link.linkStatus = .active
  · by_cases source : link.sourceId = run.sourceId
    · cases seen : db.observedInRun run.sourceRunId link <;>
        by_cases due : db.removalDue now run link <;>
          simp [GoesMissing, linkVerdict, presenceStatus, judges, active, source, seen, due]
    · simp [GoesMissing, linkVerdict, judges, active, source]
  · simp [GoesMissing, active]

/-! ## What a step journals -/

/-- How far a lifecycle has come; no move goes back. -/
def stage : LifecycleStatus → Nat
  | .candidate | .reappeared | .missing => 0
  | .active => 1
  | .excluded | .inactive => 2
  | .merged | .reviewRequired => 3

/-- No move leads back to an earlier stage. -/
theorem stage_le_of_move {old status : LifecycleStatus} (move : LifecycleMove old status) :
    stage old ≤ stage status := by
  cases move with
  | activate waiting => rcases waiting with rfl | rfl <;> decide
  | exclude waiting => rcases waiting with rfl | rfl <;> decide
  | inactivate current => rcases current with rfl | rfl <;> decide
  | merge separate => cases old <;> decide
  | reverse => decide

/-- The key of the event of a merge. -/
def mergedKey (pair : Uuid × Uuid) : EventKey := ⟨pair.1, .merged, .row pair.2⟩

theorem mergedKey_class (pair : Uuid × Uuid) (listingId : Uuid) :
    classOf .merged listingId (mergedKey pair) = true ↔ pair.1 = listingId := by
  rw [classOf, Bool.and_eq_true, decide_eq_true_eq, decide_eq_true_eq]
  exact and_iff_right rfl

theorem mergedKey_injective : Function.Injective mergedKey := by
  rintro ⟨source, target⟩ ⟨other, otherTarget⟩ same
  simp only [mergedKey, EventKey.mk.injEq, true_and, KeySuffix.row.injEq] at same
  rw [same.1, same.2]

/-- The sources and the targets of the merges. -/
def mergePairs (db : Database) : List (Uuid × Uuid) :=
  db.merges.map fun merge => (merge.sourceListingId, merge.targetListingId)

/-- What a step posts: keys of other events, then those of merges, missing links and
verdicts. -/
structure Postings where
  others : List EventKey
  pairs : List (Uuid × Uuid)
  missed : List EventKey
  verdicts : List Verdict

/-- All keys that are posted, in order. -/
def Postings.keys (postings : Postings) : List EventKey :=
  postings.others ++ postings.pairs.map mergedKey ++ postings.missed ++
    postings.verdicts.map verdictKey

/-- The step posted the keys and made the transitions that they are about. -/
structure Journals (postings : Postings) (db next : Database) : Prop where
  posted : Posts postings.keys db next
  others : ∀ key ∈ postings.others, key.eventType.ofTransition = false
  missed : ∀ key ∈ postings.missed, key.eventType = .missingStarted
  owned : ∀ key ∈ postings.keys,
    key.listing ∈ next.listings.map CanonicalListing.canonicalListingId
  merges : next.mergePairs = db.mergePairs ++ postings.pairs
  single : postings.pairs.Nodup
  gone : ∀ listingId, goneMissing db next listingId =
    postings.missed.countP (classOf .missingStarted listingId)
  given : ∀ verdict ∈ postings.verdicts, VerdictStatus verdict.2
  distinct : postings.verdicts.Nodup
  turned : ∀ status, VerdictStatus status → ∀ listingId,
    Database.turned db next status listingId = postings.verdicts.count (listingId, status)
  raised : ∀ verdict ∈ postings.verdicts, ∃ standing ∈ db.standings,
    standing.listingId = verdict.1 ∧ stage standing.lifecycleStatus < stage verdict.2
  reached : ∀ verdict ∈ postings.verdicts, ∀ standing ∈ next.standings,
    standing.listingId = verdict.1 → stage verdict.2 ≤ stage standing.lifecycleStatus

/-- What a database and its journal have in common. -/
structure Journaled (ids : IdSupply) (db : Database) : Prop where
  tracked : Tracked ids db
  keyed : db.EventsKeyed
  owned : ∀ key ∈ db.keys, key.listing ∈ db.listings.map CanonicalListing.canonicalListingId
  pairs : ∀ pair, mergedKey pair ∈ db.keys ↔ pair ∈ db.mergePairs
  fresh : ∀ standing ∈ db.standings, ∀ status, VerdictStatus status →
    stage standing.lifecycleStatus < stage status →
      verdictKey (standing.listingId, status) ∉ db.keys

theorem verdictKey_type {verdict : Verdict} (given : VerdictStatus verdict.2) :
    (verdictKey verdict).eventType.ofTransition = true ∧
      (verdictKey verdict).eventType ≠ .merged ∧
        (verdictKey verdict).eventType ≠ .missingStarted := by
  obtain ⟨id, status⟩ := verdict
  rcases given with rfl | rfl | rfl <;> exact ⟨rfl, by simp [verdictKey]⟩

theorem verdictType_transition {status : LifecycleStatus} (asked : VerdictStatus status) :
    (verdictType status).ofTransition = true ∧ verdictType status ≠ .merged ∧
      verdictType status ≠ .missingStarted := verdictKey_type asked

variable {postings : Postings}

/-- The posts of a type of transition are those of its own group. -/
theorem Journals.filter_keys (journals : Journals postings db next) {eventType : ListingEventType}
    (transition : eventType.ofTransition = true) (listingId : Uuid) :
    postings.keys.filter (classOf eventType listingId) =
      (postings.pairs.map mergedKey).filter (classOf eventType listingId) ++
        postings.missed.filter (classOf eventType listingId) ++
          (postings.verdicts.map verdictKey).filter (classOf eventType listingId) := by
  have none : postings.others.filter (classOf eventType listingId) = [] :=
    filter_class_of_other (fun key member same => by
      have other := journals.others key member
      rw [same, transition] at other
      cases other) listingId
  simp only [Postings.keys, List.filter_append, none, List.nil_append]

theorem filter_merged_of_ne {eventType : ListingEventType} (other : eventType ≠ .merged)
    (pairs : List (Uuid × Uuid)) (listingId : Uuid) :
    (pairs.map mergedKey).filter (classOf eventType listingId) = [] := by
  refine filter_class_of_other (fun key member => ?_) listingId
  obtain ⟨pair, _, rfl⟩ := List.mem_map.mp member
  exact other.symm

theorem Journals.filter_missed_of_ne (journals : Journals postings db next)
    {eventType : ListingEventType} (other : eventType ≠ .missingStarted) (listingId : Uuid) :
    postings.missed.filter (classOf eventType listingId) = [] :=
  filter_class_of_other (fun key member => journals.missed key member ▸ other.symm) listingId

/-- Verdicts post no keys of merges or of missing links. -/
theorem Journals.filter_verdicts_of_other (journals : Journals postings db next)
    {eventType : ListingEventType}
    (other : eventType = .merged ∨ eventType = .missingStarted) (listingId : Uuid) :
    (postings.verdicts.map verdictKey).filter (classOf eventType listingId) = [] := by
  refine filter_class_of_other (fun key member => ?_) listingId
  obtain ⟨verdict, inside, rfl⟩ := List.mem_map.mp member
  obtain ⟨_, unmerged, present⟩ := verdictKey_type (journals.given verdict inside)
  rcases other with rfl | rfl
  · exact unmerged
  · exact present

theorem Journals.filter_merged (journals : Journals postings db next) (listingId : Uuid) :
    postings.keys.filter (classOf .merged listingId) =
      (postings.pairs.map mergedKey).filter (classOf .merged listingId) := by
  rw [journals.filter_keys rfl, journals.filter_missed_of_ne (by decide),
    journals.filter_verdicts_of_other (.inl rfl), List.append_nil, List.append_nil]

theorem Journals.filter_missing (journals : Journals postings db next) (listingId : Uuid) :
    postings.keys.filter (classOf .missingStarted listingId) =
      postings.missed.filter (classOf .missingStarted listingId) := by
  rw [journals.filter_keys rfl, filter_merged_of_ne (by decide),
    journals.filter_verdicts_of_other (.inr rfl), List.nil_append, List.append_nil]

/-- The keys of a class are those of its verdicts. -/
theorem Journals.filter_verdicts (journals : Journals postings db next)
    {status : LifecycleStatus} (asked : VerdictStatus status) (listingId : Uuid) :
    postings.keys.filter (classOf (verdictType status) listingId) =
      (postings.verdicts.map verdictKey).filter (classOf (verdictType status) listingId) := by
  obtain ⟨transition, unmerged, present⟩ := verdictType_transition asked
  rw [journals.filter_keys transition, filter_merged_of_ne unmerged,
    journals.filter_missed_of_ne present, List.nil_append, List.nil_append]

/-- Every merge is logged when its pair was not merged before. -/
theorem Journals.mergesLogged_iff (journals : Journals postings db next)
    (journaled : Journaled ids db) (logged : db.MergesLogged) :
    next.MergesLogged ↔ ∀ pair ∈ postings.pairs, pair ∉ db.mergePairs := by
  have counted : ∀ db : Database, ∀ listingId,
      db.mergeCount listingId = db.mergePairs.countP fun pair => pair.1 = listingId := by
    intro db listingId
    rw [mergePairs, List.countP_map]
    rfl
  have group : ∀ listingId, next.mergeCount listingId = db.mergeCount listingId +
      (postings.pairs.map mergedKey).countP (classOf .merged listingId) := by
    intro listingId
    rw [counted, counted, journals.merges, List.countP_append, List.countP_map]
    congr 1
  have each : ∀ listingId,
      next.eventCount .merged listingId = next.mergeCount listingId ↔
        ∀ pair ∈ postings.pairs, pair.1 = listingId → pair ∉ db.mergePairs := by
    intro listingId
    rw [group, ← logged listingId,
      journals.posted.logged_iff journaled.keyed (journals.filter_merged listingId), and_iff_right
      ((journals.single.map mergedKey_injective).filter _), List.forall_mem_map]
    refine forall₂_congr fun pair _ => ?_
    rw [journaled.pairs, mergedKey_class]
  constructor
  · intro after pair member
    exact (each pair.1).mp (after pair.1) pair member rfl
  · intro fresh listingId
    exact (each listingId).mpr fun pair member _ => fresh pair member

/-- A verdict is logged, as its key is new. -/
theorem Journals.verdict_logged (journals : Journals postings db next)
    (journaled : Journaled ids db) {status : LifecycleStatus} (asked : VerdictStatus status)
    (listingId : Uuid) :
    next.eventCount (verdictType status) listingId =
      db.eventCount (verdictType status) listingId +
        Database.turned db next status listingId := by
  have counted : (postings.verdicts.map verdictKey).countP
      (classOf (verdictType status) listingId) = postings.verdicts.count (listingId, status) := by
    rw [List.countP_map, List.count]
    refine List.countP_congr fun verdict member => ?_
    rw [Function.comp_apply, verdictKey_class (journals.given verdict member) asked, beq_iff_eq]
  have distinct : (postings.verdicts.map verdictKey).Nodup :=
    (List.nodup_map_iff_inj_on journals.distinct).mpr fun first firstMem second secondMem =>
      verdictKey_injective (journals.given first firstMem) (journals.given second secondMem)
  rw [journals.turned status asked, ← counted,
    journals.posted.logged_iff journaled.keyed (journals.filter_verdicts asked listingId)]
  refine ⟨distinct.filter _, fun key member _ => ?_⟩
  obtain ⟨verdict, inside, rfl⟩ := List.mem_map.mp member
  obtain ⟨standing, standingMem, named, below⟩ := journals.raised verdict inside
  have fresh := journaled.fresh standing standingMem verdict.2 (journals.given verdict inside) below
  rwa [named] at fresh

/-- The transitions of a step are logged when its keys of missing links are new. -/
theorem Journals.transitionsLogged_iff (journals : Journals postings db next)
    (journaled : Journaled ids db) :
    TransitionsLogged db next ↔
      postings.missed.Nodup ∧ ∀ key ∈ postings.missed, key ∉ db.keys := by
  have each : ∀ listingId,
      next.eventCount .missingStarted listingId =
          db.eventCount .missingStarted listingId + goneMissing db next listingId ↔
        (postings.missed.filter (classOf .missingStarted listingId)).Nodup ∧
          ∀ key ∈ postings.missed, classOf .missingStarted listingId key = true →
            key ∉ db.keys := by
    intro listingId
    rw [journals.gone]
    exact journals.posted.logged_iff journaled.keyed (journals.filter_missing listingId)
  have classed : ∀ key ∈ postings.missed, classOf .missingStarted key.listing key = true :=
    fun key member => by simp [classOf, journals.missed key member]
  constructor
  · intro logged
    refine ⟨List.nodup_iff_count_le_one.mpr fun key => ?_, fun key member => ?_⟩
    · by_cases member : key ∈ postings.missed
      · obtain ⟨distinct, _⟩ := (each key.listing).mp (logged.missing key.listing)
        rw [← List.count_filter (classed key member)]
        exact List.nodup_iff_count_le_one.mp distinct key
      · rw [List.count_eq_zero.mpr member]
        exact Nat.zero_le 1
    · obtain ⟨_, fresh⟩ := (each key.listing).mp (logged.missing key.listing)
      exact fresh key member (classed key member)
  · rintro ⟨distinct, fresh⟩
    exact {
      appended := journals.posted.kept
      missing := fun listingId =>
        (each listingId).mpr ⟨distinct.filter _, fun key member _ => fresh key member⟩
      inactivated := journals.verdict_logged journaled (.inr (.inr rfl))
      activated := journals.verdict_logged journaled (.inl rfl)
      excluded := journals.verdict_logged journaled (.inr (.inl rfl)) }

/-! ## The invariant -/

/-- The journal holds a posted key of a merge or of a verdict just as it was posted. -/
theorem Journals.mem_merged (journals : Journals postings db next) (pair : Uuid × Uuid) :
    mergedKey pair ∈ postings.keys ↔ pair ∈ postings.pairs := by
  have classed : classOf .merged pair.1 (mergedKey pair) = true :=
    (mergedKey_class pair pair.1).mpr rfl
  rw [← List.mem_map_of_injective mergedKey_injective]
  have same := congrArg (mergedKey pair ∈ ·) (journals.filter_merged pair.1)
  simpa only [List.mem_filter, classed, and_true, eq_iff_iff] using same

/-- A key of a verdict that a step posts is that of one of its verdicts. -/
theorem Journals.mem_verdict (journals : Journals postings db next) {verdict : Verdict}
    (given : VerdictStatus verdict.2) (posted : verdictKey verdict ∈ postings.keys) :
    verdict ∈ postings.verdicts := by
  have classed : classOf (verdictType verdict.2) verdict.1 (verdictKey verdict) = true :=
    (verdictKey_class given given verdict.1).mpr rfl
  have inside : verdictKey verdict ∈ postings.keys.filter
      (classOf (verdictType verdict.2) verdict.1) := List.mem_filter.mpr ⟨posted, classed⟩
  rw [journals.filter_verdicts given] at inside
  obtain ⟨other, otherMem, same⟩ := List.mem_map.mp (List.mem_filter.mp inside).1
  exact verdictKey_injective (journals.given other otherMem) given same ▸ otherMem

/-- A listing stays or moves as the step allows. -/
theorem Settles.follow {moves : Standing → LifecycleStatus → Prop} (settles : Settles moves db next)
    (tracked : Tracked ids next) {old standing : Standing} (oldMem : old ∈ db.standings)
    (member : standing ∈ next.standings) (same : old.listingId = standing.listingId) :
    standing.lifecycleStatus = old.lifecycleStatus ∨ moves old standing.lifecycleStatus := by
  obtain ⟨verdict, started, standings, each, _⟩ := settles
  have kept : { old with lifecycleStatus := verdict old } ∈ next.standings :=
    standings ▸ List.mem_append_left _ (List.mem_map_of_mem oldMem)
  obtain ⟨listing, inside, rfl⟩ := mem_standings.mp member
  obtain ⟨other, otherMem, equal⟩ := mem_standings.mp kept
  have sameId : other.canonicalListingId = listing.canonicalListingId :=
    (congrArg Standing.listingId equal).trans same
  obtain rfl := List.inj_on_of_nodup_map tracked.listingIds otherMem inside sameId
  rw [equal]
  exact each old oldMem

/-- A step that journals its transitions and makes lifecycle moves only keeps journal and
database together. -/
theorem Journals.journaled (journals : Journals postings db next) (journaled : Journaled ids db)
    (tracked : Tracked ids next)
    (settles : Settles (fun standing => LifecycleMove standing.lifecycleStatus) db next) :
    Journaled ids next where
  tracked := tracked
  keyed := journals.posted.keyed journaled.keyed
  owned := by
    intro key member
    rw [journals.posted.keys, Journal.mem_postAll] at member
    rcases member with old | new
    · obtain ⟨listing, inside, same⟩ := List.mem_map.mp (journaled.owned key old)
      obtain ⟨verdict, started, standings, _⟩ := settles
      have kept : { listing.standing with lifecycleStatus := verdict listing.standing } ∈
          next.standings := standings ▸
        List.mem_append_left _ (List.mem_map_of_mem (List.mem_map_of_mem inside))
      obtain ⟨later, laterMem, equal⟩ := mem_standings.mp kept
      exact List.mem_map.mpr ⟨later, laterMem, (congrArg Standing.listingId equal).trans same⟩
    · exact journals.owned key new
  pairs := by
    intro pair
    rw [journals.posted.keys, Journal.mem_postAll, journaled.pairs, journals.mem_merged,
      journals.merges, List.mem_append]
  fresh := by
    intro standing member status given below posted
    rw [journals.posted.keys, Journal.mem_postAll] at posted
    rcases posted with old | new
    · have owner : standing.listingId ∈ db.listings.map CanonicalListing.canonicalListingId := by
        have own := journaled.owned _ old
        rcases given with rfl | rfl | rfl <;> exact own
      obtain ⟨listing, inside, same⟩ := List.mem_map.mp owner
      have earlier : listing.standing ∈ db.standings := List.mem_map_of_mem inside
      have rises : stage listing.standing.lifecycleStatus ≤ stage standing.lifecycleStatus := by
        rcases settles.follow tracked earlier member same with stays | moves
        · rw [stays]
        · exact stage_le_of_move moves
      have key : verdictKey (listing.canonicalListingId, status) ∈ db.keys := same ▸ old
      exact journaled.fresh _ earlier status given (Nat.lt_of_le_of_lt rises below) key
    · have reached := journals.reached _ (journals.mem_verdict given new) standing member rfl
      exact Nat.not_le_of_lt below reached

/-! ## What the calls journal -/

/-- The merged pairs are read off the ledger. -/
theorem mergePairs_of_ledger (same : next.ledger = db.ledger) :
    next.mergePairs = db.mergePairs := by
  have entries : next.merges.map CanonicalMerge.entry = db.merges.map CanonicalMerge.entry :=
    congrArg Ledger.absorptions same
  have pairs : ∀ db : Database, db.mergePairs = (db.merges.map CanonicalMerge.entry).map
      fun entry => (entry.source, entry.target) := by
    intro db
    rw [List.map_map]
    rfl
  rw [pairs, pairs, entries]

/-- Steps that give no verdict and lose no link. -/
theorem journals_still (tracked : Tracked ids db) (after : Tracked ids next)
    {others : List EventKey} {pairs : List (Uuid × Uuid)}
    (posted : Posts (others ++ pairs.map mergedKey) db next)
    (beside : ∀ key ∈ others, key.eventType.ofTransition = false)
    (owned : ∀ key ∈ others ++ pairs.map mergedKey,
      key.listing ∈ next.listings.map CanonicalListing.canonicalListingId)
    (merges : next.mergePairs = db.mergePairs ++ pairs) (single : pairs.Nodup)
    {moves : Standing → LifecycleStatus → Prop} (settles : Settles moves db next)
    (elsewhere : ∀ standing status, moves standing status → ¬ VerdictStatus status)
    (stand : LinksStand db next) : Journals ⟨others, pairs, [], []⟩ db next where
  posted := by simpa [Postings.keys] using posted
  others := beside
  missed := by simp
  owned := by simpa [Postings.keys] using owned
  merges := merges
  single := single
  gone := fun listingId => goneMissing_of_stand after stand listingId
  given := by simp
  distinct := List.nodup_nil
  turned := by
    intro status asked listingId
    refine turned_of_settles tracked settles (fun standing moved => ?_) ?_ listingId
    · exact elsewhere standing status moved asked
    · rintro rfl
      rcases asked with same | same | same <;> cases same
  raised := by simp
  reached := by simp

/-- Steps beside the listings, their links, merges and events. -/
theorem journals_of_kept (tracked : Tracked ids db) (after : Tracked ids next)
    (events : next.events = db.events) (merges : next.merges = db.merges)
    (listings : next.listings = db.listings) (links : next.links = db.links) :
    Journals ⟨[], [], [], []⟩ db next := by
  have settles : Settles (fun _ _ => False) db next :=
    settles_of_standings (standings_congr listings)
  refine journals_still tracked after (posts_of_events events) (by simp) (by simp) ?_
    List.nodup_nil settles (by simp) (linksStand_of_links links)
  rw [mergePairs, merges, List.append_nil]
  rfl

/-- Steps that give verdicts, after some links went missing. -/
theorem Gives.journals {verdicts : List Verdict} {missed : List EventKey}
    (gives : Gives verdicts missed db next) (tracked : Tracked ids db)
    (types : ∀ key ∈ missed, key.eventType = .missingStarted)
    (owned : ∀ key ∈ missed, key.listing ∈ db.listings.map CanonicalListing.canonicalListingId)
    (merges : next.mergePairs = db.mergePairs)
    (gone : ∀ listingId, goneMissing db next listingId =
      missed.countP (classOf .missingStarted listingId))
    (given : ∀ verdict ∈ verdicts, VerdictStatus verdict.2)
    (raised : ∀ verdict ∈ verdicts, ∃ standing ∈ db.standings,
      standing.listingId = verdict.1 ∧ stage standing.lifecycleStatus < stage verdict.2) :
    Journals ⟨[], [], missed, verdicts⟩ db next := by
  have listingIds : next.listings.map CanonicalListing.canonicalListingId =
      db.listings.map CanonicalListing.canonicalListingId := by
    have standings := congrArg (List.map Standing.listingId) gives.standings
    rw [Database.standings, Database.standings, List.map_map, List.map_map, List.map_map]
      at standings
    exact standings
  exact {
    posted := by simpa [Postings.keys] using gives.posted
    others := by simp
    missed := types
    owned := by
      intro key member
      rw [listingIds]
      simp only [Postings.keys, List.map_nil, List.nil_append, List.mem_append] at member
      rcases member with early | late
      · exact owned key early
      · obtain ⟨verdict, inside, rfl⟩ := List.mem_map.mp late
        obtain ⟨standing, standingMem, same, _⟩ := raised verdict inside
        obtain ⟨listing, listingMem, rfl⟩ := mem_standings.mp standingMem
        have names : (verdictKey verdict).listing = verdict.1 := by
          obtain ⟨id, status⟩ := verdict
          rcases given _ inside with rfl | rfl | rfl <;> rfl
        exact List.mem_map.mpr ⟨listing, listingMem, same.trans names.symm⟩
    merges := by rw [merges, List.append_nil]
    single := List.nodup_nil
    gone := gone
    given := given
    distinct := List.Nodup.of_map Prod.fst gives.distinct
    turned := by
      intro status _ listingId
      refine gives.turned tracked (fun verdict member => ?_) status listingId
      obtain ⟨standing, standingMem, same, below⟩ := raised verdict member
      exact ⟨standing, standingMem, same, fun equal => by simp [equal] at below⟩
    raised := raised
    reached := by
      intro verdict member standing standingMem same
      rw [gives.standings] at standingMem
      obtain ⟨old, _, rfl⟩ := List.mem_map.mp standingMem
      have found : verdicts.lookup old.listingId = some verdict.2 :=
        (show old.listingId = verdict.1 from same) ▸ lookup_of_mem gives.distinct member
      simp [decided, found] }

/-- A merge posts the key of its pair. -/
theorem mergeListings_journals (tracked : Tracked ids db) {request : MergeRequest}
    {merge : CanonicalMerge} (merged : db.mergeListings ids now request = .ok (next, merge)) :
    Journals ⟨[], [(request.sourceListingId, request.targetListingId)], [], []⟩ db next := by
  have after := tracked.moves (mergeListings_moves tracked merged)
  have settles := mergeListings_settles tracked merged
  obtain ⟨_, source, target, found, _, _, _, wrote⟩ := mergeListings_eq_ok merged
  obtain rfl := congrArg Prod.fst wrote
  have standings := applyMerge_linkStandings ids now request source db
  refine journals_still tracked after ?_ (by simp) ?_ ?_ (List.nodup_singleton _) settles ?_
    ⟨[], by rw [standings, List.append_nil], by simp⟩
  · refine Posts.after (insertEvent_posts (request.event now) _ fun _ => ⟨rfl, rfl, rfl⟩) ?_
    rfl
  · intro key member
    obtain rfl := List.mem_singleton.mp member
    obtain ⟨later, laterMem, same⟩ := List.mem_map.mp
      (show (mergedKey (request.sourceListingId, request.targetListingId)).listing ∈
          (db.applyMerge ids now request source).1.standings.map Standing.listingId by
        rw [applyMerge_standings, Database.standings, List.map_map, List.map_map]
        refine List.mem_map.mpr ⟨source, mem_of_get found, ?_⟩
        have key : source.canonicalListingId = request.sourceListingId := key_of_get found
        simp [Standing.settle, CanonicalListing.standing, mergedKey, key])
    obtain ⟨listing, inside, rfl⟩ := mem_standings.mp laterMem
    exact List.mem_map.mpr ⟨listing, inside, same⟩
  · unfold applyMerge mergePairs
    dsimp only
    rw [(insertEvent_evidenceOnly ids _ _).merges]
    exact List.map_append
  · rintro standing status ⟨_, rfl⟩ given
    rcases given with same | same | same <;> cases same

/-- A reversal posts nothing. -/
theorem reverseMerge_journals (tracked : Tracked ids db) {mergeId : Uuid} {actor reason : String}
    {actorType : ActorType}
    (reversed : db.reverseMerge ids now mergeId actor actorType reason = .ok next) :
    Journals ⟨[], [], [], []⟩ db next := by
  have after := tracked.moves (reverseMerge_moves reversed)
  have settles := reverseMerge_settles tracked reversed
  obtain ⟨_, merge, _, _, rfl⟩ := reverseMerge_eq_ok reversed
  have standings := applyReversal_linkStandings ids now merge actor actorType reason db
  refine journals_still tracked after (posts_of_events rfl) (by simp) (by simp) ?_
    List.nodup_nil settles ?_ ⟨[], by rw [standings, List.append_nil], by simp⟩
  · rw [List.append_nil]
    exact map_updateWhere _ fun _ _ _ => rfl
  · rintro standing status ⟨_, rfl⟩ given
    rcases given with same | same | same <;> cases same

/-- The keys that an action posts are fresh just when those of its pairs and its missing links
are. -/
theorem freshKeys_iff {action : ServiceAction} {pairs : List (Uuid × Uuid)} {fresh : Prop}
    (merges : ∀ source target, db.MergesPair action source target ↔ (source, target) ∈ pairs)
    (missing : (∀ now sourceRunId, action = .processSourceRun now sourceRunId →
      ∀ run, db.sourceRun? sourceRunId = some run → run.healthGatePassed = some true →
        db.MissingOnce now run) ↔ fresh) :
    FreshKeys db action ↔ (∀ pair ∈ pairs, pair ∉ db.mergePairs) ∧ fresh := by
  have unmerged : ∀ source target, (∀ merge ∈ db.merges, merge.sourceListingId = source →
      merge.targetListingId ≠ target) ↔ (source, target) ∉ db.mergePairs := by
    intro source target
    simp [mergePairs]
  constructor
  · rintro ⟨new, once⟩
    refine ⟨fun pair member => ?_, missing.mp once⟩
    exact (unmerged pair.1 pair.2).mp (new pair.1 pair.2 ((merges pair.1 pair.2).mpr member))
  · rintro ⟨new, once⟩
    refine ⟨fun source target merged => ?_, missing.mpr once⟩
    exact (unmerged source target).mpr (new _ ((merges source target).mp merged))

/-- The keys that a run posts for missing links are new just when it finds links missing
once. -/
theorem missingOnce_iff (tracked : Tracked ids db) (run : SourceRun) :
    db.MissingOnce now run ↔
      ((db.links.filter fun link => db.GoesMissing now run link).map
          (missingKey run.sourceRunId)).Nodup ∧
        ∀ key ∈ (db.links.filter fun link => db.GoesMissing now run link).map
          (missingKey run.sourceRunId), key ∉ db.keys := by
  have distinct : (db.links.filter fun link => db.GoesMissing now run link).Nodup :=
    (List.Nodup.of_map _ tracked.linkIds).filter _
  have same : ∀ first second : ListingSourceLink,
      missingKey run.sourceRunId first = missingKey run.sourceRunId second ↔
        first.canonicalListingId = second.canonicalListingId := by
    intro first second
    simp [missingKey]
  rw [List.nodup_map_iff_inj_on distinct, List.forall_mem_map]
  simp only [List.mem_filter, decide_eq_true_eq, same, and_imp]
  refine and_congr ?_ (forall₃_congr fun link _ _ => ?_)
  · exact ⟨fun once first firstMem firstGone second secondMem secondGone =>
        once first firstMem second secondMem firstGone secondGone,
      fun once first firstMem second secondMem firstGone secondGone =>
        once first firstMem firstGone second secondMem secondGone⟩
  · rw [keys, List.mem_map]
    constructor
    · rintro fresh ⟨event, member, equal⟩
      exact fresh event member equal
    · exact fun fresh event member equal => fresh ⟨event, member, equal⟩

/-- A gate-passed run posts the keys of the links it misses first and of the listings it
inactivates. -/
theorem processSourceRun_journals (tracked : Tracked ids db) {sourceRunId : Uuid}
    {run : SourceRun} {summary : DisappearanceSummary}
    (found : db.sourceRun? sourceRunId = some run) (passed : run.healthGatePassed = some true)
    (processed : db.processSourceRun ids now sourceRunId = .ok (next, summary)) :
    ∃ verdicts, Journals ⟨[], [], (db.links.filter fun link =>
      db.GoesMissing now run link).map (missingKey run.sourceRunId), verdicts⟩ db next := by
  obtain ⟨verdicts, gives, each⟩ := processSourceRun_gives tracked found passed processed
  rw [missed_links] at gives
  have links := processSourceRun_links tracked.linkIds found passed processed
  refine ⟨verdicts, gives.journals tracked ?_ ?_ ?_ ?_ ?_ ?_⟩
  · intro key member
    obtain ⟨link, _, rfl⟩ := List.mem_map.mp member
    rfl
  · intro key member
    obtain ⟨link, inside, rfl⟩ := List.mem_map.mp member
    obtain ⟨owner, ownerMem, same⟩ := tracked.owner (List.mem_of_mem_filter inside)
    exact List.mem_map.mpr ⟨owner, ownerMem, same⟩
  · exact mergePairs_of_ledger (processSourceRun_quiet tracked.valid processed).ledger
  · intro listingId
    rw [goneMissing_of_run tracked links, List.countP_map]
    refine List.countP_congr fun link _ => ?_
    rw [Function.comp_apply, classOf, Bool.and_eq_true, decide_eq_true_eq, decide_eq_true_eq,
      decide_eq_true_eq]
    exact (and_iff_right rfl).symm
  · intro verdict member
    exact .inr (.inr (each verdict member).1)
  · intro verdict member
    obtain ⟨inactive, standing, standingMem, same, current⟩ := each verdict member
    refine ⟨standing, standingMem, same, ?_⟩
    rcases current with status | status <;> rw [inactive, status] <;> decide

/-- Admission posts the keys of its verdicts. -/
theorem evaluateCandidates_journals (tracked : Tracked ids db) (scan : Uuid → Nat) (limit : Nat) :
    ∃ verdicts, Journals ⟨[], [], [], verdicts⟩ db
      (db.evaluateCandidates ids now scan limit).1 := by
  obtain ⟨verdicts, gives, each⟩ :
    ∃ verdicts, Gives verdicts [] db (db.evaluateCandidates ids now scan limit).1 ∧ _ :=
      evaluateCandidates_gives tracked scan limit
  have links : (db.evaluateCandidates ids now scan limit).1.links = db.links :=
    evaluateCandidates_links scan limit db
  have quiet : Quiet db (db.evaluateCandidates ids now scan limit).1 :=
    evaluateCandidates_quiet tracked.valid scan limit
  have after := tracked.moves quiet.refines
  refine ⟨verdicts, gives.journals tracked (by simp) (by simp) ?_ ?_ ?_ ?_⟩
  · exact mergePairs_of_ledger quiet.ledger
  · intro listingId
    exact goneMissing_of_stand after (linksStand_of_links links) listingId
  · intro verdict member
    exact (each verdict member).1.imp_right .inl
  · intro verdict member
    obtain ⟨either, standing, standingMem, same, waits⟩ := each verdict member
    refine ⟨standing, standingMem, same, ?_⟩
    rcases waits with status | status <;> rcases either with given | given <;>
      rw [given, status] <;> decide

/-- Normalization posts keys of no transition. -/
theorem processObservation_journals (tracked : Tracked env.ids db) {observationId : Uuid}
    (processed : db.processObservation env now method observationId = .ok (next, outcome)) :
    ∃ others, Journals ⟨others, [], [], []⟩ db next := by
  rcases processObservation_beside tracked processed with rfl | ⟨listing, member, beside⟩
  · exact ⟨[], journals_of_kept tracked tracked rfl rfl rfl rfl⟩
  · obtain ⟨others, posted, each⟩ := beside
    have after := tracked.moves (processObservation_grows processed tracked).moves
    obtain ⟨started, same, candidates⟩ := processObservation_standings processed
    have settles : Settles (fun _ _ => False) db next :=
      ⟨Standing.lifecycleStatus, started, by simp [same], fun _ _ => .inl rfl, candidates⟩
    refine ⟨others, journals_still tracked after (by simpa using posted)
      (fun key inside => (each key inside).1) ?_ ?_ List.nodup_nil settles (by simp)
      (processObservation_linkStandings processed)⟩
    · intro key inside
      rw [List.map_nil, List.append_nil] at inside
      exact List.mem_map.mpr ⟨listing, member, (each key inside).2.symm⟩
    · rw [mergePairs, (processObservation_canonicalOnly processed).frame, List.append_nil]
      rfl

/-- A call that fails merges no pair. -/
theorem mergesPair_ok (tracked : Tracked ids db) {action : ServiceAction} {source target : Uuid}
    (merges : db.MergesPair action source target) :
    ∃ next, db.perform ids unicode action = .ok next := by
  cases action with
  | processObservation | reverseMerge | evaluateCandidates | processSourceRun | outside =>
      exact merges.elim
  | mergeListings now request =>
      obtain ⟨rfl, rfl, human, apart, sourceStands, targetStands⟩ := merges
      obtain ⟨row, merged⟩ :=
        mergeListings_of_stands tracked now human apart sourceStands targetStands
      exact ⟨_, by rw [perform, merged]; rfl⟩
  | resolveDuplicateCandidate now candidateId confirmed actor actorType survivor =>
      obtain ⟨rfl, rfl, candidate, found, pending, admits, rfl, rfl, apart, sourceStands,
        targetStands⟩ := merges
      obtain ⟨row, merged⟩ : ∃ row, db.mergeListings ids now
          (verdictMerge candidate candidateId actor .human survivor) = _ :=
        mergeListings_of_stands tracked now (fun _ => rfl) apart sourceStands targetStands
      exact ⟨_, resolveDuplicateCandidate_of_merged found pending admits merged⟩

/-- A call journals its transitions, with keys that are new just when it merges a new pair
or finds links missing once. -/
theorem step_journals (tracked : Tracked ids db) (action : ServiceAction) :
    ∃ postings, Journals postings db (db.step ids unicode action) ∧
      (FreshKeys db action ↔ (∀ pair ∈ postings.pairs, pair ∉ db.mergePairs) ∧
        postings.missed.Nodup ∧ ∀ key ∈ postings.missed, key ∉ db.keys) := by
  unfold step
  cases performed : db.perform ids unicode action with
  | error failure =>
      refine ⟨_, journals_of_kept tracked tracked rfl rfl rfl rfl, freshKeys_iff ?_ ?_⟩
      · refine fun source target => iff_of_false (fun merges => ?_) List.not_mem_nil
        obtain ⟨next, done⟩ := mergesPair_ok tracked merges
        rw [performed] at done
        cases done
      · refine iff_of_true ?_ (by simp)
        rintro now sourceRunId rfl run found passed
        simp [perform, processSourceRun, found, passed] at performed
  | ok next =>
      have after := tracked.moves (perform_moves tracked performed)
      dsimp only
      cases perform_performs performed with
      | processObservation processed =>
          obtain ⟨others, journals⟩ := processObservation_journals tracked processed
          exact ⟨_, journals, freshKeys_iff (fun _ _ => iff_of_false id List.not_mem_nil)
            (by simp)⟩
      | mergeListings merged =>
          refine ⟨_, mergeListings_journals tracked merged, freshKeys_iff ?_ (by simp)⟩
          obtain ⟨apart, source, target, sourceFound, targetFound, sourceLives, targetLives, _⟩ :=
            mergeListings_eq_ok merged
          intro first second
          rw [List.mem_singleton, Prod.mk.injEq]
          refine ⟨fun merges => ⟨merges.1, merges.2.1⟩, fun same => ?_⟩
          exact ⟨same.1, same.2, mergeListings_human merged, same.1 ▸ same.2 ▸ apart,
            (stands_iff_found tracked).mpr ⟨source, same.1 ▸ sourceFound, sourceLives⟩,
            (stands_iff_found tracked).mpr ⟨target, same.2 ▸ targetFound, targetLives⟩⟩
      | reverseMerge reversed =>
          exact ⟨_, reverseMerge_journals tracked reversed,
            freshKeys_iff (fun _ _ => iff_of_false id List.not_mem_nil) (by simp)⟩
      | resolveDuplicateCandidate resolved =>
          obtain ⟨rfl, candidate, found, pending, distinct | duplicate⟩ :=
            resolveDuplicateCandidate_cases resolved
          · obtain ⟨rfl, rfl⟩ := distinct
            refine ⟨_, journals_of_kept tracked after rfl rfl rfl rfl, freshKeys_iff ?_ (by simp)⟩
            exact fun _ _ => iff_of_false (fun merges => by cases merges.1) List.not_mem_nil
          · obtain ⟨rfl, admits, middle, merge, merged, rfl⟩ := duplicate
            have journals := mergeListings_journals tracked merged
            refine ⟨_, { journals with posted := journals.posted.before rfl },
              freshKeys_iff ?_ (by simp)⟩
            obtain ⟨apart, source, target, sourceFound, targetFound, sourceLives, targetLives, _⟩ :=
              mergeListings_eq_ok merged
            intro first second
            rw [List.mem_singleton, Prod.mk.injEq]
            constructor
            · rintro ⟨_, _, other, otherFound, _, _, rfl, rfl, _⟩
              cases found.symm.trans otherFound
              exact ⟨rfl, rfl⟩
            · rintro ⟨rfl, rfl⟩
              exact ⟨rfl, rfl, candidate, found, pending, admits, rfl, rfl, apart,
                (stands_iff_found tracked).mpr ⟨source, sourceFound, sourceLives⟩,
                (stands_iff_found tracked).mpr ⟨target, targetFound, targetLives⟩⟩
      | evaluateCandidates scan now limit =>
          obtain ⟨verdicts, journals⟩ := evaluateCandidates_journals tracked scan limit
          exact ⟨_, journals, freshKeys_iff (fun _ _ => iff_of_false id List.not_mem_nil)
            (by simp)⟩
      | @processSourceRun now sourceRunId _ _ processed =>
          obtain ⟨run, found, ⟨refused, rfl⟩ | ⟨passed, -⟩⟩ := processSourceRun_eq_ok processed
          · refine ⟨_, journals_of_kept tracked tracked rfl rfl rfl rfl,
              freshKeys_iff (fun _ _ => iff_of_false id List.not_mem_nil)
                (iff_of_true ?_ (by simp))⟩
            rintro _ _ ⟨⟩ other otherFound gated
            cases found.symm.trans otherFound
            exact (refused gated).elim
          · obtain ⟨verdicts, journals⟩ := processSourceRun_journals tracked found passed processed
            refine ⟨_, journals, freshKeys_iff (fun _ _ => iff_of_false id List.not_mem_nil) ?_⟩
            rw [← missingOnce_iff tracked run]
            refine ⟨fun each => each now sourceRunId rfl run found passed, ?_⟩
            rintro once _ _ ⟨⟩ other otherFound _
            cases found.symm.trans otherFound
            exact once
      | outside write =>
          exact ⟨_, journals_of_kept tracked after rfl rfl rfl rfl,
            freshKeys_iff (fun _ _ => iff_of_false id List.not_mem_nil) (by simp)⟩

/-! ## Runs -/

theorem journaled_empty (ids : IdSupply) : Journaled ids Database.empty where
  tracked := tracked_empty ids
  keyed := by simp [EventsKeyed, Database.empty]
  owned := by simp [keys, Database.empty]
  pairs := by simp [keys, mergePairs, Database.empty]
  fresh := by simp [keys, Database.empty]

/-- Every service call keeps the journal. -/
theorem step_journaled (journaled : Journaled ids db) (action : ServiceAction) :
    Journaled ids (db.step ids unicode action) := by
  obtain ⟨postings, journals, _⟩ :
    ∃ postings, Journals postings db (db.step ids unicode action) ∧ _ :=
      step_journals journaled.tracked action
  refine journals.journaled journaled (journaled.tracked.moves
    (step_moves journaled.tracked action)) ?_
  exact (step_settles journaled.tracked action).mono fun _ _ _ => callMoves_lifecycle

/-- One call logs its transitions and its merge just when their keys are new. -/
theorem step_logged_iff (journaled : Journaled ids db) (logged : db.MergesLogged)
    (action : ServiceAction) :
    (db.step ids unicode action).MergesLogged ∧
        TransitionsLogged db (db.step ids unicode action) ↔ FreshKeys db action := by
  obtain ⟨postings, journals, fresh⟩ :
    ∃ postings, Journals postings db (db.step ids unicode action) ∧ _ :=
      step_journals journaled.tracked action
  rw [fresh, journals.mergesLogged_iff journaled logged, journals.transitionsLogged_iff journaled]

/-- **Lifecycle events.** In a run every listing always has as many events of merges as
merges of it, and every step appends an event for each of its transitions, when and only
when no call merges a pair that was merged before, and no run finds two links of one
listing missing, or one of a listing for which it posted a missing link before. -/
theorem transitions_logged_iff (ids : IdSupply) (unicode : UnicodeTables)
    (actions : List ServiceAction) :
    (∀ earlier later, actions = earlier ++ later →
        (reached ids unicode earlier).MergesLogged) ∧
      Permitted (step ids unicode) (fun db action =>
        TransitionsLogged db (db.step ids unicode action)) Database.empty actions ↔
      Permitted (step ids unicode) FreshKeys Database.empty actions := by
  have start : Database.empty.MergesLogged := fun _ => rfl
  rw [forall_prefix_iff, and_iff_right start, ← permitted_and]
  have preserved : Preserved (step ids unicode) (fun db action => True ∧ FreshKeys db action)
      fun db => Journaled ids db ∧ db.MergesLogged := by
    rintro db action ⟨journaled, logged⟩ ⟨_, fresh⟩
    exact ⟨step_journaled journaled action, ((step_logged_iff journaled logged action).mpr fresh).1⟩
  refine permitted_congr preserved ?_ ⟨journaled_empty ids, start⟩ fun _ _ => trivial
  rintro db action ⟨journaled, logged⟩ _
  exact step_logged_iff journaled logged action

/-- Two studios of one building are merged, parted and merged again. -/
def remergedRun : List ServiceAction :=
  let studios : MergeRequest :=
    { sourceListingId := 102
      targetListingId := 109
      actor := "reviewer"
      actorType := .human }
  [.outside
      { observations := [observedStudio 1 "a" 300000, observedStudio 2 "b" 306000]
        sourceRuns := []
        overrides := []
        geography := fun address => (address.locationPrecision, address.boundaryStatus) },
    process 1, process 2, .mergeListings 1 studios,
    .reverseMerge 2 118 "reviewer" .human "mistake", .mergeListings 3 studios]

/-- The second merge of the pair leaves no event. -/
theorem remergedRun_not_logged :
    ¬ (reached countingIds asciiTables remergedRun).MergesLogged := by
  intro logged
  have merges : (reached countingIds asciiTables remergedRun).mergeCount 102 = 2 := by decide
  have events : (reached countingIds asciiTables remergedRun).eventCount .merged 102 = 1 := by
    decide
  have same := logged 102
  rw [merges, events] at same
  cases same

end Database

end RentalAgent
