import Mathlib.Data.List.Forall2
import RentalAgent.Canonical.Durability

/-! # The outcome of a new identity

A new source identity is attached to one listing, for a stated reason
(`Database.Attached`), or starts one candidate listing with its event and with a
proposal for every similar neighbour (`Database.Started`), never both.
-/

namespace RentalAgent

open Relational

/-- Another listing of the same building with the same known layout and a rent that
differs by at most two per cent of the rent of the new listing. -/
def CanonicalListing.similarTo (listing other : CanonicalListing) : Bool :=
  other.buildingId = listing.buildingId && other.lifecycleStatus ≠ .merged &&
    listing.layoutClass.known && other.layoutClass = listing.layoutClass &&
      match listing.monthlyRentMinor, other.monthlyRentMinor with
      | some rent, some otherRent => similarRent rent otherRent
      | _, _ => false

/-- The candidate proposes the pair of the two listings, in the order of their ids. -/
structure DuplicateCandidate.Proposes (candidate : DuplicateCandidate)
    (listing other : CanonicalListing) : Prop where
  pair : (candidate.listingAId, candidate.listingBId) =
    orderedPair listing.canonicalListingId other.canonicalListingId
  ordered : candidate.listingAId ≤ candidate.listingBId
  status : candidate.status = .pending
  ruleVersion : candidate.ruleVersion = identityRuleVersion

/-- The issue asks for a verdict on the candidate. -/
structure ReviewIssue.Surfaces (issue : ReviewIssue) (candidate : DuplicateCandidate) : Prop where
  issueType : issue.issueType = .duplicateCandidate
  status : issue.status = .open
  entityId : issue.entityId = candidate.listingAId
  details : issue.details = .duplicateCandidate candidate.duplicateCandidateId
    candidate.listingAId candidate.listingBId

namespace Database

/-- The constraints that identity resolution relies on: the primary key of listings,
the foreign keys of candidates, and that drawn ids are new. -/
structure IdentityConstraints (ids : IdSupply) (db : Database) : Prop where
  listings : PrimaryKey CanonicalListing.canonicalListingId db.listings
  candidates : ∀ candidate ∈ db.duplicateCandidates,
    candidate.listingAId ∈ db.listings.map CanonicalListing.canonicalListingId ∧
      candidate.listingBId ∈ db.listings.map CanonicalListing.canonicalListingId
  newListing : ∀ k, db.drawn ≤ k →
    ids.uuid k ∉ db.listings.map CanonicalListing.canonicalListingId
  newKey : ∀ k, db.drawn ≤ k → ∀ event ∈ db.events, event.idempotencyKey.listing ≠ ids.uuid k

/-- The listing stands on the unit of the building that carries the label. -/
def OnLabelledUnit (env : Environment) (db : Database) (observation : ParsedSourceObservation)
    (building : Building) (listing : CanonicalListing) : Prop :=
  listing.lifecycleStatus ≠ .merged ∧ ∃ label, observation.unitLabel = some label ∧
    ∃ unit ∈ db.units, unit.buildingId = building.buildingId ∧
      unit.unitFingerprint = some (unitFingerprint env.unicode label) ∧
        listing.unitId = some unit.unitId

/-- A strong match: the same building, layout and rent, no unit, and no link from the
source of the row. -/
def StrongMatch (db : Database) (row : SourceObservation) (building : Building)
    (layout : LayoutClass) (rent : Nat) (listing : CanonicalListing) : Prop :=
  listing.buildingId = building.buildingId ∧ listing.layoutClass = layout ∧
    listing.monthlyRentMinor = some rent ∧ listing.unitId = none ∧
      listing.lifecycleStatus ≠ .merged ∧ listing.lifecycleStatus ≠ .inactive ∧
        ∀ link ∈ db.links, link.canonicalListingId = listing.canonicalListingId →
          link.sourceId ≠ row.sourceId

/-- The observation has no unit label, and the listing is the only strong match. -/
def OnlyStrongMatch (db : Database) (row : SourceObservation)
    (observation : ParsedSourceObservation) (building : Building) (listing : CanonicalListing) :
    Prop :=
  observation.unitLabel = none ∧ observation.layout.proposedLayoutClass.known = true ∧
    ∃ rent, observation.statedRent = some rent ∧ ∀ other ∈ db.listings,
      StrongMatch db row building observation.layout.proposedLayoutClass rent other ↔
        other = listing

/-- One link was attached, and no listing created. -/
structure Attached (env : Environment) (row : SourceObservation)
    (observation : ParsedSourceObservation) (db next : Database) : Prop where
  sameListings : next.listings.map CanonicalListing.canonicalListingId =
    db.listings.map CanonicalListing.canonicalListingId
  attached : ∃ place building unitMatch, ∃ listing ∈ db.listings, ∃ link,
    db.resolvePlace env row observation = .ok (place, building, unitMatch) ∧
      next.links = db.links ++ [link] ∧ link.canonicalListingId = listing.canonicalListingId ∧
        (OnLabelledUnit env next observation building listing ∨
          OnlyStrongMatch db row observation building listing)

/-- One candidate listing was created, with one link, one event, and one proposal
with its issue for each similar listing. -/
structure StartedWith (building : Building) (listing : CanonicalListing) (link : ListingSourceLink)
    (event : ListingEvent) (db next : Database) : Prop where
  listings : next.listings = db.listings ++ [listing]
  lifecycle : listing.lifecycleStatus = .candidate
  inBuilding : listing.buildingId = building.buildingId
  links : next.links = db.links ++ [link]
  owner : link.canonicalListingId = listing.canonicalListingId
  events : next.events = db.events ++ [event]
  eventType : event.eventType = .created
  eventListing : event.canonicalListingId = listing.canonicalListingId
  proposals : ∃ candidates issues,
    next.duplicateCandidates = db.duplicateCandidates ++ candidates ∧
      next.reviewIssues = db.reviewIssues ++ issues ∧
      List.Forall₂ (fun other (candidate : DuplicateCandidate) => candidate.Proposes listing other)
        (db.listings.filter listing.similarTo) candidates ∧
      List.Forall₂ (fun candidate (issue : ReviewIssue) => issue.Surfaces candidate) candidates
        issues

/-- The observation started a listing of the building it resolves to. -/
def Started (env : Environment) (row : SourceObservation) (observation : ParsedSourceObservation)
    (db next : Database) : Prop :=
  ∃ place building unitMatch listing link event,
    db.resolvePlace env row observation = .ok (place, building, unitMatch) ∧
      StartedWith building listing link event db next

variable {ids : IdSupply} {env : Environment} {now : Timestamp} {db next : Database}
  {row : SourceObservation} {observation : ParsedSourceObservation} {method : DiscoveryMethod}
  {outcome : NormalizationOutcome} {building : Building}

/-! ## Attaching -/

theorem strongMatch_iff {layout : LayoutClass} {rent : Nat} {listing : CanonicalListing} :
    strongMatch db.links row building.buildingId layout rent listing = true ↔
      StrongMatch db row building layout rent listing := by
  simp [strongMatch, StrongMatch, and_assoc]

/-- The listing that the strong match finds is the only one for an observation without a unit
label. -/
theorem onlyStrongMatch_of_found {listing : CanonicalListing}
    (unlabelled : observation.unitLabel = none)
    (found : db.strongMultiFieldMatch building observation row = some listing) :
    OnlyStrongMatch db row observation building listing := by
  obtain ⟨rent, stated, known, only⟩ := strongMultiFieldMatch_eq_some.mp found
  refine ⟨unlabelled, known, rent, stated, fun other member => ?_⟩
  rw [← strongMatch_iff]
  constructor
  · intro strong
    have inside := List.mem_filter.mpr ⟨member, strong⟩
    rw [only] at inside
    exact List.mem_singleton.mp inside
  · rintro rfl
    have inside : other ∈ db.listings.filter _ := only ▸ List.mem_singleton_self other
    exact (List.mem_filter.mp inside).2

/-! ## Proposals -/

/-- The pairs of one listing are told apart by the other listing. -/
theorem orderedPair_right_injective {first second third : Uuid}
    (same : orderedPair first second = orderedPair first third) : second = third := by
  unfold orderedPair at same
  split at same <;> split at same <;> obtain ⟨left, right⟩ := Prod.mk.injEq .. ▸ same
  · exact right
  · exact right.trans left
  · exact left.trans right
  · exact left

theorem orderedPair_ordered (first second : Uuid) :
    (orderedPair first second).1 ≤ (orderedPair first second).2 := by
  unfold orderedPair
  split
  · assumption
  · rename_i above
    exact Nat.le_of_not_le above

theorem left_mem_orderedPair (first second : Uuid) :
    (orderedPair first second).1 = first ∨ (orderedPair first second).2 = first := by
  unfold orderedPair
  split
  · exact .inl rfl
  · exact .inr rfl

/-- No candidate names the pair yet. -/
def Unproposed (db : Database) (pair : Uuid × Uuid) : Prop :=
  ∀ candidate ∈ db.duplicateCandidates, (candidate.listingAId, candidate.listingBId) ≠ pair

/-- From `db` to `next` each of the others was proposed once as a duplicate of the
listing, and nothing else was written. -/
structure Proposed (listing : CanonicalListing) (others : List CanonicalListing)
    (db next : Database) : Prop where
  frame : next = { db with
    drawn := next.drawn
    duplicateCandidates := next.duplicateCandidates
    reviewIssues := next.reviewIssues }
  proposed : ∃ candidates issues,
    next.duplicateCandidates = db.duplicateCandidates ++ candidates ∧
      next.reviewIssues = db.reviewIssues ++ issues ∧
      List.Forall₂ (fun other (candidate : DuplicateCandidate) => candidate.Proposes listing other)
        others candidates ∧
      List.Forall₂ (fun candidate (issue : ReviewIssue) => issue.Surfaces candidate) candidates
        issues

theorem Proposed.refl (listing : CanonicalListing) (db : Database) : Proposed listing [] db db :=
  ⟨rfl, [], [], by simp, by simp, .nil, .nil⟩

/-- One proposal and those after it are the proposals of a list. -/
theorem Proposed.cons {listing other : CanonicalListing} {others : List CanonicalListing}
    {middle : Database} (first : Proposed listing [other] db middle)
    (rest : Proposed listing others middle next) : Proposed listing (other :: others) db next := by
  obtain ⟨firstCandidates, firstIssues, candidates, issues, proposed, surfaced⟩ := first.proposed
  obtain ⟨restCandidates, restIssues, laterCandidates, laterIssues, laterProposed,
    laterSurfaced⟩ := rest.proposed
  refine ⟨by rw [rest.frame, first.frame], firstCandidates ++ restCandidates,
    firstIssues ++ restIssues, ?_, ?_, ?_, ?_⟩
  · rw [laterCandidates, candidates, List.append_assoc]
  · rw [laterIssues, issues, List.append_assoc]
  · exact List.rel_append proposed laterProposed
  · exact List.rel_append surfaced laterSurfaced

/-- A round proposes a listing with a similar rent when the pair is new. -/
theorem proposeDuplicate_proposed (env : Environment) {listing other : CanonicalListing}
    {rent otherRent : Nat}
    (rented : other.monthlyRentMinor = some otherRent) (similar : similarRent rent otherRent = true)
    (unproposed : db.Unproposed
      (orderedPair listing.canonicalListingId other.canonicalListingId)) :
    Proposed listing [other] db (proposeDuplicate env listing rent db other) := by
  have absent : (db.duplicateCandidates.any fun candidate =>
      candidate.listingAId =
          (orderedPair listing.canonicalListingId other.canonicalListingId).1 &&
        candidate.listingBId =
            (orderedPair listing.canonicalListingId other.canonicalListingId).2 &&
          candidate.ruleVersion = identityRuleVersion) = false := by
    rw [List.any_eq_false]
    intro candidate member present
    simp only [Bool.and_eq_true, decide_eq_true_eq] at present
    exact unproposed candidate member (Prod.ext present.1.1 present.1.2)
  unfold proposeDuplicate
  simp only [rented, similar, absent, Bool.not_true, Bool.or_self, Bool.false_eq_true, ↓reduceIte]
  refine ⟨rfl, [_], [_], rfl, rfl, .cons ⟨rfl, orderedPair_ordered _ _, rfl, rfl⟩ .nil,
    .cons ⟨rfl, rfl, rfl, rfl⟩ .nil⟩

theorem proposeDuplicate_dissimilar {listing other : CanonicalListing} {rent otherRent : Nat}
    (rented : other.monthlyRentMinor = some otherRent)
    (differs : similarRent rent otherRent = false) :
    proposeDuplicate env listing rent db other = db := by
  unfold proposeDuplicate
  simp [rented, differs]

/-- Proposing one pair leaves a pair with another listing unproposed. -/
theorem Proposed.unproposed {listing first other : CanonicalListing}
    (proposed : Proposed listing [first] db next)
    (apart : first.canonicalListingId ≠ other.canonicalListingId)
    (unproposed : db.Unproposed
      (orderedPair listing.canonicalListingId other.canonicalListingId)) :
    next.Unproposed (orderedPair listing.canonicalListingId other.canonicalListingId) := by
  obtain ⟨candidates, _, grown, _, pairs, _⟩ := proposed.proposed
  intro candidate member same
  rw [grown] at member
  rcases List.mem_append.mp member with old | new
  · exact unproposed candidate old same
  · cases pairs with
    | cons names none =>
        cases none
        cases List.mem_singleton.mp new
        exact apart (orderedPair_right_injective (names.pair.symm.trans same))

/-- The rent of the other listing is stated and similar. -/
def rentsAlike (rent : Nat) (other : CanonicalListing) : Bool :=
  other.monthlyRentMinor.any (similarRent rent)

/-- The rounds propose the listings with a similar rent, each once. -/
theorem foldl_proposed {listing : CanonicalListing} {rent : Nat} {others : List CanonicalListing}
    (rented : ∀ other ∈ others, other.monthlyRentMinor.isSome = true)
    (distinct : (others.map CanonicalListing.canonicalListingId).Nodup)
    (unproposed : ∀ other ∈ others,
      db.Unproposed (orderedPair listing.canonicalListingId other.canonicalListingId)) :
    Proposed listing (others.filter (rentsAlike rent)) db
      (others.foldl (proposeDuplicate env listing rent) db) := by
  induction others generalizing db with
  | nil => exact .refl listing db
  | cons other rest ih =>
      obtain ⟨apart, restDistinct⟩ := List.nodup_cons.mp distinct
      have restRented := fun third (member : third ∈ rest) =>
        rented third (List.mem_cons_of_mem _ member)
      obtain ⟨otherRent, stated⟩ := Option.isSome_iff_exists.mp (rented other List.mem_cons_self)
      have unproposedRest := fun third (member : third ∈ rest) =>
        unproposed third (List.mem_cons_of_mem _ member)
      rw [List.foldl_cons]
      cases alike : similarRent rent otherRent with
      | true =>
          have first := proposeDuplicate_proposed env stated alike
            (unproposed other List.mem_cons_self)
          rw [List.filter_cons_of_pos (by simp [rentsAlike, stated, alike])]
          refine first.cons (ih restRented restDistinct fun third member => ?_)
          refine first.unproposed (fun same => apart ?_) (unproposedRest third member)
          exact same ▸ List.mem_map_of_mem member
      | false =>
          rw [List.filter_cons_of_neg (by simp [rentsAlike, stated, alike]),
            proposeDuplicate_dissimilar stated alike]
          exact ih restRented restDistinct unproposedRest

/-- A new listing is proposed as a duplicate of the similar listings. -/
theorem generateDuplicateCandidates_proposed (env : Environment) (building : Building)
    {listing : CanonicalListing}
    {before : List CanonicalListing} (listings : db.listings = before ++ [listing])
    (keyed : PrimaryKey CanonicalListing.canonicalListingId db.listings)
    (inBuilding : listing.buildingId = building.buildingId)
    (candidates : ∀ candidate ∈ db.duplicateCandidates,
      candidate.listingAId ≠ listing.canonicalListingId ∧
        candidate.listingBId ≠ listing.canonicalListingId) :
    Proposed listing (before.filter listing.similarTo) db
      (db.generateDuplicateCandidates env listing building) := by
  have unproposed : ∀ other : CanonicalListing,
      db.Unproposed (orderedPair listing.canonicalListingId other.canonicalListingId) := by
    intro other candidate member same
    obtain ⟨first, second⟩ := candidates candidate member
    rcases left_mem_orderedPair listing.canonicalListingId other.canonicalListingId with left | left
    · exact first ((congrArg Prod.fst same).trans left)
    · exact second ((congrArg Prod.snd same).trans left)
  unfold generateDuplicateCandidates
  split
  · rename_i unstated
    have none : before.filter listing.similarTo = [] :=
      List.filter_eq_nil_iff.mpr (by simp [CanonicalListing.similarTo, unstated])
    rw [none]
    exact .refl listing db
  · rename_i rent stated
    split
    · rename_i known
      have rows : (db.listings.filter (listing.comparable building.buildingId)).filter
          (rentsAlike rent) = before.filter listing.similarTo := by
        rw [List.filter_filter, listings, List.filter_append,
          List.filter_cons_of_neg (by simp [CanonicalListing.comparable]), List.filter_nil,
          List.append_nil]
        refine List.filter_congr fun other member => ?_
        rw [listings] at keyed
        have apart : other.canonicalListingId ≠ listing.canonicalListingId :=
          (List.pairwise_append.mp keyed).2.2 other member listing (List.mem_singleton_self _)
            trivial trivial
        cases rented : other.monthlyRentMinor <;>
          simp [CanonicalListing.comparable, CanonicalListing.similarTo, rentsAlike, rented, stated,
            known, inBuilding, apart, Bool.and_comm, Bool.and_left_comm, Bool.and_assoc]
      rw [← rows]
      refine foldl_proposed ?_ ?_ fun other _ => unproposed other
      · intro other member
        have comparable := (List.mem_filter.mp member).2
        simp only [CanonicalListing.comparable, Bool.and_eq_true] at comparable
        exact comparable.1.2
      · exact (primaryKey_iff_nodup.mp keyed).sublist (List.filter_sublist.map _)
    · rename_i unknown
      have none : before.filter listing.similarTo = [] :=
        List.filter_eq_nil_iff.mpr (by simp [CanonicalListing.similarTo, unknown])
      rw [none]
      exact .refl listing db

/-! ## Starting -/

/-- Places that are added keep the constraints on identities. -/
theorem IdentityConstraints.place (constraints : IdentityConstraints ids db)
    (place : PlaceOnly db next) : IdentityConstraints ids next where
  listings := place.listings ▸ constraints.listings
  candidates := by
    rw [place.duplicateCandidates, place.listings]
    exact constraints.candidates
  newListing := by
    rw [place.listings]
    exact fun k later => constraints.newListing k (Nat.le_trans place.drawn later)
  newKey := by
    rw [place.events]
    exact fun k later => constraints.newKey k (Nat.le_trans place.drawn later)

/-- An event with an unused key is appended. -/
theorem emitEvent_of_new (env : Environment) (row : SourceObservation) (listingId : Uuid)
    (eventType : ListingEventType) (before after : Option JsonObject)
    (unused : ∀ other ∈ db.events,
      other.idempotencyKey ≠ ⟨listingId, eventType, .row row.sourceObservationId⟩) :
    (db.emitEvent env row listingId eventType before after).1 = { db with
      drawn := db.drawn + 1
      events := db.events ++
        [causedEvent row (env.ids.uuid db.drawn) listingId eventType before after] } := by
  have absent : (db.events.any fun other => other.idempotencyKey =
      (causedEvent row (env.ids.uuid db.drawn) listingId eventType before after).idempotencyKey) =
        false := by
    rw [List.any_eq_false]
    intro other member same
    exact unused other member (of_decide_eq_true same)
  simp [emitEvent, insertEvent, absent]

/-- A listing that is started has its link, its event and its proposals. -/
theorem startListing_started (constraints : IdentityConstraints env.ids db) {unitId : Option Uuid}
    (started : db.startListing env now row observation method building unitId =
      .ok (next, outcome)) :
    ∃ listing link event, StartedWith building listing link event db next := by
  obtain ⟨recorded, facts, rfl⟩ := startListing_eq_ok started
  let listing := newListing row observation (env.ids.uuid db.drawn) building.buildingId unitId
  have fresh : listing.canonicalListingId ∉ db.listings.map CanonicalListing.canonicalListingId :=
    constraints.newListing db.drawn (Nat.le_refl _)
  have unused : ∀ other ∈ (db.startedOn env row observation method building unitId).events,
      other.idempotencyKey ≠
        ⟨env.ids.uuid db.drawn, .created, .row row.sourceObservationId⟩ :=
    fun other member same => constraints.newKey db.drawn (Nat.le_refl _) other member
      (congrArg EventKey.listing same)
  rw [emitEvent_of_new env row _ _ _ _ unused] at facts
  have kept := facts.frame
  have listings : recorded.listings = db.listings ++ [listing] := by rw [kept]; rfl
  have candidates : recorded.duplicateCandidates = db.duplicateCandidates := by rw [kept]; rfl
  have proposed := generateDuplicateCandidates_proposed env building listings
    (by
      rw [listings]
      exact constraints.listings.insert fun _ other member _ same =>
        fresh (same ▸ List.mem_map_of_mem member)) rfl
    (by
      rw [candidates]
      intro candidate member
      obtain ⟨first, second⟩ := constraints.candidates candidate member
      exact ⟨fun same => fresh (same ▸ first), fun same => fresh (same ▸ second)⟩)
  obtain ⟨added, issues, grown, surfaced, pairs, details⟩ := proposed.proposed
  refine ⟨listing, newLink row method (env.ids.uuid (db.drawn + 1)) listing.canonicalListingId
    .sourceNativeContinuity .high, causedEvent row (env.ids.uuid (db.drawn + 2))
    listing.canonicalListingId .created none (some [("lifecycle_status", .lifecycle .candidate)]),
    ?_, rfl, rfl, ?_, rfl, ?_, rfl, rfl, added, issues, ?_, ?_, pairs, details⟩
  · rw [proposed.frame]
    exact listings
  · rw [proposed.frame, kept]
    rfl
  · rw [proposed.frame, kept]
    rfl
  · rw [grown, candidates]
  · rw [surfaced, kept]
    rfl

/-- Resolving the place before makes no difference to what a start adds. -/
theorem StartedWith.of_place {place : Database} {listing : CanonicalListing}
    {link : ListingSourceLink} {event : ListingEvent} (placed : PlaceOnly db place)
    (started : StartedWith building listing link event place next) :
    StartedWith building listing link event db next where
  listings := placed.listings ▸ started.listings
  lifecycle := started.lifecycle
  inBuilding := started.inBuilding
  links := placed.links ▸ started.links
  owner := started.owner
  events := placed.events ▸ started.events
  eventType := started.eventType
  eventListing := started.eventListing
  proposals := by
    rw [← placed.duplicateCandidates, ← placed.reviewIssues, ← placed.listings]
    exact started.proposals

/-- An attached link leaves nothing started. -/
theorem Attached.not_started (attached : Attached env row observation db next) :
    ¬ Started env row observation db next := by
  rintro ⟨_, _, _, listing, _, _, _, started⟩
  have longer := congrArg List.length attached.sameListings
  rw [started.listings] at longer
  simp at longer

/-- A new identity is attached or starts a listing. -/
theorem createCanonical_attached_or_started (constraints : IdentityConstraints env.ids db)
    (created : db.createCanonical env now row observation method = .ok (next, outcome)) :
    Attached env row observation db next ∨ Started env row observation db next := by
  obtain ⟨place, building, unitMatch, resolved, creation⟩ := createCanonical_cases created
  have placed := resolvePlace_placeOnly resolved
  generalize result : Except.ok (next, outcome) = ended at creation
  cases creation with
  | exact =>
      rename_i unit listing
      obtain ⟨member, stands, unmerged⟩ := latestListingOn_eq_some (resolvePlace_occupied resolved)
      left
      rcases resolvePlace_eq_ok resolved with ⟨absurd, _⟩ | ⟨label, other, stated, found⟩
      · cases absurd
      · cases found.atUnit
        cases result
        refine ⟨(attachCrossSourceLink_listingIds listing _ _).trans (congrArg _ placed.listings),
          place, building, _, listing, placed.listings ▸ member, _, resolved,
          congrArg (· ++ _) placed.links, rfl, .inl ⟨unmerged, label, stated, unit, found.member,
            found.inBuilding, found.fingerprint, stands⟩⟩
  | strong found =>
      rename_i listing
      left
      rcases resolvePlace_eq_ok resolved with ⟨_, unlabelled⟩ | ⟨label, other, _, unitFound⟩
      · have only := onlyStrongMatch_of_found unlabelled found
        cases result
        refine ⟨(attachCrossSourceLink_listingIds listing _ _).trans (congrArg _ placed.listings),
          place, building, _, listing,
          placed.listings ▸ (strongMatch_of_strongMultiFieldMatch found).1, _, resolved,
          congrArg (· ++ _) placed.links, rfl, .inr ?_⟩
        simpa only [OnlyStrongMatch, StrongMatch, placed.listings, placed.links] using only
      · cases unitFound.atUnit
  | vacant =>
      obtain ⟨listing, link, event, started⟩ :=
        startListing_started (constraints.place placed) result.symm
      exact .inr ⟨place, building, _, listing, link, event, resolved, started.of_place placed⟩
  | unmatched _ =>
      obtain ⟨listing, link, event, started⟩ :=
        startListing_started (constraints.place placed) result.symm
      exact .inr ⟨place, building, _, listing, link, event, resolved, started.of_place placed⟩

/-- **Identity resolution.** In a database that satisfies its constraints, a valid or
partial observation with a new source identity is attached to exactly one listing
or starts exactly one, never both. -/
theorem identity_resolution (constraints : IdentityConstraints env.ids db)
    {observationId : Uuid} (found : db.observation? observationId = some row)
    (processable : row.parseStatus = .valid ∨ row.parseStatus = .partialParse)
    (unknown : db.findLink row = .ok none)
    (processed : db.processObservation env now method observationId = .ok (next, outcome)) :
    Xor (Attached env row row.parsedPayload db next)
      (Started env row row.parsedPayload db next) := by
  rcases processObservation_cases processed found processable with ⟨_, created⟩ | ⟨_, known, _⟩
  · rcases createCanonical_attached_or_started constraints created with attached | started
    · exact .inl ⟨attached, attached.not_started⟩
    · exact .inr ⟨started, fun attached => attached.not_started started⟩
  · cases unknown.symm.trans known

/-! ## A similar studio -/

/-- A studio at one address without a unit. -/
def observedStudio (id : Uuid) (nativeId : String) (rent : Nat) : SourceObservation :=
  let row := observedAt id 1 nativeId none
  { row with parsedPayload := { row.parsedPayload with
      pricing := { monthlyRentMinor := some rent }
      layout := { proposedLayoutClass := .studio } } }

/-- One source lists two studios at one address; the first one was processed. -/
def firstStudio : Database :=
  reached countingIds asciiTables
    [.outside
        { observations := [observedStudio 1 "a" 300000, observedStudio 2 "b" 306000]
          sourceRuns := []
          overrides := []
          geography := fun address => (address.locationPrecision, address.boundaryStatus) },
      process 1]

/-- The inventory with one studio meets the constraints on identities. -/
theorem firstStudio_constraints : IdentityConstraints countingIds firstStudio where
  listings := by decide
  candidates := by decide
  newListing := by
    intro k later
    have listings : firstStudio.listings.map CanonicalListing.canonicalListingId = [102] := by
      decide
    have drawn : firstStudio.drawn = 9 := by decide
    rw [listings, List.mem_singleton]
    change k + 100 ≠ 102
    omega
  newKey := by
    intro k later event member
    have keys : ∀ event ∈ firstStudio.events, event.idempotencyKey.listing = 102 := by decide
    have drawn : firstStudio.drawn = 9 := by decide
    rw [keys event member]
    change 102 ≠ k + 100
    omega

/-- A second studio in the building of the first is attached or started, and not both. -/
theorem identity_resolution_studio :
    ∃ next outcome,
      firstStudio.processObservation ⟨countingIds, asciiTables, fun _ => 0⟩ 0 .direct 2 =
      .ok (next, outcome) ∧
        Xor (Attached ⟨countingIds, asciiTables, fun _ => 0⟩ (observedStudio 2 "b" 306000)
            (observedStudio 2 "b" 306000).parsedPayload firstStudio next)
          (Started ⟨countingIds, asciiTables, fun _ => 0⟩ (observedStudio 2 "b" 306000)
            (observedStudio 2 "b" 306000).parsedPayload firstStudio next) := by
  have processed :
      firstStudio.processObservation ⟨countingIds, asciiTables, fun _ => 0⟩ 0 .direct 2 =
    .ok (_, _) := rfl
  exact ⟨_, _, processed,
    identity_resolution firstStudio_constraints (by decide) (.inl rfl) (by decide) processed⟩

example : (firstStudio.step countingIds asciiTables (process 2)).duplicateCandidates.map
    (fun candidate => (candidate.listingAId, candidate.listingBId)) = [(102, 109)] := by decide

end Database

end RentalAgent
