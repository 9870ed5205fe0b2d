import RentalAgent.Canonical.DuplicateReview
import RentalAgent.Canonical.Replay
import RentalAgent.Foundation.Growth

/-! # What the services never take back

No service deletes a row. Journals and places are append-only, a merge is reversed at
most once, a verdict or a closed issue stays, and of a listing or a link a call changes
only the columns named here. A row that is inserted refers to rows that are there
(`Database.Persists`). Each write of the services is one of a few kinds of growth, so
every step and every run is.
-/

namespace RentalAgent

open Relational Transition

namespace Database

/-- A listing has the id. -/
def HasListing (db : Database) (id : Uuid) : Prop :=
  id ∈ db.listings.map CanonicalListing.canonicalListingId

/-- What references refer to in `db` is there in `next` too. -/
structure Knows (db next : Database) : Prop where
  addresses : db.addresses.map Address.addressId ⊆ next.addresses.map Address.addressId
  buildings : db.buildings ⊆ next.buildings
  units : db.units ⊆ next.units
  listings : ∀ id, db.HasListing id → next.HasListing id
  links : db.links.map ListingSourceLink.listingSourceLinkId ⊆
    next.links.map ListingSourceLink.listingSourceLinkId
  candidates : db.duplicateCandidates.map DuplicateCandidate.duplicateCandidateId ⊆
    next.duplicateCandidates.map DuplicateCandidate.duplicateCandidateId
  assertions : db.assertions ⊆ next.assertions

end Database

/-! ## How rows age, and what sound rows are -/

/-- What becomes of an address: its identity columns stay. -/
def Address.Ages (row later : Address) : Prop :=
  later = { row with
    locationPrecision := later.locationPrecision
    boundaryStatus := later.boundaryStatus
    borough := later.borough
    locationPoint := later.locationPoint
    geocoderSourceId := later.geocoderSourceId
    geocoderResultId := later.geocoderResultId
    geocodedAt := later.geocodedAt
    geocodeInputHash := later.geocodeInputHash
    geocodeStatus := later.geocodeStatus }

/-- What becomes of a listing: where it stands, its layout, its description and its first
sighting stay, its last sighting moves forward, and it goes inactive with a date. -/
structure CanonicalListing.Ages (row later : CanonicalListing) : Prop where
  frame : later = { row with
    monthlyRentMinor := later.monthlyRentMinor
    availabilityStatus := later.availabilityStatus
    lifecycleStatus := later.lifecycleStatus
    laundryType := later.laundryType
    indoorLaundryBadgeEligible := later.indoorLaundryBadgeEligible
    lastSeenAt := later.lastSeenAt
    lastMaterialChangeAt := later.lastMaterialChangeAt
    inactiveAt := later.inactiveAt }
  seen : row.lastSeenAt ≤ later.lastSeenAt
  dated : row.inactiveAt.isSome = true → later.inactiveAt.isSome = true
  inactive : later.lifecycleStatus = .inactive →
    row.lifecycleStatus = .inactive ∨ later.inactiveAt.isSome = true

/-- A listing was last seen no earlier than first, is inactive since a date, and stands in
a building, on one of its units if on any. -/
structure CanonicalListing.Sound (db : Database) (row : CanonicalListing) : Prop where
  window : row.firstSeenAt ≤ row.lastSeenAt
  inactive : row.lifecycleStatus = .inactive → row.inactiveAt.isSome = true
  building : ∃ building ∈ db.buildings, building.buildingId = row.buildingId
  unit : ∀ unitId, row.unitId = some unitId →
    ∃ unit ∈ db.units, unit.unitId = unitId ∧ unit.buildingId = row.buildingId

/-- What becomes of a link: the source identity and the first observation stay, the last
sighting moves forward, and a removed link stays removed. -/
structure ListingSourceLink.Ages (row later : ListingSourceLink) : Prop where
  frame : later = { row with
    canonicalListingId := later.canonicalListingId
    latestObservationId := later.latestObservationId
    lastSeenAt := later.lastSeenAt
    linkStatus := later.linkStatus }
  seen : row.lastSeenAt ≤ later.lastSeenAt
  removed : row.linkStatus = .removed → later.linkStatus = .removed

def ListingSourceLink.Sound (row : ListingSourceLink) : Prop := row.firstSeenAt ≤ row.lastSeenAt

/-- A building stands at an address. -/
def Building.Sound (db : Database) (row : Building) : Prop :=
  row.addressId ∈ db.addresses.map Address.addressId

/-- A unit is in a building. -/
def BuildingUnit.Sound (db : Database) (row : BuildingUnit) : Prop :=
  ∃ building ∈ db.buildings, building.buildingId = row.buildingId

/-- A merge is marked as reversed at most once, and nothing else of it is written. -/
abbrev CanonicalMerge.Ages : CanonicalMerge → CanonicalMerge → Prop :=
  WrittenOnce (fun row => row.reversedAt = none) fun row later =>
    ∃ now, later = { row with reversedAt := some now }

/-- A merge is of two listings and moved links. -/
structure CanonicalMerge.Sound (db : Database) (row : CanonicalMerge) : Prop where
  apart : row.sourceListingId ≠ row.targetListingId
  source : db.HasListing row.sourceListingId
  target : db.HasListing row.targetListingId
  moved : row.movedLinkIds ⊆ db.links.map ListingSourceLink.listingSourceLinkId

/-- A candidate gets its verdict at most once. -/
abbrev DuplicateCandidate.Ages : DuplicateCandidate → DuplicateCandidate → Prop :=
  WrittenOnce (fun row => row.status = .pending) fun row later =>
    ∃ status actor now, status ≠ .pending ∧ later = { row with
      status := status
      resolvedBy := some actor
      resolvedAt := some now }

/-- A candidate is an ordered pair of listings, and a verdict is signed and dated. -/
structure DuplicateCandidate.Sound (db : Database) (row : DuplicateCandidate) : Prop where
  ordered : row.listingAId < row.listingBId
  first : db.HasListing row.listingAId
  second : db.HasListing row.listingBId
  signed : row.resolvedBy.isSome = true ↔ row.status ≠ .pending
  dated : row.resolvedAt.isSome = true ↔ row.status ≠ .pending

/-- An issue is closed at most once. -/
abbrev ReviewIssue.Ages : ReviewIssue → ReviewIssue → Prop :=
  WrittenOnce (fun row => row.status = .open) fun row later =>
    ∃ now actor, later = { row with
      status := .resolved
      resolvedAt := some now
      resolvedBy := some actor }

/-- What the details of an issue refer to. -/
def ReviewDetails.Sound (db : Database) : ReviewDetails → Prop
  | .duplicateCandidate candidateId first second =>
      candidateId ∈ db.duplicateCandidates.map DuplicateCandidate.duplicateCandidateId ∧
        db.HasListing first ∧ db.HasListing second
  | .overrideConflict .. => True
  | .circuitBreaker _ _ listingIds => ∀ id ∈ listingIds, db.HasListing id

/-- An issue is about a listing, and a closed issue is signed and dated. -/
structure ReviewIssue.Sound (db : Database) (row : ReviewIssue) : Prop where
  entity : db.HasListing row.entityId
  details : row.details.Sound db
  signed : row.resolvedBy.isSome = true ↔ row.status ≠ .open
  dated : row.resolvedAt.isSome = true ↔ row.status ≠ .open

def ListingEvent.Sound (db : Database) (row : ListingEvent) : Prop :=
  db.HasListing row.canonicalListingId

/-- An assertion is about a listing. -/
def FactAssertion.Sound (db : Database) (row : FactAssertion) : Prop :=
  row.entityType = .listing ∧ db.HasListing row.entityId

/-- A resolution is superseded at most once. -/
abbrev FactResolution.Ages : FactResolution → FactResolution → Prop :=
  WrittenOnce (fun row => row.supersededAt = none) fun row later =>
    ∃ now, later = { row with supersededAt := some now }

/-- A resolution takes its value from an assertion of the same fact. -/
def FactResolution.Sound (db : Database) (row : FactResolution) : Prop :=
  ∃ assertion ∈ db.assertions, row.effectiveAssertionId = some assertion.factAssertionId ∧
    assertion.entityType = row.entityType ∧ assertion.entityId = row.entityId ∧
      assertion.factKey = row.factKey

def AuditActionLog.Sound (db : Database) (row : AuditActionLog) : Prop :=
  db.HasListing row.targetId

section Aging

variable {db next : Database}

instance address_aging : Aging Address.Ages fun _ => True where
  still _ := rfl
  chain earlier later := by
    rw [Address.Ages] at earlier later ⊢
    rw [later, earlier]
  stays _ _ := trivial

instance listing_aging : Aging CanonicalListing.Ages (CanonicalListing.Sound db) where
  still _ := ⟨rfl, le_refl _, id, .inl⟩
  chain earlier later := by
    refine ⟨?_, le_trans earlier.seen later.seen, later.dated ∘ earlier.dated, fun gone => ?_⟩
    · rw [later.frame, earlier.frame]
    · rcases later.inactive gone with before | dated
      · exact (earlier.inactive before).imp_right later.dated
      · exact .inr dated
  stays ages sound := by
    have first := congrArg CanonicalListing.firstSeenAt ages.frame
    have buildings := congrArg CanonicalListing.buildingId ages.frame
    have units := congrArg CanonicalListing.unitId ages.frame
    refine ⟨first ▸ le_trans sound.window ages.seen, fun gone => ?_, buildings ▸ sound.building,
      buildings ▸ units ▸ sound.unit⟩
    rcases ages.inactive gone with before | dated
    · exact ages.dated (sound.inactive before)
    · exact dated

instance link_aging : Aging ListingSourceLink.Ages ListingSourceLink.Sound where
  still _ := ⟨rfl, le_refl _, id⟩
  chain earlier later := by
    refine ⟨?_, le_trans earlier.seen later.seen, later.removed ∘ earlier.removed⟩
    rw [later.frame, earlier.frame]
  stays ages sound := by
    have first := congrArg ListingSourceLink.firstSeenAt ages.frame
    rw [ListingSourceLink.Sound, first]
    exact le_trans sound ages.seen

instance merge_aging : Aging CanonicalMerge.Ages (CanonicalMerge.Sound db) := by
  apply aging_writtenOnce
  · rintro _ _ ⟨now, rfl⟩
    simp
  · rintro _ _ _ ⟨now, rfl⟩ sound
    exact ⟨sound.apart, sound.source, sound.target, sound.moved⟩

instance candidate_aging : Aging DuplicateCandidate.Ages (DuplicateCandidate.Sound db) := by
  apply aging_writtenOnce
  · rintro _ _ ⟨status, actor, now, decided, rfl⟩
    exact decided
  · rintro _ _ _ ⟨status, actor, now, decided, rfl⟩ sound
    exact ⟨sound.ordered, sound.first, sound.second, by simp [decided], by simp [decided]⟩

instance issue_aging : Aging ReviewIssue.Ages (ReviewIssue.Sound db) := by
  apply aging_writtenOnce
  · rintro _ _ ⟨now, actor, rfl⟩
    simp
  · rintro _ _ _ ⟨now, actor, rfl⟩ sound
    exact ⟨sound.entity, sound.details, by simp, by simp⟩

instance resolution_aging : Aging FactResolution.Ages (FactResolution.Sound db) := by
  apply aging_writtenOnce
  · rintro _ _ ⟨now, rfl⟩
    simp
  · rintro _ _ _ ⟨now, rfl⟩ sound
    exact sound

/-! ## Soundness widens -/

variable (knows : Database.Knows db next)

include knows

theorem CanonicalListing.Sound.mono {row : CanonicalListing} (sound : row.Sound db) :
    row.Sound next := by
  refine ⟨sound.window, sound.inactive, ?_, fun unitId stands => ?_⟩
  · obtain ⟨building, member, same⟩ := sound.building
    exact ⟨building, knows.buildings member, same⟩
  · obtain ⟨unit, member, same⟩ := sound.unit unitId stands
    exact ⟨unit, knows.units member, same⟩

theorem BuildingUnit.Sound.mono {row : BuildingUnit} (sound : row.Sound db) : row.Sound next := by
  obtain ⟨building, member, same⟩ := sound
  exact ⟨building, knows.buildings member, same⟩

theorem CanonicalMerge.Sound.mono {row : CanonicalMerge} (sound : row.Sound db) : row.Sound next :=
  ⟨sound.apart, knows.listings _ sound.source, knows.listings _ sound.target,
    fun _ member => knows.links (sound.moved member)⟩

theorem DuplicateCandidate.Sound.mono {row : DuplicateCandidate} (sound : row.Sound db) :
    row.Sound next :=
  ⟨sound.ordered, knows.listings _ sound.first, knows.listings _ sound.second, sound.signed,
    sound.dated⟩

/-- A sound issue stays sound when rows are added. -/
theorem ReviewIssue.Sound.mono {row : ReviewIssue} (sound : row.Sound db) : row.Sound next := by
  refine ⟨knows.listings _ sound.entity, ?_, sound.signed, sound.dated⟩
  obtain ⟨-, details, -, -⟩ := sound
  generalize row.details = about at details ⊢
  cases about with
  | duplicateCandidate candidateId first second =>
      obtain ⟨candidate, listed⟩ : _ ∧ _ ∧ _ := details
      exact ⟨knows.candidates candidate, listed.imp (knows.listings _) (knows.listings _)⟩
  | overrideConflict _ _ _ _ => exact trivial
  | circuitBreaker _ _ listingIds => exact fun id member => knows.listings id (details id member)

theorem FactResolution.Sound.mono {row : FactResolution} (sound : row.Sound db) :
    row.Sound next := by
  obtain ⟨assertion, member, same⟩ := sound
  exact ⟨assertion, knows.assertions member, same⟩

end Aging

namespace Database

/-- Nothing was deleted, rows only aged, and the rows that came are sound. -/
structure Persists (db next : Database) : Prop where
  addresses : Accrues Address.Ages (fun _ => True) db.addresses next.addresses
  buildings : Accrues Eq (Building.Sound next) db.buildings next.buildings
  units : Accrues Eq (BuildingUnit.Sound next) db.units next.units
  listings : Accrues CanonicalListing.Ages (CanonicalListing.Sound next) db.listings
      next.listings
  links : Accrues ListingSourceLink.Ages ListingSourceLink.Sound db.links next.links
  merges : Accrues CanonicalMerge.Ages (CanonicalMerge.Sound next) db.merges next.merges
  candidates : Accrues DuplicateCandidate.Ages (DuplicateCandidate.Sound next)
      db.duplicateCandidates next.duplicateCandidates
  issues : Accrues ReviewIssue.Ages (ReviewIssue.Sound next) db.reviewIssues
      next.reviewIssues
  events : Accrues Eq (ListingEvent.Sound next) db.events next.events
  assertions : Accrues Eq (FactAssertion.Sound next) db.assertions next.assertions
  resolutions : Accrues FactResolution.Ages (FactResolution.Sound next) db.resolutions
      next.resolutions
  auditLog : Accrues Eq (AuditActionLog.Sound next) db.auditLog next.auditLog

variable {ids : IdSupply} {unicode : UnicodeTables} {env : Environment} {now : Timestamp}
  {db middle next : Database} {row : SourceObservation} {observation : ParsedSourceObservation}
  {method : DiscoveryMethod} {outcome : NormalizationOutcome}

theorem Persists.refl (db : Database) : Persists db db := by
  constructor <;> exact .refl _

/-- What persists is known afterwards. -/
theorem Persists.knows (persists : Persists db next) : Knows db next where
  addresses := by
    refine (persists.addresses.map_prefix Address.addressId fun row later ages => ?_).subset
    rw [Address.Ages] at ages
    rw [ages]
  buildings := persists.buildings.isPrefix.subset
  units := persists.units.isPrefix.subset
  listings id member := by
    refine (persists.listings.map_prefix CanonicalListing.canonicalListingId
      fun row later ages => ?_).subset member
    rw [ages.frame]
  links := by
    refine (persists.links.map_prefix ListingSourceLink.listingSourceLinkId
      fun row later ages => ?_).subset
    rw [ages.frame]
  candidates := by
    refine (persists.candidates.map_prefix DuplicateCandidate.duplicateCandidateId
      fun row later ages => ?_).subset
    rcases ages with rfl | ⟨-, _, _, _, -, rfl⟩ <;> rfl
  assertions := persists.assertions.isPrefix.subset

/-- What persists over two steps persists over both. -/
theorem Persists.trans (first : Persists db middle) (second : Persists middle next) :
    Persists db next where
  addresses := first.addresses.trans second.addresses
  buildings := (first.buildings.mono fun _ sound => second.knows.addresses sound).trans
    second.buildings
  units := (first.units.mono fun _ sound => sound.mono second.knows).trans second.units
  listings := (first.listings.mono fun _ sound => sound.mono second.knows).trans
    second.listings
  links := first.links.trans second.links
  merges := (first.merges.mono fun _ sound => sound.mono second.knows).trans
    second.merges
  candidates := (first.candidates.mono fun _ sound => sound.mono second.knows).trans
    second.candidates
  issues := (first.issues.mono fun _ sound => sound.mono second.knows).trans
    second.issues
  events := (first.events.mono fun _ sound => second.knows.listings _ sound).trans
    second.events
  assertions := (first.assertions.mono fun _ sound =>
    ⟨sound.1, second.knows.listings _ sound.2⟩).trans second.assertions
  resolutions := (first.resolutions.mono fun _ sound => sound.mono second.knows).trans
    second.resolutions
  auditLog := (first.auditLog.mono fun _ sound => second.knows.listings _ sound).trans
    second.auditLog

/-- Rounds that each persist from a state that knows the first one persist together. -/
theorem persists_foldl {State Step : Type} (database : State → Database)
    {round : State → Step → State} {steps : List Step} (state : State)
    (each : ∀ step ∈ steps, ∀ reached, Knows (database state) (database reached) →
      Persists (database reached) (database (round reached step))) :
    Persists (database state) (database (steps.foldl round state)) := by
  have rounds : ∀ (rest : List Step) (reached : State), (∀ step ∈ rest, step ∈ steps) →
      Persists (database state) (database reached) →
        Persists (database state) (database (rest.foldl round reached)) := by
    intro rest
    induction rest with
    | nil => exact fun _ _ so => so
    | cons step rest ih =>
        intro reached inside so
        obtain ⟨member, others⟩ := List.forall_mem_cons.mp inside
        exact ih _ others (so.trans (each step member reached so.knows))
  exact rounds steps state (fun _ member => member) (.refl _)

/-! ## Single writes -/

/-- An event about a listing that is there is added or was there before. -/
theorem insertEvent_persists {event : Uuid → ListingEvent}
    (listed : ∀ id, db.HasListing (event id).canonicalListingId) :
    Persists db (db.insertEvent ids event).1 := by
  unfold insertEvent
  dsimp only
  split
  · exact .refl db
  · constructor
    case events => exact accrues_insert _ (listed _)
    all_goals exact .refl _

theorem insertLink_persists {link : ListingSourceLink} (sound : link.Sound) (db : Database) :
    Persists db (db.insertLink link) := by
  constructor
  case links => exact accrues_insert _ sound
  all_goals exact .refl _

theorem sound_newLink (row : SourceObservation) (method : DiscoveryMethod) (id listingId : Uuid)
    (identity : IdentityMethod) (confidence : IdentityConfidence) :
    (newLink row method id listingId identity confidence).Sound :=
  le_refl row.observedAt

theorem updateListing_persists {id : Uuid} {change : CanonicalListing → CanonicalListing}
    (ages : ∀ listing : CanonicalListing, listing.Ages (change listing)) (db : Database) :
    Persists db (db.updateListing id change) := by
  constructor
  case listings => exact accrues_updateWhere fun listing _ _ => ages listing
  all_goals exact .refl _

theorem ages_seen (time : Timestamp) (listing : CanonicalListing) :
    listing.Ages { listing with lastSeenAt := max listing.lastSeenAt time } :=
  ⟨rfl, le_max_left _ _, id, .inl⟩

theorem ages_lifecycle {status : LifecycleStatus} (active : status ≠ .inactive)
    (listing : CanonicalListing) : listing.Ages { listing with lifecycleStatus := status } :=
  ⟨rfl, le_refl _, id, fun gone => (active gone).elim⟩

theorem ages_inactivated (time : Timestamp) (listing : CanonicalListing) :
    listing.Ages { listing with lifecycleStatus := .inactive, inactiveAt := some time } :=
  ⟨rfl, le_refl _, fun _ => rfl, fun _ => .inr rfl⟩

/-- The stated columns are written freely. -/
theorem ages_of_frame {listing later : CanonicalListing}
    (frame : later = { listing with
      monthlyRentMinor := later.monthlyRentMinor
      availabilityStatus := later.availabilityStatus
      laundryType := later.laundryType
      indoorLaundryBadgeEligible := later.indoorLaundryBadgeEligible
      lastMaterialChangeAt := later.lastMaterialChangeAt }) : listing.Ages later := by
  rw [frame]
  exact ⟨rfl, le_refl _, id, .inl⟩

/-- A recorded fact supersedes one resolution and adds its rows. -/
theorem recordFact_persists {record : FactRecord} (about : record.entityType = .listing)
    (listed : db.HasListing record.entityId)
    (recorded : db.recordFact ids now record = .ok next) : Persists db next := by
  obtain ⟨override, _, wrote⟩ := bind_eq_ok.mp recorded
  cases override with
  | some _ =>
      cases wrote
      constructor
      case assertions => exact accrues_insert _ ⟨about, listed⟩
      all_goals exact .refl _
  | none =>
      cases wrote
      constructor
      case assertions => exact accrues_insert _ ⟨about, listed⟩
      case resolutions =>
        refine Accrues.trans ?_ (accrues_insert _
          ⟨_, List.mem_append_right _ (List.mem_singleton_self _), rfl, rfl, rfl, rfl⟩)
        refine accrues_updateWhere fun resolution _ superseded => .inr ⟨?_, now, rfl⟩
        simp only [FactRecord.supersedes, Bool.and_eq_true, decide_eq_true_eq] at superseded
        exact superseded.2
      all_goals exact .refl _

/-- The facts of an observation supersede resolutions and add their rows. -/
theorem recordListingFacts_persists {listingId : Uuid} (listed : db.HasListing listingId)
    (recorded : db.recordListingFacts env now listingId observation row = .ok next) :
    Persists db next := by
  unfold recordListingFacts at recorded
  have about : ∀ record ∈ listingFacts listingId observation row,
      record.entityType = .listing ∧ record.entityId = listingId :=
    fun record => listingFacts_about
  generalize listingFacts listingId observation row = records at recorded about
  induction records generalizing db with
  | nil =>
      cases recorded
      exact .refl _
  | cons record rest ih =>
      rw [List.foldlM_cons] at recorded
      obtain ⟨middle, first, later⟩ := bind_eq_ok.mp recorded
      obtain ⟨⟨entity, same⟩, others⟩ := List.forall_mem_cons.mp about
      have noted := recordFact_persists entity (same ▸ listed) first
      exact noted.trans (ih (noted.knows.listings _ listed) later others)

/-- An open issue about a listing is sound when its details are. -/
theorem sound_opened {issue : ReviewIssue} (entity : db.HasListing issue.entityId)
    (details : issue.details.Sound db) (status : issue.status = .open)
    (unsigned : issue.resolvedBy = none) (undated : issue.resolvedAt = none) : issue.Sound db :=
  ⟨entity, details, by simp [status, unsigned], by simp [status, undated]⟩

/-- A conflict about a listing that is there is added as an open issue. -/
theorem raiseConflict_persists {override : HumanOverride} {entityId : Uuid} {factKey : String}
    {incoming : JsonScalar} (listed : db.HasListing entityId) :
    Persists db (db.raiseConflictWithOverride ids override entityId factKey incoming) := by
  unfold raiseConflictWithOverride
  split
  · exact .refl db
  · constructor
    case issues => exact accrues_insert _ (sound_opened listed trivial rfl rfl rfl)
    all_goals exact .refl _

/-- Two different ids are ordered strictly. -/
theorem orderedPair_lt {first second : Uuid} (apart : first ≠ second) :
    (orderedPair first second).1 < (orderedPair first second).2 := by
  unfold orderedPair
  split
  · rename_i below
    exact lt_of_le_of_ne below apart
  · rename_i above
    exact lt_of_not_ge above

/-- Ordering two listings gives two listings. -/
theorem orderedPair_listed {first second : Uuid} (firstListed : db.HasListing first)
    (secondListed : db.HasListing second) :
    db.HasListing (orderedPair first second).1 ∧ db.HasListing (orderedPair first second).2 := by
  unfold orderedPair
  split
  · exact ⟨firstListed, secondListed⟩
  · exact ⟨secondListed, firstListed⟩

/-- A proposal of two listings that are there adds an ordered pair and an open issue. -/
theorem proposeDuplicate_persists {listing other : CanonicalListing} (rent : Nat)
    (apart : listing.canonicalListingId ≠ other.canonicalListingId)
    (listed : db.HasListing listing.canonicalListingId)
    (otherListed : db.HasListing other.canonicalListingId) :
    Persists db (proposeDuplicate env listing rent db other) := by
  unfold proposeDuplicate
  split
  · exact .refl db
  · dsimp only
    split
    · exact .refl db
    · obtain ⟨first, second⟩ := orderedPair_listed listed otherListed
      constructor
      case candidates =>
        exact accrues_insert _ ⟨orderedPair_lt apart, first, second,
          by simp [proposedCandidate], by simp [proposedCandidate]⟩
      case issues =>
        exact accrues_insert _ (sound_opened first
          ⟨List.mem_map_of_mem (List.mem_append_right _ (List.mem_singleton_self _)), first,
            second⟩ rfl rfl rfl)
      all_goals exact .refl _

/-- Looking for duplicates of a listing that is there adds pairs and open issues. -/
theorem generateDuplicateCandidates_persists {listing : CanonicalListing} {building : Building}
    (listed : db.HasListing listing.canonicalListingId) :
    Persists db (db.generateDuplicateCandidates env listing building) := by
  unfold generateDuplicateCandidates
  split
  · exact .refl db
  · rename_i rent _
    split
    · refine persists_foldl id db fun other member reached knows => ?_
      obtain ⟨inside, comparable⟩ := List.mem_filter.mp member
      simp only [CanonicalListing.comparable, Bool.and_eq_true, decide_eq_true_eq] at comparable
      exact proposeDuplicate_persists rent comparable.1.1.1.2.symm (knows.listings _ listed)
        (knows.listings _ (List.mem_map_of_mem inside))
    · exact .refl db

/-! ## Normalization -/

/-- A place that is resolved is a building that is there, and a unit in it. -/
theorem resolvePlace_persists {building : Building} {unitMatch : UnitMatch}
    (resolved : db.resolvePlace env row observation = .ok (next, building, unitMatch)) :
    Persists db next ∧ building ∈ next.buildings := by
  obtain ⟨⟨first, address⟩, resolvedAddress, resolved⟩ := bind_eq_ok.mp resolved
  obtain ⟨⟨second, place⟩, resolvedBuilding, resolved⟩ := bind_eq_ok.mp resolved
  obtain ⟨⟨third, found⟩, resolvedUnit, wrote⟩ := bind_eq_ok.mp resolved
  cases wrote
  have addressed : Persists db first ∧ address ∈ first.addresses := by
    cases resolveAddress_resolved resolvedAddress with
    | found _ only =>
        exact ⟨.refl db, (List.mem_filter.mp (only ▸ List.mem_singleton_self _)).1⟩
    | added | withheld =>
        refine ⟨?_, List.mem_append_right _ (List.mem_singleton_self _)⟩
        constructor
        case addresses => exact accrues_insert _ trivial
        all_goals exact .refl _
  have built : Persists first second ∧ building ∈ second.buildings := by
    obtain ⟨known, query, wrote⟩ := bind_eq_ok.mp resolvedBuilding
    cases known with
    | some _ =>
        cases wrote
        have only := scalarOneOrNone_eq_some.mp query
        exact ⟨.refl _, (List.mem_filter.mp (only ▸ List.mem_singleton_self _)).1⟩
    | none =>
        cases wrote
        refine ⟨?_, List.mem_append_right _ (List.mem_singleton_self _)⟩
        constructor
        case buildings => exact accrues_insert _ (List.mem_map_of_mem addressed.2)
        all_goals exact .refl _
  have divided : Persists second next := by
    cases resolveUnit_resolved resolvedUnit with
    | unlabelled | occupied | vacant => exact .refl _
    | added _ _ _ inside =>
        constructor
        case units => exact accrues_insert _ ⟨building, built.2, inside.symm⟩
        all_goals exact .refl _
  exact ⟨(addressed.1.trans built.1).trans divided,
    resolveUnit_buildings resolvedUnit ▸ built.2⟩

/-- A listing in a building that is there adds its row, its link and its evidence. -/
theorem startListing_persists {building : Building} {unitId : Option Uuid}
    (stands : building ∈ db.buildings)
    (within : ∀ id, unitId = some id →
      ∃ unit ∈ db.units, unit.unitId = id ∧ unit.buildingId = building.buildingId)
    (started : db.startListing env now row observation method building unitId =
      .ok (next, outcome)) : Persists db next := by
  obtain ⟨recorded, facts, wrote⟩ := bind_eq_ok.mp started
  cases wrote
  have inserted : Persists db (db.insertListing
      (newListing row observation (env.ids.uuid db.drawn) building.buildingId unitId)) := by
    constructor
    case listings =>
      exact accrues_insert _
        ⟨le_refl row.observedAt, by simp [newListing], ⟨building, stands, rfl⟩, within⟩
    all_goals exact .refl _
  have linked : Persists db (db.startedOn env row observation method building unitId) :=
    inserted.trans (insertLink_persists (sound_newLink _ _ _ _ _ _) _)
  have listed : (db.startedOn env row observation method building unitId).HasListing
      (env.ids.uuid db.drawn) :=
    List.mem_map.mpr ⟨_, List.mem_append_right _ (List.mem_singleton_self _), rfl⟩
  have announced : Persists (db.startedOn env row observation method building unitId)
      ((db.startedOn env row observation method building unitId).insertEvent env.ids
        fun id => causedEvent row id (env.ids.uuid db.drawn) .created none
          (some [("lifecycle_status", .lifecycle .candidate)])).1 :=
    insertEvent_persists fun _ => listed
  have noted := recordListingFacts_persists (announced.knows.listings _ listed) facts
  refine ((linked.trans announced).trans noted).trans ?_
  exact generateDuplicateCandidates_persists
    (noted.knows.listings _ (announced.knows.listings _ listed))

/-- A new identity adds its place, its listing or its link, and its evidence. -/
theorem createCanonical_persists
    (created : db.createCanonical env now row observation method = .ok (next, outcome)) :
    Persists db next := by
  obtain ⟨place, building, unitMatch, resolved, creation⟩ := createCanonical_cases created
  obtain ⟨placed, stands⟩ := resolvePlace_persists resolved
  refine placed.trans ?_
  have attached : ∀ listing identity confidence,
      Persists place (place.attachCrossSourceLink env row listing method identity confidence).1 :=
    fun _ _ _ => (insertLink_persists (sound_newLink _ _ _ _ _ _) place).trans
      (updateListing_persists (ages_seen _) _)
  generalize result : Except.ok (next, outcome) = ended at creation
  cases creation with
  | exact =>
      cases result
      exact attached _ _ _
  | strong _ =>
      cases result
      exact attached _ _ _
  | vacant =>
      refine startListing_persists stands (fun id same => ?_) result.symm
      cases same
      rcases resolvePlace_eq_ok resolved with ⟨unlabelled, -⟩ | ⟨label, unit, -, found⟩
      · cases unlabelled
      · cases found.atUnit
        exact ⟨_, found.member, rfl, found.inBuilding⟩
  | unmatched _ =>
      exact startListing_persists stands (by simp) result.symm

/-- The link of a row is touched alone, as no other has its id. -/
theorem touchFreshness_persists (tracked : Tracked ids db) {link : ListingSourceLink}
    (member : link ∈ db.links) (listing : CanonicalListing) :
    Persists db (db.touchFreshness link listing row) := by
  unfold touchFreshness
  dsimp only
  refine Persists.trans ?_ (updateListing_persists (ages_seen _) _)
  split
  · rename_i fresh
    constructor
    case links =>
      refine accrues_updateWhere fun other inside same => ?_
      obtain rfl := List.inj_on_of_nodup_map tracked.linkIds inside member
        (of_decide_eq_true same)
      exact ⟨rfl, fresh, id⟩
    all_goals exact .refl _
  · exact .refl db

/-- A field update ages its listing and adds evidence. -/
theorem applyField_persists {listing : CanonicalListing} {factKey : String}
    {eventType : ListingEventType} {stated : Option JsonScalar} {current : JsonScalar}
    {write : CanonicalListing → CanonicalListing} {emitted after : List ListingEventType}
    (listed : db.HasListing listing.canonicalListingId)
    (ages : ∀ listing : CanonicalListing, listing.Ages (write listing))
    (applied : applyField env row listing factKey eventType stated current write (db, emitted) =
      .ok (next, after)) : Persists db next := by
  obtain ⟨events, -, step⟩ := applyField_cases applied
  exact step.within ⟨.refl, .trans⟩ (fun _ _ => raiseConflict_persists listed)
    (fun _ _ => insertEvent_persists fun _ => listed) (updateListing_persists ages)

/-- An update of a known identity ages its link and its listing, and adds evidence. -/
theorem updateExisting_persists (tracked : Tracked ids db) {link : ListingSourceLink}
    (member : link ∈ db.links)
    (updated : db.updateExisting env now row observation link = .ok (next, outcome)) :
    Persists db next := by
  obtain ⟨listing, found, update⟩ := updateExisting_cases updated
  have touched : Persists db (db.touchFreshness link listing row) :=
    touchFreshness_persists tracked member listing
  cases update with
  | replayed _ => exact .refl db
  | sameContent _ _ => exact touched
  | applied new differs _ _ _ _ _ =>
      obtain ⟨recorded, rented, available, washed, _, _, _, facts, rent, availability, laundry,
        rfl⟩ := updateExisting_applied found new differs updated
      have listed : db.HasListing listing.canonicalListingId :=
        List.mem_map_of_mem (mem_of_get found)
      have noted := touched.trans
        (recordListingFacts_persists (touched.knows.listings _ listed) facts)
      have priced := noted.trans (applyField_persists (noted.knows.listings _ listed)
        (fun _ => ages_of_frame rfl) rent)
      have opened := priced.trans (applyField_persists (priced.knows.listings _ listed)
        (fun _ => ages_of_frame rfl) availability)
      have furnished := opened.trans (applyField_persists (opened.knows.listings _ listed)
        (fun _ => ages_of_frame rfl) laundry)
      split
      · exact furnished
      · exact furnished.trans (updateListing_persists (fun _ => ages_of_frame rfl) _)

/-- Normalization ages rows and adds rows. -/
theorem processObservation_persists (tracked : Tracked ids db) {observationId : Uuid}
    (processed : db.processObservation env now method observationId = .ok (next, outcome)) :
    Persists db next := by
  obtain ⟨row, -, processes⟩ := processObservation_processes processed
  cases processes with
  | aside _ same =>
      cases same
      exact .refl _
  | opened _ _ created => exact createCanonical_persists created
  | continued _ known updated =>
      exact updateExisting_persists tracked (findLink_mem known) updated

/-! ## Merges -/

/-- A merge moves the links of its source, marks it and adds its row and its event. -/
theorem mergeListings_persists {request : MergeRequest} {merge : CanonicalMerge}
    (merged : db.mergeListings ids now request = .ok (next, merge)) : Persists db next := by
  obtain ⟨apart, source, target, sourceFound, targetFound, -, -, wrote⟩ :=
    mergeListings_eq_ok merged
  cases wrote
  have sourceListed : db.HasListing request.sourceListingId :=
    List.mem_map.mpr ⟨source, mem_of_get sourceFound, key_of_get sourceFound⟩
  have targetListed : db.HasListing request.targetListingId :=
    List.mem_map.mpr ⟨target, mem_of_get targetFound, key_of_get targetFound⟩
  have links : db.links.map ListingSourceLink.listingSourceLinkId ⊆
      (updateWhere (ListingSourceLink.ownedBy request.sourceListingId)
        (fun link => { link with canonicalListingId := request.targetListingId })
          db.links).map ListingSourceLink.listingSourceLinkId := by
    rw [map_updateWhere ListingSourceLink.listingSourceLinkId (by intro _ _ _; rfl)]
    exact List.Subset.refl _
  have moved : Persists db { db with
      drawn := db.drawn + 2
      links := updateWhere (ListingSourceLink.ownedBy request.sourceListingId)
        (fun link => { link with canonicalListingId := request.targetListingId }) db.links
      merges := db.merges ++ [request.merge (ids.uuid db.drawn)
        ((db.links.filter (ListingSourceLink.ownedBy request.sourceListingId)).map
          ListingSourceLink.listingSourceLinkId) now]
      auditLog := db.auditLog ++ [request.audit (ids.uuid (db.drawn + 1))] } := by
    constructor
    case links => exact accrues_updateWhere fun _ _ _ => ⟨rfl, le_refl _, id⟩
    case merges =>
      exact accrues_insert _ ⟨apart, sourceListed, targetListed,
        fun id member => links ((List.filter_sublist.map _).subset member)⟩
    case auditLog => exact accrues_insert _ sourceListed
    all_goals exact .refl _
  have merged := moved.trans (@updateListing_persists request.sourceListingId _
    (@ages_lifecycle .merged (by decide)) _)
  have seen := merged.trans (@updateListing_persists request.targetListingId _
    (ages_seen source.lastSeenAt) _)
  exact seen.trans (insertEvent_persists fun _ => seen.knows.listings _ sourceListed)

theorem Tracked.mergeIds (tracked : Tracked ids db) :
    (db.merges.map CanonicalMerge.canonicalMergeId).Nodup := by
  have keys := tracked.valid.keys
  rwa [ledger, List.map_map] at keys

/-- A merge that is reversed is the only one with its id, and was not reversed before. -/
theorem reverseMerge_persists (tracked : Tracked ids db) {mergeId : Uuid} {actor reason : String}
    {actorType : ActorType}
    (reversed : db.reverseMerge ids now mergeId actor actorType reason = .ok next) :
    Persists db next := by
  simp only [reverseMerge, requireHuman, bind_eq_ok, refuse_eq_ok, require_eq_ok] at reversed
  obtain ⟨_, -, merge, found, _, unreversed, source, listed, wrote⟩ := reversed
  cases wrote
  have opened : merge.reversedAt = none := by simpa using unreversed
  refine Persists.trans ?_ (updateListing_persists (@ages_lifecycle .reviewRequired (by decide)) _)
  constructor
  case links => exact accrues_updateWhere fun _ _ _ => ⟨rfl, le_refl _, id⟩
  case merges =>
    refine accrues_updateWhere fun other inside same => ?_
    obtain rfl := List.inj_on_of_nodup_map tracked.mergeIds inside (mem_of_get found)
      (of_decide_eq_true same)
    exact .inr ⟨opened, now, rfl⟩
  case auditLog =>
    exact accrues_insert _ (List.mem_map.mpr ⟨source, mem_of_get listed, key_of_get listed⟩)
  all_goals exact .refl _

/-- A pending candidate is closed once, with its issue. -/
theorem closeCandidate_persists (docketed : Docketed ids db) {candidate : DuplicateCandidate}
    (member : candidate ∈ db.duplicateCandidates) (pending : candidate.status = .pending)
    {status : DuplicateCandidateStatus} (decided : status ≠ .pending) (actor : String) :
    Persists db (db.closeCandidate now candidate.duplicateCandidateId status actor) := by
  constructor
  case candidates =>
    refine accrues_updateWhere fun other inside same => ?_
    obtain rfl := docketed.candidateIds.eq_of_mem inside member (of_decide_eq_true same)
    exact .inr ⟨pending, status, actor, now, decided, rfl⟩
  case issues =>
    refine accrues_updateWhere fun issue _ surfaces => ?_
    exact .inr ⟨(surfacesCandidate_iff.mp surfaces).2.1, now, actor, rfl⟩
  all_goals exact .refl _

/-- A decision about a candidate closes it, after the merge that it may make. -/
theorem resolveDuplicateCandidate_persists (docketed : Docketed ids db) {candidateId : Uuid}
    {confirmed : Bool} {actor : String} {actorType : ActorType} {survivor : Option Uuid}
    (resolved : db.resolveDuplicateCandidate ids now candidateId confirmed actor actorType
      survivor = .ok next) : Persists db next := by
  obtain ⟨-, candidate, found, pending, distinct | duplicate⟩ :=
    resolveDuplicateCandidate_cases resolved
  · obtain ⟨-, rfl⟩ := distinct
    rw [← key_of_get found]
    exact closeCandidate_persists docketed (mem_of_get found) pending (by decide) actor
  · obtain ⟨-, -, middle, merge, merged, rfl⟩ := duplicate
    obtain ⟨kept, candidates, -⟩ := mergeListings_docketed docketed merged
    rw [← key_of_get found]
    exact (mergeListings_persists merged).trans
      (closeCandidate_persists kept (candidates ▸ mem_of_get found) pending (by decide) actor)

/-! ## Admission and disappearance -/

/-- Settling a listing that stays on the market keeps what is permanent. -/
theorem settle_persists {listing : CanonicalListing} {status : LifecycleStatus}
    {eventType : ListingEventType} {reason : JsonScalar} (active : status ≠ .inactive)
    (listed : db.HasListing listing.canonicalListingId) :
    Persists db (db.settle ids now listing status eventType reason) := by
  have settled : Persists db (db.updateListing listing.canonicalListingId
      fun listing => { listing with lifecycleStatus := status }) :=
    updateListing_persists (ages_lifecycle active) db
  exact settled.trans (insertEvent_persists fun _ => settled.knows.listings _ listed)

/-- Admission ages listings and adds events. -/
theorem evaluateCandidates_persists (scan : Uuid → Nat) (limit : Nat) (db : Database) :
    Persists db (db.evaluateCandidates ids now scan limit).1 := by
  unfold evaluateCandidates
  refine persists_foldl Prod.fst ((db, []) : Database × List AdmissionOutcome)
    fun row member reached knows => ?_
  have candidate := (List.mem_insertionSort _).mp (List.mem_of_mem_take member)
  obtain ⟨node, inside, same⟩ := List.mem_map.mp (candidateRows_standing candidate)
  have listed := knows.listings row.1.canonicalListingId
    (List.mem_map.mpr ⟨node, inside, congrArg Prod.fst same⟩)
  dsimp only
  unfold evaluateOne
  split
  · exact settle_persists (by decide) listed
  · repeat' split
    all_goals first | exact .refl _ | exact settle_persists (by decide) listed

/-- Inactivations age listings and add events, or one open issue is added. -/
theorem inactivateUnsupported_persists (state : Database × DisappearanceSummary) :
    Persists state.1 (inactivateUnsupported ids now state).1 := by
  have listed : ∀ listing ∈ state.1.eligibleForInactivation,
      state.1.HasListing listing.canonicalListingId :=
    fun listing member => List.mem_map_of_mem (List.mem_filter.mp member).1
  unfold inactivateUnsupported
  dsimp only
  split
  · exact .refl _
  · rename_i first rest eligible
    split
    · constructor
      case issues =>
        refine accrues_insert _ (sound_opened ?_ ?_ rfl rfl rfl)
        · exact listed first (eligible ▸ List.mem_cons_self)
        · intro id member
          obtain ⟨listing, inside, rfl⟩ := List.mem_map.mp (List.mem_of_mem_take member)
          exact listed listing inside
      all_goals exact .refl _
    · refine persists_foldl id state.1 fun listing member reached knows => ?_
      have gone := @updateListing_persists listing.canonicalListingId _ (ages_inactivated now)
        reached
      refine gone.trans (insertEvent_persists fun _ => ?_)
      exact gone.knows.listings _ (knows.listings _ (listed listing (eligible ▸ member)))

/-- A round writes its link, which stands and has an owner. -/
theorem processLink_persists {run : SourceRun} {observed : ListingSourceLink → Bool}
    {link : ListingSourceLink} (summary : DisappearanceSummary)
    (stands : ∀ row ∈ db.links, row.listingSourceLinkId = link.listingSourceLinkId →
      row.linkStatus ≠ .removed) (owned : db.HasListing link.canonicalListingId) :
    Persists db (processLink ids now run observed (db, summary) link).1 ∧
      ∃ status, (processLink ids now run observed (db, summary) link).1.links = db.links ∨
        (processLink ids now run observed (db, summary) link).1.links =
          (db.setLinkStatus link status).links := by
  have written : ∀ status, Persists db (db.setLinkStatus link status) := by
    intro status
    constructor
    case links =>
      refine accrues_updateWhere fun row inside same => ⟨rfl, le_refl _, fun removed => ?_⟩
      exact (stands row inside (of_decide_eq_true same) removed).elim
    all_goals exact .refl _
  unfold processLink
  dsimp only
  split
  · split
    · exact ⟨written _, _, .inr rfl⟩
    · exact ⟨.refl db, .active, .inl rfl⟩
  · split
    · exact ⟨written _, _, .inr rfl⟩
    · split
      · exact ⟨(written _).trans (insertEvent_persists fun _ => owned), _,
          .inr (insertEvent_links _ _)⟩
      · exact ⟨.refl db, .active, .inl rfl⟩

/-- The loop writes standing links, each at most once. -/
theorem processLinks_persists {run : SourceRun} {observed : ListingSourceLink → Bool}
    {links : List ListingSourceLink}
    (distinct : (links.map ListingSourceLink.listingSourceLinkId).Nodup)
    (stands : ∀ link ∈ links, ∀ row ∈ db.links,
      row.listingSourceLinkId = link.listingSourceLinkId → row.linkStatus ≠ .removed)
    (owned : ∀ link ∈ links, db.HasListing link.canonicalListingId)
    (summary : DisappearanceSummary) :
    Persists db (links.foldl (processLink ids now run observed) (db, summary)).1 := by
  induction links generalizing db summary with
  | nil => exact .refl db
  | cons link rest ih =>
      obtain ⟨apart, distinct⟩ := List.nodup_cons.mp distinct
      obtain ⟨first, status, wrote⟩ : Persists db
          (processLink ids now run observed (db, summary) link).1 ∧ _ :=
        processLink_persists summary (stands link List.mem_cons_self)
          (owned link List.mem_cons_self)
      rw [List.foldl_cons]
      generalize processLink ids now run observed (db, summary) link = state at first wrote ⊢
      obtain ⟨middle, counted⟩ := state
      refine first.trans (ih distinct (fun other member row inside same => ?_)
        (fun other member => first.knows.listings _ (owned other (List.mem_cons_of_mem _ member)))
        counted)
      have others := stands other (List.mem_cons_of_mem _ member)
      rcases wrote with kept | wrote
      · exact others row (kept ▸ inside) same
      · rw [wrote] at inside
        obtain ⟨old, oldMem, rfl⟩ := mem_updateWhere.mp inside
        by_cases selected : old.listingSourceLinkId = link.listingSourceLinkId
        · simp only [selected, decide_true, ↓reduceIte] at same
          exact (apart (List.mem_map.mpr ⟨other, member, same.symm⟩)).elim
        · simp only [selected, decide_false, Bool.false_eq_true, ↓reduceIte] at same ⊢
          exact others old oldMem same

/-- A source run ages links and listings, and adds events. -/
theorem processSourceRun_persists (tracked : Tracked ids db) {sourceRunId : Uuid}
    {summary : DisappearanceSummary}
    (processed : db.processSourceRun ids now sourceRunId = .ok (next, summary)) :
    Persists db next := by
  obtain ⟨run, -, ⟨-, rfl⟩ | ⟨-, rfl⟩⟩ := processSourceRun_eq_ok processed
  · exact .refl _
  · refine Persists.trans ?_ (inactivateUnsupported_persists _)
    refine processLinks_persists (tracked.linkIds.sublist (List.filter_sublist.map _))
      (fun link member row inside same => ?_) (fun link member => ?_) {}
    · obtain ⟨linkMem, judged⟩ := List.mem_filter.mp member
      obtain rfl := List.inj_on_of_nodup_map tracked.linkIds inside linkMem same
      simp only [Bool.and_eq_true, Bool.or_eq_true, decide_eq_true_eq] at judged
      rcases judged.2 with active | missing
      · simp [active]
      · simp [missing]
    · exact List.mem_map.mpr (tracked.owner (List.mem_filter.mp member).1)

/-! ## Every step -/

theorem writeOutside_persists (write : OutsideWrite) (db : Database) :
    Persists db (db.writeOutside write) := by
  constructor
  case addresses => exact accrues_map fun _ _ => rfl
  all_goals exact .refl _

/-- **Step lemma.** No call of a service takes anything back. -/
theorem step_persists (tracked : Tracked ids db) (docketed : Docketed ids db)
    (action : ServiceAction) : Persists db (db.step ids unicode action) := by
  unfold step
  cases performed : db.perform ids unicode action with
  | error failure => exact .refl db
  | ok next =>
      dsimp only
      cases perform_performs performed with
      | processObservation processed => exact processObservation_persists tracked processed
      | mergeListings merged => exact mergeListings_persists merged
      | reverseMerge reversed => exact reverseMerge_persists tracked reversed
      | resolveDuplicateCandidate resolved =>
          exact resolveDuplicateCandidate_persists docketed resolved
      | evaluateCandidates scan now limit => exact evaluateCandidates_persists scan limit db
      | processSourceRun processed => exact processSourceRun_persists tracked processed
      | outside write => exact writeOutside_persists write db

end Database

end RentalAgent
