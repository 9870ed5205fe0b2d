import RentalAgent.Canonical.Durability

/-! # The order of observations

Observations of one source identity reach its listing in the order in which they
are processed. Freshness is guarded by the time of observation, the values are
not: of the observations that pass the content check, the one processed last
writes each field it states (`Database.step_advances`). The listing ends with the
values of the newest observation just when that one's value was also written last.
-/

namespace RentalAgent

open Relational Transition

/-- The row is not put aside as unresolved. -/
def SourceObservation.processable (row : SourceObservation) : Bool :=
  row.parseStatus = .valid || row.parseStatus = .partialParse

theorem SourceObservation.processable_iff {row : SourceObservation} :
    row.processable = true ↔ row.parseStatus = .valid ∨ row.parseStatus = .partialParse := by
  rw [processable, Bool.or_eq_true, decide_eq_true_eq, decide_eq_true_eq]

theorem SourceObservation.not_processable_iff {row : SourceObservation} :
    ¬row.processable = true ↔ row.parseStatus ≠ .valid ∧ row.parseStatus ≠ .partialParse := by
  rw [processable_iff, not_or]

/-! ## Writing fields -/

/-- The fields of a listing that known observations write. -/
structure StatedFields where
  monthlyRentMinor : Option Nat
  availabilityStatus : AvailabilityStatus
  laundryType : LaundryType
  deriving DecidableEq

def CanonicalListing.fields (listing : CanonicalListing) : StatedFields where
  monthlyRentMinor := listing.monthlyRentMinor
  availabilityStatus := listing.availabilityStatus
  laundryType := listing.laundryType

/-- The fields after an observation whose statements are applied. -/
def StatedFields.apply (fields : StatedFields) (row : SourceObservation) : StatedFields where
  monthlyRentMinor := row.parsedPayload.statedRent.or fields.monthlyRentMinor
  availabilityStatus := row.parsedPayload.statedAvailability.getD fields.availabilityStatus
  laundryType := row.parsedPayload.statedLaundry.getD fields.laundryType

/-- How far the observations of an identity have come: the freshness of its link, the
content of its latest observation, and the fields of its listing. -/
structure Progress where
  lastSeenAt : Timestamp
  contentHash : Option String
  fields : StatedFields
  deriving DecidableEq

/-- The progress after one more observation. -/
def Progress.advance (progress : Progress) (row : SourceObservation) : Progress where
  lastSeenAt := if progress.lastSeenAt ≤ row.observedAt then row.observedAt else progress.lastSeenAt
  contentHash :=
    if progress.lastSeenAt ≤ row.observedAt then some row.contentHash else progress.contentHash
  fields :=
    if progress.contentHash = some row.contentHash then progress.fields
    else progress.fields.apply row

/-- The observations that pass the content check, in the order given: those whose
content is not that of the newest one before them. -/
def passing (lastSeenAt : Timestamp) (contentHash : Option String) :
    List SourceObservation → List SourceObservation
  | [] => []
  | row :: rest =>
      let later :=
        if lastSeenAt ≤ row.observedAt then passing row.observedAt (some row.contentHash) rest
        else passing lastSeenAt contentHash rest
      if contentHash = some row.contentHash then later else row :: later

/-- The value that the last of the rows that state one states. -/
def lastStated {Value : Type} (stated : SourceObservation → Option Value)
    (rows : List SourceObservation) : Option Value :=
  (rows.filterMap stated).getLast?

/-- What was stated later counts before the first row. -/
theorem lastStated_cons {Value : Type} (stated : SourceObservation → Option Value)
    (row : SourceObservation) (rest : List SourceObservation) :
    lastStated stated (row :: rest) = (lastStated stated rest).or (stated row) := by
  unfold lastStated
  cases first : stated row with
  | none => simp [first]
  | some value => simp [first, List.getLast?_cons, Option.or_some]

/-- The fields end with what the passing observations state last. -/
theorem foldl_advance_fields (rows : List SourceObservation) (progress : Progress) :
    (rows.foldl Progress.advance progress).fields =
      let passed := passing progress.lastSeenAt progress.contentHash rows
      { monthlyRentMinor := (lastStated (fun row => row.parsedPayload.statedRent) passed).or
          progress.fields.monthlyRentMinor
        availabilityStatus := (lastStated (fun row => row.parsedPayload.statedAvailability)
          passed).getD progress.fields.availabilityStatus
        laundryType := (lastStated (fun row => row.parsedPayload.statedLaundry) passed).getD
          progress.fields.laundryType } := by
  induction rows generalizing progress with
  | nil => rfl
  | cons row rest ih =>
      rw [List.foldl_cons, ih]
      by_cases same : progress.contentHash = some row.contentHash <;>
        by_cases fresh : progress.lastSeenAt ≤ row.observedAt <;>
          simp [passing, Progress.advance, same, fresh, lastStated_cons, StatedFields.apply,
            Option.or_assoc, Option.getD_or]

namespace Database

variable {ids : IdSupply} {unicode : UnicodeTables} {env : Environment} {now : Timestamp}
  {db next : Database} {row : SourceObservation} {observation : ParsedSourceObservation}
  {listing : CanonicalListing} {listingId : Uuid}

/-! ## Updates that no override governs -/

/-- No active override is about the listing. -/
def Ungoverned (db : Database) (listingId : Uuid) : Prop :=
  ∀ override ∈ db.overrides, override.entityType = .listing → override.entityId = listingId →
    override.overrideStatus ≠ .active

theorem Ungoverned.activeOverride (ungoverned : db.Ungoverned listingId) (factKey : String) :
    db.activeOverride .listing listingId factKey = .ok none := by
  refine scalarOneOrNone_eq_none.mpr (List.filter_eq_nil_iff.mpr fun override member governs => ?_)
  simp only [HumanOverride.governs, Bool.and_eq_true, decide_eq_true_eq] at governs
  exact ungoverned override member governs.1.1.1 governs.1.1.2 governs.2

theorem ungoverned_congr (ungoverned : db.Ungoverned listingId)
    (same : next.overrides = db.overrides) : next.Ungoverned listingId := by
  rw [Ungoverned, same]
  exact ungoverned

theorem Ungoverned.inventoryOnly (ungoverned : db.Ungoverned listingId)
    (inventory : InventoryOnly db next) : next.Ungoverned listingId :=
  ungoverned_congr ungoverned (by rw [inventory.frame])

/-- Looking up an override of the listing does not raise. -/
def Answered (db : Database) (listingId : Uuid) : Prop :=
  ∀ factKey, ∃ found, db.activeOverride .listing listingId factKey = .ok found

theorem Ungoverned.answered (ungoverned : db.Ungoverned listingId) : db.Answered listingId :=
  fun factKey => ⟨none, ungoverned.activeOverride factKey⟩

theorem answered_congr (answered : db.Answered listingId) (same : next.overrides = db.overrides) :
    next.Answered listingId := by
  intro factKey
  obtain ⟨found, query⟩ := answered factKey
  exact ⟨found, by rw [activeOverride, same]; exact query⟩

theorem Answered.inventoryOnly (answered : db.Answered listingId)
    (inventory : InventoryOnly db next) : next.Answered listingId :=
  answered_congr answered (by rw [inventory.frame])

/-- Recording a fact of a listing whose overrides are answered does not raise. -/
theorem recordFact_ok (ids : IdSupply) (now : Timestamp) {record : FactRecord}
    (answered : db.Answered listingId) (type : record.entityType = .listing)
    (id : record.entityId = listingId) : ∃ next, db.recordFact ids now record = .ok next := by
  obtain ⟨found, query⟩ := answered record.factKey
  rw [← type, ← id] at query
  rw [recordFact, query]
  cases found <;> exact ⟨_, rfl⟩

theorem listingFacts_about {record : FactRecord}
    (member : record ∈ listingFacts listingId observation row) :
    record.entityType = .listing ∧ record.entityId = listingId := by
  simp only [listingFacts, List.mem_append, Option.mem_toList, Option.map_eq_some_iff] at member
  rcases member with ((⟨_, _, rfl⟩ | ⟨_, _, rfl⟩) | ⟨_, _, rfl⟩) | ⟨_, _, rfl⟩ <;> exact ⟨rfl, rfl⟩

/-- Recording the facts of a listing whose overrides are answered does not raise. -/
theorem recordListingFacts_ok (env : Environment) (now : Timestamp)
    (observation : ParsedSourceObservation) (row : SourceObservation)
    (answered : db.Answered listingId) :
    ∃ next, db.recordListingFacts env now listingId observation row = .ok next := by
  have rounds : ∀ (records : List FactRecord) (db : Database), db.Answered listingId →
      (∀ record ∈ records, record.entityType = .listing ∧ record.entityId = listingId) →
      ∃ next, records.foldlM (fun db record => db.recordFact env.ids now record) db =
        .ok (next : Database) := by
    intro records
    induction records with
    | nil => exact fun db _ _ => ⟨db, rfl⟩
    | cons record rest ih =>
        intro db answered about
        obtain ⟨type, id⟩ := about record List.mem_cons_self
        obtain ⟨middle, recorded⟩ := recordFact_ok env.ids now answered type id
        rw [List.foldlM_cons, recorded]
        exact ih middle
          (answered.inventoryOnly (recordFact_factsOnly recorded).evidenceOnly.inventoryOnly)
          fun other member => about other (List.mem_cons_of_mem _ member)
  exact rounds _ db answered fun record => listingFacts_about

/-- Updating a field of a listing whose overrides are answered does not raise. -/
theorem applyField_ok (env : Environment) (row : SourceObservation) (factKey : String)
    (eventType : ListingEventType) (stated : Option JsonScalar) (current : JsonScalar)
    (write : CanonicalListing → CanonicalListing) (emitted : List ListingEventType)
    (answered : db.Answered listing.canonicalListingId) :
    ∃ next after, applyField env row listing factKey eventType stated current write (db, emitted) =
      .ok (next, after) := by
  unfold applyField
  dsimp only
  split
  · exact ⟨_, _, rfl⟩
  · split
    · exact ⟨_, _, rfl⟩
    · obtain ⟨found, query⟩ := answered factKey
      rw [query]
      cases found with
      | none => exact ⟨_, _, rfl⟩
      | some override =>
          simp only [ok_bind]
          split <;> exact ⟨_, _, rfl⟩

/-- An update of a listing whose overrides are answered does not raise. -/
theorem updateExisting_ok (env : Environment) (now : Timestamp) (row : SourceObservation)
    (observation : ParsedSourceObservation) {link : ListingSourceLink}
    (found : db.listing? link.canonicalListingId = some listing)
    (answered : db.Answered link.canonicalListingId) :
    ∃ next outcome, db.updateExisting env now row observation link = .ok (next, outcome) := by
  unfold updateExisting
  simp only [found]
  split
  · exact ⟨_, _, rfl⟩
  · split
    · exact ⟨_, _, rfl⟩
    · rw [← key_of_get found] at answered
      have touched := answered.inventoryOnly (touchFreshness_inventoryOnly link listing row db)
      obtain ⟨recorded, facts⟩ := recordListingFacts_ok env now observation row touched
      have afterFacts := touched.inventoryOnly
        (recordListingFacts_factsOnly facts).evidenceOnly.inventoryOnly
      obtain ⟨rented, first, rent⟩ : ∃ rented first,
          applyRent env row observation listing (recorded, []) = .ok (rented, first) :=
        applyField_ok env row _ _ _ _ _ _ afterFacts
      have afterRent := afterFacts.inventoryOnly (applyField_inventoryOnly rent)
      obtain ⟨available, second, availability⟩ : ∃ available second,
          applyAvailability env row observation listing (rented, first) = .ok (available, second) :=
        applyField_ok env row _ _ _ _ _ _ afterRent
      have afterAvailability := afterRent.inventoryOnly (applyField_inventoryOnly availability)
      obtain ⟨washed, third, laundry⟩ : ∃ washed third,
          applyLaundry env row observation listing (available, second) = .ok (washed, third) :=
        applyField_ok env row _ _ _ _ _ _ afterAvailability
      simp only [facts, rent, availability, laundry, ok_bind]
      split <;> exact ⟨_, _, rfl⟩

/-! ## What an update does to the fields -/

theorem listing?_updateListing {change : CanonicalListing → CanonicalListing}
    (keeps : ∀ listing, (change listing).canonicalListingId = listing.canonicalListingId)
    (listingId : Uuid) :
    (db.updateListing listingId change).listing? listingId = (db.listing? listingId).map change :=
  get_updateWhere keeps

theorem listing?_congr (same : next.listings = db.listings) (listingId : Uuid) :
    next.listing? listingId = db.listing? listingId := by
  rw [listing?, listing?, same]

/-- The touched listing keeps its fields. -/
theorem touchFreshness_listing? (link : ListingSourceLink) (row : SourceObservation)
    (found : db.listing? listing.canonicalListingId = some listing) :
    ∃ later, (db.touchFreshness link listing row).listing? listing.canonicalListingId = some later ∧
      later.fields = listing.fields := by
  refine ⟨{ listing with lastSeenAt := max listing.lastSeenAt row.observedAt }, ?_, rfl⟩
  refine (listing?_congr (touchFreshness_listings link listing row db) _).trans
    ((listing?_updateListing (by intro _; rfl) _).trans ?_)
  rw [found]
  rfl

/-- A field update writes a stated value unless it is the current one. -/
theorem applyField_listing? {factKey : String} {eventType : ListingEventType}
    {stated : Option JsonScalar} {current : JsonScalar}
    {write : CanonicalListing → CanonicalListing} {emitted after : List ListingEventType}
    {before : CanonicalListing}
    (applied : applyField env row listing factKey eventType stated current write (db, emitted) =
      .ok (next, after)) (ungoverned : db.Ungoverned listing.canonicalListingId)
    (found : db.listing? listing.canonicalListingId = some before)
    (keeps : ∀ listing, (write listing).canonicalListingId = listing.canonicalListingId) :
    ∃ later, next.listing? listing.canonicalListingId = some later ∧
      ((∃ incoming, stated = some incoming ∧ later = write before) ∨
        (∀ incoming, stated = some incoming → incoming = current) ∧ later = before) := by
  rcases applyField_eq_ok applied with
    ⟨evidence, _, governed⟩ | ⟨incoming, middle, events, states, _, _, evidence, _, rfl⟩
  · refine ⟨before, (listing?_congr evidence.listings _).trans found, .inr ⟨?_, rfl⟩⟩
    intro incoming states
    by_contra differs
    exact governed incoming states differs (ungoverned.activeOverride factKey)
  · refine ⟨write before, ?_, .inl ⟨incoming, states, rfl⟩⟩
    rw [listing?_updateListing keeps, listing?_congr evidence.listings, found]
    rfl

/-- The rent part writes the stated rent into the listing and leaves the other fields. -/
theorem applyRent_fields {emitted after : List ListingEventType} {before : CanonicalListing}
    (applied : applyRent env row observation listing (db, emitted) = .ok (next, after))
    (ungoverned : db.Ungoverned listing.canonicalListingId)
    (found : db.listing? listing.canonicalListingId = some before)
    (current : before.monthlyRentMinor = listing.monthlyRentMinor) :
    ∃ later, next.listing? listing.canonicalListingId = some later ∧ later.fields =
      { before.fields with
        monthlyRentMinor := observation.statedRent.or before.fields.monthlyRentMinor } := by
  obtain ⟨later, stored, effect⟩ := applyField_listing? applied ungoverned found fun _ => rfl
  refine ⟨later, stored, ?_⟩
  rcases effect with ⟨incoming, states, rfl⟩ | ⟨same, rfl⟩
  · obtain ⟨rent, stated, _⟩ := Option.map_eq_some_iff.mp states
    simp [CanonicalListing.fields, stated]
  · cases stated : observation.statedRent with
    | none => rfl
    | some rent =>
        have equal := same (.number rent) (by rw [stated]; rfl)
        cases held : listing.monthlyRentMinor with
        | none => simp [held] at equal
        | some value =>
            simp only [held, Option.elim_some, JsonScalar.number.injEq] at equal
            simp [CanonicalListing.fields, current, held, equal]

/-- The availability part writes the stated status into the listing and leaves the other fields. -/
theorem applyAvailability_fields {emitted after : List ListingEventType}
    {before : CanonicalListing}
    (applied : applyAvailability env row observation listing (db, emitted) = .ok (next, after))
    (ungoverned : db.Ungoverned listing.canonicalListingId)
    (found : db.listing? listing.canonicalListingId = some before)
    (current : before.availabilityStatus = listing.availabilityStatus) :
    ∃ later, next.listing? listing.canonicalListingId = some later ∧ later.fields =
      { before.fields with
        availabilityStatus :=
          observation.statedAvailability.getD before.fields.availabilityStatus } := by
  obtain ⟨later, stored, effect⟩ := applyField_listing? applied ungoverned found fun _ => rfl
  refine ⟨later, stored, ?_⟩
  rcases effect with ⟨incoming, states, rfl⟩ | ⟨same, rfl⟩
  · obtain ⟨status, stated, _⟩ := Option.map_eq_some_iff.mp states
    have proposed := Option.ite_none_left_eq_some.mp stated
    simp [CanonicalListing.fields, stated, Option.some.inj proposed.2]
  · cases stated : observation.statedAvailability with
    | none => rfl
    | some status =>
        have equal := same (.availability status) (by rw [stated]; rfl)
        simp only [JsonScalar.availability.injEq] at equal
        simp [CanonicalListing.fields, current, equal]

/-- The laundry part writes the stated laundry into the listing and leaves the other fields. -/
theorem applyLaundry_fields {emitted after : List ListingEventType} {before : CanonicalListing}
    (applied : applyLaundry env row observation listing (db, emitted) = .ok (next, after))
    (ungoverned : db.Ungoverned listing.canonicalListingId)
    (found : db.listing? listing.canonicalListingId = some before)
    (current : before.laundryType = listing.laundryType) :
    ∃ later, next.listing? listing.canonicalListingId = some later ∧ later.fields =
      { before.fields with
        laundryType := observation.statedLaundry.getD before.fields.laundryType } := by
  obtain ⟨later, stored, effect⟩ := applyField_listing? applied ungoverned found fun _ => rfl
  refine ⟨later, stored, ?_⟩
  rcases effect with ⟨incoming, states, rfl⟩ | ⟨same, rfl⟩
  · obtain ⟨laundry, stated, _⟩ := Option.map_eq_some_iff.mp states
    have proposed := Option.ite_none_left_eq_some.mp stated
    simp [CanonicalListing.fields, stated, Option.some.inj proposed.2]
  · cases stated : observation.statedLaundry with
    | none => rfl
    | some laundry =>
        have equal := same (.laundry laundry) (by rw [stated]; rfl)
        simp only [JsonScalar.laundry.injEq] at equal
        simp [CanonicalListing.fields, current, equal]

/-- An update applies the statements of a row that passes the content check. -/
theorem Update.fields {link : ListingSourceLink}
    (update : Update env row row.parsedPayload link listing db next)
    (new : link.latestObservationId ≠ row.sourceObservationId)
    (ungoverned : db.Ungoverned listing.canonicalListingId)
    (found : db.listing? listing.canonicalListingId = some listing) :
    ∃ later, next.listing? listing.canonicalListingId = some later ∧ later.fields =
      if db.sameContent link row then listing.fields else listing.fields.apply row := by
  obtain ⟨touched, touchedFound, touchedFields⟩ := touchFreshness_listing? link row found
  cases update with
  | replayed same => exact (new same).elim
  | sameContent _ same => exact ⟨touched, touchedFound, by rw [if_pos same, touchedFields]⟩
  | applied _ differs facts rent availability laundry wrote =>
      have afterFacts := (ungoverned.inventoryOnly
        (touchFreshness_inventoryOnly link listing row db)).inventoryOnly
          facts.evidenceOnly.inventoryOnly
      have afterRent := afterFacts.inventoryOnly (applyField_inventoryOnly rent)
      have afterAvailability := afterRent.inventoryOnly (applyField_inventoryOnly availability)
      have recordedFound := (listing?_congr facts.evidenceOnly.listings _).trans touchedFound
      obtain ⟨rented, rentedFound, rentedFields⟩ := applyRent_fields rent afterFacts recordedFound
        (congrArg StatedFields.monthlyRentMinor touchedFields)
      rw [touchedFields] at rentedFields
      obtain ⟨available, availableFound, availableFields⟩ := applyAvailability_fields availability
        afterRent rentedFound (congrArg StatedFields.availabilityStatus rentedFields)
      rw [rentedFields] at availableFields
      obtain ⟨washed, washedFound, washedFields⟩ := applyLaundry_fields laundry afterAvailability
        availableFound (congrArg StatedFields.laundryType availableFields)
      rw [availableFields] at washedFields
      rw [if_neg (by simp [differs])]
      rcases wrote with rfl | rfl
      · exact ⟨washed, washedFound, washedFields⟩
      · rw [listing?_updateListing (by intro _; rfl), washedFound]
        exact ⟨_, rfl, washedFields⟩

/-! ## Runs over one identity -/

theorem InventoryOnly.observation? (inventory : InventoryOnly db next) (id : Uuid) :
    next.observation? id = db.observation? id := by
  rw [Database.observation?, inventory.frame]
  rfl

theorem sameContent_iff {link : ListingSourceLink} : db.sameContent link row = true ↔
    (db.observation? link.latestObservationId).map SourceObservation.contentHash =
      some row.contentHash := by
  cases found : db.observation? link.latestObservationId <;> simp [sameContent, found]

/-- The link of an observation is touched unless it was seen later. -/
theorem touchLink_self (link : ListingSourceLink) (row : SourceObservation) :
    touchLink link row link =
      if link.lastSeenAt ≤ row.observedAt then
        { link with
          lastSeenAt := row.observedAt
          latestObservationId := row.sourceObservationId }
      else link := by
  simp [touchLink]

/-- The rows are still to be processed: each is stored, belongs to the identity of
one link, and is not the latest observation of that link; link and listing are at
the given progress. -/
structure Awaits (db : Database) (listingId : Uuid) (progress : Progress)
    (rows : List SourceObservation) : Prop where
  stored : ∀ row ∈ rows, db.observation? row.sourceObservationId = some row
  link : ∃ link, link.canonicalListingId = listingId ∧ link.lastSeenAt = progress.lastSeenAt ∧
    (db.observation? link.latestObservationId).map SourceObservation.contentHash =
      progress.contentHash ∧
    ∀ row ∈ rows, db.findLink row = .ok (some link) ∧
      link.latestObservationId ≠ row.sourceObservationId
  listing : ∃ listing, db.listing? listingId = some listing ∧ listing.fields = progress.fields
  ungoverned : db.Ungoverned listingId
  distinct : (rows.map SourceObservation.sourceObservationId).Nodup

theorem Awaits.tail {progress : Progress} {rest : List SourceObservation}
    (awaits : db.Awaits listingId progress (row :: rest)) : db.Awaits listingId progress rest := by
  obtain ⟨link, owner, seen, content, linked⟩ := awaits.link
  exact ⟨fun other member => awaits.stored other (List.mem_cons_of_mem _ member),
    ⟨link, owner, seen, content, fun other member => linked other (List.mem_cons_of_mem _ member)⟩,
    awaits.listing, awaits.ungoverned, awaits.distinct.of_cons⟩

/-- An update of the awaited row advances the progress. -/
theorem Update.advances {link : ListingSourceLink} {progress : Progress}
    {rest : List SourceObservation}
    (update : Update env row row.parsedPayload link listing db next)
    (awaits : db.Awaits link.canonicalListingId progress (row :: rest))
    (known : db.findLink row = .ok (some link))
    (found : db.listing? link.canonicalListingId = some listing) :
    next.Awaits link.canonicalListingId (progress.advance row) rest := by
  obtain ⟨same, owner, seen, content, linked⟩ := awaits.link
  obtain ⟨foundSame, new⟩ := linked row List.mem_cons_self
  cases known.symm.trans foundSame
  obtain ⟨held, heldFound, fields⟩ := awaits.listing
  cases found.symm.trans heldFound
  have inventory := update.inventoryOnly
  have links := update.links
  rw [if_neg new] at links
  obtain ⟨different, distinct⟩ := List.nodup_cons.mp awaits.distinct
  refine ⟨?stored, ⟨touchLink link row link, touchLink_owner link row link, ?seen, ?content,
    ?linked⟩, ?listing, awaits.ungoverned.inventoryOnly inventory, distinct⟩
  case stored =>
    intro other member
    rw [inventory.observation?]
    exact awaits.stored other (List.mem_cons_of_mem _ member)
  case seen =>
    rw [touchLink_self, Progress.advance, ← seen]
    split <;> rfl
  case content =>
    rw [inventory.observation?, touchLink_self, Progress.advance, ← seen]
    split
    · rw [awaits.stored row List.mem_cons_self]
      rfl
    · exact content
  case linked =>
    intro other member
    obtain ⟨knownOther, newOther⟩ := linked other (List.mem_cons_of_mem _ member)
    rw [findLink_map (touchLink_keeps link row) links, knownOther]
    refine ⟨rfl, ?_⟩
    rw [touchLink_self]
    split
    · exact fun equal => different (List.mem_map.mpr ⟨other, member, equal.symm⟩)
    · exact newOther
  case listing =>
    have listed : listing.canonicalListingId = link.canonicalListingId := key_of_get found
    obtain ⟨later, laterFound, laterFields⟩ :=
      update.fields new (listed ▸ awaits.ungoverned) (listed ▸ found)
    refine ⟨later, listed ▸ laterFound, ?_⟩
    rw [laterFields, Progress.advance, ← content, ← fields]
    simp only [sameContent_iff]

/-- **Step lemma.** Processing the next row advances the progress, unless its parse
status leaves it unresolved. -/
theorem step_advances (ids : IdSupply) (unicode : UnicodeTables) {progress : Progress}
    {rest : List SourceObservation}
    (awaits : db.Awaits listingId progress (row :: rest)) (scan : Uuid → Nat) (now : Timestamp)
    (method : DiscoveryMethod) :
    (db.step ids unicode (.processObservation scan now method row.sourceObservationId)).Awaits
      listingId (if row.processable then progress.advance row else progress) rest := by
  have stored := awaits.stored row List.mem_cons_self
  by_cases processed : row.processable = true
  · obtain ⟨link, rfl, _, _, linked⟩ := awaits.link
    obtain ⟨listing, found, _⟩ := awaits.listing
    obtain ⟨known, _⟩ := linked row List.mem_cons_self
    obtain ⟨next, outcome, updated⟩ := updateExisting_ok ⟨ids, unicode, scan⟩ now row
      row.parsedPayload found awaits.ungoverned.answered
    have stepped : db.step ids unicode
        (.processObservation scan now method row.sourceObservationId) = next := by
      have passes : ¬ (row.parseStatus ≠ .valid ∧ row.parseStatus ≠ .partialParse) :=
        fun aside => SourceObservation.not_processable_iff.mpr aside processed
      simp only [step, perform, processObservation, stored, passes, ↓reduceIte, known, updated,
        ok_bind]
      rfl
    obtain ⟨same, sameFound, update⟩ := updateExisting_cases updated
    rw [stepped, if_pos processed]
    exact update.advances awaits known sameFound
  · have stepped : db.step ids unicode
        (.processObservation scan now method row.sourceObservationId) = db := by
      have aside := SourceObservation.not_processable_iff.mp processed
      simp only [step, perform, processObservation, stored, aside, ↓reduceIte, ok_bind, and_self,
        ne_eq, not_false_eq_true]
      rfl
    rw [stepped, if_neg processed]
    exact awaits.tail

/-- A call of process_observation for one row. -/
structure ProcessCall where
  scan : Uuid → Nat
  now : Timestamp
  discoveryMethod : DiscoveryMethod
  row : SourceObservation

def ProcessCall.action (call : ProcessCall) : ServiceAction :=
  .processObservation call.scan call.now call.discoveryMethod call.row.sourceObservationId

/-- The rows of the calls that are not put aside. -/
abbrev processedRows (calls : List ProcessCall) : List SourceObservation :=
  (calls.map ProcessCall.row).filter SourceObservation.processable

/-- A run over the awaited rows goes through the progress of the processable ones. -/
theorem run_advances (ids : IdSupply) (unicode : UnicodeTables) {progress : Progress}
    (calls : List ProcessCall)
    (awaits : db.Awaits listingId progress (calls.map ProcessCall.row)) :
    (run (step ids unicode) db (calls.map ProcessCall.action)).Awaits listingId
      ((processedRows calls).foldl Progress.advance progress) [] := by
  induction calls generalizing db progress with
  | nil => exact awaits
  | cons call rest ih =>
      have advanced := ih (step_advances ids unicode awaits call.scan call.now call.discoveryMethod)
      rw [processedRows, List.map_cons, List.map_cons, List.filter_cons]
      by_cases processed : call.row.processable = true
      · rw [if_pos processed] at advanced ⊢
        exact advanced
      · rw [if_neg processed] at advanced ⊢
        exact advanced

/-! ## The newest value -/

/-- The value that the newest of the rows that state one states. -/
def newestStated {Value : Type} (stated : SourceObservation → Option Value)
    (rows : List SourceObservation) : Option Value :=
  ((rows.filter fun row => (stated row).isSome).maxOn? SourceObservation.observedAt).bind stated

/-- A set of later observations of one source identity: each is stored, is found
under the link of the identity, and is not its latest observation; no override
governs the listing of the link; and no two were observed at one time. -/
structure LaterObservations (db : Database) (link : ListingSourceLink)
    (listing : CanonicalListing) (rows : List SourceObservation) : Prop where
  stored : ∀ row ∈ rows, db.observation? row.sourceObservationId = some row
  identity : ∀ row ∈ rows, db.findLink row = .ok (some link)
  later : ∀ row ∈ rows, link.latestObservationId ≠ row.sourceObservationId
  owner : db.listing? link.canonicalListingId = some listing
  ungoverned : db.Ungoverned link.canonicalListingId
  distinct : (rows.map SourceObservation.observedAt).Nodup

/-- The listing has the value of the newest row for each field that a row states. -/
def HasNewest (db : Database) (listingId : Uuid) (rows : List SourceObservation) : Prop :=
  ∃ listing, db.listing? listingId = some listing ∧
    (∀ rent ∈ newestStated (fun row => row.parsedPayload.statedRent) rows,
      listing.monthlyRentMinor = some rent) ∧
    (∀ status ∈ newestStated (fun row => row.parsedPayload.statedAvailability) rows,
      listing.availabilityStatus = status) ∧
    ∀ laundry ∈ newestStated (fun row => row.parsedPayload.statedLaundry) rows,
      listing.laundryType = laundry

/-- Of the rows that state a value and pass the content check, the last one states
the newest value; when none does, it is the value there already. -/
def NewestLast {Value : Type} (stated : SourceObservation → Option Value) (held : Option Value)
    (passed rows : List SourceObservation) : Prop :=
  ∀ value ∈ newestStated stated rows, (lastStated stated passed).or held = some value

instance {Value : Type} [DecidableEq Value] (stated : SourceObservation → Option Value)
    (held : Option Value) (passed rows : List SourceObservation) :
    Decidable (NewestLast stated held passed rows) :=
  inferInstanceAs (Decidable (∀ value ∈ newestStated stated rows, _ = _))

/-- The newest value of each field is the one processed last. -/
def ProcessedLast (db : Database) (link : ListingSourceLink) (listing : CanonicalListing)
    (rows : List SourceObservation) : Prop :=
  let passed := passing link.lastSeenAt
    ((db.observation? link.latestObservationId).map SourceObservation.contentHash) rows
  NewestLast (fun row => row.parsedPayload.statedRent) listing.monthlyRentMinor passed rows ∧
    NewestLast (fun row => row.parsedPayload.statedAvailability) (some listing.availabilityStatus)
      passed rows ∧
    NewestLast (fun row => row.parsedPayload.statedLaundry) (some listing.laundryType) passed rows

/-- A set of later observations is still to be processed. -/
theorem LaterObservations.awaits {link : ListingSourceLink} {rows : List SourceObservation}
    (later : db.LaterObservations link listing rows) :
    db.Awaits link.canonicalListingId
      ⟨link.lastSeenAt,
        (db.observation? link.latestObservationId).map SourceObservation.contentHash,
        listing.fields⟩ rows where
  stored := later.stored
  link := ⟨link, rfl, rfl, rfl, fun row member =>
    ⟨later.identity row member, later.later row member⟩⟩
  listing := ⟨listing, later.owner, rfl⟩
  ungoverned := later.ungoverned
  distinct := by
    refine (List.nodup_map_iff_inj_on (List.Nodup.of_map _ later.distinct)).mpr ?_
    intro first firstMem second secondMem same
    have found := later.stored first firstMem
    rw [same, later.stored second secondMem] at found
    exact (Option.some.inj found).symm

/-- The later observations of an identity are so in any order. -/
theorem LaterObservations.perm {link : ListingSourceLink} {first second : List SourceObservation}
    (later : db.LaterObservations link listing second) (order : first.Perm second) :
    db.LaterObservations link listing first where
  stored row member := later.stored row (order.mem_iff.mp member)
  identity row member := later.identity row (order.mem_iff.mp member)
  later row member := later.later row (order.mem_iff.mp member)
  owner := later.owner
  ungoverned := later.ungoverned
  distinct := (order.map _).nodup_iff.mpr later.distinct

/-- **Order of observations.** After any order of the later observations of an
identity, the rent, the availability and the laundry type are those of the newest
observation that states one just when that value was also processed last among the
observations that pass the content check. -/
theorem newest_iff_processedLast (ids : IdSupply) (unicode : UnicodeTables) {db : Database}
    {link : ListingSourceLink} {listing : CanonicalListing} {calls : List ProcessCall}
    (later : db.LaterObservations link listing (calls.map ProcessCall.row)) :
    (run (step ids unicode) db (calls.map ProcessCall.action)).HasNewest link.canonicalListingId
        (processedRows calls) ↔
      db.ProcessedLast link listing (processedRows calls) := by
  obtain ⟨final, found, fields⟩ :=
    (run_advances ids unicode calls later.awaits).listing
  rw [foldl_advance_fields] at fields
  generalize processedRows calls = rows at *
  have rent := congrArg StatedFields.monthlyRentMinor fields
  have availability := congrArg StatedFields.availabilityStatus fields
  have laundry := congrArg StatedFields.laundryType fields
  simp only [CanonicalListing.fields] at rent availability laundry
  simp only [HasNewest, found, Option.some.injEq, exists_eq_left', ProcessedLast, NewestLast, rent,
    availability, laundry, Option.or_some, Option.getD_eq_iff]

/-! ## Three rents of one listing -/

/-- An observation of one rental at a time, with a rent. -/
def rentSeen (id : Uuid) (time : Timestamp) (rent : Nat) (contentHash : String) :
    SourceObservation :=
  { observedAt id 1 "a" none with
    observedAt := time
    contentHash := contentHash
    parsedPayload :=
      { (observedAt id 1 "a" none).parsedPayload with
        pricing := { monthlyRentMinor := some rent } } }

/-- The rental is known with its first rent, and two later ones are stored. -/
def rentKnown : Database :=
  reached countingIds asciiTables
    [.outside
      { observations := [rentSeen 1 0 100 "x", rentSeen 2 10 200 "y", rentSeen 3 20 300 "z"]
        sourceRuns := []
        overrides := []
        geography := fun address => (address.locationPrecision, address.boundaryStatus) },
      process 1]

def rentCall (row : SourceObservation) : ProcessCall where
  scan := fun _ => 0
  now := 0
  discoveryMethod := .direct
  row := row

/-- The later rents in the order of observation. -/
def rentsInOrder : List ProcessCall :=
  [rentCall (rentSeen 2 10 200 "y"), rentCall (rentSeen 3 20 300 "z")]

/-- The two rents are later observations of the known identity. -/
theorem rentsInOrder_later :
    rentKnown.LaterObservations (rentKnown.links.head (by decide))
      (rentKnown.listings.head (by decide)) (rentsInOrder.map ProcessCall.row) where
  stored := by decide
  identity := by decide
  later := by decide
  owner := by decide
  ungoverned := fun _ member => (List.not_mem_nil member).elim
  distinct := by decide

theorem newest_iff_processedLast_inOrder :
    (run (step countingIds asciiTables) rentKnown (rentsInOrder.map ProcessCall.action)).HasNewest
        (rentKnown.links.head (by decide)).canonicalListingId
        (processedRows rentsInOrder) :=
  (newest_iff_processedLast countingIds asciiTables rentsInOrder_later).mpr
    ⟨by decide, by decide, by decide⟩

/-- The older of two later rents, processed last, replaces the newer one. -/
theorem older_rent_replaces_newer :
    ∃ calls : List ProcessCall, calls.Perm rentsInOrder ∧
      rentKnown.LaterObservations (rentKnown.links.head (by decide))
        (rentKnown.listings.head (by decide)) (calls.map ProcessCall.row) ∧
      ¬ (run (step countingIds asciiTables) rentKnown (calls.map ProcessCall.action)).HasNewest
        (rentKnown.links.head (by decide)).canonicalListingId
        (processedRows calls) := by
  have swapped : (rentsInOrder.reverse).Perm rentsInOrder := List.reverse_perm _
  refine ⟨rentsInOrder.reverse, swapped, rentsInOrder_later.perm (swapped.map _), ?_⟩
  rintro ⟨listing, found, rent, _⟩
  have newest : listing.monthlyRentMinor = some 300 := rent 300 (by decide)
  have last : listing.monthlyRentMinor = some 200 := by
    cases found
    rfl
  cases newest.symm.trans last

end Database

end RentalAgent
