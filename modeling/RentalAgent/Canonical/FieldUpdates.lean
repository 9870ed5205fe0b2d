import RentalAgent.Canonical.ListingFields

/-! # What an observation does to the fields of a listing

An observation applies to a listing when its identity is linked to the listing and it
passes the content check. Each field but the layout then goes through one update: a
value that agrees with the column changes nothing, an active override keeps the column,
and otherwise the value is written with its event (`Database.FieldUpdate`). Every other
listing and its journals stay as they are.
-/

namespace RentalAgent

open Relational

/-- The part of `_update_existing` that is about the field writes this. -/
def ListingField.write (observation : ParsedSourceObservation) :
    ListingField → CanonicalListing → CanonicalListing
  | .rent, listing => { listing with monthlyRentMinor := observation.statedRent }
  | .layout, listing => listing
  | .availability, listing =>
      { listing with availabilityStatus := observation.availability.proposedStatus }
  | .laundry, listing => { listing with
      laundryType := observation.laundry.proposedLaundryType
      indoorLaundryBadgeEligible :=
        deriveBadgeEligibility observation.laundry.proposedLaundryType .pending .resolved }

theorem ListingField.write_id (observation : ParsedSourceObservation) (field : ListingField)
    (listing : CanonicalListing) :
    (field.write observation listing).canonicalListingId = listing.canonicalListingId := by
  cases field <;> rfl

/-- Writing a field leaves the others alone. -/
theorem ListingField.column_write_other {observation : ParsedSourceObservation}
    {field other : ListingField} (differs : other ≠ field) (listing : CanonicalListing) :
    other.column (field.write observation listing) = other.column listing := by
  cases field <;> cases other <;> first | rfl | exact (differs rfl).elim

/-- Writing a field writes what is stated. -/
theorem ListingField.column_write {observation : ParsedSourceObservation} {field : ListingField}
    {eventType : ListingEventType} (typed : field.eventType = some eventType)
    {incoming : JsonScalar} (states : field.stated observation = some incoming)
    (listing : CanonicalListing) : field.column (field.write observation listing) = incoming := by
  cases field with
  | rent =>
      obtain ⟨rent, stated, rfl⟩ := Option.map_eq_some_iff.mp states
      simp [ListingField.column, ListingField.write, stated]
  | layout => cases typed
  | availability =>
      obtain ⟨status, stated, rfl⟩ := Option.map_eq_some_iff.mp states
      have proposed := Option.ite_none_left_eq_some.mp stated
      exact congrArg JsonScalar.availability (Option.some.inj proposed.2)
  | laundry =>
      obtain ⟨laundry, stated, rfl⟩ := Option.map_eq_some_iff.mp states
      have proposed := Option.ite_none_left_eq_some.mp stated
      exact congrArg JsonScalar.laundry (Option.some.inj proposed.2)

namespace Database

/-- The observation has a known identity, linked to the listing, and passes the content
check: it is neither the latest one of its link nor of the latest one's content. -/
def Applies (db : Database) (row : SourceObservation) (listing : CanonicalListing) : Prop :=
  row.processable = true ∧ ∃ link, db.findLink row = .ok (some link) ∧
    db.listing? link.canonicalListingId = some listing ∧
      link.latestObservationId ≠ row.sourceObservationId ∧ db.sameContent link row = false

/-- What an applied observation does to a field of its listing and to its journal. -/
inductive FieldUpdate (row : SourceObservation) (field : ListingField)
    (listing : CanonicalListing) (db next : Database) : Prop
  | kept
      (agrees : ∀ incoming ∈ field.stated row.parsedPayload, incoming = field.column listing)
      (untouched : Untouched field listing.canonicalListingId db next)
  | governed {incoming : JsonScalar} {override : HumanOverride} {issue : ReviewIssue}
      (states : field.stated row.parsedPayload = some incoming)
      (differs : incoming ≠ field.column listing)
      (governs : db.activeOverride .listing listing.canonicalListingId field.key =
        .ok (some override))
      (column : next.column field listing.canonicalListingId =
        db.column field listing.canonicalListingId)
      (journal : next.journal field listing.canonicalListingId =
        if incoming = override.overrideValue ∨ override.reviewOnNewConflict = false ∨
            (db.journal field listing.canonicalListingId).conflicts ≠ [] then
          db.journal field listing.canonicalListingId
        else { db.journal field listing.canonicalListingId with conflicts := [issue] })
  | written {incoming : JsonScalar} {eventType : ListingEventType} {id : Uuid}
      (states : field.stated row.parsedPayload = some incoming)
      (differs : incoming ≠ field.column listing)
      (free : db.activeOverride .listing listing.canonicalListingId field.key = .ok none)
      (typed : field.eventType = some eventType)
      (column : next.column field listing.canonicalListingId = some incoming)
      (journal : next.journal field listing.canonicalListingId =
        if .row row.sourceObservationId ∈
            (db.journal field listing.canonicalListingId).usedKeys then
          db.journal field listing.canonicalListingId
        else
          { db.journal field listing.canonicalListingId with
            events := (db.journal field listing.canonicalListingId).events ++
              [causedEvent row id listing.canonicalListingId eventType
                (some [(field.key, field.column listing)]) (some [(field.key, incoming)])]
            usedKeys := (db.journal field listing.canonicalListingId).usedKeys ++
              [.row row.sourceObservationId] })

variable {ids : IdSupply} {env : Environment} {now : Timestamp} {db middle next : Database}
  {field : ListingField} {listingId : Uuid} {row : SourceObservation}
  {listing stored : CanonicalListing} {link : ListingSourceLink} {method : DiscoveryMethod}
  {outcome : NormalizationOutcome}

theorem activeOverride_congr (same : next.overrides = db.overrides) (entityType : FactEntityType)
    (entityId : Uuid) (fieldName : String) :
    next.activeOverride entityType entityId fieldName =
      db.activeOverride entityType entityId fieldName := by
  rw [activeOverride, same, activeOverride]

theorem Applies.unique {other : CanonicalListing} (first : db.Applies row listing)
    (second : db.Applies row other) : listing = other := by
  obtain ⟨_, link, known, found, _⟩ := first
  obtain ⟨_, link', again, stored, _⟩ := second
  cases known.symm.trans again
  exact Option.some.inj (found.symm.trans stored)

/-- Steps that leave the field alone can come before an update and after it. -/
theorem FieldUpdate.between {before after : Database}
    (update : FieldUpdate row field listing before after)
    (overrides : before.overrides = db.overrides)
    (first : Untouched field listing.canonicalListingId db before)
    (last : Untouched field listing.canonicalListingId after next) :
    FieldUpdate row field listing db next := by
  cases update with
  | kept agrees untouched => exact .kept agrees ((first.trans untouched).trans last)
  | governed states differs governs column journal =>
      rw [activeOverride_congr overrides] at governs
      rw [first.journal, ← last.journal] at journal
      exact .governed states differs governs ((last.column.trans column).trans first.column) journal
  | written states differs free typed column journal =>
      rw [activeOverride_congr overrides] at free
      rw [first.journal, ← last.journal] at journal
      exact .written states differs free typed (last.column.trans column) journal

/-! ## One update -/

theorem causedEvent_makes (row : SourceObservation) (listingId : Uuid)
    (eventType : ListingEventType) (before after : Option JsonObject) :
    MakesEvent (fun id => causedEvent row id listingId eventType before after) listingId eventType
      (.row row.sourceObservationId) :=
  ⟨fun _ => rfl, fun _ => rfl, fun _ => rfl⟩

theorem emitEvent_untouched (row : SourceObservation) {owner : Uuid} {eventType : ListingEventType}
    (before after : Option JsonObject) (db : Database)
    (elsewhere : listingId = owner → field.eventType ≠ some eventType) :
    Untouched field listingId db (db.emitEvent env row owner eventType before after).1 :=
  insertEvent_untouched (causedEvent_makes row owner eventType before after) elsewhere

section Steps

variable {key : String} {eventType : ListingEventType} {stated : Option JsonScalar}
  {current : JsonScalar} {write : CanonicalListing → CanonicalListing}
  {events : List ListingEventType}

/-- The update of one field leaves the other fields and the other listings alone. -/
theorem FieldStep.untouched
    (step : FieldStep env row listing key eventType stated current write db next events)
    (keeps : ∀ listing, (write listing).canonicalListingId = listing.canonicalListingId)
    (elsewhere : listingId = listing.canonicalListingId → field.key ≠ key ∧
      field.eventType ≠ some eventType ∧ ∀ listing, field.column (write listing) =
        field.column listing) : Untouched field listingId db next :=
  step.within ⟨.refl field listingId, .trans⟩
    (fun _ _ => raiseConflict_untouched _ _ fun same => (elsewhere same).1)
    (fun _ _ => emitEvent_untouched row _ _ db fun same => (elsewhere same).2.1)
    fun _ => updateListing_untouched keeps fun same => (elsewhere same).2.2

/-- The update of a field is a field update of its listing. -/
theorem FieldStep.fieldUpdate
    (step : FieldStep env row listing field.key eventType (field.stated row.parsedPayload)
      (field.column listing) (field.write row.parsedPayload) db next events)
    (typed : field.eventType = some eventType)
    (found : db.listing? listing.canonicalListingId = some stored) :
    FieldUpdate row field listing db next := by
  cases step with
  | unstated silent => exact .kept (by simp [silent]) (.refl field _ db)
  | agrees same => exact .kept (by simp [same]) (.refl field _ db)
  | overridden states differs governs same =>
      rename_i incoming override
      have journal : ∀ issue, db.journal field listing.canonicalListingId =
          if incoming = override.overrideValue ∨ override.reviewOnNewConflict = false ∨
              (db.journal field listing.canonicalListingId).conflicts ≠ [] then
            db.journal field listing.canonicalListingId
          else { db.journal field listing.canonicalListingId with conflicts := [issue] } :=
        fun _ => (if_pos (.inl same)).symm
      exact .governed states differs governs rfl (journal (conflictIssue 0 override 0 "" .null))
  | disputed states differs governs disagrees =>
      rename_i incoming override
      obtain ⟨issue, journal⟩ : ∃ issue, (db.raiseConflictWithOverride env.ids override
          listing.canonicalListingId field.key incoming).journal field listing.canonicalListingId =
            if incoming = override.overrideValue ∨ override.reviewOnNewConflict = false ∨
                (db.journal field listing.canonicalListingId).conflicts ≠ [] then
              db.journal field listing.canonicalListingId
            else { db.journal field listing.canonicalListingId with conflicts := [issue] } := by
        simp only [disagrees, false_or]
        exact raiseConflict_journal override incoming
      exact .governed states differs governs (raiseConflict_column override _ _ _) journal
  | written states differs free =>
      rename_i incoming
      have inserted := (insertEvent_journal env.ids db
        (causedEvent_makes row listing.canonicalListingId eventType
          (some [(field.key, field.column listing)]) (some [(field.key, incoming)])) typed).1
      refine .written states differs free typed ?_ inserted
      rw [column_updateListing (field.write_id _), if_pos rfl,
        listing?_congr (emitEvent_evidenceOnly row _ _ _ _ db).listings, found]
      exact congrArg some (ListingField.column_write typed states stored)

end Steps

/-- Another field has another key and event type, and writes another column. -/
theorem ListingField.elsewhere {observation : ParsedSourceObservation} (other : ListingField)
    {eventType : ListingEventType} (typed : other.eventType = some eventType)
    (differs : field ≠ other) : field.key ≠ other.key ∧ field.eventType ≠ some eventType ∧
      ∀ listing, field.column (other.write observation listing) = field.column listing := by
  refine ⟨ListingField.key_injective.ne differs, ?_, ListingField.column_write_other differs⟩
  rw [← typed]
  cases field <;> cases other <;> first | exact (differs rfl).elim | simp [ListingField.eventType]

/-- Touching the freshness leaves every field and every journal alone. -/
theorem touchFreshness_untouched (link : ListingSourceLink) (listing : CanonicalListing)
    (row : SourceObservation) (db : Database) :
    Untouched field listingId db (db.touchFreshness link listing row) := by
  have touched : Untouched field listingId db
      (db.updateListing listing.canonicalListingId fun listing =>
        { listing with lastSeenAt := max listing.lastSeenAt row.observedAt }) := by
    refine updateListing_untouched (by intro _; rfl) fun _ _ => ?_
    cases field <;> rfl
  refine touched.trans (untouched_congr (touchFreshness_listings link listing row db) ?_ ?_)
  · rw [touchFreshness_frame]
    rfl
  · rw [touchFreshness_frame]
    rfl

/-! ## Known identities -/

/-- Once the facts of an observation are recorded, its listing goes through one update a
field, and everything else stays as it is. -/
theorem applied_fields {recorded rented available washed : Database}
    {first second third : List ListingEventType}
    (facts : FactsOnly (db.touchFreshness link listing row) recorded)
    (rent : applyRent env row row.parsedPayload listing (recorded, []) = .ok (rented, first))
    (availability : applyAvailability env row row.parsedPayload listing (rented, first) =
      .ok (available, second))
    (laundry : applyLaundry env row row.parsedPayload listing (available, second) =
      .ok (washed, third))
    (wrote : next = washed ∨ next = washed.updateListing listing.canonicalListingId fun listing =>
      { listing with lastMaterialChangeAt := row.observedAt })
    (found : db.listing? listing.canonicalListingId = some stored) :
    (∀ field listingId, (listingId = listing.canonicalListingId → field = .layout) →
      Untouched field listingId db next) ∧
      ∀ field, field ≠ .layout → FieldUpdate row field listing db next := by
  have recordedUntouched : ∀ field listingId, Untouched field listingId db recorded :=
    fun field listingId => (touchFreshness_untouched link listing row db).trans facts.untouched
  obtain ⟨_, _, rentStep⟩ := applyField_cases rent
  obtain ⟨_, _, availabilityStep⟩ := applyField_cases availability
  obtain ⟨_, _, laundryStep⟩ := applyField_cases laundry
  have rentedUntouched : ∀ field listingId, (listingId = listing.canonicalListingId →
      field ≠ .rent) → Untouched field listingId recorded rented :=
    fun field listingId other => rentStep.untouched (ListingField.write_id _ .rent)
      fun same => ListingField.elsewhere .rent rfl (other same)
  have availableUntouched : ∀ field listingId, (listingId = listing.canonicalListingId →
      field ≠ .availability) → Untouched field listingId rented available :=
    fun field listingId other => availabilityStep.untouched (ListingField.write_id _ .availability)
      fun same => ListingField.elsewhere .availability rfl (other same)
  have washedUntouched : ∀ field listingId, (listingId = listing.canonicalListingId →
      field ≠ .laundry) → Untouched field listingId available washed :=
    fun field listingId other => laundryStep.untouched (ListingField.write_id _ .laundry)
      fun same => ListingField.elsewhere .laundry rfl (other same)
  have nextUntouched : ∀ field listingId, Untouched field listingId washed next := by
    intro field listingId
    rcases wrote with rfl | rfl
    · exact .refl field listingId next
    · refine updateListing_untouched (by intro _; rfl) fun _ _ => ?_
      cases field <;> rfl
  have recordedOverrides : recorded.overrides = db.overrides :=
    facts.evidenceOnly.overrides.trans
      (by rw [(touchFreshness_inventoryOnly link listing row db).frame])
  have rentedOverrides : rented.overrides = db.overrides :=
    Eq.trans (by rw [(applyField_inventoryOnly rent).frame]) recordedOverrides
  have availableOverrides : available.overrides = db.overrides :=
    Eq.trans (by rw [(applyField_inventoryOnly availability).frame]) rentedOverrides
  have rentedFrom := fun field listingId other =>
    (recordedUntouched field listingId).trans (rentedUntouched field listingId other)
  have availableFrom := fun field listingId notRent notAvailability =>
    (rentedFrom field listingId notRent).trans
      (availableUntouched field listingId notAvailability)
  refine ⟨fun field listingId layout => ?_, fun field notLayout => ?_⟩
  · have other : ∀ written, written ≠ .layout → listingId = listing.canonicalListingId →
        field ≠ written := fun written differs same => layout same ▸ differs.symm
    exact ((availableFrom field listingId (other .rent (by decide))
      (other .availability (by decide))).trans (washedUntouched field listingId
        (other .laundry (by decide)))).trans (nextUntouched field listingId)
  · cases field with
    | layout => exact (notLayout rfl).elim
    | rent =>
        obtain ⟨_, stored⟩ := (recordedUntouched .layout _).exists_stored found
        exact (rentStep.fieldUpdate rfl stored).between recordedOverrides (recordedUntouched _ _)
          (((availableUntouched _ _ fun _ => by decide).trans
            (washedUntouched _ _ fun _ => by decide)).trans (nextUntouched _ _))
    | availability =>
        obtain ⟨_, stored⟩ := (rentedFrom .layout _ fun _ => by decide).exists_stored found
        exact (availabilityStep.fieldUpdate rfl stored).between rentedOverrides
          (rentedFrom _ _ fun _ => by decide)
          ((washedUntouched _ _ fun _ => by decide).trans (nextUntouched _ _))
    | laundry =>
        obtain ⟨_, stored⟩ := (availableFrom .layout _ (fun _ => by decide)
          fun _ => by decide).exists_stored found
        exact (laundryStep.fieldUpdate rfl stored).between availableOverrides
          (availableFrom _ _ (fun _ => by decide) fun _ => by decide) (nextUntouched _ _)

/-! ## New identities -/

/-- The issue of a proposed pair is no conflict of a field. -/
theorem proposeDuplicate_journal (listing : CanonicalListing) (rent : Nat) (db : Database)
    (other : CanonicalListing) :
    (proposeDuplicate env listing rent db other).journal field listingId =
      db.journal field listingId := by
  unfold proposeDuplicate
  split
  · rfl
  · dsimp only
    split
    · rfl
    · simp [journal, List.filter_append, candidateIssue, surfacesConflict]

theorem generateDuplicateCandidates_journal (env : Environment) (listing : CanonicalListing)
    (building : Building) (db : Database) :
    (db.generateDuplicateCandidates env listing building).journal field listingId =
      db.journal field listingId :=
  generateDuplicateCandidates_within (composes_of_column (journal · field listingId)) listing
    building (proposeDuplicate_journal listing) db

/-- Starting a listing leaves the journals of all fields alone. -/
theorem startListing_journal {building : Building} {unitId : Option Uuid}
    (started : db.startListing env now row row.parsedPayload method building unitId =
      .ok (next, outcome)) : next.journal field listingId = db.journal field listingId := by
  obtain ⟨recorded, facts, rfl⟩ := startListing_eq_ok started
  rw [generateDuplicateCandidates_journal, facts.untouched.journal]
  exact (emitEvent_untouched row _ _ _ fun _ => by cases field <;> decide).journal

/-- A new listing leaves the field of a known one alone. -/
theorem startListing_untouched {building : Building} {unitId : Option Uuid}
    (started : db.startListing env now row row.parsedPayload method building unitId =
      .ok (next, outcome)) (found : db.listing? listingId = some stored) :
    Untouched field listingId db next := by
  refine ⟨?_, startListing_journal started⟩
  rw [column, listing?_congr (startListing_evidenceOnly started).listings]
  exact insertListing_column _ found

/-- Attaching a link leaves every field and every journal alone. -/
theorem attachCrossSourceLink_untouched (listing : CanonicalListing) (identity : IdentityMethod)
    (confidence : IdentityConfidence) :
    Untouched field listingId db
      (db.attachCrossSourceLink env row listing method identity confidence).1 := by
  have linked : Untouched field listingId db (db.insertLink (newLink row method
      (env.ids.uuid db.drawn) listing.canonicalListingId identity confidence)) :=
    untouched_congr rfl rfl rfl
  refine linked.trans (updateListing_untouched (by intro _; rfl) fun _ _ => ?_)
  cases field <;> rfl

/-- Creating a listing leaves the journals of all fields alone. -/
theorem createCanonical_journal
    (created : db.createCanonical env now row row.parsedPayload method = .ok (next, outcome)) :
    next.journal field listingId = db.journal field listingId := by
  obtain ⟨place, building, unitMatch, resolved, ends⟩ := createCanonical_ends created
  rw [← (resolvePlace_placeOnly resolved).untouched.journal]
  rcases ends with ⟨listing, identity, confidence, attached⟩ | ⟨unitId, started⟩
  · cases attached
    exact (attachCrossSourceLink_untouched _ _ _).journal
  · exact startListing_journal started

/-- A new identity leaves the fields of the listings that exist alone. -/
theorem createCanonical_untouched
    (created : db.createCanonical env now row row.parsedPayload method = .ok (next, outcome))
    (found : db.listing? listingId = some stored) : Untouched field listingId db next := by
  obtain ⟨place, building, unitMatch, resolved, ends⟩ := createCanonical_ends created
  have placed := resolvePlace_placeOnly resolved
  refine placed.untouched.trans ?_
  have placedFound : place.listing? listingId = some stored :=
    (listing?_congr placed.listings _).trans found
  rcases ends with ⟨listing, identity, confidence, attached⟩ | ⟨unitId, started⟩
  · cases attached
    exact attachCrossSourceLink_untouched _ _ _
  · exact startListing_untouched started placedFound

/-! ## One observation -/

/-- An update that does not apply leaves every field alone. -/
theorem updateExisting_fields
    (updated : db.updateExisting env now row row.parsedPayload link = .ok (next, outcome))
    (known : db.findLink row = .ok (some link)) (processable : row.processable = true) :
    (∃ listing, db.Applies row listing ∧
      (∀ field listingId, (listingId = listing.canonicalListingId → field = .layout) →
        Untouched field listingId db next) ∧
      ∀ field, field ≠ .layout → FieldUpdate row field listing db next) ∨
    (∀ listing, ¬ db.Applies row listing) ∧
      ∀ field listingId, Untouched field listingId db next := by
  obtain ⟨listing, found, update⟩ := updateExisting_cases updated
  cases update with
  | replayed same =>
      refine .inr ⟨?_, fun field listingId => .refl field listingId db⟩
      rintro _ ⟨_, other, again, _, new, _⟩
      cases known.symm.trans again
      exact new same
  | sameContent new same =>
      refine .inr ⟨?_, fun field listingId => touchFreshness_untouched link listing row db⟩
      rintro _ ⟨_, other, again, _, _, differs⟩
      cases known.symm.trans again
      simp [same] at differs
  | applied new differs facts rent availability laundry wrote =>
      have named : listing.canonicalListingId = link.canonicalListingId := key_of_get found
      refine .inl ⟨listing, ⟨processable, link, known, found, new, differs⟩, ?_⟩
      exact applied_fields facts rent availability laundry wrote (named ▸ found)

/-- An observation applies to a listing and updates its fields, or leaves the fields of
all listings alone; a new listing has empty journals. -/
theorem processObservation_fields {observationId : Uuid}
    (processed : db.processObservation env now method observationId = .ok (next, outcome)) :
    (∃ row listing, db.observation? observationId = some row ∧ db.Applies row listing ∧
      (∀ field listingId, (listingId = listing.canonicalListingId → field = .layout) →
        Untouched field listingId db next) ∧
      ∀ field, field ≠ .layout → FieldUpdate row field listing db next) ∨
    (∀ row, db.observation? observationId = some row → ∀ listing, ¬ db.Applies row listing) ∧
      ∀ field listingId, next.journal field listingId = db.journal field listingId ∧
        (∀ stored, db.listing? listingId = some stored → Untouched field listingId db next) := by
  obtain ⟨row, found, processes⟩ := processObservation_processes processed
  cases processes with
  | aside unparsed same =>
      cases same
      refine .inr ⟨?_, fun field listingId => ⟨rfl, fun _ _ => .refl field listingId db⟩⟩
      rintro _ again _ ⟨processable, _⟩
      cases found.symm.trans again
      exact SourceObservation.not_processable_iff.mpr unparsed processable
  | opened _ unknown created =>
      refine .inr ⟨?_, fun field listingId => ⟨createCanonical_journal created,
        fun stored exists_ => createCanonical_untouched created exists_⟩⟩
      rintro _ again _ ⟨_, _, known, _⟩
      cases found.symm.trans again
      cases unknown.symm.trans known
  | continued parsed known updated =>
      have processable := SourceObservation.processable_iff.mpr parsed
      rcases updateExisting_fields updated known processable with
        ⟨listing, applies, others, fields⟩ | ⟨idle, untouched⟩
      · exact .inl ⟨row, listing, found, applies, others, fields⟩
      · refine .inr ⟨fun other again => ?_, fun field listingId =>
          ⟨(untouched field listingId).journal, fun _ _ => untouched field listingId⟩⟩
        cases found.symm.trans again
        exact idle

/-- An observation that applies to a listing whose overrides are answered is processed. -/
theorem processObservation_ok (env : Environment) (now : Timestamp) (method : DiscoveryMethod)
    {observationId : Uuid} (found : db.observation? observationId = some row)
    (applies : db.Applies row listing) (answered : db.Answered listing.canonicalListingId) :
    ∃ next outcome, db.processObservation env now method observationId = .ok (next, outcome) := by
  obtain ⟨processable, link, known, stored, _⟩ := applies
  have named : listing.canonicalListingId = link.canonicalListingId := key_of_get stored
  obtain ⟨next, outcome, updated⟩ := updateExisting_ok env now row row.parsedPayload stored
    (named ▸ answered)
  have parsed : ¬ (row.parseStatus ≠ .valid ∧ row.parseStatus ≠ .partialParse) :=
    fun aside => SourceObservation.not_processable_iff.mpr aside processable
  refine ⟨next, outcome, ?_⟩
  unfold processObservation
  simp only [found]
  rw [if_neg parsed, known]
  exact updated

end Database

end RentalAgent
