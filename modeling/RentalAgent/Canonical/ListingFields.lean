import RentalAgent.Canonical.Order

/-! # The fields of a listing

A field has its key, its column, and the event of its changes. What the database keeps
about a field of one listing is its column and its journal: the events of its changes,
the idempotency keys they use, and the open conflicts about it. One lemma for each
write tells what it does to both.
-/

namespace RentalAgent

open Relational

/-- The fields of a listing that sources state. -/
inductive ListingField
  | rent | layout | availability | laundry
  deriving DecidableEq

namespace ListingField

/-- The key of the facts, the overrides and the event values of the field. -/
def key : ListingField → String
  | .rent => "monthly_rent_minor"
  | .layout => "layout_class"
  | .availability => "availability_status"
  | .laundry => "laundry_type"

/-- The value of the column of the field. -/
def column : ListingField → CanonicalListing → JsonScalar
  | .rent, listing => listing.monthlyRentMinor.elim .null .number
  | .layout, listing => .layout listing.layoutClass
  | .availability, listing => .availability listing.availabilityStatus
  | .laundry, listing => .laundry listing.laundryType

/-- The value an observation states for the field. -/
def stated : ListingField → ParsedSourceObservation → Option JsonScalar
  | .rent, observation => observation.statedRent.map .number
  | .layout, observation => observation.statedLayout.map .layout
  | .availability, observation => observation.statedAvailability.map .availability
  | .laundry, observation => observation.statedLaundry.map .laundry

/-- The type of the events of its changes; a layout is never changed. -/
def eventType : ListingField → Option ListingEventType
  | .rent => some .priceChanged
  | .layout => none
  | .availability => some .availabilityChanged
  | .laundry => some .laundryChanged

theorem key_injective : Function.Injective key := by
  intro first second same
  cases first <;> cases second <;> first | rfl | simp [key] at same

end ListingField

/-- What the evidence tables keep about a field of a listing. -/
structure Journal where
  events : List ListingEvent
  usedKeys : List KeySuffix
  conflicts : List ReviewIssue

/-- The event maker makes events of one type about one listing, under one key. -/
structure MakesEvent (event : Uuid → ListingEvent) (listingId : Uuid)
    (eventType : ListingEventType) (suffix : KeySuffix) : Prop where
  owner : ∀ id, (event id).canonicalListingId = listingId
  type : ∀ id, (event id).eventType = eventType
  key : ∀ id, (event id).idempotencyKey = ⟨listingId, eventType, suffix⟩

namespace Database

/-- The column of a field of a listing, when there is the listing. -/
def column (db : Database) (field : ListingField) (listingId : Uuid) : Option JsonScalar :=
  (db.listing? listingId).map field.column

def journal (db : Database) (field : ListingField) (listingId : Uuid) : Journal where
  events := db.events.filter fun event =>
    event.canonicalListingId = listingId && some event.eventType = field.eventType
  usedKeys := (db.events.filter fun event => event.idempotencyKey.listing = listingId &&
    some event.idempotencyKey.eventType = field.eventType).map (·.idempotencyKey.suffix)
  conflicts := db.reviewIssues.filter (surfacesConflict listingId field.key)

/-- The step leaves the field of the listing and its journal alone. -/
structure Untouched (field : ListingField) (listingId : Uuid) (db next : Database) : Prop where
  column : next.column field listingId = db.column field listingId
  journal : next.journal field listingId = db.journal field listingId

variable {ids : IdSupply} {env : Environment} {now : Timestamp} {db middle next : Database}
  {field : ListingField} {listingId : Uuid} {row : SourceObservation} {listing : CanonicalListing}
  {observation : ParsedSourceObservation} {method : DiscoveryMethod}
  {outcome : NormalizationOutcome}

/-- The column of a field of a stored listing. -/
theorem column_of_found (found : db.listing? listingId = some listing) (field : ListingField) :
    db.column field listingId = some (field.column listing) := by
  rw [column, found]
  rfl

theorem column_none (absent : db.listing? listingId = none) (field : ListingField) :
    db.column field listingId = none := by
  rw [column, absent]
  rfl

theorem Untouched.refl (field : ListingField) (listingId : Uuid) (db : Database) :
    Untouched field listingId db db := ⟨rfl, rfl⟩

theorem Untouched.trans (first : Untouched field listingId db middle)
    (second : Untouched field listingId middle next) : Untouched field listingId db next :=
  ⟨second.column.trans first.column, second.journal.trans first.journal⟩

/-- A listing with an untouched field is still there. -/
theorem Untouched.exists_stored (untouched : Untouched field listingId db next)
    (found : db.listing? listingId = some listing) :
    ∃ stored, next.listing? listingId = some stored := by
  have same := untouched.column
  rw [column_of_found found, Database.column] at same
  exact (Option.map_eq_some_iff.mp same).imp fun _ => And.left

theorem untouched_congr (listings : next.listings = db.listings) (events : next.events = db.events)
    (reviewIssues : next.reviewIssues = db.reviewIssues) : Untouched field listingId db next := by
  refine ⟨?_, ?_⟩
  · rw [column, listing?_congr listings, column]
  · rw [journal, events, reviewIssues, journal]

theorem FactsOnly.untouched (facts : FactsOnly db next) : Untouched field listingId db next := by
  apply untouched_congr <;> rw [facts.frame]

theorem PlaceOnly.untouched (place : PlaceOnly db next) : Untouched field listingId db next :=
  untouched_congr place.listings place.events place.reviewIssues

/-! ## Writes of listings -/

/-- An update of one listing changes the columns of that listing alone. -/
theorem column_updateListing {id : Uuid} {change : CanonicalListing → CanonicalListing}
    (keeps : ∀ listing, (change listing).canonicalListingId = listing.canonicalListingId) :
    (db.updateListing id change).column field listingId =
      if listingId = id then
        (db.listing? listingId).map fun listing => field.column (change listing)
      else db.column field listingId := by
  have found : (db.updateListing id change).listing? listingId = (db.listing? listingId).map
      fun listing => if listing.canonicalListingId = id then change listing else listing := by
    have same : (db.updateListing id change).listings = db.listings.map fun listing =>
        if listing.canonicalListingId = id then change listing else listing := by
      simp [updateListing, updateWhere]
    rw [listing?, same]
    exact get_map fun listing _ => by split <;> simp [keeps]
  unfold column
  rw [found]
  cases stored : db.listing? listingId with
  | none => simp
  | some listing =>
      have named : listing.canonicalListingId = listingId := key_of_get stored
      by_cases same : listingId = id <;> simp [named, same]

/-- An update that leaves a column alone leaves the field and its journal alone. -/
theorem updateListing_untouched {id : Uuid} {change : CanonicalListing → CanonicalListing}
    (keeps : ∀ listing, (change listing).canonicalListingId = listing.canonicalListingId)
    (silent : listingId = id → ∀ listing, field.column (change listing) = field.column listing) :
    Untouched field listingId db (db.updateListing id change) := by
  refine ⟨?_, rfl⟩
  rw [column_updateListing keeps]
  split
  · rename_i same
    simp only [silent same]
    rfl
  · rfl

theorem insertListing_column (new : CanonicalListing)
    (found : db.listing? listingId = some listing) :
    (db.insertListing new).column field listingId = db.column field listingId := by
  have kept : (db.insertListing new).listing? listingId = some listing := get_append found
  rw [column, kept, column, found]

/-! ## Evidence -/

theorem insertEvent_listings (event : Uuid → ListingEvent) (db : Database) :
    (db.insertEvent ids event).1.listings = db.listings :=
  (insertEvent_evidenceOnly ids event db).listings

/-- The key is used just when its suffix is among the used ones. -/
theorem any_key_iff (db : Database) (listingId : Uuid) {eventType : ListingEventType}
    (suffix : KeySuffix) (typed : field.eventType = some eventType) :
    (db.events.any fun other => other.idempotencyKey = ⟨listingId, eventType, suffix⟩) = true ↔
      suffix ∈ (db.journal field listingId).usedKeys := by
  simp only [journal, List.any_eq_true, decide_eq_true_eq, List.mem_map, List.mem_filter,
    Bool.and_eq_true, typed, Option.some.injEq]
  constructor
  · rintro ⟨other, member, same⟩
    exact ⟨other, ⟨member, by rw [same], by rw [same]⟩, by rw [same]⟩
  · rintro ⟨other, ⟨member, owner, type⟩, rfl⟩
    exact ⟨other, member, by rw [← owner, ← type]⟩

/-- An event about another listing or of another type is not in the journal. -/
theorem insertEvent_untouched {event : Uuid → ListingEvent} {owner : Uuid}
    {eventType : ListingEventType} {suffix : KeySuffix}
    (makes : MakesEvent event owner eventType suffix)
    (elsewhere : listingId = owner → field.eventType ≠ some eventType) :
    Untouched field listingId db (db.insertEvent ids event).1 := by
  refine ⟨?_, ?_⟩
  · rw [column, listing?_congr (insertEvent_listings event db), column]
  · have outside : owner = listingId → ¬ some eventType = field.eventType :=
      fun same typed => elsewhere same.symm typed.symm
    unfold insertEvent
    dsimp only
    split
    · rfl
    · simpa [journal, makes.owner, makes.type, makes.key, List.filter_append] using outside

/-- An event of the field's type is appended unless its key is used. -/
theorem insertEvent_journal (ids : IdSupply) (db : Database) {event : Uuid → ListingEvent}
    {eventType : ListingEventType} {suffix : KeySuffix}
    (makes : MakesEvent event listingId eventType suffix)
    (typed : field.eventType = some eventType) :
    ((db.insertEvent ids event).1.journal field listingId =
        if suffix ∈ (db.journal field listingId).usedKeys then db.journal field listingId
        else
          { db.journal field listingId with
            events := (db.journal field listingId).events ++ [event (ids.uuid db.drawn)]
            usedKeys := (db.journal field listingId).usedKeys ++ [suffix] }) ∧
      ((db.insertEvent ids event).2 = none ↔ suffix ∈ (db.journal field listingId).usedKeys) := by
  have used := any_key_iff db listingId suffix typed
  unfold insertEvent
  simp only [makes.key]
  split
  · rename_i taken
    rw [if_pos (used.mp taken)]
    exact ⟨rfl, iff_of_true rfl (used.mp taken)⟩
  · rename_i free
    have absent : suffix ∉ (db.journal field listingId).usedKeys :=
      fun taken => free (used.mpr taken)
    rw [if_neg absent]
    refine ⟨?_, iff_of_false (by simp) absent⟩
    simp [journal, makes.owner, makes.type, makes.key, typed, List.filter_append]

/-- An issue surfaces the conflict of its own listing and field. -/
theorem surfacesConflict_conflictIssue (id : Uuid) (override : HumanOverride) (entityId : Uuid)
    (factKey : String) (incoming : JsonScalar) :
    surfacesConflict listingId field.key
        (conflictIssue id override entityId factKey incoming) = true ↔
      entityId = listingId ∧ factKey = field.key := by
  simp only [surfacesConflict, Bool.and_eq_true, decide_eq_true_eq]
  simp [conflictIssue]

/-- A conflict about another listing or another field is not in the journal. -/
theorem raiseConflict_untouched (override : HumanOverride) {entityId : Uuid} {factKey : String}
    (incoming : JsonScalar) (elsewhere : listingId = entityId → field.key ≠ factKey) :
    Untouched field listingId db
      (db.raiseConflictWithOverride ids override entityId factKey incoming) := by
  unfold raiseConflictWithOverride
  split
  · exact .refl field listingId db
  · refine ⟨rfl, ?_⟩
    have outside : surfacesConflict listingId field.key
        (conflictIssue (ids.uuid db.drawn) override entityId factKey incoming) = false := by
      rw [Bool.eq_false_iff, Ne, surfacesConflict_conflictIssue]
      exact fun inside => elsewhere inside.1.symm inside.2.symm
    simp [journal, List.filter_append, outside]

/-- A conflict about the field is raised unless one is open or none is wanted. -/
theorem raiseConflict_journal (override : HumanOverride) (incoming : JsonScalar) :
    ∃ issue, (db.raiseConflictWithOverride ids override listingId field.key incoming).journal field
        listingId =
      if override.reviewOnNewConflict = false ∨ (db.journal field listingId).conflicts ≠ [] then
        db.journal field listingId
      else { db.journal field listingId with conflicts := [issue] } := by
  refine ⟨conflictIssue (ids.uuid db.drawn) override listingId field.key incoming, ?_⟩
  have open_iff : db.reviewIssues.any (surfacesConflict listingId field.key) = true ↔
      (db.journal field listingId).conflicts ≠ [] := by
    simp [journal]
  unfold raiseConflictWithOverride
  by_cases silent : override.reviewOnNewConflict = false ∨
      (db.journal field listingId).conflicts ≠ []
  · rw [if_pos silent, if_pos]
    simpa [open_iff] using silent
  · rw [if_neg silent, if_neg (by simpa [open_iff] using silent)]
    have none : (db.reviewIssues.filter (surfacesConflict listingId field.key)) = [] := by
      simpa [journal] using (not_or.mp silent).2
    simp [journal, List.filter_append, none, surfacesConflict_conflictIssue]

theorem raiseConflict_column (override : HumanOverride) (entityId : Uuid) (factKey : String)
    (incoming : JsonScalar) :
    (db.raiseConflictWithOverride ids override entityId factKey incoming).column field listingId =
      db.column field listingId := by
  rw [column, listing?_congr (raiseConflict_evidenceOnly ids override _ _ _ db).listings, column]

end Database

end RentalAgent
