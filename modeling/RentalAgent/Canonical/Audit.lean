import RentalAgent.Canonical.Currentness
import RentalAgent.Canonical.FieldUpdates

/-! # The audit trail of a fact

What the evidence tables tell about a fact is the value that each of its current
resolutions points to, and whether it was ever asserted (`Database.audit`). Recording a
fact that no override governs leaves one current value, the recorded one; everything
else leaves what is told about the fact alone (`Database.Noted`).
-/

namespace RentalAgent

open Relational

/-- What the evidence tables tell about a fact. -/
structure FactAudit where
  values : List (Option JsonScalar)
  asserted : Bool
  deriving DecidableEq

/-- What is told once the value was recorded. -/
def FactAudit.ofValue (value : JsonScalar) : FactAudit := ⟨[some value], true⟩

def listingFact (listingId : Uuid) (factKey : String) : FactName := ⟨.listing, listingId, factKey⟩

namespace Database

/-- The value of the effective assertion of a resolution. -/
def effectiveValue (db : Database) (row : FactResolution) : Option JsonScalar := do
  let id ← row.effectiveAssertionId
  let assertion ← Relational.get FactAssertion.factAssertionId db.assertions id
  return assertion.valueJson

def audit (db : Database) (name : FactName) : FactAudit where
  values := (db.current name).map db.effectiveValue
  asserted := db.assertions.any fun row => row.name = name

/-- The ids of assertions and the pointers of resolutions are drawn, and every fact
that is resolved was asserted. -/
structure Grounded (ids : IdSupply) (db : Database) : Prop where
  assertions : ∀ row ∈ db.assertions, ∃ k < db.drawn, row.factAssertionId = ids.uuid k
  pointers : ∀ row ∈ db.resolutions, ∃ k < db.drawn, row.effectiveAssertionId = some (ids.uuid k)
  asserted : ∀ row ∈ db.resolutions, ∃ assertion ∈ db.assertions, assertion.name = row.name

/-- The step recorded the value for the fact, or left what is told about it alone. -/
structure Noted (ids : IdSupply) (name : FactName) (value : Option JsonScalar)
    (db next : Database) : Prop where
  grounded : Grounded ids db → Grounded ids next
  audit : Grounded ids db → next.audit name = value.elim (db.audit name) FactAudit.ofValue

/-- The step wrote neither assertions nor resolutions. -/
structure FactsKept (db next : Database) : Prop where
  assertions : next.assertions = db.assertions
  resolutions : next.resolutions = db.resolutions
  drawn : db.drawn ≤ next.drawn

variable {ids : IdSupply} {env : Environment} {now : Timestamp} {db middle next : Database}
  {name : FactName} {record : FactRecord} {listingId : Uuid} {row : SourceObservation}
  {listing : CanonicalListing} {observation : ParsedSourceObservation} {method : DiscoveryMethod}
  {outcome : NormalizationOutcome} {link : ListingSourceLink} {first second : Option JsonScalar}

theorem grounded_empty (ids : IdSupply) : Grounded ids Database.empty where
  assertions _ member := (List.not_mem_nil member).elim
  pointers _ member := (List.not_mem_nil member).elim
  asserted _ member := (List.not_mem_nil member).elim

/-- A fact that was never asserted has no current value. -/
theorem Grounded.values_of_unasserted (grounded : Grounded ids db)
    (never : (db.audit name).asserted = false) : (db.audit name).values = [] := by
  have none : db.current name = [] := by
    refine List.filter_eq_nil_iff.mpr fun row member current => ?_
    obtain ⟨assertion, asserted, named⟩ := grounded.asserted row member
    simp only [FactResolution.currentFor, Bool.and_eq_true, decide_eq_true_eq] at current
    have told := List.any_eq_false.mp never assertion asserted
    simp [named, current.1] at told
  rw [audit, none]
  rfl

/-! ## Steps -/

theorem Noted.trans (before : Noted ids name first db middle)
    (after : Noted ids name second middle next) : Noted ids name (second.or first) db next := by
  refine ⟨fun grounded => after.grounded (before.grounded grounded), fun grounded => ?_⟩
  rw [after.audit (before.grounded grounded), before.audit grounded]
  cases second <;> rfl

theorem FactsKept.refl (db : Database) : FactsKept db db := ⟨rfl, rfl, Nat.le_refl _⟩

theorem FactsKept.trans (before : FactsKept db middle) (after : FactsKept middle next) :
    FactsKept db next :=
  ⟨after.assertions.trans before.assertions, after.resolutions.trans before.resolutions,
    Nat.le_trans before.drawn after.drawn⟩

/-- A step that writes no facts notes nothing. -/
theorem FactsKept.noted (kept : FactsKept db next) : Noted ids name none db next where
  grounded grounded :=
    { assertions := fun row member => by
        obtain ⟨k, below, id⟩ := grounded.assertions row (kept.assertions ▸ member)
        exact ⟨k, Nat.lt_of_lt_of_le below kept.drawn, id⟩
      pointers := fun row member => by
        obtain ⟨k, below, pointer⟩ := grounded.pointers row (kept.resolutions ▸ member)
        exact ⟨k, Nat.lt_of_lt_of_le below kept.drawn, pointer⟩
      asserted := by
        rw [kept.assertions, kept.resolutions]
        exact grounded.asserted }
  audit _ := by
    unfold audit current effectiveValue
    rw [kept.assertions, kept.resolutions]
    rfl

/-- Steps that leave the facts alone can come before a note and after it. -/
theorem Noted.between {before after : Database} (noted : Noted ids name first before after)
    (start : FactsKept db before) (last : FactsKept after next) : Noted ids name first db next := by
  have whole := (start.noted.trans noted).trans last.noted
  simpa using whole

/-! ## Recording -/

/-- Recording a fact keeps the resolutions grounded. -/
theorem Recorded.grounded (recorded : Recorded ids now record db next)
    (grounded : Grounded ids db) : Grounded ids next := by
  have resolution : ∀ row ∈ next.resolutions, (∃ old ∈ db.resolutions,
      row.effectiveAssertionId = old.effectiveAssertionId ∧ row.name = old.name) ∨
      row.effectiveAssertionId = some (ids.uuid db.drawn) ∧ row.name = record.name := by
    intro row member
    rw [recorded.resolutions] at member
    split at member
    · rcases List.mem_append.mp member with kept | added
      · obtain ⟨old, oldMem, rfl⟩ := mem_updateWhere.mp kept
        refine .inl ⟨old, oldMem, ?_⟩
        split <;> exact ⟨rfl, rfl⟩
      · cases List.mem_singleton.mp added
        exact .inr ⟨rfl, rfl⟩
    · exact .inl ⟨row, member, rfl, rfl⟩
  refine ⟨fun row member => ?_, fun row member => ?_, fun row member => ?_⟩
  · rw [recorded.assertions] at member
    rcases List.mem_append.mp member with kept | added
    · obtain ⟨k, below, id⟩ := grounded.assertions row kept
      exact ⟨k, Nat.lt_trans below recorded.drawn, id⟩
    · cases List.mem_singleton.mp added
      exact ⟨db.drawn, recorded.drawn, rfl⟩
  · rcases resolution row member with ⟨old, oldMem, same, _⟩ | ⟨pointer, _⟩
    · obtain ⟨k, below, pointer⟩ := grounded.pointers old oldMem
      exact ⟨k, Nat.lt_trans below recorded.drawn, same.trans pointer⟩
    · exact ⟨db.drawn, recorded.drawn, pointer⟩
  · rw [recorded.assertions]
    rcases resolution row member with ⟨old, oldMem, _, same⟩ | ⟨_, named⟩
    · obtain ⟨assertion, asserted, named⟩ := grounded.asserted old oldMem
      exact ⟨assertion, List.mem_append_left _ asserted, named.trans same.symm⟩
    · exact ⟨_, List.mem_append_right _ (List.mem_singleton_self _), named.symm⟩

/-- Old pointers lead where they led. -/
theorem Recorded.effectiveValue (recorded : Recorded ids now record db next)
    (grounded : Grounded ids db) {row : FactResolution} (member : row ∈ db.resolutions) :
    next.effectiveValue row = db.effectiveValue row := by
  obtain ⟨k, below, pointer⟩ := grounded.pointers row member
  have differs : (record.assertion now (ids.uuid db.drawn)).factAssertionId ≠ ids.uuid k :=
    fun same => Nat.ne_of_gt below (ids.distinct same)
  unfold Database.effectiveValue
  rw [recorded.assertions, pointer]
  simp only [Option.bind_eq_bind, Option.bind_some, get_concat_of_ne differs]

/-- The new pointer leads to the recorded value. -/
theorem Recorded.effectiveValue_new (recorded : Recorded ids now record db next)
    (grounded : Grounded ids db) (id : Uuid) :
    next.effectiveValue (record.resolution id (ids.uuid db.drawn)) = some record.valueJson := by
  have fresh : ∀ row ∈ db.assertions,
      row.factAssertionId ≠ (record.assertion now (ids.uuid db.drawn)).factAssertionId := by
    intro row member same
    obtain ⟨k, below, drawn⟩ := grounded.assertions row member
    exact Nat.ne_of_lt below (ids.distinct (drawn.symm.trans same))
  have found : Relational.get FactAssertion.factAssertionId
      (db.assertions ++ [record.assertion now (ids.uuid db.drawn)]) (ids.uuid db.drawn) =
        some (record.assertion now (ids.uuid db.drawn)) := get_concat_self fresh
  unfold Database.effectiveValue
  simp only [FactRecord.resolution, Option.bind_eq_bind, Option.bind_some, recorded.assertions,
    found]
  rfl

/-- Recording a fact leaves the others alone. -/
theorem Recorded.audit_other (recorded : Recorded ids now record db next)
    (grounded : Grounded ids db) (differs : record.name ≠ name) :
    next.audit name = db.audit name := by
  have current : next.current name = db.current name := by
    rw [Database.current, recorded.resolutions]
    split
    · rw [List.filter_append, current_other differs.symm]
      simp [currentFor_resolution, differs, Database.current]
    · rfl
  have silent : (record.assertion now (ids.uuid db.drawn)).name ≠ name := differs
  rw [audit, audit, current, recorded.assertions, List.any_append]
  simp only [List.any_cons, List.any_nil, silent, decide_false, Bool.or_false, FactAudit.mk.injEq,
    and_true]
  exact List.map_congr_left fun row member =>
    recorded.effectiveValue grounded (List.mem_of_mem_filter member)

/-- Recording an ungoverned fact leaves the recorded value as its only current one. -/
theorem Recorded.audit_self (recorded : Recorded ids now record db next)
    (grounded : Grounded ids db)
    (free : db.activeOverride record.entityType record.entityId record.factKey = .ok none) :
    next.audit record.name = FactAudit.ofValue record.valueJson := by
  have current : next.current record.name =
      [record.resolution (ids.uuid (db.drawn + 1)) (ids.uuid db.drawn)] := by
    rw [Database.current, recorded.resolutions, if_pos free, List.filter_append, current_supersede]
    simp [currentFor_resolution]
  have named : (record.assertion now (ids.uuid db.drawn)).name = record.name := rfl
  rw [audit, current, recorded.assertions, List.any_append]
  simp [recorded.effectiveValue_new grounded, named, FactAudit.ofValue]

/-- A recorded fact is noted under its own name only. -/
theorem recordFact_noted (recorded : db.recordFact ids now record = .ok next)
    (free : record.name = name →
      db.activeOverride record.entityType record.entityId record.factKey = .ok none) :
    Noted ids name (if record.name = name then some record.valueJson else none) db next := by
  have wrote := recordFact_recorded recorded
  refine ⟨wrote.grounded, fun grounded => ?_⟩
  by_cases same : record.name = name
  · rw [if_pos same, ← same]
    exact wrote.audit_self grounded (free same)
  · rw [if_neg same]
    exact wrote.audit_other grounded same

/-- Recording an ungoverned fact notes its value. -/
theorem recordFact_noted_self (recorded : db.recordFact ids now record = .ok next)
    (free : db.activeOverride record.entityType record.entityId record.factKey = .ok none) :
    Noted ids record.name (some record.valueJson) db next := by
  have noted : Noted ids record.name
      (if record.name = record.name then some record.valueJson else none) db next :=
    recordFact_noted recorded fun _ => free
  rwa [if_pos rfl] at noted

/-- Recording a fact notes nothing about another one. -/
theorem recordFact_unnoted (recorded : db.recordFact ids now record = .ok next)
    (differs : record.name ≠ name) : Noted ids name none db next := by
  have noted := recordFact_noted recorded fun same => (differs same).elim
  rwa [if_neg differs] at noted

/-- Of several records of a fact the last one is noted. -/
theorem recordFacts_noted (name : FactName) {records : List FactRecord}
    (recorded : records.foldlM (fun db record => db.recordFact ids now record) db = .ok next)
    (free : ∀ record ∈ records, record.name = name →
      db.activeOverride record.entityType record.entityId record.factKey = .ok none) :
    Noted ids name ((records.filter (·.name = name)).getLast?.map FactRecord.valueJson) db
      next := by
  induction records generalizing db with
  | nil =>
      cases recorded
      exact (FactsKept.refl _).noted
  | cons record others ih =>
      rw [List.foldlM_cons] at recorded
      obtain ⟨middle, first, later⟩ := bind_eq_ok.mp recorded
      have here := recordFact_noted first (free record List.mem_cons_self)
      have rest := ih later fun other member named => by
        rw [activeOverride_congr (recordFact_factsOnly first).evidenceOnly.overrides]
        exact free other (List.mem_cons_of_mem _ member) named
      have whole := here.trans rest
      by_cases same : record.name = name
      · rw [if_pos same] at whole
        rw [List.filter_cons_of_pos (by simpa using same), List.getLast?_cons]
        cases last : (others.filter (·.name = name)).getLast? with
        | none => simpa [last] using whole
        | some other => simpa [last] using whole
      · rw [if_neg same, Option.or_none] at whole
        rw [List.filter_cons_of_neg (by simpa using same)]
        exact whole

/-! ## The facts of an observation -/

/-- The records of an observation about one field are what it states for it. -/
theorem listingFacts_stated (listingId : Uuid) (observation : ParsedSourceObservation)
    (row : SourceObservation) (field : ListingField) :
    (((listingFacts listingId observation row).filter
      (·.name = listingFact listingId field.key)).getLast?.map FactRecord.valueJson) =
        field.stated observation := by
  unfold listingFacts
  cases rent : observation.statedRent <;> cases layout : observation.statedLayout <;>
    cases laundry : observation.statedLaundry <;>
      cases availability : observation.statedAvailability <;>
        cases field <;>
          simp [FactRecord.name, listingFact, ListingField.key, ListingField.stated, rent, layout,
            laundry, availability]

/-- A key of no field is the key of no fact of a listing. -/
theorem listingFacts_other {factKey : String} (other : ∀ field : ListingField, factKey ≠ field.key)
    (about listingId : Uuid) (observation : ParsedSourceObservation) (row : SourceObservation) :
    (listingFacts listingId observation row).filter (·.name = listingFact about factKey) = [] := by
  refine List.filter_eq_nil_iff.mpr fun record member named => ?_
  have keyed : record.factKey = factKey := congrArg FactName.factKey (of_decide_eq_true named)
  simp only [listingFacts, List.mem_append, Option.mem_toList, Option.map_eq_some_iff] at member
  rcases member with ((⟨_, _, rfl⟩ | ⟨_, _, rfl⟩) | ⟨_, _, rfl⟩) | ⟨_, _, rfl⟩
  · exact other .rent keyed.symm
  · exact other .layout keyed.symm
  · exact other .laundry keyed.symm
  · exact other .availability keyed.symm

/-- The facts of the listing are recorded as the observation states them. -/
structure Recounted (ids : IdSupply) (observation : ParsedSourceObservation) (listingId : Uuid)
    (db next : Database) : Prop where
  stated : ∀ field : ListingField,
    Noted ids (listingFact listingId field.key) (field.stated observation) db next
  others : ∀ factKey, (∀ field : ListingField, factKey ≠ field.key) →
    Noted ids (listingFact listingId factKey) none db next

/-- Nothing is recorded about the listing. -/
def Unrecorded (ids : IdSupply) (listingId : Uuid) (db next : Database) : Prop :=
  ∀ factKey, Noted ids (listingFact listingId factKey) none db next

theorem FactsKept.unrecorded (kept : FactsKept db next) : Unrecorded ids listingId db next :=
  fun _ => kept.noted

/-- The facts of an observation are noted under the fields of its listing, each as it is stated. -/
theorem recordListingFacts_recounted
    (recorded : db.recordListingFacts env now listingId observation row = .ok next)
    (ungoverned : db.Ungoverned listingId) :
    Recounted env.ids observation listingId db next := by
  have free : ∀ record ∈ listingFacts listingId observation row,
      db.activeOverride record.entityType record.entityId record.factKey = .ok none := by
    intro record member
    obtain ⟨type, id⟩ := listingFacts_about member
    rw [type, id]
    exact ungoverned.activeOverride record.factKey
  refine ⟨fun field => ?_, fun factKey other => ?_⟩
  · have noted := recordFacts_noted (listingFact listingId field.key) recorded
      fun record member _ => free record member
    rwa [listingFacts_stated] at noted
  · have noted := recordFacts_noted (listingFact listingId factKey) recorded
      fun record member _ => free record member
    rwa [listingFacts_other other] at noted

/-- Facts of one listing are not noted under another. -/
theorem recordListingFacts_unrecorded {about : Uuid}
    (recorded : db.recordListingFacts env now listingId observation row = .ok next)
    (differs : listingId ≠ about) : Unrecorded env.ids about db next := by
  intro factKey
  have apart : ∀ record ∈ listingFacts listingId observation row,
      record.name ≠ listingFact about factKey := by
    intro record member named
    exact differs ((listingFacts_about member).2.symm.trans (congrArg FactName.entityId named))
  have noted := recordFacts_noted (listingFact about factKey) recorded
    fun record member named => (apart record member named).elim
  rwa [List.filter_eq_nil_iff.mpr (by simpa using apart)] at noted

theorem Recounted.between {before after : Database}
    (recounted : Recounted ids observation listingId before after) (start : FactsKept db before)
    (last : FactsKept after next) : Recounted ids observation listingId db next :=
  ⟨fun field => (recounted.stated field).between start last,
    fun factKey other => (recounted.others factKey other).between start last⟩

theorem Unrecorded.between {before after : Database}
    (unrecorded : Unrecorded ids listingId before after) (start : FactsKept db before)
    (last : FactsKept after next) : Unrecorded ids listingId db next :=
  fun factKey => (unrecorded factKey).between start last

/-! ## Steps that write no facts -/

theorem updateListing_factsKept (id : Uuid) (change : CanonicalListing → CanonicalListing)
    (db : Database) : FactsKept db (db.updateListing id change) := ⟨rfl, rfl, Nat.le_refl _⟩

theorem EventsOnly.factsKept (events : EventsOnly db next) : FactsKept db next :=
  ⟨by rw [events.frame], by rw [events.frame], events.drawn⟩

theorem ReviewsOnly.factsKept (reviews : ReviewsOnly db next) : FactsKept db next :=
  ⟨by rw [reviews.frame], by rw [reviews.frame], reviews.drawn⟩

theorem insertEvent_factsKept (ids : IdSupply) (event : Uuid → ListingEvent) (db : Database) :
    FactsKept db (db.insertEvent ids event).1 :=
  (insertEvent_eventsOnly ids event db).factsKept

theorem raiseConflict_factsKept (ids : IdSupply) (override : HumanOverride) (entityId : Uuid)
    (factKey : String) (incoming : JsonScalar) (db : Database) :
    FactsKept db (db.raiseConflictWithOverride ids override entityId factKey incoming) :=
  (raiseConflict_reviewsOnly ids override entityId factKey incoming db).factsKept

theorem touchFreshness_factsKept (link : ListingSourceLink) (listing : CanonicalListing)
    (row : SourceObservation) (db : Database) :
    FactsKept db (db.touchFreshness link listing row) := by
  rw [touchFreshness_frame]
  exact ⟨rfl, rfl, Nat.le_refl _⟩

/-- A step of one field keeps the facts that were recorded. -/
theorem FieldStep.factsKept {factKey : String} {eventType : ListingEventType}
    {stated : Option JsonScalar} {current : JsonScalar}
    {write : CanonicalListing → CanonicalListing} {events : List ListingEventType}
    (step : FieldStep env row listing factKey eventType stated current write db next events) :
    FactsKept db next :=
  step.within ⟨.refl, .trans⟩ (fun _ _ => raiseConflict_factsKept ..)
    (fun _ _ => insertEvent_factsKept ..) (updateListing_factsKept _ _)

theorem PlaceOnly.factsKept (place : PlaceOnly db next) : FactsKept db next :=
  ⟨by rw [place.frame], by rw [place.frame], place.drawn⟩

/-! ## One observation -/

theorem attachCrossSourceLink_factsKept (listing : CanonicalListing) (identity : IdentityMethod)
    (confidence : IdentityConfidence) :
    FactsKept db (db.attachCrossSourceLink env row listing method identity confidence).1 :=
  ⟨rfl, rfl, Nat.le_succ _⟩

/-- The listing is inserted as the observation states it, with its facts. -/
def Starts (ids : IdSupply) (row : SourceObservation) (listingId : Uuid) (db next : Database) :
    Prop :=
  db.listing? listingId = none ∧ (∃ buildingId unitId, next.listing? listingId =
      some (newListing row row.parsedPayload listingId buildingId unitId)) ∧
    Recounted ids row.parsedPayload listingId db next

/-- A new listing starts with its facts, and no other listing gets one. -/
theorem startListing_account {building : Building} {unitId : Option Uuid}
    (started : db.startListing env now row row.parsedPayload method building unitId =
      .ok (next, outcome)) (tracked : Tracked env.ids db) (ungoverned : db.Ungoverned listingId) :
    Starts env.ids row listingId db next ∨ Unrecorded env.ids listingId db next := by
  have listings := (startListing_evidenceOnly started).listings
  obtain ⟨recorded, facts, wrote⟩ := bind_eq_ok.mp started
  cases wrote
  have inserted : FactsKept db (db.startedOn env row row.parsedPayload method building unitId) :=
    ⟨rfl, rfl, Nat.le_add_right _ 2⟩
  have emitted := insertEvent_evidenceOnly env.ids (fun id => causedEvent row id
    (env.ids.uuid db.drawn) .created none (some [("lifecycle_status", .lifecycle .candidate)]))
    (db.startedOn env row row.parsedPayload method building unitId)
  have before := inserted.trans (insertEvent_factsKept env.ids (fun id => causedEvent row id
    (env.ids.uuid db.drawn) .created none (some [("lifecycle_status", .lifecycle .candidate)])) _)
  have after := (generateDuplicateCandidates_reviewsOnly env
    (newListing row row.parsedPayload (env.ids.uuid db.drawn) building.buildingId unitId) building
    recorded).factsKept
  by_cases same : env.ids.uuid db.drawn = listingId
  · subst same
    have fresh : ∀ listing ∈ db.listings, listing.canonicalListingId ≠ env.ids.uuid db.drawn :=
      fun listing member => tracked.listing_fresh member (Nat.le_refl _)
    refine .inl ⟨get_eq_none.mpr fresh, ⟨building.buildingId, unitId, ?_⟩, ?_⟩
    · rw [listing?_congr listings]
      exact get_concat_self fresh
    · have recounted := recordListingFacts_recounted facts
        (ungoverned_congr ungoverned emitted.overrides)
      exact recounted.between before after
  · exact .inr ((recordListingFacts_unrecorded facts same).between before after)

/-- A new identity starts the listing, or nothing is recorded about it. -/
theorem createCanonical_account
    (created : db.createCanonical env now row row.parsedPayload method = .ok (next, outcome))
    (tracked : Tracked env.ids db) (ungoverned : db.Ungoverned listingId) :
    Starts env.ids row listingId db next ∨ Unrecorded env.ids listingId db next := by
  obtain ⟨place, building, unitMatch, resolved, ends⟩ := createCanonical_ends created
  have placed := resolvePlace_placeOnly resolved
  rcases ends with ⟨listing, identity, confidence, attached⟩ | ⟨unitId, started⟩
  · cases attached
    exact .inr (placed.factsKept.trans (attachCrossSourceLink_factsKept _ _ _)).unrecorded
  · rcases startListing_account started (tracked.moves placed.quiet.refines)
        (ungoverned_congr ungoverned (by rw [placed.frame])) with ⟨absent, stored, facts⟩ | silent
    · exact .inl ⟨(listing?_congr placed.listings _).symm.trans absent, stored,
        facts.between placed.factsKept (.refl next)⟩
    · exact .inr (silent.between placed.factsKept (.refl next))

/-- A known identity has its facts recorded when the observation applies to the listing. -/
theorem updateExisting_account
    (updated : db.updateExisting env now row row.parsedPayload link = .ok (next, outcome))
    (known : db.findLink row = .ok (some link)) (processable : row.processable = true)
    (ungoverned : db.Ungoverned listingId) :
    (∃ listing, db.Applies row listing ∧ listing.canonicalListingId = listingId ∧
      Recounted env.ids row.parsedPayload listingId db next) ∨
    (∀ listing, db.Applies row listing → listing.canonicalListingId ≠ listingId) ∧
      Unrecorded env.ids listingId db next := by
  obtain ⟨listing, found, update⟩ := updateExisting_cases updated
  cases update with
  | replayed same =>
      refine .inr ⟨?_, (FactsKept.refl db).unrecorded⟩
      rintro _ ⟨_, other, again, _, new, _⟩
      cases known.symm.trans again
      exact (new same).elim
  | sameContent _ same =>
      refine .inr ⟨?_, (touchFreshness_factsKept link listing row db).unrecorded⟩
      rintro _ ⟨_, other, again, _, _, differs⟩
      cases known.symm.trans again
      simp [same] at differs
  | applied new differs _ _ _ _ _ =>
      obtain ⟨recorded, rented, available, washed, first, second, third, facts, rent, availability,
        laundry, wrote⟩ := updateExisting_applied found new differs updated
      have touched := touchFreshness_factsKept link listing row db
      obtain ⟨_, _, rentStep⟩ := applyField_cases rent
      obtain ⟨_, _, availabilityStep⟩ := applyField_cases availability
      obtain ⟨_, _, laundryStep⟩ := applyField_cases laundry
      have after : FactsKept recorded next := by
        refine ((rentStep.factsKept.trans availabilityStep.factsKept).trans
          laundryStep.factsKept).trans ?_
        rw [wrote]
        split
        · exact .refl washed
        · exact updateListing_factsKept _ _ washed
      have applies : db.Applies row listing := ⟨processable, link, known, found, new, differs⟩
      by_cases same : listing.canonicalListingId = listingId
      · subst same
        have overrides : (db.touchFreshness link listing row).overrides = db.overrides := by
          rw [(touchFreshness_inventoryOnly link listing row db).frame]
        exact .inl ⟨listing, applies, rfl,
          (recordListingFacts_recounted facts (ungoverned_congr ungoverned overrides)).between
            touched after⟩
      · refine .inr ⟨fun other appliesOther => ?_,
          (recordListingFacts_unrecorded facts same).between touched after⟩
        cases applies.unique appliesOther
        exact same

/-- An observation starts the listing or applies to it, or nothing is recorded about it. -/
theorem processObservation_account {observationId : Uuid}
    (processed : db.processObservation env now method observationId = .ok (next, outcome))
    (tracked : Tracked env.ids db) (ungoverned : db.Ungoverned listingId) :
    (∃ row, Starts env.ids row listingId db next) ∨
    (∃ row listing, db.observation? observationId = some row ∧ db.Applies row listing ∧
      listing.canonicalListingId = listingId ∧
        Recounted env.ids row.parsedPayload listingId db next) ∨
    (∀ row listing, db.observation? observationId = some row → db.Applies row listing →
      listing.canonicalListingId ≠ listingId) ∧ Unrecorded env.ids listingId db next := by
  obtain ⟨row, found, processes⟩ := processObservation_processes processed
  cases processes with
  | aside unparsed same =>
      cases same
      refine .inr (.inr ⟨?_, (FactsKept.refl _).unrecorded⟩)
      rintro _ _ again ⟨processable, _⟩
      cases found.symm.trans again
      exact (SourceObservation.not_processable_iff.mpr unparsed processable).elim
  | opened _ unknown created =>
      rcases createCanonical_account created tracked ungoverned with starts | silent
      · exact .inl ⟨row, starts⟩
      · refine .inr (.inr ⟨?_, silent⟩)
        rintro _ _ again ⟨_, _, known, _⟩
        cases found.symm.trans again
        cases unknown.symm.trans known
  | continued parsed known updated =>
      have processable := SourceObservation.processable_iff.mpr parsed
      rcases updateExisting_account updated known processable ungoverned with
        ⟨listing, applies, named, recounted⟩ | ⟨elsewhere, silent⟩
      · exact .inr (.inl ⟨row, listing, found, applies, named, recounted⟩)
      · refine .inr (.inr ⟨fun other listing again => ?_, silent⟩)
        cases found.symm.trans again
        exact elsewhere listing

end Database

end RentalAgent
