import RentalAgent.Enrichment.OverridePrecedence

/-! # The history of events

Each change of a field of a listing should append the event that tells of it, so that
the events of the field, replayed from the values the listing was created with, lead
to its current values. A change stays untold when the key of its event is used, as
when an earlier observation is processed again, and when a page writes the laundry
(`Database.event_history_iff`).
-/

namespace RentalAgent

open Relational Transition

/-- The value of the field before the event. -/
def ListingEvent.before? (field : ListingField) (event : ListingEvent) : Option JsonScalar :=
  event.beforeValues.bind fun values => values.lookup field.key

/-- The value of the field after the event. -/
def ListingEvent.after? (field : ListingField) (event : ListingEvent) : Option JsonScalar :=
  event.afterValues.bind fun values => values.lookup field.key

/-- The value the events lead to from the one of the creation. -/
def ListingField.replay (field : ListingField) (created : JsonScalar)
    (events : List ListingEvent) : JsonScalar :=
  events.foldl (fun value event => (event.after? field).getD value) created

theorem ListingField.replay_concat {field : ListingField} {created after : JsonScalar}
    {events : List ListingEvent} {event : ListingEvent} (tells : event.after? field = some after) :
    field.replay created (events ++ [event]) = after := by
  simp [ListingField.replay, tells]

namespace Database

variable (library : ContentLibrary)

/-- From `db` to `next` each change of a field of a listing that exists appended just one
event of its type, with the values before and after. -/
def ChangesTold (db next : Database) : Prop :=
  ∀ field listingId before after, db.column field listingId = some before →
    next.column field listingId = some after → before ≠ after →
      ∃ event, (next.journal field listingId).events =
          (db.journal field listingId).events ++ [event] ∧
        event.before? field = some before ∧ event.after? field = some after

/-- A returning call tells of each change. -/
def TellsChanges (db : Database) (action : ContentAction) : Prop :=
  ∀ next, db.performContent library action = .ok next → db.ChangesTold next

/-- From its creation on, the events of a listing lead to its current fields. -/
def ReplaysToCurrent (actions : List ContentAction) : Prop :=
  ∀ earlier action later, actions = earlier ++ action :: later →
    ∀ field listingId created, (enriched library earlier).listing? listingId = none →
      (enriched library (earlier ++ [action])).column field listingId = some created →
      (enriched library actions).column field listingId =
        some (field.replay created ((enriched library actions).journal field listingId).events)

/-- An applied observation finds the event key of each field it writes unused, and a page
that is written does not change the laundry. -/
def WritesWithEvents (db : Database) : ContentAction → Prop
  | .processObservation _ _ _ observationId => ∀ row listing,
      db.observation? observationId = some row → db.Applies row listing →
        ∀ field, field ≠ .layout → ∀ value ∈ field.stated row.parsedPayload,
          value ≠ field.column listing →
          db.activeOverride .listing listing.canonicalListingId field.key = .ok none →
            .row row.sourceObservationId ∉
              (db.journal field listing.canonicalListingId).usedKeys
  | .enrich scan _ answers listingId force => ∀ reading,
      db.readPage (library.content scan answers) listingId force = .ok (.inr reading) →
      ¬ db.RentCollides reading → ∀ laundry ∈ reading.facts.statedLaundry,
        laundry ≠ reading.listing.laundryType →
          db.activeOverride .listing listingId "laundry_type" ≠ .ok none
  | .outside _ => True

variable {library} {db next : Database} {action : ContentAction} {field : ListingField}
  {listingId : Uuid} {row : SourceObservation} {listing : CanonicalListing}
  {reading : PageReading} {now : Timestamp}

/-! ## One field -/

/-- The field kept its value and its events, or one event tells of its change. -/
inductive Told (field : ListingField) (listingId : Uuid) (db next : Database) : Prop
  | same (column : next.column field listingId = db.column field listingId)
      (events : (next.journal field listingId).events = (db.journal field listingId).events)
  | told {before after : JsonScalar} {event : ListingEvent}
      (stored : db.column field listingId = some before) (differs : before ≠ after)
      (column : next.column field listingId = some after)
      (events : (next.journal field listingId).events =
        (db.journal field listingId).events ++ [event])
      (tellsBefore : event.before? field = some before)
      (tellsAfter : event.after? field = some after)

/-- The field changed and no event tells of it. -/
structure Untold (field : ListingField) (listingId : Uuid) (db next : Database) : Prop where
  changed : ∃ before after, db.column field listingId = some before ∧
    next.column field listingId = some after ∧ before ≠ after
  events : (next.journal field listingId).events = (db.journal field listingId).events

theorem Told.not_untold (told : Told field listingId db next) :
    ¬ Untold field listingId db next := by
  rintro ⟨⟨before, after, stored, written, differs⟩, silent⟩
  cases told with
  | same column _ => exact differs (Option.some.inj (stored.symm.trans (column.symm.trans written)))
  | told _ _ _ events _ _ => simp [events] at silent

theorem Untouched.told (untouched : Untouched field listingId db next) :
    Told field listingId db next :=
  .same untouched.column (congrArg Journal.events untouched.journal)

/-- The changes are told just when none is untold. -/
theorem changesTold_iff (each : ∀ field listingId stored,
      db.column field listingId = some stored →
        Told field listingId db next ∨ Untold field listingId db next) :
    db.ChangesTold next ↔ ∀ field listingId, ¬ Untold field listingId db next := by
  constructor
  · rintro told field listingId ⟨⟨before, after, stored, written, differs⟩, silent⟩
    obtain ⟨event, events, _⟩ := told field listingId before after stored written differs
    simp [events] at silent
  · intro none field listingId before after stored written differs
    rcases each field listingId before stored with told | untold
    · cases told with
      | same column _ =>
          exact (differs (Option.some.inj (stored.symm.trans (column.symm.trans written)))).elim
      | told again _ column events tellsBefore tellsAfter =>
          cases stored.symm.trans again
          cases written.symm.trans column
          exact ⟨_, events, tellsBefore, tellsAfter⟩
    · exact (none field listingId untold).elim

/-- An update of a field tells of its change unless the event key is used. -/
theorem FieldUpdate.told_or_untold (update : FieldUpdate row field listing db next)
    (stored : db.column field listing.canonicalListingId = some (field.column listing)) :
    Told field listing.canonicalListingId db next ∨
      (∃ value ∈ field.stated row.parsedPayload, value ≠ field.column listing ∧
        db.activeOverride .listing listing.canonicalListingId field.key = .ok none ∧
          .row row.sourceObservationId ∈
            (db.journal field listing.canonicalListingId).usedKeys) ∧
        Untold field listing.canonicalListingId db next := by
  cases update with
  | kept _ untouched => exact .inl untouched.told
  | governed _ _ _ column journal =>
      refine .inl (.same column ?_)
      rw [journal]
      split <;> rfl
  | written states differs free typed column journal =>
      split at journal
      · rename_i used
        exact .inr ⟨⟨_, states, differs, free, used⟩,
          ⟨_, _, stored, column, differs.symm⟩, congrArg Journal.events journal⟩
      · refine .inl (.told stored differs.symm column (congrArg Journal.events journal) ?_ ?_)
        · simp [ListingEvent.before?, causedEvent]
        · simp [ListingEvent.after?, causedEvent]

/-- A used event key leaves the change of the field untold. -/
theorem FieldUpdate.untold (update : FieldUpdate row field listing db next)
    (stored : db.column field listing.canonicalListingId = some (field.column listing))
    {value : JsonScalar} (states : field.stated row.parsedPayload = some value)
    (differs : value ≠ field.column listing)
    (free : db.activeOverride .listing listing.canonicalListingId field.key = .ok none)
    (used : .row row.sourceObservationId ∈
      (db.journal field listing.canonicalListingId).usedKeys) :
    Untold field listing.canonicalListingId db next := by
  cases update with
  | kept agrees _ => exact (differs (agrees value states)).elim
  | governed _ _ governs _ _ => cases free.symm.trans governs
  | written _ other _ _ column journal =>
      rw [if_pos used] at journal
      exact ⟨⟨_, _, stored, column, other.symm⟩, congrArg Journal.events journal⟩

/-- A corrected rent is told by one event, or nothing changes. -/
theorem PageRent.told (rent : PageRent now listing reading.facts db next)
    (stored : db.column .rent listing.canonicalListingId =
      some (ListingField.rent.column listing)) :
    Told .rent listing.canonicalListingId db next := by
  cases rent with
  | kept _ untouched => exact untouched.told
  | written states differs _ _ column journal =>
      rename_i usd id
      refine .told stored ?_ column (congrArg Journal.events journal) ?_ ?_
      · intro same
        cases held : listing.monthlyRentMinor with
        | none => simp [ListingField.column, held] at same
        | some rent =>
            simp only [ListingField.column, held, Option.elim_some, JsonScalar.number.injEq] at same
            exact differs (by rw [held, same])
      · simp [ListingEvent.before?, pageRentEvent, ListingField.key, ListingField.column]
      · simp [ListingEvent.after?, pageRentEvent, ListingField.key]

/-- A page that writes another laundry leaves the change untold. -/
theorem PageLaundry.told_or_untold (laundry : PageLaundry listing reading.facts db next)
    (stored : db.column .laundry listing.canonicalListingId =
      some (ListingField.laundry.column listing)) :
    Told .laundry listing.canonicalListingId db next ∨
      (∃ laundry ∈ reading.facts.statedLaundry, laundry ≠ listing.laundryType ∧
        db.activeOverride .listing listing.canonicalListingId "laundry_type" = .ok none) ∧
        Untold .laundry listing.canonicalListingId db next := by
  cases laundry with
  | unstated _ untouched => exact .inl untouched.told
  | governed _ _ column journal =>
      refine .inl (.same column ?_)
      rw [journal]
      split <;> rfl
  | written states free column journal =>
      rename_i laundry
      by_cases same : laundry = listing.laundryType
      · refine .inl (.same (column.trans ?_) (congrArg Journal.events journal))
        rw [stored, same]
        rfl
      · refine .inr ⟨⟨laundry, states, same, free⟩, ⟨_, _, stored, column, fun equal => ?_⟩,
          congrArg Journal.events journal⟩
        exact same (JsonScalar.laundry.inj equal).symm

/-- A laundry that a page writes over another one is told by no event. -/
theorem PageLaundry.untold (page : PageLaundry listing reading.facts db next)
    (stored : db.column .laundry listing.canonicalListingId =
      some (ListingField.laundry.column listing)) {laundry : LaundryType}
    (states : reading.facts.statedLaundry = some laundry)
    (differs : laundry ≠ listing.laundryType)
    (free : db.activeOverride .listing listing.canonicalListingId "laundry_type" = .ok none) :
    Untold .laundry listing.canonicalListingId db next := by
  cases page with
  | unstated silent _ => cases silent.symm.trans states
  | governed _ governs _ _ => cases free.symm.trans governs
  | written again _ column journal =>
      cases states.symm.trans again
      refine ⟨⟨_, _, stored, column, fun equal => ?_⟩, congrArg Journal.events journal⟩
      exact differs (JsonScalar.laundry.inj equal).symm

/-! ## One call -/

/-- What a returning call leaves untold is what it writes without an event. -/
theorem performContent_told (performed : db.performContent library action = .ok next)
    {stored : JsonScalar} (held : db.column field listingId = some stored) :
    Told field listingId db next ∨
      ¬ db.WritesWithEvents library action ∧ Untold field listingId db next := by
  obtain ⟨target, found, _⟩ := Option.map_eq_some_iff.mp held
  rcases performContent_cases performed with
    ⟨scan, now, method, observationId, outcome, rfl, processed⟩ |
    ⟨scan, now, answers, listingId', force, outcome, rfl, enriched⟩ | ⟨write, _, _, rfl⟩
  · rcases processObservation_fields processed with
      ⟨row, listing, exists_, applies, others, fields⟩ | ⟨_, untouched⟩
    · by_cases inside : listingId = listing.canonicalListingId ∧ field ≠ .layout
      · obtain ⟨rfl, notLayout⟩ := inside
        obtain ⟨link, -, linked, -⟩ := applies.2
        have named : listing.canonicalListingId = link.canonicalListingId := key_of_get linked
        rcases (fields field notLayout).told_or_untold
            (column_of_found (named ▸ linked) field) with told | ⟨⟨value, states, differs, free,
              used⟩, untold⟩
        · exact .inl told
        · refine .inr ⟨fun writes => ?_, untold⟩
          exact writes row listing exists_ applies field notLayout value states differs free used
      · exact .inl (others field listingId
          fun same => by_contra fun other => inside ⟨same, other⟩).told
    · exact .inl ((untouched field listingId).2 target found).told
  · rcases enrich_fields enriched with ⟨rfl, _⟩ | ⟨reading, read, stored, rfl, fields⟩
    · exact .inl (Untouched.refl field listingId next).told
    · by_cases same : listingId = reading.listing.canonicalListingId
      · subst same
        cases field with
        | layout => exact .inl (fields.others .layout _ fun _ => .inl rfl).told
        | availability => exact .inl (fields.others .availability _ fun _ => .inr rfl).told
        | rent => exact .inl (fields.rent.told (column_of_found stored .rent))
        | laundry =>
            rcases fields.laundry.told_or_untold (column_of_found stored .laundry) with
              told | ⟨⟨laundry, states, differs, free⟩, untold⟩
            · exact .inl told
            · refine .inr ⟨fun writes => ?_, untold⟩
              exact writes reading read fields.not_collides laundry states differs free
      · exact .inl (fields.others field listingId fun equal => (same equal).elim).told
  · have same : Untouched field listingId db (db.writeOutside write) := untouched_congr rfl rfl rfl
    exact .inl same.told

/-- A returning call tells of its changes just when it writes with events. -/
theorem tells_iff_writes (unique : OneActiveOverride db.overrides) (action : ContentAction) :
    db.TellsChanges library action ↔ db.WritesWithEvents library action := by
  have told_iff (next : Database) (performed : db.performContent library action = .ok next) :
      db.ChangesTold next ↔ ∀ field listingId, ¬ Untold field listingId db next :=
    changesTold_iff fun _ _ _ held => (performContent_told performed held).imp_right And.right
  constructor
  · intro tells
    cases action with
    | outside write => trivial
    | processObservation scan now method observationId =>
        intro row listing found applies field notLayout value states differs free used
        obtain ⟨next, outcome, processed⟩ := processObservation_ok (library.environment scan) now
          method found applies (answered_of_unique unique _)
        have performed : db.performContent library
            (.processObservation scan now method observationId) = .ok next := by
          rw [performContent, processed]
          rfl
        obtain ⟨link, -, linked, -⟩ := applies.2
        have named : listing.canonicalListingId = link.canonicalListingId := key_of_get linked
        rcases processObservation_fields processed with
          ⟨other, target, again, appliesAgain, _, fields⟩ | ⟨idle, _⟩
        · cases found.symm.trans again
          cases applies.unique appliesAgain
          exact (told_iff next performed).mp (tells next performed) field _
            ((fields field notLayout).untold (column_of_found (named ▸ linked) field) states differs
              free used)
        · exact idle row found listing applies
    | enrich scan now answers listingId force =>
        intro reading read clear laundry states differs free
        obtain ⟨next, outcome, enriched⟩ := enrich_ok read now (answered_of_unique unique _) clear
        have performed : db.performContent library (.enrich scan now answers listingId force) =
            .ok next := by
          rw [performContent, enriched]
          rfl
        rcases enrich_fields enriched with ⟨_, idle⟩ | ⟨other, again, stored, rfl, fields⟩
        · exact idle reading read
        · cases read.symm.trans again
          exact (told_iff next performed).mp (tells next performed) .laundry _
            (fields.laundry.untold (column_of_found stored .laundry) states differs free)
  · intro writes next performed
    refine (told_iff next performed).mpr fun field listingId untold => ?_
    obtain ⟨before, _, stored, _⟩ := untold.changed
    rcases performContent_told performed stored with told | ⟨silent, _⟩
    · exact told.not_untold untold
    · exact silent writes

/-! ## Replaying the events -/

/-- A call writes no event about a listing that is not there. -/
theorem journal_of_absent (performed : db.performContent library action = .ok next)
    (absent : db.listing? listingId = none) :
    next.journal field listingId = db.journal field listingId := by
  have outside : ∀ {listing : CanonicalListing} {other : Uuid}, db.listing? other = some listing →
      listingId ≠ listing.canonicalListingId := by
    rintro listing other found rfl
    obtain rfl : listing.canonicalListingId = other := key_of_get found
    cases absent.symm.trans found
  rcases performContent_cases performed with
    ⟨_, _, _, _, _, _, processed⟩ | ⟨_, _, _, _, _, _, _, enriched⟩ | ⟨write, _, _, rfl⟩
  · rcases processObservation_fields processed with
      ⟨row, listing, _, ⟨_, _, _, linked, _⟩, others, _⟩ | ⟨_, untouched⟩
    · exact (others field listingId fun same => (outside linked same).elim).journal
    · exact (untouched field listingId).1
  · rcases enrich_fields enriched with ⟨rfl, _⟩ | ⟨reading, _, stored, _, fields⟩
    · rfl
    · exact (fields.others field listingId fun same => (outside stored same).elim).journal
  · rfl

/-- Listings stay. -/
theorem column_stays (performed : db.performContent library action = .ok next)
    {stored : JsonScalar} (held : db.column field listingId = some stored) :
    ∃ later, next.column field listingId = some later := by
  rcases performContent_told performed held with told | ⟨_, untold⟩
  · cases told with
    | same column _ => exact ⟨stored, column.trans held⟩
    | told _ _ column _ _ _ => exact ⟨_, column⟩
  · obtain ⟨_, later, _, column, _⟩ := untold.changed
    exact ⟨later, column⟩

/-- A listing that is still to be created has no events. -/
def NoEventsAhead (db : Database) : Prop :=
  ∀ field listingId, db.listing? listingId = none → (db.journal field listingId).events = []

/-- No action writes an event about a listing that is still to be created. -/
theorem noEventsAhead_preserved :
    Preserved (contentStep library) (fun _ _ => True) NoEventsAhead := by
  intro db action ahead _
  refine contentStep_keeps NoEventsAhead ahead fun next performed field listingId absent => ?_
  have before : db.listing? listingId = none := by
    cases found : db.listing? listingId with
    | none => rfl
    | some listing =>
        obtain ⟨later, column⟩ := column_stays performed (column_of_found found field)
        rw [column_none absent] at column
        cases column
  rw [journal_of_absent performed before]
  exact ahead field listingId before

/-- Once the events lead to the field, calls that tell of their changes keep it so. -/
theorem replay_preserved (library : ContentLibrary) (field : ListingField) (listingId : Uuid)
    (created : JsonScalar) :
    Preserved (contentStep library) (fun db action => db.TellsChanges library action) fun db =>
      db.column field listingId =
        some (field.replay created (db.journal field listingId).events) := by
  intro db action leads tells
  refine contentStep_keeps (fun db => db.column field listingId =
    some (field.replay created (db.journal field listingId).events)) leads fun next performed => ?_
  rcases performContent_told performed leads with told | ⟨_, untold⟩
  · cases told with
    | same column events => rw [column, events, leads]
    | told _ _ column events _ tellsAfter =>
        rw [column, events, ListingField.replay_concat tellsAfter]
  · obtain ⟨before, after, stored, written, differs⟩ := untold.changed
    obtain ⟨event, events, _⟩ :=
      tells next performed field listingId before after stored written differs
    exact absurd untold.events (by simp [events])

/-- **Event history.** In a run of the two pipelines every change of a rent, a layout, an
availability or a laundry is told by just one event with the values before and after,
and the events of each listing lead from its creation to its current values, just when
every applied observation finds its event keys unused and no page changes a laundry. -/
theorem event_history_iff (library : ContentLibrary) (actions : List ContentAction) :
    (Permitted (contentStep library) (TellsChanges library) Database.empty actions ∧
      ReplaysToCurrent library actions) ↔
    Permitted (contentStep library) (WritesWithEvents library) Database.empty actions := by
  have every : Permitted (contentStep library) (fun _ _ => True) Database.empty actions :=
    fun _ _ => trivial
  have each : Permitted (contentStep library) (TellsChanges library) Database.empty actions ↔
      Permitted (contentStep library) (WritesWithEvents library) Database.empty actions :=
    permitted_congr (fun db action unique _ => uniqueOverrides_preserved db action unique trivial)
      (fun db action unique _ => tells_iff_writes unique action) uniqueIndex_nil every
  rw [← each, and_iff_left_iff_imp]
  rintro tells earlier action later rfl field listingId created absent start
  obtain ⟨_, rest⟩ := (permitted_append _ _ _).mp tells
  have ahead : NoEventsAhead (enriched library earlier) :=
    noEventsAhead_preserved.run (fun _ _ _ => rfl) fun _ _ => trivial
  rw [enriched, run_append] at start
  have first : ((enriched library earlier).contentStep library action).column field listingId =
      some (field.replay created (((enriched library earlier).contentStep library action).journal
        field listingId).events) := by
    have silent : (((enriched library earlier).contentStep library action).journal field
        listingId).events = [] := by
      refine contentStep_keeps (fun db => (db.journal field listingId).events = [])
        (ahead field listingId absent) fun next performed => ?_
      rw [journal_of_absent performed absent]
      exact ahead field listingId absent
    rw [silent]
    exact start
  rw [enriched, run_append, run_cons]
  exact (replay_preserved library field listingId created).run first
    ((permitted_cons _ _ _).mp rest).2

/-! ## Changes that no event tells of -/

/-- An observation is processed again after another rent was seen. -/
def rentReturns : List ContentAction :=
  [.outside (outsideWrite [rentSeen 1 0 100 "x", rentSeen 2 10 200 "y", rentSeen 3 20 100 "z"] []),
    .processObservation (fun _ => 0) 0 .direct 1, .processObservation (fun _ => 0) 0 .direct 2,
    .processObservation (fun _ => 0) 0 .direct 3]

/-- Processing the second observation again writes its rent without an event, and so does
a page that states a laundry. -/
theorem changes_untold :
    let before := enriched asciiLibrary rentReturns
    let replayed := before.contentStep asciiLibrary (.processObservation (fun _ => 0) 0 .direct 2)
    let washed := before.contentStep asciiLibrary
      (enrichStating 102 { laundryType := "BUILDING_SHARED_LAUNDRY" })
    (before.column .rent 102 = some (.number 100) ∧
      replayed.column .rent 102 = some (.number 200) ∧ replayed.events = before.events) ∧
    (before.column .laundry 102 = some (.laundry .unknown) ∧
      washed.column .laundry 102 = some (.laundry .buildingSharedLaundry) ∧
        washed.events = before.events) ∧
    ¬ Permitted (contentStep asciiLibrary) (TellsChanges asciiLibrary) Database.empty
      (rentReturns ++ [.processObservation (fun _ => 0) 0 .direct 2]) := by
  intro before replayed washed
  have stored : before.column .rent 102 = some (.number 100) := by decide
  have written : replayed.column .rent 102 = some (.number 200) := by decide
  have events : replayed.events = before.events := by decide
  refine ⟨⟨stored, written, events⟩, by decide, fun permitted => ?_⟩
  obtain ⟨_, later⟩ := (permitted_append _ _ _).mp permitted
  have performed : before.performContent asciiLibrary
      (.processObservation (fun _ => 0) 0 .direct 2) = .ok replayed := by decide
  obtain ⟨event, appended, _⟩ := ((permitted_cons _ _ _).mp later).1 replayed performed .rent 102
    _ _
    stored written (by decide)
  have same : (replayed.journal .rent 102).events = (before.journal .rent 102).events := by
    simp only [journal, events]
  rw [same] at appended
  have length := congrArg List.length appended
  rw [List.length_append, List.length_singleton] at length
  exact Nat.succ_ne_self _ length.symm

end Database

end RentalAgent
