import RentalAgent.Enrichment.OverridePrecedence
import RentalAgent.Enrichment.PageFacts

/-! # Facts and columns

The current resolutions of a field should lead to the value of its column, and the facts
of the field should have one key. Both hold through a run just when no observation that
applies to the listing states another layout, whose fact is recorded while the column stays, and
the rent, which observations record under `"monthly_rent_minor"` and pages under
`"monthly_rent"`, is recorded under one of them only (`Database.columns_accounted_iff`).
-/

namespace RentalAgent

open Relational Transition

/-- The keys under which the pipelines record facts of the field. -/
def ListingField.factKeys : ListingField → List String
  | .rent => [ListingField.rent.key, "monthly_rent"]
  | field => [field.key]

/-- The action brings no active override of the listing. -/
def ContentAction.spares (listingId : Uuid) : ContentAction → Prop
  | .outside write => ∀ override ∈ write.overrides, override.entityType = .listing →
      override.entityId = listingId → override.overrideStatus ≠ .active
  | .processObservation .. | .enrich .. => True

namespace Database

variable (library : ContentLibrary)

/-- The current values under the key are the one of the column. -/
def TellsColumn (db : Database) (field : ListingField) (factKey : String) (listingId : Uuid) :
    Prop :=
  ∀ value ∈ (db.audit (listingFact listingId factKey)).values,
    ∃ stored, value = some stored ∧ db.column field listingId = some stored

/-- The current resolutions of each field of the listing lead to its column, and the
facts of the field have one key. -/
structure Accounted (db : Database) (listingId : Uuid) : Prop where
  values : ∀ field : ListingField, ∀ factKey ∈ field.factKeys,
    db.TellsColumn field factKey listingId
  oneKey : ∀ field : ListingField, ∀ first ∈ field.factKeys, ∀ second ∈ field.factKeys,
    (db.audit (listingFact listingId first)).asserted = true →
      (db.audit (listingFact listingId second)).asserted = true → first = second

/-- An observation that applies to the listing states its layout or none, and a rent only
when no page recorded one; a page corrects the rent only when no observation recorded
one. -/
def KeepsAccount (db : Database) (listingId : Uuid) : ContentAction → Prop
  | .processObservation _ _ _ observationId => ∀ row listing,
      db.observation? observationId = some row → db.Applies row listing →
        listing.canonicalListingId = listingId →
          (∀ layout ∈ row.parsedPayload.statedLayout, layout = listing.layoutClass) ∧
            (row.parsedPayload.statedRent ≠ none →
              (db.audit (listingFact listingId "monthly_rent")).asserted = false)
  | .enrich scan _ answers paged force => ∀ reading,
      db.readPage (library.content scan answers) paged force = .ok (.inr reading) →
        ¬ db.RentCollides reading → paged = listingId → reading.correction ≠ none →
          (db.audit (listingFact listingId "monthly_rent_minor")).asserted = false
  | .outside _ => True

variable {library} {ids : IdSupply} {now : Timestamp} {db middle next : Database}
  {action : ContentAction} {field : ListingField} {listingId : Uuid} {factKey : String}
  {row : SourceObservation} {listing : CanonicalListing} {reading : PageReading}
  {observation : ParsedSourceObservation}

/-! ## Accounts -/

/-- A listing is accounted for when the facts of every field tell its column, and the rent is not
told under both of its names. -/
theorem accounted_iff : db.Accounted listingId ↔
    (∀ field : ListingField, db.TellsColumn field field.key listingId) ∧
      db.TellsColumn .rent "monthly_rent" listingId ∧
        ((db.audit (listingFact listingId "monthly_rent_minor")).asserted = false ∨
          (db.audit (listingFact listingId "monthly_rent")).asserted = false) := by
  constructor
  · rintro ⟨values, oneKey⟩
    refine ⟨fun field => values field field.key ?_, values .rent "monthly_rent" (by decide), ?_⟩
    · cases field <;> decide
    · by_contra both
      obtain ⟨minor, monthly⟩ := not_or.mp both
      exact absurd (oneKey .rent _ (by decide) _ (by decide) (Bool.not_eq_false _ ▸ minor)
        (Bool.not_eq_false _ ▸ monthly)) (by decide : "monthly_rent_minor" ≠ "monthly_rent")
  · rintro ⟨values, monthly, apart⟩
    refine ⟨fun field factKey member => ?_, fun field first firstMem second secondMem => ?_⟩
    · cases field <;> simp only [ListingField.factKeys, List.mem_cons, List.not_mem_nil, or_false]
        at member
      · rcases member with rfl | rfl
        · exact values .rent
        · exact monthly
      · exact member ▸ values .layout
      · exact member ▸ values .availability
      · exact member ▸ values .laundry
    · cases field <;> simp only [ListingField.factKeys, List.mem_cons, List.not_mem_nil, or_false]
        at firstMem secondMem
      · intro firstAsserted secondAsserted
        rcases firstMem with rfl | rfl <;> rcases secondMem with rfl | rfl
        · rfl
        · simp [ListingField.key] at firstAsserted
          simp [firstAsserted, secondAsserted] at apart
        · simp [ListingField.key] at secondAsserted
          simp [firstAsserted, secondAsserted] at apart
        · rfl
      · exact fun _ _ => firstMem.trans secondMem.symm
      · exact fun _ _ => firstMem.trans secondMem.symm
      · exact fun _ _ => firstMem.trans secondMem.symm

theorem tellsColumn_congr
    (audit : next.audit (listingFact listingId factKey) = db.audit (listingFact listingId factKey))
    (column : next.column field listingId = db.column field listingId) :
    next.TellsColumn field factKey listingId ↔ db.TellsColumn field factKey listingId := by
  rw [TellsColumn, audit, column, TellsColumn]

theorem tellsColumn_of_values_nil
    (none : (db.audit (listingFact listingId factKey)).values = []) :
    db.TellsColumn field factKey listingId := by
  simp [TellsColumn, none]

/-- A value just recorded is told when it is the one of the column. -/
theorem tellsColumn_ofValue {value : JsonScalar}
    (audit : db.audit (listingFact listingId factKey) = .ofValue value) :
    db.TellsColumn field factKey listingId ↔ db.column field listingId = some value := by
  simp [TellsColumn, audit, FactAudit.ofValue]

/-- Recording what the column is set to keeps the account of the key. -/
theorem Noted.tellsColumn {value : Option JsonScalar} (grounded : Grounded ids db)
    (noted : Noted ids (listingFact listingId factKey) value db next)
    (column : next.column field listingId = value.or (db.column field listingId))
    (told : db.TellsColumn field factKey listingId) :
    next.TellsColumn field factKey listingId := by
  have audit := noted.audit grounded
  cases value with
  | none => exact (tellsColumn_congr audit column).mpr told
  | some value => exact (tellsColumn_ofValue audit).mpr column

/-! ## Observations -/

/-- A new listing has what the observation states. -/
theorem newListing_column {buildingId : Uuid} {unitId : Option Uuid} {value : JsonScalar}
    (states : field.stated row.parsedPayload = some value) :
    field.column (newListing row row.parsedPayload listingId buildingId unitId) = value := by
  cases field with
  | rent =>
      obtain ⟨rent, stated, rfl⟩ := Option.map_eq_some_iff.mp states
      have priced : row.parsedPayload.pricing.monthlyRentMinor = some rent := stated
      simp [ListingField.column, newListing, priced]
  | layout =>
      obtain ⟨layout, stated, rfl⟩ := Option.map_eq_some_iff.mp states
      exact congrArg JsonScalar.layout (Option.some.inj (Option.ite_none_left_eq_some.mp stated).2)
  | availability =>
      obtain ⟨status, stated, rfl⟩ := Option.map_eq_some_iff.mp states
      exact congrArg JsonScalar.availability
        (Option.some.inj (Option.ite_none_left_eq_some.mp stated).2)
  | laundry =>
      obtain ⟨laundry, stated, rfl⟩ := Option.map_eq_some_iff.mp states
      exact congrArg JsonScalar.laundry (Option.some.inj (Option.ite_none_left_eq_some.mp stated).2)

/-- A listing is started with its columns accounted for. -/
theorem Starts.accounted (starts : Starts ids row listingId db next) (grounded : Grounded ids db)
    (ahead : ∀ factKey, db.audit (listingFact listingId factKey) = ⟨[], false⟩) :
    next.Accounted listingId := by
  obtain ⟨_, ⟨buildingId, unitId, stored⟩, recounted⟩ := starts
  have monthly : next.audit (listingFact listingId "monthly_rent") = ⟨[], false⟩ :=
    ((recounted.others "monthly_rent" fun field => by cases field <;> decide).audit grounded).trans
      (ahead "monthly_rent")
  refine accounted_iff.mpr ⟨fun field => ?_, tellsColumn_of_values_nil (by rw [monthly]),
    .inr (by rw [monthly])⟩
  have audit := (recounted.stated field).audit grounded
  cases states : field.stated row.parsedPayload with
  | none =>
      rw [states, Option.elim_none, ahead] at audit
      exact tellsColumn_of_values_nil (by rw [audit])
  | some value =>
      rw [states] at audit
      refine (tellsColumn_ofValue audit).mpr ?_
      rw [column_of_found stored, newListing_column states]

/-- An update of an ungoverned field sets its column to what is stated. -/
theorem FieldUpdate.column_ungoverned (update : FieldUpdate row field listing db next)
    (ungoverned : db.Ungoverned listing.canonicalListingId)
    (stored : db.column field listing.canonicalListingId = some (field.column listing)) :
    next.column field listing.canonicalListingId =
      (field.stated row.parsedPayload).or (db.column field listing.canonicalListingId) := by
  cases update with
  | kept agrees untouched =>
      rw [untouched.column]
      cases states : field.stated row.parsedPayload with
      | none => rfl
      | some value =>
          rw [stored, agrees value states]
          rfl
  | governed _ _ governs _ _ => cases (ungoverned.activeOverride _).symm.trans governs
  | written states _ _ _ column _ =>
      rw [column, states]
      rfl

/-- An observation that applies to the listing keeps it accounted for just when it
states its layout, and a rent only when no page recorded one. -/
theorem Recounted.accounted_iff (recounted : Recounted ids observation listingId db next)
    (grounded : Grounded ids db) (accounted : db.Accounted listingId)
    (columns : ∀ field : ListingField, field ≠ .layout →
      next.column field listingId = (field.stated observation).or (db.column field listingId))
    (layout : next.column .layout listingId = db.column .layout listingId)
    {stored : LayoutClass} (held : db.column .layout listingId = some (.layout stored)) :
    next.Accounted listingId ↔
      (∀ layout ∈ observation.statedLayout, layout = stored) ∧
        (observation.statedRent ≠ none →
          (db.audit (listingFact listingId "monthly_rent")).asserted = false) := by
  obtain ⟨told, monthly, apart⟩ := Database.accounted_iff.mp accounted
  have layoutAudit := (recounted.stated .layout).audit grounded
  have rentAudit := (recounted.stated .rent).audit grounded
  have monthlyNoted := recounted.others "monthly_rent" fun field => by cases field <;> decide
  have monthlyAudit : next.audit (listingFact listingId "monthly_rent") =
      db.audit (listingFact listingId "monthly_rent") := monthlyNoted.audit grounded
  rw [Database.accounted_iff]
  constructor
  · rintro ⟨toldAfter, _, apartAfter⟩
    refine ⟨fun stated states => ?_, fun states => ?_⟩
    · have noted : next.audit (listingFact listingId ListingField.layout.key) =
          .ofValue (.layout stated) := by
        rw [layoutAudit, ListingField.stated, Option.mem_def.mp states]
        rfl
      have told := (tellsColumn_ofValue noted).mp (toldAfter .layout)
      rw [layout, held] at told
      exact (JsonScalar.layout.inj (Option.some.inj told)).symm
    · obtain ⟨rent, stated⟩ := Option.ne_none_iff_exists'.mp states
      have noted : next.audit (listingFact listingId "monthly_rent_minor") =
          .ofValue (.number rent) := by
        change next.audit (listingFact listingId ListingField.rent.key) = _
        rw [rentAudit, ListingField.stated, stated]
        rfl
      rw [noted, monthlyAudit] at apartAfter
      exact apartAfter.resolve_left (by simp [FactAudit.ofValue])
  · rintro ⟨sameLayout, rentUnpaged⟩
    refine ⟨fun field => ?_, ?_, ?_⟩
    · by_cases isLayout : field = .layout
      · subst isLayout
        refine (recounted.stated .layout).tellsColumn grounded ?_ (told .layout)
        rw [layout, ListingField.stated]
        cases states : observation.statedLayout with
        | none => rfl
        | some stated => rw [held, sameLayout stated states]; rfl
      · exact (recounted.stated field).tellsColumn grounded (columns field isLayout) (told field)
    · cases states : observation.statedRent with
      | none =>
          refine monthlyNoted.tellsColumn grounded ?_ monthly
          rw [columns .rent (by decide), ListingField.stated, states]
          rfl
      | some rent =>
          refine tellsColumn_of_values_nil ?_
          rw [monthlyAudit]
          exact grounded.values_of_unasserted (rentUnpaged (by simp [states]))
    · rw [monthlyAudit]
      cases states : observation.statedRent with
      | none =>
          have same : next.audit (listingFact listingId "monthly_rent_minor") =
              db.audit (listingFact listingId "monthly_rent_minor") := by
            change next.audit (listingFact listingId ListingField.rent.key) = _
            rw [rentAudit, ListingField.stated, states]
            rfl
          rw [same]
          exact apart
      | some rent => exact .inr (rentUnpaged (by simp [states]))

/-! ## Pages -/

/-- A page keeps its listing accounted for just when it corrects no rent that an
observation recorded. -/
theorem PageNoted.accounted_iff (noted : PageNoted ids reading listingId db next)
    (grounded : Grounded ids db) (accounted : db.Accounted listingId)
    (rent : next.column .rent listingId =
      (reading.correction.map .number).or (db.column .rent listingId))
    (laundry : next.column .laundry listingId =
      (reading.facts.statedLaundry.map .laundry).or (db.column .laundry listingId))
    (others : ∀ field, field ≠ .rent → field ≠ .laundry →
      next.column field listingId = db.column field listingId) :
    next.Accounted listingId ↔ (reading.correction ≠ none →
      (db.audit (listingFact listingId "monthly_rent_minor")).asserted = false) := by
  obtain ⟨told, monthly, apart⟩ := Database.accounted_iff.mp accounted
  have minorNoted := noted.others .rent (by decide)
  have minorAudit : next.audit (listingFact listingId "monthly_rent_minor") =
      db.audit (listingFact listingId "monthly_rent_minor") := minorNoted.audit grounded
  have monthlyAudit := noted.rent.audit grounded
  rw [Database.accounted_iff]
  constructor
  · rintro ⟨_, _, apartAfter⟩ corrects
    obtain ⟨minor, corrected⟩ := Option.ne_none_iff_exists'.mp corrects
    rw [corrected] at monthlyAudit
    rw [minorAudit, monthlyAudit] at apartAfter
    exact apartAfter.resolve_right (by simp [FactAudit.ofValue])
  · intro unobserved
    refine ⟨fun field => ?_, noted.rent.tellsColumn grounded rent monthly, ?_⟩
    · cases field with
      | rent =>
          cases corrected : reading.correction with
          | none =>
              refine minorNoted.tellsColumn grounded ?_ (told .rent)
              rw [rent, corrected]
              rfl
          | some minor =>
              refine tellsColumn_of_values_nil ?_
              change (next.audit (listingFact listingId "monthly_rent_minor")).values = []
              rw [minorAudit]
              exact grounded.values_of_unasserted (unobserved (by simp [corrected]))
      | layout =>
          exact (noted.others .layout (by decide)).tellsColumn grounded
            (others .layout (by decide) (by decide)) (told .layout)
      | availability =>
          exact (noted.others .availability (by decide)).tellsColumn grounded
            (others .availability (by decide) (by decide)) (told .availability)
      | laundry => exact noted.laundry.tellsColumn grounded laundry (told .laundry)
    · rw [minorAudit, monthlyAudit]
      cases corrected : reading.correction with
      | none => exact apart
      | some minor => exact .inl (unobserved (by simp [corrected]))

/-- The rent of an ungoverned listing is corrected. -/
theorem PageRent.column_ungoverned (rent : PageRent now reading.listing reading.facts db next)
    (ungoverned : db.Ungoverned reading.listing.canonicalListingId) :
    next.column .rent reading.listing.canonicalListingId =
      (reading.correction.map .number).or
        (db.column .rent reading.listing.canonicalListingId) := by
  cases rent with
  | kept keeps untouched =>
      have uncorrected : reading.correction = none := by
        refine Option.filter_eq_none_iff.mpr fun minor stated => ?_
        obtain ⟨usd, states, rfl⟩ := Option.map_eq_some_iff.mp stated
        have same := (keeps usd states).resolve_right fun governed =>
          governed (ungoverned.activeOverride _)
        simp [same]
      rw [untouched.column, uncorrected]
      rfl
  | written states differs _ _ column _ =>
      rw [PageReading.correction, states, Option.map_some, Option.filter_some_pos (by simpa)]
      exact column

/-- The laundry of an ungoverned listing is set to the stated one. -/
theorem PageLaundry.column_ungoverned (laundry : PageLaundry reading.listing reading.facts db next)
    (ungoverned : db.Ungoverned reading.listing.canonicalListingId) :
    next.column .laundry reading.listing.canonicalListingId =
      (reading.facts.statedLaundry.map .laundry).or
        (db.column .laundry reading.listing.canonicalListingId) := by
  cases laundry with
  | unstated silent untouched =>
      rw [untouched.column, silent]
      rfl
  | governed _ governs _ _ => cases (ungoverned.activeOverride _).symm.trans governs
  | written states _ column _ =>
      rw [column, states]
      rfl

/-! ## One call -/

/-- A listing that is still to be started has no facts. -/
def NoFactsAhead (listingId : Uuid) (db : Database) : Prop :=
  db.listing? listingId = none → ∀ factKey, db.audit (listingFact listingId factKey) = ⟨[], false⟩

/-- What the accounts of the listing rest on besides its columns. -/
structure Audited (ids : IdSupply) (listingId : Uuid) (db : Database) : Prop where
  grounded : Grounded ids db
  tracked : Tracked ids db
  ungoverned : db.Ungoverned listingId
  ahead : NoFactsAhead listingId db

theorem noFactsAhead_of_found (found : next.listing? listingId = some listing) :
    NoFactsAhead listingId next := fun absent => by
  cases absent.symm.trans found

theorem found_of_column {stored : JsonScalar} (held : db.column field listingId = some stored) :
    ∃ listing, db.listing? listingId = some listing :=
  (Option.map_eq_some_iff.mp held).imp fun _ => And.left

/-- A call that records nothing about the listing and leaves its columns alone keeps it
accounted for. -/
theorem Unrecorded.accounted (silent : Unrecorded ids listingId db next)
    (audited : Audited ids listingId db) (accounted : db.Accounted listingId)
    (stays : ∀ stored, db.listing? listingId = some stored →
      ∀ field, next.column field listingId = db.column field listingId) :
    next.Accounted listingId := by
  have audit : ∀ factKey, next.audit (listingFact listingId factKey) =
      db.audit (listingFact listingId factKey) := fun factKey =>
    (silent factKey).audit audited.grounded
  cases found : db.listing? listingId with
  | none =>
      have empty := fun factKey => (audit factKey).trans (audited.ahead found factKey)
      exact ⟨fun _ factKey _ => tellsColumn_of_values_nil (by rw [empty]),
        fun _ first _ _ _ asserted => by simp [empty] at asserted⟩
  | some stored =>
      refine ⟨fun field factKey member => ?_, fun field => ?_⟩
      · exact (tellsColumn_congr (audit factKey) (stays stored found field)).mpr
          (accounted.values field factKey member)
      · simp only [audit]
        exact accounted.oneKey field

/-- A step that records nothing about the listing and leaves its columns leaves no facts ahead of
it. -/
theorem Unrecorded.ahead (silent : Unrecorded ids listingId db next)
    (audited : Audited ids listingId db)
    (stays : ∀ stored, db.listing? listingId = some stored →
      ∀ field, next.column field listingId = db.column field listingId) :
    NoFactsAhead listingId next := by
  intro absent factKey
  have before : db.listing? listingId = none := by
    cases found : db.listing? listingId with
    | none => rfl
    | some stored =>
        have held := (stays stored found .layout).trans (column_of_found found .layout)
        rw [column_none absent] at held
        cases held
  exact ((silent factKey).audit audited.grounded).trans (audited.ahead before factKey)

/-- Normalization of an audited listing keeps its facts grounded, and accounts for its columns as
the observation demands. -/
theorem processObservation_accounted {scan : Uuid → Nat} {method : DiscoveryMethod}
    {observationId : Uuid} {outcome : NormalizationOutcome}
    (processed : db.processObservation (library.environment scan) now method observationId =
      .ok (next, outcome)) (audited : Audited library.ids listingId db) :
    Grounded library.ids next ∧ NoFactsAhead listingId next ∧
      (db.Accounted listingId → (next.Accounted listingId ↔
        db.KeepsAccount library listingId
          (.processObservation scan now method observationId))) := by
  obtain ⟨grounded, tracked, ungoverned, ahead⟩ := audited
  rcases processObservation_account processed tracked ungoverned with
    ⟨row, starts⟩ | ⟨row, listing, found, applies, rfl, recounted⟩ | ⟨elsewhere, silent⟩
  · have ⟨absent, ⟨_, _, stored⟩, recounted⟩ := starts
    refine ⟨(recounted.stated .rent).grounded grounded, noFactsAhead_of_found stored,
      fun _ => iff_of_true (starts.accounted grounded (ahead absent)) ?_⟩
    rintro other listing _ ⟨_, link, _, linked, _⟩ rfl
    have named : listing.canonicalListingId = link.canonicalListingId := key_of_get linked
    cases absent.symm.trans (named ▸ linked)
  · have ⟨_, link, _, linked, _⟩ := applies
    have named : listing.canonicalListingId = link.canonicalListingId := key_of_get linked
    have stored : db.listing? listing.canonicalListingId = some listing := named ▸ linked
    rcases processObservation_fields processed with
      ⟨other, target, again, appliesAgain, others, fields⟩ | ⟨idle, _⟩
    · cases found.symm.trans again
      cases applies.unique appliesAgain
      have layout := (others .layout listing.canonicalListingId fun _ => rfl).column
      obtain ⟨_, after⟩ := found_of_column (layout.trans (column_of_found stored .layout))
      refine ⟨(recounted.stated .rent).grounded grounded, noFactsAhead_of_found after,
        fun accounted => ?_⟩
      have exact_ := recounted.accounted_iff grounded accounted
        (fun field notLayout => (fields field notLayout).column_ungoverned ungoverned
          (column_of_found stored field)) layout (column_of_found stored .layout)
      rw [exact_]
      constructor
      · intro meets other target same appliesSame _
        cases found.symm.trans same
        cases applies.unique appliesSame
        exact meets
      · exact fun keeps => keeps row listing found applies rfl
    · exact (idle row found listing applies).elim
  · have stays : ∀ stored, db.listing? listingId = some stored →
        ∀ field, next.column field listingId = db.column field listingId := by
      intro stored held field
      rcases processObservation_fields processed with
        ⟨row, listing, found, applies, others, _⟩ | ⟨_, untouched⟩
      · exact (others field listingId fun same =>
          (elsewhere row listing found applies same.symm).elim).column
      · exact ((untouched field listingId).2 stored held).column
    have audited : Audited library.ids listingId db := ⟨grounded, tracked, ungoverned, ahead⟩
    exact ⟨(silent "").grounded grounded, silent.ahead audited stays, fun accounted =>
      iff_of_true (silent.accounted audited accounted stays) fun row listing found applies named =>
        (elsewhere row listing found applies named).elim⟩

/-- An enrichment of an audited listing keeps its facts grounded, and accounts for its columns as
the page demands. -/
theorem enrich_accounted {scan : Uuid → Nat} {answers : PageAnswers} {paged : Uuid} {force : Bool}
    {outcome : EnrichmentOutcome}
    (enriched : db.enrich (library.content scan answers) now paged force = .ok (next, outcome))
    (audited : Audited library.ids listingId db) :
    Grounded library.ids next ∧ NoFactsAhead listingId next ∧
      (db.Accounted listingId → (next.Accounted listingId ↔
        db.KeepsAccount library listingId (.enrich scan now answers paged force))) := by
  rcases enrich_cases enriched with ⟨rfl, idle⟩ | ⟨reading, read, ⟨writes⟩⟩
  · exact ⟨audited.grounded, audited.ahead, fun accounted => iff_of_true accounted
      fun reading read => (idle reading read).elim⟩
  · have found := readPage_listing read
    obtain rfl : reading.listing.canonicalListingId = paged := key_of_get found
    have fields := writes.fields found
    have only : ∀ other, db.readPage (library.content scan answers)
        reading.listing.canonicalListingId force = .ok (.inr other) → other = reading := by
      intro other again
      rw [read] at again
      exact (Sum.inr.inj (Except.ok.inj again)).symm
    by_cases same : listingId = reading.listing.canonicalListingId
    · subst same
      have noted := writes.noted audited.ungoverned
      have layout : next.column .layout reading.listing.canonicalListingId = _ :=
        (fields.others .layout _ fun _ => .inl rfl).column
      obtain ⟨_, after⟩ := found_of_column (layout.trans (column_of_found found .layout))
      refine ⟨noted.rent.grounded audited.grounded, noFactsAhead_of_found after,
        fun accounted => ?_⟩
      have exact_ := noted.accounted_iff audited.grounded accounted
        (fields.rent.column_ungoverned audited.ungoverned)
        (fields.laundry.column_ungoverned audited.ungoverned) fun field notRent notLaundry =>
          (fields.others field _ fun _ => by
            cases field <;> first | exact .inl rfl | exact .inr rfl | exact absurd rfl notRent |
              exact absurd rfl notLaundry).column
      rw [exact_]
      constructor
      · intro meets other again _ _ corrects
        cases only other again
        exact meets corrects
      · exact fun keeps => keeps reading read fields.not_collides rfl
    · have silent : Unrecorded library.ids listingId db next := writes.unrecorded same
      have stays : ∀ stored, db.listing? listingId = some stored →
          ∀ field, next.column field listingId = db.column field listingId := fun _ _ field =>
        (fields.others field listingId fun equal => (same equal).elim).column
      exact ⟨(silent "").grounded audited.grounded, silent.ahead audited stays, fun accounted =>
        iff_of_true (silent.accounted audited accounted stays) fun _ _ _ equal _ =>
          (same equal.symm).elim⟩

/-- Rows written outside are grounded, run ahead of no fact and keep the account. -/
theorem writeOutside_accounted (write : OutsideWrite) (audited : Audited ids listingId db) :
    Grounded ids (db.writeOutside write) ∧ NoFactsAhead listingId (db.writeOutside write) ∧
      (db.Accounted listingId → (db.writeOutside write).Accounted listingId) := by
  have silent : Unrecorded ids listingId db (db.writeOutside write) :=
    FactsKept.unrecorded ⟨rfl, rfl, Nat.le_refl _⟩
  exact ⟨(silent "").grounded audited.grounded, silent.ahead audited fun _ _ _ => rfl,
    fun accounted => silent.accounted audited accounted fun _ _ _ => rfl⟩

/-- A call keeps the listing accounted for just when it meets the condition. -/
theorem contentStep_accounted (audited : Audited library.ids listingId db)
    (accounted : db.Accounted listingId) (action : ContentAction) :
    (db.contentStep library action).Accounted listingId ↔
      db.KeepsAccount library listingId action := by
  cases performed : db.performContent library action with
  | ok next =>
      rw [contentStep, performed]
      rcases performContent_cases performed with
        ⟨_, _, _, _, _, rfl, processed⟩ | ⟨_, _, _, _, _, _, rfl, enriched⟩ | ⟨write, rfl, _, rfl⟩
      · exact (processObservation_accounted processed audited).2.2 accounted
      · exact (enrich_accounted enriched audited).2.2 accounted
      · exact iff_of_true ((writeOutside_accounted write audited).2.2 accounted) trivial
  | error failure =>
      rw [contentStep, performed]
      refine iff_of_true accounted ?_
      cases action with
      | outside write => trivial
      | processObservation scan now method observationId =>
          rintro row listing found applies rfl
          obtain ⟨next, outcome, processed⟩ := processObservation_ok (library.environment scan) now
            method found applies audited.ungoverned.answered
          rw [performContent, processed] at performed
          cases performed
      | enrich scan now answers paged force =>
          rintro reading read clear rfl
          obtain ⟨next, outcome, enriched⟩ := enrich_ok read now audited.ungoverned.answered clear
          rw [performContent, enriched] at performed
          cases performed

/-! ## Runs -/

/-- Actions that spare the listing keep it audited. -/
theorem audited_preserved : Preserved (contentStep library)
    (fun _ action => action.spares listingId) (Audited library.ids listingId) := by
  intro db action audited spares
  refine contentStep_keeps (Audited library.ids listingId) audited fun next performed => ?_
  have tracked : Tracked library.ids next := by
    have kept := content_tracked_preserved db action audited.tracked trivial
    rwa [contentStep, performed] at kept
  rcases performContent_cases performed with
    ⟨_, _, _, _, _, rfl, processed⟩ | ⟨_, _, _, _, _, _, rfl, enriched⟩ | ⟨write, rfl, _, rfl⟩
  · obtain ⟨grounded, ahead, _⟩ := processObservation_accounted processed audited
    exact ⟨grounded, tracked, ungoverned_congr audited.ungoverned
      (by rw [(processObservation_canonicalOnly processed).frame]), ahead⟩
  · obtain ⟨grounded, ahead, _⟩ := enrich_accounted enriched audited
    exact ⟨grounded, tracked, ungoverned_congr audited.ungoverned (enrich_overrides enriched),
      ahead⟩
  · obtain ⟨grounded, ahead, _⟩ := writeOutside_accounted write audited
    exact ⟨grounded, tracked, spares, ahead⟩

theorem accounted_empty (listingId : Uuid) : Database.empty.Accounted listingId :=
  ⟨fun _ _ _ => tellsColumn_of_values_nil rfl, fun _ _ _ _ _ asserted => by cases asserted⟩

/-- **Accounts.** In every run of the two pipelines over a listing without overrides, the
current resolutions of each field lead to its column and its facts have one key in every
state, just when each call keeps the account. -/
theorem columns_accounted_iff (library : ContentLibrary) (listingId : Uuid)
    (actions : List ContentAction) (free : ∀ action ∈ actions, action.spares listingId) :
    (∀ earlier later, actions = earlier ++ later →
      (enriched library earlier).Accounted listingId) ↔
    Permitted (contentStep library) (fun db action => db.KeepsAccount library listingId action)
      Database.empty actions := by
  have start : Audited library.ids listingId Database.empty :=
    { grounded := grounded_empty library.ids
      tracked := tracked_empty library.ids
      ungoverned := fun _ member => (List.not_mem_nil member).elim
      ahead := fun _ _ => rfl }
  have prefixes : (∀ earlier later, actions = earlier ++ later →
      (run (contentStep library) Database.empty earlier).Accounted listingId) ↔
        Database.empty.Accounted listingId ∧ Permitted (contentStep library)
          (fun db action => (db.contentStep library action).Accounted listingId) Database.empty
            actions := forall_prefix_iff fun db : Database => db.Accounted listingId
  have preserved : Preserved (contentStep library)
      (fun db action => action.spares listingId ∧ db.KeepsAccount library listingId action)
      fun db => Audited library.ids listingId db ∧ db.Accounted listingId := by
    rintro db action ⟨audited, accounted⟩ ⟨spares, keeps⟩
    exact ⟨audited_preserved db action audited spares,
      (contentStep_accounted audited accounted action).mpr keeps⟩
  have only : Permitted (contentStep library) (fun _ action => action.spares listingId)
      Database.empty actions := permitted_of_forall free
  have each : Permitted (contentStep library)
      (fun db action => (db.contentStep library action).Accounted listingId) Database.empty
        actions ↔
      Permitted (contentStep library) (fun db action => db.KeepsAccount library listingId action)
        Database.empty actions :=
    permitted_congr preserved (fun db action invariant _ =>
      contentStep_accounted invariant.1 invariant.2 action) ⟨start, accounted_empty listingId⟩ only
  rw [← each]
  exact prefixes.trans (and_iff_right (accounted_empty listingId))

/-! ## Columns that no current fact accounts for -/

/-- A listing with a rent and a layout. -/
def rentAccounted : List ContentAction :=
  [.outside (outsideWrite [rentSeen 1 0 100000 "x"] []),
    .processObservation (fun _ => 0) 0 .direct 1]

/-- The equivalence at a rent that is accounted for. -/
theorem rent_accounted_iff : (∀ earlier later, rentAccounted = earlier ++ later →
      (enriched asciiLibrary earlier).Accounted 102) ↔
    Permitted (contentStep asciiLibrary) (fun db action => db.KeepsAccount asciiLibrary 102 action)
      Database.empty rentAccounted :=
  columns_accounted_iff asciiLibrary 102 rentAccounted (by
    intro action member
    rcases List.mem_cons.mp member with rfl | member
    · exact fun _ none => (List.not_mem_nil none).elim
    · obtain rfl := List.mem_singleton.mp member
      trivial)

def layoutSeen (id : Uuid) (time : Timestamp) (layout : LayoutClass) (contentHash : String) :
    SourceObservation :=
  { rentSeen id time 100000 contentHash with
    parsedPayload :=
      { (rentSeen id time 100000 contentHash).parsedPayload with
        layout := { (rentSeen id time 100000 contentHash).parsedPayload.layout with
          proposedLayoutClass := layout } } }

/-- A listing that is seen with two layouts. -/
def layoutsSeen : List ContentAction :=
  [.outside (outsideWrite [layoutSeen 1 0 .studio "x", layoutSeen 2 10 .oneBedroom "y"] []),
    .processObservation (fun _ => 0) 0 .direct 1, .processObservation (fun _ => 0) 0 .direct 2]

/-- After a page corrected the rent, the rent an observation recorded is still current
under the other key; and a new layout is recorded while the column stays. -/
theorem columns_unaccounted :
    let paged := enriched asciiLibrary
      (rentAccounted ++ [enrichStating 102 { monthlyRentUsd := some 2000 }])
    let relaid := enriched asciiLibrary layoutsSeen
    (paged.column .rent 102 = some (.number 200000) ∧
      paged.audit (listingFact 102 "monthly_rent_minor") = ⟨[some (.number 100000)], true⟩ ∧
      paged.audit (listingFact 102 "monthly_rent") = ⟨[some (.number 200000)], true⟩ ∧
      ¬ paged.Accounted 102) ∧
    (relaid.column .layout 102 = some (.layout .studio) ∧
      relaid.audit (listingFact 102 "layout_class") = ⟨[some (.layout .oneBedroom)], true⟩ ∧
      ¬ relaid.Accounted 102) := by
  intro paged relaid
  have column : relaid.column .layout 102 = some (.layout .studio) := by decide
  have minor : paged.audit (listingFact 102 "monthly_rent_minor") =
      ⟨[some (.number 100000)], true⟩ := by decide
  have monthly : paged.audit (listingFact 102 "monthly_rent") =
      ⟨[some (.number 200000)], true⟩ := by decide
  have layout : relaid.audit (listingFact 102 "layout_class") =
      ⟨[some (.layout .oneBedroom)], true⟩ := by decide
  refine ⟨⟨by decide, minor, monthly, fun accounted => ?_⟩, column, layout, fun accounted => ?_⟩
  · have same := accounted.oneKey .rent "monthly_rent_minor" (by decide) "monthly_rent" (by decide)
      (by rw [minor]) (by rw [monthly])
    exact absurd same (by decide)
  · obtain ⟨stored, value, held⟩ := accounted.values .layout "layout_class" (by decide)
      (some (.layout .oneBedroom)) (by rw [layout]; exact List.mem_singleton_self _)
    rw [column, ← value] at held
    exact absurd held (by decide)

end Database

end RentalAgent
