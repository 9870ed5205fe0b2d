import RentalAgent.Enrichment.Pipelines

/-! # Precedence of human overrides

While an override on the rent, the availability or the laundry of a listing is active,
neither pipeline may write the column, and a value that disagrees with both is surfaced
by one open issue. Observations look an override up under the key of its field; a page
looks the override on the rent up under `"monthly_rent"`, so it misses the one on
`"monthly_rent_minor"` (`Database.overrides_respected_iff`).
-/

namespace RentalAgent

open Relational Transition

/-- The value a page states for a field. -/
def ListingPageFacts.stated (facts : ListingPageFacts) : ListingField → Option JsonScalar
  | .rent => facts.statedRentUsd.map fun usd => .number (usd * 100)
  | .laundry => facts.statedLaundry.map .laundry
  | .layout | .availability => none

/-- The action is a call of one of the pipelines. -/
def ContentAction.isCall : ContentAction → Bool
  | .processObservation .. | .enrich .. => true
  | .outside _ => false

namespace Database

variable (library : ContentLibrary)

/-- The call brings a value for a field of a listing: the observation applies to the
listing, or the page of the listing was read, and states it. -/
def Brings (db : Database) (action : ContentAction) (field : ListingField) (listingId : Uuid)
    (value : JsonScalar) : Prop :=
  match action with
  | .processObservation _ _ _ observationId =>
      ∃ row listing, db.observation? observationId = some row ∧ db.Applies row listing ∧
        listing.canonicalListingId = listingId ∧ field.stated row.parsedPayload = some value
  | .enrich scan _ answers canonicalListingId force =>
      canonicalListingId = listingId ∧ ∃ reading,
        db.readPage (library.content scan answers) listingId force = .ok (.inr reading) ∧
          reading.facts.stated field = some value
  | .outside _ => False

/-- From `db` to `next` the action respected every active override: it left the column
alone, and of a value it brought that disagrees with the column and with an override
that asks for review, just one open issue tells. -/
def Respected (db next : Database) (action : ContentAction) : Prop :=
  ∀ field listingId override column, field ≠ .layout →
    db.activeOverride .listing listingId field.key = .ok (some override) →
    db.column field listingId = some column →
      next.column field listingId = some column ∧
      ∀ value, db.Brings library action field listingId value → value ≠ column →
        value ≠ override.overrideValue → override.reviewOnNewConflict = true →
          (next.reviewIssues.filter (surfacesConflict listingId field.key)).length = 1

/-- A returning call respects every active override. -/
def RespectsOverrides (db : Database) (action : ContentAction) : Prop :=
  ∀ next, db.performContent library action = .ok next → db.Respected library next action

/-- The page states another rent than the one of a listing whose rent is overridden, the
call does not raise, and the override that it looks up under `"monthly_rent"` does not
happen to keep the column and to leave nothing to surface. -/
def MissesOverride (db : Database) (reading : PageReading) : Prop :=
  ∃ usd ∈ reading.facts.statedRentUsd, ∃ override,
    db.activeOverride .listing reading.listing.canonicalListingId "monthly_rent_minor" =
      .ok (some override) ∧
    reading.listing.monthlyRentMinor ≠ some (usd * 100) ∧ ¬ db.RentCollides reading ∧
      (db.activeOverride .listing reading.listing.canonicalListingId "monthly_rent" = .ok none ∨
        (.number (usd * 100) ≠ override.overrideValue ∧ override.reviewOnNewConflict = true ∧
          db.reviewIssues.filter (surfacesConflict reading.listing.canonicalListingId
            "monthly_rent_minor") = []))

/-- Only a page can miss an override. -/
def FindsOverrides (db : Database) : ContentAction → Prop
  | .processObservation .. | .outside _ => True
  | .enrich scan _ answers listingId force => ∀ reading,
      db.readPage (library.content scan answers) listingId force = .ok (.inr reading) →
        ¬ db.MissesOverride reading

/-- Calls in a row leave an overridden column as it is. -/
def OverriddenStays (start : Database) (actions : List ContentAction) : Prop :=
  ∀ earlier calls, actions = earlier ++ calls → (∀ action ∈ calls, action.isCall = true) →
    ∀ field listingId override column, field ≠ .layout →
      (run (contentStep library) start earlier).activeOverride .listing listingId field.key =
        .ok (some override) →
      (run (contentStep library) start earlier).column field listingId = some column →
        (run (contentStep library) start actions).column field listingId = some column

/-- Overrides are unique, and so is the open issue about a field. -/
structure Surveyed (db : Database) : Prop where
  overrides : OneActiveOverride db.overrides
  conflicts : ∀ field listingId, (db.journal field listingId).conflicts.length ≤ 1

variable {library} {db next : Database} {action : ContentAction} {field : ListingField}
  {listingId : Uuid} {row : SourceObservation} {listing other : CanonicalListing}
  {reading : PageReading} {now : Timestamp}

/-! ## Open issues -/

/-- A conflict that is raised only where none is open stays single. -/
theorem conflicts_le_one_of_raised {override : HumanOverride} {issue : ReviewIssue}
    {before after : Journal} {condition : Prop} [Decidable condition]
    (bound : before.conflicts.length ≤ 1)
    (raised : after = if condition ∨ override.reviewOnNewConflict = false ∨ before.conflicts ≠ []
      then before else { before with conflicts := [issue] }) : after.conflicts.length ≤ 1 := by
  rw [raised]
  split
  · exact bound
  · exact Nat.le_refl 1

/-- A field update leaves at most one open conflict. -/
theorem FieldUpdate.conflicts (update : FieldUpdate row field listing db next)
    (bound : (db.journal field listing.canonicalListingId).conflicts.length ≤ 1) :
    (next.journal field listing.canonicalListingId).conflicts.length ≤ 1 := by
  cases update with
  | kept _ untouched => rwa [untouched.journal]
  | governed _ _ _ _ journal => exact conflicts_le_one_of_raised bound journal
  | written _ _ _ _ _ journal =>
      rw [journal]
      split <;> exact bound

/-- A page leaves at most one open conflict for each field. -/
theorem PageFields.conflicts (fields : PageFields now reading db next)
    (bound : ∀ field listingId, (db.journal field listingId).conflicts.length ≤ 1)
    (field : ListingField) (listingId : Uuid) :
    (next.journal field listingId).conflicts.length ≤ 1 := by
  by_cases same : listingId = reading.listing.canonicalListingId
  · subst same
    cases field with
    | layout => exact (fields.others .layout _ fun _ => .inl rfl).journal ▸ bound _ _
    | availability => exact (fields.others .availability _ fun _ => .inr rfl).journal ▸ bound _ _
    | rent =>
        cases fields.rent with
        | kept _ untouched => exact untouched.journal ▸ bound _ _
        | written _ _ _ _ _ journal => exact journal ▸ bound .rent _
    | laundry =>
        cases fields.laundry with
        | unstated _ untouched => exact untouched.journal ▸ bound _ _
        | governed _ _ _ journal =>
            rw [journal]
            split
            · exact bound _ _
            · exact Nat.le_refl 1
        | written _ _ _ journal => exact journal ▸ bound _ _
  · exact (fields.others field listingId fun equal => (same equal).elim).journal ▸ bound _ _

/-- Every action keeps overrides unique and open conflicts single. -/
theorem surveyed_preserved :
    Preserved (contentStep library) (fun _ _ => True) Surveyed := by
  intro db action surveyed _
  refine ⟨uniqueOverrides_preserved db action surveyed.overrides trivial, ?_⟩
  refine contentStep_keeps (fun db => ∀ field listingId,
    (db.journal field listingId).conflicts.length ≤ 1) surveyed.conflicts fun next performed => ?_
  intro field listingId
  rcases performContent_cases performed with
    ⟨_, _, _, _, _, _, processed⟩ | ⟨_, _, _, _, _, _, _, enriched⟩ | ⟨write, _, _, rfl⟩
  · rcases processObservation_fields processed with
      ⟨row, listing, _, _, others, fields⟩ | ⟨_, untouched⟩
    · by_cases inside : listingId = listing.canonicalListingId ∧ field ≠ .layout
      · obtain ⟨rfl, notLayout⟩ := inside
        exact (fields field notLayout).conflicts (surveyed.conflicts _ _)
      · rw [(others field listingId fun same =>
          by_contra fun other => inside ⟨same, other⟩).journal]
        exact surveyed.conflicts _ _
    · rw [(untouched field listingId).1]
      exact surveyed.conflicts _ _
  · rcases enrich_fields enriched with ⟨rfl, _⟩ | ⟨reading, _, _, _, fields⟩
    · exact surveyed.conflicts _ _
    · exact fields.conflicts surveyed.conflicts field listingId
  · exact surveyed.conflicts field listingId

/-- A disagreement that is raised unless one is open leaves one open. -/
theorem conflicts_eq_one {override : HumanOverride} {issue : ReviewIssue} {before after : Journal}
    {condition : Prop} [Decidable condition] (bound : before.conflicts.length ≤ 1)
    (disagrees : ¬ condition) (reviews : override.reviewOnNewConflict = true)
    (raised : after = if condition ∨ override.reviewOnNewConflict = false ∨ before.conflicts ≠ []
      then before else { before with conflicts := [issue] }) : after.conflicts.length = 1 := by
  rw [raised]
  split
  · rename_i silent
    have open_ : before.conflicts ≠ [] := by simpa [disagrees, reviews] using silent
    exact Nat.le_antisymm bound (List.length_pos_iff.mpr open_)
  · rfl

/-! ## One call -/

/-- An observation respects the overrides of the listing it applies to. -/
theorem FieldUpdate.respects {override : HumanOverride} {column : JsonScalar}
    (update : FieldUpdate row field listing db next)
    (bound : (db.journal field listing.canonicalListingId).conflicts.length ≤ 1)
    (governs : db.activeOverride .listing listing.canonicalListingId field.key =
      .ok (some override))
    (stored : db.column field listing.canonicalListingId = some column)
    (current : field.column listing = column) :
    next.column field listing.canonicalListingId = some column ∧
      ∀ value, field.stated row.parsedPayload = some value → value ≠ column →
        value ≠ override.overrideValue → override.reviewOnNewConflict = true →
          (next.journal field listing.canonicalListingId).conflicts.length = 1 := by
  cases update with
  | kept agrees untouched =>
      refine ⟨untouched.column.trans stored, fun value states differs => ?_⟩
      exact (differs ((agrees value states).trans current)).elim
  | governed states differs again same journal =>
      cases governs.symm.trans again
      refine ⟨same.trans stored, fun value stated _ disagrees reviews => ?_⟩
      cases states.symm.trans stated
      exact conflicts_eq_one bound disagrees reviews journal
  | written _ _ free _ _ _ => cases governs.symm.trans free

/-- Normalization respects the overrides that govern its fields. -/
theorem processObservation_respects (surveyed : Surveyed db) {scan : Uuid → Nat}
    {method : DiscoveryMethod} {observationId : Uuid} {outcome : NormalizationOutcome}
    (processed : db.processObservation (library.environment scan) now method observationId =
      .ok (next, outcome)) :
    db.Respected library next (.processObservation scan now method observationId) := by
  intro field listingId override column notLayout governs stored
  rcases processObservation_fields processed with
    ⟨row, listing, found, applies, others, fields⟩ | ⟨idle, untouched⟩
  · by_cases same : listingId = listing.canonicalListingId
    · subst same
      obtain ⟨link, _, linked, _⟩ := applies.2
      have named : listing.canonicalListingId = link.canonicalListingId := key_of_get linked
      have current : field.column listing = column :=
        Option.some.inj ((column_of_found (named ▸ linked) field).symm.trans stored)
      obtain ⟨kept, surfaced⟩ := (fields field notLayout).respects (surveyed.conflicts _ _) governs
        stored current
      refine ⟨kept, ?_⟩
      rintro value ⟨other, target, again, appliesAgain, _, states⟩
      cases found.symm.trans again
      exact surfaced value states
    · refine ⟨(others field listingId fun equal => (same equal).elim).column.trans stored, ?_⟩
      rintro value ⟨other, target, again, appliesAgain, targeted, _⟩
      cases found.symm.trans again
      cases applies.unique appliesAgain
      exact (same targeted.symm).elim
  · obtain ⟨listing, exists_, _⟩ := Option.map_eq_some_iff.mp stored
    refine ⟨((untouched field listingId).2 listing exists_).column.trans stored, ?_⟩
    rintro value ⟨other, target, again, applies, _⟩
    exact (idle other again target applies).elim

/-- The rent of a page that misses no override respects the override on the rent. -/
theorem PageRent.respects {override : HumanOverride} {column : JsonScalar}
    (rent : PageRent now reading.listing reading.facts db next)
    (bound : (db.journal .rent reading.listing.canonicalListingId).conflicts.length ≤ 1)
    (clear : ¬ db.RentCollides reading) (finds : ¬ db.MissesOverride reading)
    (governs : db.activeOverride .listing reading.listing.canonicalListingId
      "monthly_rent_minor" = .ok (some override))
    (stored : db.column .rent reading.listing.canonicalListingId = some column)
    (current : ListingField.rent.column reading.listing = column) :
    next.column .rent reading.listing.canonicalListingId = some column ∧
      ∀ value, reading.facts.stated .rent = some value → value ≠ column →
        value ≠ override.overrideValue → override.reviewOnNewConflict = true →
          (next.journal .rent reading.listing.canonicalListingId).conflicts.length = 1 := by
  cases rent with
  | kept keeps untouched =>
      refine ⟨untouched.column.trans stored, fun value states differs disagrees reviews => ?_⟩
      obtain ⟨usd, stated, rfl⟩ := Option.map_eq_some_iff.mp states
      have other : reading.listing.monthlyRentMinor ≠ some (usd * 100) := by
        intro same
        exact differs (by rw [← current, ListingField.column, same]; rfl)
      rw [untouched.journal]
      refine Nat.le_antisymm bound (List.length_pos_iff.mpr fun none => finds ?_)
      exact ⟨usd, stated, override, governs, other, clear, .inr ⟨disagrees, reviews, none⟩⟩
  | written states differs free unused _ _ =>
      exact (finds ⟨_, states, override, governs, differs, clear, .inl free⟩).elim

/-- A page respects the override on the laundry. -/
theorem PageLaundry.respects {override : HumanOverride} {column : JsonScalar}
    (laundry : PageLaundry listing reading.facts db next)
    (bound : (db.journal .laundry listing.canonicalListingId).conflicts.length ≤ 1)
    (governs : db.activeOverride .listing listing.canonicalListingId "laundry_type" =
      .ok (some override))
    (stored : db.column .laundry listing.canonicalListingId = some column) :
    next.column .laundry listing.canonicalListingId = some column ∧
      ∀ value, reading.facts.stated .laundry = some value → override.reviewOnNewConflict = true →
        (next.journal .laundry listing.canonicalListingId).conflicts.length = 1 := by
  cases laundry with
  | unstated silent untouched =>
      refine ⟨untouched.column.trans stored, fun value states => ?_⟩
      simp [ListingPageFacts.stated, silent] at states
  | governed _ again same journal =>
      cases governs.symm.trans again
      refine ⟨same.trans stored, fun value _ reviews => ?_⟩
      rw [journal]
      split
      · rename_i silent
        have open_ : (db.journal .laundry listing.canonicalListingId).conflicts ≠ [] := by
          simpa [reviews] using silent
        exact Nat.le_antisymm bound (List.length_pos_iff.mpr open_)
      · rfl
  | written _ free _ _ => cases governs.symm.trans free

/-- A page that finds the overrides respects them. -/
theorem PageFields.respects (fields : PageFields now reading db next) (surveyed : Surveyed db)
    {scan : Uuid → Nat} {answers : PageAnswers} {force : Bool}
    (read : db.readPage (library.content scan answers) listingId force = .ok (.inr reading))
    (finds : ¬ db.MissesOverride reading) :
    db.Respected library next (.enrich scan now answers listingId force) := by
  have found := readPage_listing read
  obtain rfl : reading.listing.canonicalListingId = listingId := key_of_get found
  intro field otherId override column notLayout governs stored
  by_cases same : otherId = reading.listing.canonicalListingId
  · subst same
    have current : field.column reading.listing = column :=
      Option.some.inj ((column_of_found found field).symm.trans stored)
    have states : ∀ value, db.Brings library (.enrich scan now answers
        reading.listing.canonicalListingId force) field reading.listing.canonicalListingId value →
          reading.facts.stated field = some value := by
      rintro value ⟨_, other, again, states⟩
      cases read.symm.trans again
      exact states
    cases field with
    | layout => exact (notLayout rfl).elim
    | availability =>
        refine ⟨(fields.others .availability _ fun _ => .inr rfl).column.trans stored, ?_⟩
        intro value brings
        cases states value brings
    | rent =>
        obtain ⟨kept, surfaced⟩ := fields.rent.respects (surveyed.conflicts _ _)
          fields.not_collides finds governs stored current
        exact ⟨kept, fun value brings => surfaced value (states value brings)⟩
    | laundry =>
        obtain ⟨kept, surfaced⟩ := fields.laundry.respects (surveyed.conflicts _ _) governs stored
        exact ⟨kept, fun value brings _ _ => surfaced value (states value brings)⟩
  · refine ⟨(fields.others field otherId fun equal => (same equal).elim).column.trans stored, ?_⟩
    rintro value ⟨equal, _⟩
    exact (same equal.symm).elim

/-- A page that misses an override overwrites the rent, or leaves the disagreement
without an issue. -/
theorem PageFields.disrespects (fields : PageFields now reading db next)
    {scan : Uuid → Nat} {answers : PageAnswers} {force : Bool}
    (read : db.readPage (library.content scan answers) listingId force = .ok (.inr reading))
    (misses : db.MissesOverride reading) :
    ¬ db.Respected library next (.enrich scan now answers listingId force) := by
  intro respected
  have found := readPage_listing read
  obtain rfl : reading.listing.canonicalListingId = listingId := key_of_get found
  obtain ⟨usd, states, override, governs, differs, clear, misses⟩ := misses
  have stored := column_of_found found .rent
  have other : JsonScalar.number (usd * 100) ≠ ListingField.rent.column reading.listing := by
    intro same
    cases held : reading.listing.monthlyRentMinor with
    | none => simp [ListingField.column, held] at same
    | some rent =>
        simp only [ListingField.column, held, Option.elim_some, JsonScalar.number.injEq] at same
        exact differs (by rw [held, same])
  obtain ⟨kept, surfaced⟩ := respected .rent _ override _ (by decide) governs stored
  cases fields.rent with
  | kept keeps untouched =>
      rcases misses with free | ⟨disagrees, reviews, none⟩
      · exact (keeps usd states).elim differs fun governed => governed free
      · have one := surfaced (.number (usd * 100))
          ⟨rfl, reading, read, by simp [ListingPageFacts.stated, Option.mem_def.mp states]⟩ other
            disagrees reviews
        have same : next.reviewIssues.filter (surfacesConflict reading.listing.canonicalListingId
            ListingField.rent.key) = _ := congrArg Journal.conflicts untouched.journal
        rw [same, show (db.journal .rent reading.listing.canonicalListingId).conflicts = [] from
          none] at one
        cases one
  | written again _ _ _ column _ =>
      cases Option.some.inj (again.symm.trans states)
      exact other (Option.some.inj (column.symm.trans kept))

/-- An action respects the overrides just when it finds them. -/
theorem respects_iff_finds (surveyed : Surveyed db) (action : ContentAction) :
    db.RespectsOverrides library action ↔ db.FindsOverrides library action := by
  cases action with
  | processObservation scan now method observationId =>
      refine iff_of_true (fun next performed => ?_) trivial
      obtain ⟨⟨after, outcome⟩, processed, wrote⟩ := bind_eq_ok.mp performed
      cases wrote
      exact processObservation_respects surveyed processed
  | outside write =>
      refine iff_of_true (fun next performed => ?_) trivial
      intro field listingId override column _ _ stored
      rcases performContent_cases performed with
        ⟨_, _, _, _, _, same, _⟩ | ⟨_, _, _, _, _, _, same, _⟩ | ⟨other, _, _, rfl⟩
      · cases same
      · cases same
      · exact ⟨stored, fun value brings => brings.elim⟩
  | enrich scan now answers listingId force =>
      constructor
      · intro respects reading read misses
        have ⟨_, _, _, _, _, clear, _⟩ := misses
        obtain ⟨next, outcome, enriched⟩ := enrich_ok read now
          (answered_of_unique surveyed.overrides listingId) clear
        have performed : db.performContent library (.enrich scan now answers listingId force) =
            .ok next := by
          rw [performContent, enriched]
          rfl
        rcases enrich_fields enriched with ⟨_, idle⟩ | ⟨other, again, _, _, fields⟩
        · exact idle reading read
        · cases read.symm.trans again
          exact fields.disrespects read misses (respects next performed)
      · intro finds next performed
        obtain ⟨⟨after, outcome⟩, enriched, wrote⟩ := bind_eq_ok.mp performed
        cases wrote
        rcases enrich_fields enriched with ⟨rfl, idle⟩ | ⟨reading, read, _, _, fields⟩
        · intro field otherId override column _ _ stored
          refine ⟨stored, ?_⟩
          rintro value ⟨rfl, reading, read, _⟩
          exact (idle reading read).elim
        · exact fields.respects surveyed read (finds reading read)

/-! ## Runs -/

/-- Actions that respect the overrides keep an overridden column. -/
theorem overridden_preserved (library : ContentLibrary) {field : ListingField} {listingId : Uuid}
    {override : HumanOverride} {column : JsonScalar} (notLayout : field ≠ .layout) :
    Preserved (contentStep library)
      (fun db action => action.isCall = true ∧ db.RespectsOverrides library action)
      fun db => db.activeOverride .listing listingId field.key = .ok (some override) ∧
        db.column field listingId = some column := by
  rintro db action ⟨governs, stored⟩ ⟨calls, respects⟩
  refine contentStep_keeps (fun db => db.activeOverride .listing listingId field.key =
    .ok (some override) ∧ db.column field listingId = some column) ⟨governs, stored⟩
    fun next performed => ?_
  refine ⟨?_, (respects next performed field listingId override column notLayout governs stored).1⟩
  rcases performContent_cases performed with
    ⟨_, _, _, _, _, _, processed⟩ | ⟨_, _, _, _, _, _, _, enriched⟩ | ⟨write, rfl, _, _⟩
  · rw [activeOverride_congr (by rw [(processObservation_canonicalOnly processed).frame])]
    exact governs
  · rw [activeOverride_congr (enrich_overrides enriched)]
    exact governs
  · cases calls

/-- **Override precedence.** In a run of the two pipelines every call respects the active
overrides, and no row of calls changes an overridden column, just when no page misses
an override. -/
theorem overrides_respected_iff (library : ContentLibrary) (actions : List ContentAction) :
    (Permitted (contentStep library) (RespectsOverrides library) Database.empty actions ∧
      OverriddenStays library Database.empty actions) ↔
    Permitted (contentStep library) (FindsOverrides library) Database.empty actions := by
  have start : Surveyed Database.empty := ⟨uniqueIndex_nil, fun _ _ => Nat.zero_le 1⟩
  have every : Permitted (contentStep library) (fun _ _ => True) Database.empty actions :=
    fun _ _ => trivial
  have each : Permitted (contentStep library) (RespectsOverrides library) Database.empty actions ↔
      Permitted (contentStep library) (FindsOverrides library) Database.empty actions :=
    permitted_congr (fun db action surveyed _ => surveyed_preserved db action surveyed trivial)
      (fun db action surveyed _ => respects_iff_finds surveyed action) start every
  rw [← each, and_iff_left_iff_imp]
  rintro respects earlier calls rfl only field listingId override column notLayout governs stored
  rw [run_append]
  obtain ⟨_, later⟩ := (permitted_append _ _ _).mp respects
  refine ((overridden_preserved library notLayout).run ⟨governs, stored⟩ ?_).2
  exact fun moment member => ⟨permitted_of_forall only moment member, later moment member⟩

/-! ## A page that overwrites an overridden rent -/

/-- Texts are their own digests, and every network location is accepted. -/
def asciiLibrary : ContentLibrary where
  ids := countingIds
  unicode := asciiTables
  sha256 := String.ofList
  acceptsNetloc _ := true

/-- Every page has one text, from which the model extracts the facts. -/
def pageStating (facts : ListingPageFacts) : PageAnswers where
  poster _ _ := .results [some "listing page"]
  search := none
  llm _ := ⟨.succeeded, .valid facts, "model"⟩

def enrichStating (listingId : Uuid) (facts : ListingPageFacts) : ContentAction :=
  .enrich (fun _ => 0) 0 (pageStating facts) listingId false

/-- Writing the observations and the overrides. -/
def outsideWrite (observations : List SourceObservation) (overrides : List HumanOverride) :
    OutsideWrite where
  observations := observations
  sourceRuns := []
  overrides := overrides
  geography address := (address.locationPrecision, address.boundaryStatus)

def rentOverride : HumanOverride where
  humanOverrideId := 1
  entityType := .listing
  entityId := 102
  fieldName := "monthly_rent_minor"
  overrideValue := .number 100000
  overrideStatus := .active
  reviewOnNewConflict := true

/-- A listing with a rent, on which an owner puts an override. -/
def overriddenRent : List ContentAction :=
  [.outside (outsideWrite [rentSeen 1 0 100000 "x"] []),
    .processObservation (fun _ => 0) 0 .direct 1,
    .outside (outsideWrite [rentSeen 1 0 100000 "x"] [rentOverride])]

/-- A page with another rent overwrites it and surfaces nothing. -/
theorem page_overwrites_overridden_rent :
    let before := enriched asciiLibrary overriddenRent
    let call := enrichStating 102 { monthlyRentUsd := some 2000 }
    before.activeOverride .listing 102 "monthly_rent_minor" = .ok (some rentOverride) ∧
      before.column .rent 102 = some (.number 100000) ∧
      (before.contentStep asciiLibrary call).column .rent 102 = some (.number 200000) ∧
      (before.contentStep asciiLibrary call).reviewIssues = [] ∧
      ¬ Permitted (contentStep asciiLibrary) (RespectsOverrides asciiLibrary) Database.empty
        (overriddenRent ++ [call]) := by
  intro before call
  have governs : before.activeOverride .listing 102 "monthly_rent_minor" =
      .ok (some rentOverride) := by decide
  have stored : before.column .rent 102 = some (.number 100000) := by decide
  have written : (before.contentStep asciiLibrary call).column .rent 102 =
      some (.number 200000) := by decide
  refine ⟨governs, stored, written, by decide, fun permitted => ?_⟩
  obtain ⟨_, later⟩ := (permitted_append _ _ _).mp permitted
  have respects := ((permitted_cons _ _ _).mp later).1
  have performed : before.performContent asciiLibrary call =
      .ok (before.contentStep asciiLibrary call) := by decide
  have kept := (respects _ performed .rent 102 rentOverride _ (by decide) governs stored).1
  exact absurd (kept.symm.trans written) (by decide)

end Database

end RentalAgent
