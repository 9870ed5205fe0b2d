import RentalAgent.Enrichment.OverridePrecedence

/-! # The rent a page states

A page corrects the rent of its listing once for each value: the event of a correction has
the value in its key, and a rent that returns to an earlier value collides
(`Database.neverCollides_iff`). A page that did not change is skipped without a look at the
listing, so an observation that came in between keeps its rent
(`Watched.outranksSnippet_iff`).
-/

namespace RentalAgent

open Relational Transition

namespace Database

variable (library : ContentLibrary)

/-! ## Collisions -/

/-- No call of enrichment fails on a unique index. -/
def NeverCollides (db : Database) : ContentAction → Prop
  | .enrich scan now answers listingId force =>
      db.enrich (library.content scan answers) now listingId force ≠ .error .integrityError
  | _ => True

/-- No page that is read corrects the rent to one that an earlier page corrected it to. -/
def CorrectsAnew (db : Database) : ContentAction → Prop
  | .enrich scan _ answers listingId force => ∀ reading,
      db.readPage (library.content scan answers) listingId force = .ok (.inr reading) →
        ¬db.RentCollides reading
  | _ => True

variable {library} {db next : Database} {env : ContentEnvironment} {listingId : Uuid}
  {force : Bool} {now : Timestamp} {reading : PageReading} {outcome : EnrichmentOutcome}

/-- An answer of the extraction raises no integrity error. -/
theorem extract_ne_integrityError (answer : PosterAnswer) :
    answer.extract ≠ .error .integrityError := by
  unfold PosterAnswer.extract
  split
  · split <;> nofun
  · nofun
  · nofun

/-- Looking for an official site violates no constraint. -/
theorem firstOfficial_ne_integrityError (urls : List String) :
    firstOfficial env urls ≠ .error .integrityError := by
  induction urls with
  | nil => nofun
  | cons url rest ih =>
      unfold firstOfficial
      dsimp only
      split
      · nofun
      · split
        · exact ih
        · nofun

/-- Looking for the official site of a listing violates no constraint. -/
theorem findOfficialSite_ne_integrityError (listing : CanonicalListing) :
    db.findOfficialSite env listing ≠ .error .integrityError := by
  unfold findOfficialSite
  split
  · dsimp only
    split
    · exact firstOfficial_ne_integrityError _
    · nofun
  · nofun

/-- Looking for a page violates no constraint. -/
theorem findPage_ne_integrityError (listing : CanonicalListing) (link : ListingSourceLink) :
    db.findPage env listing link ≠ .error .integrityError := by
  intro failed
  rcases bind_eq_error.mp failed with extracted | ⟨page, _, failed⟩
  · exact extract_ne_integrityError _ extracted
  · cases page with
    | some text => cases failed
    | none =>
        rcases bind_eq_error.mp failed with searched | ⟨site, _, failed⟩
        · exact findOfficialSite_ne_integrityError listing searched
        · split at failed
          · cases failed
          · rcases bind_eq_error.mp failed with extracted | ⟨text, _, failed⟩
            · exact extract_ne_integrityError _ extracted
            · split at failed
              · cases failed
              · split at failed <;> cases failed

/-- Reading a page meets no unique index. -/
theorem readPage_ne_integrityError :
    db.readPage env listingId force ≠ .error .integrityError := by
  intro failed
  unfold readPage at failed
  split at failed
  · rename_i listing link _ _
    rcases bind_eq_error.mp failed with missed | ⟨page, _, failed⟩
    · exact findPage_ne_integrityError listing link missed
    · cases page with
      | none => cases failed
      | some page =>
          dsimp only at failed
          split at failed
          · cases failed
          · split at failed <;> cases failed
  · cases failed

/-- A rent that collides fails on the unique index of the event keys. -/
theorem applyPageRent_collides (ids : IdSupply) (now : Timestamp)
    (answered : db.Answered reading.listing.canonicalListingId)
    (collides : db.RentCollides reading) :
    db.applyPageRent ids now reading.listing reading.facts = .error .integrityError := by
  obtain ⟨usd, states, differs, free, used⟩ := collides
  obtain ⟨recorded, record⟩ := pageFact_ok ids now answered "monthly_rent"
    (.number (usd * 100)) .high (quotedEvidence reading.facts.rentEvidence)
  have kept : recorded.journal .rent reading.listing.canonicalListingId =
      db.journal .rent reading.listing.canonicalListingId :=
    (recordFact_factsOnly record).untouched.journal
  have refused : ((recorded.updateListing reading.listing.canonicalListingId
      (CanonicalListing.reprice now (usd * 100))).insertEvent ids
        (pageRentEvent reading.listing now (usd * 100))).2 = none :=
    (insertEvent_journal ids _ (pageRentEvent_makes reading.listing now (usd * 100))
      rent_eventType).2.mpr (kept ▸ used)
  unfold applyPageRent
  rw [states]
  dsimp only
  rw [if_neg differs, free, ok_bind, record, ok_bind]
  dsimp only
  split
  · rename_i emitted
    rw [emitted] at refused
    cases refused
  · rfl

/-- A call that read a page fails on a unique index just when its rent collides. -/
theorem enrich_integrityError_iff (answered : db.Answered listingId)
    (read : db.readPage env listingId force = .ok (.inr reading)) :
    db.enrich env now listingId force = .error .integrityError ↔ db.RentCollides reading := by
  constructor
  · intro failed
    by_contra clear
    obtain ⟨next, outcome, enriched⟩ := enrich_ok read now answered clear
    cases failed.symm.trans enriched
  · intro collides
    obtain rfl : reading.listing.canonicalListingId = listingId :=
      key_of_get (readPage_listing read)
    have execution := recordExecution_pagesOnly env.ids reading.contentHash reading.modelId db
    have executed : (db.recordExecution env.ids reading.contentHash reading.modelId).RentCollides
        reading := by
      obtain ⟨usd, states, differs, free, used⟩ := collides
      refine ⟨usd, states, differs, ?_, ?_⟩
      · rwa [activeOverride_congr execution.overrides]
      · rwa [execution.untouched.journal]
    have priced := applyPageRent_collides env.ids now
      (answered_congr answered execution.overrides) executed
    unfold enrich
    rw [read, ok_bind]
    change ((db.recordExecution env.ids reading.contentHash reading.modelId).applyPage env.ids now
      reading >>= _) = _
    rw [applyPage, priced]
    rfl

/-- An enrichment never collides just when it corrects to a new rent. -/
theorem neverCollides_action_iff (unique : OneActiveOverride db.overrides)
    (action : ContentAction) :
    NeverCollides library db action ↔ CorrectsAnew library db action := by
  cases action with
  | processObservation scan now method observationId => exact Iff.rfl
  | outside write => exact Iff.rfl
  | enrich scan now answers listingId force =>
      constructor
      · intro never reading read collides
        exact never ((enrich_integrityError_iff (answered_of_unique unique listingId) read).mpr
          collides)
      · intro anew failed
        rcases bind_eq_error.mp failed with unread | ⟨read, found, _⟩
        · exact readPage_ne_integrityError unread
        · cases read with
          | inl status =>
              rw [enrich, found] at failed
              cases failed
          | inr reading =>
              exact anew reading found
                ((enrich_integrityError_iff (answered_of_unique unique listingId) found).mp failed)

/-- **Collisions.** In every history of the two pipelines no enrichment fails on a unique
index just when no page corrects a rent to one that an earlier page corrected it to. -/
theorem neverCollides_iff (library : ContentLibrary) (actions : List ContentAction) :
    Permitted (contentStep library) (NeverCollides library) Database.empty actions ↔
      Permitted (contentStep library) (CorrectsAnew library) Database.empty actions := by
  have every : Permitted (contentStep library) (fun _ _ => True) Database.empty actions :=
    fun _ _ => trivial
  exact permitted_congr
    (fun db action unique _ => uniqueOverrides_preserved db action unique trivial)
    (fun _ action unique _ => neverCollides_action_iff unique action) uniqueIndex_nil every

/-- A page states a rent, and then an observation another one. -/
def snippetAfterPage : List ContentAction :=
  [.outside (outsideWrite [rentSeen 1 0 100000 "x", rentSeen 2 10 180000 "y"] []),
    .processObservation (fun _ => 0) 0 .direct 1,
    enrichStating 102 { monthlyRentUsd := some 2000 },
    .processObservation (fun _ => 0) 0 .direct 2]

/-- The rent returns to what the page stated before. -/
theorem page_rent_collides :
    ¬Permitted (contentStep asciiLibrary) (NeverCollides asciiLibrary) Database.empty
      (snippetAfterPage ++ [.enrich (fun _ => 0) 0
        (pageStating { monthlyRentUsd := some 2000 }) 102 true]) := by
  intro permitted
  obtain ⟨_, later⟩ := (permitted_append _ _ _).mp permitted
  have never := ((permitted_cons _ _ _).mp later).1
  have collides : (enriched asciiLibrary snippetAfterPage).enrich
      (asciiLibrary.content (fun _ => 0) (pageStating { monthlyRentUsd := some 2000 })) 0 102 true =
        .error .integrityError := by
    decide
  exact never collides

/-! ## Statements -/

end Database

/-- A rent that was stated about a listing: by the text of a page that was extracted, or by
an observation that was applied. -/
structure RentStatement where
  listingId : Uuid
  page : Option (List Char)
  minor : Option Nat
  deriving DecidableEq

/-- A database beside what was stated to it, the latest first; the program keeps no such
list. -/
structure Watched where
  db : Database
  statements : List RentStatement

namespace Database

/-- The text of the page that a call of enrichment reads. -/
def pageText (env : ContentEnvironment) (listingId : Uuid) (db : Database) : Option (List Char) :=
  match db.listing? listingId, db.latestActiveLink env.scan listingId with
  | some listing, some link =>
      match db.findPage env listing link with
      | .ok (some (page, _)) => some (relevantExcerpt env.unicode page.toList)
      | _ => none
  | _, _ => none

/-- The listing that an observation applies to. -/
def appliedListing (db : Database) (row : SourceObservation) : Option CanonicalListing :=
  match db.findLink row with
  | .ok (some link) =>
      if row.processable && link.latestObservationId ≠ row.sourceObservationId &&
          !db.sameContent link row then
        db.listing? link.canonicalListingId
      else none
  | _ => none

/-- What a call that returns states about the rent of a listing. -/
def rentStatements (library : ContentLibrary) (db : Database) : ContentAction → List RentStatement
  | .processObservation _ _ _ observationId =>
      match db.observation? observationId with
      | none => []
      | some row => (db.appliedListing row).toList.map fun listing =>
          ⟨listing.canonicalListingId, none, row.parsedPayload.statedRent⟩
  | .enrich scan _ answers listingId force =>
      match db.readPage (library.content scan answers) listingId force with
      | .ok (.inr reading) => [⟨listingId, db.pageText (library.content scan answers) listingId,
          reading.facts.statedRentUsd.map (· * 100)⟩]
      | _ => []
  | .outside _ => []

end Database

namespace Watched

open Database

def empty : Watched := ⟨Database.empty, []⟩

/-- One call as a transaction, with what it states. -/
def step (library : ContentLibrary) (watched : Watched) (action : ContentAction) : Watched :=
  match watched.db.performContent library action with
  | .ok next => ⟨next, watched.db.rentStatements library action ++ watched.statements⟩
  | .error _ => watched

/-- The rent that was stated last. -/
def lastRent (watched : Watched) (listingId : Uuid) : Option Nat :=
  (watched.statements.find? fun statement =>
    statement.listingId = listingId && statement.minor.isSome).bind RentStatement.minor

/-- The rent that the last extraction of a page text stated. -/
def extractedRent (watched : Watched) (listingId : Uuid) (text : List Char) : Option Nat :=
  (watched.statements.find? fun statement =>
    statement.listingId = listingId && statement.page = some text).bind RentStatement.minor

/-- No override on the rent of the listing is active. -/
def RentFree (listingId : Uuid) (watched : Watched) (_ : ContentAction) : Prop :=
  watched.db.activeOverride .listing listingId "monthly_rent" = .ok none ∧
    watched.db.activeOverride .listing listingId "monthly_rent_minor" = .ok none

/-- An enrichment of the listing that ends enriched or skipped leaves the listing with the
rent that the last extraction of its page text stated. -/
def Outranks (library : ContentLibrary) (listingId : Uuid) (watched : Watched)
    (action : ContentAction) : Prop :=
  match action with
  | .enrich scan now answers target force => target = listingId → ∀ next outcome,
      watched.db.enrich (library.content scan answers) now listingId force = .ok (next, outcome) →
        outcome.status = .enriched ∨ outcome.status = .skippedUnchanged → ∀ text minor,
          watched.db.pageText (library.content scan answers) listingId = some text →
            (watched.step library action).extractedRent listingId text = some minor →
              next.column .rent listingId = some (.number minor)
  | _ => True

/-- Where a page text is skipped, no observation states another rent since its last
extraction, unless the last one that states a rent states the rent of the page. -/
def SnippetAgrees (library : ContentLibrary) (listingId : Uuid) (watched : Watched)
    (action : ContentAction) : Prop :=
  match action with
  | .enrich scan _ answers target false => target = listingId → ∀ text minor,
      watched.db.pageText (library.content scan answers) listingId = some text →
        watched.db.alreadyExtracted scan listingId (library.sha256 text) = true →
          watched.extractedRent listingId text = some minor →
            watched.lastRent listingId = some minor
  | _ => True

variable {library : ContentLibrary} {listingId : Uuid} {watched : Watched} {action : ContentAction}
  {db next : Database} {env : ContentEnvironment} {force : Bool} {minor : Nat}

/-! ## Reading statements -/

/-- The rent stated last is that of the newest statement that states one. -/
theorem lastRent_cons (db : Database) (statement : RentStatement)
    (statements : List RentStatement) :
    (Watched.mk db (statement :: statements)).lastRent listingId =
      if statement.listingId = listingId ∧ statement.minor.isSome then statement.minor
      else (Watched.mk db statements).lastRent listingId := by
  unfold lastRent
  rw [List.find?_cons]
  by_cases about : statement.listingId = listingId ∧ statement.minor.isSome
  · simp [about]
  · rw [if_neg about]
    have skipped : (decide (statement.listingId = listingId) && statement.minor.isSome) =
        false := by
      simpa using about
    rw [skipped]

/-- The listing that a row applies to is the one that it is found for. -/
theorem applies_iff {row : SourceObservation} {listing : CanonicalListing} :
    db.appliedListing row = some listing ↔ db.Applies row listing := by
  unfold appliedListing Applies
  constructor
  · intro applied
    split at applied
    · rename_i link known
      rw [Option.ite_none_right_eq_some] at applied
      obtain ⟨passes, found⟩ := applied
      simp only [Bool.and_eq_true, decide_eq_true_eq, Bool.not_eq_true'] at passes
      exact ⟨passes.1.1, link, known, found, passes.1.2, passes.2⟩
    · cases applied
  · rintro ⟨processable, link, known, found, new, differs⟩
    rw [known]
    simp [processable, new, differs, found]

/-! ## The rent is the one stated last -/

/-- The listing has the rent that was stated last. -/
def Kept (listingId : Uuid) (watched : Watched) : Prop :=
  ∀ minor, watched.lastRent listingId = some minor →
    watched.db.column .rent listingId = some (.number minor)

theorem kept_of_silent {statements : List RentStatement} (kept : Kept listingId ⟨db, statements⟩)
    (stays : ∀ value, db.column .rent listingId = some value →
      next.column .rent listingId = some value) : Kept listingId ⟨next, statements⟩ :=
  fun minor last => stays _ (kept minor last)

/-- A statement that is written, or states nothing, keeps the rent the one stated last. -/
theorem kept_cons {statement : RentStatement} {statements : List RentStatement}
    (kept : Kept listingId ⟨db, statements⟩)
    (writes : ∀ minor, statement.listingId = listingId → statement.minor = some minor →
      next.column .rent listingId = some (.number minor))
    (stays : (statement.listingId = listingId → statement.minor = none) →
      ∀ value, db.column .rent listingId = some value → next.column .rent listingId = some value) :
    Kept listingId ⟨next, statement :: statements⟩ := by
  intro minor last
  rw [lastRent_cons] at last
  split at last
  · rename_i about
    exact writes minor about.1 last
  · rename_i elsewhere
    refine stays (fun about => ?_) _ (kept minor last)
    exact Option.not_isSome_iff_eq_none.mp fun stated => elsewhere ⟨about, stated⟩

/-- Without an override normalization keeps the rent the one stated last: what it states is
written, and what it does not state stays. -/
theorem observation_kept {scan : Uuid → Nat} {now : Timestamp} {method : DiscoveryMethod}
    {observationId : Uuid} {outcome : NormalizationOutcome} (kept : Kept listingId watched)
    (free : RentFree listingId watched (.processObservation scan now method observationId))
    (processed : watched.db.processObservation (library.environment scan) now method
      observationId = .ok (next, outcome)) :
    Kept listingId ⟨next, watched.db.rentStatements library
      (.processObservation scan now method observationId) ++ watched.statements⟩ := by
  rcases processObservation_fields processed with
    ⟨row, listing, found, applies, others, fields⟩ | ⟨idle, untouched⟩
  · have states : watched.db.rentStatements library
        (.processObservation scan now method observationId) =
          [⟨listing.canonicalListingId, none, row.parsedPayload.statedRent⟩] := by
      simp [rentStatements, found, applies_iff.mpr applies]
    rw [states]
    have ⟨_, link, _, linked, _⟩ := applies
    have named : listing.canonicalListingId = link.canonicalListingId := key_of_get linked
    have stored := column_of_found (named ▸ linked) .rent
    refine kept_cons kept ?_ ?_
    · rintro minor rfl stated
      have said : ListingField.rent.stated row.parsedPayload = some (.number minor) := by
        change row.parsedPayload.statedRent = some minor at stated
        simp [ListingField.stated, stated]
      cases fields .rent (by decide) with
      | kept agrees untouched =>
          rw [untouched.column, stored, ← agrees _ said]
      | governed _ _ governs _ _ => cases free.2.symm.trans governs
      | written states _ _ _ column _ =>
          cases said.symm.trans states
          exact column
    · intro silent value held
      by_cases own : listing.canonicalListingId = listingId
      · subst own
        have none : ListingField.rent.stated row.parsedPayload = none := by
          have silent := silent rfl
          change row.parsedPayload.statedRent = none at silent
          simp [ListingField.stated, silent]
        cases fields .rent (by decide) with
        | kept agrees untouched => rw [untouched.column, held]
        | governed states _ _ _ _ => cases none.symm.trans states
        | written states _ _ _ _ _ => cases none.symm.trans states
      · rw [(others .rent listingId fun same => (own same.symm).elim).column, held]
  · have states : watched.db.rentStatements library
        (.processObservation scan now method observationId) = [] := by
      unfold rentStatements
      dsimp only
      split
      · rfl
      · rename_i row found
        rw [List.map_eq_nil_iff, Option.toList_eq_nil_iff]
        refine Option.eq_none_iff_forall_ne_some.mpr fun listing applied => ?_
        exact idle row found listing (applies_iff.mp applied)
    rw [states]
    refine kept_of_silent kept fun value held => ?_
    obtain ⟨target, found, _⟩ := Option.map_eq_some_iff.mp held
    rw [((untouched .rent listingId).2 target found).column, held]

/-- Without an override enrichment keeps the rent the one stated last: a correction is written,
and without one the column stays. -/
theorem enrichment_kept {scan : Uuid → Nat} {now : Timestamp} {answers : PageAnswers}
    {target : Uuid} {outcome : EnrichmentOutcome} (kept : Kept listingId watched)
    (free : RentFree listingId watched (.enrich scan now answers target force))
    (enriched : watched.db.enrich (library.content scan answers) now target force =
      .ok (next, outcome)) :
    Kept listingId ⟨next, watched.db.rentStatements library
      (.enrich scan now answers target force) ++ watched.statements⟩ := by
  rcases enrich_fields enriched with ⟨rfl, idle⟩ | ⟨reading, read, stored, rfl, fields⟩
  · have states : watched.db.rentStatements library (.enrich scan now answers target force) =
        [] := by
      unfold rentStatements
      dsimp only
      split
      · rename_i reading read
        exact (idle reading read).elim
      · rfl
    rw [states]
    exact kept
  · have states : watched.db.rentStatements library
        (.enrich scan now answers reading.listing.canonicalListingId force) =
          [⟨reading.listing.canonicalListingId, watched.db.pageText (library.content scan answers)
            reading.listing.canonicalListingId, reading.facts.statedRentUsd.map (· * 100)⟩] := by
      simp [rentStatements, read]
    rw [states]
    refine kept_cons kept ?_ ?_
    · rintro minor rfl stated
      obtain ⟨usd, said, rfl⟩ := Option.map_eq_some_iff.mp stated
      cases fields.rent with
      | kept keeps untouched =>
          have same := (keeps usd said).resolve_right fun governed => governed free.1
          rw [untouched.column, column_of_found stored .rent]
          simp [ListingField.column, same]
      | written states _ _ _ column _ =>
          cases said.symm.trans states
          exact column
    · intro silent value held
      by_cases own : reading.listing.canonicalListingId = listingId
      · subst own
        have none := Option.map_eq_none_iff.mp (silent rfl)
        cases fields.rent with
        | kept _ untouched => rw [untouched.column, held]
        | written states _ _ _ _ _ => cases none.symm.trans states
      · rw [(fields.others .rent listingId fun same => (own same.symm).elim).column, held]

/-- Without an override on it, the rent stays the one that was stated last. -/
theorem kept_preserved (library : ContentLibrary) (listingId : Uuid) :
    Preserved (step library) (RentFree listingId) (Kept listingId) := by
  intro watched action kept free
  unfold step
  split
  · rename_i next performed
    rcases performContent_cases performed with
      ⟨_, _, _, _, _, rfl, processed⟩ | ⟨_, _, _, _, _, _, rfl, enriched⟩ | ⟨write, rfl, _, rfl⟩
    · exact observation_kept kept free processed
    · exact enrichment_kept kept free enriched
    · exact kept
  · exact kept

/-! ## Skipped pages -/

/-- A page that has a text is skipped when its digest is the marker of the listing, and is
extracted otherwise. -/
theorem readPage_of_pageText {text : List Char} (force : Bool)
    (found : db.pageText env listingId = some text) :
    if (!force && db.alreadyExtracted env.scan listingId (env.sha256 text)) = true then
      db.readPage env listingId force = .ok (.inl .skippedUnchanged)
    else db.readPage env listingId force = .ok (.inl .llmFailed) ∨
      ∃ reading, db.readPage env listingId force = .ok (.inr reading) := by
  unfold pageText at found
  split at found
  · rename_i listing link listed linked
    split at found
    · rename_i page url fetched
      cases found
      have opened : db.readPage env listingId force =
          (match db.listing? listingId, db.latestActiveLink env.scan listingId with
            | some listing, some link => _
            | _, _ => _) := rfl
      rw [listed, linked] at opened
      dsimp only at opened
      rw [fetched, ok_bind] at opened
      dsimp only at opened
      split
      · rename_i marked
        rw [opened, if_pos marked]
        rfl
      · rename_i unmarked
        rw [opened, if_neg unmarked]
        split
        · exact .inr ⟨_, rfl⟩
        · exact .inl rfl
    · cases found
  · cases found

/-- A stated extraction is a statement of the rent. -/
theorem lastRent_of_extractedRent {text : List Char}
    (extracted : watched.extractedRent listingId text = some minor) :
    ∃ last, watched.lastRent listingId = some last := by
  obtain ⟨statement, found, stated⟩ := Option.bind_eq_some_iff.mp extracted
  have about := List.find?_some found
  simp only [Bool.and_eq_true, decide_eq_true_eq] at about
  have present : (watched.statements.find? fun statement =>
      statement.listingId = listingId && statement.minor.isSome).isSome := by
    refine List.find?_isSome.mpr ⟨statement, List.mem_of_find?_eq_some found, ?_⟩
    simp [about.1, stated]
  obtain ⟨last, latest⟩ := Option.isSome_iff_exists.mp present
  have said := List.find?_some latest
  simp only [Bool.and_eq_true] at said
  obtain ⟨rent, states⟩ := Option.isSome_iff_exists.mp said.2
  exact ⟨rent, Option.bind_eq_some_iff.mpr ⟨last, latest, states⟩⟩

/-- A page that is skipped writes nothing and states nothing. -/
theorem enrich_skipped {scan : Uuid → Nat} {answers : PageAnswers} (now : Timestamp)
    (skipped : watched.db.readPage (library.content scan answers) listingId force =
      .ok (.inl .skippedUnchanged)) :
    watched.db.enrich (library.content scan answers) now listingId force =
        .ok (watched.db, ⟨listingId, .skippedUnchanged, []⟩) ∧
      watched.step library (.enrich scan now answers listingId force) = watched := by
  have enriched : watched.db.enrich (library.content scan answers) now listingId force =
      .ok (watched.db, ⟨listingId, .skippedUnchanged, []⟩) := by
    rw [enrich, skipped]
    rfl
  refine ⟨enriched, ?_⟩
  rw [step, performContent, enriched]
  simp only [ok_bind, rentStatements, skipped, List.nil_append]
  rfl

/-- Where the rent is the one stated last, the page outranks the snippet just when no snippet
came between. -/
theorem outranks_action_iff (kept : Kept listingId watched)
    (free : RentFree listingId watched action) :
    Outranks library listingId watched action ↔ SnippetAgrees library listingId watched action := by
  cases action with
  | processObservation scan now method observationId => exact Iff.rfl
  | outside write => exact Iff.rfl
  | enrich scan now answers target force =>
      constructor
      · intro outranks
        cases force with
        | true => trivial
        | false =>
            rintro rfl text minor found marked extracted
            have skipped : watched.db.readPage (library.content scan answers) target false =
                .ok (.inl .skippedUnchanged) := by
              have read := readPage_of_pageText false found
              rwa [if_pos (by rw [Bool.and_eq_true]; exact ⟨rfl, marked⟩)] at read
            obtain ⟨enriched, stays⟩ := enrich_skipped now skipped
            have held := outranks rfl _ _ enriched (.inr rfl) text minor found
              (by rw [stays]; exact extracted)
            obtain ⟨last, latest⟩ := lastRent_of_extractedRent extracted
            have current := (kept last latest).symm.trans held
            cases current
            exact latest
      · rintro agrees rfl next outcome enriched ends text minor found extracted
        have read := readPage_of_pageText force found
        split at read
        · rename_i marked
          obtain ⟨again, stays⟩ := enrich_skipped now read
          cases again.symm.trans enriched
          rw [stays] at extracted
          simp only [Bool.and_eq_true, Bool.not_eq_true'] at marked
          obtain ⟨rfl, marked⟩ := marked
          exact kept minor (agrees rfl text minor found marked extracted)
        · rcases read with failed | ⟨reading, read⟩
          · rw [enrich, failed] at enriched
            cases enriched
            rcases ends with ends | ends <;> cases ends
          · have after := enrichment_kept kept free enriched
            have states : watched.db.rentStatements library
                (.enrich scan now answers target force) =
                  [⟨target, some text, reading.facts.statedRentUsd.map (· * 100)⟩] := by
              simp [rentStatements, read, found]
            have moved : watched.step library (.enrich scan now answers target force) =
                ⟨next, ⟨target, some text, reading.facts.statedRentUsd.map (· * 100)⟩ ::
                  watched.statements⟩ := by
              rw [step, performContent, enriched]
              simp only [ok_bind, states]
              rfl
            rw [moved] at extracted
            rw [states] at after
            have stated : reading.facts.statedRentUsd.map (· * 100) = some minor := by
              simpa [extractedRent] using extracted
            refine after minor ?_
            rw [List.singleton_append, lastRent_cons, stated]
            simp

/-- **The page outranks the snippet.** In every history without an override on the rent of a
listing, its enrichments leave the rent that the page stated just when, wherever a page is
skipped, the rent stated last is the one of the page. -/
theorem outranksSnippet_iff (library : ContentLibrary) (listingId : Uuid)
    (actions : List ContentAction)
    (free : Permitted (step library) (RentFree listingId) empty actions) :
    Permitted (step library) (Outranks library listingId) empty actions ↔
      Permitted (step library) (SnippetAgrees library listingId) empty actions := by
  have preserved : Preserved (step library) (fun watched action =>
      RentFree listingId watched action ∧ SnippetAgrees library listingId watched action)
        (Kept listingId) := fun watched action kept allowed =>
    kept_preserved library listingId watched action kept allowed.1
  exact permitted_congr preserved
    (fun _ _ kept free => outranks_action_iff kept free) (fun _ last => nomatch last) free

/-- Nothing overrides the rent while the page and the snippets come in. -/
theorem snippetAfterPage_free :
    Permitted (step asciiLibrary) (RentFree 102) empty snippetAfterPage := by
  simp only [snippetAfterPage, permitted_cons, permitted_nil, and_true]
  exact ⟨⟨rfl, rfl⟩, ⟨by decide, by decide⟩, ⟨by decide, by decide⟩, ⟨by decide, by decide⟩⟩

/-- The page is unchanged and skipped, and the listing keeps the rent of the snippet. -/
theorem skipped_page_keeps_snippet :
    Permitted (step asciiLibrary) (RentFree 102) empty
        (snippetAfterPage ++ [enrichStating 102 { monthlyRentUsd := some 2000 }]) ∧
      ¬Permitted (step asciiLibrary) (Outranks asciiLibrary 102) empty
        (snippetAfterPage ++ [enrichStating 102 { monthlyRentUsd := some 2000 }]) := by
  refine ⟨(permitted_append _ _ _).mpr ⟨snippetAfterPage_free, ?_⟩, fun outranks => ?_⟩
  · simp only [permitted_cons, permitted_nil, and_true]
    exact ⟨by decide, by decide⟩
  · obtain ⟨_, later⟩ := (permitted_append _ _ _).mp outranks
    have skipped : (run (step asciiLibrary) empty snippetAfterPage).db.enrich
        (asciiLibrary.content (fun _ => 0) (pageStating { monthlyRentUsd := some 2000 })) 0 102
          false = .ok ((run (step asciiLibrary) empty snippetAfterPage).db,
            ⟨102, .skippedUnchanged, []⟩) := by
      decide
    have held := ((permitted_cons _ _ _).mp later).1 rfl _ _ skipped (.inr rfl)
      (relevantExcerpt asciiTables "listing page".toList) 200000 (by decide) (by decide)
    exact absurd held (by decide)

/-- The rent is the one of the page once the page was read. -/
theorem snippetAfterPage_outranks :
    Permitted (step asciiLibrary) (Outranks asciiLibrary 102) empty snippetAfterPage := by
  refine (outranksSnippet_iff asciiLibrary 102 snippetAfterPage snippetAfterPage_free).mpr ?_
  simp only [snippetAfterPage, permitted_cons, permitted_nil, and_true]
  refine ⟨trivial, trivial, fun _ text minor _ marked _ => ?_, trivial⟩
  have silent : (enriched asciiLibrary (snippetAfterPage.take 2)).assertions.filter (fun row =>
      row.entityId = 102 && row.factKey = "detail_extract_hash") = [] := by decide
  change (enriched asciiLibrary (snippetAfterPage.take 2)).alreadyExtracted _ 102 _ = true at marked
  rw [alreadyExtracted, silent] at marked
  cases marked

end Watched

end RentalAgent
