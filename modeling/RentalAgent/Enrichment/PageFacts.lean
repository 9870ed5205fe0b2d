import RentalAgent.Canonical.Audit
import RentalAgent.Enrichment.Pipelines

/-! # The facts of a page

A page records a corrected rent under `"monthly_rent"`, a stated laundry under
`"laundry_type"`, and side matters under other keys (`Database.PageNoted`); it records
nothing about another listing.
-/

namespace RentalAgent

open Relational

/-- The rent a page corrects the one of its listing to. -/
def PageReading.correction (reading : PageReading) : Option Nat :=
  (reading.facts.statedRentUsd.map (· * 100)).filter fun minor =>
    reading.listing.monthlyRentMinor ≠ some minor

namespace Database

variable {ids : IdSupply} {now : Timestamp} {db middle next : Database} {listingId : Uuid}
  {listing : CanonicalListing} {facts : ListingPageFacts} {reading : PageReading}

theorem PagesOnly.factsKept (pages : PagesOnly db next) : FactsKept db next :=
  ⟨by rw [pages.frame], by rw [pages.frame], pages.drawn⟩

/-- A side fact takes no note of other names. -/
theorem SideFact.unnoted {sideKey : String} (side : SideFact ids now listingId sideKey db next)
    {name : FactName} (differs : listingFact listingId sideKey ≠ name) :
    Noted ids name Option.none db next := by
  cases side with
  | none => exact (FactsKept.refl db).noted
  | recorded named record =>
      exact recordFact_unnoted record fun same => differs (named.symm.trans same)

/-- The rent part records a corrected rent. -/
theorem PageRentStep.noted (step : PageRentStep ids now reading.listing reading.facts db next)
    (ungoverned : db.Ungoverned reading.listing.canonicalListingId) :
    Noted ids (listingFact reading.listing.canonicalListingId "monthly_rent")
      (reading.correction.map .number) db next := by
  cases step with
  | unstated silent =>
      rw [PageReading.correction, silent]
      exact (FactsKept.refl db).noted
  | agrees states same =>
      rw [PageReading.correction, states, Option.map_some,
        Option.filter_some_neg (by simp [same])]
      exact (FactsKept.refl db).noted
  | disputed _ _ governs _ => cases (ungoverned.activeOverride _).symm.trans governs
  | written states differs free record _ =>
      rw [PageReading.correction, states, Option.map_some, Option.filter_some_pos (by simpa)]
      exact (recordFact_noted_self record free).between (.refl db)
        ((updateListing_factsKept _ _ _).trans (insertEvent_factsKept ids _ _))

/-- The rent part of a page notes the corrected rent only. -/
theorem PageRentStep.unnoted (step : PageRentStep ids now listing facts db next) {name : FactName}
    (differs : listingFact listing.canonicalListingId "monthly_rent" ≠ name) :
    Noted ids name none db next := by
  cases step with
  | unstated _ => exact (FactsKept.refl db).noted
  | agrees _ _ => exact (FactsKept.refl db).noted
  | disputed _ _ _ record =>
      exact (recordFact_unnoted record differs).between (.refl db)
        (raiseConflict_factsKept ids _ _ _ _ _)
  | written _ _ _ record _ =>
      exact (recordFact_unnoted record differs).between (.refl db)
        ((updateListing_factsKept _ _ _).trans (insertEvent_factsKept ids _ _))

/-- The laundry part records a stated laundry. -/
theorem PageLaundryStep.noted (step : PageLaundryStep ids now listing facts db next)
    (ungoverned : db.Ungoverned listing.canonicalListingId) :
    Noted ids (listingFact listing.canonicalListingId "laundry_type")
      (facts.statedLaundry.map .laundry) db next := by
  cases step with
  | unstated silent =>
      rw [silent]
      exact (FactsKept.refl db).noted
  | disputed _ governs _ => cases (ungoverned.activeOverride _).symm.trans governs
  | written states free record =>
      rw [states]
      exact (recordFact_noted_self record free).between (.refl db) (updateListing_factsKept _ _ _)

/-- The laundry part of a page notes the laundry only. -/
theorem PageLaundryStep.unnoted (step : PageLaundryStep ids now listing facts db next)
    {name : FactName} (differs : listingFact listing.canonicalListingId "laundry_type" ≠ name) :
    Noted ids name none db next := by
  cases step with
  | unstated _ => exact (FactsKept.refl db).noted
  | disputed _ _ record =>
      exact (recordFact_unnoted record differs).between (.refl db)
        (raiseConflict_factsKept ids _ _ _ _ _)
  | written _ _ record =>
      exact (recordFact_unnoted record differs).between (.refl db) (updateListing_factsKept _ _ _)

/-- What a page records about its listing. -/
structure PageNoted (ids : IdSupply) (reading : PageReading) (listingId : Uuid)
    (db next : Database) : Prop where
  rent : Noted ids (listingFact listingId "monthly_rent") (reading.correction.map .number) db next
  laundry : Noted ids (listingFact listingId ListingField.laundry.key)
    (reading.facts.statedLaundry.map .laundry) db next
  others : ∀ field : ListingField, field ≠ .laundry →
    Noted ids (listingFact listingId field.key) none db next

theorem listingFact_ne {first second : Uuid} {firstKey secondKey : String}
    (differs : first = second → firstKey ≠ secondKey) :
    listingFact first firstKey ≠ listingFact second secondKey := fun same =>
  differs (congrArg FactName.entityId same) (congrArg FactName.factKey same)

/-- The parts after the rent and the laundry record side matters of the listing. -/
theorem PageWrites.unnoted_after (writes : PageWrites ids now reading db next) {factKey : String}
    (aside : listingId = reading.listing.canonicalListingId →
      factKey ∉ ["fee_status", "amenities", "detail_extract_hash"]) :
    Noted ids (listingFact listingId factKey) none writes.washed next := by
  have apart : ∀ sideKey ∈ ["fee_status", "amenities", "detail_extract_hash"],
      listingFact reading.listing.canonicalListingId sideKey ≠ listingFact listingId factKey :=
    fun sideKey member => listingFact_ne fun same equal => aside same.symm (equal ▸ member)
  exact (((writes.fee.unnoted (apart _ (by decide))).trans
    (writes.amenities.unnoted (apart _ (by decide)))).trans writes.floorPlan.factsKept.noted).trans
      (writes.marker.unnoted (apart _ (by decide)))

/-- A page notes the facts that it states about its listing. -/
theorem PageWrites.noted (writes : PageWrites ids now reading db next)
    (ungoverned : db.Ungoverned reading.listing.canonicalListingId) :
    PageNoted ids reading reading.listing.canonicalListingId db next := by
  have executed := ungoverned_congr ungoverned writes.execution.overrides
  have priced := executed.inventoryOnly writes.rent.inventoryOnly
  refine ⟨?_, ?_, fun field notLaundry => ?_⟩
  · have before : Noted ids (listingFact reading.listing.canonicalListingId "monthly_rent")
        (reading.correction.map .number) db writes.priced := by
      simpa using writes.execution.factsKept.noted.trans (writes.rent.noted executed)
    have after : Noted ids (listingFact reading.listing.canonicalListingId "monthly_rent") none
        writes.priced next :=
      (writes.laundry.unnoted (listingFact_ne fun _ => by decide)).trans
        (writes.unnoted_after fun _ => by decide)
    exact before.trans after
  · have before : Noted ids (listingFact reading.listing.canonicalListingId "laundry_type") none
        db writes.priced :=
      writes.execution.factsKept.noted.trans
        (writes.rent.unnoted (listingFact_ne fun _ => by decide))
    have after : Noted ids (listingFact reading.listing.canonicalListingId "laundry_type")
        (reading.facts.statedLaundry.map .laundry) writes.priced next :=
      (writes.laundry.noted priced).trans (writes.unnoted_after fun _ => by decide)
    change Noted ids (listingFact reading.listing.canonicalListingId "laundry_type") _ db next
    simpa using before.trans after
  · have before : Noted ids (listingFact reading.listing.canonicalListingId field.key) none
        db writes.priced :=
      writes.execution.factsKept.noted.trans
        (writes.rent.unnoted (listingFact_ne fun _ => by cases field <;> decide))
    have after : Noted ids (listingFact reading.listing.canonicalListingId field.key) none
        writes.priced next :=
      (writes.laundry.unnoted (listingFact_ne fun _ =>
        ListingField.key_injective.ne (Ne.symm notLaundry))).trans
          (writes.unnoted_after fun _ => by cases field <;> decide)
    exact before.trans after

/-- Nothing is recorded about another listing. -/
theorem PageWrites.unrecorded (writes : PageWrites ids now reading db next)
    (differs : listingId ≠ reading.listing.canonicalListingId) :
    Unrecorded ids listingId db next := by
  intro factKey
  have apart : ∀ pageKey, listingFact reading.listing.canonicalListingId pageKey ≠
      listingFact listingId factKey :=
    fun _ => listingFact_ne fun same => (differs same.symm).elim
  have before : Noted ids (listingFact listingId factKey) none db writes.priced :=
    writes.execution.factsKept.noted.trans (writes.rent.unnoted (apart _))
  exact before.trans ((writes.laundry.unnoted (apart _)).trans
    (writes.unnoted_after fun same => (differs same).elim))

end Database

end RentalAgent
