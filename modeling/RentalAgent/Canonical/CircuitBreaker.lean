import RentalAgent.Canonical.Reversal
import RentalAgent.Canonical.Standings

/-! # Inactivation behind the circuit breaker

A gate-passed run inactivates every listing that the links after its own transitions
leave unsupported, or none of them: the cap depends on the active inventory, and a
proposal above it is recorded as a blocking issue (`Database.inactivation_guarded`).
-/

namespace RentalAgent

open Relational

/-- The listing may be inactivated: it is current, no link supports it, and no active
override governs its lifecycle. -/
def CanonicalListing.Eligible (links : List ListingSourceLink) (overrides : List HumanOverride)
    (listing : CanonicalListing) : Prop :=
  (listing.lifecycleStatus = .candidate ∨ listing.lifecycleStatus = .active) ∧
    (∀ link ∈ links, link.canonicalListingId = listing.canonicalListingId →
      link.linkStatus ≠ .active ∧ link.linkStatus ≠ .missing ∧ link.linkStatus ≠ .conflicting) ∧
    ∀ override ∈ overrides, override.entityId = listing.canonicalListingId →
      override.fieldName = "lifecycle_status" → override.overrideStatus ≠ .active

instance (links : List ListingSourceLink) (overrides : List HumanOverride)
    (listing : CanonicalListing) : Decidable (listing.Eligible links overrides) :=
  inferInstanceAs (Decidable (_ ∧ _))

/-- The listing after its inactivation. -/
def CanonicalListing.inactivated (now : Timestamp) (listing : CanonicalListing) :
    CanonicalListing :=
  { listing with lifecycleStatus := .inactive, inactiveAt := some now }

namespace Database

variable {ids : IdSupply} {now : Timestamp} {db next : Database}

/-- How many listings the links and overrides would let be inactivated. -/
def proposedInactivations (db : Database) (links : List ListingSourceLink) : Nat :=
  db.listings.countP fun listing => listing.Eligible links db.overrides

/-- The listings a run may inactivate at once. -/
def inactivationCap (db : Database) : Nat :=
  min 50 (max 1 (db.listings.countP (fun listing => listing.lifecycleStatus = .active) / 4))

/-- Every eligible listing is inactivated and no other listing changes, or nothing but
one blocking issue is written. -/
def InactivatedAtOnce (db next : Database) (now : Timestamp) : Prop :=
  if db.proposedInactivations next.links ≤ db.inactivationCap then
    next.listings = (db.listings.map fun listing =>
        if listing.Eligible next.links db.overrides then listing.inactivated now else listing) ∧
      next.reviewIssues = db.reviewIssues
  else
    next.listings = db.listings ∧ ∃ issue : ReviewIssue,
      next.reviewIssues = db.reviewIssues ++ [issue] ∧ issue.severity = .blocking

/-! ## The link loop leaves the listings alone -/

/-- The step wrote neither listings nor overrides nor issues. -/
structure InventoryKept (db next : Database) : Prop where
  listings : next.listings = db.listings
  overrides : next.overrides = db.overrides
  reviewIssues : next.reviewIssues = db.reviewIssues

theorem LinksOnly.inventoryKept (links : LinksOnly db next) : InventoryKept db next := by
  rw [links.frame]
  exact ⟨rfl, rfl, rfl⟩

theorem insertEvent_inventoryKept (event : Uuid → ListingEvent) (db : Database) :
    InventoryKept db (db.insertEvent ids event).1 :=
  (insertEvent_eventsOnly ids event db).linksOnly.inventoryKept

theorem processLinks_inventoryKept (ids : IdSupply) (now : Timestamp) (run : SourceRun)
    (observed : ListingSourceLink → Bool) (links : List ListingSourceLink)
    (state : Database × DisappearanceSummary) :
    InventoryKept state.1 (links.foldl (processLink ids now run observed) state).1 :=
  (processLinks_linksOnly run observed links state).inventoryKept

/-! ## The inactivations -/

theorem supported_eq_false (db : Database) (listingId : Uuid) :
    db.supported listingId = false ↔ ∀ link ∈ db.links, link.canonicalListingId = listingId →
      link.linkStatus ≠ .active ∧ link.linkStatus ≠ .missing ∧ link.linkStatus ≠ .conflicting := by
  simp [supported, and_assoc]

theorem lifecycleOverridden_eq_false (db : Database) (listingId : Uuid) :
    db.lifecycleOverridden listingId = false ↔ ∀ override ∈ db.overrides,
      override.entityId = listingId → override.fieldName = "lifecycle_status" →
        override.overrideStatus ≠ .active := by
  simp [lifecycleOverridden]

/-- The listings that the run inactivates are the eligible ones. -/
theorem eligibleForInactivation_eq (db : Database) :
    db.eligibleForInactivation =
      db.listings.filter fun listing => listing.Eligible db.links db.overrides := by
  apply List.filter_congr
  intro listing _
  rw [Bool.eq_iff_iff, decide_eq_true_eq, CanonicalListing.Eligible, ← supported_eq_false,
    ← lifecycleOverridden_eq_false]
  simp only [Bool.and_eq_true, Bool.or_eq_true, decide_eq_true_eq, Bool.not_eq_true', and_assoc,
    or_comm]

theorem inactivate_listings (listing : CanonicalListing) (db : Database) :
    (inactivate ids now db listing).listings = updateWhere
      (fun row => row.canonicalListingId = listing.canonicalListingId)
      (CanonicalListing.inactivated now) db.listings :=
  (insertEvent_inventoryKept _ _).listings

theorem inactivate_reviewIssues (listing : CanonicalListing) (db : Database) :
    (inactivate ids now db listing).reviewIssues = db.reviewIssues :=
  (insertEvent_inventoryKept _ _).reviewIssues

/-- Inactivating listings one after the other inactivates each of them. -/
theorem inactivates_listings (ids : IdSupply) (now : Timestamp) (chosen : List CanonicalListing)
    (db : Database) :
    (chosen.foldl (inactivate ids now) db).listings = updateWhere
        (fun row => row.canonicalListingId ∈ chosen.map CanonicalListing.canonicalListingId)
        (CanonicalListing.inactivated now) db.listings ∧
      (chosen.foldl (inactivate ids now) db).reviewIssues = db.reviewIssues := by
  induction chosen generalizing db with
  | nil => exact ⟨(updateWhere_eq_self (by simp)).symm, rfl⟩
  | cons listing rest ih =>
      obtain ⟨listings, issues⟩ := ih (inactivate ids now db listing)
      rw [List.foldl_cons]
      refine ⟨?_, issues.trans (inactivate_reviewIssues listing db)⟩
      rw [listings, inactivate_listings, updateWhere, updateWhere, List.map_map]
      apply List.map_congr_left
      intro row _
      by_cases same : row.canonicalListingId = listing.canonicalListingId <;>
        by_cases later : row.canonicalListingId ∈ rest.map CanonicalListing.canonicalListingId <;>
          simp_all [CanonicalListing.inactivated]

/-- The second half of a run, on the links its first half has written. -/
theorem inactivateUnsupported_atOnce (ids : IdSupply) (now : Timestamp)
    (state : Database × DisappearanceSummary)
    (keyed : PrimaryKey CanonicalListing.canonicalListingId state.1.listings) :
    InactivatedAtOnce state.1 (inactivateUnsupported ids now state).1 now := by
  obtain ⟨db, summary⟩ := state
  have proposed : db.proposedInactivations db.links = db.eligibleForInactivation.length := by
    rw [eligibleForInactivation_eq, ← List.countP_eq_length_filter]
    rfl
  unfold InactivatedAtOnce
  rw [inactivateUnsupported_links, proposed]
  change if db.eligibleForInactivation.length ≤ breakerCap _ then _ else _
  have member : ∀ listing, listing ∈ db.eligibleForInactivation ↔
      listing ∈ db.listings ∧ listing.Eligible db.links db.overrides := by
    simp [eligibleForInactivation_eq]
  unfold inactivateUnsupported
  dsimp only
  generalize db.eligibleForInactivation = eligible at member ⊢
  cases eligible with
  | nil =>
      simp only [List.length_nil, Nat.zero_le, ↓reduceIte, and_true]
      conv_lhs => rw [← List.map_id db.listings]
      apply List.map_congr_left
      intro listing inside
      have stays : ¬ listing.Eligible db.links db.overrides := fun chosen =>
        List.not_mem_nil ((member listing).mpr ⟨inside, chosen⟩)
      rw [if_neg stays]
      rfl
  | cons first rest =>
      dsimp only
      by_cases tripped : breakerCap (db.listings.countP fun listing =>
          listing.lifecycleStatus = .active) < (first :: rest).length
      · rw [if_pos tripped, if_neg (Nat.not_le.mpr tripped)]
        exact ⟨rfl, _, rfl, rfl⟩
      · rw [if_neg tripped, if_pos (Nat.not_lt.mp tripped)]
        obtain ⟨listings, issues⟩ := inactivates_listings ids now (first :: rest) db
        refine ⟨listings.trans ?_, issues⟩
        apply List.map_congr_left
        intro listing inside
        have chosen : listing.canonicalListingId ∈ (first :: rest).map
            CanonicalListing.canonicalListingId ↔ listing.Eligible db.links db.overrides := by
          constructor
          · intro among
            obtain ⟨other, otherMem, same⟩ := List.mem_map.mp among
            obtain ⟨otherInside, eligible⟩ := (member other).mp otherMem
            rwa [← keyed.eq_of_mem otherInside inside same]
          · exact fun eligible => List.mem_map_of_mem ((member listing).mpr ⟨inside, eligible⟩)
        simp only [decide_eq_true_eq, chosen]

/-- A gate-passed run inactivates on the links its link loop leaves. -/
theorem processSourceRun_atOnce (ids : IdSupply) (now : Timestamp) {sourceRunId : Uuid}
    {run : SourceRun} (keyed : PrimaryKey CanonicalListing.canonicalListingId db.listings)
    (found : db.sourceRun? sourceRunId = some run) (passed : run.healthGatePassed = some true) :
    ∃ next summary, db.processSourceRun ids now sourceRunId = .ok (next, summary) ∧
      InactivatedAtOnce db next now := by
  unfold processSourceRun
  rw [found]
  dsimp only
  rw [if_neg (fun refused => refused passed)]
  refine ⟨_, _, rfl, ?_⟩
  have kept := processLinks_inventoryKept ids now run (db.observedInRun sourceRunId)
    (db.links.filter (judges run)) (db, {})
  have atOnce := inactivateUnsupported_atOnce ids now _ (kept.listings ▸ keyed)
  unfold InactivatedAtOnce proposedInactivations inactivationCap at atOnce ⊢
  rw [kept.listings, kept.overrides, kept.reviewIssues] at atOnce
  exact atOnce

/-- A gate-passed run inactivates all eligible listings or raises one blocking issue. -/
theorem step_atOnce (ids : IdSupply) (unicode : UnicodeTables) (now : Timestamp)
    {sourceRunId : Uuid} {run : SourceRun}
    (keyed : PrimaryKey CanonicalListing.canonicalListingId db.listings)
    (found : db.sourceRun? sourceRunId = some run) (passed : run.healthGatePassed = some true) :
    InactivatedAtOnce db (db.step ids unicode (.processSourceRun now sourceRunId)) now := by
  obtain ⟨next, summary, processed, atOnce⟩ := processSourceRun_atOnce ids now keyed found passed
  have stepped : db.step ids unicode (.processSourceRun now sourceRunId) = next := by
    simp only [step, perform, processed, ok_bind]
    rfl
  rwa [stepped]

/-- A listing that is inactive after the run was inactive or eligible before. -/
theorem InactivatedAtOnce.origin (atOnce : InactivatedAtOnce db next now)
    {after : CanonicalListing} (member : after ∈ next.listings)
    (inactive : after.lifecycleStatus = .inactive) :
    ∃ old ∈ db.listings, old.canonicalListingId = after.canonicalListingId ∧
      (old.lifecycleStatus = .inactive ∨ old.Eligible next.links db.overrides) := by
  unfold InactivatedAtOnce at atOnce
  split at atOnce
  · rw [atOnce.1] at member
    obtain ⟨old, inside, same⟩ := List.mem_map.mp member
    by_cases eligible : old.Eligible next.links db.overrides
    · rw [if_pos eligible] at same
      exact ⟨old, inside, by rw [← same]; rfl, .inr eligible⟩
    · rw [if_neg eligible] at same
      subst same
      exact ⟨old, inside, rfl, .inl inactive⟩
  · exact ⟨after, atOnce.1 ▸ member, rfl, .inl inactive⟩

/-- **Inactivation safety.** A run whose gate did not pass changes nothing. A gate-passed
one inactivates every listing that is eligible over the links it leaves, when there are at
most as many as the cap allows, and otherwise changes no listing and adds one blocking
issue. -/
theorem inactivation_guarded (ids : IdSupply) (now : Timestamp) {sourceRunId : Uuid}
    {run : SourceRun} (keyed : PrimaryKey CanonicalListing.canonicalListingId db.listings)
    (found : db.sourceRun? sourceRunId = some run) :
    ∃ next summary, db.processSourceRun ids now sourceRunId = .ok (next, summary) ∧
      (run.healthGatePassed ≠ some true → next = db) ∧
      (run.healthGatePassed = some true → InactivatedAtOnce db next now) := by
  by_cases passed : run.healthGatePassed = some true
  · obtain ⟨next, summary, processed, atOnce⟩ := processSourceRun_atOnce ids now keyed found passed
    exact ⟨next, summary, processed, fun refused => (refused passed).elim, fun _ => atOnce⟩
  · unfold processSourceRun
    rw [found]
    exact ⟨db, _, if_pos passed, fun _ => rfl, fun holds => (passed holds).elim⟩

/-- Three listings, the last without a link, and a gate-passed run. -/
def unsupportedThird : Database := { threeListings with sourceRuns := [healthyRun 1 10] }

theorem inactivation_guarded_third :
    ∃ next summary, unsupportedThird.processSourceRun countingIds 30 1 = .ok (next, summary) ∧
      ((healthyRun 1 10).healthGatePassed ≠ some true → next = unsupportedThird) ∧
      ((healthyRun 1 10).healthGatePassed = some true →
        InactivatedAtOnce unsupportedThird next 30) :=
  inactivation_guarded countingIds 30 (by decide) rfl

/-- The listing without a link is inactivated, the others are not. -/
example : ((unsupportedThird.processSourceRun countingIds 30 1).map fun outcome =>
    outcome.1.listings.map CanonicalListing.lifecycleStatus) =
      .ok [.active, .active, .inactive] := by decide

end Database

end RentalAgent
