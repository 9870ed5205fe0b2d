import RentalAgent.Canonical.MergeGraph

/-! # Reversing merges

A reversal hands back the links its merge recorded, wherever they are. Reversals
restore the owners of links when each one finds the links where its merge put
them (`MergeCall.InPlace`), in particular when merges are reversed in the opposite
order. A merge of the survivor records the links it has taken over as well, so
reversing the earlier merge first leaves them with the wrong listing.
-/

namespace RentalAgent

open Absorption Relational Transition

/-- A call of `merge_listings` or `reverse_merge`. -/
inductive MergeCall
  | merge (now : Timestamp) (request : MergeRequest)
  | reverse (now : Timestamp) (canonicalMergeId : Uuid) (actor : String) (actorType : ActorType)
      (reason : String)

namespace Database

/-- The database after a merge call; a call that raises is rolled back. -/
def stepMerge (ids : IdSupply) (db : Database) : MergeCall → Database
  | .merge now request =>
      match db.mergeListings ids now request with
      | .ok (next, _) => next
      | .error _ => db
  | .reverse now mergeId actor actorType reason =>
      match db.reverseMerge ids now mergeId actor actorType reason with
      | .ok next => next
      | .error _ => db

/-- The ids of the merges. -/
def mergeIds (db : Database) : List Uuid := db.merges.map CanonicalMerge.canonicalMergeId

/-- The primary keys of merges and links, and new merge ids. -/
structure MergesKeyed (ids : IdSupply) (db : Database) : Prop where
  merges : PrimaryKey CanonicalMerge.canonicalMergeId db.merges
  links : PrimaryKey ListingSourceLink.listingSourceLinkId db.links
  fresh : ∀ k, db.drawn ≤ k → ids.uuid k ∉ db.mergeIds

/-- No merge made since `start` stands. -/
def Settled (start db : Database) : Prop :=
  ∀ merge ∈ db.merges, merge.canonicalMergeId ∉ start.mergeIds → merge.reversedAt ≠ none

instance (start db : Database) : Decidable (Settled start db) :=
  inferInstanceAs (Decidable (∀ _ ∈ _, _))

/-- Every link of `start` still exists and belongs to the same listing. -/
def OwnersRestored (start db : Database) : Prop :=
  ∀ link ∈ start.links, (∃ later ∈ db.links, later.listingSourceLinkId = link.listingSourceLinkId) ∧
    ∀ later ∈ db.links, later.listingSourceLinkId = link.listingSourceLinkId →
      later.canonicalListingId = link.canonicalListingId

instance (start db : Database) : Decidable (OwnersRestored start db) :=
  inferInstanceAs (Decidable (∀ _ ∈ _, _))

end Database

/-- A reversal that a human makes is of a merge made since `start`, and every link
which that merge recorded still belongs to its target. -/
def MergeCall.InPlace (start db : Database) : MergeCall → Prop
  | .merge _ _ => True
  | .reverse _ mergeId _ actorType _ =>
      actorType = .human → ∀ merge ∈ db.merges, merge.canonicalMergeId = mergeId →
        merge.reversedAt = none → mergeId ∉ start.mergeIds ∧
          ∀ link ∈ db.links, link.listingSourceLinkId ∈ merge.movedLinkIds →
            link.canonicalListingId = merge.targetListingId

instance (start db : Database) (call : MergeCall) : Decidable (call.InPlace start db) :=
  match call with
  | .merge _ _ => inferInstanceAs (Decidable True)
  | .reverse _ _ _ _ _ => inferInstanceAs (Decidable (_ → ∀ _ ∈ _, _))

namespace Database

variable {ids : IdSupply} {start db next : Database} {now : Timestamp}

theorem keys_ledger : db.ledger.absorptions.map Entry.key = db.mergeIds := by
  rw [ledger, mergeIds, List.map_map]
  rfl

/-- The links still outstanding merges moved since `start`, and new merge ids. -/
structure Traced (ids : IdSupply) (start db : Database) : Prop where
  trail : Ledger.Trail start.ledger db.ledger
  fresh : ∀ k, db.drawn ≤ k → ids.uuid k ∉ db.mergeIds

/-- A state traces itself. -/
theorem MergesKeyed.traced (keyed : MergesKeyed ids start) : Traced ids start start where
  trail := by
    refine Ledger.Trail.refl ?_ ?_
    · rw [keys_ledger]
      exact primaryKey_iff_nodup.mp keyed.merges
    · rw [items_ledger]
      exact primaryKey_iff_nodup.mp keyed.links
  fresh := keyed.fresh

/-- A merge records the links that it moves. -/
theorem Traced.merge (traced : Traced ids start db) {request : MergeRequest}
    {merge : CanonicalMerge} (merged : db.mergeListings ids now request = .ok (next, merge)) :
    Traced ids start next := by
  obtain ⟨apart, source, target, sourceFound, targetFound, sourceStanding, targetStanding,
    wrote⟩ := mergeListings_eq_ok merged
  have absorbed := ledger_applyMerge ids now request source db
  have drawn := drawn_applyMerge ids now request source db
  rw [wrote] at absorbed drawn
  change db.drawn < next.drawn at drawn
  have new : ids.uuid db.drawn ∉ db.mergeIds := traced.fresh _ (Nat.le_refl _)
  refine ⟨?_, fun k later member => ?_⟩
  · rw [absorbed]
    exact traced.trail.absorb (keys_ledger ▸ new) apart
      (standing_of_found sourceFound sourceStanding) (standing_of_found targetFound targetStanding)
  · rw [← keys_ledger, absorbed, Ledger.absorb, List.map_append, keys_ledger] at member
    rcases List.mem_append.mp member with old | made
    · exact traced.fresh k (Nat.le_trans (Nat.le_of_lt drawn) later) old
    · have same : k = db.drawn := ids.distinct (List.mem_singleton.mp made)
      omega

/-- A reversal in place puts the links back where their merge found them. -/
theorem Traced.reverse (traced : Traced ids start db) {mergeId : Uuid} {actor reason : String}
    {actorType : ActorType}
    (reversed : db.reverseMerge ids now mergeId actor actorType reason = .ok next)
    (inPlace : (MergeCall.reverse now mergeId actor actorType reason).InPlace start db) :
    Traced ids start next := by
  obtain ⟨human, merge, found, opened, rfl⟩ := reverseMerge_eq_ok reversed
  obtain ⟨new, placed⟩ := inPlace human merge (mem_of_get found) (key_of_get found) opened
  have outstanding : merge.entry ∈ db.ledger.outstanding :=
    mem_outstanding.mpr ⟨merge, mem_of_get found, opened, rfl⟩
  refine ⟨?_, fun k later member => ?_⟩
  · rw [ledger_applyReversal]
    refine traced.trail.release (traced.trail.mem_since outstanding ?_) ?_
    · rw [keys_ledger, CanonicalMerge.entry, key_of_get found]
      exact new
    · intro item node member moved
      obtain ⟨link, inside, same⟩ := List.mem_map.mp member
      cases same
      exact placed link inside moved
  · rw [← keys_ledger, ledger_applyReversal, Ledger.keys_release, keys_ledger] at member
    exact traced.fresh k (Nat.le_of_succ_le later) member

/-- Merges, and reversals in place, keep the links traced. -/
theorem traced_preserved :
    Preserved (stepMerge ids) (fun db call => call.InPlace start db) (Traced ids start) := by
  intro db call traced inPlace
  cases call with
  | merge now request =>
      unfold stepMerge
      dsimp only
      split
      · rename_i next merge merged
        exact traced.merge merged
      · exact traced
  | reverse now mergeId actor actorType reason =>
      unfold stepMerge
      dsimp only
      split
      · rename_i next reversed
        exact traced.reverse reversed inPlace
      · exact traced

/-- **Restored owners.** When each reversal is of a merge of the sequence and finds
the links which that merge recorded at its target, then every link is back with
its owner once no merge of the sequence stands. -/
theorem reversal_restores_in_place (keyed : MergesKeyed ids start) (calls : List MergeCall)
    (inPlace : Permitted (stepMerge ids) (fun db call => call.InPlace start db) start calls)
    (settled : Settled start (run (stepMerge ids) start calls)) :
    OwnersRestored start (run (stepMerge ids) start calls) := by
  have traced := traced_preserved.run keyed.traced inPlace
  generalize run (stepMerge ids) start calls = final at traced settled
  have old : ∀ entry ∈ final.ledger.outstanding,
      entry.key ∈ start.ledger.absorptions.map Entry.key := by
    intro entry opened
    obtain ⟨merge, member, standing, rfl⟩ := mem_outstanding.mp opened
    rw [keys_ledger]
    by_contra new
    exact settled merge member new standing
  intro link member
  have back := traced.trail.restored old (List.mem_map_of_mem member)
  constructor
  · obtain ⟨later, inside, same⟩ := List.mem_map.mp back
    exact ⟨later, inside, congrArg Prod.fst same⟩
  · intro later inside same
    have now : (later.listingSourceLinkId, later.canonicalListingId) ∈ final.ledger.owners :=
      List.mem_map_of_mem inside
    rw [same] at now
    exact traced.trail.owner_unique now back

/-! ## Chains of merges -/

def plainListing (id : Uuid) (lifecycleStatus : LifecycleStatus) : CanonicalListing where
  canonicalListingId := id
  buildingId := 0
  unitId := none
  layoutClass := .studio
  monthlyRentMinor := none
  availabilityStatus := .available
  lifecycleStatus := lifecycleStatus
  laundryType := .unknown
  indoorLaundryBadgeEligible := false
  descriptionCurrent := none
  firstSeenAt := 0
  lastSeenAt := 0
  lastMaterialChangeAt := 0
  inactiveAt := none
  canonicalResolutionStatus := .provisional

def plainLink (id listingId : Uuid) : ListingSourceLink where
  listingSourceLinkId := id
  canonicalListingId := listingId
  sourceId := 0
  sourceNativeId := none
  sourceUrl := "url"
  firstObservationId := 0
  latestObservationId := 0
  firstSeenAt := 0
  lastSeenAt := 0
  linkStatus := .active
  discoveryMethod := .direct
  identityMethod := .sourceNativeContinuity
  identityConfidence := .high
  identityRuleVersion := identityRuleVersion

/-- Three listings; the first two have a link each. -/
def threeListings : Database :=
  { Database.empty with
    listings := [plainListing 1 .active, plainListing 2 .active, plainListing 3 .active]
    links := [plainLink 11 1, plainLink 12 2] }

def mergeInto (source target : Uuid) : MergeCall :=
  .merge 0
    { sourceListingId := source
      targetListingId := target
      actor := "reviewer"
      actorType := .human }

def undo (mergeId : Uuid) : MergeCall := .reverse 0 mergeId "reviewer" .human "mistake"

/-- The first listing is merged into the second and that into the third; the merges
are reversed in the order given. -/
def chainThen (first second : Uuid) : List MergeCall :=
  [mergeInto 1 2, mergeInto 2 3, undo first, undo second]

theorem threeListings_keyed : MergesKeyed countingIds threeListings where
  merges := by decide
  links := by decide
  fresh := by simp [mergeIds, threeListings, Database.empty]

theorem reversal_restores_in_place_chain :
    OwnersRestored threeListings
      (run (stepMerge countingIds) threeListings (chainThen 103 100)) :=
  reversal_restores_in_place threeListings_keyed (chainThen 103 100) (by decide) (by decide)

/-- The merges are reversed first to last: all of them are reversed, yet the link of
the first listing ends with the second one. -/
theorem reversal_out_of_order_misplaces :
    MergesKeyed countingIds threeListings ∧
      Settled threeListings (run (stepMerge countingIds) threeListings (chainThen 100 103)) ∧
        ¬ OwnersRestored threeListings
          (run (stepMerge countingIds) threeListings (chainThen 100 103)) :=
  ⟨threeListings_keyed, by decide, by decide⟩

end Database

end RentalAgent
