import RentalAgent.Canonical.Admission
import RentalAgent.Canonical.Disappearance
import RentalAgent.Canonical.Frames
import RentalAgent.Canonical.Merge
import RentalAgent.Foundation.Absorption
import RentalAgent.Foundation.Transition

/-! # The ownership ledger of the inventory

`Database.ledger` reads the listings, the links and the merges as a ledger of
absorptions. Every operation of the services refines steps of that ledger
(`Database.Refines`): normalization admits listings and attaches links, merges
absorb, reversals release, and admission and disappearance leave the ledger alone.
-/

namespace RentalAgent

open Absorption Relational Relation Transition

def CanonicalListing.isMerged (listing : CanonicalListing) : Bool :=
  listing.lifecycleStatus = .merged

def CanonicalMerge.entry (merge : CanonicalMerge) : Entry Uuid Uuid Uuid where
  key := merge.canonicalMergeId
  source := merge.sourceListingId
  target := merge.targetListingId
  moved := merge.movedLinkIds
  reversed := merge.reversedAt.isSome

namespace Database

/-- The listings, links and merges as a ledger. -/
def ledger (db : Database) : Ledger Uuid Uuid Uuid where
  nodes := db.listings.map fun listing => (listing.canonicalListingId, listing.isMerged)
  owners := db.links.map fun link => (link.listingSourceLinkId, link.canonicalListingId)
  absorptions := db.merges.map CanonicalMerge.entry

/-- The ids the ledger mentions as node, item or key. -/
def known (db : Database) : List Uuid :=
  db.ledger.nodes.map Prod.fst ++ db.ledger.owners.map Prod.fst ++
    db.ledger.absorptions.map Entry.key

/-- A valid ledger whose ids were drawn. -/
structure Tracked (ids : IdSupply) (db : Database) : Prop where
  valid : db.ledger.Valid
  drawn : ∀ id ∈ db.known, ∃ k < db.drawn, ids.uuid k = id

/-- What one operation does to the ledger: some of its steps, naming new ids only
as it draws them. -/
structure Refines (step : Ledger Uuid Uuid Uuid → Ledger Uuid Uuid Uuid → Prop) (ids : IdSupply)
    (db next : Database) : Prop where
  steps : ReflTransGen step db.ledger next.ledger
  drawn : db.drawn ≤ next.drawn
  known : ∀ id ∈ next.known, id ∈ db.known ∨ ∃ k, db.drawn ≤ k ∧ k < next.drawn ∧ ids.uuid k = id

/-- The operation takes steps of the ledger. -/
abbrev Moves := Refines Ledger.Step

/-- The operation only lets the ledger grow. -/
abbrev Grows := Refines Ledger.Growth

/-- The operation leaves the ledger alone. -/
structure Quiet (db next : Database) : Prop where
  ledger : next.ledger = db.ledger
  drawn : db.drawn ≤ next.drawn

variable {step : Ledger Uuid Uuid Uuid → Ledger Uuid Uuid Uuid → Prop} {ids : IdSupply}
  {db middle next : Database}

theorem Quiet.refl (db : Database) : Quiet db db := ⟨rfl, Nat.le_refl _⟩

theorem Quiet.trans (first : Quiet db middle) (second : Quiet middle next) : Quiet db next :=
  ⟨second.ledger.trans first.ledger, Nat.le_trans first.drawn second.drawn⟩

theorem Quiet.refines (quiet : Quiet db next) : Refines step ids db next := by
  refine ⟨quiet.ledger ▸ .refl, quiet.drawn, fun id member => .inl ?_⟩
  rwa [Database.known, quiet.ledger] at member

theorem Refines.refl (ids : IdSupply) (db : Database) : Refines step ids db db :=
  (Quiet.refl db).refines

theorem Grows.moves (grows : Grows ids db next) : Moves ids db next :=
  ⟨grows.steps.lift id fun _ _ => Ledger.Step.grow, grows.drawn, grows.known⟩

/-- Operations one after another take the steps of both. -/
theorem Refines.trans (first : Refines step ids db middle) (second : Refines step ids middle next) :
    Refines step ids db next := by
  refine ⟨first.steps.trans second.steps, Nat.le_trans first.drawn second.drawn, ?_⟩
  intro id member
  have firstDrawn := first.drawn
  have secondDrawn := second.drawn
  rcases second.known id member with old | ⟨k, low, high, rfl⟩
  · rcases first.known id old with older | ⟨k, low, high, rfl⟩
    · exact .inl older
    · exact .inr ⟨k, low, by omega, rfl⟩
  · exact .inr ⟨k, by omega, high, rfl⟩

/-- Moves keep the ids tracked. -/
theorem Tracked.moves (tracked : Tracked ids db) (moves : Moves ids db next) :
    Tracked ids next := by
  refine ⟨tracked.valid.steps moves.steps, fun id member => ?_⟩
  rcases moves.known id member with old | ⟨k, _, high, rfl⟩
  · obtain ⟨k, low, rfl⟩ := tracked.drawn id old
    exact ⟨k, Nat.lt_of_lt_of_le low moves.drawn, rfl⟩
  · exact ⟨k, high, rfl⟩

/-- An id still to be drawn is unknown. -/
theorem Tracked.fresh (tracked : Tracked ids db) {k : Nat} (later : db.drawn ≤ k) :
    ids.uuid k ∉ db.known := by
  intro member
  obtain ⟨j, earlier, same⟩ := tracked.drawn _ member
  have equal := ids.distinct same
  omega

theorem Tracked.linkIds (tracked : Tracked ids db) :
    (db.links.map ListingSourceLink.listingSourceLinkId).Nodup := by
  have items := tracked.valid.itemIds
  rwa [ledger, List.map_map] at items

theorem Tracked.listingIds (tracked : Tracked ids db) :
    (db.listings.map CanonicalListing.canonicalListingId).Nodup := by
  have nodes := tracked.valid.nodeIds
  rwa [ledger, List.map_map] at nodes

/-- The listing of a link exists. -/
theorem Tracked.owner (tracked : Tracked ids db) {link : ListingSourceLink}
    (member : link ∈ db.links) :
    ∃ listing ∈ db.listings, listing.canonicalListingId = link.canonicalListingId := by
  obtain ⟨listing, inside, same⟩ :=
    List.mem_map.mp (tracked.valid.owned _ (List.mem_map_of_mem member))
  exact ⟨listing, inside, congrArg Prod.fst same⟩

/-- No listing has an id still to be drawn. -/
theorem Tracked.listing_fresh (tracked : Tracked ids db) {listing : CanonicalListing}
    (member : listing ∈ db.listings) {k : Nat} (later : db.drawn ≤ k) :
    listing.canonicalListingId ≠ ids.uuid k := by
  intro same
  refine tracked.fresh later (List.mem_append_left _ (List.mem_append_left _ ?_))
  exact List.mem_map.mpr ⟨_, List.mem_map_of_mem member, same⟩

/-- The empty database is tracked. -/
theorem tracked_empty (ids : IdSupply) : Tracked ids Database.empty where
  valid :=
    { nodeIds := List.nodup_nil
      itemIds := List.nodup_nil
      keys := List.nodup_nil
      sources := List.nodup_nil
      absorbed := by simp [ledger, Database.empty, Ledger.outstanding]
      targets := by simp [ledger, Database.empty, Ledger.outstanding]
      forest := Forest.isForest_of_no_edge (by
        rintro _ _ ⟨entry, member, _⟩
        simp [ledger, Database.empty, Ledger.outstanding] at member)
      owned := by simp [ledger, Database.empty] }
  drawn := by simp [known, ledger, Database.empty]

/-! ## Changes that leave the ledger alone -/

/-- Rounds that are quiet on the ledger of the first one are quiet together. -/
theorem quiet_foldl {State Row : Type} (read : State → Database) {round : State → Row → State}
    {rows : List Row} (state : State)
    (quiet : ∀ row ∈ rows, ∀ middle, (read middle).ledger = (read state).ledger →
      Quiet (read middle) (read (round middle row))) :
    Quiet (read state) (read (rows.foldl round state)) := by
  induction rows generalizing state with
  | nil => exact .refl _
  | cons row rest ih =>
      have first := quiet row List.mem_cons_self state rfl
      refine first.trans (ih _ fun other member middle same => ?_)
      exact quiet other (List.mem_cons_of_mem _ member) middle (same.trans first.ledger)

/-- The change of a listing keeps its id and whether it is merged. -/
def KeepsNode (change : CanonicalListing → CanonicalListing) : Prop :=
  ∀ listing, (change listing).canonicalListingId = listing.canonicalListingId ∧
    (change listing).isMerged = listing.isMerged

/-- An update that keeps the id of a listing and whether it is merged leaves the ledger alone. -/
theorem quiet_updateListing {id : Uuid} {change : CanonicalListing → CanonicalListing}
    (keeps : ∀ listing ∈ db.listings, listing.canonicalListingId = id →
      (change listing).canonicalListingId = listing.canonicalListingId ∧
        (change listing).isMerged = listing.isMerged) :
    Quiet db (db.updateListing id change) := by
  have nodes : (updateWhere (fun listing => decide (listing.canonicalListingId = id)) change
      db.listings).map (fun listing => (listing.canonicalListingId, listing.isMerged)) =
        db.listings.map fun listing => (listing.canonicalListingId, listing.isMerged) := by
    apply map_updateWhere
    intro listing member same
    obtain ⟨sameId, sameMark⟩ := keeps listing member (by simpa using same)
    rw [sameId, sameMark]
  refine ⟨?_, Nat.le_refl _⟩
  simp only [ledger, updateListing, nodes]

theorem quiet_updateListing_keeps {id : Uuid} {change : CanonicalListing → CanonicalListing}
    (keeps : KeepsNode change) : Quiet db (db.updateListing id change) :=
  quiet_updateListing fun listing _ _ => keeps listing

/-- Writing a lifecycle other than `MERGED` over one that is not `MERGED`. -/
theorem quiet_setLifecycle (valid : db.ledger.Valid) {id : Uuid}
    {change : CanonicalListing → CanonicalListing} (standing : (id, false) ∈ db.ledger.nodes)
    (sets : ∀ listing, (change listing).canonicalListingId = listing.canonicalListingId ∧
      (change listing).isMerged = false) : Quiet db (db.updateListing id change) := by
  apply quiet_updateListing
  rintro listing member rfl
  have node : (listing.canonicalListingId, listing.isMerged) ∈ db.ledger.nodes :=
    List.mem_map_of_mem member
  exact ⟨(sets listing).1, (sets listing).2.trans (valid.flag_unique standing node)⟩

/-- An update that keeps the id and the owner of a link leaves the ledger alone. -/
theorem quiet_updateLink {id : Uuid} {change : ListingSourceLink → ListingSourceLink}
    (keeps : ∀ link, (change link).listingSourceLinkId = link.listingSourceLinkId ∧
      (change link).canonicalListingId = link.canonicalListingId) :
    Quiet db (db.updateLink id change) := by
  have owners : (updateWhere (fun link => decide (link.listingSourceLinkId = id)) change
      db.links).map (fun link => (link.listingSourceLinkId, link.canonicalListingId)) =
        db.links.map fun link => (link.listingSourceLinkId, link.canonicalListingId) := by
    apply map_updateWhere
    intro link _ _
    obtain ⟨sameId, sameOwner⟩ := keeps link
    rw [sameId, sameOwner]
  refine ⟨?_, Nat.le_refl _⟩
  simp only [ledger, updateLink, owners]

theorem EvidenceOnly.quiet (evidence : EvidenceOnly db next) : Quiet db next := by
  refine ⟨?_, evidence.drawn⟩
  simp only [ledger, evidence.listings, evidence.links, evidence.merges]

theorem PlaceOnly.quiet (place : PlaceOnly db next) : Quiet db next := by
  refine ⟨?_, place.drawn⟩
  simp only [ledger, place.listings, place.links, place.merges]

end Database

end RentalAgent
