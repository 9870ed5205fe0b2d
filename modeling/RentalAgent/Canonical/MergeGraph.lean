import RentalAgent.Canonical.Services

/-! # The merge graph

The ledger's invariant read back on the tables: merged listings are the sources of
the merges that stand, the merges form a forest whose roots are listings that are
not merged, and no link belongs to a merged listing.
-/

namespace RentalAgent

open Absorption Forest Relation Relational

/-- The merge stands and has the listing as its source. -/
def CanonicalMerge.standsFrom (listingId : Uuid) (merge : CanonicalMerge) : Bool :=
  merge.sourceListingId = listingId && merge.reversedAt = none

namespace Database

/-- A merge that was not reversed leads from the first listing to the second. -/
def mergedInto (db : Database) (first second : Uuid) : Prop :=
  ∃ merge ∈ db.merges, merge.reversedAt = none ∧ merge.sourceListingId = first ∧
    merge.targetListingId = second

/-- The ids of the links. -/
def linkIds (db : Database) : List Uuid := db.links.map ListingSourceLink.listingSourceLinkId

/-- The invariant of merges, lifecycles and links. -/
structure MergeGraph (db : Database) : Prop where
  merged_iff : ∀ listing ∈ db.listings, listing.lifecycleStatus = .merged ↔
    db.merges.countP (CanonicalMerge.standsFrom listing.canonicalListingId) = 1
  acyclic : ∀ listingId, ¬ TransGen db.mergedInto listingId listingId
  survivor : ∀ listing ∈ db.listings, listing.lifecycleStatus = .merged →
    ∃ survivor ∈ db.listings, survivor.lifecycleStatus ≠ .merged ∧
      EndsAt db.mergedInto listing.canonicalListingId survivor.canonicalListingId
  owned : ∀ link ∈ db.links, ∃ owner ∈ db.listings,
    owner.canonicalListingId = link.canonicalListingId
  unmerged : ∀ link ∈ db.links, ∀ owner ∈ db.listings,
    owner.canonicalListingId = link.canonicalListingId → owner.lifecycleStatus ≠ .merged

variable {ids : IdSupply} {unicode : UnicodeTables} {db next : Database}

/-! ## Reading the ledger -/

/-- The edges of the ledger are the open merges. -/
theorem edge_ledger : db.ledger.edge = db.mergedInto := by
  funext first second
  rw [Ledger.edge, mergedInto, eq_iff_iff]
  constructor
  · rintro ⟨entry, opened, rfl, rfl⟩
    obtain ⟨merge, member, standing, rfl⟩ := mem_outstanding.mp opened
    exact ⟨merge, member, standing, rfl, rfl⟩
  · rintro ⟨merge, member, standing, rfl, rfl⟩
    exact ⟨merge.entry, mem_outstanding.mpr ⟨merge, member, standing, rfl⟩, rfl, rfl⟩

theorem items_ledger : db.ledger.owners.map Prod.fst = db.linkIds := by
  rw [ledger, linkIds, List.map_map]
  rfl

theorem mem_nodes {id : Uuid} {flag : Bool} : (id, flag) ∈ db.ledger.nodes ↔
    ∃ listing ∈ db.listings, listing.canonicalListingId = id ∧ listing.isMerged = flag := by
  simp only [ledger, List.mem_map, Prod.mk.injEq]

theorem isMerged_iff {listing : CanonicalListing} :
    listing.isMerged = true ↔ listing.lifecycleStatus = .merged := by
  simp [CanonicalListing.isMerged]

/-- The standing merges of a source are counted by the outstanding absorptions. -/
theorem countP_standsFrom (listingId : Uuid) :
    db.merges.countP (CanonicalMerge.standsFrom listingId) =
      (db.ledger.outstanding.map Entry.source).count listingId := by
  simp only [Ledger.outstanding, ledger, List.filter_map, List.map_map, List.count,
    List.countP_map, List.countP_filter]
  apply List.countP_congr
  intro merge _
  cases opened : merge.reversedAt <;>
    simp [CanonicalMerge.standsFrom, CanonicalMerge.entry, opened]

/-- A valid ledger makes the merge graph sound. -/
theorem mergeGraph_of_valid (valid : db.ledger.Valid) : db.MergeGraph where
  merged_iff := by
    intro listing member
    have node : (listing.canonicalListingId, listing.isMerged) ∈ db.ledger.nodes :=
      List.mem_map_of_mem member
    rw [countP_standsFrom, ← isMerged_iff]
    constructor
    · intro merged
      obtain ⟨entry, opened, same⟩ := (valid.absorbed _).mp (merged ▸ node)
      exact List.count_eq_one_of_mem valid.sources (List.mem_map.mpr ⟨entry, opened, same⟩)
    · intro once
      have present : listing.canonicalListingId ∈ db.ledger.outstanding.map Entry.source :=
        List.count_pos_iff.mp (once ▸ Nat.one_pos)
      obtain ⟨entry, opened, same⟩ := List.mem_map.mp present
      exact valid.flag_unique node ((valid.absorbed _).mpr ⟨entry, opened, same⟩)
  acyclic := by
    rw [← edge_ledger]
    exact valid.forest.acyclic
  survivor := by
    intro listing member _
    obtain ⟨root, standing, ends⟩ := valid.survivor (List.mem_map_of_mem member)
    obtain ⟨survivor, inside, rfl, unmerged⟩ := mem_nodes.mp standing
    refine ⟨survivor, inside, ?_, edge_ledger ▸ ends⟩
    rw [Ne, ← isMerged_iff, unmerged]
    exact Bool.false_ne_true
  owned := by
    intro link member
    obtain ⟨owner, inside, same, _⟩ := mem_nodes.mp (valid.owned _ (List.mem_map_of_mem member))
    exact ⟨owner, inside, same⟩
  unmerged := by
    intro link member owner inside same merged
    have standing := valid.owned _ (List.mem_map_of_mem member)
    have node : (owner.canonicalListingId, owner.isMerged) ∈ db.ledger.nodes :=
      List.mem_map_of_mem inside
    rw [same, isMerged_iff.mpr merged] at node
    exact Bool.false_ne_true (valid.flag_unique standing node)

/-! ## Links stay -/

/-- A merge neither makes nor loses links. -/
theorem mergeListings_linkIds {now : Timestamp} {request : MergeRequest} {merge : CanonicalMerge}
    (merged : db.mergeListings ids now request = .ok (next, merge)) :
    next.linkIds = db.linkIds := by
  obtain ⟨_, source, _, _, _, _, _, wrote⟩ := mergeListings_eq_ok merged
  have absorbed := ledger_applyMerge ids now request source db
  rw [wrote] at absorbed
  rw [← items_ledger, absorbed, Ledger.items_absorb, items_ledger]

theorem reverseMerge_linkIds {now : Timestamp} {mergeId : Uuid} {actor reason : String}
    {actorType : ActorType}
    (reversed : db.reverseMerge ids now mergeId actor actorType reason = .ok next) :
    next.linkIds = db.linkIds := by
  obtain ⟨_, merge, _, _, rfl⟩ := reverseMerge_eq_ok reversed
  rw [← items_ledger, ledger_applyReversal, Ledger.items_release, items_ledger]

/-- The review of a candidate neither makes nor loses links. -/
theorem resolveDuplicateCandidate_linkIds {now : Timestamp} {candidateId : Uuid}
    {confirmedDuplicate : Bool} {actor : String} {actorType : ActorType} {survivor : Option Uuid}
    (resolved : db.resolveDuplicateCandidate ids now candidateId confirmedDuplicate actor actorType
      survivor = .ok next) : next.linkIds = db.linkIds := by
  obtain rfl | ⟨request, middle, merge, merged, rfl⟩ := resolveDuplicateCandidate_eq_ok resolved
  · rfl
  · change middle.linkIds = db.linkIds
    exact mergeListings_linkIds merged

/-- Merging and reversing neither create nor delete a link. -/
theorem step_linkIds {action : ServiceAction} (redirects : action.redirects = true) :
    (db.step ids unicode action).linkIds = db.linkIds := by
  unfold step
  split
  · rename_i next performed
    cases perform_performs performed with
    | mergeListings merged => exact mergeListings_linkIds merged
    | reverseMerge reversed => exact reverseMerge_linkIds reversed
    | resolveDuplicateCandidate resolved => exact resolveDuplicateCandidate_linkIds resolved
    | processObservation _ | evaluateCandidates _ _ _ | processSourceRun _ | outside _ =>
        cases redirects
  · rfl

/-- **The merge graph is sound.** Whatever the services do from an empty database,
in any order, the merge graph is sound; and merging or reversing next keeps the
links. -/
theorem merge_graph_sound (ids : IdSupply) (unicode : UnicodeTables)
    (actions : List ServiceAction) :
    (reached ids unicode actions).MergeGraph ∧
      ∀ action : ServiceAction, action.redirects = true →
        ((reached ids unicode actions).step ids unicode action).linkIds =
          (reached ids unicode actions).linkIds :=
  ⟨mergeGraph_of_valid (tracked_run actions).valid, fun _ redirects => step_linkIds redirects⟩

end Database

end RentalAgent
