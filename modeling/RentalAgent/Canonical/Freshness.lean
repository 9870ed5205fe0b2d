import RentalAgent.Canonical.History
import RentalAgent.Canonical.Reversal
import RentalAgent.Canonical.Standings

/-! # Freshness through merges and reversals

The freshness of a link is that of the newest observation processed under it, in every
order of the calls. A listing is as fresh as its links until a reversal hands back a
link that was seen since its merge: the link keeps its date, and the listing gets none
(`History.freshness_exact_iff`).
-/

namespace RentalAgent

open Absorption Relational Transition

/-- A call that dates or moves links: an observation is processed, listings are merged or
a merge is reversed. -/
inductive InventoryCall
  | observe (request : Request)
  | redirect (call : MergeCall)

/-- The visit went to the link. -/
abbrev Visit.of (linkId : Uuid) (visit : Visit) : Prop :=
  visit.outcome.listingSourceLinkId = some linkId

/-- The link is dated by the newest of its visits. -/
structure ListingSourceLink.DatedBy (visits : List Visit) (link : ListingSourceLink) : Prop where
  newest : ∀ visit ∈ visits, visit.of link.listingSourceLinkId →
    visit.row.observedAt ≤ link.lastSeenAt
  attained : ∃ visit ∈ visits, visit.of link.listingSourceLinkId ∧
    visit.row.observedAt = link.lastSeenAt ∧
      visit.row.sourceObservationId = link.latestObservationId

namespace History

/-- One call; the visits grow when an observation was processed. -/
def call (ids : IdSupply) (unicode : UnicodeTables) (history : History) : InventoryCall → History
  | .observe request => history.step ids unicode request
  | .redirect call => { history with db := history.db.stepMerge ids call }

/-- Every link is dated by the newest of its visits, and every listing is at least as fresh
as each link it owns. -/
def FreshnessExact (history : History) : Prop :=
  (∀ link ∈ history.db.links, link.DatedBy history.visits) ∧ history.db.ListingsFresh

/-- A reversal that is accepted hands back no link that is fresher than the listing it is
handed to. -/
def HandsBackSeen (history : History) : InventoryCall → Prop
  | .redirect (.reverse _ mergeId _ actorType _) =>
      actorType = .human → ∀ merge, history.db.merge? mergeId = some merge →
        merge.reversedAt = none → ∀ link ∈ history.db.links,
          link.listingSourceLinkId ∈ merge.movedLinkIds → ∀ listing ∈ history.db.listings,
            listing.canonicalListingId = merge.sourceListingId →
              link.lastSeenAt ≤ listing.lastSeenAt
  | .observe _ | .redirect (.merge ..) => True

/-- The visits are those of stored rows to existing links, and they date the links. -/
structure Logged (ids : IdSupply) (history : History) : Prop where
  tracked : Database.Tracked ids history.db
  stored : ∀ visit ∈ history.visits,
    history.db.observation? visit.row.sourceObservationId = some visit.row
  linked : ∀ visit ∈ history.visits, ∀ id, visit.of id → id ∈ history.db.linkIds
  dated : ∀ link ∈ history.db.links, link.DatedBy history.visits

end History

namespace Database

variable {ids : IdSupply} {unicode : UnicodeTables} {now : Timestamp} {db next : Database}
  {request : MergeRequest}

/-! ## Merges and reversals -/

/-- The columns of a link that date it. -/
def dates (db : Database) : List (Uuid × Timestamp × Uuid) :=
  db.links.map fun link =>
    (link.listingSourceLinkId, link.lastSeenAt, link.latestObservationId)

/-- A merge hands the links of its source to its target. -/
theorem applyMerge_links (ids : IdSupply) (now : Timestamp) (request : MergeRequest)
    (source : CanonicalListing) (db : Database) :
    (db.applyMerge ids now request source).1.links =
      updateWhere (ListingSourceLink.ownedBy request.sourceListingId)
        (fun link => { link with canonicalListingId := request.targetListingId }) db.links := by
  unfold applyMerge
  dsimp only
  rw [insertEvent_links]
  rfl

/-- A merge makes its target as fresh as its source. -/
theorem applyMerge_freshness (ids : IdSupply) (now : Timestamp) (request : MergeRequest)
    (source : CanonicalListing) (db : Database) :
    (db.applyMerge ids now request source).1.freshness =
      db.freshness.map (bump request.targetListingId source.lastSeenAt) := by
  unfold applyMerge
  dsimp only
  rw [freshness_congr (insertEvent_evidenceOnly ids _ _).listings, freshness_touch,
    freshness_updateListing fun _ => by exact ⟨rfl, rfl⟩]
  rfl

/-- A merge makes the survivor as fresh as the links that it takes over. -/
theorem mergeListings_listingsFresh {merge : CanonicalMerge} (fresh : db.ListingsFresh)
    (merged : db.mergeListings ids now request = .ok (next, merge)) : next.ListingsFresh := by
  obtain ⟨_, source, _, sourceFound, _, _, _, wrote⟩ := mergeListings_eq_ok merged
  obtain rfl := congrArg Prod.fst wrote
  rw [ListingsFresh, applyMerge_links, applyMerge_freshness]
  intro after afterMem entry entryMem owns
  obtain ⟨link, linkMem, rfl⟩ := mem_updateWhere.mp afterMem
  obtain ⟨old, oldMem, rfl⟩ := List.mem_map.mp entryMem
  by_cases owned : link.ownedBy request.sourceListingId = true
  · -- The link came with the source, which was at least as fresh as it.
    rw [if_pos owned] at owns ⊢
    have atTarget : old.1 = request.targetListingId := by
      unfold bump at owns
      split at owns <;> exact owns
    rw [bump, if_pos atTarget]
    have seen := fresh link linkMem _ (List.mem_map_of_mem (mem_of_get sourceFound))
      ((key_of_get sourceFound).trans (of_decide_eq_true owned).symm)
    exact le_trans seen (le_max_right _ _)
  · rw [if_neg owned] at owns ⊢
    unfold bump at owns ⊢
    split at owns
    · rename_i atTarget
      rw [if_pos atTarget]
      exact le_trans (fresh link linkMem old oldMem owns) (le_max_left _ _)
    · rename_i elsewhere
      rw [if_neg elsewhere]
      exact fresh link linkMem old oldMem owns

/-- A reversal keeps the listings as fresh as their links just when the links it hands back
are no fresher than their listing. -/
theorem applyReversal_listingsFresh_iff (fresh : db.ListingsFresh) (merge : CanonicalMerge)
    (actor : String) (actorType : ActorType) (reason : String) :
    (db.applyReversal ids now merge actor actorType reason).ListingsFresh ↔
      ∀ link ∈ db.links, link.listingSourceLinkId ∈ merge.movedLinkIds →
        ∀ listing ∈ db.listings, listing.canonicalListingId = merge.sourceListingId →
          link.lastSeenAt ≤ listing.lastSeenAt := by
  have dates : (db.applyReversal ids now merge actor actorType reason).freshness =
      db.freshness := freshness_updateListing fun _ => ⟨rfl, rfl⟩
  rw [ListingsFresh, dates]
  change (∀ link ∈ updateWhere _ _ db.links, _) ↔ _
  constructor
  · intro after link member moved listing listingMem same
    have seen := after { link with canonicalListingId := merge.sourceListingId }
      (mem_updateWhere.mpr ⟨link, member, if_pos (decide_eq_true moved)⟩)
    exact seen _ (List.mem_map_of_mem listingMem) same
  · intro handed after afterMem entry entryMem owns
    obtain ⟨link, member, rfl⟩ := mem_updateWhere.mp afterMem
    by_cases moved : link.listingSourceLinkId ∈ merge.movedLinkIds
    · rw [if_pos (decide_eq_true moved)] at owns ⊢
      obtain ⟨listing, listingMem, rfl⟩ := List.mem_map.mp entryMem
      exact handed link member moved listing listingMem owns
    · rw [if_neg (by simpa using moved)] at owns ⊢
      exact fresh link member entry entryMem owns

/-- A human reverses every merge that stands. -/
theorem reverseMerge_of_opened (tracked : Tracked ids db) (now : Timestamp) {mergeId : Uuid}
    {merge : CanonicalMerge} (found : db.merge? mergeId = some merge)
    (opened : merge.reversedAt = none) (actor reason : String) :
    db.reverseMerge ids now mergeId actor .human reason =
      .ok (db.applyReversal ids now merge actor .human reason) := by
  have node : (merge.sourceListingId, true) ∈ db.ledger.nodes :=
    (tracked.valid.absorbed _).mpr
      ⟨merge.entry, mem_outstanding.mpr ⟨merge, mem_of_get found, opened, rfl⟩, rfl⟩
  obtain ⟨listing, member, same⟩ := List.mem_map.mp node
  have source : db.listing? merge.sourceListingId = some listing :=
    (get_eq_some (primaryKey_iff_nodup.mpr tracked.listingIds)).mpr
      ⟨member, congrArg Prod.fst same⟩
  unfold reverseMerge
  simp only [requireHuman, refuse, require, ne_eq, not_true_eq_false, ↓reduceIte, ok_bind, found,
    opened, Option.isSome_none, Bool.false_eq_true, source]
  rfl

/-- What a merge call does: nothing, a merge or a reversal. -/
inductive Redirected (ids : IdSupply) (db : Database) : MergeCall → Database → Prop
  | refused (call : MergeCall) : Redirected ids db call db
  | merged {now : Timestamp} {request : MergeRequest} {next : Database} {merge : CanonicalMerge}
      (result : db.mergeListings ids now request = .ok (next, merge)) :
      Redirected ids db (.merge now request) next
  | reversed {now : Timestamp} {mergeId : Uuid} {actor reason : String} {merge : CanonicalMerge}
      (found : db.merge? mergeId = some merge) (opened : merge.reversedAt = none) :
      Redirected ids db (.reverse now mergeId actor .human reason)
        (db.applyReversal ids now merge actor .human reason)

/-- A call on merges is refused, or it redirects links between its two listings. -/
theorem stepMerge_redirected (ids : IdSupply) (db : Database) (call : MergeCall) :
    Redirected ids db call (db.stepMerge ids call) := by
  cases call with
  | merge now request =>
      simp only [stepMerge]
      cases merged : db.mergeListings ids now request with
      | error failure => exact .refused _
      | ok result => exact .merged merged
  | reverse now mergeId actor actorType reason =>
      simp only [stepMerge]
      cases result : db.reverseMerge ids now mergeId actor actorType reason with
      | error failure => exact .refused _
      | ok next =>
          obtain ⟨rfl, merge, found, opened, rfl⟩ := reverseMerge_eq_ok result
          exact .reversed found opened

/-- A redirection keeps the ids tracked. -/
theorem Redirected.moves {call : MergeCall} (redirected : Redirected ids db call next)
    (tracked : Tracked ids db) : Tracked ids next := by
  cases redirected with
  | refused _ => exact tracked
  | merged result => exact tracked.moves (mergeListings_moves tracked result)
  | reversed found opened =>
      exact tracked.moves
        (reverseMerge_moves (reverseMerge_of_opened tracked _ found opened _ _))

/-- Merges and reversals redate no link, and touch no observation. -/
theorem Redirected.dates {call : MergeCall} (redirected : Redirected ids db call next) :
    next.dates = db.dates ∧ next.observations = db.observations := by
  cases redirected with
  | refused _ => exact ⟨rfl, rfl⟩
  | merged result =>
      obtain ⟨_, source, _, _, _, _, _, wrote⟩ := mergeListings_eq_ok result
      obtain rfl := congrArg Prod.fst wrote
      refine ⟨?_, (mergeListings_ledgerOnly result).serviceOnly.observations⟩
      rw [Database.dates, applyMerge_links]
      exact map_updateWhere _ fun _ _ _ => rfl
  | reversed found opened => exact ⟨map_updateWhere _ fun _ _ _ => rfl, rfl⟩

end Database

namespace History

variable {ids : IdSupply} {unicode : UnicodeTables} {history : History}

/-! ## Visits -/

theorem logged_start (ids : IdSupply) (observations : List SourceObservation)
    (overrides : List HumanOverride) : Logged ids (start observations overrides) where
  tracked := tracked_start ids observations overrides
  stored := by simp [start]
  linked := by simp [start]
  dated := by simp [start, Database.empty]

/-- A visit that is to another link, or no newer than the link, redates nothing. -/
theorem datedBy_concat {visits : List Visit} {visit : Visit} {link : ListingSourceLink}
    (dated : link.DatedBy visits)
    (older : visit.of link.listingSourceLinkId → visit.row.observedAt ≤ link.lastSeenAt) :
    link.DatedBy (visits ++ [visit]) := by
  obtain ⟨newest, last, member, attained⟩ := dated
  refine ⟨?_, last, List.mem_append_left _ member, attained⟩
  intro earlier inside atLink
  rcases List.mem_append.mp inside with old | new
  · exact newest earlier old atLink
  · obtain rfl := List.mem_singleton.mp new
    exact older atLink

/-- A link is redated by a visit that is not older. -/
theorem datedBy_concat_touch {visits : List Visit} {visit : Visit} {link : ListingSourceLink}
    (dated : link.DatedBy visits) (atLink : visit.of link.listingSourceLinkId) :
    (Database.touchLink link visit.row link).DatedBy (visits ++ [visit]) := by
  rw [Database.touchLink_self]
  split
  · rename_i newer
    refine ⟨?_, visit, List.mem_append_right _ (List.mem_singleton_self _), atLink, rfl, rfl⟩
    intro earlier inside visits
    rcases List.mem_append.mp inside with old | new
    · exact le_trans (dated.newest earlier old visits) newer
    · obtain rfl := List.mem_singleton.mp new
      exact le_refl _
  · rename_i older
    exact datedBy_concat dated fun _ => le_of_lt (not_le.mp older)

/-- A visit keeps every link dated by the newest of its visits. -/
theorem Logged.visit (logged : Logged ids history) {request : Request} {next : Database}
    {visit : Visit} (visited : history.db.visit ids unicode request = some (next, visit)) :
    Logged ids ⟨next, history.visits ++ [visit]⟩ := by
  obtain ⟨found, processable, processed⟩ := Database.visit_eq_some.mp visited
  have parsed := SourceObservation.processable_iff.mp processable
  have observations : next.observations = history.db.observations := by
    rw [(Database.processObservation_canonicalOnly processed).frame]
  have named : visit.row.sourceObservationId = request.observationId := key_of_get found
  have stored : ∀ earlier ∈ history.visits ++ [visit],
      next.observation? earlier.row.sourceObservationId = some earlier.row := by
    unfold Database.observation?
    rw [observations]
    intro earlier inside
    rcases List.mem_append.mp inside with old | new
    · exact logged.stored earlier old
    · obtain rfl := List.mem_singleton.mp new
      exact named ▸ found
  have tracked : Database.Tracked ids next :=
    logged.tracked.moves (Database.processObservation_grows processed logged.tracked).moves
  rcases Database.processObservation_cases processed found parsed with
    ⟨unknown, created⟩ | ⟨link, known, updated⟩
  · obtain ⟨linkId, listingId, identity, confidence, links, outcomeLink, _⟩ :=
      Database.createCanonical_link created
    have linkIds : next.linkIds = history.db.linkIds ++ [linkId] := by
      rw [Database.linkIds, links, List.map_append]
      rfl
    have fresh : linkId ∉ history.db.linkIds := by
      have distinct := tracked.linkIds
      change next.linkIds.Nodup at distinct
      rw [linkIds] at distinct
      intro member
      exact List.disjoint_of_nodup_append distinct member (List.mem_singleton_self _)
    refine ⟨tracked, stored, ?_, ?_⟩
    · intro earlier inside id atLink
      rw [linkIds]
      rcases List.mem_append.mp inside with old | new
      · exact List.mem_append_left _ (logged.linked earlier old id atLink)
      · obtain rfl := List.mem_singleton.mp new
        obtain rfl := Option.some.inj (outcomeLink.symm.trans atLink)
        exact List.mem_append_right _ (List.mem_singleton_self _)
    · intro link member
      rw [links] at member
      rcases List.mem_append.mp member with old | new
      · refine datedBy_concat (logged.dated link old) fun atLink => (fresh ?_).elim
        rw [Option.some.inj (outcomeLink.symm.trans atLink)]
        exact List.mem_map_of_mem old
      · obtain rfl := List.mem_singleton.mp new
        refine ⟨?_, visit, List.mem_append_right _ (List.mem_singleton_self _), outcomeLink, rfl,
          rfl⟩
        intro earlier inside atLink
        rcases List.mem_append.mp inside with before | last
        · exact (fresh (logged.linked earlier before _ atLink)).elim
        · obtain rfl := List.mem_singleton.mp last
          exact le_refl _
  · obtain ⟨outcomeLink, _⟩ := Database.updateExisting_outcome updated
    obtain ⟨listing, _, update⟩ := Database.updateExisting_cases updated
    have member := Database.findLink_mem known
    have linkIds : next.linkIds = history.db.linkIds := by
      rw [Database.linkIds, update.links]
      split
      · rfl
      · rw [List.map_map]
        refine List.map_congr_left fun other _ => ?_
        simp only [Function.comp_apply, Database.touchLink]
        split <;> rfl
    refine ⟨tracked, stored, ?_, ?_⟩
    · intro earlier inside id atLink
      rw [linkIds]
      rcases List.mem_append.mp inside with old | new
      · exact logged.linked earlier old id atLink
      · obtain rfl := List.mem_singleton.mp new
        obtain rfl := Option.some.inj (outcomeLink.symm.trans atLink)
        exact List.mem_map_of_mem member
    · intro after afterMem
      rw [update.links] at afterMem
      split at afterMem
      · rename_i same
        by_cases atLink : after.listingSourceLinkId = link.listingSourceLinkId
        · obtain rfl := List.inj_on_of_nodup_map logged.tracked.linkIds afterMem member atLink
          refine datedBy_concat (logged.dated after afterMem) fun _ => ?_
          obtain ⟨last, lastMem, _, seen, latest⟩ := (logged.dated after afterMem).attained
          have row := logged.stored last lastMem
          rw [latest, same, named, found] at row
          rw [Option.some.inj row, seen]
        · refine datedBy_concat (logged.dated after afterMem) fun visits => (atLink ?_).elim
          exact (Option.some.inj (outcomeLink.symm.trans visits)).symm
      · obtain ⟨other, otherMem, rfl⟩ := List.mem_map.mp afterMem
        by_cases atLink : other.listingSourceLinkId = link.listingSourceLinkId
        · obtain rfl := List.inj_on_of_nodup_map logged.tracked.linkIds otherMem member atLink
          exact datedBy_concat_touch (logged.dated other otherMem) outcomeLink
        · have untouched : Database.touchLink link visit.row other = other :=
            if_neg fun touched => atLink touched.2
          rw [untouched]
          refine datedBy_concat (logged.dated other otherMem) fun visits => (atLink ?_).elim
          exact (Option.some.inj (outcomeLink.symm.trans visits)).symm

theorem Logged.step (logged : Logged ids history) (request : Request) :
    Logged ids (history.step ids unicode request) := by
  rcases step_cases ids unicode history request with idle | ⟨next, visit, visited, stepped⟩
  · rwa [idle]
  · rw [stepped]
    exact logged.visit visited

/-- Merges and reversals keep the dates of the links. -/
theorem Logged.redirect (logged : Logged ids history) {call : MergeCall} {next : Database}
    (redirected : Database.Redirected ids history.db call next) :
    Logged ids ⟨next, history.visits⟩ := by
  obtain ⟨dates, observations⟩ := redirected.dates
  have linkIds : next.linkIds = history.db.linkIds := by
    have named := congrArg (List.map Prod.fst) dates
    rwa [Database.dates, Database.dates, List.map_map, List.map_map] at named
  refine ⟨redirected.moves logged.tracked, ?_, ?_, fun link member => ?_⟩
  · unfold Database.observation?
    rw [observations]
    exact logged.stored
  · rw [linkIds]
    exact logged.linked
  · have entry : (link.listingSourceLinkId, link.lastSeenAt, link.latestObservationId) ∈
        next.dates := List.mem_map_of_mem member
    rw [dates] at entry
    obtain ⟨old, oldMem, same⟩ := List.mem_map.mp entry
    obtain ⟨sameId, sameSeen, sameLatest⟩ := Prod.mk.injEq .. ▸ Prod.mk.injEq .. ▸ same
    obtain ⟨newest, attained⟩ := logged.dated old oldMem
    rw [sameId, sameSeen] at newest
    rw [sameId, sameSeen, sameLatest] at attained
    exact ⟨newest, attained⟩

theorem Logged.call (logged : Logged ids history) (call : InventoryCall) :
    Logged ids (history.call ids unicode call) := by
  cases call with
  | observe request => exact logged.step request
  | redirect call => exact logged.redirect (Database.stepMerge_redirected ids history.db call)

/-! ## Runs -/

/-- **Step lemma.** A call keeps the freshness exact just when it hands back no link that is
fresher than its listing. -/
theorem call_freshnessExact_iff (logged : Logged ids history)
    (exact_ : history.FreshnessExact) (call : InventoryCall) :
    (history.call ids unicode call).FreshnessExact ↔ history.HandsBackSeen call := by
  obtain ⟨_, fresh⟩ := exact_
  have dated : ∀ link ∈ (history.call ids unicode call).db.links,
      link.DatedBy (history.call ids unicode call).visits := (logged.call call).dated
  rw [FreshnessExact, and_iff_right dated]
  cases call with
  | observe request =>
      refine iff_true_intro ?_
      change (history.step ids unicode request).db.ListingsFresh
      rcases step_cases ids unicode history request with idle | ⟨next, visit, visited, stepped⟩
      · rwa [idle]
      · rw [stepped]
        obtain ⟨_, _, processed⟩ := Database.visit_eq_some.mp visited
        exact Database.processObservation_listingsFresh fresh logged.tracked processed
  | redirect call =>
      change (history.db.stepMerge ids call).ListingsFresh ↔ _
      cases call with
      | merge now request =>
          refine iff_true_intro ?_
          generalize same : history.db.stepMerge ids (.merge now request) = next
          have redirected := same ▸ Database.stepMerge_redirected ids history.db _
          cases redirected with
          | refused _ => exact fresh
          | merged result => exact Database.mergeListings_listingsFresh fresh result
      | reverse now mergeId actor actorType reason =>
          generalize same : history.db.stepMerge ids (.reverse now mergeId actor actorType reason) =
            next
          have redirected := same ▸ Database.stepMerge_redirected ids history.db _
          cases redirected with
          | refused _ =>
              refine iff_of_true fresh ?_
              rintro rfl merge found opened
              have accepted := Database.reverseMerge_of_opened logged.tracked now found opened actor
                reason
              simp only [Database.stepMerge, accepted] at same
              rw [← Database.applyReversal_listingsFresh_iff fresh merge actor .human reason, same]
              exact fresh
          | reversed found opened =>
              rename_i merge
              rw [Database.applyReversal_listingsFresh_iff fresh merge actor .human reason]
              refine ⟨fun seen _ other again _ => ?_, fun seen => seen rfl merge found opened⟩
              obtain rfl := Option.some.inj (found.symm.trans again)
              exact seen

/-- **Freshness.** After every call of a run each link is dated by the newest of its visits
and each listing is at least as fresh as its links, when and only when no reversal of the
run hands back a link that is fresher than its listing. -/
theorem freshness_exact_iff (ids : IdSupply) (unicode : UnicodeTables)
    (observations : List SourceObservation) (overrides : List HumanOverride)
    (calls : List InventoryCall) :
    (∀ earlier later, calls = earlier ++ later →
        (run (call ids unicode) (start observations overrides) earlier).FreshnessExact) ↔
      Permitted (call ids unicode) HandsBackSeen (start observations overrides) calls := by
  have begins : (start observations overrides).FreshnessExact := by
    simp [FreshnessExact, start, Database.empty, Database.ListingsFresh]
  rw [forall_prefix_iff, and_iff_right begins]
  have preserved : Preserved (call ids unicode)
      (fun history call => True ∧ history.HandsBackSeen call)
      fun history => Logged ids history ∧ history.FreshnessExact := by
    rintro history call ⟨logged, holds⟩ ⟨_, seen⟩
    exact ⟨logged.call call, (call_freshnessExact_iff logged holds call).mpr seen⟩
  refine permitted_congr preserved ?_ ⟨logged_start ids observations overrides, begins⟩
    fun _ _ => trivial
  rintro history call ⟨logged, holds⟩ _
  exact call_freshnessExact_iff logged holds call

/-! ## A link handed back -/

def observe (observationId : Uuid) : InventoryCall :=
  .observe ⟨fun _ => 0, 0, .direct, observationId⟩

/-- Two rentals of one source are merged, the first one is seen again, and the merge is
reversed. -/
def handedBack : History :=
  run (call countingIds Database.asciiTables)
    (start [Database.rentSeen 1 0 100 "x", Database.observedAt 2 1 "b" none,
      Database.rentSeen 3 10 100 "y"] [])
    [observe 1, observe 2, .redirect (Database.mergeInto 102 107), observe 3,
      .redirect (Database.undo 110)]

/-- The link returns with its date to a listing that was never dated. -/
theorem handedBack_not_exact : ¬ handedBack.FreshnessExact := by
  rintro ⟨_, fresh⟩
  have stale : ∃ link ∈ handedBack.db.links, ∃ entry ∈ handedBack.db.freshness,
      entry.1 = link.canonicalListingId ∧ entry.2 < link.lastSeenAt := by decide
  obtain ⟨link, linkMem, entry, entryMem, owns, older⟩ := stale
  exact absurd (fresh link linkMem entry entryMem owns) (not_le.mpr older)

end History

end RentalAgent
