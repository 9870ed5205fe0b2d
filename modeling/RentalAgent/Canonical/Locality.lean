import RentalAgent.Canonical.SourceIdentity
import RentalAgent.Canonical.Sites

/-! # Towns and addresses

Addresses are looked up by the fingerprint of their text alone, which names no town.
The address of a new identity is one of those before it just when it states an address
with the key of the earlier one (`Placed.shares`), so observations of different towns stay
apart just when no identity meets the key of an identity of another town
(`History.towns_apart_iff`).
-/

namespace RentalAgent

open Relational Transition

/-- The locality an observation states. -/
def SourceObservation.town (row : SourceObservation) : Option String :=
  row.parsedPayload.identity.sourceGeographicLabels.head?

/-- The lookup of the address of the new row finds the address of the old one. -/
def SourceObservation.FindsAddressOf (unicode : UnicodeTables) (new old : SourceObservation) :
    Prop :=
  (truthy new.parsedPayload.identity.rawAddressText).isSome = true ∧
    old.placeKey unicode = new.placeKey unicode

instance (unicode : UnicodeTables) (new old : SourceObservation) :
    Decidable (new.FindsAddressOf unicode old) :=
  inferInstanceAs (Decidable (_ ∧ _))

/-- The link a visit ends on. -/
abbrev Visit.link (visit : Visit) : Option Uuid := visit.outcome.listingSourceLinkId

/-- The first visit of each link. -/
def firstVisits (visits : List Visit) : List Visit :=
  visits.foldl (fun firsts visit =>
    if firsts.any fun first => first.link = visit.link then firsts else firsts ++ [visit]) []

/-- Where a visit ends. -/
structure Place where
  listingId : Uuid
  buildingId : Uuid
  addressId : Uuid
  deriving DecidableEq

/-- The listing, the building and the address of a visit. -/
def Database.placeOf (db : Database) (visit : Visit) : Option Place := do
  let listingId ← visit.outcome.canonicalListingId
  let buildingId ← db.siteOf listingId
  let addressId ← db.lotOf buildingId
  return ⟨listingId, buildingId, addressId⟩

/-- The places share nothing. -/
def Place.Apart (first second : Place) : Prop :=
  first.listingId ≠ second.listingId ∧ first.buildingId ≠ second.buildingId ∧
    first.addressId ≠ second.addressId

/-- Visits of different identities that state different towns end apart. -/
def TownsApart (history : History) : Prop :=
  ∀ first ∈ history.visits, ∀ second ∈ history.visits, first.link ≠ second.link →
    ∀ town ∈ first.row.town, ∀ other ∈ second.row.town, town ≠ other →
      ∃ place ∈ history.db.placeOf first, ∃ elsewhere ∈ history.db.placeOf second,
        place.Apart elsewhere

/-- All visits of the two links that state a town state the same one. -/
def OneTown (visits : List Visit) (old new : Visit) : Prop :=
  ∀ first ∈ visits, first.link = old.link → ∀ second ∈ visits, second.link = new.link →
    ∀ town ∈ first.row.town, ∀ other ∈ second.row.town, town = other

instance (visits : List Visit) (old new : Visit) : Decidable (OneTown visits old new) :=
  inferInstanceAs (Decidable (∀ first ∈ visits, _))

/-- Where the first visit of an identity finds the address of an earlier one, the two
identities state one town. -/
def KeysSeparateTowns (unicode : UnicodeTables) (visits : List Visit) : Prop :=
  (firstVisits visits).Pairwise fun old new =>
    new.row.FindsAddressOf unicode old.row → OneTown visits old new

instance (unicode : UnicodeTables) (visits : List Visit) :
    Decidable (KeysSeparateTowns unicode visits) :=
  inferInstanceAs (Decidable (List.Pairwise _ _))

variable {ids : IdSupply} {unicode : UnicodeTables} {visits : List Visit} {visit : Visit}
  {db next : Database}

/-! ## First visits -/

theorem firstVisits_concat (visits : List Visit) (visit : Visit) :
    firstVisits (visits ++ [visit]) =
      if (firstVisits visits).any fun first => first.link = visit.link then firstVisits visits
      else firstVisits visits ++ [visit] := by
  rw [firstVisits, List.foldl_append]
  rfl

/-- A first visit is a visit. -/
theorem mem_of_mem_firstVisits (member : visit ∈ firstVisits visits) : visit ∈ visits := by
  induction visits using List.reverseRecOn with
  | nil => cases member
  | append_singleton rest last ih =>
      rw [firstVisits_concat] at member
      split at member
      · exact List.mem_append_left _ (ih member)
      · rcases List.mem_append.mp member with old | new
        · exact List.mem_append_left _ (ih old)
        · exact List.mem_append_right _ new

/-- Each visit has a first one of its link. -/
theorem exists_firstVisit (member : visit ∈ visits) :
    ∃ first ∈ firstVisits visits, first.link = visit.link := by
  induction visits using List.reverseRecOn with
  | nil => cases member
  | append_singleton rest last ih =>
      rw [firstVisits_concat]
      rcases List.mem_append.mp member with old | new
      · obtain ⟨first, inside, same⟩ := ih old
        split
        · exact ⟨first, inside, same⟩
        · exact ⟨first, List.mem_append_left _ inside, same⟩
      · obtain rfl := List.mem_singleton.mp new
        split
        · rename_i known
          obtain ⟨first, inside, same⟩ := List.any_eq_true.mp known
          exact ⟨first, inside, of_decide_eq_true same⟩
        · exact ⟨visit, List.mem_append_right _ (List.mem_singleton_self _), rfl⟩

/-- A visit of a link that was visited before is not a first one. -/
theorem firstVisits_concat_known {earlier : Visit} (member : earlier ∈ visits)
    (same : earlier.link = visit.link) :
    firstVisits (visits ++ [visit]) = firstVisits visits := by
  obtain ⟨first, inside, firstLink⟩ := exists_firstVisit member
  rw [firstVisits_concat, if_pos]
  exact List.any_eq_true.mpr ⟨first, inside, decide_eq_true (firstLink.trans same)⟩

/-- The visit of a new link is its first one. -/
theorem firstVisits_concat_new (new : ∀ first ∈ firstVisits visits, first.link ≠ visit.link) :
    firstVisits (visits ++ [visit]) = firstVisits visits ++ [visit] := by
  rw [firstVisits_concat, if_neg]
  intro known
  obtain ⟨first, inside, same⟩ := List.any_eq_true.mp known
  exact new first inside (of_decide_eq_true same)

/-- Two first visits are of different links. -/
theorem firstVisits_distinct (visits : List Visit) :
    (firstVisits visits).Pairwise fun old new => old.link ≠ new.link := by
  induction visits using List.reverseRecOn with
  | nil => exact .nil
  | append_singleton rest last ih =>
      rw [firstVisits_concat]
      split
      · exact ih
      · rename_i unknown
        refine List.pairwise_append.mpr
          ⟨ih, List.pairwise_singleton _ _, fun old inside new is => ?_⟩
        obtain rfl := List.mem_singleton.mp is
        intro same
        exact unknown (List.any_eq_true.mpr ⟨old, inside, decide_eq_true same⟩)

/-! ## Addresses of visits -/

/-- The address of a visit. -/
def Database.addressOfVisit (db : Database) (visit : Visit) : Option Uuid :=
  visit.outcome.canonicalListingId.bind db.addressOf

/-- The address of a visit carries the key of its row. -/
def Database.Locates (unicode : UnicodeTables) (db : Database) (visit : Visit) : Prop :=
  ∃ address ∈ db.addresses, db.addressOfVisit visit = some address.addressId ∧
    address.addressFingerprint = some (visit.row.placeKey unicode)

/-- The links are those of the visits, and the first visits stand at the addresses that
their rows find. -/
structure Placed (ids : IdSupply) (unicode : UnicodeTables) (history : History) : Prop where
  tracked : Database.Tracked ids history.db
  sited : Database.Sited ids history.db
  registered : Registered history.db.identities history.visits
  visited : ∀ entry ∈ history.db.identities, ∃ visit ∈ history.visits,
    visit.link = some entry.linkId
  located : ∀ first ∈ firstVisits history.visits, history.db.Locates unicode first
  shares : (firstVisits history.visits).Pairwise fun old new =>
    history.db.addressOfVisit old = history.db.addressOfVisit new ↔
      new.row.FindsAddressOf unicode old.row

/-- Before any visit the listings are placed. -/
theorem placed_start (ids : IdSupply) (unicode : UnicodeTables)
    (observations : List SourceObservation) (overrides : List HumanOverride) :
    Placed ids unicode (History.start observations overrides) where
  tracked := History.tracked_start ids observations overrides
  sited := Database.sited_empty ids observations overrides
  registered := Registered.empty
  visited _ member := (List.not_mem_nil member).elim
  located _ member := (List.not_mem_nil member).elim
  shares := .nil

namespace Database

theorem Stays.addressOfVisit (stays : Stays db next) {addressId : Uuid}
    (stands : db.addressOfVisit visit = some addressId) :
    next.addressOfVisit visit = some addressId := by
  obtain ⟨listingId, named, site⟩ := Option.bind_eq_some_iff.mp stands
  exact Option.bind_eq_some_iff.mpr ⟨listingId, named, stays.addressOf site⟩

theorem Stays.locates (stays : Stays db next) (located : db.Locates unicode visit) :
    next.Locates unicode visit ∧ next.addressOfVisit visit = db.addressOfVisit visit := by
  obtain ⟨address, member, stands, key⟩ := located
  have same := stays.addressOfVisit stands
  exact ⟨⟨address, stays.addresses address member, same, key⟩, same.trans stands.symm⟩

theorem distinct_links (tracked : Tracked ids db) :
    (db.identities.map LinkIdentity.linkId).Nodup := by
  rw [identities, List.map_map]
  exact tracked.linkIds

theorem Update.stays {env : Environment} {row : SourceObservation}
    {observation : ParsedSourceObservation} {link : ListingSourceLink} {listing : CanonicalListing}
    (update : Update env row observation link listing db next) : Stays db next :=
  stays_of_tables (update.seats.trans (List.append_nil _).symm)
    (by rw [update.inventoryOnly.frame, List.append_nil])
    (by rw [update.inventoryOnly.frame, List.append_nil])

/-- What a visit does to the places: nothing for a known identity, and a new one is
housed. -/
theorem visit_places {request : Request} (tracked : Tracked ids db) (sited : Sited ids db)
    (visited : db.visit ids unicode request = some (next, visit)) :
    Sited ids next ∧ Stays db next ∧
      (db.findLink visit.row = .ok none →
        NewlyHoused ids unicode visit.row db next visit.outcome) := by
  obtain ⟨found, processable, processed⟩ := visit_eq_some.mp visited
  have parsed := SourceObservation.processable_iff.mp processable
  rcases processObservation_cases processed found parsed with
    ⟨unknown, created⟩ | ⟨link, known, updated⟩
  · have housed := createCanonical_housed sited tracked created
    exact ⟨housed.sited, housed.stays, fun _ => housed⟩
  · obtain ⟨listing, _, update⟩ := updateExisting_cases updated
    refine ⟨sited.congr ?_ ?_ ?_ update.seats (updateExisting_quiet updated).drawn, update.stays,
      fun unknown => by cases unknown.symm.trans known⟩
    · rw [update.inventoryOnly.frame]
    · rw [update.inventoryOnly.frame]
    · rw [update.inventoryOnly.frame]

end Database

/-! ## Histories -/

namespace History

variable {history : History}

/-- Visits that stay keep their addresses and what they share. -/
theorem shares_of_stays (stays : Database.Stays db next)
    (located : ∀ first ∈ firstVisits visits, db.Locates unicode first)
    (shares : (firstVisits visits).Pairwise fun old new =>
      db.addressOfVisit old = db.addressOfVisit new ↔ new.row.FindsAddressOf unicode old.row) :
    (firstVisits visits).Pairwise fun old new =>
      next.addressOfVisit old = next.addressOfVisit new ↔
        new.row.FindsAddressOf unicode old.row := by
  refine List.Pairwise.imp_of_mem ?_ shares
  intro old new oldMem newMem shared
  rw [(stays.locates (located old oldMem)).2, (stays.locates (located new newMem)).2]
  exact shared

/-- Every visit keeps the listings placed: a known identity stays where it is, and a new one
stands at the address that its row finds. -/
theorem placed_preserved (ids : IdSupply) (unicode : UnicodeTables) :
    Preserved (step ids unicode) (fun _ _ => True) (Placed ids unicode) := by
  intro history request placed _
  have tracked := tracked_preserved ids unicode history request placed.tracked trivial
  have registered := registered_preserved ids unicode history request placed.registered trivial
  rcases step_cases ids unicode history request with idle | ⟨next, visit, visited, stepped⟩
  · rw [idle]
    exact placed
  rw [stepped] at tracked registered ⊢
  obtain ⟨sited, stays, housing⟩ := Database.visit_places placed.tracked placed.sited visited
  have located : ∀ first ∈ firstVisits history.visits, next.Locates unicode first :=
    fun first member => (stays.locates (placed.located first member)).1
  have shares := shares_of_stays stays placed.located placed.shares
  cases Database.visit_cases visited with
  | known found same link listing =>
      rename_i entry
      have entryMem : entry ∈ history.db.identities :=
        (List.mem_filter.mp (found ▸ List.mem_singleton_self entry)).1
      obtain ⟨earlier, earlierMem, earlierLink⟩ := placed.visited entry entryMem
      have firsts := firstVisits_concat_known earlierMem (earlierLink.trans link.symm)
      refine ⟨tracked, sited, registered, fun other member => ?_, ?_, ?_⟩
      · obtain ⟨earlier, earlierMem, earlierLink⟩ := placed.visited other (same ▸ member)
        exact ⟨earlier, List.mem_append_left _ earlierMem, earlierLink⟩
      · rw [firsts]
        exact located
      · rw [firsts]
        exact shares
  | opened absent added link listing =>
      rename_i linkId listingId
      have unknown : history.db.findLink visit.row = .ok none := by
        rw [Database.findLink_eq, scalarOneOrNone_eq_none]
        rw [Database.filter_identities, List.map_eq_nil_iff] at absent
        exact absent
      obtain ⟨_, _, listing', address, named, addressed, stands⟩ := housing unknown
      have newLink : ∀ first ∈ firstVisits history.visits, first.link ≠ visit.link := by
        intro first firstMem same
        obtain ⟨entry, entryMem, _, firstLink, _⟩ :=
          placed.registered.of_mem (mem_of_mem_firstVisits firstMem)
        have nodup := Database.distinct_links tracked
        rw [added, List.map_append] at nodup
        refine (List.disjoint_of_nodup_append nodup) (List.mem_map_of_mem entryMem) ?_
        have equal : entry.linkId = linkId :=
          Option.some.inj (firstLink.symm.trans (same.trans link))
        simp [SourceObservation.opens, equal]
      have firsts := firstVisits_concat_new newLink
      have visitStands : next.addressOfVisit visit = some address.addressId :=
        Option.bind_eq_some_iff.mpr ⟨listing', named, stands⟩
      refine ⟨tracked, sited, registered, fun other member => ?_, ?_, ?_⟩
      · rw [added] at member
        rcases List.mem_append.mp member with old | new
        · obtain ⟨earlier, earlierMem, earlierLink⟩ := placed.visited other old
          exact ⟨earlier, List.mem_append_left _ earlierMem, earlierLink⟩
        · obtain rfl := List.mem_singleton.mp new
          exact ⟨visit, List.mem_append_right _ (List.mem_singleton_self _), link⟩
      · rw [firsts]
        intro first member
        rcases List.mem_append.mp member with old | new
        · exact located first old
        · obtain rfl := List.mem_singleton.mp new
          exact ⟨address, addressed.member, visitStands, addressed.key⟩
      · rw [firsts]
        refine List.pairwise_append.mpr ⟨shares, List.pairwise_singleton _ _, ?_⟩
        intro old oldMem new newMem
        obtain rfl := List.mem_singleton.mp newMem
        obtain ⟨place, placeMem, placeStands, key⟩ := placed.located old oldMem
        rw [visitStands, stays.addressOfVisit placeStands, Option.some.injEq,
          addressed.old place placeMem, key, Option.some.injEq]
        exact Iff.rfl

/-! ## Places -/

/-- The place of a visit is the site of its listing and the lot of that site. -/
theorem mem_placeOf {place : Place} : place ∈ db.placeOf visit ↔
    visit.outcome.canonicalListingId = some place.listingId ∧
      db.siteOf place.listingId = some place.buildingId ∧
        db.lotOf place.buildingId = some place.addressId := by
  obtain ⟨listingId, buildingId, addressId⟩ := place
  simp only [Database.placeOf, Option.mem_def, bind, Option.bind_eq_some_iff, pure,
    Option.some.injEq, Place.mk.injEq]
  constructor
  · rintro ⟨_, named, _, site, _, lot, rfl, rfl, rfl⟩
    exact ⟨named, site, lot⟩
  · rintro ⟨named, site, lot⟩
    exact ⟨_, named, _, site, _, lot, rfl, rfl, rfl⟩

theorem addressOfVisit_of_place {place : Place} (ends : place ∈ db.placeOf visit) :
    db.addressOfVisit visit = some place.addressId := by
  obtain ⟨named, site, lot⟩ := mem_placeOf.mp ends
  exact Option.bind_eq_some_iff.mpr ⟨_, named, Option.bind_eq_some_iff.mpr ⟨_, site, lot⟩⟩

theorem exists_place {addressId : Uuid} (stands : db.addressOfVisit visit = some addressId) :
    ∃ place ∈ db.placeOf visit, place.addressId = addressId := by
  obtain ⟨listingId, named, stands⟩ := Option.bind_eq_some_iff.mp stands
  obtain ⟨buildingId, site, lot⟩ := Option.bind_eq_some_iff.mp stands
  exact ⟨⟨listingId, buildingId, addressId⟩, mem_placeOf.mpr ⟨named, site, lot⟩, rfl⟩

/-- Places at two addresses share nothing. -/
theorem apart_of_addresses {other : Visit} {place elsewhere : Place}
    (ends : place ∈ db.placeOf visit) (otherEnds : elsewhere ∈ db.placeOf other)
    (differ : place.addressId ≠ elsewhere.addressId) : place.Apart elsewhere := by
  obtain ⟨_, site, lot⟩ := mem_placeOf.mp ends
  obtain ⟨_, otherSite, otherLot⟩ := mem_placeOf.mp otherEnds
  have buildings : place.buildingId ≠ elsewhere.buildingId := by
    intro same
    rw [same, otherLot] at lot
    exact differ (Option.some.inj lot).symm
  refine ⟨fun same => ?_, buildings, differ⟩
  rw [same, otherSite] at site
  exact buildings (Option.some.inj site).symm

/-- Visits of one link end at one address. -/
theorem addressOfVisit_of_link (placed : Placed ids unicode history) {first second : Visit}
    (firstMem : first ∈ history.visits) (secondMem : second ∈ history.visits)
    (same : first.link = second.link) :
    history.db.addressOfVisit first = history.db.addressOfVisit second := by
  obtain ⟨entry, member, _, link, listing⟩ := placed.registered.of_mem firstMem
  obtain ⟨other, otherMem, _, otherLink, otherListing⟩ := placed.registered.of_mem secondMem
  have equal : entry = other :=
    List.inj_on_of_nodup_map (Database.distinct_links placed.tracked) member otherMem
      (Option.some.inj (link.symm.trans (same.trans otherLink)))
  rw [Database.addressOfVisit, Database.addressOfVisit, listing, otherListing, equal]

/-- Placed histories keep towns apart just when the keys of addresses separate the towns. -/
theorem townsApart_iff (placed : Placed ids unicode history) :
    TownsApart history ↔ KeysSeparateTowns unicode history.visits := by
  have address : ∀ visit ∈ history.visits, ∃ first ∈ firstVisits history.visits,
      first.link = visit.link ∧
        history.db.addressOfVisit visit = history.db.addressOfVisit first := by
    intro visit member
    obtain ⟨first, inside, same⟩ := exists_firstVisit member
    exact ⟨first, inside, same,
      addressOfVisit_of_link placed member (mem_of_mem_firstVisits inside) same.symm⟩
  constructor
  · intro apart
    refine List.Pairwise.imp_of_mem ?_ (placed.shares.and (firstVisits_distinct history.visits))
    rintro old new oldMem newMem ⟨shared, links⟩ finds first firstMem firstLink second secondMem
      secondLink town states other otherStates
    by_contra differ
    obtain ⟨place, ends, elsewhere, otherEnds, _, _, addresses⟩ := apart first firstMem second
      secondMem (by rwa [firstLink, secondLink]) town states other otherStates differ
    refine addresses (Option.some.inj ?_)
    rw [← addressOfVisit_of_place ends, ← addressOfVisit_of_place otherEnds,
      addressOfVisit_of_link placed firstMem (mem_of_mem_firstVisits oldMem) firstLink,
      addressOfVisit_of_link placed secondMem (mem_of_mem_firstVisits newMem) secondLink]
    exact shared.mpr finds
  · intro separate first firstMem second secondMem links town states other otherStates differ
    obtain ⟨old, oldMem, oldLink, oldAddress⟩ := address first firstMem
    obtain ⟨new, newMem, newLink, newAddress⟩ := address second secondMem
    obtain ⟨_, _, oldStands, _⟩ := placed.located old oldMem
    obtain ⟨_, _, newStands, _⟩ := placed.located new newMem
    obtain ⟨place, ends, placeAddress⟩ := exists_place (oldAddress.trans oldStands)
    obtain ⟨elsewhere, otherEnds, elsewhereAddress⟩ := exists_place (newAddress.trans newStands)
    refine ⟨place, ends, elsewhere, otherEnds, apart_of_addresses ends otherEnds fun same => ?_⟩
    have together : (firstVisits history.visits).Pairwise fun old new =>
        history.db.addressOfVisit old = history.db.addressOfVisit new →
          OneTown history.visits old new :=
      (placed.shares.and separate).imp fun both same => both.2 (both.1.mp same)
    have symmetric : Std.Symm fun old new : Visit =>
        history.db.addressOfVisit old = history.db.addressOfVisit new →
          OneTown history.visits old new := by
      constructor
      intro old new one same first firstMem firstLink second secondMem secondLink town states other
        otherStates
      exact (one same.symm second secondMem secondLink first firstMem firstLink other otherStates
        town
        states).symm
    have one := together.forall oldMem newMem
      (fun equal => links (by rw [← oldLink, ← newLink, equal]))
      (by rw [oldStands, newStands, ← placeAddress, ← elsewhereAddress, same])
    exact differ (one first firstMem oldLink.symm second secondMem newLink.symm town states other
      otherStates)

/-- **Towns.** After every history, visits of different identities that state different
towns end on different listings, buildings and addresses just when the first visit of
an identity finds the address of an earlier one only if all visits of the two
identities state one town. -/
theorem towns_apart_iff (ids : IdSupply) (unicode : UnicodeTables)
    (observations : List SourceObservation) (overrides : List HumanOverride)
    (requests : List Request) :
    TownsApart (run (step ids unicode) (start observations overrides) requests) ↔
      KeysSeparateTowns unicode
        (run (step ids unicode) (start observations overrides) requests).visits :=
  townsApart_iff ((placed_preserved ids unicode).run
    (placed_start ids unicode observations overrides) fun _ _ => trivial)

/-! ## One street in two towns -/

/-- A listing of a source at "1 Main" in a town. -/
def listedIn (id sourceId : Uuid) (nativeId town : String) : SourceObservation :=
  let row := Database.observedAt id sourceId nativeId (some "4")
  { row with
    parsedPayload :=
      { row.parsedPayload with
        identity := { row.parsedPayload.identity with sourceGeographicLabels := [town] } } }

/-- The apartment of the second town is attached to the listing of the first one. -/
theorem towns_collapse :
    ¬ TownsApart (run (step countingIds Database.asciiTables)
      (start [listedIn 1 1 "a" "Jersey City", listedIn 2 2 "b" "Hoboken"] [])
      [request 1, request 2]) := by
  intro apart
  obtain ⟨place, ends, elsewhere, otherEnds, _, _, addresses⟩ := apart _ (List.head_mem (by decide))
    _ (List.getLast_mem (by decide)) (by decide) "Jersey City" rfl "Hoboken" rfl (by decide)
  cases ends
  cases otherEnds
  exact addresses rfl

end History

end RentalAgent
