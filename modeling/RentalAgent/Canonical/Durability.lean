import RentalAgent.Canonical.MergeGraph

/-! # Merges across refreshes

After a merge the links of the source follow its survivor, so known identities
keep matching it. A new identity resolves through its unit, where the merged
listing is passed over: it reaches the survivor when the survivor is the latest
listing on that unit, and otherwise another listing or a new one.
-/

namespace RentalAgent

open Absorption Forest Relational Transition

/-- The action processes an observation or is a write of another component. -/
def ServiceAction.refreshes : ServiceAction → Bool
  | .processObservation .. | .outside _ => true
  | .mergeListings .. | .reverseMerge .. | .resolveDuplicateCandidate .. | .evaluateCandidates ..
  | .processSourceRun .. => false

namespace Database

/-- The observation is processed, and its building and unit are those of the listing. -/
def ResolvesTo (env : Environment) (db : Database) (row : SourceObservation)
    (listing : CanonicalListing) : Prop :=
  (row.parseStatus = .valid ∨ row.parseStatus = .partialParse) ∧
    ∃ place building unitMatch, ∃ unit ∈ db.units,
      db.resolvePlace env row row.parsedPayload = .ok (place, building, unitMatch) ∧
        building.buildingId = listing.buildingId ∧ unitMatch.unit = some unit ∧
          listing.unitId = some unit.unitId

/-- The identity of the row is linked to the listing. -/
def LinkedTo (db : Database) (row : SourceObservation) (listingId : Uuid) : Prop :=
  ∃ link, db.findLink row = .ok (some link) ∧ link.canonicalListingId = listingId

/-- From `db` to `next` no listing was created, and the identity of the row is linked
to the listing. -/
def AttachesTo (db next : Database) (row : SourceObservation) (listingId : Uuid) : Prop :=
  next.listings.map CanonicalListing.canonicalListingId =
    db.listings.map CanonicalListing.canonicalListingId ∧ next.LinkedTo row listingId

/-- A known identity is linked to the survivor; for a new one, the survivor is the
latest listing on the unit of the merged listing. -/
def Follows (env : Environment) (db : Database) (row : SourceObservation)
    (merged : CanonicalListing) (survivorId : Uuid) : Prop :=
  match db.findLink row with
  | .ok (some link) => link.canonicalListingId = survivorId
  | .ok none | .error _ =>
      ∃ unitId listing, merged.unitId = some unitId ∧
        db.latestListingOn env.scan unitId = some listing ∧ listing.canonicalListingId = survivorId

/-- The survivor is a listing that is not merged and that standing merges lead to. -/
def Survives (db : Database) (listingId survivorId : Uuid) : Prop :=
  EndsAt db.mergedInto listingId survivorId ∧ (survivorId, false) ∈ db.ledger.nodes

variable {ids : IdSupply} {unicode : UnicodeTables} {env : Environment} {now : Timestamp}
  {db next start : Database} {row : SourceObservation} {method : DiscoveryMethod}
  {observationId : Uuid} {outcome : NormalizationOutcome}

/-! ## One observation -/

theorem nodeIds_ledger : db.ledger.nodes.map Prod.fst =
    db.listings.map CanonicalListing.canonicalListingId := by
  rw [ledger, List.map_map]
  rfl

theorem Quiet.listingIds (quiet : Quiet db next) :
    next.listings.map CanonicalListing.canonicalListingId =
      db.listings.map CanonicalListing.canonicalListingId := by
  rw [← nodeIds_ledger, quiet.ledger, nodeIds_ledger]

theorem PlaceOnly.latestListingOn (place : PlaceOnly db next) (scan : Uuid → Nat) (unitId : Uuid) :
    next.latestListingOn scan unitId = db.latestListingOn scan unitId := by
  simp only [Database.latestListingOn, place.listings]

/-- A processed row takes one of the two ways. -/
theorem processObservation_cases
    (processed : db.processObservation env now method observationId = .ok (next, outcome))
    (found : db.observation? observationId = some row)
    (processable : row.parseStatus = .valid ∨ row.parseStatus = .partialParse) :
    (db.findLink row = .ok none ∧
        db.createCanonical env now row row.parsedPayload method = .ok (next, outcome)) ∨
      ∃ link, db.findLink row = .ok (some link) ∧
        db.updateExisting env now row row.parsedPayload link = .ok (next, outcome) := by
  obtain ⟨other, again, processes⟩ := processObservation_processes processed
  cases found.symm.trans again
  cases processes with
  | aside unparsed _ => exact (processable.elim unparsed.1 unparsed.2).elim
  | opened _ unknown created => exact .inl ⟨unknown, created⟩
  | continued _ known updated => exact .inr ⟨_, known, updated⟩

/-- The new link is the one the identity now has. -/
theorem findLink_insertLink {listingId id : Uuid} {identity : IdentityMethod}
    {confidence : IdentityConfidence} (unknown : db.findLink row = .ok none)
    (links : next.links = db.links ++ [newLink row method id listingId identity confidence]) :
    next.findLink row = .ok (some (newLink row method id listingId identity confidence)) := by
  unfold findLink at unknown ⊢
  cases native : row.sourceNativeId with
  | some nativeId =>
      simp only [native] at unknown ⊢
      rw [links, List.filter_append, scalarOneOrNone_eq_none.mp unknown]
      simp [newLink, native]
  | none =>
      simp only [native] at unknown ⊢
      rw [links, List.filter_append, scalarOneOrNone_eq_none.mp unknown]
      simp [newLink]

theorem attachCrossSourceLink_listingIds (listing : CanonicalListing) (identity : IdentityMethod)
    (confidence : IdentityConfidence) :
    (db.attachCrossSourceLink env row listing method identity confidence).1.listings.map
        CanonicalListing.canonicalListingId =
      db.listings.map CanonicalListing.canonicalListingId :=
  map_updateWhere _ fun _ _ _ => rfl

/-- Starting a listing adds its id. -/
theorem startListing_creates {observation : ParsedSourceObservation} {building : Building}
    {unitId : Option Uuid}
    (started : db.startListing env now row observation method building unitId =
      .ok (next, outcome)) :
    next.listings.map CanonicalListing.canonicalListingId ≠
      db.listings.map CanonicalListing.canonicalListingId := by
  intro same
  have longer := congrArg List.length same
  rw [(startListing_evidenceOnly started).listings] at longer
  simp [startedOn, insertListing, insertLink] at longer

/-- An observation of the unit of a merged listing creates no listing and is linked
to the survivor just when the survivor follows. -/
theorem attachesTo_iff_follows {merged : CanonicalListing} {survivorId : Uuid}
    (processed : db.processObservation env now method observationId = .ok (next, outcome))
    (found : db.observation? observationId = some row) (resolves : db.ResolvesTo env row merged) :
    AttachesTo db next row survivorId ↔ Follows env db row merged survivorId := by
  obtain ⟨processable, place, building, unitMatch, unit, present, resolved, _, atUnit, stands⟩ :=
    resolves
  rcases processObservation_cases processed found processable with
    ⟨unknown, created⟩ | ⟨link, known, updated⟩
  · obtain ⟨_, _, _, again, creation⟩ := createCanonical_cases created
    cases resolved.symm.trans again
    have placed := resolvePlace_placeOnly resolved
    have follows : Follows env db row merged survivorId ↔
        ∃ listing, place.latestListingOn env.scan unit.unitId = some listing ∧
          listing.canonicalListingId = survivorId := by
      simp [Follows, unknown, stands, placed.latestListingOn]
    have unitFound : ∃ label, UnitFound env label building db place unitMatch unit := by
      rcases resolvePlace_eq_ok resolved with ⟨rfl, _⟩ | ⟨label, other, _, unitFound⟩
      · cases atUnit
      · cases atUnit.symm.trans unitFound.atUnit
        exact ⟨label, unitFound⟩
    obtain ⟨label, unitFound⟩ := unitFound
    rw [follows]
    generalize result : Except.ok (next, outcome) = ended at creation
    cases creation with
    | exact =>
        rename_i other listing
        have linked : next.findLink row = .ok (some (newLink row method (env.ids.uuid place.drawn)
            listing.canonicalListingId .exactAddressAndUnit .high)) := by
          cases result
          exact findLink_insertLink unknown (congrArg (· ++ _) placed.links)
        have listed : next.listings.map CanonicalListing.canonicalListingId =
            db.listings.map CanonicalListing.canonicalListingId := by
          cases result
          exact (attachCrossSourceLink_listingIds listing _ _).trans (congrArg _ placed.listings)
        have latest := unitFound.occupied listing rfl
        simp only [AttachesTo, LinkedTo, listed, linked, latest, true_and, Except.ok.injEq,
          Option.some.injEq, exists_eq_left']
        rfl
    | strong _ => cases atUnit
    | unmatched _ => cases atUnit
    | vacant =>
        have vacant := unitFound.vacant rfl present
        have creates := startListing_creates result.symm
        rw [placed.listings] at creates
        constructor
        · exact fun attached => (creates attached.1).elim
        · rintro ⟨listing, latest, _⟩
          cases vacant.symm.trans latest
  · obtain ⟨listing, _, update⟩ := updateExisting_cases updated
    obtain ⟨later, linked, owner⟩ := update.findLink known
    simp only [AttachesTo, LinkedTo, Follows, known, linked,
      (updateExisting_quiet updated).listingIds,
      true_and, Except.ok.injEq, Option.some.injEq, exists_eq_left', owner]

/-! ## Runs of refreshes -/

/-- The ledger since `start` has only grown. -/
structure Grown (ids : IdSupply) (start db : Database) : Prop where
  tracked : Tracked ids db
  absorptions : db.ledger.absorptions = start.ledger.absorptions
  nodes : ∀ node ∈ start.ledger.nodes, node ∈ db.ledger.nodes

theorem Grown.grows (grown : Grown ids start db) (grows : Grows ids db next) :
    Grown ids start next := by
  obtain ⟨absorptions, nodes⟩ := Ledger.keeps_of_growth grows.steps
  exact ⟨grown.tracked.moves grows.moves, absorptions.trans grown.absorptions,
    fun node member => nodes node (grown.nodes node member)⟩

/-- Refreshing only lets the ledger grow. -/
theorem grown_preserved : Preserved (step ids unicode) (fun _ action => action.refreshes = true)
    (Grown ids start) := by
  intro db action grown refreshes
  unfold step
  split
  · rename_i next performed
    cases perform_performs performed with
    | processObservation processed =>
        exact grown.grows (processObservation_grows processed grown.tracked)
    | outside write => exact grown.grows (writeOutside_quiet write db).refines
    | mergeListings _ | reverseMerge _ | resolveDuplicateCandidate _ | evaluateCandidates _ _ _
    | processSourceRun _ => cases refreshes
  · exact grown

/-- Refreshes keep the survivor of a listing. -/
theorem Grown.survives (grown : Grown ids start db) {listingId survivorId : Uuid}
    (survives : start.Survives listingId survivorId) : db.Survives listingId survivorId := by
  refine ⟨?_, grown.nodes _ survives.2⟩
  have same : db.mergedInto = start.mergedInto := by
    rw [← edge_ledger, ← edge_ledger]
    unfold Ledger.edge Ledger.outstanding
    rw [grown.absorptions]
  rw [same]
  exact survives.1

/-- One survivor lasts through the refreshes, and each observation that resolves to
the place of the merged listing attaches to it just when it follows. -/
def DurableWhenFollowed (ids : IdSupply) (unicode : UnicodeTables) (start : Database)
    (merged : CanonicalListing) (refreshes : List ServiceAction) : Prop :=
  ∃ survivorId, ∀ moment ∈ moments (step ids unicode) start refreshes,
    moment.1.Survives merged.canonicalListingId survivorId ∧
      ∀ scan now method observationId row next outcome,
        moment.2 = .processObservation scan now method observationId →
        moment.1.observation? observationId = some row →
        moment.1.ResolvesTo ⟨ids, unicode, scan⟩ row merged →
        moment.1.processObservation ⟨ids, unicode, scan⟩ now method observationId =
          .ok (next, outcome) →
        (AttachesTo moment.1 next row survivorId ↔
          Follows ⟨ids, unicode, scan⟩ moment.1 row merged survivorId)

/-- **Durable merges.** A merged listing of a reachable state has a survivor, which
every sequence of refreshes keeps; an observation that resolves to the building
and unit of the merged listing creates no listing and is linked to the survivor
just when its known identity is linked to the survivor already or, for a new
identity, the survivor is the latest listing on that unit. -/
theorem merge_durable_iff (ids : IdSupply) (unicode : UnicodeTables) (actions : List ServiceAction)
    {merged : CanonicalListing} (member : merged ∈ (reached ids unicode actions).listings)
    {merge : CanonicalMerge} (recorded : merge ∈ (reached ids unicode actions).merges)
    (stands : merge.reversedAt = none) (source : merge.sourceListingId = merged.canonicalListingId)
    (refreshes : List ServiceAction) (only : ∀ action ∈ refreshes, action.refreshes = true) :
    merged.lifecycleStatus = .merged ∧
      DurableWhenFollowed ids unicode (reached ids unicode actions) merged refreshes := by
  have tracked : Tracked ids (reached ids unicode actions) := tracked_run actions
  generalize reached ids unicode actions = start at *
  have node : (merged.canonicalListingId, merged.isMerged) ∈ start.ledger.nodes :=
    List.mem_map_of_mem member
  have absorbed : (merged.canonicalListingId, true) ∈ start.ledger.nodes :=
    (tracked.valid.absorbed _).mpr
      ⟨merge.entry, mem_outstanding.mpr ⟨merge, recorded, stands, rfl⟩, source⟩
  obtain ⟨survivorId, standing, ends⟩ := tracked.valid.survivor node
  refine ⟨isMerged_iff.mp (tracked.valid.flag_unique node absorbed), survivorId,
    fun moment reachedLater => ?_⟩
  have grown : Grown ids start moment.1 :=
    grown_preserved.moments ⟨tracked, rfl, fun _ member => member⟩ (permitted_of_forall only)
      moment reachedLater
  refine ⟨grown.survives ⟨edge_ledger ▸ ends, standing⟩, ?_⟩
  intro scan now method observationId row next outcome _ found resolves processed
  exact attachesTo_iff_follows processed found resolves

/-! ## A unit whose listing was merged away -/

/-- Case and letters of ASCII. -/
def asciiTables : UnicodeTables where
  lower := List.map Char.toLower
  upper := List.map Char.toUpper
  isAlnum := Char.isAlphanum

/-- An observation at one address, with or without a unit. -/
def observedAt (id sourceId : Uuid) (nativeId : String) (unitLabel : Option String) :
    SourceObservation where
  sourceObservationId := id
  sourceId := sourceId
  sourceRunId := 0
  sourceNativeId := some nativeId
  sourceUrl := nativeId
  observedAt := 0
  retrievedAt := 0
  contentHash := nativeId
  parsedPayload :=
    { sourceUrl := nativeId
      observedAt := 0
      retrievedAt := 0
      identity := { rawAddressText := some "1 Main", rawUnitLabel := unitLabel }
      adapterVersion := "1" }
  parseStatus := .valid
  contactRedactionStatus := .notPresent
  adapterVersion := "1"
  schemaVersion := "1.0.0"

def process (observationId : Uuid) : ServiceAction :=
  .processObservation (fun _ => 0) 0 .direct observationId

/-- A listing on a unit is merged into one without a unit. -/
def unitMergedRun : List ServiceAction :=
  [.outside
      { observations := [observedAt 1 1 "a" (some "A"), observedAt 2 2 "b" none,
          observedAt 3 3 "c" (some "A")]
        sourceRuns := []
        overrides := []
        geography := fun address => (address.locationPrecision, address.boundaryStatus) },
    process 1, process 2,
    .mergeListings 0
      { sourceListingId := 103
        targetListingId := 106
        actor := "reviewer"
        actorType := .human }]

/-- The state after the merge. -/
def unitMerged : Database := reached countingIds asciiTables unitMergedRun

theorem merge_durable_iff_unitMerged :
    ∃ merged ∈ unitMerged.listings, merged.lifecycleStatus = .merged ∧
      DurableWhenFollowed countingIds asciiTables unitMerged merged [process 3] :=
  ⟨_, List.head_mem (by decide), merge_durable_iff countingIds asciiTables unitMergedRun
    (List.head_mem (by decide)) (List.head_mem (by decide)) (by decide) (by decide) [process 3]
    (by decide)⟩

/-- A new identity at the unit of the merged listing starts another listing. -/
theorem new_identity_escapes_merge :
    ∃ merged ∈ unitMerged.listings, ∃ merge ∈ unitMerged.merges,
      merge.sourceListingId = merged.canonicalListingId ∧ merge.reversedAt = none ∧
      unitMerged.observation? 3 = some (observedAt 3 3 "c" (some "A")) ∧
      unitMerged.ResolvesTo ⟨countingIds, asciiTables, fun _ => 0⟩ (observedAt 3 3 "c" (some "A"))
        merged ∧
      ∃ next outcome,
        unitMerged.processObservation ⟨countingIds, asciiTables, fun _ => 0⟩ 0 .direct 3 =
        .ok (next, outcome) ∧
          ∀ survivorId,
            ¬ AttachesTo unitMerged next (observedAt 3 3 "c" (some "A")) survivorId := by
  refine ⟨unitMerged.listings.head (by decide), List.head_mem _,
    unitMerged.merges.head (by decide), List.head_mem _, by decide, by decide, by decide, ?_, ?_⟩
  · refine ⟨.inl rfl, _, _, _, unitMerged.units.head (by decide), List.head_mem _, rfl, ?_, ?_, ?_⟩
    · decide
    · decide
    · decide
  · refine ⟨_, _, rfl, fun survivorId attached => ?_⟩
    exact absurd attached.1 (by decide)

end Database

end RentalAgent
