import RentalAgent.Canonical.CircuitBreaker

/-! # How the lifecycle of a listing moves

A call of a service writes the lifecycle of a listing at most once, from a status that the
call allows, and adds candidates only (`Database.step_settles`). Admission activates a
listing only when its layout, its address and its identity are settled at that moment.
-/

namespace RentalAgent

open Absorption Relational Transition

/-- The moves of a lifecycle. -/
inductive LifecycleMove : LifecycleStatus → LifecycleStatus → Prop
  | activate {old : LifecycleStatus} (waiting : old = .candidate ∨ old = .reappeared) :
      LifecycleMove old .active
  | exclude {old : LifecycleStatus} (waiting : old = .candidate ∨ old = .reappeared) :
      LifecycleMove old .excluded
  | inactivate {old : LifecycleStatus} (current : old = .candidate ∨ old = .active) :
      LifecycleMove old .inactive
  | merge {old : LifecycleStatus} (separate : old ≠ .merged) : LifecycleMove old .merged
  | reverse : LifecycleMove .merged .reviewRequired

namespace Database

/-- The address of the building that a listing stands in. -/
def addressAt (db : Database) (standing : Standing) : Option Address := do
  let building ← get Building.buildingId db.buildings standing.buildingId
  get Address.addressId db.addresses building.addressId

/-- What admission checks of a listing and of its address. -/
structure Admissible (db : Database) (standing : Standing) : Prop where
  layout : standing.layoutClass ∈ admissibleLayouts
  resolution : standing.canonicalResolutionStatus ∉ blockingResolution
  located : ∃ address, db.addressAt standing = some address ∧
    address.boundaryStatus = .inScope ∧ address.locationPrecision ∈ acceptablePrecision

/-- What admission excludes a listing for. -/
def Excludable (db : Database) (standing : Standing) : Prop :=
  standing.layoutClass = .outOfScope ∨
    ∃ address, db.addressAt standing = some address ∧ address.boundaryStatus = .outOfScope

/-- Every lifecycle stays or makes one of the moves, the rest of a standing stays, and what
is added is a candidate. -/
def Settles (moves : Standing → LifecycleStatus → Prop) (db next : Database) : Prop :=
  ∃ (verdict : Standing → LifecycleStatus) (started : List Standing),
    next.standings =
        (db.standings.map fun standing => { standing with lifecycleStatus := verdict standing }) ++
          started ∧
      (∀ standing ∈ db.standings, verdict standing = standing.lifecycleStatus ∨
        moves standing (verdict standing)) ∧
      ∀ standing ∈ started, standing.lifecycleStatus = .candidate

variable {ids : IdSupply} {unicode : UnicodeTables} {now : Timestamp}
  {db middle next : Database} {moves weaker : Standing → LifecycleStatus → Prop}

theorem Settles.mono (settles : Settles moves db next)
    (implies : ∀ standing ∈ db.standings, ∀ status, moves standing status →
      weaker standing status) : Settles weaker db next := by
  obtain ⟨verdict, started, same, moved, candidates⟩ := settles
  exact ⟨verdict, started, same, fun standing member =>
    (moved standing member).imp_right (implies standing member _), candidates⟩

/-- A standing after the step is a candidate's or comes from one before. -/
theorem Settles.origin (settles : Settles moves db next) {standing : Standing}
    (member : standing ∈ next.standings) :
    standing.lifecycleStatus = .candidate ∨
      ∃ old ∈ db.standings, standing = { old with lifecycleStatus := standing.lifecycleStatus } ∧
        (standing.lifecycleStatus = old.lifecycleStatus ∨ moves old standing.lifecycleStatus) := by
  obtain ⟨verdict, started, same, moved, candidates⟩ := settles
  rw [same] at member
  rcases List.mem_append.mp member with kept | new
  · obtain ⟨old, inside, rfl⟩ := List.mem_map.mp kept
    exact .inr ⟨old, inside, rfl, moved old inside⟩
  · exact .inl (candidates standing new)

/-- A step that leaves the standings alone. -/
theorem settles_of_standings (same : next.standings = db.standings) : Settles moves db next :=
  ⟨Standing.lifecycleStatus, [], by simp [same], fun _ _ => .inl rfl, by simp⟩

/-- Settling one listing changes the lifecycle of its standing alone. -/
theorem map_settle (id : Uuid) (status : LifecycleStatus) (standings : List Standing) :
    standings.map (Standing.settle id status) = standings.map fun standing =>
      { standing with
        lifecycleStatus :=
          if standing.listingId = id then status else standing.lifecycleStatus } := by
  apply List.map_congr_left
  intro standing _
  unfold Standing.settle
  split <;> simp [*]

/-- Writing the lifecycle of one listing. -/
theorem settles_of_settle {id : Uuid} {status : LifecycleStatus}
    (wrote : next.standings = db.standings.map (Standing.settle id status))
    (allowed : ∀ standing ∈ db.standings, standing.listingId = id → moves standing status) :
    Settles moves db next := by
  refine ⟨_, [], by rw [wrote, map_settle, List.append_nil], fun standing member => ?_, by simp⟩
  by_cases same : standing.listingId = id
  · exact .inr (by simpa [same] using allowed standing member same)
  · exact .inl (by simp [same])

/-- The listing that a lookup finds is the only one of its id. -/
theorem standing_of_listing? (tracked : Tracked ids db) {id : Uuid} {listing : CanonicalListing}
    (found : db.listing? id = some listing) {standing : Standing}
    (member : standing ∈ db.standings) (same : standing.listingId = id) :
    standing = listing.standing := by
  obtain ⟨other, inside, rfl⟩ := mem_standings.mp member
  have key : listing.canonicalListingId = id := key_of_get found
  rw [List.inj_on_of_nodup_map tracked.listingIds inside (mem_of_get found) (same.trans key.symm)]

/-! ## Merges -/

/-- A merge marks a listing that was not merged. -/
def mergeMoves (standing : Standing) (status : LifecycleStatus) : Prop :=
  standing.lifecycleStatus ≠ .merged ∧ status = .merged

/-- A merge makes no move but that of its source. -/
theorem mergeListings_settles (tracked : Tracked ids db) {request : MergeRequest}
    {merge : CanonicalMerge} (merged : db.mergeListings ids now request = .ok (next, merge)) :
    Settles mergeMoves db next := by
  obtain ⟨_, source, _, found, _, separate, _, wrote⟩ := mergeListings_eq_ok merged
  have standings := applyMerge_standings ids now request source db
  rw [wrote] at standings
  refine settles_of_settle standings fun standing member same => ⟨?_, rfl⟩
  rw [standing_of_listing? tracked found member same]
  exact separate

/-- A reversal sends a merged listing to review. -/
def reversalMoves (standing : Standing) (status : LifecycleStatus) : Prop :=
  standing.lifecycleStatus = .merged ∧ status = .reviewRequired

/-- A reversal makes no move but that of the listing it restores. -/
theorem reverseMerge_settles (tracked : Tracked ids db) {mergeId : Uuid} {actor reason : String}
    {actorType : ActorType}
    (reversed : db.reverseMerge ids now mergeId actor actorType reason = .ok next) :
    Settles reversalMoves db next := by
  obtain ⟨_, merge, found, outstanding, rfl⟩ := reverseMerge_eq_ok reversed
  refine settles_of_settle (applyReversal_standings ids now merge actor actorType reason db)
    fun standing member same => ⟨?_, rfl⟩
  obtain ⟨listing, inside, rfl⟩ := mem_standings.mp member
  have absorbed : (merge.sourceListingId, true) ∈ db.ledger.nodes :=
    (tracked.valid.absorbed _).mpr
      ⟨_, mem_outstanding.mpr ⟨merge, mem_of_get found, outstanding, rfl⟩, rfl⟩
  have node : (listing.canonicalListingId, listing.isMerged) ∈ db.ledger.nodes :=
    List.mem_map_of_mem inside
  have key : listing.canonicalListingId = merge.sourceListingId := same
  rw [key] at node
  by_contra apart
  have flag : listing.isMerged = false := decide_eq_false apart
  rw [flag] at node
  cases tracked.valid.flag_unique node absorbed

/-! ## Admission -/

/-- Admission decides about the listings that wait for it. -/
def admissionMoves (db : Database) (standing : Standing) (status : LifecycleStatus) : Prop :=
  (standing.lifecycleStatus = .candidate ∨ standing.lifecycleStatus = .reappeared) ∧
    (status = .active ∧ db.Admissible standing ∨ status = .excluded ∧ db.Excludable standing)

/-- What the verdict about a row writes. -/
def rowMoves (row : CanonicalListing × Address) (status : LifecycleStatus) : Prop :=
  (status = .excluded ∧ (row.1.layoutClass = .outOfScope ∨ row.2.boundaryStatus = .outOfScope)) ∨
    status = .active ∧ row.1.layoutClass ∈ admissibleLayouts ∧
      row.1.canonicalResolutionStatus ∉ blockingResolution ∧
      row.2.boundaryStatus = .inScope ∧ row.2.locationPrecision ∈ acceptablePrecision

/-- A verdict about one listing of the query. -/
theorem evaluateOne_standings (ids : IdSupply) (now : Timestamp) (listing : CanonicalListing)
    (address : Address) (db : Database) :
    (db.evaluateOne ids now listing address).1.standings = db.standings ∨
      ∃ status, (db.evaluateOne ids now listing address).1.standings =
          db.standings.map (Standing.settle listing.canonicalListingId status) ∧
        rowMoves (listing, address) status := by
  unfold evaluateOne
  split
  · rename_i outside
    exact .inr ⟨.excluded, settle_standings listing _ _ _ db, .inl ⟨rfl, outside⟩⟩
  · split
    · exact .inl rfl
    · rename_i layout
      split
      · exact .inl rfl
      · rename_i scope
        split
        · exact .inl rfl
        · rename_i precision
          split
          · exact .inl rfl
          · rename_i resolution
            split
            · exact .inl rfl
            · exact .inr ⟨.active, settle_standings listing _ _ _ db, .inr ⟨rfl,
                not_not.mp layout, resolution, not_not.mp scope, not_not.mp precision⟩⟩

/-- A row of the query: a waiting listing, with its building and address. -/
theorem mem_candidateRows {row : CanonicalListing × Address} (member : row ∈ db.candidateRows) :
    row.1 ∈ db.listings ∧
      (row.1.lifecycleStatus = .candidate ∨ row.1.lifecycleStatus = .reappeared) ∧
      db.addressAt row.1.standing = some row.2 := by
  obtain ⟨listing, inside, joined⟩ := List.mem_filterMap.mp member
  obtain ⟨listed, waiting⟩ := List.mem_filter.mp inside
  obtain ⟨building, found, joined⟩ := Option.bind_eq_some_iff.mp joined
  obtain ⟨address, located, joined⟩ := Option.bind_eq_some_iff.mp joined
  cases joined
  exact ⟨listed, by simpa using waiting, Option.bind_eq_some_iff.mpr ⟨building, found, located⟩⟩

/-- A join lists each row of its first table at most once. -/
theorem join_sublist {Row Other : Type} {join : Row → Option (Row × Other)}
    (keeps : ∀ row joined, join row = some joined → joined.1 = row) (rows : List Row) :
    ((rows.filterMap join).map Prod.fst).Sublist rows := by
  induction rows with
  | nil => exact List.Sublist.refl []
  | cons row rest ih =>
      cases joined : join row with
      | none =>
          rw [List.filterMap_cons_none joined]
          exact ih.cons row
      | some pair =>
          rw [List.filterMap_cons_some joined, List.map_cons, keeps row pair joined]
          exact ih.cons_cons row

/-- The query returns each listing once. -/
theorem candidateRows_nodup (tracked : Tracked ids db) :
    (db.candidateRows.map fun row => row.1.canonicalListingId).Nodup := by
  have joined : (db.candidateRows.map Prod.fst).Sublist _ :=
    join_sublist (fun listing row joins => by
      obtain ⟨building, _, joins⟩ := Option.bind_eq_some_iff.mp joins
      obtain ⟨address, _, joins⟩ := Option.bind_eq_some_iff.mp joins
      cases joins
      rfl) _
  have distinct := tracked.listingIds.sublist
    ((joined.trans List.filter_sublist).map CanonicalListing.canonicalListingId)
  rwa [List.map_map] at distinct

/-- The rows that an evaluation goes over, in the order of the scan. -/
def evaluatedRows (db : Database) (scan : Uuid → Nat) (limit : Nat) :
    List (CanonicalListing × Address) :=
  (db.candidateRows.insertionSort fun first second =>
    scan first.1.canonicalListingId ≤ scan second.1.canonicalListingId).take limit

theorem mem_evaluatedRows {scan : Uuid → Nat} {limit : Nat} {row : CanonicalListing × Address}
    (member : row ∈ db.evaluatedRows scan limit) : row ∈ db.candidateRows :=
  (List.mem_insertionSort _).mp (List.mem_of_mem_take member)

theorem evaluatedRows_nodup (tracked : Tracked ids db) (scan : Uuid → Nat) (limit : Nat) :
    ((db.evaluatedRows scan limit).map fun row => row.1.canonicalListingId).Nodup :=
  ((((List.perm_insertionSort _ _).map _).nodup_iff).mpr
    (candidateRows_nodup tracked)).sublist ((List.take_sublist _ _).map _)

/-- One round of the admission loop. -/
def evaluateRow (ids : IdSupply) (now : Timestamp) (state : Database × List AdmissionOutcome)
    (row : CanonicalListing × Address) : Database × List AdmissionOutcome :=
  let (db, outcome) := state.1.evaluateOne ids now row.1 row.2
  (db, state.2 ++ [outcome])

/-- The verdicts about rows of different listings, one after the other: each moves the
listing of its row alone. -/
theorem evaluateRows_settles (ids : IdSupply) (now : Timestamp) (db : Database)
    {rows : List (CanonicalListing × Address)}
    (distinct : (rows.map fun row => row.1.canonicalListingId).Nodup)
    (outcomes : List AdmissionOutcome) :
    ∃ verdict : Standing → LifecycleStatus,
      (rows.foldl (evaluateRow ids now) (db, outcomes)).1.standings =
          (db.standings.map fun standing =>
            { standing with lifecycleStatus := verdict standing }) ∧
        ∀ standing ∈ db.standings, verdict standing = standing.lifecycleStatus ∨
          ∃ row ∈ rows, row.1.canonicalListingId = standing.listingId ∧
            rowMoves row (verdict standing) := by
  induction rows generalizing db outcomes with
  | nil => exact ⟨Standing.lifecycleStatus, by simp, fun _ _ => .inl rfl⟩
  | cons row rest ih =>
      obtain ⟨apart, distinct⟩ := List.nodup_cons.mp distinct
      have first : ∃ verdict : Standing → LifecycleStatus,
          (evaluateRow ids now (db, outcomes) row).1.standings =
              (db.standings.map fun standing =>
                { standing with lifecycleStatus := verdict standing }) ∧
            ∀ standing ∈ db.standings, verdict standing = standing.lifecycleStatus ∨
              row.1.canonicalListingId = standing.listingId ∧ rowMoves row (verdict standing) := by
        rcases evaluateOne_standings ids now row.1 row.2 db with held | ⟨status, wrote, moved⟩
        · exact ⟨Standing.lifecycleStatus, held.trans (by simp), fun _ _ => .inl rfl⟩
        · refine ⟨_, wrote.trans (map_settle _ _ _), fun standing _ => ?_⟩
          by_cases same : standing.listingId = row.1.canonicalListingId
          · exact .inr ⟨same.symm, by simpa [same] using moved⟩
          · exact .inl (by simp [same])
      obtain ⟨verdict, wrote, moved⟩ := first
      rw [List.foldl_cons]
      generalize evaluateRow ids now (db, outcomes) row = state at wrote ⊢
      obtain ⟨middle, told⟩ := state
      obtain ⟨later, same, laterMoved⟩ := ih middle distinct told
      refine ⟨fun standing => later { standing with lifecycleStatus := verdict standing }, ?_,
        fun standing member => ?_⟩
      · rw [same, show middle.standings = _ from wrote, List.map_map]
        rfl
      · have inside : { standing with lifecycleStatus := verdict standing } ∈ middle.standings := by
          rw [show middle.standings = _ from wrote]
          exact List.mem_map_of_mem member
        rcases laterMoved _ inside with stays | ⟨other, otherMem, sameId, otherMoved⟩
        · dsimp only at stays ⊢
          rw [stays]
          exact (moved standing member).imp_right fun ⟨own, moves⟩ =>
            ⟨row, List.mem_cons_self, own, moves⟩
        · exact .inr ⟨other, List.mem_cons_of_mem _ otherMem, sameId, otherMoved⟩

/-- Admission moves waiting listings only, each as its place and layout demand. -/
theorem evaluateCandidates_settles (tracked : Tracked ids db) (scan : Uuid → Nat) (limit : Nat) :
    Settles (admissionMoves db) db (db.evaluateCandidates ids now scan limit).1 := by
  obtain ⟨verdict, same, moved⟩ :=
    evaluateRows_settles ids now db (evaluatedRows_nodup tracked scan limit) []
  refine ⟨verdict, [], same.trans (List.append_nil _).symm, fun standing member => ?_, by simp⟩
  refine (moved standing member).imp_right ?_
  rintro ⟨row, rowMem, sameId, moves⟩
  obtain ⟨listed, waiting, place⟩ := mem_candidateRows (mem_evaluatedRows rowMem)
  obtain ⟨other, otherMem, rfl⟩ := mem_standings.mp member
  obtain rfl := List.inj_on_of_nodup_map tracked.listingIds listed otherMem sameId
  refine ⟨waiting, ?_⟩
  rcases moves with ⟨excluded, outside⟩ | ⟨active, layout, resolution, scope, precision⟩
  · exact .inr ⟨excluded, outside.imp_right fun status => ⟨row.2, place, status⟩⟩
  · exact .inl ⟨active, layout, resolution, row.2, place, scope, precision⟩

/-! ## Inactivation -/

/-- Inactivation ends candidates and active listings. -/
def inactivationMoves (standing : Standing) (status : LifecycleStatus) : Prop :=
  (standing.lifecycleStatus = .candidate ∨ standing.lifecycleStatus = .active) ∧
    status = .inactive

/-- Inactivations at once end candidates and active listings only. -/
theorem InactivatedAtOnce.settles (atOnce : InactivatedAtOnce db next now)
    (keyed : PrimaryKey CanonicalListing.canonicalListingId db.listings) :
    Settles inactivationMoves db next := by
  unfold InactivatedAtOnce at atOnce
  split at atOnce
  · have settled : ∀ listing ∈ db.listings, (∃ other ∈ db.listings,
        other.canonicalListingId = listing.standing.listingId ∧
          other.Eligible next.links db.overrides) ↔ listing.Eligible next.links db.overrides := by
      refine fun listing member => ⟨?_, fun eligible => ⟨listing, member, rfl, eligible⟩⟩
      rintro ⟨other, otherMem, same, eligible⟩
      rwa [keyed.eq_of_mem member otherMem same.symm]
    refine ⟨fun standing => if ∃ other ∈ db.listings,
      other.canonicalListingId = standing.listingId ∧ other.Eligible next.links db.overrides
        then .inactive else standing.lifecycleStatus, [], ?_, fun standing member => ?_, by simp⟩
    · rw [List.append_nil, standings, standings, atOnce.1, List.map_map, List.map_map]
      apply List.map_congr_left
      intro listing member
      simp only [Function.comp_apply, settled listing member]
      split <;> rfl
    · obtain ⟨listing, inside, rfl⟩ := mem_standings.mp member
      simp only [settled listing inside]
      split
      · rename_i eligible
        exact .inr ⟨eligible.1, rfl⟩
      · exact .inl rfl
  · exact settles_of_standings (standings_congr atOnce.1)

/-- A source run ends candidates and active listings only. -/
theorem processSourceRun_settles (tracked : Tracked ids db) {sourceRunId : Uuid}
    {summary : DisappearanceSummary}
    (processed : db.processSourceRun ids now sourceRunId = .ok (next, summary)) :
    Settles inactivationMoves db next := by
  have keyed : PrimaryKey CanonicalListing.canonicalListingId db.listings :=
    primaryKey_iff_nodup.mpr tracked.listingIds
  obtain ⟨run, found, ⟨-, rfl⟩ | ⟨passed, -⟩⟩ := processSourceRun_eq_ok processed
  · exact settles_of_standings rfl
  · obtain ⟨_, _, same, atOnce⟩ := processSourceRun_atOnce ids now keyed found passed
    cases processed.symm.trans same
    exact atOnce.settles keyed

/-! ## Every call -/

/-- The moves that a call can make. -/
def callMoves (db : Database) : ServiceAction → Standing → LifecycleStatus → Prop
  | .processObservation .. | .outside _ => fun _ _ => False
  | .mergeListings .. | .resolveDuplicateCandidate .. => mergeMoves
  | .reverseMerge .. => reversalMoves
  | .evaluateCandidates .. => db.admissionMoves
  | .processSourceRun .. => inactivationMoves

/-- A call writes every lifecycle at most once, by one of its moves. -/
theorem step_settles (tracked : Tracked ids db) (action : ServiceAction) :
    Settles (db.callMoves action) db (db.step ids unicode action) := by
  unfold step
  cases performed : db.perform ids unicode action with
  | error failure => exact settles_of_standings rfl
  | ok next =>
      dsimp only
      cases perform_performs performed with
      | processObservation processed =>
          obtain ⟨started, same, candidates⟩ := processObservation_standings processed
          exact ⟨Standing.lifecycleStatus, started, by simp [same], fun _ _ => .inl rfl, candidates⟩
      | mergeListings merged => exact mergeListings_settles tracked merged
      | reverseMerge reversed => exact reverseMerge_settles tracked reversed
      | resolveDuplicateCandidate resolved =>
          obtain rfl | ⟨request, middle, merge, merged, rfl⟩ :=
            resolveDuplicateCandidate_eq_ok resolved
          · exact settles_of_standings rfl
          · have settles : Settles mergeMoves db middle := mergeListings_settles tracked merged
            exact settles
      | evaluateCandidates scan now limit => exact evaluateCandidates_settles tracked scan limit
      | processSourceRun processed => exact processSourceRun_settles tracked processed
      | outside write => exact settles_of_standings rfl

theorem admissionMoves_lifecycle {standing : Standing} {status : LifecycleStatus}
    (moves : db.admissionMoves standing status) :
    LifecycleMove standing.lifecycleStatus status := by
  rcases moves with ⟨waiting, ⟨rfl, _⟩ | ⟨rfl, _⟩⟩
  · exact .activate waiting
  · exact .exclude waiting

/-- The moves of a call are moves of a lifecycle. -/
theorem callMoves_lifecycle {action : ServiceAction} {standing : Standing}
    {status : LifecycleStatus} (moves : db.callMoves action standing status) :
    LifecycleMove standing.lifecycleStatus status := by
  have merges : mergeMoves standing status → LifecycleMove standing.lifecycleStatus status := by
    rintro ⟨separate, rfl⟩
    exact .merge separate
  cases action with
  | processObservation _ _ _ _ | outside _ => exact moves.elim
  | mergeListings _ _ | resolveDuplicateCandidate _ _ _ _ _ _ => exact merges moves
  | reverseMerge _ _ _ _ _ =>
      obtain ⟨merged, rfl⟩ := moves
      rw [merged]
      exact .reverse
  | evaluateCandidates _ _ _ => exact admissionMoves_lifecycle moves
  | processSourceRun _ _ =>
      obtain ⟨current, rfl⟩ := moves
      exact .inactivate current

end Database

end RentalAgent
