import RentalAgent.Canonical.LifecycleMoves
import RentalAgent.Enrichment.Surveys

/-! # Scope over whole runs

Admission checks a listing and its address once, while normalization, merges, geocoding and
scope validation keep running. What it has checked stays true of both in every order of the
calls (`Database.Warranted.survey`), so active listings are admissible in every state reached
(`Database.admission_invariant`).
-/

namespace RentalAgent

open Relational Transition

/-- The calls of the services, of geocoding and of the boundary registry, with the clock
reading, the scan order and the geocoders each one meets. -/
inductive LocationAction
  | service (action : ServiceAction)
  | geocodePending (geocoders : List Geocoder) (scan : Uuid → Nat) (now : Timestamp) (limit : Nat)
  | upsertBoundary (upload : BoundaryUpload)
  | validateBoundaries (scan : ScopeRow → Nat) (limit : Nat)

/-- One call as a transaction. -/
def Database.survey (env : LocationEnvironment) (db : Database) : LocationAction → Database
  | .service action => db.step env.ids env.unicode action.grounded
  | .geocodePending geocoders scan now limit => (db.geocodePending env now geocoders scan limit).1
  | .upsertBoundary upload => (db.upsertBoundary env.ids upload).1
  | .validateBoundaries scan limit => (db.validateBoundaries env scan limit).1

namespace Database

variable {ids : IdSupply} {env : LocationEnvironment} {now : Timestamp}
  {db middle next : Database}

/-! ## Every call -/

/-- The step wrote sources, requests, addresses and boundaries only. -/
structure LocationOnly (db next : Database) : Prop where
  frame : next = { db with
    drawn := next.drawn
    sources := next.sources
    addresses := next.addresses
    boundaries := next.boundaries
    providerRequests := next.providerRequests }
  drawn : db.drawn ≤ next.drawn

theorem LocationOnly.refl (db : Database) : LocationOnly db db := ⟨rfl, Nat.le_refl _⟩

theorem LocationOnly.trans (first : LocationOnly db middle) (second : LocationOnly middle next) :
    LocationOnly db next := by
  refine ⟨?_, Nat.le_trans first.drawn second.drawn⟩
  rw [second.frame, first.frame]

theorem LocationOnly.quiet (location : LocationOnly db next) : Quiet db next :=
  ⟨by rw [location.frame]; rfl, location.drawn⟩

theorem LocationOnly.standings (location : LocationOnly db next) : next.standings = db.standings :=
  standings_congr (by rw [location.frame])

theorem RequestsOnly.locationOnly (requests : RequestsOnly db next) : LocationOnly db next :=
  ⟨by rw [requests.frame], requests.drawn⟩

/-- A round of geocoding writes one address and its requests only. -/
theorem geocodeRound_locationOnly (geocoders : List Geocoder)
    (state : Database × GeocodeRunSummary) (row : Address) :
    LocationOnly state.1 (geocodeRound env now geocoders state row).1 := by
  rcases geocodeRound_writes env now geocoders state row with same | wrote
  · rw [same]
    exact .refl _
  · obtain ⟨middle, change, requests, written, _⟩ :=
      geocodeAddress_writes env now geocoders row state.1
    rw [wrote, written]
    exact requests.locationOnly.trans ⟨rfl, Nat.le_refl _⟩

theorem geocodePending_locationOnly (geocoders : List Geocoder) (scan : Uuid → Nat) (limit : Nat)
    (db : Database) : LocationOnly db (db.geocodePending env now geocoders scan limit).1 :=
  (Composes.mk LocationOnly.refl .trans).foldl Prod.fst (geocodeRound_locationOnly geocoders) _
    (db, {})

theorem validateBoundaries_locationOnly (scan : ScopeRow → Nat) (limit : Nat) (db : Database) :
    LocationOnly db (db.validateBoundaries env scan limit).1 := by
  obtain ⟨change, wrote, _⟩ := validateBoundaries_writes env scan limit db
  rw [wrote]
  exact ⟨rfl, Nat.le_refl _⟩

theorem upsertBoundary_locationOnly (ids : IdSupply) (upload : BoundaryUpload) (db : Database) :
    LocationOnly db (db.upsertBoundary ids upload).1 := by
  unfold upsertBoundary
  split
  · exact .refl db
  · exact ⟨rfl, Nat.le_succ _⟩

/-- Beside the services nothing but the location tables is written. -/
theorem survey_locationOnly (action : LocationAction)
    (beside : ∀ call, action ≠ .service call) : LocationOnly db (db.survey env action) := by
  cases action with
  | service call => exact (beside call rfl).elim
  | geocodePending geocoders scan now limit => exact geocodePending_locationOnly _ _ _ db
  | upsertBoundary upload => exact upsertBoundary_locationOnly _ _ db
  | validateBoundaries scan limit => exact validateBoundaries_locationOnly _ _ db

/-- The moves that a call can make. -/
def surveyMoves (db : Database) : LocationAction → Standing → LifecycleStatus → Prop
  | .service action => db.callMoves action.grounded
  | .geocodePending .. | .upsertBoundary _ | .validateBoundaries .. => fun _ _ => False

theorem survey_settles (tracked : Tracked env.ids db) (action : LocationAction) :
    Settles (db.surveyMoves action) db (db.survey env action) := by
  cases action with
  | service call => exact step_settles tracked call.grounded
  | geocodePending _ _ _ _ | upsertBoundary _ | validateBoundaries _ _ =>
      exact settles_of_standings (survey_locationOnly _ (by simp)).standings

theorem survey_tracked (tracked : Tracked env.ids db) (action : LocationAction) :
    Tracked env.ids (db.survey env action) := by
  cases action with
  | service call => exact tracked.moves (step_moves tracked call.grounded)
  | geocodePending _ _ _ _ | upsertBoundary _ | validateBoundaries _ _ =>
      exact tracked.moves (survey_locationOnly _ (by simp)).quiet.refines

/-- Each call surveys the database. -/
theorem survey_surveys (tracked : Tracked env.ids db)
    (keyed : Keyed env.ids db.drawn Address.addressId db.addresses) (action : LocationAction) :
    Surveys env.ids db (db.survey env action) := by
  cases action with
  | service call => exact step_surveys tracked call
  | geocodePending geocoders scan now limit => exact geocodePending_surveys keyed _ _ _
  | upsertBoundary upload => exact upsertBoundary_surveys upload db
  | validateBoundaries scan limit => exact validateBoundaries_surveys keyed scan limit

/-! ## What admission has checked stays -/

/-- A call activates what is admissible and excludes what is excludable. -/
theorem callMoves_warranted {action : ServiceAction} {standing : Standing}
    {status : LifecycleStatus} (moves : db.callMoves action standing status) :
    (status = .active → db.Admissible standing) ∧
      (status = .excluded → db.Excludable standing) := by
  cases action with
  | processObservation _ _ _ _ | outside _ => exact moves.elim
  | mergeListings _ _ | resolveDuplicateCandidate _ _ _ _ _ _ | reverseMerge _ _ _ _ _
  | processSourceRun _ _ =>
      obtain ⟨_, rfl⟩ := moves
      simp
  | evaluateCandidates _ _ _ =>
      rcases moves.2 with ⟨rfl, admissible⟩ | ⟨rfl, excludable⟩
      · exact ⟨fun _ => admissible, by simp⟩
      · exact ⟨by simp, fun _ => excludable⟩

/-- An address that a listing stands at is still there, further ahead. -/
theorem Surveys.addressAt (surveys : Surveys ids db next) {standing : Standing} {address : Address}
    (stands : db.addressAt standing = some address) :
    ∃ later, next.addressAt standing = some later ∧ address.Advances later := by
  obtain ⟨change, more, wrote, advanced, _⟩ := surveys.addresses
  obtain ⟨built, buildings⟩ := surveys.buildings
  obtain ⟨building, found, located⟩ := Option.bind_eq_some_iff.mp stands
  have member := mem_of_get located
  refine ⟨change address, Option.bind_eq_some_iff.mpr ⟨building, ?_, ?_⟩, advanced _ member⟩
  · rw [buildings]
    exact get_append found
  · rw [wrote]
    refine get_append ?_
    rw [get_map fun old inside => (advanced old inside).addressId, located]
    rfl

/-- An address with a verdict is still found, with the same verdict and precision. -/
theorem Surveys.verdict (surveys : Surveys ids db next)
    (surveyed : ∀ address ∈ db.addresses, address.Surveyed) {standing : Standing}
    {address : Address} (stands : db.addressAt standing = some address)
    (verdict : address.boundaryStatus ≠ .unresolved) :
    ∃ later, next.addressAt standing = some later ∧
      later.boundaryStatus = address.boundaryStatus ∧
        later.locationPrecision = address.locationPrecision := by
  obtain ⟨later, stays, advances⟩ := surveys.addressAt stands
  obtain ⟨_, _, located⟩ := Option.bind_eq_some_iff.mp stands
  have point := surveyed address (mem_of_get located) verdict
  exact ⟨later, stays, advances.resolved verdict, (advances.located point).2⟩

/-- What is checked does not depend on the lifecycle. -/
theorem Admissible.relabel {standing : Standing} (admissible : db.Admissible standing)
    (status : LifecycleStatus) : db.Admissible { standing with lifecycleStatus := status } :=
  ⟨admissible.layout, admissible.resolution, admissible.located⟩

/-- An admissible listing stays admissible. -/
theorem Admissible.stays {standing : Standing} (admissible : db.Admissible standing)
    (surveys : Surveys ids db next)
    (surveyed : ∀ address ∈ db.addresses, address.Surveyed) : next.Admissible standing := by
  obtain ⟨address, stands, scope, precision⟩ := admissible.located
  obtain ⟨later, stays, sameScope, samePrecision⟩ :=
    surveys.verdict surveyed stands (by simp [scope])
  exact ⟨admissible.layout, admissible.resolution, later, stays, sameScope.trans scope,
    samePrecision ▸ precision⟩

/-- An excludable listing stays excludable. -/
theorem Excludable.stays {standing : Standing} (excludable : db.Excludable standing)
    (surveys : Surveys ids db next)
    (surveyed : ∀ address ∈ db.addresses, address.Surveyed) : next.Excludable standing := by
  refine excludable.imp_right ?_
  rintro ⟨address, stands, scope⟩
  obtain ⟨later, stays, same, _⟩ := surveys.verdict surveyed stands (by simp [scope])
  exact ⟨later, stays, same.trans scope⟩

/-- Verdicts are of located addresses, active listings are admissible and excluded ones
excludable. -/
structure Warranted (ids : IdSupply) (db : Database) : Prop where
  tracked : Tracked ids db
  keyed : Keyed ids db.drawn Address.addressId db.addresses
  surveyed : ∀ address ∈ db.addresses, address.Surveyed
  admitted : ∀ standing ∈ db.standings, standing.lifecycleStatus = .active →
    db.Admissible standing
  excluded : ∀ standing ∈ db.standings, standing.lifecycleStatus = .excluded →
    db.Excludable standing

theorem warranted_empty (ids : IdSupply) : Warranted ids Database.empty where
  tracked := tracked_empty ids
  keyed := .nil
  surveyed _ member := (List.not_mem_nil member).elim
  admitted _ member := (List.not_mem_nil member).elim
  excluded _ member := (List.not_mem_nil member).elim

/-- A standing of the next state was warranted before, or is a candidate's. -/
theorem survey_warrants (warranted : Warranted env.ids db) (action : LocationAction)
    {standing : Standing} (member : standing ∈ (db.survey env action).standings) :
    (standing.lifecycleStatus = .active → db.Admissible standing) ∧
      (standing.lifecycleStatus = .excluded → db.Excludable standing) := by
  rcases (survey_settles warranted.tracked action).origin member with
    candidate | ⟨old, inside, same, written⟩
  · simp [candidate]
  have before : (standing.lifecycleStatus = .active → db.Admissible old) ∧
      (standing.lifecycleStatus = .excluded → db.Excludable old) := by
    rcases written with stays | moves
    · rw [stays]
      exact ⟨warranted.admitted old inside, warranted.excluded old inside⟩
    · cases action with
      | service call => exact callMoves_warranted moves
      | geocodePending _ _ _ _ | upsertBoundary _ | validateBoundaries _ _ => exact moves.elim
  rw [same]
  exact ⟨fun active => (before.1 active).relabel _, fun excluded => before.2 excluded⟩

/-- Every call keeps listings and addresses warranted. -/
theorem Warranted.survey (warranted : Warranted env.ids db) (action : LocationAction) :
    Warranted env.ids (db.survey env action) := by
  have surveys := survey_surveys warranted.tracked warranted.keyed action
  refine ⟨survey_tracked warranted.tracked action, surveys.keyed warranted.keyed, ?_,
    fun standing member active => ?_, fun standing member excluded => ?_⟩
  · obtain ⟨change, more, wrote, advanced, surveyed⟩ := surveys.addresses
    rw [wrote]
    intro address member
    rcases List.mem_append.mp member with old | new
    · obtain ⟨before, inside, rfl⟩ := List.mem_map.mp old
      exact (advanced before inside).surveyed (warranted.surveyed before inside)
    · exact surveyed address new
  · exact ((survey_warrants warranted action member).1 active).stays surveys warranted.surveyed
  · exact ((survey_warrants warranted action member).2 excluded).stays surveys warranted.surveyed

theorem warranted_preserved :
    Preserved (survey env) (fun _ _ => True) (Warranted env.ids) :=
  fun _ action warranted _ => warranted.survey action

/-- A listing keeps its row, and its lifecycle stays or makes one of the moves. -/
theorem survey_moves (tracked : Tracked env.ids db) (action : LocationAction) {id : Uuid}
    {listing : CanonicalListing} (found : db.listing? id = some listing) :
    ∃ later, (db.survey env action).listing? id = some later ∧
      (later.lifecycleStatus = listing.lifecycleStatus ∨
        LifecycleMove listing.lifecycleStatus later.lifecycleStatus) := by
  obtain ⟨verdict, started, same, moved, _⟩ := survey_settles tracked action
  have inside : listing.standing ∈ db.standings := mem_standings.mpr ⟨_, mem_of_get found, rfl⟩
  have written : { listing.standing with lifecycleStatus := verdict listing.standing } ∈
      (db.survey env action).standings := by
    rw [same]
    exact List.mem_append_left _ (List.mem_map_of_mem inside)
  obtain ⟨later, member, stands⟩ := mem_standings.mp written
  have sameId : later.canonicalListingId = listing.canonicalListingId :=
    congrArg Standing.listingId stands
  have key : later.canonicalListingId = id := sameId.trans (key_of_get found)
  have status : later.lifecycleStatus = verdict listing.standing :=
    congrArg Standing.lifecycleStatus stands
  refine ⟨later, (get_eq_some ?_).mpr ⟨member, key⟩, ?_⟩
  · exact primaryKey_iff_nodup.mpr (survey_tracked tracked action).listingIds
  · rw [status]
    refine (moved _ inside).imp_right fun moves => ?_
    cases action with
    | service call => exact callMoves_lifecycle moves
    | geocodePending _ _ _ _ | upsertBoundary _ | validateBoundaries _ _ => exact moves.elim

/-- **Admission.** In every state that the calls reach from the empty database, in any order,
an active listing has one of the three layouts, stands at an address in scope with an
acceptable precision, and has no blocking resolution. Every call leaves the lifecycle of a
listing as it is or moves it along `LifecycleMove`. -/
theorem admission_invariant (env : LocationEnvironment) (actions : List LocationAction) :
    (∀ listing ∈ (run (survey env) empty actions).listings, listing.lifecycleStatus = .active →
      listing.layoutClass ∈ [LayoutClass.studio, .oneBedroom, .twoBedroom] ∧
        (∃ address, (run (survey env) empty actions).addressAt listing.standing = some address ∧
          address.boundaryStatus = .inScope ∧ address.locationPrecision ∈ acceptablePrecision) ∧
        listing.canonicalResolutionStatus ∉ blockingResolution) ∧
      ∀ moment ∈ moments (survey env) empty actions, ∀ id listing,
        moment.1.listing? id = some listing →
          ∃ later, (moment.1.survey env moment.2).listing? id = some later ∧
            (later.lifecycleStatus = listing.lifecycleStatus ∨
              LifecycleMove listing.lifecycleStatus later.lifecycleStatus) := by
  have every : Permitted (survey env) (fun _ _ => True) empty actions := fun _ _ => trivial
  have warranted := warranted_preserved.run (warranted_empty env.ids) every
  refine ⟨fun listing member active => ?_, fun moment member id listing found => ?_⟩
  · have admissible := warranted.admitted listing.standing
      (mem_standings.mpr ⟨listing, member, rfl⟩) active
    exact ⟨admissible.layout, admissible.located, admissible.resolution⟩
  · exact survey_moves (warranted_preserved.moments (warranted_empty env.ids) every moment
      member).tracked moment.2 found

end Database

end RentalAgent
