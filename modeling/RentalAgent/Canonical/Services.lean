import RentalAgent.Canonical.Refinement

/-! # The services as one system

An action is one call of a service, or a write of the components around them. A
call that raises is rolled back. Every run from the empty database keeps the
ownership ledger valid (`Database.tracked_run`).
-/

namespace RentalAgent

open Transition

/-- What components outside the services write: observations, runs of sources,
overrides, and where an address lies. -/
structure OutsideWrite where
  observations : List SourceObservation
  sourceRuns : List SourceRun
  overrides : List HumanOverride
  geography : Address → LocationPrecision × BoundaryStatus

/-- The calls of the services, with the clock reading and the scan order each one
meets. -/
inductive ServiceAction
  | processObservation (scan : Uuid → Nat) (now : Timestamp) (discoveryMethod : DiscoveryMethod)
      (observationId : Uuid)
  | mergeListings (now : Timestamp) (request : MergeRequest)
  | reverseMerge (now : Timestamp) (canonicalMergeId : Uuid) (actor : String)
      (actorType : ActorType) (reason : String)
  | resolveDuplicateCandidate (now : Timestamp) (duplicateCandidateId : Uuid)
      (confirmedDuplicate : Bool) (actor : String) (actorType : ActorType)
      (survivorListingId : Option Uuid)
  | evaluateCandidates (scan : Uuid → Nat) (now : Timestamp) (limit : Nat)
  | processSourceRun (now : Timestamp) (sourceRunId : Uuid)
  | outside (write : OutsideWrite)

/-- The action merges listings or reverses a merge. -/
def ServiceAction.redirects : ServiceAction → Bool
  | .mergeListings .. | .reverseMerge .. | .resolveDuplicateCandidate .. => true
  | .processObservation .. | .evaluateCandidates .. | .processSourceRun .. | .outside _ => false

namespace Database

/-- Replacing the tables that other components write. -/
def writeOutside (write : OutsideWrite) (db : Database) : Database :=
  { db with
    observations := write.observations
    sourceRuns := write.sourceRuns
    overrides := write.overrides
    addresses := db.addresses.map fun address =>
      { address with
        locationPrecision := (write.geography address).1
        boundaryStatus := (write.geography address).2 } }

variable (ids : IdSupply) (unicode : UnicodeTables)

/-- The database after a call, or the exception it raises. -/
def perform (db : Database) : ServiceAction → Except ServiceError Database
  | .processObservation scan now method observationId => do
      let (db, _) ← db.processObservation ⟨ids, unicode, scan⟩ now method observationId
      return db
  | .mergeListings now request => do
      let (db, _) ← db.mergeListings ids now request
      return db
  | .reverseMerge now mergeId actor actorType reason =>
      db.reverseMerge ids now mergeId actor actorType reason
  | .resolveDuplicateCandidate now candidateId confirmed actor actorType survivor =>
      db.resolveDuplicateCandidate ids now candidateId confirmed actor actorType survivor
  | .evaluateCandidates scan now limit => .ok (db.evaluateCandidates ids now scan limit).1
  | .processSourceRun now sourceRunId => do
      let (db, _) ← db.processSourceRun ids now sourceRunId
      return db
  | .outside write => .ok (db.writeOutside write)

/-- One call as a transaction. -/
def step (db : Database) (action : ServiceAction) : Database :=
  match db.perform ids unicode action with
  | .ok next => next
  | .error _ => db

/-- The database after the calls, from the empty one. -/
abbrev reached (actions : List ServiceAction) : Database :=
  run (step ids unicode) Database.empty actions

variable {ids unicode} {db next : Database}

theorem writeOutside_quiet (write : OutsideWrite) (db : Database) :
    Quiet db (db.writeOutside write) :=
  ⟨rfl, Nat.le_refl _⟩

/-- What a call that returns has done to the database. -/
inductive Performs (ids : IdSupply) (unicode : UnicodeTables) (db : Database) :
    ServiceAction → Database → Prop
  | processObservation {scan : Uuid → Nat} {now : Timestamp} {method : DiscoveryMethod}
      {observationId : Uuid} {next : Database} {outcome : NormalizationOutcome}
      (processed : db.processObservation ⟨ids, unicode, scan⟩ now method observationId =
        .ok (next, outcome)) :
      Performs ids unicode db (.processObservation scan now method observationId) next
  | mergeListings {now : Timestamp} {request : MergeRequest} {next : Database}
      {merge : CanonicalMerge} (merged : db.mergeListings ids now request = .ok (next, merge)) :
      Performs ids unicode db (.mergeListings now request) next
  | reverseMerge {now : Timestamp} {mergeId : Uuid} {actor : String} {actorType : ActorType}
      {reason : String} {next : Database}
      (reversed : db.reverseMerge ids now mergeId actor actorType reason = .ok next) :
      Performs ids unicode db (.reverseMerge now mergeId actor actorType reason) next
  | resolveDuplicateCandidate {now : Timestamp} {candidateId : Uuid} {confirmed : Bool}
      {actor : String} {actorType : ActorType} {survivor : Option Uuid} {next : Database}
      (resolved : db.resolveDuplicateCandidate ids now candidateId confirmed actor actorType
        survivor = .ok next) :
      Performs ids unicode db
        (.resolveDuplicateCandidate now candidateId confirmed actor actorType survivor) next
  | evaluateCandidates (scan : Uuid → Nat) (now : Timestamp) (limit : Nat) :
      Performs ids unicode db (.evaluateCandidates scan now limit)
        (db.evaluateCandidates ids now scan limit).1
  | processSourceRun {now : Timestamp} {sourceRunId : Uuid} {next : Database}
      {summary : DisappearanceSummary}
      (processed : db.processSourceRun ids now sourceRunId = .ok (next, summary)) :
      Performs ids unicode db (.processSourceRun now sourceRunId) next
  | outside (write : OutsideWrite) :
      Performs ids unicode db (.outside write) (db.writeOutside write)

/-- A call that does not fail does what its service does. -/
theorem perform_performs {action : ServiceAction}
    (performed : db.perform ids unicode action = .ok next) :
    Performs ids unicode db action next := by
  cases action with
  | processObservation scan now method observationId =>
      obtain ⟨⟨after, outcome⟩, processed, wrote⟩ := Relational.bind_eq_ok.mp performed
      cases wrote
      exact .processObservation processed
  | mergeListings now request =>
      obtain ⟨⟨after, merge⟩, merged, wrote⟩ := Relational.bind_eq_ok.mp performed
      cases wrote
      exact .mergeListings merged
  | reverseMerge now mergeId actor actorType reason => exact .reverseMerge performed
  | resolveDuplicateCandidate now candidateId confirmed actor actorType survivor =>
      exact .resolveDuplicateCandidate performed
  | evaluateCandidates scan now limit =>
      cases performed
      exact .evaluateCandidates scan now limit
  | processSourceRun now sourceRunId =>
      obtain ⟨⟨after, summary⟩, processed, wrote⟩ := Relational.bind_eq_ok.mp performed
      cases wrote
      exact .processSourceRun processed
  | outside write =>
      cases performed
      exact .outside write

/-- Every call takes steps of the ledger. -/
theorem perform_moves (tracked : Tracked ids db) {action : ServiceAction}
    (performed : db.perform ids unicode action = .ok next) : Moves ids db next := by
  cases perform_performs performed with
  | processObservation processed => exact (processObservation_grows processed tracked).moves
  | mergeListings merged => exact mergeListings_moves tracked merged
  | reverseMerge reversed => exact reverseMerge_moves reversed
  | resolveDuplicateCandidate resolved => exact resolveDuplicateCandidate_moves tracked resolved
  | evaluateCandidates scan now limit =>
      exact (evaluateCandidates_quiet tracked.valid scan limit).refines
  | processSourceRun processed => exact (processSourceRun_quiet tracked.valid processed).refines
  | outside write => exact (writeOutside_quiet write db).refines

/-- Every service call makes moves of the ledger. -/
theorem step_moves (tracked : Tracked ids db) (action : ServiceAction) :
    Moves ids db (db.step ids unicode action) := by
  unfold step
  split
  · rename_i next performed
    exact perform_moves tracked performed
  · exact .refl ids db

theorem tracked_preserved :
    Preserved (step ids unicode) (fun _ _ => True) (Tracked ids) :=
  fun _ action tracked _ => tracked.moves (step_moves tracked action)

/-- Every reachable ledger is valid and its ids were drawn. -/
theorem tracked_run (actions : List ServiceAction) : Tracked ids (reached ids unicode actions) :=
  tracked_preserved.run (tracked_empty ids) fun _ _ => trivial

end Database

end RentalAgent
