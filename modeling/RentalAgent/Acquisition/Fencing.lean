import RentalAgent.Acquisition.Drain
import RentalAgent.Canonical.Durability
import RentalAgent.Jobs.QueueInvariant

/-! # Work under a lease

The work of an attempt and the completion of its job share a transaction. The queue
refuses the completion once the job has left the attempt's lease, but the worker
commits in either case: its changes are fenced by the lease just when every attempt
that changes anything is finished while its job still holds its token
(`DrainState.fenced_iff_underLease`).
-/

namespace RentalAgent

open Relational Transition

/-- No table but those of the queue changed. -/
def Database.KeepsInventory (db next : Database) : Prop := next = { db with queue := next.queue }

section Attempt

variable (ids : IdSupply) (unicode : UnicodeTables)

/-- The transaction that finishes an attempt: its worker's method, what it meets, and
the database it runs on. -/
structure Finish where
  database : Database
  discoveryMethod : DiscoveryMethod
  readings : Readings
  claimed : ClaimedJob

namespace Finish

/-- The work of the transaction. -/
def work (finish : Finish) : Except ServiceError (Database × NormalizationOutcome) :=
  finish.database.processObservation ⟨ids, unicode, finish.readings.scan⟩ finish.readings.workedAt
    finish.discoveryMethod finish.claimed.observationId

/-- The transaction ends in `next` with its completion as SUCCEEDED accepted. -/
def Succeeds (finish : Finish) (next : Database) : Prop :=
  finish.database.finishClaimed ids unicode finish.discoveryMethod finish.readings finish.claimed =
    .ok (next, true)

/-- `next` has the changes of the work. -/
def Commits (finish : Finish) (next : Database) : Prop :=
  ∃ written outcome, finish.work ids unicode = .ok (written, outcome) ∧ written.KeepsInventory next

/-- The changes of an attempt that succeeds are committed, and no others. -/
def Fenced (finish : Finish) (next : Database) : Prop :=
  (finish.Succeeds ids unicode next → finish.Commits ids unicode next) ∧
    (¬ finish.Succeeds ids unicode next → finish.database.KeepsInventory next)

/-- The job still holds the token of the attempt, or the work raises or changes
nothing. -/
def UnderLease (finish : Finish) : Prop :=
  finish.database.queue.Holds finish.claimed.jobId finish.claimed.leaseToken ∨
    ∀ written outcome, finish.work ids unicode = .ok (written, outcome) →
      finish.database.KeepsInventory written

end Finish

end Attempt

/-- The attempt the next transaction of a worker finishes. -/
def Worker.finish? (worker : Worker) (readings : Readings) (db : Database) : Option Finish :=
  match worker.phase with
  | .working claimed => some ⟨db, worker.discoveryMethod, readings, claimed⟩
  | .idle | .failing _ _ | .returned | .raised _ => none

variable {ids : IdSupply} {unicode : UnicodeTables} {readUuid : String → Option Uuid}

/-! ## One transaction -/

theorem Database.CanonicalOnly.queue {db next : Database} (canonical : db.CanonicalOnly next) :
    next.queue = db.queue := by
  rw [canonical.frame]

/-- Finishing a claimed job is processing its observation and completing the job under its token. -/
theorem Database.finishClaimed_eq_ok {db next : Database} {method : DiscoveryMethod}
    {readings : Readings} {claimed : ClaimedJob} {accepted : Bool} :
    db.finishClaimed ids unicode method readings claimed = .ok (next, accepted) ↔
      ∃ written outcome queue, db.processObservation ⟨ids, unicode, readings.scan⟩ readings.workedAt
          method claimed.observationId = .ok (written, outcome) ∧
        db.queue.complete claimed.jobId claimed.leaseToken .succeeded none none 60
          readings.queuedAt = .ok (queue, accepted) ∧
        next = { written with queue := queue } := by
  constructor
  · intro finished
    obtain ⟨⟨written, outcome⟩, processed, finished⟩ := bind_eq_ok.mp finished
    obtain ⟨⟨queue, reply⟩, completed, wrote⟩ := bind_eq_ok.mp finished
    rw [mapError_eq_ok] at processed completed
    cases wrote
    rw [(processObservation_canonicalOnly processed).queue] at completed
    exact ⟨written, outcome, queue, processed, completed, rfl⟩
  · rintro ⟨written, outcome, queue, processed, completed, rfl⟩
    rw [← (processObservation_canonicalOnly processed).queue] at completed
    exact bind_eq_ok.mpr ⟨_, mapError_eq_ok.mpr processed,
      bind_eq_ok.mpr ⟨_, mapError_eq_ok.mpr completed, rfl⟩⟩

namespace Finish

variable {finish : Finish}

/-- The database after the transaction is committed or rolled back. -/
def result (ids : IdSupply) (unicode : UnicodeTables) (finish : Finish) : Database :=
  match finish.database.finishClaimed ids unicode finish.discoveryMethod finish.readings
    finish.claimed with
  | .ok (next, _) => next
  | .error _ => finish.database

theorem result_of_ok {next : Database} {accepted : Bool}
    (finished : finish.database.finishClaimed ids unicode finish.discoveryMethod finish.readings
      finish.claimed = .ok (next, accepted)) : finish.result ids unicode = next := by
  rw [result, finished]

/-- What succeeds is committed. -/
theorem commits_of_succeeds {next : Database} (succeeds : finish.Succeeds ids unicode next) :
    finish.Commits ids unicode next := by
  obtain ⟨written, outcome, queue, processed, _, rfl⟩ := Database.finishClaimed_eq_ok.mp succeeds
  exact ⟨written, outcome, processed, rfl⟩

/-- Only an attempt that succeeds changes the inventory when it is under its lease. -/
theorem keeps_of_underLease (under : finish.UnderLease ids unicode)
    (unsuccessful : ¬ finish.Succeeds ids unicode (finish.result ids unicode)) :
    finish.database.KeepsInventory (finish.result ids unicode) := by
  cases finished : finish.database.finishClaimed ids unicode finish.discoveryMethod finish.readings
      finish.claimed with
  | error _ =>
      rw [result, finished]
      rfl
  | ok committed =>
      obtain ⟨next, accepted⟩ := committed
      rw [result_of_ok finished] at unsuccessful ⊢
      obtain ⟨written, outcome, queue, processed, completed, rfl⟩ :=
        Database.finishClaimed_eq_ok.mp finished
      rcases under with holds | keeps
      · obtain rfl : accepted = true := (QueueState.accepted_iff_holds completed).mpr holds
        exact (unsuccessful finished).elim
      · have kept := keeps written outcome processed
        rw [Database.KeepsInventory] at kept ⊢
        rw [kept]

/-- Without the lease, the work of an attempt is committed and its completion
refused. -/
theorem result_of_not_holds {written : Database} {outcome : NormalizationOutcome}
    (lost : ¬ finish.database.queue.Holds finish.claimed.jobId finish.claimed.leaseToken)
    (processed : finish.work ids unicode = .ok (written, outcome)) :
    finish.database.finishClaimed ids unicode finish.discoveryMethod finish.readings
        finish.claimed =
      .ok (written, false) := by
  refine Database.finishClaimed_eq_ok.mpr
    ⟨written, outcome, finish.database.queue, processed, ?_, ?_⟩
  · rw [QueueState.complete_of_not_holds lost, if_pos (by decide)]
  · rw [← (Database.processObservation_canonicalOnly processed).queue]

/-- **One attempt.** The transaction that finishes an attempt is fenced just when
it is under the lease of the attempt. -/
theorem fenced_iff_underLease (finish : Finish) :
    finish.Fenced ids unicode (finish.result ids unicode) ↔ finish.UnderLease ids unicode := by
  constructor
  · intro fenced
    by_contra outside
    obtain ⟨lost, changes⟩ := not_or.mp outside
    push Not at changes
    obtain ⟨written, outcome, processed, changed⟩ := changes
    have refused := result_of_not_holds lost processed
    have kept := fenced.2 (by
      rw [Succeeds, result_of_ok refused, refused]
      simp)
    rw [result_of_ok refused] at kept
    exact changed kept
  · exact fun under => ⟨commits_of_succeeds, keeps_of_underLease under⟩

end Finish

/-! ## Every transaction of every worker -/

namespace Worker

/-- A transaction that finishes no attempt leaves the inventory alone. -/
theorem advance_keeps {worker : Worker} {readings : Readings} {db : Database}
    (unfinished : worker.finish? readings db = none) :
    db.KeepsInventory (worker.advance ids unicode readUuid readings db).1 := by
  unfold finish? at unfinished
  unfold advance
  cases phase : worker.phase with
  | idle =>
      dsimp only
      split
      · cases claimed : db.claimNormalize readUuid worker.workerId readings with
        | error _ => rfl
        | ok claim =>
            obtain ⟨⟨queue, jobs⟩, _, wrote⟩ := bind_eq_ok.mp claimed
            dsimp only at wrote
            split at wrote
            · cases wrote
              rfl
            · obtain ⟨_, _, wrote⟩ := bind_eq_ok.mp wrote
              obtain ⟨_, _, wrote⟩ := bind_eq_ok.mp wrote
              cases wrote
              rfl
      · rfl
  | working claimed => simp [phase] at unfinished
  | failing claimed errorCode =>
      dsimp only
      cases reported : db.reportFailure readings claimed errorCode with
      | error _ => rfl
      | ok next =>
          obtain ⟨⟨queue, _⟩, _, wrote⟩ := bind_eq_ok.mp reported
          cases wrote
          rfl
  | returned => rfl
  | raised _ => rfl

/-- A worker that is about to finish does it on the database that it has now. -/
theorem advance_finish {worker : Worker} {readings : Readings} {db : Database} {finish : Finish}
    (finishes : worker.finish? readings db = some finish) :
    (worker.advance ids unicode readUuid readings db).1 = finish.result ids unicode ∧
      finish.database = db := by
  unfold finish? at finishes
  split at finishes
  · rename_i claimed phase
    cases finishes
    refine ⟨?_, rfl⟩
    unfold advance Finish.result
    rw [phase]
    dsimp only
    split <;> simp [*]
  all_goals cases finishes

end Worker

namespace DrainState

/-- What may happen to the inventory in one action: a worker commits the work of an
attempt just when the attempt succeeds, and changes nothing otherwise. -/
def Fenced (ids : IdSupply) (unicode : UnicodeTables) (readUuid : String → Option Uuid)
    (state : DrainState) (action : DrainAction) : Prop :=
  match action with
  | .advance index readings => ∀ worker ∈ state.workers[index]?,
      match worker.finish? readings state.database with
      | some finish => finish.Fenced ids unicode (state.step ids unicode readUuid action).database
      | none => state.database.KeepsInventory (state.step ids unicode readUuid action).database
  | .start _ _ _ | .queue _ =>
      state.database.KeepsInventory (state.step ids unicode readUuid action).database
  | .service _ => True

/-- An attempt that the action finishes is under its lease. -/
def UnderLease (ids : IdSupply) (unicode : UnicodeTables) (state : DrainState) :
    DrainAction → Prop
  | .advance index readings => ∀ worker ∈ state.workers[index]?,
      ∀ finish ∈ worker.finish? readings state.database, finish.UnderLease ids unicode
  | .start _ _ _ | .queue _ | .service _ => True

/-- An action is fenced just when the worker still holds its lease, or its work changes nothing. -/
theorem fenced_iff_underLease (state : DrainState) (action : DrainAction) :
    state.Fenced ids unicode readUuid action ↔ state.UnderLease ids unicode action := by
  cases action with
  | start _ _ _ => exact iff_of_true rfl trivial
  | queue _ => exact iff_of_true rfl trivial
  | service _ => exact Iff.rfl
  | advance index readings =>
      refine forall_congr' fun worker => forall_congr' fun present => ?_
      have stepped : (state.step ids unicode readUuid (.advance index readings)).database =
          (worker.advance ids unicode readUuid readings state.database).1 := by
        simp only [step, Option.mem_def.mp present]
      rw [stepped]
      cases finishes : worker.finish? readings state.database with
      | none => simpa using Worker.advance_keeps finishes
      | some finish =>
          simp only [(Worker.advance_finish finishes).1, Option.mem_some_iff, forall_eq']
          exact finish.fenced_iff_underLease

/-- **Fenced workers.** In every interleaving of workers, calls of the queue and
calls of the services, every action is fenced just when every attempt is finished
under its lease. -/
theorem drain_fenced_iff (ids : IdSupply) (unicode : UnicodeTables)
    (readUuid : String → Option Uuid) (start : DrainState) (actions : List DrainAction) :
    Permitted (step ids unicode readUuid) (Fenced ids unicode readUuid) start actions ↔
      Permitted (step ids unicode readUuid) (UnderLease ids unicode) start actions :=
  ⟨Permitted.mono fun state action => (fenced_iff_underLease state action).mp,
    Permitted.mono fun state action => (fenced_iff_underLease state action).mpr⟩

/-! ## A worker that is late -/

/-- The UUID of the first observation. -/
def readFirst (text : String) : Option Uuid :=
  if text = "00000000-0000-0000-0000-000000000001" then some 1 else none

/-- One observation is stored. -/
def observedOnce : DrainState where
  database := Database.empty.writeOutside
    { observations := [Database.observedAt 1 1 "a" none]
      sourceRuns := []
      overrides := []
      geography := fun address => (address.locationPrecision, address.boundaryStatus) }
  workers := []

/-- The first worker claims the job; after its lease the job is recovered and claimed
by the second worker. -/
def overtaken : List DrainAction :=
  [.queue (.enqueue
      { jobType := .normalize
        inputHash := "00000000-0000-0000-0000-000000000001"
        dependencyVersion := "phase3-skeleton-1"
        priority := 10 } 50 0 0),
    .start "first" .direct 1000, .start "second" .direct 1000,
    .advance 0 { queuedAt := seconds 0, uuid4 := fun _ => 60 },
    .queue (.recoverExpiredLeases (seconds 301)),
    .advance 1 { queuedAt := seconds 302, uuid4 := fun _ => 61 }]

/-- The attempt of the first worker, finished when the second one holds the job. -/
def lateFinish : Finish where
  database :=
    (run (step countingIds Database.asciiTables readFirst) observedOnce overtaken).database
  discoveryMethod := .direct
  readings := { queuedAt := seconds 303 }
  claimed := ⟨50, 60, 1⟩

/-- The completion of the late attempt is refused, and its listing is created all
the same. -/
theorem late_worker_commits :
    ¬ Permitted (step countingIds Database.asciiTables readFirst)
      (Fenced countingIds Database.asciiTables readFirst) observedOnce
      (overtaken ++ [.advance 0 { queuedAt := seconds 303 }]) := by
  intro permitted
  obtain ⟨last, _⟩ := (permitted_cons _ _ _).mp ((permitted_append _ _ _).mp permitted).2
  have under : lateFinish.UnderLease countingIds Database.asciiTables :=
    (fenced_iff_underLease _ _).mp last _ rfl lateFinish rfl
  rcases under with holds | keeps
  · exact absurd holds (by decide)
  · have kept := congrArg (fun db => db.listings.length) (keeps _ _ rfl)
    exact absurd kept (by decide)

end DrainState

end RentalAgent
