import RentalAgent.Acquisition.RunnerSteps

/-! # Discovered identities behind completed checkpoints

An identity counts as seen before its item is captured, and the item may raise: a later
partition of the call then skips it and is completed. Behind a completed checkpoint every
item of the page has an observation in the run, at every moment of every sequence of
calls, just when the captures of each call yield the identities that its completed pages
list (`Acquisition.identities_kept_iff`).
-/

namespace RentalAgent

open Relational Transition

/-- An observation extracted from an item, and its hash. -/
abbrev Capture := ParsedSourceObservation × String

/-- `source_native_id or source_url`. -/
def Capture.identity (capture : Capture) : String :=
  (truthy capture.1.sourceNativeId).getD capture.1.sourceUrl

/-- `source_native_id or source_url`. -/
def SourceObservation.identity (row : SourceObservation) : String :=
  (truthy row.sourceNativeId).getD row.sourceUrl

/-- The key of the observation in the unique indexes. -/
def Capture.key (sourceId : Uuid) (capture : Capture) : ObservationKey where
  sourceId := sourceId
  identity :=
    match capture.1.sourceNativeId with
    | some nativeId => .inl nativeId
    | none => .inr capture.1.sourceUrl
  contentHash := capture.2
  observedAt := capture.1.observedAt

/-! ## What a call captures -/

section Captures

variable (digest : ParsedSourceObservation → String)

/-- The captures of a page, up to the first item that raises. -/
def captures : List String → List DiscoveredItem → List Capture
  | _, [] => []
  | seen, item :: rest =>
      if item.identity ∈ seen then captures seen rest
      else
        match item.capture digest with
        | .error _ => []
        | .ok capture => capture :: captures (item.identity :: seen) rest

/-- The captures of a partition. -/
def AcquisitionPartition.captures (seen : List String) (partition : AcquisitionPartition) :
    List Capture :=
  match partition.discover with
  | .error _ => []
  | .ok page => RentalAgent.captures digest seen page.items

/-- Whenever a call completes a partition, what it has captured so far holds every identity
of the page. -/
def Covers (holds : List Capture → String → Prop) :
    List String → List String → List Capture → List AcquisitionPartition → Prop
  | _, _, _, [] => True
  | done, seen, before, partition :: rest =>
      if partition.partitionKey ∈ done then Covers holds done seen before rest
      else
        let captured := before ++ partition.captures digest seen
        match partition.answer digest seen with
        | (seen, .ok page) => (∀ item ∈ page.items, holds captured item.identity) ∧
            Covers holds (done ++ [partition.partitionKey]) seen captured rest
        | (seen, .error raised) => raised.isException = true →
            Covers holds done seen captured rest

end Captures

/-- One of the captures is of the identity and no repeat: no observation from before and no
earlier capture has its key. -/
def Yields (sourceId : Uuid) (observations : List SourceObservation) (captured : List Capture)
    (identity : String) : Prop :=
  ∃ earlier capture later, captured = earlier ++ capture :: later ∧
    capture.identity = identity ∧ (∀ row ∈ observations, row.key ≠ capture.key sourceId) ∧
      ∀ other ∈ earlier, other.key sourceId ≠ capture.key sourceId

/-- The run has an observation of the identity. -/
def ObservedAs (observations : List SourceObservation) (sourceRunId : Uuid) (identity : String) :
    Prop :=
  ∃ row ∈ observations, row.sourceRunId = sourceRunId ∧ row.identity = identity

namespace Acquisition

/-- Every item of a page whose partition was completed has an observation in the run. -/
def PagesObserved (state : Acquisition) : Prop :=
  ∀ entry ∈ state.completed, ∀ item ∈ entry.page.items,
    ObservedAs state.database.observations entry.sourceRunId item.identity

/-- Behind every completed checkpoint a page was discovered, and every item of it has an
observation of its identity in the run. -/
def CheckpointsObserved (state : Acquisition) : Prop :=
  ∀ checkpoint ∈ state.database.checkpoints, checkpoint.completed = true →
    (∃ entry ∈ state.completed, entry.sourceRunId = checkpoint.sourceRunId ∧
      entry.partitionKey = checkpoint.partitionKey) ∧
    ∀ entry ∈ state.completed, entry.sourceRunId = checkpoint.sourceRunId →
      entry.partitionKey = checkpoint.partitionKey → ∀ item ∈ entry.page.items,
        ObservedAs state.database.observations checkpoint.sourceRunId item.identity

/-- On aligned states the checkpoints are observed just when the pages they stand for are. -/
theorem Aligned.checkpointsObserved_iff {state : Acquisition} (aligned : state.Aligned) :
    state.CheckpointsObserved ↔ state.PagesObserved := by
  constructor
  · intro observed entry member item inside
    obtain ⟨checkpoint, checkpointMem, run, key, done⟩ := (aligned.recorded _ _).mp
      (mem_completedKeys.mpr ⟨entry, member, rfl, rfl⟩)
    rw [← run]
    exact (observed checkpoint checkpointMem done).2 entry member run.symm key.symm item inside
  · intro observed checkpoint member done
    refine ⟨mem_completedKeys.mp ((aligned.recorded _ _).mpr ⟨checkpoint, member, rfl, rfl, done⟩),
      fun entry entryMem run _ item inside => ?_⟩
    rw [← run]
    exact observed entry entryMem item inside

end Acquisition

/-! ## What a call stores -/

section Stores

variable {env : RunnerEnvironment} {opened : OpenedRun} {origin : List SourceObservation}
  {captured : List Capture} {db : Database} {state : Acquisition}

/-- The observations after the captures of a call were stored over those from before. -/
structure Stores (env : RunnerEnvironment) (opened : OpenedRun) (origin : List SourceObservation)
    (captured : List Capture) (db : Database) : Prop where
  keys : ∀ key, (∃ row ∈ db.observations, row.key = key) ↔
    (∃ row ∈ origin, row.key = key) ∨ ∃ capture ∈ captured, capture.key opened.sourceId = key
  observed : ∀ identity, ObservedAs db.observations opened.sourceRunId identity ↔
    ObservedAs origin opened.sourceRunId identity ∨
      Yields opened.sourceId origin captured identity
  drawn : ∀ row ∈ db.observations, ∃ k < db.drawn, row.sourceObservationId = env.ids.uuid k

/-- The run holds the identity once the captures are stored. -/
def Holds (opened : OpenedRun) (origin : List SourceObservation) (captured : List Capture)
    (identity : String) : Prop :=
  ObservedAs origin opened.sourceRunId identity ∨ Yields opened.sourceId origin captured identity

theorem not_yields_nil {sourceId : Uuid} {identity : String} :
    ¬ Yields sourceId origin [] identity := by
  rintro ⟨earlier, capture, later, same, _⟩
  simp at same

/-- The last of some captures is no repeat when no earlier one and no observation has its key. -/
theorem yields_concat {sourceId : Uuid} {identity : String} {capture : Capture} :
    Yields sourceId origin (captured ++ [capture]) identity ↔
      Yields sourceId origin captured identity ∨ capture.identity = identity ∧
        (∀ row ∈ origin, row.key ≠ capture.key sourceId) ∧
          ∀ other ∈ captured, other.key sourceId ≠ capture.key sourceId := by
  constructor
  · rintro ⟨earlier, found, later, same, of, fresh, first⟩
    rcases List.eq_nil_or_concat later with rfl | ⟨more, last, rfl⟩
    · obtain ⟨rfl, single⟩ := List.append_inj' same rfl
      cases single
      exact .inr ⟨of, fresh, first⟩
    · rw [List.concat_eq_append, ← List.cons_append, ← List.append_assoc] at same
      obtain ⟨rfl, _⟩ := List.append_inj' same rfl
      exact .inl ⟨earlier, found, more, rfl, of, fresh, first⟩
  · rintro (⟨earlier, found, later, rfl, rest⟩ | rest)
    · exact ⟨earlier, found, later ++ [capture], by simp, rest⟩
    · exact ⟨captured, capture, [], rfl, rest⟩

/-- What is stored depends on the observations alone. -/
theorem Stores.congr {next : Database} (stores : Stores env opened origin captured db)
    (observations : next.observations = db.observations) (drawn : next.drawn = db.drawn) :
    Stores env opened origin captured next := by
  obtain ⟨keys, observed, draws⟩ := stores
  rw [← observations, ← drawn] at draws
  rw [← observations] at keys observed
  exact ⟨keys, observed, draws⟩

/-- The key of a capture is taken already. -/
def Taken (sourceId : Uuid) (origin : List SourceObservation) (captured : List Capture)
    (capture : Capture) : Prop :=
  (∃ row ∈ origin, row.key = capture.key sourceId) ∨
    ∃ other ∈ captured, other.key sourceId = capture.key sourceId

/-- A capture whose key is taken adds nothing. -/
theorem Stores.repeated (stores : Stores env opened origin captured db) {capture : Capture}
    (known : Taken opened.sourceId origin captured capture) :
    Stores env opened origin (captured ++ [capture]) db := by
  refine ⟨fun key => ?_, fun identity => ?_, stores.drawn⟩
  · rw [stores.keys key]
    constructor
    · rintro (old | ⟨other, inside, rfl⟩)
      · exact .inl old
      · exact .inr ⟨other, List.mem_append_left _ inside, rfl⟩
    · rintro (old | ⟨other, inside, rfl⟩)
      · exact .inl old
      · rcases List.mem_append.mp inside with before | last
        · exact .inr ⟨other, before, rfl⟩
        · cases List.mem_singleton.mp last
          exact known
  · rw [stores.observed identity, yields_concat, ← or_assoc]
    refine (or_iff_left ?_).symm
    rintro ⟨_, unheld, first⟩
    rcases known with ⟨row, inside, repeats⟩ | ⟨other, inside, repeats⟩
    · exact unheld row inside repeats
    · exact first other inside repeats

/-- A capture with a new key is one more row of the run. -/
theorem Stores.fresh (stores : Stores env opened origin captured db)
    {observation : ParsedSourceObservation} {contentHash : String}
    (unknown : ¬ Taken opened.sourceId origin captured (observation, contentHash)) :
    Stores env opened origin (captured ++ [(observation, contentHash)])
      { db with
        observations := db.observations ++
          [Database.observationRow opened observation contentHash (env.ids.uuid db.drawn)]
        drawn := db.drawn + 2 } := by
  refine ⟨fun key => ?_, fun identity => ?_, fun row member => ?_⟩
  · simp only [List.mem_append, List.mem_singleton, or_and_right, exists_or, exists_eq_left,
      stores.keys key, or_assoc]
    rfl
  · have written : ObservedAs (db.observations ++ [Database.observationRow opened observation
        contentHash (env.ids.uuid db.drawn)]) opened.sourceRunId identity ↔
          ObservedAs db.observations opened.sourceRunId identity ∨
            Capture.identity (observation, contentHash) = identity := by
      simp only [ObservedAs, List.mem_append, List.mem_singleton, or_and_right, exists_or,
        exists_eq_left]
      exact or_congr_right (and_iff_right rfl)
    refine written.trans ?_
    rw [stores.observed identity, yields_concat, ← or_assoc]
    refine or_congr_right (iff_self_and.mpr fun _ => ?_)
    obtain ⟨unheld, first⟩ := not_or.mp unknown
    exact ⟨fun row inside repeats => unheld ⟨row, inside, repeats⟩,
      fun other inside repeats => first ⟨other, inside, repeats⟩⟩
  · rcases List.mem_append.mp member with old | new
    · obtain ⟨k, early, drawn⟩ := stores.drawn row old
      exact ⟨k, Nat.lt_add_right 2 early, drawn⟩
    · cases List.mem_singleton.mp new
      exact ⟨db.drawn, Nat.lt_add_of_pos_right Nat.two_pos, rfl⟩

/-- Storing one more capture. -/
theorem Stores.store (stores : Stores env opened origin captured db)
    (observation : ParsedSourceObservation) (contentHash : String) (queuedAt : Timestamp) :
    Stores env opened origin (captured ++ [(observation, contentHash)])
        (db.storeObservation env opened observation contentHash queuedAt).1 ∧
      ∀ row ∈ db.observations, row ∈
        (db.storeObservation env opened observation contentHash queuedAt).1.observations := by
  have taken := stores.keys (Capture.key opened.sourceId (observation, contentHash))
  rcases storeObservation_cases env opened observation contentHash queuedAt db with
    ⟨⟨other, member, repeated⟩, same⟩ | ⟨fresh, same⟩
  · -- A drawn id is new, so the row repeats a key.
    have sameKey : other.key = Capture.key opened.sourceId (observation, contentHash) := by
      refine repeated.resolve_left fun sameId => ?_
      obtain ⟨k, early, drawn⟩ := stores.drawn other member
      exact early.ne (env.ids.distinct (drawn.symm.trans sameId))
    rw [same]
    exact ⟨stores.repeated (taken.mp ⟨other, member, sameKey⟩), fun row member => member⟩
  · have unknown : ¬ Taken opened.sourceId origin captured (observation, contentHash) := by
      intro known
      obtain ⟨row, inside, sameKey⟩ := taken.mpr known
      exact (fresh row inside).2 sameKey
    rw [same]
    exact ⟨(stores.fresh unknown).congr rfl rfl, fun row member => List.mem_append_left _ member⟩

/-! ## The moments of a call -/

/-- The pages stay observed while observations are added. -/
theorem Acquisition.PagesObserved.mono {next : Acquisition} (observed : state.PagesObserved)
    (completed : next.completed = state.completed)
    (kept : ∀ row ∈ state.database.observations, row ∈ next.database.observations) :
    next.PagesObserved := by
  intro entry member item inside
  obtain ⟨row, rowMem, same⟩ := observed entry (completed ▸ member) item inside
  exact ⟨row, kept row rowMem, same⟩

/-- The item loop stores its captures and completes nothing. -/
theorem captureItems_stores (items : List DiscoveredItem) (progress : RunProgress)
    (stores : Stores env opened origin captured state.database)
    (observed : state.PagesObserved) :
    let script := captureItems env opened items progress
    script.Always Acquisition.PagesObserved state ∧
      Stores env opened origin
        (captured ++ captures env.digest progress.seenIdentities items)
        (script.run state).1.database := by
  induction items generalizing progress captured state with
  | nil => exact ⟨observed, by rwa [captures, List.append_nil]⟩
  | cons item rest ih =>
      by_cases seen : item.identity ∈ progress.seenIdentities
      · rw [captureItems, if_pos seen, captures, if_pos seen]
        exact ih progress.skip stores observed
      · rw [captureItems, if_neg seen, captures, if_neg seen]
        cases item.capture env.digest with
        | error raised => exact ⟨observed, by rwa [List.append_nil]⟩
        | ok capture =>
            obtain ⟨observation, contentHash⟩ := capture
            obtain ⟨stored, kept⟩ := stores.store observation contentHash item.queuedAt
            dsimp only
            rw [Script.always_bind, Script.always_transaction, Script.run_bind,
              Script.run_transaction]
            have onward : Acquisition.PagesObserved { state with
                database := (state.database.storeObservation env opened observation contentHash
                  item.queuedAt).1 } := observed.mono rfl kept
            generalize state.database.storeObservation env opened observation contentHash
              item.queuedAt = written at stored onward
            obtain ⟨always, later⟩ :=
              ih ((progress.see item.identity).stored written.2) stored onward
            rw [((progress.see item.identity).stored_keeps written.2).2,
              List.append_assoc] at later
            exact ⟨⟨⟨observed, onward⟩, always⟩, later⟩

/-- Completing a partition keeps the pages observed just when its page is. -/
theorem complete_always (aligned : state.Aligned) (observed : state.PagesObserved)
    (sourceRunId : Uuid) (partitionKey : String) (page : DiscoveryPage) :
    let script := Acquisition.complete sourceRunId partitionKey page
    (script.Always Acquisition.PagesObserved state ↔ ∀ item ∈ page.items,
        ObservedAs state.database.observations sourceRunId item.identity) ∧
      (script.run state).1.database.observations = state.database.observations ∧
      (script.run state).1.database.drawn = state.database.drawn := by
  obtain ⟨db, completes, _⟩ := aligned.completeCheckpoint sourceRunId partitionKey page.items.length
  have same := completeCheckpoint_eq_ok completes
  have observations : db.observations = state.database.observations := by rw [same]
  have drawn : db.drawn = state.database.drawn := by rw [same]
  dsimp only
  rw [Acquisition.complete, Script.always_transaction, Script.run_transaction, completes]
  refine ⟨⟨?_, fun page => ⟨observed, ?_⟩⟩, observations, drawn⟩
  · rintro ⟨_, after⟩ item inside
    rw [← observations]
    exact after ⟨sourceRunId, partitionKey, page⟩ (by simp) item inside
  · intro entry member item inside
    change ObservedAs db.observations _ _
    rw [observations]
    rcases List.mem_append.mp member with old | new
    · exact observed entry old item inside
    · cases List.mem_singleton.mp new
      exact page item inside

/-- A partition that is asked for keeps the pages observed just when its own page is, if it
is completed. -/
theorem discoverPartition_always (partition : AcquisitionPartition) (progress : RunProgress)
    (aligned : state.Aligned) (stores : Stores env opened origin captured state.database)
    (observed : state.PagesObserved) :
    let script := discoverPartition env opened partition progress
    let stored := captured ++ partition.captures env.digest progress.seenIdentities
    (script.Always Acquisition.PagesObserved state ↔
        ∀ page, (partition.answer env.digest progress.seenIdentities).2 = .ok page →
          ∀ item ∈ page.items, Holds opened origin stored item.identity) ∧
      Stores env opened origin stored (script.run state).1.database := by
  dsimp only
  unfold discoverPartition AcquisitionPartition.answer AcquisitionPartition.captures
  cases partition.discover with
  | error raised => exact ⟨iff_of_true observed (by simp), by simpa using stores⟩
  | ok page =>
      obtain ⟨unjudged, -, -, result⟩ :=
        @captureItems_run env opened page.items (progress.discover page) state
      obtain ⟨always, stored⟩ := captureItems_stores page.items (progress.discover page) stores
        observed
      dsimp only
      rw [Script.always_bind, Script.run_bind]
      have last := always.last
      generalize Script.run (captureItems env opened page.items (progress.discover page)) state =
        ended at unjudged result stored last ⊢
      obtain ⟨next, after, answered⟩ := ended
      change _ = (answerItems env.digest progress.seenIdentities page.items).2 at result
      dsimp only at unjudged result stored last ⊢
      rw [← result]
      refine ⟨(and_iff_right always).trans ?_, ?_⟩
      · cases answered with
        | error raised => exact iff_of_true last (by simp [Except.map])
        | ok _ =>
            dsimp only
            rw [Script.always_bind]
            obtain ⟨completes, -, -⟩ := complete_always (unjudged.aligned aligned) last
              opened.sourceRunId partition.partitionKey page
            refine (and_iff_left_of_imp fun ending => ending.last).trans (completes.trans ?_)
            simp only [stored.observed]
            refine ⟨fun holds other same => ?_, fun holds => holds page rfl⟩
            cases same
            exact holds
      · cases answered with
        | error raised => exact stored
        | ok _ =>
            obtain ⟨-, observations, drawn⟩ := complete_always (unjudged.aligned aligned) last
              opened.sourceRunId partition.partitionKey page
            dsimp only
            rw [Script.run_bind, Script.run_pure]
            exact stored.congr observations drawn

/-- A partition that is completed already changes nothing. -/
theorem runPartition_always (aligned : state.Aligned) (partition : AcquisitionPartition)
    (progress : RunProgress) (holds : Acquisition → Prop) (now : holds state) :
    (runPartition env opened partition progress).Always holds state ↔
      (partition.partitionKey ∉ state.completedKeys opened.sourceRunId →
        (discoverPartition env opened partition progress).Always holds state) := by
  obtain ⟨found, looked, _, done⟩ := aligned.checkpoint opened.sourceRunId partition.partitionKey
  rw [runPartition, Script.always_bind, Acquisition.transaction, Script.always_transaction,
    Script.run_transaction, looked]
  refine (and_iff_right ⟨now, now⟩).trans ?_
  by_cases finished : partition.partitionKey ∈ state.completedKeys opened.sourceRunId
  · simpa [done.mpr finished, finished] using now
  · simp [Bool.eq_false_of_not_eq_true (mt done.mp finished), finished]

/-- The partition loop keeps the pages observed just when the captures cover them. -/
theorem runPartitions_always (plan : List AcquisitionPartition) (progress : RunProgress)
    (aligned : state.Aligned) (stores : Stores env opened origin captured state.database)
    (observed : state.PagesObserved) :
    (runPartitions env opened plan progress).Always Acquisition.PagesObserved state ↔
      Covers env.digest (Holds opened origin) (state.completedKeys opened.sourceRunId)
        progress.seenIdentities captured plan := by
  induction plan generalizing progress captured state with
  | nil => exact iff_of_true observed trivial
  | cons partition rest ih =>
      rw [runPartitions, Script.always_bind,
        runPartition_always aligned partition progress _ observed, runPartition_run aligned]
      by_cases finished : partition.partitionKey ∈ state.completedKeys opened.sourceRunId
      · rw [Covers, if_pos finished, if_pos finished]
        exact (and_iff_right fun unfinished => (unfinished finished).elim).trans
          (ih (progress.completePartition false) aligned stores observed)
      · rw [Covers, if_neg finished, if_neg finished]
        obtain ⟨carried, -, seen, result⟩ :=
          @discoverPartition_run env opened state aligned partition progress
        obtain ⟨always, stored⟩ := discoverPartition_always partition progress aligned stores
          observed
        have last : (discoverPartition env opened partition progress).Always
            Acquisition.PagesObserved state → _ := fun all => all.last
        rw [imp_iff_right finished]
        generalize (discoverPartition env opened partition progress).run state = ended
          at carried seen result stored last
        obtain ⟨next, after, returned⟩ := ended
        cases asked : partition.answer env.digest progress.seenIdentities with
        | mk now answered =>
            rw [asked] at carried seen result always
            dsimp only at carried seen result always stored last ⊢
            cases answered with
            | error raised =>
                cases result
                have passed := always.mpr (by simp)
                refine (and_iff_right passed).trans ?_
                cases caught : raised.isException with
                | false =>
                    simp only [Except.map, caught, Bool.false_eq_true, ↓reduceIte,
                      Script.always_pure, false_imp_iff]
                    exact iff_true_intro (last passed)
                | true =>
                    have onward := ih (after.failPartition partition.partitionKey raised)
                      carried.aligned stored (last passed)
                    have same : next.completedKeys opened.sourceRunId =
                        state.completedKeys opened.sourceRunId :=
                      congrArg (fun entries => (List.filter _ entries).map _)
                        (carried.completed.trans (List.append_nil _))
                    have still :
                        (after.failPartition partition.partitionKey raised).seenIdentities = now :=
                      seen
                    rw [same, still] at onward
                    simpa only [Except.map, caught, ↓reduceIte, true_imp_iff] using onward
            | ok page =>
                cases result
                have same : next.completedKeys opened.sourceRunId =
                    state.completedKeys opened.sourceRunId ++ [partition.partitionKey] :=
                  (Acquisition.completedKeys_concat carried.completed _).trans (by rw [if_pos rfl])
                refine (and_congr_right fun passed => ?_).trans (and_congr_left' (always.trans
                  ⟨fun holds => holds page rfl, fun holds other equal => ?_⟩))
                · have onward := ih (after.completePartition page.degraded) carried.aligned stored
                    (last passed)
                  rwa [same, show (after.completePartition page.degraded).seenIdentities = now
                    from seen] at onward
                · cases equal
                  exact holds

/-- Finalizing a run keeps its pages observed. -/
theorem finalize_always (call : SourceRunCall) (summary : SourceRunSummary)
    (observed : state.PagesObserved) :
    (finalize call summary).Always Acquisition.PagesObserved state := by
  rw [finalize, Acquisition.transaction, Script.always_transaction]
  refine ⟨observed, ?_⟩
  cases finalizes : state.database.finalizeRun call summary with
  | error failure => exact observed
  | ok db =>
      have observations : db.observations = state.database.observations := by
        rw [finalizeRun_eq_ok finalizes]
      refine observed.mono rfl fun row member => ?_
      change row ∈ db.observations
      rwa [observations]

/-- A call for an open run keeps the pages observed just when the captures cover the pages of
the plan it goes through. -/
theorem runOpened_always (call : SourceRunCall) (aligned : state.Aligned)
    (stores : Stores env opened origin [] state.database) (observed : state.PagesObserved) :
    (runOpened env call opened).Always Acquisition.PagesObserved state ↔
      ∀ plan, call.Follows plan → Covers env.digest (Holds opened origin)
        (state.completedKeys opened.sourceRunId) [] [] plan := by
  unfold runOpened
  cases first : call.adapter.preflight with
  | error raised =>
      refine iff_of_true observed ?_
      rintro plan ⟨preflight, ready, _⟩
      cases first.symm.trans ready
  | ok preflight =>
      by_cases blocked : preflight.result = "BLOCKED"
      · simp only [blocked, ↓reduceIte]
        refine iff_of_true (finalize_always call _ observed) ?_
        rintro plan ⟨other, ready, proceeds, _⟩
        cases first.symm.trans ready
        exact (proceeds blocked).elim
      · simp only [blocked, ↓reduceIte]
        cases planned : call.adapter.planPartitions with
        | error raised =>
            refine iff_of_true observed ?_
            rintro plan ⟨_, _, _, plans⟩
            cases planned.symm.trans plans
        | ok plan =>
            have covers : (runPlan env call opened preflight plan).Always
                Acquisition.PagesObserved state ↔ Covers env.digest (Holds opened origin)
                  (state.completedKeys opened.sourceRunId) [] [] plan := by
              rw [runPlan, Script.always_bind, Script.always_bind, Acquisition.recordPlan,
                Script.always_transaction, Script.run_transaction]
              refine (and_iff_right ⟨observed, observed⟩).trans ?_
              refine (and_iff_left_of_imp fun all => ?_).trans
                (runPartitions_always plan
                  { summary := opened.summary, degraded := preflight.result = "DEGRADED" }
                  (aligned.congr rfl rfl) stores observed)
              have last := all.last
              split
              · exact last
              · exact finalize_always call _ last
            refine covers.trans ⟨?_, fun every => every plan ⟨preflight, first, blocked, planned⟩⟩
            rintro holds other ⟨_, _, _, plans⟩
            cases planned.symm.trans plans
            exact holds

end Stores

/-! ## Sequences of calls -/

/-- Only the runner writes observations. -/
def AcquisitionAction.keepingObservations (state : Acquisition) :
    AcquisitionAction → AcquisitionAction
  | .runSource call => .runSource call
  | .elsewhere other => .elsewhere { other with observations := state.database.observations }

namespace Acquisition

/-- A call of `run_source`, or what other components write into the tables they own. -/
def proceed (env : RunnerEnvironment) (state : Acquisition) (action : AcquisitionAction) :
    Acquisition :=
  state.step env (action.keepingObservations state)

/-- At every moment of the action the items behind the completed checkpoints are observed. -/
def KeepsIdentities (env : RunnerEnvironment) (state : Acquisition) : AcquisitionAction → Prop
  | .runSource call => (runSource env call).Always CheckpointsObserved state
  | .elsewhere other => (state.proceed env (.elsewhere other)).CheckpointsObserved

/-- The captures of the call cover the pages of the plan it goes through. -/
def CapturesCover (env : RunnerEnvironment) (state : Acquisition) : AcquisitionAction → Prop
  | .runSource call => ∀ db opened, state.database.openRun env.ids call = .ok (db, opened) →
      ∀ plan, call.Follows plan → Covers env.digest (Holds opened state.database.observations)
        (state.completedKeys opened.sourceRunId) [] [] plan
  | .elsewhere _ => True

/-- The identifiers of the observations were drawn. -/
def ObservationsDrawn (ids : IdSupply) (db : Database) : Prop :=
  ∀ row ∈ db.observations, ∃ k < db.drawn, row.sourceObservationId = ids.uuid k

/-- What holds between the calls as long as no identity is lost. -/
structure Observing (env : RunnerEnvironment) (state : Acquisition) : Prop where
  aligned : state.Aligned
  pages : state.PagesObserved
  drawn : ObservationsDrawn env.ids state.database

section Sequences

variable {env : RunnerEnvironment} {state next : Acquisition}

/-- A step of the runner draws the ids of the observations that it stores. -/
theorem ObservationsDrawn.step (drawn : ObservationsDrawn env.ids state.database)
    (step : RunnerStep env state next) : ObservationsDrawn env.ids next.database := by
  cases step with
  | stutter => exact drawn
  | opened opens =>
      obtain ⟨later, same⟩ := openRun_eq_ok opens
      intro row member
      rw [same] at member
      obtain ⟨k, early, equal⟩ := drawn row member
      exact ⟨k, early.trans_le later, equal⟩
  | planned => exact drawn
  | stored opened observation contentHash queuedAt =>
      rcases storeObservation_cases env opened observation contentHash queuedAt state.database with
        ⟨_, same⟩ | ⟨_, same⟩
      · dsimp only
        rw [same]
        exact drawn
      · dsimp only
        rw [same]
        intro row member
        rcases List.mem_append.mp member with old | new
        · obtain ⟨k, early, equal⟩ := drawn row old
          exact ⟨k, Nat.lt_add_right 2 early, equal⟩
        · cases List.mem_singleton.mp new
          exact ⟨state.database.drawn, Nat.lt_add_of_pos_right Nat.two_pos, rfl⟩
  | completed page completes =>
      rw [completeCheckpoint_eq_ok completes]
      exact drawn
  | finalized finalizes =>
      rw [finalizeRun_eq_ok finalizes]
      exact drawn

/-- At every moment of a call the checkpoints and the record of them are aligned. -/
theorem runSource_aligned (env : RunnerEnvironment) (call : SourceRunCall)
    (aligned : state.Aligned) : (runSource env call).Always Aligned state :=
  (runSource_guarantees env call).always (fun _ _ aligned step => step.aligned aligned) aligned

/-- A call keeps the identities just when its captures cover its pages. -/
theorem Observing.keepsIdentities_iff (observing : state.Observing env)
    (action : AcquisitionAction) :
    state.KeepsIdentities env action ↔ state.CapturesCover env action := by
  cases action with
  | elsewhere other =>
      refine iff_of_true ?_ trivial
      have pages : (state.proceed env (.elsewhere other)).PagesObserved := observing.pages
      exact (Aligned.congr observing.aligned rfl rfl).checkpointsObserved_iff.mpr pages
  | runSource call =>
      refine (Script.always_congr (fun _ aligned => aligned.checkpointsObserved_iff)
        (runSource_aligned env call observing.aligned)).trans ?_
      unfold runSource CapturesCover
      rw [Script.always_bind, transaction, Script.always_transaction, Script.run_transaction]
      cases opens : state.database.openRun env.ids call with
      | error failure =>
          refine iff_of_true ⟨⟨observing.pages, observing.pages⟩, observing.pages⟩ ?_
          intro db opened again
          cases opens.symm.trans again
      | ok result =>
          obtain ⟨db, opened⟩ := result
          obtain ⟨later, same⟩ := openRun_eq_ok opens
          have observations : db.observations = state.database.observations := by rw [same]
          have pages : PagesObserved { state with database := db } :=
            observing.pages.mono rfl fun row member => observations ▸ member
          have stores : Stores env opened state.database.observations [] db := by
            refine ⟨fun key => ?_, fun identity => ?_, ?_⟩
            · rw [observations]
              simp
            · rw [observations]
              exact (or_iff_left not_yields_nil).symm
            · exact observing.drawn.step (.opened opens)
          have alignedOpened : Aligned { state with database := db } :=
            observing.aligned.congr (openRun_opens opens).2.1 rfl
          refine (and_iff_right ⟨observing.pages, pages⟩).trans
            ((runOpened_always call alignedOpened stores pages).trans ?_)
          constructor
          · intro covers again other equal
            cases opens.symm.trans equal
            exact covers
          · exact fun covers => covers db opened opens

/-- A call that keeps the identities of its listings goes on observing. -/
theorem Observing.proceed (observing : state.Observing env) (action : AcquisitionAction)
    (keeps : state.KeepsIdentities env action) : (state.proceed env action).Observing env := by
  cases action with
  | elsewhere other =>
      refine ⟨Aligned.congr observing.aligned rfl rfl, observing.pages, fun row member => ?_⟩
      obtain ⟨k, early, equal⟩ := observing.drawn row member
      exact ⟨k, early.trans_le (Nat.le_max_right _ _), equal⟩
  | runSource call =>
      have aligned := runSource_aligned env call observing.aligned
      have pages : (runSource env call).Always PagesObserved state :=
        (Script.always_congr (fun _ aligned => aligned.checkpointsObserved_iff) aligned).mp keeps
      have drawn : (runSource env call).Always
          (fun state => ObservationsDrawn env.ids state.database) state :=
        (runSource_guarantees env call).always (fun _ _ drawn step => drawn.step step)
          observing.drawn
      exact ⟨aligned.last, pages.last, drawn.last⟩

/-- **No identity behind a checkpoint.** In every sequence of calls, with any adapters, at
every moment each item behind a completed checkpoint has an observation of its identity in
the run, just when the captures of every call cover the pages that it completes. -/
theorem identities_kept_iff (env : RunnerEnvironment) (actions : List AcquisitionAction) :
    Permitted (proceed env) (KeepsIdentities env) initial actions ↔
      Permitted (proceed env) (CapturesCover env) initial actions := by
  have preserved : Preserved (proceed env)
      (fun state action => True ∧ state.CapturesCover env action)
      fun state : Acquisition => state.Observing env :=
    fun state action observing permitted =>
      observing.proceed action ((observing.keepsIdentities_iff action).mpr permitted.2)
  have every : Permitted (proceed env) (fun _ _ => True) initial actions := fun _ _ => trivial
  have start : initial.Observing env :=
    ⟨aligned_initial, fun _ member => (List.not_mem_nil member).elim,
      fun _ member => (List.not_mem_nil member).elim⟩
  exact permitted_congr preserved (fun _ action observing _ =>
    observing.keepsIdentities_iff action) start every

end Sequences

/-! ## An item that raises in one of two overlapping partitions -/

instance (observations : List SourceObservation) (sourceRunId : Uuid) (identity : String) :
    Decidable (ObservedAs observations sourceRunId identity) :=
  inferInstanceAs (Decidable (∃ row ∈ observations, _ ∧ _))

instance (state : Acquisition) : Decidable state.CheckpointsObserved :=
  inferInstanceAs (Decidable (∀ checkpoint ∈ state.database.checkpoints,
    checkpoint.completed = true → _ ∧ ∀ entry ∈ state.completed, _ → _ → ∀ item ∈ entry.page.items,
      ObservedAs _ _ _))

/-- A rental whose detail page is fetched or raises. -/
def rentalItem (fetchDetail : Except Raised RawListingCapture) : DiscoveredItem where
  sourceNativeId := some "17"
  detailUrl := "https://listings.example/17"
  fetchDetail := fetchDetail
  extract := .ok
    { sourceNativeId := some "17"
      sourceUrl := "https://listings.example/17"
      observedAt := 0
      retrievedAt := 0
      adapterVersion := "1" }
  queuedAt := 0

/-- Two partitions discover the rental; its detail page times out in the first one. -/
def timedOutOnce : List AcquisitionPartition :=
  [⟨"studio", .ok { items := [rentalItem (.error ⟨"TimeoutError", true⟩)] }⟩,
    ⟨"loft", .ok { items := [rentalItem (.ok ⟨"hash"⟩)] }⟩]

/-- The second partition skips the rental and is completed without it. -/
theorem timed_out_identity_lost :
    ¬ Permitted (proceed gateEnvironment) (KeepsIdentities gateEnvironment) initial
      (gateRuns [timedOutOnce]) := by
  intro permitted
  have called := ((permitted_cons _ _ _).mp ((permitted_cons _ _ _).mp permitted).2).1
  have ended := Script.Always.last called
  revert ended
  decide

end Acquisition

end RentalAgent
