import RentalAgent.Acquisition.Answers
import RentalAgent.Foundation.Transition

/-! # The health gate of a source run

Calls of `run_source` for the same key and source work for one source run: a retry skips
the partitions whose checkpoints are completed. The verdict at the end of a call judges
what the adapter answers in that call alone.
-/

namespace RentalAgent

open Relational Transition

/-- The page is complete and without an error, and no cursor of it is left to read. -/
def DiscoveryPage.Clean (page : DiscoveryPage) : Prop :=
  page.appearsTruncated = false ∧ page.searchError = none ∧ page.nextCursor = none

instance : DecidablePred DiscoveryPage.Clean := fun page =>
  inferInstanceAs (Decidable (page.appearsTruncated = false ∧ page.searchError = none ∧
    page.nextCursor = none))

namespace Acquisition

/-- The partition was discovered to completion within the source run. -/
def DiscoveredClean (state : Acquisition) (sourceRunId : Uuid) (partitionKey : String) : Prop :=
  (∃ completion ∈ state.completed, completion.sourceRunId = sourceRunId ∧
    completion.partitionKey = partitionKey) ∧
  ∀ completion ∈ state.completed, completion.sourceRunId = sourceRunId →
    completion.partitionKey = partitionKey → completion.page.Clean

/-- A row that passed the gate was not found through a search index, and every partition
planned in the run was discovered to completion. -/
def SoundRun (state : Acquisition) (run : SourceRun) : Prop :=
  run.healthGatePassed = some true →
    (run.counts.any fun counts => counts.discoveryMethod ≠ .searchIndex) = true ∧
    ∀ entry ∈ state.planned, entry.1 = run.sourceRunId →
      state.DiscoveredClean run.sourceRunId entry.2

/-- Every source run that passed the gate is sound. -/
def GateSound (state : Acquisition) : Prop := ∀ run ∈ state.database.sourceRuns, state.SoundRun run

instance (state : Acquisition) (sourceRunId : Uuid) (partitionKey : String) :
    Decidable (state.DiscoveredClean sourceRunId partitionKey) :=
  inferInstanceAs (Decidable (_ ∧ _))

instance (state : Acquisition) : Decidable state.GateSound :=
  inferInstanceAs (Decidable (∀ run ∈ state.database.sourceRuns,
    run.healthGatePassed = some true → _ ∧ _))

/-- The row of the source run says that the gate is passed. -/
def GateOpen (state : Acquisition) (sourceRunId : Uuid) : Prop :=
  ∃ run ∈ state.database.sourceRuns, run.sourceRunId = sourceRunId ∧
    run.healthGatePassed = some true

end Acquisition

/-! ## The verdict of a call -/

/-- The call goes through the partitions of the plan. -/
def SourceRunCall.Follows (call : SourceRunCall) (plan : List AcquisitionPartition) : Prop :=
  ∃ preflight, call.adapter.preflight = .ok preflight ∧ preflight.result ≠ "BLOCKED" ∧
    call.adapter.planPartitions = .ok plan

/-- Nothing that the call meets is flagged. -/
structure SourceRunCall.Unflagged (call : SourceRunCall)
    (asked : List (String × Except Raised DiscoveryPage)) : Prop where
  method : call.discoveryMethod ≠ .searchIndex
  preflight : ∀ preflight, call.adapter.preflight = .ok preflight → preflight.result ≠ "DEGRADED"
  answers : Undegraded asked

/-- A call is unflagged when neither its method, nor its preflight, nor a page speaks against it. -/
theorem SourceRunCall.unflagged_iff (call : SourceRunCall) {preflight : SourcePreflightResult}
    (ready : call.adapter.preflight = .ok preflight)
    {asked : List (String × Except Raised DiscoveryPage)} :
    call.Unflagged asked ↔ call.discoveryMethod ≠ .searchIndex ∧ preflight.result ≠ "DEGRADED" ∧
      Undegraded asked := by
  constructor
  · rintro ⟨method, sound, undegraded⟩
    exact ⟨method, sound preflight ready, undegraded⟩
  · rintro ⟨method, sound, undegraded⟩
    refine ⟨method, fun other same => ?_, undegraded⟩
    cases ready.symm.trans same
    exact sound

/-- No partition of the run is left undiscovered: the ones that are skipped were discovered
to completion, the pages that are discovered now leave nothing to read, and the ones that
were planned before and are not planned again were discovered to completion. -/
structure LeavesNothing (state : Acquisition) (sourceRunId : Uuid)
    (plan : List AcquisitionPartition) (asked : List (String × Except Raised DiscoveryPage)) :
    Prop where
  skipped : ∀ partition ∈ plan, partition.partitionKey ∈ state.completedKeys sourceRunId →
    state.DiscoveredClean sourceRunId partition.partitionKey
  read : ∀ answer ∈ asked, ∀ page, answer.2 = .ok page → page.Clean
  replanned : ∀ entry ∈ state.planned, entry.1 = sourceRunId →
    (∃ partition ∈ plan, partition.partitionKey = entry.2) ∨
      state.DiscoveredClean sourceRunId entry.2

section Verdicts

variable {state next : Acquisition} {sourceRunId other : Uuid} {partitionKey : String}
  {plan : List AcquisitionPartition} {asked : List (String × Except Raised DiscoveryPage)}

/-- The completions of a run are the pages that its partitions answered with. -/
theorem mem_completions {entry : Completion} :
    entry ∈ asked.filterMap (completion sourceRunId) ↔
      entry.sourceRunId = sourceRunId ∧ (entry.partitionKey, .ok entry.page) ∈ asked := by
  rw [List.mem_filterMap]
  constructor
  · rintro ⟨⟨key, answer⟩, member, same⟩
    cases answer with
    | error raised => cases same
    | ok page =>
        cases same
        exact ⟨rfl, member⟩
  · rintro ⟨rfl, member⟩
    exact ⟨_, member, rfl⟩

theorem mem_completedKeys :
    partitionKey ∈ state.completedKeys sourceRunId ↔
      ∃ entry ∈ state.completed, entry.sourceRunId = sourceRunId ∧
        entry.partitionKey = partitionKey := by
  simp [Acquisition.completedKeys, and_assoc]

/-- The completions of other partitions do not matter to a partition. -/
theorem discoveredClean_congr
    (completed : next.completed = state.completed ++ asked.filterMap (completion sourceRunId))
    (apart : other = sourceRunId → ∀ page, (partitionKey, .ok page) ∉ asked) :
    next.DiscoveredClean other partitionKey ↔ state.DiscoveredClean other partitionKey := by
  have same : ∀ entry : Completion, entry.sourceRunId = other → entry.partitionKey = partitionKey →
      (entry ∈ next.completed ↔ entry ∈ state.completed) := by
    intro entry run key
    rw [completed, List.mem_append, or_iff_left_iff_imp, mem_completions]
    rintro ⟨here, inside⟩
    exact (apart (run.symm.trans here) entry.page (key ▸ inside)).elim
  constructor
  · rintro ⟨⟨entry, member, run, key⟩, clean⟩
    exact ⟨⟨entry, (same entry run key).mp member, run, key⟩, fun entry member run key =>
      clean entry ((same entry run key).mpr member) run key⟩
  · rintro ⟨⟨entry, member, run, key⟩, clean⟩
    exact ⟨⟨entry, (same entry run key).mpr member, run, key⟩, fun entry member run key =>
      clean entry ((same entry run key).mp member) run key⟩

/-- The state after the plan was recorded and answered. -/
structure Advanced (sourceRunId : Uuid) (plan : List AcquisitionPartition)
    (asked : List (String × Except Raised DiscoveryPage)) (state next : Acquisition) : Prop where
  aligned : next.Aligned
  sourceRuns : next.database.sourceRuns = state.database.sourceRuns
  planned : next.planned = state.planned ++
    plan.map fun partition => (sourceRunId, partition.partitionKey)
  completed : next.completed = state.completed ++ asked.filterMap (completion sourceRunId)

/-- A run plans its own partitions and leaves the plans of others. -/
theorem Advanced.mem_planned (advanced : Advanced sourceRunId plan asked state next)
    {entry : Uuid × String} :
    entry ∈ next.planned ↔ entry ∈ state.planned ∨
      entry.1 = sourceRunId ∧ ∃ partition ∈ plan, partition.partitionKey = entry.2 := by
  rw [advanced.planned, List.mem_append, List.mem_map]
  refine or_congr_right ⟨?_, ?_⟩
  · rintro ⟨partition, member, rfl⟩
    exact ⟨rfl, partition, member, rfl⟩
  · rintro ⟨rfl, partition, member, same⟩
    exact ⟨partition, member, by rw [same]⟩

/-- The source runs of other calls stay sound. -/
theorem Advanced.soundRun (advanced : Advanced sourceRunId plan asked state next)
    {run : SourceRun} (differs : run.sourceRunId ≠ sourceRunId) (sound : state.SoundRun run) :
    next.SoundRun run := by
  intro passed
  obtain ⟨method, discovered⟩ := sound passed
  refine ⟨method, fun entry member same => ?_⟩
  rw [discoveredClean_congr advanced.completed fun here => (differs here).elim]
  rcases advanced.mem_planned.mp member with before | ⟨here, _⟩
  · exact discovered entry before same
  · exact (differs (same.symm.trans here)).elim

variable {digest : ParsedSourceObservation → String} {seen : List String}

/-- When no answer is flagged, the partitions of the run are discovered to completion just
when nothing is left. -/
theorem Advanced.discovered_iff
    (advanced : Advanced sourceRunId plan asked state next)
    (answered : asked = answers digest (state.completedKeys sourceRunId) seen plan)
    (undegraded : Undegraded asked) :
    (∀ entry ∈ next.planned, entry.1 = sourceRunId →
        next.DiscoveredClean sourceRunId entry.2) ↔
      LeavesNothing state sourceRunId plan asked := by
  have inPlan : ∀ answer ∈ asked, answer.1 ∉ state.completedKeys sourceRunId ∧
      ∃ partition ∈ plan, partition.partitionKey = answer.1 := by
    intro answer member
    rw [answered] at member
    exact mem_answers member
  have unasked : ∀ key, (∀ page, (key, .ok page) ∉ asked) →
      (next.DiscoveredClean sourceRunId key ↔ state.DiscoveredClean sourceRunId key) :=
    fun key absent => discoveredClean_congr advanced.completed fun _ => absent
  constructor
  · intro discovered
    refine ⟨fun partition member finished => ?_, fun answer member page ok => ?_,
      fun entry member same => ?_⟩
    · refine (unasked _ fun page asks => (inPlan _ asks).1 finished).mp ?_
      exact discovered (sourceRunId, partition.partitionKey)
        (advanced.mem_planned.mpr (.inr ⟨rfl, partition, member, rfl⟩)) rfl
    · obtain ⟨partition, inside, key⟩ := (inPlan answer member).2
      have clean := discovered (sourceRunId, answer.1)
        (advanced.mem_planned.mpr (.inr ⟨rfl, partition, inside, key⟩)) rfl
      refine clean.2 ⟨sourceRunId, answer.1, page⟩ ?_ rfl rfl
      rw [advanced.completed]
      exact List.mem_append_right _ (mem_completions.mpr ⟨rfl, by rw [← ok]; exact member⟩)
    · by_cases again : ∃ partition ∈ plan, partition.partitionKey = entry.2
      · exact .inl again
      · refine .inr ((unasked _ fun page asks => again (inPlan _ asks).2).mp ?_)
        exact discovered entry (advanced.mem_planned.mpr (.inl member)) same
  · rintro leaves ⟨run, key⟩ member same
    by_cases again : ∃ partition ∈ plan, partition.partitionKey = key
    · obtain ⟨partition, inside, rfl⟩ := again
      by_cases finished : partition.partitionKey ∈ state.completedKeys sourceRunId
      · exact (unasked _ fun page asks => (inPlan _ asks).1 finished).mpr
          (leaves.skipped partition inside finished)
      · obtain ⟨⟨asksFor, answer⟩, asks, rfl⟩ :=
          asked_of_mem (answered ▸ undegraded.through) inside finished
        rw [← answered] at asks
        obtain ⟨page, rfl, _⟩ := undegraded _ asks
        constructor
        · refine ⟨⟨sourceRunId, partition.partitionKey, page⟩, ?_, rfl, rfl⟩
          rw [advanced.completed]
          exact List.mem_append_right _ (mem_completions.mpr ⟨rfl, asks⟩)
        · intro entry completed here sameKey
          rw [advanced.completed] at completed
          rcases List.mem_append.mp completed with before | now
          · exact (finished (mem_completedKeys.mpr ⟨entry, before, here, sameKey⟩)).elim
          · exact leaves.read _ (mem_completions.mp now).2 entry.page rfl
    · refine (unasked _ fun page asks => again (inPlan _ asks).2).mpr ?_
      rcases advanced.mem_planned.mp member with before | ⟨_, now⟩
      · exact (leaves.replanned _ before same).resolve_left again
      · exact (again now).elim

/-- After an interrupted plan the source run is sound just when the gate is not open. -/
theorem Advanced.interrupted_iff (advanced : Advanced sourceRunId plan asked state next)
    (answered : asked = answers digest (state.completedKeys sourceRunId) seen plan)
    (interrupts : Interrupts asked) (sound : state.GateSound) :
    next.GateSound ↔ ¬ state.GateOpen sourceRunId := by
  constructor
  · rintro soundAfter ⟨run, member, rfl, passed⟩
    rw [answered] at interrupts
    obtain ⟨partition, inside, unfinished, absent⟩ := interrupts.incomplete
    rw [← answered] at absent
    obtain ⟨_, discovered⟩ := soundAfter run (advanced.sourceRuns ▸ member) passed
    obtain ⟨⟨entry, completed, here, key⟩, _⟩ := (discoveredClean_congr advanced.completed
      fun _ => absent).mp (discovered (run.sourceRunId, partition.partitionKey)
        (advanced.mem_planned.mpr (.inr ⟨rfl, partition, inside, rfl⟩)) rfl)
    exact unfinished (mem_completedKeys.mpr ⟨entry, completed, here, key⟩)
  · intro closed run member
    rw [advanced.sourceRuns] at member
    by_cases here : run.sourceRunId = sourceRunId
    · exact fun passed => (closed ⟨run, member, here, passed⟩).elim
    · exact advanced.soundRun here (sound run member)

/-- After `_finalize` the source runs are sound when the other ones are and the verdict is. -/
theorem gateSound_finalize (call : SourceRunCall) {summary : SourceRunSummary}
    (row : ∃ run ∈ state.database.sourceRuns, run.sourceRunId = summary.sourceRunId)
    (others : ∀ run ∈ state.database.sourceRuns, run.sourceRunId ≠ summary.sourceRunId →
      state.SoundRun run) :
    ((finalize call summary).run state).1.GateSound ↔
      (summary.healthGatePassed = true → call.discoveryMethod ≠ .searchIndex ∧
        ∀ entry ∈ state.planned, entry.1 = summary.sourceRunId →
          state.DiscoveredClean summary.sourceRunId entry.2) := by
  rw [finalize_run call summary row]
  have judged : ∀ run : SourceRun, run.sourceRunId = summary.sourceRunId →
      (state.SoundRun (run.finalized call summary) ↔
        (summary.healthGatePassed = true → call.discoveryMethod ≠ .searchIndex ∧
          ∀ entry ∈ state.planned, entry.1 = summary.sourceRunId →
            state.DiscoveredClean summary.sourceRunId entry.2)) := by
    intro run same
    simp [Acquisition.SoundRun, SourceRun.finalized, same]
  obtain ⟨run, member, same⟩ := row
  constructor
  · intro sound
    refine (judged run same).mp (sound _ (mem_updateWhere.mpr ⟨run, member, ?_⟩))
    rw [if_pos (by simpa using same)]
  · intro verdict other written
    obtain ⟨old, oldMem, rfl⟩ := mem_updateWhere.mp written
    by_cases here : old.sourceRunId = summary.sourceRunId
    · rw [if_pos (by simpa using here)]
      exact (judged old here).mpr verdict
    · rw [if_neg (by simpa using here)]
      exact others old oldMem here

variable {env : RunnerEnvironment} {opened : OpenedRun}

/-- The partitions of a plan lead to a sound verdict: an interrupted plan finds the gate not
open, and a call that nothing flags leaves nothing. -/
def SoundPlan (env : RunnerEnvironment) (call : SourceRunCall) (state : Acquisition)
    (sourceRunId : Uuid) (plan : List AcquisitionPartition) : Prop :=
  let asked := answers env.digest (state.completedKeys sourceRunId) [] plan
  (Interrupts asked → ¬ state.GateOpen sourceRunId) ∧
    (call.Unflagged asked → LeavesNothing state sourceRunId plan asked)

/-- A plan is carried out to a sound state just when it leads to a sound verdict. -/
theorem runPlan_sound {call : SourceRunCall} {preflight : SourcePreflightResult}
    (ready : call.adapter.preflight = .ok preflight) (aligned : state.Aligned)
    (sound : state.GateSound)
    (row : ∃ run ∈ state.database.sourceRuns, run.sourceRunId = opened.sourceRunId) :
    ((runPlan env call opened preflight plan).run state).1.GateSound ↔
      SoundPlan env call state opened.sourceRunId plan := by
  rw [runPlan, Script.run_bind, Script.run_bind, Acquisition.recordPlan, Script.run_transaction]
  have recorded : Acquisition.Aligned { state with
      planned := state.planned ++
        plan.map fun partition => (opened.sourceRunId, partition.partitionKey) } :=
    ⟨aligned.unique, aligned.recorded⟩
  obtain ⟨carried, ends⟩ := runPartitions_run env opened plan
    { summary := opened.summary, degraded := preflight.result = "DEGRADED" } recorded
  dsimp only at carried ends ⊢
  generalize Script.run (runPartitions env opened plan _) _ = ended at carried ends ⊢
  obtain ⟨next, result⟩ := ended
  have advanced : Advanced opened.sourceRunId plan
      (answers env.digest (state.completedKeys opened.sourceRunId) [] plan) state next :=
    ⟨carried.aligned, carried.sourceRuns, carried.planned, carried.completed⟩
  change Ends (answers env.digest (state.completedKeys opened.sourceRunId) [] plan) _ _ at ends
  unfold SoundPlan
  generalize answered : answers env.digest (state.completedKeys opened.sourceRunId) [] plan = asked
    at advanced ends
  cases result with
  | error raised =>
      refine (advanced.interrupted_iff answered.symm ends sound).trans ?_
      exact ⟨fun closed => ⟨fun _ => closed, fun unflagged =>
        (unflagged.answers.through ends).elim⟩, fun both => both.1 ends⟩
  | ok progress =>
      obtain ⟨through, sameRun, clear⟩ := ends
      have verdict : (progress.evaluate call.discoveryMethod).healthGatePassed = true ↔
          call.Unflagged asked := by
        rw [RunProgress.evaluate_passed, clear, call.unflagged_iff ready]
        simp [RunProgress.Clear, OpenedRun.summary, and_comm, and_left_comm]
      have here : (progress.evaluate call.discoveryMethod).sourceRunId = opened.sourceRunId :=
        sameRun
      refine (gateSound_finalize call ?_ ?_).trans ?_
      · rw [here, advanced.sourceRuns]
        exact row
      · rw [here, advanced.sourceRuns]
        exact fun run member differs => advanced.soundRun differs (sound run member)
      · rw [here, verdict]
        have leaves : call.Unflagged asked →
            ((∀ entry ∈ next.planned, entry.1 = opened.sourceRunId →
              next.DiscoveredClean opened.sourceRunId entry.2) ↔
                LeavesNothing state opened.sourceRunId plan asked) :=
          fun unflagged => advanced.discovered_iff answered.symm unflagged.answers
        constructor
        · intro passes
          exact ⟨fun interrupts => (through interrupts).elim, fun unflagged =>
            (leaves unflagged).mp (passes unflagged).2⟩
        · rintro ⟨_, passes⟩ unflagged
          exact ⟨unflagged.method, (leaves unflagged).mpr (passes unflagged)⟩

/-- A call for an open run ends in a sound state just when the plan it goes through leads to a
sound verdict. -/
theorem runOpened_sound (call : SourceRunCall) (aligned : state.Aligned) (sound : state.GateSound)
    (row : ∃ run ∈ state.database.sourceRuns, run.sourceRunId = opened.sourceRunId) :
    ((runOpened env call opened).run state).1.GateSound ↔
      ∀ plan, call.Follows plan → SoundPlan env call state opened.sourceRunId plan := by
  unfold runOpened
  cases first : call.adapter.preflight with
  | error raised =>
      refine iff_of_true sound ?_
      rintro plan ⟨preflight, ready, _⟩
      cases first.symm.trans ready
  | ok preflight =>
      by_cases blocked : preflight.result = "BLOCKED"
      · simp only [blocked, ↓reduceIte]
        refine iff_of_true ((gateSound_finalize call row fun run member _ =>
          sound run member).mpr (by simp [OpenedRun.summary])) ?_
        rintro plan ⟨other, ready, proceeds, _⟩
        cases first.symm.trans ready
        exact (proceeds blocked).elim
      · simp only [blocked, ↓reduceIte]
        cases planned : call.adapter.planPartitions with
        | error raised =>
            refine iff_of_true sound ?_
            rintro plan ⟨_, _, _, plans⟩
            cases planned.symm.trans plans
        | ok plan =>
            refine (runPlan_sound first aligned sound row).trans ⟨?_, fun every =>
              every plan ⟨preflight, first, blocked, planned⟩⟩
            rintro leads other ⟨_, _, _, plans⟩
            cases planned.symm.trans plans
            exact leads

end Verdicts

/-! ## Sequences of calls -/

/-- A call of `run_source`, or what other components write into the other tables. -/
inductive AcquisitionAction
  | runSource (call : SourceRunCall)
  | elsewhere (other : Database)

namespace Acquisition

/-- No source has run. -/
def initial : Acquisition := { database := .empty }

/-- Everything but the source runs and their checkpoints is as other components leave it. -/
def writeElsewhere (other : Database) (state : Acquisition) : Acquisition :=
  { state with
    database := { other with
      drawn := max other.drawn state.database.drawn
      refreshRuns := state.database.refreshRuns
      sourceRuns := state.database.sourceRuns
      checkpoints := state.database.checkpoints } }

def step (env : RunnerEnvironment) (state : Acquisition) : AcquisitionAction → Acquisition
  | .runSource call => ((RentalAgent.runSource env call).run state).1
  | .elsewhere other => state.writeElsewhere other

/-- The call opens a source run and the plan it goes through leads to a sound verdict. -/
def Valid (env : RunnerEnvironment) (state : Acquisition) : AcquisitionAction → Prop
  | .runSource call => ∀ db opened, state.database.openRun env.ids call = .ok (db, opened) →
      ∀ plan, call.Follows plan → SoundPlan env call state opened.sourceRunId plan
  | .elsewhere _ => True

end Acquisition

section Sequences

variable {env : RunnerEnvironment} {state : Acquisition} {call : SourceRunCall} {db next : Database}
  {opened : OpenedRun}

/-- Creating or joining a refresh writes neither source runs nor checkpoints. -/
theorem createOrJoin_keeps {logicalRunKey : String} {triggerType : RefreshTriggerType}
    {startedAt : Timestamp} {refreshRunId : Uuid}
    (joined : db.createOrJoin env.ids logicalRunKey triggerType startedAt =
      .ok (next, refreshRunId)) :
    next.sourceRuns = db.sourceRuns ∧ next.checkpoints = db.checkpoints := by
  obtain ⟨found, _, wrote⟩ := bind_eq_ok.mp joined
  cases found <;> cases wrote <;> exact ⟨rfl, rfl⟩

/-- The first transaction leaves the source run it opens in its table, and adds no verdict. -/
theorem openRun_opens (opens : db.openRun env.ids call = .ok (next, opened)) :
    (∃ run ∈ next.sourceRuns, run.sourceRunId = opened.sourceRunId) ∧
      next.checkpoints = db.checkpoints ∧
      ∀ run, run.healthGatePassed = some true → (run ∈ next.sourceRuns ↔ run ∈ db.sourceRuns) := by
  obtain ⟨source, _, rest⟩ := bind_eq_ok.mp opens
  cases source with
  | none => cases rest
  | some source =>
      obtain ⟨⟨joined, refreshRunId⟩, joins, rest⟩ := bind_eq_ok.mp rest
      obtain ⟨sourceRuns, checkpoints⟩ := createOrJoin_keeps joins
      obtain ⟨existing, looked, rest⟩ := bind_eq_ok.mp rest
      cases existing with
      | some existing =>
          cases rest
          have found := scalarOneOrNone_eq_some.mp looked
          have member : existing ∈ next.sourceRuns :=
            (List.mem_filter.mp (found ▸ List.mem_singleton_self existing)).1
          exact ⟨⟨existing, member, rfl⟩, checkpoints, fun run _ => by rw [sourceRuns]⟩
      | none =>
          cases rest
          refine ⟨⟨_, List.mem_append_right _ (List.mem_singleton_self _), rfl⟩, checkpoints,
            fun run passed => ?_⟩
          refine List.mem_append.trans ((or_iff_left_iff_imp.mpr fun new => ?_).trans
            (by rw [sourceRuns]))
          cases List.mem_singleton.mp new
          cases passed

namespace Acquisition

/-- The soundness of the gate depends on plans, completions and passed runs alone. -/
theorem gateSound_congr {after : Acquisition} (planned : after.planned = state.planned)
    (completed : after.completed = state.completed)
    (verdicts : ∀ run, run.healthGatePassed = some true →
      (run ∈ after.database.sourceRuns ↔ run ∈ state.database.sourceRuns)) :
    after.GateSound ↔ state.GateSound := by
  have same : ∀ run, after.SoundRun run ↔ state.SoundRun run := by
    intro run
    simp only [SoundRun, DiscoveredClean, planned, completed]
  constructor
  · intro sound run member passed
    exact (same run).mp (sound run ((verdicts run passed).mpr member)) passed
  · intro sound run member passed
    exact (same run).mpr (sound run ((verdicts run passed).mp member)) passed

theorem aligned_initial : initial.Aligned where
  unique := uniqueIndex_nil
  recorded _ _ := by simp [initial, completedKeys, Database.empty]

theorem gateSound_initial : initial.GateSound := fun _ member => by cases member

/-- Every call keeps checkpoints and pages aligned. -/
theorem aligned_step (aligned : state.Aligned) (action : AcquisitionAction) :
    (state.step env action).Aligned := by
  cases action with
  | elsewhere other => exact aligned.congr rfl rfl
  | runSource call =>
      unfold step runSource
      dsimp only
      rw [Script.run_bind, transaction, Script.run_transaction]
      cases opens : state.database.openRun env.ids call with
      | error failure => exact aligned
      | ok opened =>
          obtain ⟨db, opened⟩ := opened
          exact runOpened_aligned env opened call (aligned.congr (openRun_opens opens).2.1 rfl)

/-- A step from a sound state leads to a sound one just when it is valid. -/
theorem gateSound_step (aligned : state.Aligned) (sound : state.GateSound)
    (action : AcquisitionAction) :
    (state.step env action).GateSound ↔ state.Valid env action := by
  cases action with
  | elsewhere other => exact iff_of_true sound trivial
  | runSource call =>
      unfold step runSource Valid
      dsimp only
      rw [Script.run_bind, transaction, Script.run_transaction]
      cases opens : state.database.openRun env.ids call with
      | error failure => exact iff_of_true sound (by simp)
      | ok result =>
          obtain ⟨db, opened⟩ := result
          obtain ⟨row, checkpoints, verdicts⟩ := openRun_opens opens
          have soundOpened : GateSound { state with database := db } :=
            (gateSound_congr (by rfl) (by rfl) verdicts).mpr sound
          have opens' : GateOpen { state with database := db } opened.sourceRunId ↔
              state.GateOpen opened.sourceRunId := by
            refine exists_congr fun run => ?_
            constructor
            · rintro ⟨member, same, passed⟩
              exact ⟨(verdicts run passed).mp member, same, passed⟩
            · rintro ⟨member, same, passed⟩
              exact ⟨(verdicts run passed).mpr member, same, passed⟩
          have plans : ∀ plan, SoundPlan env call { state with database := db } opened.sourceRunId
              plan ↔ SoundPlan env call state opened.sourceRunId plan := by
            intro plan
            refine and_congr (imp_congr_right fun _ => not_congr opens')
              (imp_congr_right fun _ => ?_)
            exact ⟨fun leaves => ⟨leaves.skipped, leaves.read, leaves.replanned⟩,
              fun leaves => ⟨leaves.skipped, leaves.read, leaves.replanned⟩⟩
          have alignedOpened : Aligned { state with database := db } :=
            aligned.congr checkpoints rfl
          refine (runOpened_sound call alignedOpened soundOpened row).trans ?_
          simp only [plans]
          constructor
          · intro leads other again same
            cases same
            exact leads
          · exact fun leads => leads db opened rfl

/-- **Health gate.** After every call of a sequence every source run that passed the gate was
not found through a search index and had all its planned partitions discovered to
completion, just when every call is valid: one that nothing flags skips, discovers and
leaves out partitions without leaving anything, and one that is interrupted finds the gate
not open. -/
theorem health_gate_iff (env : RunnerEnvironment) (actions : List AcquisitionAction) :
    (∀ earlier later, actions = earlier ++ later → (run (step env) initial earlier).GateSound) ↔
      Permitted (step env) (Valid env) initial actions := by
  have preserved : Preserved (step env)
      (fun state action => True ∧ state.Valid env action)
      fun state : Acquisition => state.Aligned ∧ state.GateSound := by
    rintro state action ⟨aligned, sound⟩ ⟨_, valid⟩
    exact ⟨aligned_step aligned action, (gateSound_step aligned sound action).mpr valid⟩
  have every : Permitted (step env) (fun _ _ => True) initial actions := fun _ _ => trivial
  have each : Permitted (step env) (fun state action => (state.step env action).GateSound) initial
      actions ↔ Permitted (step env) (Valid env) initial actions :=
    permitted_congr preserved (fun state action invariant _ =>
      gateSound_step invariant.1 invariant.2 action) ⟨aligned_initial, gateSound_initial⟩ every
  rw [← each, forall_prefix_iff GateSound]
  exact and_iff_right gateSound_initial

/-! ## Partitions left behind -/

/-- Identifiers from 100 on; the texts do not matter. -/
def gateEnvironment : RunnerEnvironment := ⟨countingIds, fun _ => "uuid", fun _ => "digest"⟩

/-- A source is registered, and runs for one key with the plans in turn. -/
def gateRuns (plans : List (List AcquisitionPartition)) : List AcquisitionAction :=
  .elsewhere { Database.empty with sources := [⟨1, "listings"⟩] } ::
    plans.map fun plan => .runSource
      { adapter :=
          { sourceCode := "listings"
            adapterVersion := "1"
            preflight := .ok { result := "READY" }
            planPartitions := .ok plan }
        logicalRunKey := "run:1"
        triggerType := .scheduled
        discoveryMethod := .direct
        startedAt := 0
        completedAt := 1 }

/-- After the calls the gate of the source run is passed, and a partition is left. -/
def LeavesBehind (plans : List (List AcquisitionPartition)) : Prop :=
  let state := run (step gateEnvironment) initial (gateRuns plans)
  state.database.sourceRuns.map SourceRun.healthGatePassed = [some true] ∧ ¬ state.GateSound

instance : DecidablePred LeavesBehind := fun _ =>
  inferInstanceAs (Decidable (_ ∧ ¬ Acquisition.GateSound _))

/-- A retry skips a partition whose page was truncated. -/
def truncatedThenSkipped : List (List AcquisitionPartition) :=
  [[⟨"studio", .ok { appearsTruncated := true }⟩], [⟨"studio", .ok {}⟩]]

/-- A page leaves a cursor. -/
def cursorUnread : List (List AcquisitionPartition) :=
  [[⟨"studio", .ok { nextCursor := some [("page", .number 2)] }⟩]]

/-- A retry does not plan a failed partition again. -/
def failedThenDropped : List (List AcquisitionPartition) :=
  [[⟨"studio", .error ⟨"TimeoutError", true⟩⟩, ⟨"loft", .ok {}⟩], [⟨"loft", .ok {}⟩]]

/-- A retry after a passed gate is interrupted in a new partition. -/
def passedThenInterrupted : List (List AcquisitionPartition) :=
  [[⟨"studio", .ok {}⟩], [⟨"studio", .ok {}⟩, ⟨"loft", .error ⟨"KeyboardInterrupt", false⟩⟩]]

theorem partitions_left :
    LeavesBehind truncatedThenSkipped ∧ LeavesBehind cursorUnread ∧
      LeavesBehind failedThenDropped ∧ LeavesBehind passedThenInterrupted := by
  decide

end Acquisition

end Sequences

end RentalAgent
