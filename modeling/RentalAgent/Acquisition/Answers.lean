import RentalAgent.Acquisition.Runner

/-! # Calls of a runner and the answers of its adapter

What a call of `run_source` does to the source runs and their checkpoints is determined by
the answers of the adapter and by the partitions completed before: the partition loop
records one completion for each page the adapter answers with (`runPartitions_run`).
-/

namespace RentalAgent

open Relational

namespace Acquisition

/-- The partitions completed in a source run. -/
def completedKeys (state : Acquisition) (sourceRunId : Uuid) : List String :=
  (state.completed.filter fun completion => completion.sourceRunId = sourceRunId).map
    Completion.partitionKey

/-- The checkpoints of a partition are one row at most, and completed when a completion is
recorded. -/
structure Aligned (state : Acquisition) : Prop where
  unique : PrimaryKey (fun checkpoint : AdapterCheckpoint =>
    (checkpoint.sourceRunId, checkpoint.partitionKey)) state.database.checkpoints
  recorded : ∀ sourceRunId partitionKey, partitionKey ∈ state.completedKeys sourceRunId ↔
    ∃ checkpoint ∈ state.database.checkpoints, checkpoint.sourceRunId = sourceRunId ∧
      checkpoint.partitionKey = partitionKey ∧ checkpoint.completed = true

end Acquisition

/-! ## The answers of an adapter -/

section Answers

variable (digest : ParsedSourceObservation → String)

/-- The identities seen after the items of a page, and what the adapter raises for one. -/
def answerItems : List String → List DiscoveredItem → List String × Except Raised Unit
  | seen, [] => (seen, .ok ())
  | seen, item :: rest =>
      if item.identity ∈ seen then answerItems seen rest
      else
        match item.capture digest with
        | .error raised => (item.identity :: seen, .error raised)
        | .ok _ => answerItems (item.identity :: seen) rest

/-- The answer of the adapter for a partition: its page when no item raises. -/
def AcquisitionPartition.answer (seen : List String) (partition : AcquisitionPartition) :
    List String × Except Raised DiscoveryPage :=
  match partition.discover with
  | .error raised => (seen, .error raised)
  | .ok page =>
      let (seen, answered) := answerItems digest seen page.items
      (seen, answered.map fun _ => page)

/-- The answers of the adapter to a call that finds `done` completed, as far as the call
asks for them. -/
def answers : List String → List String → List AcquisitionPartition →
    List (String × Except Raised DiscoveryPage)
  | _, _, [] => []
  | done, seen, partition :: rest =>
      if partition.partitionKey ∈ done then answers done seen rest
      else
        match partition.answer digest seen with
        | (seen, .ok page) =>
            (partition.partitionKey, .ok page) ::
              answers (done ++ [partition.partitionKey]) seen rest
        | (seen, .error raised) =>
            (partition.partitionKey, .error raised) ::
              if raised.isException then answers done seen rest else []

end Answers

/-- The completion that an answer leads to. -/
def completion (sourceRunId : Uuid) : String × Except Raised DiscoveryPage → Option Completion
  | (partitionKey, .ok page) => some ⟨sourceRunId, partitionKey, page⟩
  | (_, .error _) => none

/-- The adapter answers with an exception that ends the call. -/
def Interrupts (asked : List (String × Except Raised DiscoveryPage)) : Prop :=
  ∃ answer ∈ asked, ∃ raised, answer.2 = .error raised ∧ raised.isException = false

/-- The adapter raises nothing and no page of it is taken for degraded. -/
def Undegraded (asked : List (String × Except Raised DiscoveryPage)) : Prop :=
  ∀ answer ∈ asked, ∃ page, answer.2 = .ok page ∧ page.degraded = false

section Answers

variable {digest : ParsedSourceObservation → String} {done seen : List String}
  {plan : List AcquisitionPartition}

theorem answers_cons_of_mem {partition : AcquisitionPartition}
    (finished : partition.partitionKey ∈ done) :
    answers digest done seen (partition :: plan) = answers digest done seen plan := by
  rw [answers, if_pos finished]

/-- A partition that is not done and answers with a page is done in what follows. -/
theorem answers_cons_ok {partition : AcquisitionPartition} {page : DiscoveryPage}
    (unfinished : partition.partitionKey ∉ done)
    (answered : (partition.answer digest seen).2 = .ok page) :
    answers digest done seen (partition :: plan) =
      (partition.partitionKey, .ok page) ::
        answers digest (done ++ [partition.partitionKey]) (partition.answer digest seen).1
          plan := by
  rw [answers, if_neg unfinished]
  cases asked : partition.answer digest seen with
  | mk now answer =>
      rw [asked] at answered
      cases answered
      rfl

/-- An exception ends the partition alone; anything else that is raised ends the run. -/
theorem answers_cons_error {partition : AcquisitionPartition} {raised : Raised}
    (unfinished : partition.partitionKey ∉ done)
    (answered : (partition.answer digest seen).2 = .error raised) :
    answers digest done seen (partition :: plan) =
      (partition.partitionKey, .error raised) ::
        if raised.isException then answers digest done (partition.answer digest seen).1 plan
        else [] := by
  rw [answers, if_neg unfinished]
  cases asked : partition.answer digest seen with
  | mk now answer =>
      rw [asked] at answered
      cases answered
      rfl

theorem interrupts_cons_ok {partitionKey : String} {page : DiscoveryPage}
    {asked : List (String × Except Raised DiscoveryPage)} :
    Interrupts ((partitionKey, .ok page) :: asked) ↔ Interrupts asked := by
  simp [Interrupts]

theorem interrupts_cons_error {partitionKey : String} {raised : Raised}
    {asked : List (String × Except Raised DiscoveryPage)} :
    Interrupts ((partitionKey, .error raised) :: asked) ↔
      raised.isException = false ∨ Interrupts asked := by
  simp [Interrupts]

/-- The adapter is asked for partitions of the plan that are not completed yet. -/
theorem mem_answers {answer : String × Except Raised DiscoveryPage}
    (member : answer ∈ answers digest done seen plan) :
    answer.1 ∉ done ∧ ∃ partition ∈ plan, partition.partitionKey = answer.1 := by
  induction plan generalizing done seen with
  | nil => cases member
  | cons partition rest ih =>
      have later : ∀ {done seen}, answer ∈ answers digest done seen rest →
          answer.1 ∉ done ∧ ∃ other ∈ partition :: rest, other.partitionKey = answer.1 := by
        intro done seen member
        obtain ⟨unfinished, other, inside, same⟩ := ih member
        exact ⟨unfinished, other, List.mem_cons_of_mem _ inside, same⟩
      by_cases finished : partition.partitionKey ∈ done
      · rw [answers_cons_of_mem finished] at member
        exact later member
      · cases answered : (partition.answer digest seen).2 with
        | ok page =>
            rw [answers_cons_ok finished answered] at member
            rcases List.mem_cons.mp member with rfl | member
            · exact ⟨finished, partition, List.mem_cons_self, rfl⟩
            · obtain ⟨unfinished, other⟩ := later member
              exact ⟨fun early => unfinished (List.mem_append_left _ early), other⟩
        | error raised =>
            rw [answers_cons_error finished answered] at member
            rcases List.mem_cons.mp member with rfl | member
            · exact ⟨finished, partition, List.mem_cons_self, rfl⟩
            · split at member
              · exact later member
              · cases member

/-- Of a plan that is gone through, every partition not completed yet is asked for. -/
theorem asked_of_mem (through : ¬ Interrupts (answers digest done seen plan))
    {partition : AcquisitionPartition} (member : partition ∈ plan)
    (unfinished : partition.partitionKey ∉ done) :
    ∃ answer ∈ answers digest done seen plan, answer.1 = partition.partitionKey := by
  induction plan generalizing done seen with
  | nil => cases member
  | cons first rest ih =>
      by_cases finished : first.partitionKey ∈ done
      · rw [answers_cons_of_mem finished] at through ⊢
        rcases List.mem_cons.mp member with rfl | later
        · exact (unfinished finished).elim
        · exact ih through later unfinished
      · by_cases same : first.partitionKey = partition.partitionKey
        · cases answered : (first.answer digest seen).2 with
          | ok page =>
              rw [answers_cons_ok finished answered]
              exact ⟨_, List.mem_cons_self, same⟩
          | error raised =>
              rw [answers_cons_error finished answered]
              exact ⟨_, List.mem_cons_self, same⟩
        · have later : partition ∈ rest :=
            (List.mem_cons.mp member).resolve_left fun first => same (first ▸ rfl)
          cases answered : (first.answer digest seen).2 with
          | ok page =>
              rw [answers_cons_ok finished answered] at through ⊢
              obtain ⟨answer, inside, found⟩ := ih (mt interrupts_cons_ok.mpr through) later
                (by simpa [unfinished] using fun equal => same equal.symm)
              exact ⟨answer, List.mem_cons_of_mem _ inside, found⟩
          | error raised =>
              rw [answers_cons_error finished answered] at through ⊢
              obtain ⟨caught, onward⟩ := not_or.mp (mt interrupts_cons_error.mpr through)
              rw [if_pos (Bool.eq_true_of_not_eq_false caught)] at onward ⊢
              obtain ⟨answer, inside, found⟩ := ih onward later unfinished
              exact ⟨answer, List.mem_cons_of_mem _ inside, found⟩

theorem Undegraded.through {asked : List (String × Except Raised DiscoveryPage)}
    (undegraded : Undegraded asked) : ¬ Interrupts asked := by
  rintro ⟨answer, member, raised, failed, _⟩
  obtain ⟨page, answered, _⟩ := undegraded answer member
  cases failed.symm.trans answered

/-- An interrupted plan has a partition that was not completed and is not. -/
theorem Interrupts.incomplete (interrupts : Interrupts (answers digest done seen plan)) :
    ∃ partition ∈ plan, partition.partitionKey ∉ done ∧
      ∀ page, (partition.partitionKey, .ok page) ∉ answers digest done seen plan := by
  induction plan generalizing done seen with
  | nil =>
      obtain ⟨_, member, _⟩ := interrupts
      cases member
  | cons partition rest ih =>
      by_cases finished : partition.partitionKey ∈ done
      · rw [answers_cons_of_mem finished] at interrupts ⊢
        obtain ⟨other, member, found⟩ := ih interrupts
        exact ⟨other, List.mem_cons_of_mem _ member, found⟩
      · cases answered : (partition.answer digest seen).2 with
        | ok page =>
            rw [answers_cons_ok finished answered] at interrupts ⊢
            obtain ⟨other, member, unfinished, absent⟩ := ih (interrupts_cons_ok.mp interrupts)
            simp only [List.mem_append, List.mem_singleton, not_or] at unfinished
            refine ⟨other, List.mem_cons_of_mem _ member, unfinished.1, fun page found => ?_⟩
            rcases List.mem_cons.mp found with same | found
            · exact unfinished.2 (congrArg Prod.fst same)
            · exact absent page found
        | error raised =>
            rw [answers_cons_error finished answered] at interrupts ⊢
            cases caught : raised.isException with
            | false => exact ⟨partition, List.mem_cons_self, finished, by simp⟩
            | true =>
                rw [caught, if_pos rfl] at interrupts
                rw [if_pos rfl]
                have onward := (interrupts_cons_error.mp interrupts).resolve_left
                  (by simp [caught])
                obtain ⟨other, member, unfinished, absent⟩ := ih onward
                refine ⟨other, List.mem_cons_of_mem _ member, unfinished, fun page found => ?_⟩
                rcases List.mem_cons.mp found with same | found
                · cases congrArg Prod.snd same
                · exact absent page found

end Answers

/-! ## The transactions of a call -/

section Calls

variable {env : RunnerEnvironment} {opened : OpenedRun} {sourceRunId : Uuid} {partitionKey : String}
  {page : DiscoveryPage} {state next : Acquisition}

/-- What an observation writes: neither source runs nor checkpoints. -/
theorem storeObservation_keeps (env : RunnerEnvironment) (opened : OpenedRun)
    (observation : ParsedSourceObservation) (contentHash : String) (queuedAt : Timestamp)
    (db : Database) :
    (db.storeObservation env opened observation contentHash queuedAt).1.sourceRuns =
        db.sourceRuns ∧
      (db.storeObservation env opened observation contentHash queuedAt).1.checkpoints =
        db.checkpoints := by
  have inserted : (db.insertIdempotent env.ids opened observation contentHash).1.sourceRuns =
        db.sourceRuns ∧
      (db.insertIdempotent env.ids opened observation contentHash).1.checkpoints =
        db.checkpoints := by
    unfold Database.insertIdempotent
    dsimp only
    split <;> exact ⟨rfl, rfl⟩
  unfold Database.storeObservation
  split <;> rename_i same <;> rw [same] at inserted <;> exact inserted

/-- Nothing that a verdict reads has changed. -/
structure Unjudged (state next : Acquisition) : Prop where
  sourceRuns : next.database.sourceRuns = state.database.sourceRuns
  checkpoints : next.database.checkpoints = state.database.checkpoints
  planned : next.planned = state.planned
  completed : next.completed = state.completed

theorem Unjudged.trans {last : Acquisition} (first : Unjudged state next)
    (second : Unjudged next last) : Unjudged state last where
  sourceRuns := second.sourceRuns.trans first.sourceRuns
  checkpoints := second.checkpoints.trans first.checkpoints
  planned := second.planned.trans first.planned
  completed := second.completed.trans first.completed

/-- What the verdict of a call reads of its progress. -/
def RunProgress.standing (progress : RunProgress) : Uuid × Bool × Nat :=
  (progress.summary.sourceRunId, progress.degraded, progress.summary.partitionsFailed)

theorem RunProgress.stored_keeps (result : Option Bool) (progress : RunProgress) :
    (progress.stored result).standing = progress.standing ∧
      (progress.stored result).seenIdentities = progress.seenIdentities := by
  cases result <;> exact ⟨rfl, rfl⟩

/-- The item loop answers as the adapter does. -/
theorem captureItems_run (items : List DiscoveredItem) (progress : RunProgress)
    (state : Acquisition) :
    let ended := (captureItems env opened items progress).run state
    let answered := answerItems env.digest progress.seenIdentities items
    Unjudged state ended.1 ∧ ended.2.1.standing = progress.standing ∧
      ended.2.1.seenIdentities = answered.1 ∧ ended.2.2 = answered.2 := by
  induction items generalizing progress state with
  | nil => exact ⟨⟨rfl, rfl, rfl, rfl⟩, rfl, rfl, rfl⟩
  | cons item rest ih =>
      by_cases seen : item.identity ∈ progress.seenIdentities
      · rw [captureItems, if_pos seen, answerItems, if_pos seen]
        exact ih progress.skip state
      · rw [captureItems, if_neg seen, answerItems, if_neg seen]
        cases item.capture env.digest with
        | error raised => exact ⟨⟨rfl, rfl, rfl, rfl⟩, rfl, rfl, rfl⟩
        | ok captured =>
            obtain ⟨observation, contentHash⟩ := captured
            dsimp only
            rw [Script.run_bind, Script.run_transaction]
            obtain ⟨runs, checkpoints⟩ := storeObservation_keeps env opened observation
              contentHash item.queuedAt state.database
            generalize state.database.storeObservation env opened observation contentHash
              item.queuedAt = stored at runs checkpoints
            obtain ⟨standing, identities⟩ := (progress.see item.identity).stored_keeps stored.2
            obtain ⟨kept, same, seen, result⟩ := ih ((progress.see item.identity).stored stored.2)
              { state with database := stored.1 }
            rw [identities] at seen result
            have wrote : Unjudged state { state with database := stored.1 } :=
              ⟨runs, checkpoints, rfl, rfl⟩
            exact ⟨wrote.trans kept, same.trans standing, seen, result⟩

/-- A run of answers appended to what was completed. -/
structure Carried (sourceRunId : Uuid) (asked : List (String × Except Raised DiscoveryPage))
    (state next : Acquisition) : Prop where
  aligned : next.Aligned
  sourceRuns : next.database.sourceRuns = state.database.sourceRuns
  planned : next.planned = state.planned
  completed : next.completed = state.completed ++ asked.filterMap (completion sourceRunId)

/-- Alignment depends on checkpoints and completions alone. -/
theorem Acquisition.Aligned.congr (aligned : state.Aligned)
    (checkpoints : next.database.checkpoints = state.database.checkpoints)
    (completed : next.completed = state.completed) : next.Aligned := by
  obtain ⟨unique, recorded⟩ := aligned
  refine ⟨checkpoints ▸ unique, fun sourceRunId partitionKey => ?_⟩
  rw [checkpoints, Acquisition.completedKeys, completed]
  exact recorded sourceRunId partitionKey

theorem Unjudged.aligned (unjudged : Unjudged state next) (aligned : state.Aligned) :
    next.Aligned :=
  aligned.congr unjudged.checkpoints unjudged.completed

/-- What no verdict reads may change before pages are carried. -/
theorem Unjudged.carried {last : Acquisition}
    {asked : List (String × Except Raised DiscoveryPage)} (first : Unjudged state next)
    (second : Carried sourceRunId asked next last) : Carried sourceRunId asked state last where
  aligned := second.aligned
  sourceRuns := second.sourceRuns.trans first.sourceRuns
  planned := second.planned.trans first.planned
  completed := second.completed.trans (by rw [first.completed])

/-- Pages carried by two stretches of a plan are carried by the whole. -/
theorem Carried.trans {last : Acquisition}
    {asked more : List (String × Except Raised DiscoveryPage)}
    (first : Carried sourceRunId asked state next) (second : Carried sourceRunId more next last) :
    Carried sourceRunId (asked ++ more) state last where
  aligned := second.aligned
  sourceRuns := second.sourceRuns.trans first.sourceRuns
  planned := second.planned.trans first.planned
  completed := by
    rw [second.completed, first.completed, List.filterMap_append, List.append_assoc]

theorem AdapterCheckpoint.isOf_iff {row : AdapterCheckpoint} :
    row.isOf sourceRunId partitionKey = true ↔
      (row.sourceRunId, row.partitionKey) = (sourceRunId, partitionKey) := by
  simp [AdapterCheckpoint.isOf]

/-- In an aligned state the lookup of a checkpoint tells whether its partition is completed. -/
theorem Acquisition.Aligned.checkpoint (aligned : state.Aligned) (sourceRunId : Uuid)
    (partitionKey : String) :
    ∃ found, state.database.checkpoint sourceRunId partitionKey = .ok found ∧
      found = (state.database.checkpoints.filter
        (AdapterCheckpoint.isOf sourceRunId partitionKey)).head? ∧
      (found.any AdapterCheckpoint.completed = true ↔
        partitionKey ∈ state.completedKeys sourceRunId) := by
  have selects : ∀ row ∈ state.database.checkpoints,
      row.isOf sourceRunId partitionKey = true →
        True ∧ (row.sourceRunId, row.partitionKey) = (sourceRunId, partitionKey) :=
    fun row _ selected => ⟨trivial, AdapterCheckpoint.isOf_iff.mp selected⟩
  have short := aligned.unique.length_filter_le_one (sourceRunId, partitionKey) selects
  refine ⟨_, scalarOneOrNone_of_length_le_one short, rfl, ?_⟩
  rw [aligned.recorded]
  constructor
  · intro completed
    obtain ⟨row, first, done⟩ := (Option.any_eq_true _ _).mp completed
    obtain ⟨member, selected⟩ := List.mem_filter.mp (List.mem_of_head? first)
    obtain ⟨run, key⟩ := Prod.mk.inj (AdapterCheckpoint.isOf_iff.mp selected)
    exact ⟨row, member, run, key, done⟩
  · rintro ⟨row, member, run, key, done⟩
    rw [aligned.unique.filter_eq_singleton (sourceRunId, partitionKey) selects member
      (AdapterCheckpoint.isOf_iff.mpr (by rw [run, key]))]
    exact done

/-- The transaction that completes a checkpoint writes this one alone. -/
theorem Acquisition.Aligned.completeCheckpoint (aligned : state.Aligned) (sourceRunId : Uuid)
    (partitionKey : String) (items : Nat) :
    ∃ db, state.database.completeCheckpoint sourceRunId partitionKey items = .ok db ∧
      db.sourceRuns = state.database.sourceRuns ∧
      PrimaryKey (fun row : AdapterCheckpoint => (row.sourceRunId, row.partitionKey))
        db.checkpoints ∧
      ∀ run key, (∃ row ∈ db.checkpoints, row.sourceRunId = run ∧ row.partitionKey = key ∧
          row.completed = true) ↔
        (∃ row ∈ state.database.checkpoints, row.sourceRunId = run ∧ row.partitionKey = key ∧
          row.completed = true) ∨ sourceRunId = run ∧ partitionKey = key := by
  obtain ⟨found, looked, first, _⟩ := aligned.checkpoint sourceRunId partitionKey
  unfold Database.completeCheckpoint
  rw [looked, ok_bind]
  cases found with
  | none =>
      have absent := List.filter_eq_nil_iff.mp (List.head?_eq_none_iff.mp first.symm)
      refine ⟨_, rfl, rfl, aligned.unique.insert fun _ row member _ same => ?_, fun run key => ?_⟩
      · exact absent row member (AdapterCheckpoint.isOf_iff.mpr same)
      · simp [or_and_right, exists_or]
  | some row =>
      obtain ⟨member, selected⟩ := List.mem_filter.mp (List.mem_of_head? first.symm)
      obtain ⟨sameRun, sameKey⟩ := Prod.mk.inj (AdapterCheckpoint.isOf_iff.mp selected)
      refine ⟨_, rfl, rfl, aligned.unique.updateWhere fun _ _ _ _ => ⟨trivial, rfl⟩,
        fun run key => ⟨?_, ?_⟩⟩
      · rintro ⟨new, written, newRun, newKey, done⟩
        obtain ⟨old, oldMem, same⟩ := mem_updateWhere.mp written
        split at same
        · rename_i chosen
          obtain ⟨oldRun, oldKey⟩ := Prod.mk.inj (AdapterCheckpoint.isOf_iff.mp chosen)
          subst same
          exact .inr ⟨oldRun.symm.trans newRun, oldKey.symm.trans newKey⟩
        · subst same
          exact .inl ⟨old, oldMem, newRun, newKey, done⟩
      · rintro (⟨old, oldMem, oldRun, oldKey, done⟩ | ⟨rfl, rfl⟩)
        · refine ⟨_, mem_updateWhere.mpr ⟨old, oldMem, rfl⟩, ?_⟩
          split <;> simp [oldRun, oldKey, done]
        · refine ⟨_, mem_updateWhere.mpr ⟨row, member, rfl⟩, ?_⟩
          simp [selected, sameRun, sameKey]

/-- A completion adds its key to those of its own run. -/
theorem Acquisition.completedKeys_concat (completed : next.completed = state.completed ++
      [⟨sourceRunId, partitionKey, page⟩]) (other : Uuid) :
    next.completedKeys other = state.completedKeys other ++
      if sourceRunId = other then [partitionKey] else [] := by
  unfold Acquisition.completedKeys
  rw [completed, List.filter_append, List.map_append]
  by_cases same : sourceRunId = other <;> simp [same]

/-- Completing a checkpoint carries an aligned state on by the page. -/
theorem Acquisition.Aligned.complete (aligned : state.Aligned) (sourceRunId : Uuid)
    (partitionKey : String) (page : DiscoveryPage) :
    Carried sourceRunId [(partitionKey, .ok page)] state
        ((Acquisition.complete sourceRunId partitionKey page).run state).1 ∧
      ((Acquisition.complete sourceRunId partitionKey page).run state).2 = .ok () := by
  obtain ⟨db, wrote, sourceRuns, unique, recorded⟩ :=
    aligned.completeCheckpoint sourceRunId partitionKey page.items.length
  rw [Acquisition.complete, Script.run_transaction, wrote]
  refine ⟨⟨⟨unique, fun run key => ?_⟩, sourceRuns, rfl, rfl⟩, rfl⟩
  rw [recorded, ← aligned.recorded, Acquisition.completedKeys_concat rfl, List.mem_append]
  by_cases same : sourceRunId = run <;> simp [same, eq_comm]

/-- A partition that is asked for ends as the adapter answers. -/
theorem discoverPartition_run (aligned : state.Aligned) (partition : AcquisitionPartition)
    (progress : RunProgress) :
    let ended := (discoverPartition env opened partition progress).run state
    let answered := partition.answer env.digest progress.seenIdentities
    Carried opened.sourceRunId [(partition.partitionKey, answered.2)] state ended.1 ∧
      ended.2.1.standing = progress.standing ∧ ended.2.1.seenIdentities = answered.1 ∧
      ended.2.2 = answered.2.map DiscoveryPage.degraded := by
  have unchanged : ∀ {next raised}, Unjudged state next →
      Carried opened.sourceRunId [(partition.partitionKey, .error raised)] state next :=
    fun unjudged => ⟨unjudged.aligned aligned, unjudged.sourceRuns, unjudged.planned,
      unjudged.completed.trans (List.append_nil _).symm⟩
  unfold discoverPartition AcquisitionPartition.answer
  cases partition.discover with
  | error raised => exact ⟨unchanged ⟨rfl, rfl, rfl, rfl⟩, rfl, rfl, rfl⟩
  | ok page =>
      obtain ⟨unjudged, standing, seen, result⟩ :=
        captureItems_run page.items (progress.discover page) state
      dsimp only
      rw [Script.run_bind]
      generalize (captureItems env opened page.items (progress.discover page)).run state = ended
        at unjudged standing seen result
      obtain ⟨next, after, captured⟩ := ended
      change _ = (answerItems env.digest progress.seenIdentities page.items).1 at seen
      change _ = (answerItems env.digest progress.seenIdentities page.items).2 at result
      dsimp only at unjudged standing seen result
      rw [← seen, ← result]
      cases captured with
      | error raised => exact ⟨unchanged unjudged, standing, rfl, rfl⟩
      | ok _ =>
          obtain ⟨carried, done⟩ := (unjudged.aligned aligned).complete opened.sourceRunId
            partition.partitionKey page
          dsimp only
          rw [Script.run_bind, Script.run_pure, done]
          exact ⟨unjudged.carried carried, standing, rfl, rfl⟩

/-- A partition that is completed already is skipped and counts as sound. -/
theorem runPartition_run (aligned : state.Aligned) (partition : AcquisitionPartition)
    (progress : RunProgress) :
    (runPartition env opened partition progress).run state =
      if partition.partitionKey ∈ state.completedKeys opened.sourceRunId then
        (state, progress, .ok false)
      else (discoverPartition env opened partition progress).run state := by
  obtain ⟨found, looked, _, done⟩ := aligned.checkpoint opened.sourceRunId partition.partitionKey
  rw [runPartition, Script.run_bind, Acquisition.transaction, Script.run_transaction, looked]
  by_cases finished : partition.partitionKey ∈ state.completedKeys opened.sourceRunId
  · simp [done.mpr finished, finished]
  · simp [Bool.eq_false_of_not_eq_true (mt done.mp finished), finished]

/-- The progress is not flagged. -/
def RunProgress.Clear (progress : RunProgress) : Prop :=
  progress.degraded = false ∧ progress.summary.partitionsFailed = 0

theorem RunProgress.clear_congr {progress after : RunProgress}
    (same : after.standing = progress.standing) : after.Clear ↔ progress.Clear := by
  simp only [RunProgress.standing, Prod.mk.injEq] at same
  rw [RunProgress.Clear, RunProgress.Clear, same.2.1, same.2.2]

/-- How the partition loop ends: with what interrupts it, or with a progress that is clear
when it was and no answer flags it. -/
def Ends (asked : List (String × Except Raised DiscoveryPage)) (progress : RunProgress) :
    Except Raised RunProgress → Prop
  | .error _ => Interrupts asked
  | .ok after => ¬ Interrupts asked ∧
      after.summary.sourceRunId = progress.summary.sourceRunId ∧
      (after.Clear ↔ progress.Clear ∧ Undegraded asked)

section Ends

variable {asked : List (String × Except Raised DiscoveryPage)} {progress after : RunProgress}
  {result : Except Raised RunProgress}

theorem Ends.congr (same : after.standing = progress.standing) (ends : Ends asked after result) :
    Ends asked progress result := by
  cases result with
  | error raised => exact ends
  | ok last =>
      obtain ⟨through, run, clear⟩ := ends
      exact ⟨through, run.trans (congrArg Prod.fst same),
        clear.trans (and_congr_left' (RunProgress.clear_congr same))⟩

/-- The rest of a loop after a partition that returned. -/
theorem Ends.completed (same : after.standing = progress.standing)
    (ends : Ends asked (after.completePartition page.degraded) result) :
    Ends ((partitionKey, .ok page) :: asked) progress result := by
  have clear : (after.completePartition page.degraded).Clear ↔
      progress.Clear ∧ page.degraded = false := by
    rw [← RunProgress.clear_congr same]
    simp [RunProgress.Clear, RunProgress.completePartition, and_right_comm]
  cases result with
  | error raised => exact interrupts_cons_ok.mpr ends
  | ok last =>
      obtain ⟨through, run, final⟩ := ends
      refine ⟨mt interrupts_cons_ok.mp through, run.trans (congrArg Prod.fst same), ?_⟩
      rw [final, clear, and_assoc]
      simp [Undegraded]

/-- The rest of a loop after a partition whose exception is caught. -/
theorem Ends.failed {raised : Raised} (same : after.standing = progress.standing)
    (caught : raised.isException = true)
    (ends : Ends asked (after.failPartition partitionKey raised) result) :
    Ends ((partitionKey, .error raised) :: asked) progress result := by
  have flagged : ¬ (after.failPartition partitionKey raised).Clear := fun clear =>
    Nat.succ_ne_zero _ clear.2
  cases result with
  | error raised => exact interrupts_cons_error.mpr (.inr ends)
  | ok last =>
      obtain ⟨through, run, final⟩ := ends
      refine ⟨?_, run.trans (congrArg Prod.fst same), iff_of_false (fun clear =>
        flagged (final.mp clear).1) ?_⟩
      · rw [interrupts_cons_error, caught]
        simpa using through
      · simp [Undegraded]

end Ends

/-- The partition loop carries the state on by the answers of the adapter. -/
theorem runPartitions_run (env : RunnerEnvironment) (opened : OpenedRun)
    (plan : List AcquisitionPartition) (progress : RunProgress) (aligned : state.Aligned) :
    let ended := (runPartitions env opened plan progress).run state
    let asked := answers env.digest (state.completedKeys opened.sourceRunId)
      progress.seenIdentities plan
    Carried opened.sourceRunId asked state ended.1 ∧ Ends asked progress ended.2 := by
  induction plan generalizing progress state with
  | nil =>
      refine ⟨⟨aligned, rfl, rfl, (List.append_nil _).symm⟩, ?_, rfl, ?_⟩
      · simp [Interrupts, answers]
      · simp [Undegraded, answers]
  | cons partition rest ih =>
      rw [runPartitions, Script.run_bind, runPartition_run aligned]
      by_cases finished : partition.partitionKey ∈ state.completedKeys opened.sourceRunId
      · rw [if_pos finished, answers_cons_of_mem finished]
        obtain ⟨carried, ends⟩ := ih (progress.completePartition false) aligned
        exact ⟨carried, ends.congr (by simp [RunProgress.standing, RunProgress.completePartition])⟩
      · rw [if_neg finished]
        obtain ⟨carried, standing, seen, result⟩ :=
          discoverPartition_run aligned partition progress
        generalize (discoverPartition env opened partition progress).run state = ended
          at carried standing seen result
        obtain ⟨next, after, returned⟩ := ended
        cases answered : (partition.answer env.digest progress.seenIdentities).2 with
        | ok page =>
            rw [answers_cons_ok finished answered]
            rw [answered] at carried result
            cases result
            obtain ⟨onward, ends⟩ := ih (after.completePartition page.degraded) carried.aligned
            have done : next.completedKeys opened.sourceRunId =
                state.completedKeys opened.sourceRunId ++ [partition.partitionKey] :=
              (Acquisition.completedKeys_concat carried.completed _).trans (by rw [if_pos rfl])
            change after.seenIdentities = _ at seen
            rw [done, show (after.completePartition page.degraded).seenIdentities = _ from seen]
              at onward ends
            exact ⟨carried.trans onward, ends.completed standing⟩
        | error raised =>
            rw [answers_cons_error finished answered]
            rw [answered] at carried result
            cases result
            cases caught : raised.isException with
            | false =>
                simp only [caught, Bool.false_eq_true, ↓reduceIte, Script.run_pure]
                exact ⟨carried, interrupts_cons_error.mpr (.inl caught)⟩
            | true =>
                simp only [caught, ↓reduceIte]
                obtain ⟨onward, ends⟩ := ih (after.failPartition partition.partitionKey raised)
                  carried.aligned
                have done : next.completedKeys opened.sourceRunId =
                    state.completedKeys opened.sourceRunId := by
                  rw [Acquisition.completedKeys, show next.completed = state.completed from
                    carried.completed.trans (List.append_nil _)]
                  rfl
                change after.seenIdentities = _ at seen
                rw [done, show (after.failPartition partition.partitionKey raised).seenIdentities
                  = _ from seen] at onward ends
                exact ⟨carried.trans onward, ends.failed standing caught⟩

/-- The gate passes just when nothing stands against it and the method is not a search index. -/
theorem RunProgress.evaluate_passed (discoveryMethod : DiscoveryMethod) (progress : RunProgress) :
    (progress.evaluate discoveryMethod).healthGatePassed = true ↔
      progress.Clear ∧ discoveryMethod ≠ .searchIndex := by
  have healthy : progress.status = .healthy ↔ progress.Clear := by
    unfold RunProgress.status RunProgress.Clear
    split
    · rename_i failed
      exact iff_of_false (by simp) fun clear => failed.1.ne' clear.2
    · split
      · rename_i flagged
        refine iff_of_false (by simp) fun clear => ?_
        rcases flagged with failed | degraded
        · exact failed.ne' clear.2
        · cases clear.1.symm.trans degraded
      · rename_i unflagged
        obtain ⟨none, sound⟩ := not_or.mp unflagged
        exact iff_of_true rfl ⟨Bool.eq_false_of_not_eq_true sound, Nat.eq_zero_of_not_pos none⟩
  simp [RunProgress.evaluate, healthy]

/-- `_finalize` writes the row of the run, when there is one. -/
theorem finalize_run (call : SourceRunCall) (summary : SourceRunSummary)
    (exists' : ∃ run ∈ state.database.sourceRuns, run.sourceRunId = summary.sourceRunId) :
    ((finalize call summary).run state).1 = { state with
      database := { state.database with
        sourceRuns := updateWhere (fun run => run.sourceRunId = summary.sourceRunId)
          (SourceRun.finalized call summary) state.database.sourceRuns } } := by
  obtain ⟨run, member, same⟩ := exists'
  have found : ∃ row, state.database.sourceRun? summary.sourceRunId = some row := by
    refine Option.ne_none_iff_exists'.mp fun absent => ?_
    exact get_eq_none.mp absent run member same
  obtain ⟨row, found⟩ := found
  rw [finalize, Acquisition.transaction, Script.run_transaction, Database.finalizeRun, found]
  rfl

/-- Finalizing a run keeps checkpoints and pages aligned. -/
theorem finalize_aligned (call : SourceRunCall) (summary : SourceRunSummary)
    (aligned : state.Aligned) : ((finalize call summary).run state).1.Aligned := by
  rw [finalize, Acquisition.transaction, Script.run_transaction]
  unfold Database.finalizeRun
  cases state.database.sourceRun? summary.sourceRunId with
  | none => exact aligned
  | some run => exact aligned.congr rfl rfl

/-- A call for an open run keeps the checkpoints and the record of them aligned. -/
theorem runOpened_aligned (env : RunnerEnvironment) (opened : OpenedRun) (call : SourceRunCall)
    (aligned : state.Aligned) : ((runOpened env call opened).run state).1.Aligned := by
  unfold runOpened
  cases call.adapter.preflight with
  | error raised => exact aligned
  | ok preflight =>
      dsimp only
      split
      · exact finalize_aligned call _ aligned
      · cases call.adapter.planPartitions with
        | error raised => exact aligned
        | ok plan =>
            change ((runPlan env call opened preflight plan).run state).1.Aligned
            rw [runPlan, Script.run_bind, Script.run_bind]
            have carried := (runPartitions_run env opened plan
              { summary := opened.summary, degraded := preflight.result = "DEGRADED" }
              (aligned.congr rfl rfl :
                ((Acquisition.recordPlan opened.sourceRunId plan).run state).1.Aligned)).1.aligned
            generalize Script.run (runPartitions env opened plan _) _ = ended at carried ⊢
            obtain ⟨next, result⟩ := ended
            cases result with
            | error raised => exact carried
            | ok progress => exact finalize_aligned call _ carried

end Calls

end RentalAgent
