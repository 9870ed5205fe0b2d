import RentalAgent.Canonical.Durability
import RentalAgent.Enrichment.Commute
import RentalAgent.Foundation.Transition

/-! # Renewing commutes

An estimate expires, but the execution it came from stays, and executions are unique by a
digest of their input. So an expired estimate is not renewed while its inputs stay the
same: `research_not_renewed` follows one through the rest of its history, and
`renewed_iff` says of every history when each accepted call is renewed.
-/

namespace RentalAgent

open Relational Transition

namespace ResearchEnvironment

variable {env : ResearchEnvironment} {tables next : CommuteTables} {call : ResearchCall}
  {target : String × Uuid} {destination : Destination} {output : CommuteResearchOutput}
  {row : CommuteResult}

/-- The call asks for one target and a known destination, and the output of the model for
it is accepted. -/
structure Accepts (tables : CommuteTables) (call : ResearchCall) (target : String × Uuid)
    (destination : Destination) (output : CommuteResearchOutput) : Prop where
  asked : call.target = some target
  known : get Destination.destinationId tables.destinations call.destinationId =
    some destination
  accepted : (call.answer (call.request target destination)).accept = .ok output

/-- The call is answered by an estimate that is unexpired. When there was none before, it
is a new row for the inputs of the call. -/
structure Renewed (env : ResearchEnvironment) (tables : CommuteTables) (call : ResearchCall)
    (destination : Destination) (next : CommuteTables) (row : CommuteResult) : Prop where
  unexpired : ∃ expiresAt, row.expiresAt = some expiresAt ∧ call.now < expiresAt
  fresh : env.getFreshResult call tables = none →
    next.results = tables.results ++ [row] ∧
      row.canonicalListingId = call.canonicalListingId ∧
        row.companyPropertyId = call.companyPropertyId ∧
          row.destinationId = call.destinationId ∧
            row.inputLocationHash = call.inputLocationHash ∧
              row.destinationRegistryVersion = destination.registryVersion

/-- No execution is stored under the key of the call. -/
def Unrecorded (env : ResearchEnvironment) (tables : CommuteTables) (call : ResearchCall)
    (target : String × Uuid) (destination : Destination) : Prop :=
  ∀ other ∈ tables.executions, ¬(other.taskType = commuteTaskType ∧
    other.inputHash = env.inputHash call target.2 destination ∧
      other.promptVersion = commutePromptVersion ∧
        other.outputSchemaVersion = commuteOutputSchemaVersion ∧
          other.modelId = (truthy (some env.modelId)).getD "unknown")

/-- What the call writes fits its columns, and its target is stored. -/
structure Storable (tables : CommuteTables) (call : ResearchCall) (target : String × Uuid)
    (destination : Destination) (output : CommuteResearchOutput) : Prop where
  tokens : fitsBigint (call.answer (call.request target destination)).inputTokens = true ∧
    fitsBigint (call.answer (call.request target destination)).outputTokens = true
  values : output.fits = true
  location : fitsText call.inputLocationHash = true
  listing : ∀ id, call.canonicalListingId = some id → id ∈ tables.listings
  property : ∀ id, call.companyPropertyId = some id → id ∈ tables.companyProperties

/-! ## One call -/

/-- What the checks of an output leave over. -/
theorem accept_eq_ok {result : CommuteTaskResult} (accepted : result.accept = .ok output) :
    output.sources ≠ [] ∧ output.durationMinS ≤ output.durationMaxS := by
  unfold CommuteTaskResult.accept at accepted
  split at accepted
  · cases accepted
  · split at accepted
    · split at accepted
      · cases accepted
      · rename_i cited
        split at accepted
        · cases accepted
        · cases accepted
          exact ⟨cited, by omega⟩
    · cases accepted

/-- A target is asked for by just one of its two ids. -/
theorem target_eq_some (asked : call.target = some target) :
    (call.canonicalListingId.isSome ^^ call.companyPropertyId.isSome) = true := by
  unfold ResearchCall.target at asked
  split at asked
  · rename_i listing property
    simp [listing, property]
  · rename_i listing property
    simp [listing, property]
  · cases asked

/-- The estimate of an accepted output satisfies every check constraint. -/
theorem estimate_checksOut (accepts : Accepts tables call target destination output)
    (validation : TransitValidationStatus × ValidationReasons) (executionId id : Uuid) :
    checksOut (env.estimate call destination output validation executionId id) = true := by
  obtain ⟨cited, ordered⟩ := accept_eq_ok accepts.accepted
  simp [checksOut, estimate, cited, ordered, target_eq_some accepts.asked]

theorem targetStored_iff :
    targetStored row tables = true ↔
      (∀ id, row.canonicalListingId = some id → id ∈ tables.listings) ∧
        ∀ id, row.companyPropertyId = some id → id ∈ tables.companyProperties := by
  cases listing : row.canonicalListingId <;> cases property : row.companyPropertyId <;>
    simp [targetStored, listing, property]

/-- An execution is stored when it fits its columns and its key is free. -/
theorem insertExecution_eq_ok {execution : ResearchExecution} :
    insertExecution execution tables = .ok next ↔
      (fitsBigint execution.inputTokens = true ∧ fitsBigint execution.outputTokens = true) ∧
        execution.outputRef.fits = true ∧
          (∀ other ∈ tables.executions, ¬(other.taskType = execution.taskType ∧
            other.inputHash = execution.inputHash ∧
              other.promptVersion = execution.promptVersion ∧
                other.outputSchemaVersion = execution.outputSchemaVersion ∧
                  other.modelId = execution.modelId)) ∧
            next = { tables with
              drawn := tables.drawn + 1
              executions := tables.executions ++ [execution] } := by
  unfold insertExecution
  split
  · rename_i unfit
    refine ⟨fun same => (by cases same), fun ⟨⟨input, output⟩, values, _⟩ => ?_⟩
    simp [input, output, values] at unfit
  · rename_i fit
    simp only [Bool.not_eq_true', Bool.not_eq_false, Bool.and_eq_true] at fit
    split
    · rename_i taken
      refine ⟨fun same => (by cases same), fun ⟨_, _, free, _⟩ => ?_⟩
      obtain ⟨other, member, same⟩ := List.any_eq_true.mp taken
      simp only [Bool.and_eq_true, decide_eq_true_eq] at same
      exact (free other member ⟨same.1.1.1.1, same.1.1.1.2, same.1.1.2, same.1.2, same.2⟩).elim
    · rename_i free
      refine ⟨fun same => ⟨fit.1, fit.2, fun other member taken => free ?_, ?_⟩,
        fun ⟨_, _, _, same⟩ => congrArg Except.ok same.symm⟩
      · refine List.any_eq_true.mpr ⟨other, member, ?_⟩
        obtain ⟨task, hash, prompt, schema, model⟩ := taken
        simp [task, hash, prompt, schema, model]
      · exact (Except.ok.inj same).symm

/-- An estimate is stored when it fits its columns, checks out and names a stored target. -/
theorem insertEstimate_eq_ok :
    insertEstimate row tables = .ok next ↔
      fitsText row.inputLocationHash = true ∧ checksOut row = true ∧
        targetStored row tables = true ∧
          next = { tables with drawn := tables.drawn + 1, results := tables.results ++ [row] } := by
  unfold insertEstimate
  split
  · rename_i unfit
    exact ⟨fun same => (by cases same), fun ⟨fit, _⟩ => by simp [fit] at unfit⟩
  · rename_i fit
    split
    · rename_i refused
      refine ⟨fun same => (by cases same), fun ⟨_, checks, stored, _⟩ => ?_⟩
      simp [checks, stored] at refused
    · rename_i passed
      simp only [Bool.not_eq_true', Bool.not_eq_false, Bool.and_eq_true] at fit passed
      refine ⟨fun same => ⟨fit, passed.1, passed.2, (Except.ok.inj same).symm⟩,
        fun ⟨_, _, _, same⟩ => congrArg Except.ok same.symm⟩

/-- A call that finds an unexpired estimate gives the latest of them. -/
theorem research_cached {cached : CommuteResult} (asked : call.target = some target)
    (found : env.getFreshResult call tables = some cached) :
    env.research call tables = .ok (tables, cached) := by
  rw [research, asked, found]
  rfl

/-- The tables after an accepted call that found no unexpired estimate. -/
def researched (env : ResearchEnvironment) (tables : CommuteTables) (call : ResearchCall)
    (target : String × Uuid) (destination : Destination) (output : CommuteResearchOutput) :
    CommuteTables × CommuteResult :=
  let validation := tables.transit.crossCheck env.unicode output
  let executionId := env.ids.uuid tables.drawn
  let row := env.estimate call destination output validation executionId
    (env.ids.uuid (tables.drawn + 1))
  ({ tables with
      drawn := tables.drawn + 2
      executions := tables.executions ++
        [env.execution call target destination output validation.1 executionId]
      results := tables.results ++ [row] }, row)

/-- An accepted call that finds no unexpired estimate writes a new one just when its key is
not taken and what it writes is storable. -/
theorem research_eq_ok (accepts : Accepts tables call target destination output)
    (expired : env.getFreshResult call tables = none) :
    env.research call tables = .ok (next, row) ↔
      Unrecorded env tables call target destination ∧
        Storable tables call target destination output ∧
          (next, row) = env.researched tables call target destination output := by
  have opened : env.research call tables = (do
      let validation := tables.transit.crossCheck env.unicode output
      let executionId := env.ids.uuid tables.drawn
      let tables ← insertExecution
        (env.execution call target destination output validation.1 executionId) tables
      let row := env.estimate call destination output validation executionId
        (env.ids.uuid tables.drawn)
      let tables ← insertEstimate row tables
      return (tables, row)) := by
    rw [research, accepts.asked, expired]
    change (do
      let destination ← require .lookupError
        (get Destination.destinationId tables.destinations call.destinationId)
      _ : Except ResearchError (CommuteTables × CommuteResult)) = _
    rw [accepts.known]
    change (do
      let output ← (call.answer (call.request target destination)).accept
      _ : Except ResearchError (CommuteTables × CommuteResult)) = _
    rw [accepts.accepted]
    rfl
  rw [opened]
  constructor
  · intro wrote
    obtain ⟨middle, inserted, wrote⟩ := bind_eq_ok.mp wrote
    obtain ⟨last, estimated, wrote⟩ := bind_eq_ok.mp wrote
    obtain ⟨tokens, values, free, rfl⟩ := insertExecution_eq_ok.mp inserted
    obtain ⟨location, _, stored, rfl⟩ := insertEstimate_eq_ok.mp estimated
    obtain ⟨listing, property⟩ := targetStored_iff.mp stored
    cases wrote
    exact ⟨free, ⟨tokens, values, location, listing, property⟩, rfl⟩
  · rintro ⟨free, storable, same⟩
    cases same
    refine bind_eq_ok.mpr ⟨_, insertExecution_eq_ok.mpr
      ⟨storable.tokens, storable.values, free, rfl⟩, ?_⟩
    refine bind_eq_ok.mpr ⟨_, insertEstimate_eq_ok.mpr ⟨storable.location,
      estimate_checksOut accepts _ _ _, targetStored_iff.mpr
        ⟨storable.listing, storable.property⟩, rfl⟩, rfl⟩

theorem getFreshResult_serves {cached : CommuteResult}
    (found : env.getFreshResult call tables = some cached) :
    cached ∈ tables.results ∧ call.serves cached = true :=
  Ranking.firstRow_mem found

/-- What a call that answers did: it found its row, or it wrote it. -/
theorem research_cases (wrote : env.research call tables = .ok (next, row)) :
    (env.getFreshResult call tables = some row ∧ next = tables) ∨
      env.getFreshResult call tables = none ∧ ∃ target destination output,
        Accepts tables call target destination output ∧
          (next, row) = env.researched tables call target destination output := by
  have answered := wrote
  obtain ⟨target, asked, wrote⟩ := bind_eq_ok.mp wrote
  have asked := require_eq_ok.mp asked
  cases found : env.getFreshResult call tables with
  | some cached =>
      rw [research_cached asked found] at answered
      cases answered
      exact .inl ⟨rfl, rfl⟩
  | none =>
      rw [found] at wrote
      obtain ⟨destination, known, wrote⟩ := bind_eq_ok.mp wrote
      obtain ⟨output, accepted, _⟩ := bind_eq_ok.mp wrote
      have accepts : Accepts tables call target destination output :=
        ⟨asked, require_eq_ok.mp known, accepted⟩
      exact .inr ⟨rfl, target, destination, output, accepts,
        ((research_eq_ok accepts found).mp answered).2.2⟩

/-- An unexpired estimate of the target and the destination is stored. -/
def Served (tables : CommuteTables) (call : ResearchCall) : Prop :=
  ∃ row ∈ tables.results, call.serves row = true

/-- A call is served when the cache has a fresh result. -/
theorem served_iff :
    Served tables call ↔ ∃ cached, env.getFreshResult call tables = some cached := by
  constructor
  · rintro ⟨row, member, serves⟩
    refine Option.ne_none_iff_exists'.mp fun missing => ?_
    exact absurd serves (by simp [Ranking.firstRow_eq_none.mp missing row member])
  · rintro ⟨cached, found⟩
    exact ⟨cached, getFreshResult_serves found⟩

/-- An estimate that serves a call has not expired when the call is made. -/
theorem unexpired_of_serves (serves : call.serves row = true) :
    ∃ expiresAt, row.expiresAt = some expiresAt ∧ call.now < expiresAt := by
  simp only [ResearchCall.serves, Bool.and_eq_true, Option.any_eq_true, decide_eq_true_eq] at serves
  exact serves.2

theorem seconds_pos_iff {days : Int} : 0 < seconds (days * 86400) ↔ 0 < days := by
  unfold seconds
  omega

/-- An estimate outlives its call when it lives for a day or more. -/
theorem outlives_iff {now expiresAt : Timestamp} :
    (some (now + seconds (env.cacheDays * 86400)) = some expiresAt ∧ now < expiresAt) ↔
      expiresAt = now + seconds (env.cacheDays * 86400) ∧ 0 < env.cacheDays := by
  constructor
  · rintro ⟨same, alive⟩
    cases same
    exact ⟨rfl, seconds_pos_iff.mp (lt_add_iff_pos_right now |>.mp alive)⟩
  · rintro ⟨rfl, lives⟩
    exact ⟨rfl, lt_add_iff_pos_right now |>.mpr (seconds_pos_iff.mpr lives)⟩

/-! ## Histories -/

/-- An accepted call is renewed. -/
def Renews (env : ResearchEnvironment) (tables : CommuteTables) : CommuteAction → Prop
  | .outside _ => True
  | .research call => ∀ target destination output,
      Accepts tables call target destination output →
        ∃ next row, env.research call tables = .ok (next, row) ∧
          Renewed env tables call destination next row

/-- An accepted call finds an unexpired estimate, or its key is not taken, what it writes is
storable and estimates live for a day or more. -/
def Renewable (env : ResearchEnvironment) (tables : CommuteTables) : CommuteAction → Prop
  | .outside _ => True
  | .research call => ∀ target destination output,
      Accepts tables call target destination output →
        Served tables call ∨
          Unrecorded env tables call target destination ∧
            Storable tables call target destination output ∧ 0 < env.cacheDays

/-- A call is renewed just when it is renewable. -/
theorem renews_iff (action : CommuteAction) :
    Renews env tables action ↔ Renewable env tables action := by
  cases action with
  | outside write => exact Iff.rfl
  | research call =>
      refine forall₃_congr fun target destination output =>
        forall_congr' fun accepts => ?_
      cases found : env.getFreshResult call tables with
      | some cached =>
          refine iff_of_true ⟨tables, cached, research_cached accepts.asked found,
            unexpired_of_serves (getFreshResult_serves found).2, fun missing => ?_⟩
            (.inl ⟨cached, getFreshResult_serves found⟩)
          rw [found] at missing
          cases missing
      | none =>
          constructor
          · rintro ⟨next, row, wrote, ⟨expiresAt, expires, alive⟩, _⟩
            obtain ⟨free, storable, same⟩ := (research_eq_ok accepts found).mp wrote
            cases same
            exact .inr ⟨free, storable, (outlives_iff.mp ⟨expires, alive⟩).2⟩
          · rintro (served | ⟨free, storable, lives⟩)
            · obtain ⟨cached, present⟩ := served_iff.mp served
              rw [found] at present
              cases present
            · refine ⟨_, _, (research_eq_ok accepts found).mpr ⟨free, storable, rfl⟩, ?_,
                fun _ => ?_⟩
              · exact ⟨_, outlives_iff.mpr ⟨rfl, lives⟩⟩
              · exact ⟨rfl, rfl, rfl, rfl, rfl, rfl⟩

/-- **Renewal.** In every history each accepted call is renewed just when each one finds an
unexpired estimate, or a key that is not taken and columns and a target for what it
writes. -/
theorem renewed_iff (env : ResearchEnvironment) (start : CommuteTables)
    (actions : List CommuteAction) :
    Permitted env.step (Renews env) start actions ↔
      Permitted env.step (Renewable env) start actions :=
  forall₂_congr fun moment _ => renews_iff moment.2

/-- Research with the default cache of fourteen days, and with a digest that tells any two
inputs apart. -/
def fourteenDays : ResearchEnvironment where
  ids := countingIds
  unicode := Database.asciiTables
  digest := fun (targetId, code, location, version, prompt) =>
    "|".intercalate [toString targetId, code, location, version, prompt]
  modelId := "gpt-5.6-terra"
  providerCode := "openai"
  cacheDays := 14
  position := id
  apart := Function.injective_id

/-- One listing and one destination. -/
def oneListing : CommuteTables where
  drawn := 0
  listings := [1]
  companyProperties := []
  destinations := [⟨2, "NYU", "NYU", "Washington Square Park", "1"⟩]
  executions := []
  results := []
  transit := ⟨0, [], []⟩

/-- An answer that is accepted. -/
def halfAnHour : CommuteResearchOutput where
  durationMinS := 1800
  durationMaxS := 2400
  sources := [{ url := "https://transit.example" }]

/-- A call for the listing at a time, from a location. -/
def visit (now : Timestamp) (inputLocationHash : String) : ResearchCall where
  canonicalListingId := some 1
  destinationId := 2
  originDescription := "160 Water Street"
  inputLocationHash := inputLocationHash
  now := now
  answer := fun _ => { status := .succeeded, output := .valid halfAnHour }

/-- A listing is researched, and researched again when the estimate has expired a day ago:
the second execution has the key of the first. -/
theorem visit_notRenewed :
    ¬Permitted fourteenDays.step (Renews fourteenDays) oneListing
      [.research (visit 0 "a"), .research (visit (seconds (15 * 86400)) "a")] := by
  intro renewed
  obtain ⟨_, renewed⟩ := (permitted_cons _ _ _).mp renewed
  obtain ⟨again, _⟩ := (permitted_cons _ _ _).mp renewed
  obtain ⟨next, row, wrote, _⟩ := again ("listing", 1)
    ⟨2, "NYU", "NYU", "Washington Square Park", "1"⟩ halfAnHour ⟨rfl, rfl, rfl⟩
  have refused : fourteenDays.research (visit (seconds (15 * 86400)) "a")
      (fourteenDays.step oneListing (.research (visit 0 "a"))) = .error .integrityError := by
    rfl
  rw [refused] at wrote
  cases wrote

/-! ## The rest of a history -/

/-- Executions stay. -/
theorem step_executions (env : ResearchEnvironment) (tables : CommuteTables)
    (action : CommuteAction) :
    ∃ more, (env.step tables action).executions = tables.executions ++ more := by
  cases action with
  | outside write => exact ⟨[], (List.append_nil _).symm⟩
  | research call =>
      unfold step
      dsimp only
      split
      · rename_i next row wrote
        rcases research_cases wrote with ⟨_, rfl⟩ | ⟨_, target, destination, output, _, same⟩
        · exact ⟨[], (List.append_nil _).symm⟩
        · rw [(Prod.mk.inj same).1]
          exact ⟨_, rfl⟩
      · exact ⟨[], (List.append_nil _).symm⟩

/-- An execution that is stored is stored for the rest of a history. -/
theorem stored_preserved (env : ResearchEnvironment) (execution : ResearchExecution) :
    Preserved env.step (fun _ _ => True) fun tables => execution ∈ tables.executions := by
  intro tables action stored _
  obtain ⟨more, same⟩ := step_executions env tables action
  rw [same]
  exact List.mem_append_left _ stored

/-- **An expired estimate is not renewed.** Once a call was researched, every later call
with its key that finds no unexpired estimate is refused by the unique key of executions,
however long ago the estimate expired. -/
theorem research_not_renewed {first second : ResearchCall} {other : String × Uuid}
    {otherDestination : Destination} {otherOutput : CommuteResearchOutput}
    (accepts : Accepts tables first target destination output)
    (missing : env.getFreshResult first tables = none)
    (wrote : env.research first tables = .ok (next, row)) (later : List CommuteAction)
    (again : Accepts (run env.step next later) second other otherDestination otherOutput)
    (key : env.inputHash second other.2 otherDestination =
      env.inputHash first target.2 destination)
    (expired : env.getFreshResult second (run env.step next later) = none) :
    ∀ last renewed, env.research second (run env.step next later) ≠ .ok (last, renewed) := by
  intro last renewed answered
  obtain ⟨_, _, same⟩ := (research_eq_ok accepts missing).mp wrote
  obtain ⟨free, _⟩ := (research_eq_ok again expired).mp answered
  cases same
  have always : Permitted env.step (fun _ _ => True)
      (env.researched tables first target destination output).1 later := fun _ _ => trivial
  have stored := (stored_preserved env _).run
    (List.mem_append_right _ (List.mem_singleton_self _)) always
  exact free _ stored ⟨rfl, key.symm, rfl, rfl, rfl⟩

end ResearchEnvironment

end RentalAgent
