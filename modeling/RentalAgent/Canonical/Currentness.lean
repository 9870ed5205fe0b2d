import Mathlib.Data.List.Induction
import RentalAgent.Canonical.Facts
import RentalAgent.Foundation.Transition

/-! # The current resolution of a fact

`record` supersedes the current resolution of a fact and appends a new one, unless
an active override governs the fact. However overrides come and go, a fact has at
most one current resolution, and it points to the last assertion that was recorded
while the fact was ungoverned (`Database.fact_resolution_current`).
-/

namespace RentalAgent

open Relational Transition

/-- The columns that name a fact. -/
structure FactName where
  entityType : FactEntityType
  entityId : Uuid
  factKey : String
  deriving DecidableEq

def FactAssertion.name (row : FactAssertion) : FactName :=
  ⟨row.entityType, row.entityId, row.factKey⟩

def FactResolution.name (row : FactResolution) : FactName :=
  ⟨row.entityType, row.entityId, row.factKey⟩

def FactRecord.name (record : FactRecord) : FactName :=
  ⟨record.entityType, record.entityId, record.factKey⟩

def HumanOverride.name (override : HumanOverride) : FactName :=
  ⟨override.entityType, override.entityId, override.fieldName⟩

/-- A resolution of the fact that is not superseded. -/
def FactResolution.currentFor (name : FactName) (row : FactResolution) : Bool :=
  row.name = name && row.supersededAt = none

/-- A call of `record`, or a write of the overrides by their owner. -/
inductive FactAction
  | record (now : Timestamp) (record : FactRecord)
  | override (rows : List HumanOverride)

namespace Database

variable (ids : IdSupply)

/-- `uq_human_override_active`. -/
abbrev OneActiveOverride (rows : List HumanOverride) : Prop :=
  UniqueIndex (fun row : HumanOverride => row.overrideStatus = .active) HumanOverride.name rows

/-- The database after an action; overrides that violate their unique index are
refused, and a call that raises is rolled back. -/
def factStep (db : Database) : FactAction → Database
  | .record now record =>
      match db.recordFact ids now record with
      | .ok next => next
      | .error _ => db
  | .override rows => if OneActiveOverride rows then { db with overrides := rows } else db

/-- The assertions recorded in a run, each with whether its fact was ungoverned. -/
def recordings (start : Database) (actions : List FactAction) : List (FactAssertion × Bool) :=
  (moments (factStep ids) start actions).filterMap fun moment =>
    match moment.2 with
    | .record now record =>
        some (record.assertion now (ids.uuid moment.1.drawn),
          moment.1.activeOverride record.entityType record.entityId record.factKey = .ok none)
    | .override _ => none

/-- The last assertion of the fact that was recorded while it was ungoverned. -/
def lastUngoverned (recorded : List (FactAssertion × Bool)) (name : FactName) :
    Option FactAssertion :=
  ((recorded.filter fun entry => entry.2 && entry.1.name = name).map Prod.fst).getLast?

variable {ids} {db : Database} {record : FactRecord} {now : Timestamp}

/-! ## One call -/

/-- An override governs a fact when it is active and has its name. -/
theorem governs_iff {override : HumanOverride} :
    override.governs record.entityType record.entityId record.factKey = true ↔
      override.overrideStatus = .active ∧ override.name = record.name := by
  simp only [HumanOverride.governs, HumanOverride.name, FactRecord.name, Bool.and_eq_true,
    decide_eq_true_eq, FactName.mk.injEq]
  constructor
  · rintro ⟨⟨⟨type, entity⟩, field⟩, active⟩
    exact ⟨active, type, entity, field⟩
  · rintro ⟨active, type, entity, field⟩
    exact ⟨⟨⟨type, entity⟩, field⟩, active⟩

theorem supersedes_eq (record : FactRecord) :
    record.supersedes = FactResolution.currentFor record.name := by
  funext row
  simp only [FactRecord.supersedes, FactResolution.currentFor, FactResolution.name, FactRecord.name,
    FactName.mk.injEq, Bool.decide_and, Bool.and_assoc]

/-- With one active override a field, looking one up does not raise. -/
theorem activeOverride_of_unique (unique : OneActiveOverride db.overrides) (record : FactRecord) :
    ∃ found, db.activeOverride record.entityType record.entityId record.factKey = .ok found := by
  refine ⟨_, scalarOneOrNone_of_length_le_one ?_⟩
  refine UniqueIndex.length_filter_le_one unique record.name fun override _ governs => ?_
  exact governs_iff.mp governs

/-- What a call of `record` appends and supersedes. -/
structure Recorded (ids : IdSupply) (now : Timestamp) (record : FactRecord) (db next : Database) :
    Prop where
  drawn : db.drawn < next.drawn
  overrides : next.overrides = db.overrides
  assertions : next.assertions = db.assertions ++ [record.assertion now (ids.uuid db.drawn)]
  resolutions : next.resolutions =
    if db.activeOverride record.entityType record.entityId record.factKey = .ok none then
      updateWhere (FactResolution.currentFor record.name)
          (fun row => { row with supersededAt := some now }) db.resolutions ++
        [record.resolution (ids.uuid (db.drawn + 1)) (ids.uuid db.drawn)]
    else db.resolutions
  room : db.activeOverride record.entityType record.entityId record.factKey = .ok none →
    next.drawn = db.drawn + 2

/-- A recorded fact supersedes the current resolution of its name, unless an override governs it. -/
theorem recordFact_recorded {next : Database} (recorded : db.recordFact ids now record = .ok next) :
    Recorded ids now record db next := by
  obtain ⟨found, query, wrote⟩ := bind_eq_ok.mp recorded
  cases found with
  | some override =>
      cases wrote
      exact ⟨Nat.lt_succ_self _, rfl, rfl, (if_neg (by simp [query])).symm,
        fun free => by simp [query] at free⟩
  | none =>
      cases wrote
      rw [supersedes_eq]
      exact ⟨Nat.lt_add_of_pos_right (by decide), rfl, rfl, (if_pos query).symm, fun _ => rfl⟩

/-- Where at most one override of a name is active, recording a fact does not fail. -/
theorem recorded_step (unique : OneActiveOverride db.overrides) (now : Timestamp)
    (record : FactRecord) :
    Recorded ids now record db (db.factStep ids (.record now record)) := by
  obtain ⟨found, query⟩ := activeOverride_of_unique unique record
  obtain ⟨next, recorded⟩ : ∃ next, db.recordFact ids now record = .ok next := by
    rw [recordFact, query]
    cases found <;> exact ⟨_, rfl⟩
  rw [factStep, recorded]
  exact recordFact_recorded recorded

/-! ## Runs -/

/-- The resolutions of a fact that are not superseded. -/
def current (db : Database) (name : FactName) : List FactResolution :=
  db.resolutions.filter (FactResolution.currentFor name)

/-- Superseding the current resolution of a name leaves none current. -/
theorem current_supersede (name : FactName) (now : Timestamp) (rows : List FactResolution) :
    (updateWhere (FactResolution.currentFor name) (fun row => { row with supersededAt := some now })
      rows).filter (FactResolution.currentFor name) = [] := by
  apply List.filter_eq_nil_iff.mpr
  intro row member selected
  obtain ⟨old, _, rfl⟩ := mem_updateWhere.mp member
  split at selected
  · simp [FactResolution.currentFor] at selected
  · contradiction

/-- Superseding the resolution of a name leaves those of other names current. -/
theorem current_other {name other : FactName} (differs : other ≠ name) (now : Timestamp)
    (rows : List FactResolution) :
    (updateWhere (FactResolution.currentFor name) (fun row => { row with supersededAt := some now })
      rows).filter (FactResolution.currentFor other) =
        rows.filter (FactResolution.currentFor other) := by
  refine filter_updateWhere fun row _ selected => ?_
  simp only [FactResolution.currentFor, Bool.and_eq_true, decide_eq_true_eq] at selected
  refine ⟨?_, by simp [FactResolution.currentFor]⟩
  simp [FactResolution.currentFor, selected.1, differs.symm]

/-- After the recordings, each fact has just one current resolution, which points to
the last ungoverned assertion, or none when there is no such assertion. -/
structure ResolvedBy (ids : IdSupply) (recorded : List (FactAssertion × Bool)) (db : Database) :
    Prop where
  overrides : OneActiveOverride db.overrides
  assertions : db.assertions = recorded.map Prod.fst
  current : ∀ name, (db.current name).map FactResolution.effectiveAssertionId =
    ((lastUngoverned recorded name).map fun row => some row.factAssertionId).toList
  ids : ∀ row ∈ db.resolutions, ∃ k < db.drawn, row.factResolutionId = ids.uuid k
  distinct : PrimaryKey FactResolution.factResolutionId db.resolutions

/-- The last ungoverned assertion of a name is the newest one that no override governed. -/
theorem lastUngoverned_concat (recorded : List (FactAssertion × Bool))
    (entry : FactAssertion × Bool)
    (name : FactName) : lastUngoverned (recorded ++ [entry]) name =
      if entry.2 = true ∧ entry.1.name = name then some entry.1
      else lastUngoverned recorded name := by
  unfold lastUngoverned
  rw [List.filter_append, List.map_append]
  by_cases counts : entry.2 = true ∧ entry.1.name = name
  · simp [counts.1, counts.2]
  · rw [if_neg counts, List.filter_cons_of_neg (by simpa using counts)]
    simp

theorem resolvedBy_empty (ids : IdSupply) : ResolvedBy ids [] Database.empty where
  overrides := uniqueIndex_nil
  assertions := rfl
  current _ := rfl
  ids _ member := (List.not_mem_nil member).elim
  distinct := uniqueIndex_nil

/-- A new resolution is current for the name of its record alone. -/
theorem currentFor_resolution (record : FactRecord) (id assertionId : Uuid) (name : FactName) :
    (record.resolution id assertionId).currentFor name = decide (record.name = name) := by
  by_cases same : record.name = name
  · rw [decide_eq_true same, ← same]
    simp [FactResolution.currentFor, FactRecord.resolution, FactResolution.name, FactRecord.name]
  · have differs : (record.resolution id assertionId).name ≠ name := same
    simp [FactResolution.currentFor, differs, same]

/-- Recording one more fact keeps every current resolution the one of the last assertion that no
override governed: for the recorded name it is the new assertion, for other names nothing
changes. -/
theorem resolvedBy_record {recorded : List (FactAssertion × Bool)} {next : Database}
    (resolved : ResolvedBy ids recorded db) (wrote : Recorded ids now record db next) :
    ResolvedBy ids (recorded ++ [(record.assertion now (ids.uuid db.drawn),
      decide (db.activeOverride record.entityType record.entityId record.factKey = .ok none))])
        next := by
  have named : (record.assertion now (ids.uuid db.drawn)).name = record.name := rfl
  have resolutions := wrote.resolutions
  have assertions : next.assertions = (recorded ++ [(record.assertion now (ids.uuid db.drawn),
      decide (db.activeOverride record.entityType record.entityId record.factKey = .ok none))]).map
        Prod.fst := by
    rw [wrote.assertions, resolved.assertions]
    simp
  by_cases free : db.activeOverride record.entityType record.entityId record.factKey = .ok none
  · rw [if_pos free] at resolutions
    refine ⟨wrote.overrides ▸ resolved.overrides, assertions, ?_, ?_, ?_⟩
    · intro name
      rw [current, resolutions, List.filter_append, lastUngoverned_concat]
      by_cases same : record.name = name
      · subst same
        rw [current_supersede, List.nil_append,
          List.filter_cons_of_pos (by simp [currentFor_resolution]), if_pos ⟨by simp [free], named⟩]
        rfl
      · rw [current_other (Ne.symm same), if_neg (by simp [named, same]), ← resolved.current]
        simp [current, currentFor_resolution, same]
    · intro row member
      rw [resolutions, List.mem_append, List.mem_singleton] at member
      rw [wrote.room free]
      rcases member with kept | rfl
      · obtain ⟨old, oldMem, rfl⟩ := mem_updateWhere.mp kept
        obtain ⟨k, below, id⟩ := resolved.ids old oldMem
        refine ⟨k, Nat.lt_add_right 2 below, ?_⟩
        split <;> exact id
      · exact ⟨db.drawn + 1, Nat.lt_succ_self _, rfl⟩
    · rw [resolutions]
      refine UniqueIndex.insert (UniqueIndex.updateWhere resolved.distinct
        (by intro _ _ _ _; exact ⟨trivial, rfl⟩)) ?_
      intro _ row member _ same
      obtain ⟨old, oldMem, rfl⟩ := mem_updateWhere.mp member
      obtain ⟨k, below, id⟩ := resolved.ids old oldMem
      have equal : ids.uuid k = ids.uuid (db.drawn + 1) := by
        rw [← id, ← show (record.resolution (ids.uuid (db.drawn + 1))
          (ids.uuid db.drawn)).factResolutionId = ids.uuid (db.drawn + 1) from rfl, ← same]
        split <;> rfl
      exact absurd (ids.distinct equal) (Nat.ne_of_lt (Nat.lt_succ_of_lt below))
  · rw [if_neg free] at resolutions
    refine ⟨wrote.overrides ▸ resolved.overrides, assertions, ?_, ?_,
      resolutions ▸ resolved.distinct⟩
    · intro name
      rw [current, resolutions, lastUngoverned_concat, if_neg (by simp [free])]
      exact resolved.current name
    · intro row member
      obtain ⟨k, below, id⟩ := resolved.ids row (resolutions ▸ member)
      exact ⟨k, Nat.lt_trans below wrote.drawn, id⟩

theorem recordings_concat (start : Database) (actions : List FactAction) (action : FactAction) :
    recordings ids start (actions ++ [action]) = recordings ids start actions ++
      recordings ids (run (factStep ids) start actions) [action] := by
  rw [recordings, moments_append, List.filterMap_append]
  rfl

/-- After every run of recordings the current resolutions are those of the last ungoverned
assertions. -/
theorem resolvedBy_run (ids : IdSupply) (actions : List FactAction) :
    ResolvedBy ids (recordings ids Database.empty actions)
      (run (factStep ids) Database.empty actions) := by
  induction actions using List.reverseRecOn with
  | nil => exact resolvedBy_empty ids
  | append_singleton actions action ih =>
      rw [recordings_concat, run_append, run_cons, run_nil]
      generalize run (factStep ids) Database.empty actions = db at ih ⊢
      cases action with
      | record now record => exact resolvedBy_record ih (recorded_step ih.overrides now record)
      | override rows =>
          have none : recordings ids db [.override rows] = [] := rfl
          rw [none, List.append_nil, factStep]
          split
          · rename_i unique
            exact ⟨unique, ih.assertions, ih.current, ih.ids, ih.distinct⟩
          · exact ih

/-! ## Superseded resolutions -/

/-- A superseded resolution is never written again. -/
theorem superseded_stays {row : FactResolution} (superseded : row.supersededAt ≠ none) :
    Preserved (factStep ids) (fun db _ => OneActiveOverride db.overrides)
      fun db => row ∈ db.resolutions := by
  intro db action member unique
  cases action with
  | record now record =>
      rw [(recorded_step unique now record).resolutions]
      split
      · refine List.mem_append_left _ (mem_updateWhere.mpr ⟨row, member, ?_⟩)
        rw [if_neg (by simp [FactResolution.currentFor, superseded])]
      · exact member
  | override rows =>
      simp only [factStep]
      split <;> exact member

/-- Recordings leave the overrides alone, so at most one stays active for each fact. -/
theorem oneActive_run (ids : IdSupply) {start : Database}
    (unique : OneActiveOverride start.overrides) (actions : List FactAction) :
    Permitted (factStep ids) (fun db _ => OneActiveOverride db.overrides) start actions := by
  have preserved : Preserved (factStep ids) (fun _ _ => True)
      fun db => OneActiveOverride db.overrides := by
    intro db action unique _
    cases action with
    | record now record =>
        rw [(recorded_step unique now record).overrides]
        exact unique
    | override rows =>
        simp only [factStep]
        split
        · assumption
        · exact unique
  exact fun moment member => preserved.moments unique (fun _ _ => trivial) moment member

/-- **Current resolutions.** In every run of `record` and of writes of the overrides,
each fact has at most one current resolution, which points to the last assertion
recorded while no active override governed the fact; every assertion recorded is
still there unchanged; and a resolution superseded at some moment is still the
superseded row under its id. -/
theorem fact_resolution_current (ids : IdSupply) (earlier later : List FactAction) :
    let middle := run (factStep ids) Database.empty earlier
    let final := run (factStep ids) Database.empty (earlier ++ later)
    let recorded := recordings ids Database.empty (earlier ++ later)
    (∀ name, (final.current name).length ≤ 1 ∧ ∀ row ∈ final.current name,
      ∃ assertion, lastUngoverned recorded name = some assertion ∧
        row.effectiveAssertionId = some assertion.factAssertionId) ∧
    final.assertions = recorded.map Prod.fst ∧
    ∀ row ∈ middle.resolutions, row.supersededAt ≠ none →
      ∀ other ∈ final.resolutions, other.factResolutionId = row.factResolutionId → other = row := by
  intro middle final recorded
  have resolved : ResolvedBy ids recorded final := resolvedBy_run ids (earlier ++ later)
  refine ⟨fun name => ⟨?_, fun row member => ?_⟩, resolved.assertions, ?_⟩
  · have length := congrArg List.length (resolved.current name)
    rw [List.length_map] at length
    rw [length]
    cases lastUngoverned recorded name <;> simp
  · have pointed : row.effectiveAssertionId ∈
        ((lastUngoverned recorded name).map fun row => some row.factAssertionId).toList :=
      resolved.current name ▸ List.mem_map_of_mem member
    rw [Option.mem_toList, Option.map_eq_some_iff] at pointed
    obtain ⟨assertion, last, points⟩ := pointed
    exact ⟨assertion, last, points.symm⟩
  · intro row member superseded other otherMem same
    have unique := (resolvedBy_run ids earlier).overrides
    have stays : row ∈ final.resolutions := by
      change row ∈ (run (factStep ids) Database.empty (earlier ++ later)).resolutions
      rw [run_append]
      exact (superseded_stays superseded).run member (oneActive_run ids unique later)
    exact resolved.distinct.eq_of_mem otherMem stays same

end Database

end RentalAgent
