import RentalAgent.Schema
import RentalAgent.Foundation.Relational

/-! # Discarding the inventory

`discard_inventory` truncates nine tables with all that refers to them, and puts back the
rows of the owner: destinations, properties of the company, and the selections, shortlist
entries and commutes of these properties with the executions that they cite. All other
executions go with their jobs, so the audit of the executions survives just when every
execution is cited (`discardInventory_keeps_iff`).
-/

namespace RentalAgent

open ForeignKeys Relational

/-- A row as its mapped class reads it. -/
abbrev TableRow := Row RefColumn Uuid JsonObject

/-- The rows of all tables. -/
abbrev TableStore := Store Table RefColumn Uuid JsonObject

/-- The row is about a property of the company. -/
def companyTargeted (row : TableRow) : Bool := (row.reference .companyPropertyId).isSome

/-- A state of the database: references are to rows, and a selection, an entry or a commute
is about a listing or about a property of the company, and not about both. -/
structure Inventory where
  rows : TableStore
  intact : Intact foreignKeys rows
  oneTarget : ∀ table ∈ [Table.marketingSelection, .clientShortlistEntry, .commuteResult],
    ∀ row ∈ rows table, (row.reference .canonicalListingId).isSome ≠ companyTargeted row

/-- `_DISCARD_TABLES`. -/
def discardTables : List Table :=
  [.address, .canonicalListing, .sourceObservation, .mediaAsset, .factAssertion, .factResolution,
    .reviewIssue, .humanOverride, .job]

/-- The tables that the truncation empties. -/
def discardedTables : List Table := cascade foreignKeys 4 discardTables

/-- The executions that the commutes of the company cite. -/
def citedExecutionIds (db : TableStore) : List Uuid :=
  ((db .commuteResult).filter companyTargeted).filterMap fun row =>
    row.reference .modelExecutionId

/-- `discard_inventory`. -/
def discardInventory (db : TableStore) : Except IntegrityError TableStore := do
  let destinations := db .destination
  let companyRows := db .companyProperty
  let companyEntries := (db .clientShortlistEntry).filter companyTargeted
  let companySelections := (db .marketingSelection).filter companyTargeted
  let companyCommutes := (db .commuteResult).filter companyTargeted
  let commuteExecutions := (db .modelExecution).filter fun row => row.id ∈ citedExecutionIds db
  let db := truncate discardedTables db
  let db ← insertAll foreignKeys .destination (destinations.map (Row.clear .addressId)) db
  let db ← insertAll foreignKeys .companyProperty
    (companyRows.map (Row.clear .matchedBuildingId)) db
  let db ← insertAll foreignKeys .modelExecution (commuteExecutions.map (Row.clear .jobId)) db
  let db ← insertAll foreignKeys .clientShortlistEntry companyEntries db
  let db ← insertAll foreignKeys .marketingSelection companySelections db
  insertAll foreignKeys .commuteResult companyCommutes db

/-- The tables of the owner that no row may leave or enter. -/
def ownerTables : List Table :=
  [.clientSearchPreset, .source, .transitStop, .transitRoute, .geographicBoundary, .refreshRun,
    .sourceRun]

/-- The data of the owner is there with the values that it had. -/
structure OwnerDataKept (db next : TableStore) : Prop where
  companyProperties : ∀ row ∈ db .companyProperty,
    row.clear .matchedBuildingId ∈ next .companyProperty
  destinations : ∀ row ∈ db .destination, ∃ after ∈ next .destination,
    row.AgreesBut .addressId after
  companyTargets : ∀ table ∈ [Table.marketingSelection, .clientShortlistEntry, .commuteResult],
    ∀ row ∈ db table, companyTargeted row = true → row ∈ next table
  reference : ∀ table ∈ ownerTables, next table = db table
  executions : ∀ row ∈ db .modelExecution, ∃ after ∈ next .modelExecution,
    row.AgreesBut .jobId after

/-- No listing, observation or fact remains. -/
def AcquiredGone (next : TableStore) : Prop :=
  ∀ table ∈ [Table.canonicalListing, .sourceObservation, .factAssertion, .factResolution],
    next table = []

/-- Every execution is cited by a commute of the company. -/
def ExecutionsCited (db : TableStore) : Prop :=
  ∀ execution ∈ db .modelExecution, ∃ commute ∈ db .commuteResult,
    companyTargeted commute = true ∧ commute.reference .modelExecutionId = some execution.id

/-- No execution is escalated from a later one. -/
def EscalatedInOrder (executions : List TableRow) : Prop :=
  ∀ before row after, executions = before ++ row :: after →
    ∀ id ∈ row.reference .escalatedFromId, ∃ other ∈ before ++ [row], other.id = id

variable {db next : TableStore} {table : Table}

/-! ## The truncation -/

theorem discarded_closed : Closed foreignKeys discardedTables := by decide

/-- The truncation empties just the nine tables and what refers to them. -/
theorem mem_discardedTables : table ∈ discardedTables ↔
    Cascaded foreignKeys discardTables table :=
  mem_cascade_iff discarded_closed

/-- The rows that are put back, in the order in which the tables are filled. -/
def restored (db : TableStore) : Table → List TableRow
  | .destination => (db .destination).map (Row.clear .addressId)
  | .companyProperty => (db .companyProperty).map (Row.clear .matchedBuildingId)
  | .modelExecution => ((db .modelExecution).filter fun row =>
      row.id ∈ citedExecutionIds db).map (Row.clear .jobId)
  | .clientShortlistEntry => (db .clientShortlistEntry).filter companyTargeted
  | .marketingSelection => (db .marketingSelection).filter companyTargeted
  | .commuteResult => (db .commuteResult).filter companyTargeted
  | _ => []

/-- The database after the truncation and the restoration. -/
def discarded (db : TableStore) : TableStore := fun table =>
  truncate discardedTables db table ++ restored db table

/-! ## The restoration -/

/-- Rows whose only foreign key is cleared refer to nothing. -/
theorem cleared_present {column : RefColumn}
    (only : ∀ key ∈ foreignKeys, key.table = table → key.column = column)
    (rows : List TableRow) (store : TableStore) :
    ∀ row ∈ rows.map (Row.clear column), ∀ key ∈ foreignKeys, key.table = table →
      ∀ id ∈ row.reference key.column, ∃ target ∈ store key.target, target.id = id := by
  intro row member key keyMem own id refers
  obtain ⟨old, _, rfl⟩ := List.mem_map.mp member
  rw [only key keyMem own, Row.clear_reference_self] at refers
  cases refers

/-- Without their jobs the executions are escalated as before. -/
theorem escalatedInOrder_clear (executions : List TableRow) :
    EscalatedInOrder (executions.map (Row.clear .jobId)) ↔ EscalatedInOrder executions := by
  have kept : ∀ row : TableRow, (row.clear .jobId).reference .escalatedFromId =
      row.reference .escalatedFromId := Row.clear_reference_of_ne (by decide)
  constructor
  · rintro ordered before row after rfl id refers
    obtain ⟨other, member, same⟩ := ordered (before.map (Row.clear .jobId)) (row.clear .jobId)
      (after.map (Row.clear .jobId)) (by simp) id (kept row ▸ refers)
    have inside : other ∈ (before ++ [row]).map (Row.clear .jobId) := by simpa using member
    obtain ⟨old, oldMem, rfl⟩ := List.mem_map.mp inside
    exact ⟨old, oldMem, same⟩
  · intro ordered before row after split id refers
    obtain ⟨first, rest, rfl, rfl, later⟩ := List.map_eq_append_iff.mp split
    obtain ⟨old, others, rfl, rfl, rfl⟩ := List.map_eq_cons_iff.mp later
    obtain ⟨other, member, same⟩ := ordered first old others rfl id (kept old ▸ refers)
    refine ⟨other.clear .jobId, ?_, same⟩
    have inside : other.clear .jobId ∈ (first ++ [old]).map (Row.clear .jobId) :=
      List.mem_map_of_mem member
    simpa using inside

/-- Executions are accepted when none is escalated from a later one. -/
theorem insertExecutions_eq_ok {store : TableStore} (empty : store .modelExecution = [])
    (executions : List TableRow) :
    insertAll foreignKeys .modelExecution (executions.map (Row.clear .jobId)) store = .ok next ↔
      EscalatedInOrder executions ∧
        next = extend store .modelExecution (executions.map (Row.clear .jobId)) := by
  have executionKeys : ∀ key ∈ foreignKeys, key.table = .modelExecution →
      key = ⟨.modelExecution, .jobId, .job⟩ ∨
        key = ⟨.modelExecution, .escalatedFromId, .modelExecution⟩ := by decide
  rw [insertAll_eq_ok, ← escalatedInOrder_clear]
  refine and_congr_left fun _ => ?_
  constructor
  · intro accepted before row after split id refers
    obtain ⟨other, member, same⟩ := accepted before row after split
      ⟨.modelExecution, .escalatedFromId, .modelExecution⟩ (by decide) rfl id refers
    rw [extend_extend, extend_self, empty, List.nil_append] at member
    exact ⟨other, member, same⟩
  · intro ordered before row after split key keyMem own id refers
    rcases executionKeys key keyMem own with rfl | rfl
    · have member : row ∈ executions.map (Row.clear .jobId) := by simp [split]
      obtain ⟨old, _, rfl⟩ := List.mem_map.mp member
      rw [Row.clear_reference_self] at refers
      cases refers
    · obtain ⟨other, member, same⟩ := ordered before row after split id refers
      refine ⟨other, ?_, same⟩
      rw [extend_extend, extend_self, empty, List.nil_append]
      exact member

/-- The tables that are filled last. -/
def targetedTables : List Table := [.marketingSelection, .clientShortlistEntry, .commuteResult]

/-- What a row of the owner refers to is there again. -/
theorem companyTargeted_present (inventory : Inventory) (tableMem : table ∈ targetedTables)
    {store : TableStore} (filled : ∀ other, other ∉ targetedTables →
      ∀ row ∈ discarded inventory.rows other, row ∈ store other) :
    ∀ row ∈ (inventory.rows table).filter companyTargeted, ∀ key ∈ foreignKeys,
      key.table = table → ∀ id ∈ row.reference key.column,
        ∃ target ∈ store key.target, target.id = id := by
  intro row member key keyMem own id refers
  obtain ⟨inside, targeted⟩ := List.mem_filter.mp member
  have noListing : row.reference .canonicalListingId = none := by
    have one := inventory.oneTarget table tableMem row inside
    rw [targeted] at one
    simpa using one
  subst own
  obtain ⟨target, targetMem, same⟩ := inventory.intact key keyMem row inside id refers
  have again : ∀ change : TableRow → TableRow, (∀ row, (change row).id = row.id) →
      key.target ∉ targetedTables → (change target ∈ discarded inventory.rows key.target) →
        ∃ target ∈ store key.target, target.id = id := by
    intro change keeps outside kept
    exact ⟨change target, filled key.target outside _ kept, (keeps target).trans same⟩
  have targets : ∀ key ∈ foreignKeys, key.table ∈ targetedTables →
      key.column = .canonicalListingId ∨ key.target = .companyProperty ∨
        key.target = .destination ∨ key.target = .clientSearchPreset ∨
          key.target = .providerRequest ∨
            key = ⟨.commuteResult, .modelExecutionId, .modelExecution⟩ := by decide
  rcases targets key keyMem tableMem with listing | property | destination | preset | request | cite
  · rw [listing, noListing] at refers
    cases refers
  · refine again (Row.clear .matchedBuildingId) (fun _ => rfl) (by rw [property]; decide) ?_
    rw [property] at targetMem ⊢
    exact List.mem_append_right _ (List.mem_map_of_mem targetMem)
  · refine again (Row.clear .addressId) (fun _ => rfl) (by rw [destination]; decide) ?_
    rw [destination] at targetMem ⊢
    exact List.mem_append_right _ (List.mem_map_of_mem targetMem)
  · refine again (fun row => row) (fun _ => rfl) (by rw [preset]; decide) ?_
    rw [preset] at targetMem ⊢
    exact List.mem_append_left _ (by rwa [truncate_of_not_mem (by decide)])
  · refine again (fun row => row) (fun _ => rfl) (by rw [request]; decide) ?_
    rw [request] at targetMem ⊢
    exact List.mem_append_left _ (by rwa [truncate_of_not_mem (by decide)])
  · refine again (Row.clear .jobId) (fun _ => rfl) (by rw [cite]; decide) ?_
    subst cite
    refine List.mem_append_right _ (List.mem_map_of_mem (List.mem_filter.mpr ⟨targetMem, ?_⟩))
    rw [decide_eq_true_eq, same]
    exact List.mem_filterMap.mpr ⟨row, member, refers⟩

theorem restored_of_other (db : TableStore) (other : table ≠ .destination ∧
    table ≠ .companyProperty ∧ table ≠ .modelExecution ∧ table ∉ targetedTables) :
    restored db table = [] := by
  obtain ⟨destination, property, execution, targeted⟩ := other
  cases table <;> first | rfl | exact absurd rfl ‹_› | exact absurd (by decide) targeted

/-- The database when destinations, properties and executions are there again. -/
def refilled (db : TableStore) : TableStore :=
  extend (extend (extend (truncate discardedTables db) .destination (restored db .destination))
    .companyProperty (restored db .companyProperty)) .modelExecution (restored db .modelExecution)

/-- Outside the tables filled last, a table is as the truncation left it. -/
theorem refilled_of_not_mem (db : TableStore) (outside : table ∉ targetedTables) :
    refilled db table = discarded db table := by
  unfold refilled discarded
  by_cases execution : table = .modelExecution
  · subst execution
    rw [extend_self, extend_of_ne (by decide), extend_of_ne (by decide)]
  rw [extend_of_ne execution]
  by_cases property : table = .companyProperty
  · subst property
    rw [extend_self, extend_of_ne (by decide)]
  rw [extend_of_ne property]
  by_cases destination : table = .destination
  · subst destination
    rw [extend_self]
  · rw [extend_of_ne destination,
      restored_of_other db ⟨destination, property, execution, outside⟩, List.append_nil]

/-- What is about properties of the company is put back last. -/
theorem refilled_targeted (db : TableStore) :
    extend (extend (extend (refilled db) .clientShortlistEntry (restored db .clientShortlistEntry))
      .marketingSelection (restored db .marketingSelection)) .commuteResult
        (restored db .commuteResult) = discarded db := by
  funext table
  by_cases commute : table = .commuteResult
  · subst commute
    rw [extend_self, extend_of_ne (by decide), extend_of_ne (by decide)]
    rfl
  rw [extend_of_ne commute]
  by_cases selection : table = .marketingSelection
  · subst selection
    rw [extend_self, extend_of_ne (by decide)]
    rfl
  rw [extend_of_ne selection]
  by_cases entry : table = .clientShortlistEntry
  · subst entry
    rw [extend_self]
    rfl
  · rw [extend_of_ne entry]
    exact refilled_of_not_mem db (by simp [targetedTables, commute, selection, entry])

/-- The call succeeds when no cited execution is escalated from a later one. -/
theorem discardInventory_eq_ok (inventory : Inventory) :
    discardInventory inventory.rows = .ok next ↔
      EscalatedInOrder ((inventory.rows .modelExecution).filter fun row =>
        row.id ∈ citedExecutionIds inventory.rows) ∧ next = discarded inventory.rows := by
  have targeted : ∀ {store : TableStore}, (∀ table, ∀ row ∈ refilled inventory.rows table,
      row ∈ store table) → ∀ table ∈ targetedTables,
        insertAll foreignKeys table ((inventory.rows table).filter companyTargeted) store =
          .ok (extend store table ((inventory.rows table).filter companyTargeted)) := by
    intro store grown table tableMem
    refine insertAll_of_intact (companyTargeted_present inventory tableMem ?_)
    intro other outside row member
    exact grown other row (refilled_of_not_mem inventory.rows outside ▸ member)
  have last : (insertAll foreignKeys .clientShortlistEntry
      ((inventory.rows .clientShortlistEntry).filter companyTargeted) (refilled inventory.rows) >>=
      fun db => insertAll foreignKeys .marketingSelection
        ((inventory.rows .marketingSelection).filter companyTargeted) db >>=
      fun db => insertAll foreignKeys .commuteResult
        ((inventory.rows .commuteResult).filter companyTargeted) db) =
      .ok (discarded inventory.rows) := by
    rw [targeted (fun _ _ member => member) _ (by decide), ok_bind,
      targeted (fun _ _ member => mem_extend member) _ (by decide), ok_bind,
      targeted (fun _ _ member => mem_extend (mem_extend member)) _ (by decide)]
    exact congrArg Except.ok (refilled_targeted inventory.rows)
  have empty : extend (extend (truncate discardedTables inventory.rows) .destination
      ((inventory.rows .destination).map (Row.clear .addressId))) .companyProperty
        ((inventory.rows .companyProperty).map (Row.clear .matchedBuildingId)) .modelExecution =
          [] := rfl
  unfold discardInventory
  dsimp only
  rw [insertAll_of_intact (cleared_present (by decide) _ _), ok_bind,
    insertAll_of_intact (cleared_present (by decide) _ _), ok_bind, bind_eq_ok]
  simp only [insertExecutions_eq_ok empty]
  constructor
  · rintro ⟨_, ⟨ordered, rfl⟩, rest⟩
    exact ⟨ordered, Except.ok.inj (rest.symm.trans last)⟩
  · rintro ⟨ordered, rfl⟩
    exact ⟨_, ⟨ordered, rfl⟩, last⟩

/-! ## What survives -/

/-- The call keeps the references intact. -/
theorem discardInventory_intact (inventory : Inventory)
    (done : discardInventory inventory.rows = .ok next) : Intact foreignKeys next := by
  unfold discardInventory at done
  obtain ⟨_, first, done⟩ := bind_eq_ok.mp done
  obtain ⟨_, second, done⟩ := bind_eq_ok.mp done
  obtain ⟨_, third, done⟩ := bind_eq_ok.mp done
  obtain ⟨_, fourth, done⟩ := bind_eq_ok.mp done
  obtain ⟨_, fifth, done⟩ := bind_eq_ok.mp done
  exact ((((((inventory.intact.truncate discarded_closed).insertAll first).insertAll
    second).insertAll third).insertAll fourth).insertAll fifth).insertAll done

theorem mem_citedExecutionIds {id : Uuid} : id ∈ citedExecutionIds db ↔
    ∃ commute ∈ db .commuteResult, companyTargeted commute = true ∧
      commute.reference .modelExecutionId = some id := by
  simp [citedExecutionIds, List.mem_filterMap, List.mem_filter, and_assoc]

/-- The executions survive just when every one is cited. -/
theorem discarded_keeps_iff (db : TableStore) :
    OwnerDataKept db (discarded db) ↔ ExecutionsCited db := by
  constructor
  · intro kept execution member
    obtain ⟨after, afterMem, same, _⟩ := kept.executions execution member
    obtain ⟨old, chosen, rfl⟩ := List.mem_map.mp afterMem
    have cited := (List.mem_filter.mp chosen).2
    rw [decide_eq_true_eq] at cited
    rw [same]
    exact mem_citedExecutionIds.mp cited
  · intro cited
    exact {
      companyProperties := fun row member =>
        List.mem_append_right _ (List.mem_map_of_mem member)
      destinations := fun row member =>
        ⟨_, List.mem_append_right _ (List.mem_map_of_mem member), Row.clear_agreesBut _ row⟩
      companyTargets := by
        intro table tableMem row member targeted
        have chosen : row ∈ (db table).filter companyTargeted :=
          List.mem_filter.mpr ⟨member, targeted⟩
        refine List.mem_append_right _ ?_
        simp only [List.mem_cons, List.not_mem_nil, or_false] at tableMem
        rcases tableMem with rfl | rfl | rfl <;> exact chosen
      reference := by
        intro table tableMem
        simp only [ownerTables, List.mem_cons, List.not_mem_nil, or_false] at tableMem
        rcases tableMem with rfl | rfl | rfl | rfl | rfl | rfl | rfl <;>
          exact (List.append_nil _).trans (truncate_of_not_mem (by decide))
      executions := by
        intro row member
        refine ⟨_, List.mem_append_right _ (List.mem_map_of_mem (List.mem_filter.mpr
          ⟨member, ?_⟩)), Row.clear_agreesBut _ row⟩
        rw [decide_eq_true_eq]
        exact mem_citedExecutionIds.mpr (cited row member) }

/-- No row of a table that is not put back survives the truncation. -/
theorem discarded_acquiredGone (db : TableStore) : AcquiredGone (discarded db) := by
  intro table tableMem
  simp only [List.mem_cons, List.not_mem_nil, or_false] at tableMem
  rcases tableMem with rfl | rfl | rfl | rfl <;>
    exact (List.append_nil _).trans (truncate_of_mem (by decide))

/-- **Discarding inventory.** The call succeeds, leaves nothing that was acquired and keeps
the data of the owner just when every execution is cited by a commute of the company and
none is escalated from a later one. -/
theorem discardInventory_keeps_iff (inventory : Inventory) :
    (∃ next, discardInventory inventory.rows = .ok next ∧ OwnerDataKept inventory.rows next ∧
        AcquiredGone next) ↔
      ExecutionsCited inventory.rows ∧ EscalatedInOrder (inventory.rows .modelExecution) := by
  have all : ExecutionsCited inventory.rows → ((inventory.rows .modelExecution).filter fun row =>
      row.id ∈ citedExecutionIds inventory.rows) = inventory.rows .modelExecution := by
    intro cited
    refine List.filter_eq_self.mpr fun row member => ?_
    rw [decide_eq_true_eq]
    exact mem_citedExecutionIds.mpr (cited row member)
  constructor
  · rintro ⟨next, done, kept, _⟩
    obtain ⟨ordered, rfl⟩ := (discardInventory_eq_ok inventory).mp done
    have cited := (discarded_keeps_iff inventory.rows).mp kept
    rw [all cited] at ordered
    exact ⟨cited, ordered⟩
  · rintro ⟨cited, ordered⟩
    refine ⟨_, (discardInventory_eq_ok inventory).mpr ⟨?_, rfl⟩,
      (discarded_keeps_iff inventory.rows).mpr cited, discarded_acquiredGone inventory.rows⟩
    rwa [all cited]

/-- One execution, of the extraction of a page. -/
def oneExecution : Inventory where
  rows
    | .modelExecution => [⟨1, fun _ => none, [("task_type", .text "listing_detail_extract")]⟩]
    | _ => []
  intact := by
    intro key _ row member id refers
    obtain ⟨table, column, target⟩ := key
    cases table <;> simp_all
  oneTarget := by decide

/-- The execution is gone. -/
theorem oneExecution_lost : ¬ ∃ next, discardInventory oneExecution.rows = .ok next ∧
    OwnerDataKept oneExecution.rows next := by
  rintro ⟨next, done, kept⟩
  obtain ⟨after, member, _⟩ := kept.executions ⟨1, fun _ => none, _⟩ List.mem_cons_self
  have gone : (discardInventory oneExecution.rows).toOption.map (fun next =>
      next .modelExecution) = some [] := rfl
  rw [done] at gone
  have vacant : next .modelExecution = [] := Option.some.inj gone
  rw [vacant] at member
  cases member

end RentalAgent
