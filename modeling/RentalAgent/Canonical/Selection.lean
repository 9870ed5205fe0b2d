import RentalAgent.Foundation.LastWrite
import RentalAgent.Foundation.Transition
import RentalAgent.Database

/-! # Marketing selection and client shortlists

`MarketingSelectionService.set_selection` and `ClientShortlistService.set_entry` write the
status of one target, for the market or for one client, and an audit record beside it.
Each desk is the store of the last accepted writes (`Desk.follows_run`). The record of a
shortlist entry names its target and not its client, so the log determines the statuses
just for histories whose targets tell the clients apart (`Desk.log_determines_iff`).
-/

namespace RentalAgent

open Relational Transition

/-- A canonical listing or a property of the company: of the two columns of a row, the
one that is not null. -/
inductive Target
  | listing (canonicalListingId : Uuid)
  | property (companyPropertyId : Uuid)
  deriving DecidableEq

/-- The id that an audit record has for the target. -/
def Target.id : Target → Uuid
  | .listing id | .property id => id

/-- The type that an audit record of a selection has for the target. -/
def Target.type : Target → String
  | .listing _ => "canonical_listing"
  | .property _ => "company_property"

/-- The target that the arguments of a call name, unless they name both or none. -/
def target? : Option Uuid → Option Uuid → Option Target
  | some canonicalListingId, none => some (.listing canonicalListingId)
  | none, some companyPropertyId => some (.property companyPropertyId)
  | none, none | some _, some _ => none

/-- A row of `app.marketing_selection`. -/
structure MarketingSelection where
  marketingSelectionId : Uuid
  target : Target
  selectionStatus : SelectionStatus
  selectedBy : String
  selectedAt : Timestamp
  note : Option String
  deriving DecidableEq

/-- A row of `app.client_shortlist_entry`. -/
structure ClientShortlistEntry where
  clientShortlistEntryId : Uuid
  clientSearchPresetId : Uuid
  target : Target
  entryStatus : ShortlistEntryStatus
  addedBy : String
  addedAt : Timestamp
  note : Option String
  deriving DecidableEq

/-- What an entry is unique for. -/
def ClientShortlistEntry.place (entry : ClientShortlistEntry) : Uuid × Target :=
  (entry.clientSearchPresetId, entry.target)

/-- The rows that foreign keys of the two tables refer to. -/
structure Catalog where
  presetIds : List Uuid
  listingIds : List Uuid
  propertyIds : List Uuid

/-- The target exists. -/
def Catalog.Has (catalog : Catalog) : Target → Prop
  | .listing id => id ∈ catalog.listingIds
  | .property id => id ∈ catalog.propertyIds

instance (catalog : Catalog) : DecidablePred catalog.Has
  | .listing id => inferInstanceAs (Decidable (id ∈ catalog.listingIds))
  | .property id => inferInstanceAs (Decidable (id ∈ catalog.propertyIds))

/-- The exceptions of the two services. -/
inductive SelectionError
  /-- `HumanActionRequired`: "marketing selection and shortlist membership are manual human
  actions". -/
  | humanActionRequired
  /-- `ValueError`: "targets exactly one of canonical_listing_id / company_property_id". -/
  | notOneTarget
  /-- `MultipleResultsFound`: a query for at most one row found several. -/
  | multipleResultsFound
  /-- `IntegrityError`: a foreign key refers to no row. -/
  | integrityError
  deriving DecidableEq

/-- The two tables and the audit log, and how many ids were drawn. -/
structure Desk where
  drawn : Nat
  selections : List MarketingSelection
  entries : List ClientShortlistEntry
  auditLog : List AuditActionLog
  deriving DecidableEq

/-- The calls of the two services, with the clock reading each one meets. -/
inductive SelectionCall
  | setSelection (now : Timestamp) (canonicalListingId companyPropertyId : Option Uuid)
      (status : SelectionStatus) (actor : String) (actorType : ActorType) (note : Option String)
  | setEntry (now : Timestamp) (clientSearchPresetId : Uuid)
      (canonicalListingId companyPropertyId : Option Uuid) (status : ShortlistEntryStatus)
      (actor : String) (actorType : ActorType) (note : Option String)

/-- Who calls. -/
def SelectionCall.actorType : SelectionCall → ActorType
  | .setSelection _ _ _ _ _ actorType _ | .setEntry _ _ _ _ _ _ actorType _ => actorType

/-- The call is one of `set_entry`. -/
def SelectionCall.isEntry : SelectionCall → Bool
  | .setSelection .. => false
  | .setEntry .. => true

namespace Desk

/-- No rows. -/
def empty : Desk where
  drawn := 0
  selections := []
  entries := []
  auditLog := []

/-- `MarketingSelectionService.set_selection`. -/
def setSelection (ids : IdSupply) (catalog : Catalog) (now : Timestamp)
    (canonicalListingId companyPropertyId : Option Uuid) (status : SelectionStatus)
    (actor : String) (actorType : ActorType) (note : Option String) (desk : Desk) :
    Except SelectionError (Desk × MarketingSelection) := do
  refuse (actorType ≠ .human) .humanActionRequired
  let target ← require .notOneTarget (target? canonicalListingId companyPropertyId)
  let current ← scalarOneOrNone .multipleResultsFound
    (desk.selections.filter fun row => row.target = target)
  let audit (id : Uuid) : AuditActionLog :=
    { actionLogId := id
      actor := actor
      actorType := actorType
      actionType := "marketing_selection_change"
      targetType := target.type
      targetId := target.id
      beforeValues := current.map fun row =>
        [("selection_status", .text row.selectionStatus.value)]
      afterValues := some [("selection_status", .text status.value)]
      reason := note }
  match current with
  | none =>
      refuse (¬ catalog.Has target) .integrityError
      let row : MarketingSelection :=
        { marketingSelectionId := ids.uuid desk.drawn
          target := target
          selectionStatus := status
          selectedBy := actor
          selectedAt := now
          note := note }
      return ({ desk with
        drawn := desk.drawn + 2
        selections := desk.selections ++ [row]
        auditLog := desk.auditLog ++ [audit (ids.uuid (desk.drawn + 1))] }, row)
  | some row =>
      let change (row : MarketingSelection) : MarketingSelection :=
        { row with
          selectionStatus := status
          selectedBy := actor
          selectedAt := now
          note := note <|> row.note }
      return ({ desk with
        drawn := desk.drawn + 1
        selections := updateWhere (fun row => row.target = target) change desk.selections
        auditLog := desk.auditLog ++ [audit (ids.uuid desk.drawn)] }, change row)

/-- `ClientShortlistService.set_entry`. -/
def setEntry (ids : IdSupply) (catalog : Catalog) (now : Timestamp)
    (clientSearchPresetId : Uuid) (canonicalListingId companyPropertyId : Option Uuid)
    (status : ShortlistEntryStatus) (actor : String) (actorType : ActorType)
    (note : Option String) (desk : Desk) :
    Except SelectionError (Desk × ClientShortlistEntry) := do
  refuse (actorType ≠ .human) .humanActionRequired
  let target ← require .notOneTarget (target? canonicalListingId companyPropertyId)
  let entry ← scalarOneOrNone .multipleResultsFound
    (desk.entries.filter fun row => row.place = (clientSearchPresetId, target))
  let audit (id : Uuid) : AuditActionLog :=
    { actionLogId := id
      actor := actor
      actorType := actorType
      actionType := "client_shortlist_change"
      targetType := "client_shortlist_entry"
      targetId := target.id
      beforeValues := entry.map fun row => [("entry_status", .text row.entryStatus.value)]
      afterValues := some [("entry_status", .text status.value)]
      reason := note }
  match entry with
  | none =>
      refuse (¬ (clientSearchPresetId ∈ catalog.presetIds ∧ catalog.Has target)) .integrityError
      let row : ClientShortlistEntry :=
        { clientShortlistEntryId := ids.uuid desk.drawn
          clientSearchPresetId := clientSearchPresetId
          target := target
          entryStatus := status
          addedBy := actor
          addedAt := now
          note := note }
      return ({ desk with
        drawn := desk.drawn + 2
        entries := desk.entries ++ [row]
        auditLog := desk.auditLog ++ [audit (ids.uuid (desk.drawn + 1))] }, row)
  | some row =>
      let change (row : ClientShortlistEntry) : ClientShortlistEntry :=
        { row with
          entryStatus := status
          note := note <|> row.note }
      return ({ desk with
        drawn := desk.drawn + 1
        entries := updateWhere (fun row => row.place = (clientSearchPresetId, target)) change
          desk.entries
        auditLog := desk.auditLog ++ [audit (ids.uuid desk.drawn)] }, change row)

variable (ids : IdSupply) (catalog : Catalog)

/-- The desk after a call, or the exception it raises. -/
def perform (desk : Desk) : SelectionCall → Except SelectionError Desk
  | .setSelection now canonicalListingId companyPropertyId status actor actorType note => do
      let (desk, _) ← desk.setSelection ids catalog now canonicalListingId companyPropertyId
        status actor actorType note
      return desk
  | .setEntry now clientSearchPresetId canonicalListingId companyPropertyId status actor
      actorType note => do
      let (desk, _) ← desk.setEntry ids catalog now clientSearchPresetId canonicalListingId
        companyPropertyId status actor actorType note
      return desk

/-- One call as a transaction. -/
def step (desk : Desk) (call : SelectionCall) : Desk :=
  match desk.perform ids catalog call with
  | .ok next => next
  | .error _ => desk

/-- The desk after the calls, from empty tables. -/
abbrev reached (calls : List SelectionCall) : Desk := run (step ids catalog) empty calls

/-- The selection status of the target. -/
def selectionStatus (desk : Desk) (target : Target) : Option SelectionStatus :=
  (get MarketingSelection.target desk.selections target).map MarketingSelection.selectionStatus

/-- The shortlist status of the target for the preset. -/
def entryStatus (desk : Desk) (clientSearchPresetId : Uuid) (target : Target) :
    Option ShortlistEntryStatus :=
  (get ClientShortlistEntry.place desk.entries (clientSearchPresetId, target)).map
    ClientShortlistEntry.entryStatus

/-- The contents of the audit log: its records but for their ids. -/
def logContents (desk : Desk) : List AuditActionLog :=
  desk.auditLog.map fun row => { row with actionLogId := 0 }

/-- All targets have the same statuses. -/
def SameStatuses (first second : Desk) : Prop :=
  (∀ target, first.selectionStatus target = second.selectionStatus target) ∧
    ∀ clientSearchPresetId target, first.entryStatus clientSearchPresetId target =
      second.entryStatus clientSearchPresetId target

end Desk

/-- The calls of `set_entry` name presets and targets of these pairs. -/
def SelectionCall.Within (pairs : Set (Uuid × Target)) : SelectionCall → Prop
  | .setSelection .. => True
  | .setEntry _ clientSearchPresetId canonicalListingId companyPropertyId _ _ _ _ =>
      ∀ target, target? canonicalListingId companyPropertyId = some target →
        (clientSearchPresetId, target) ∈ pairs

/-- The pairs that exist. -/
def Catalog.pairs (catalog : Catalog) : Set (Uuid × Target) :=
  {pair | pair.1 ∈ catalog.presetIds ∧ catalog.Has pair.2}

/-! ## Slots -/

/-- What a call writes: the selection of a target, or its entry for a preset. -/
inductive Slot
  | selection (target : Target)
  | entry (clientSearchPresetId : Uuid) (target : Target)
  deriving DecidableEq

/-- What an audit record names of a write: its action and its target. -/
def Slot.label : Slot → String × String × Uuid
  | .selection target => ("marketing_selection_change", target.type, target.id)
  | .entry _ target => ("client_shortlist_change", "client_shortlist_entry", target.id)

/-- The column that a write is about. -/
def Slot.column : Slot → String
  | .selection _ => "selection_status"
  | .entry .. => "entry_status"

/-- A foreign key of the slot refers to a row. -/
def Catalog.Holds (catalog : Catalog) : Slot → Prop
  | .selection target => catalog.Has target
  | .entry clientSearchPresetId target =>
      clientSearchPresetId ∈ catalog.presetIds ∧ catalog.Has target

instance (catalog : Catalog) : DecidablePred catalog.Holds
  | .selection target => inferInstanceAs (Decidable (catalog.Has target))
  | .entry clientSearchPresetId target =>
      inferInstanceAs (Decidable (clientSearchPresetId ∈ catalog.presetIds ∧ catalog.Has target))

/-- The slot that the call names. -/
def SelectionCall.slot? : SelectionCall → Option Slot
  | .setSelection _ canonicalListingId companyPropertyId _ _ _ _ =>
      (target? canonicalListingId companyPropertyId).map .selection
  | .setEntry _ clientSearchPresetId canonicalListingId companyPropertyId _ _ _ _ =>
      (target? canonicalListingId companyPropertyId).map (.entry clientSearchPresetId)

/-- The text of the status that the call sets. -/
def SelectionCall.value : SelectionCall → String
  | .setSelection _ _ _ status _ _ _ => status.value
  | .setEntry _ _ _ _ status _ _ _ => status.value

/-- The write of an accepted call: a human's, on one target that exists. -/
def SelectionCall.write? (catalog : Catalog) (call : SelectionCall) : Option (Slot × String) :=
  match call.slot? with
  | some slot =>
      if call.actorType = .human ∧ catalog.Holds slot then some (slot, call.value) else none
  | none => none

theorem SelectionStatus.value_injective : Function.Injective SelectionStatus.value := by
  intro first second same
  cases first <;> cases second <;> first | rfl | exact absurd same (by decide)

theorem ShortlistEntryStatus.value_injective : Function.Injective ShortlistEntryStatus.value := by
  intro first second same
  cases first <;> cases second <;> first | rfl | exact absurd same (by decide)

namespace Desk

variable {ids : IdSupply} {catalog : Catalog} {desk next : Desk}
  {writes : List (Slot × String)}

/-- The text of the status at a slot. -/
def valueAt (desk : Desk) : Slot → Option String
  | .selection target => (desk.selectionStatus target).map SelectionStatus.value
  | .entry clientSearchPresetId target =>
      (desk.entryStatus clientSearchPresetId target).map ShortlistEntryStatus.value

/-- What an audit record says about a write. -/
def record (write : Slot × String) : (String × String × Uuid) × Option JsonObject :=
  (write.1.label, some [(write.1.column, .text write.2)])

/-- The desk is the store of the writes, and its log records them. -/
structure Follows (catalog : Catalog) (writes : List (Slot × String)) (desk : Desk) : Prop where
  selections : PrimaryKey MarketingSelection.target desk.selections
  entries : PrimaryKey ClientShortlistEntry.place desk.entries
  known : ∀ slot value, desk.valueAt slot = some value → catalog.Holds slot
  values : ∀ slot, desk.valueAt slot = LastWrite.stored writes slot
  logged : (desk.logContents.map fun row =>
    ((row.actionType, row.targetType, row.targetId), row.afterValues)) = writes.map record

theorem follows_empty (catalog : Catalog) : Follows catalog [] empty where
  selections := uniqueIndex_nil
  entries := uniqueIndex_nil
  known := by rintro (target | ⟨preset, target⟩) value found <;> cases found
  values := by rintro (target | ⟨preset, target⟩) <;> rfl
  logged := rfl

/-- Two desks have the same statuses when they have the same value at every slot. -/
theorem sameStatuses_iff {first second : Desk} :
    SameStatuses first second ↔ ∀ slot, first.valueAt slot = second.valueAt slot := by
  constructor
  · rintro ⟨selections, entries⟩ (target | ⟨preset, target⟩)
    · exact congrArg (Option.map _) (selections target)
    · exact congrArg (Option.map _) (entries preset target)
  · intro values
    refine ⟨fun target => ?_, fun preset target => ?_⟩
    · exact Option.map_injective SelectionStatus.value_injective (values (.selection target))
    · exact Option.map_injective ShortlistEntryStatus.value_injective
        (values (.entry preset target))

/-! ## Accepted calls -/

/-- The step wrote the value at the slot, and recorded it. -/
structure Writes (catalog : Catalog) (write : Slot × String) (desk next : Desk) : Prop where
  holds : catalog.Holds write.1
  selections : PrimaryKey MarketingSelection.target next.selections
  entries : PrimaryKey ClientShortlistEntry.place next.entries
  values : ∀ slot, next.valueAt slot = if slot = write.1 then some write.2 else desk.valueAt slot
  logged : ∃ row : AuditActionLog, next.auditLog = desk.auditLog ++ [row] ∧
    ((row.actionType, row.targetType, row.targetId), row.afterValues) = record write

/-- A write takes the desk from one list of writes to the list with it at the end. -/
theorem Follows.follow {write : Slot × String} (follows : Follows catalog writes desk)
    (step : Writes catalog write desk next) : Follows catalog (writes ++ [write]) next where
  selections := step.selections
  entries := step.entries
  known := by
    intro slot value found
    rw [step.values] at found
    split at found
    · rename_i same
      exact same ▸ step.holds
    · exact follows.known slot value found
  values := by
    intro slot
    rw [step.values, LastWrite.stored_concat, follows.values]
  logged := by
    obtain ⟨row, log, recorded⟩ := step.logged
    have before := follows.logged
    simp only [logContents, List.map_map] at before ⊢
    rw [log, List.map_append, before, List.map_append, List.map_singleton, List.map_singleton,
      ← recorded]
    rfl

/-- Each target has one selection and one entry for a preset, and the rows refer to rows of
the catalog. -/
structure Indexed (catalog : Catalog) (desk : Desk) : Prop where
  selections : PrimaryKey MarketingSelection.target desk.selections
  entries : PrimaryKey ClientShortlistEntry.place desk.entries
  known : ∀ slot value, desk.valueAt slot = some value → catalog.Holds slot

theorem Follows.indexed (follows : Follows catalog writes desk) : Indexed catalog desk :=
  ⟨follows.selections, follows.entries, follows.known⟩

/-- A human selection of a target that is there writes its status, and records it. -/
theorem setSelection_writes (indexed : Indexed catalog desk) (now : Timestamp)
    {canonicalListingId companyPropertyId : Option Uuid} (status : SelectionStatus)
    (actor : String) (note : Option String) {target : Target}
    (names : target? canonicalListingId companyPropertyId = some target)
    (present : catalog.Has target) :
    ∃ result, desk.setSelection ids catalog now canonicalListingId companyPropertyId status actor
        .human note = .ok result ∧
      Writes catalog (.selection target, status.value) desk result.1 := by
  have others : ∀ {selections : List MarketingSelection} {drawn : Nat} {auditLog},
      (∀ other, (get MarketingSelection.target selections other).map
          MarketingSelection.selectionStatus =
        if other = target then some status else desk.selectionStatus other) →
      ∀ slot, valueAt ⟨drawn, selections, desk.entries, auditLog⟩ slot =
        if slot = .selection target then some status.value else desk.valueAt slot := by
    intro selections drawn auditLog column slot
    cases slot with
    | selection other =>
        rw [valueAt, selectionStatus, column]
        by_cases same : other = target
        · rw [if_pos same, if_pos (congrArg Slot.selection same)]
          rfl
        · rw [if_neg same, if_neg fun equal => same (Slot.selection.inj equal)]
          rfl
    | entry preset other => rfl
  unfold setSelection
  simp only [refuse, ne_eq, not_true_eq_false, ↓reduceIte, ok_bind, names, require,
    indexed.selections.scalarOneOrNone_filter, present]
  cases found : get MarketingSelection.target desk.selections target with
  | none =>
      refine ⟨_, rfl, present, ?_, indexed.entries, ?_, _, rfl, rfl⟩
      · exact UniqueIndex.insert indexed.selections fun _ row member _ =>
          get_eq_none.mp found row member
      · exact others fun other => get_column_insert MarketingSelection.selectionStatus found other
  | some row =>
      refine ⟨_, rfl, present, ?_, indexed.entries, ?_, _, rfl, rfl⟩
      · exact UniqueIndex.updateWhere indexed.selections fun _ _ _ _ => ⟨trivial, rfl⟩
      · exact others fun other => get_column_update MarketingSelection.selectionStatus found
          (fun _ => by rfl) (fun _ => by rfl) other

/-- A human entry of a target that is there writes its status, and records it. -/
theorem setEntry_writes (indexed : Indexed catalog desk) (now : Timestamp)
    {clientSearchPresetId : Uuid} {canonicalListingId companyPropertyId : Option Uuid}
    (status : ShortlistEntryStatus) (actor : String) (note : Option String) {target : Target}
    (names : target? canonicalListingId companyPropertyId = some target)
    (present : clientSearchPresetId ∈ catalog.presetIds ∧ catalog.Has target) :
    ∃ result, desk.setEntry ids catalog now clientSearchPresetId canonicalListingId
        companyPropertyId status actor .human note = .ok result ∧
      Writes catalog (.entry clientSearchPresetId target, status.value) desk result.1 := by
  have others : ∀ {entries : List ClientShortlistEntry} {drawn : Nat} {auditLog},
      (∀ place, (get ClientShortlistEntry.place entries place).map
          ClientShortlistEntry.entryStatus =
        if place = (clientSearchPresetId, target) then some status
        else desk.entryStatus place.1 place.2) →
      ∀ slot, valueAt ⟨drawn, desk.selections, entries, auditLog⟩ slot =
        if slot = .entry clientSearchPresetId target then some status.value
        else desk.valueAt slot := by
    intro entries drawn auditLog column slot
    cases slot with
    | selection other => rfl
    | entry preset other =>
        rw [valueAt, entryStatus, column]
        by_cases same : preset = clientSearchPresetId ∧ other = target
        · obtain ⟨rfl, rfl⟩ := same
          rw [if_pos rfl, if_pos rfl]
          rfl
        · rw [if_neg fun equal => same (Prod.mk.inj equal),
            if_neg fun equal => same (Slot.entry.inj equal)]
          rfl
  unfold setEntry
  simp only [refuse, ne_eq, not_true_eq_false, ↓reduceIte, ok_bind, names, require,
    indexed.entries.scalarOneOrNone_filter, present, and_self]
  cases found : get ClientShortlistEntry.place desk.entries (clientSearchPresetId, target) with
  | none =>
      refine ⟨_, rfl, present, indexed.selections, ?_, ?_, _, rfl, rfl⟩
      · exact UniqueIndex.insert indexed.entries fun _ row member _ =>
          get_eq_none.mp found row member
      · exact others fun place => get_column_insert ClientShortlistEntry.entryStatus found place
  | some row =>
      refine ⟨_, rfl, present, indexed.selections, ?_, ?_, _, rfl, rfl⟩
      · exact UniqueIndex.updateWhere indexed.entries fun _ _ _ _ => ⟨trivial, rfl⟩
      · exact others fun place => get_column_update ClientShortlistEntry.entryStatus found
          (fun _ => by rfl) (fun _ => by rfl) place

/-- A selection by anything but a human, or of a target that is not there, is refused. -/
theorem setSelection_refused (indexed : Indexed catalog desk) (now : Timestamp)
    {canonicalListingId companyPropertyId : Option Uuid} (status : SelectionStatus)
    (actor : String) {actorType : ActorType} (note : Option String)
    (silent : ∀ target, target? canonicalListingId companyPropertyId = some target →
      ¬ (actorType = .human ∧ catalog.Has target)) :
    ∃ failure, desk.setSelection ids catalog now canonicalListingId companyPropertyId status actor
      actorType note = .error failure := by
  unfold setSelection
  by_cases human : actorType = .human
  · simp only [refuse, ne_eq, human, not_true_eq_false, ↓reduceIte, ok_bind]
    cases names : target? canonicalListingId companyPropertyId with
    | none => exact ⟨.notOneTarget, rfl⟩
    | some target =>
        have unknown : ¬ catalog.Has target := fun present => silent target names ⟨human, present⟩
        have absent : get MarketingSelection.target desk.selections target = none := by
          cases found : get MarketingSelection.target desk.selections target with
          | none => rfl
          | some row =>
              refine absurd (indexed.known (.selection target) row.selectionStatus.value ?_) unknown
              rw [valueAt, selectionStatus, found]
              rfl
        simp only [require, ok_bind, indexed.selections.scalarOneOrNone_filter, absent, unknown,
          not_false_eq_true, ↓reduceIte]
        exact ⟨.integrityError, rfl⟩
  · simp only [refuse, ne_eq, human, not_false_eq_true, ↓reduceIte]
    exact ⟨.humanActionRequired, rfl⟩

/-- An entry by anything but a human, or of a target that is not there, is refused. -/
theorem setEntry_refused (indexed : Indexed catalog desk) (now : Timestamp)
    {clientSearchPresetId : Uuid} {canonicalListingId companyPropertyId : Option Uuid}
    (status : ShortlistEntryStatus) (actor : String) {actorType : ActorType}
    (note : Option String)
    (silent : ∀ target, target? canonicalListingId companyPropertyId = some target →
      ¬ (actorType = .human ∧ clientSearchPresetId ∈ catalog.presetIds ∧ catalog.Has target)) :
    ∃ failure, desk.setEntry ids catalog now clientSearchPresetId canonicalListingId
      companyPropertyId status actor actorType note = .error failure := by
  unfold setEntry
  by_cases human : actorType = .human
  · simp only [refuse, ne_eq, human, not_true_eq_false, ↓reduceIte, ok_bind]
    cases names : target? canonicalListingId companyPropertyId with
    | none => exact ⟨.notOneTarget, rfl⟩
    | some target =>
        have unknown : ¬ (clientSearchPresetId ∈ catalog.presetIds ∧ catalog.Has target) :=
          fun present => silent target names ⟨human, present⟩
        have absent : get ClientShortlistEntry.place desk.entries (clientSearchPresetId, target) =
            none := by
          cases found : get ClientShortlistEntry.place desk.entries
              (clientSearchPresetId, target) with
          | none => rfl
          | some row =>
              refine absurd (indexed.known (.entry clientSearchPresetId target)
                row.entryStatus.value ?_) unknown
              rw [valueAt, entryStatus, found]
              rfl
        simp only [require, ok_bind, indexed.entries.scalarOneOrNone_filter, absent, unknown,
          not_false_eq_true, ↓reduceIte]
        exact ⟨.integrityError, rfl⟩
  · simp only [refuse, ne_eq, human, not_false_eq_true, ↓reduceIte]
    exact ⟨.humanActionRequired, rfl⟩

/-- A call that names no target writes nothing, and neither does one of the system or one
of a target that does not exist. -/
theorem write?_eq_none {call : SelectionCall} : call.write? catalog = none ↔
    ∀ slot, call.slot? = some slot → ¬ (call.actorType = .human ∧ catalog.Holds slot) := by
  unfold SelectionCall.write?
  cases call.slot? with
  | none => simp
  | some slot => simp

/-- A call writes when a human makes it about a slot that the catalog holds. -/
theorem write?_eq_some {call : SelectionCall} {write : Slot × String} :
    call.write? catalog = some write ↔ call.slot? = some write.1 ∧ call.actorType = .human ∧
      catalog.Holds write.1 ∧ call.value = write.2 := by
  unfold SelectionCall.write?
  cases call.slot? with
  | none => simp
  | some slot =>
      dsimp only
      rw [Option.some.injEq]
      constructor
      · intro chosen
        split at chosen
        · cases chosen
          rename_i both
          exact ⟨rfl, both.1, both.2, rfl⟩
        · cases chosen
      · rintro ⟨rfl, human, holds, same⟩
        rw [if_pos ⟨human, holds⟩, same]

/-- A call is accepted just when it has a write, and it writes that. -/
theorem perform_writes (ids : IdSupply) (indexed : Indexed catalog desk)
    (call : SelectionCall) :
    match call.write? catalog with
    | some write => ∃ next, desk.perform ids catalog call = .ok next ∧
        Writes catalog write desk next
    | none => ∃ failure, desk.perform ids catalog call = .error failure := by
  cases accepted : call.write? catalog with
  | none =>
      have silent := write?_eq_none.mp accepted
      cases call with
      | setSelection now canonicalListingId companyPropertyId status actor actorType note =>
          obtain ⟨failure, failed⟩ : ∃ failure, desk.setSelection ids catalog now
              canonicalListingId companyPropertyId status actor actorType note = .error failure :=
            setSelection_refused indexed now status actor note fun target names =>
              silent (.selection target) (by rw [SelectionCall.slot?, names]; rfl)
          exact ⟨failure, by rw [perform, failed]; rfl⟩
      | setEntry now preset canonicalListingId companyPropertyId status actor actorType note =>
          obtain ⟨failure, failed⟩ : ∃ failure, desk.setEntry ids catalog now preset
              canonicalListingId companyPropertyId status actor actorType note = .error failure :=
            setEntry_refused indexed now status actor note fun target names =>
              silent (.entry preset target) (by rw [SelectionCall.slot?, names]; rfl)
          exact ⟨failure, by rw [perform, failed]; rfl⟩
  | some write =>
      obtain ⟨slot, value⟩ := write
      obtain ⟨names, human, holds, rfl⟩ := write?_eq_some.mp accepted
      cases call with
      | setSelection now canonicalListingId companyPropertyId status actor actorType note =>
          obtain rfl : actorType = .human := human
          obtain ⟨target, named, rfl⟩ := Option.map_eq_some_iff.mp names
          obtain ⟨result, done, wrote⟩ : ∃ result, desk.setSelection ids catalog now
              canonicalListingId companyPropertyId status actor .human note = .ok result ∧ _ :=
            setSelection_writes indexed now status actor note named holds
          exact ⟨result.1, by rw [perform, done]; rfl, wrote⟩
      | setEntry now preset canonicalListingId companyPropertyId status actor actorType note =>
          obtain rfl : actorType = .human := human
          obtain ⟨target, named, rfl⟩ := Option.map_eq_some_iff.mp names
          obtain ⟨result, done, wrote⟩ : ∃ result, desk.setEntry ids catalog now preset
              canonicalListingId companyPropertyId status actor .human note = .ok result ∧ _ :=
            setEntry_writes indexed now status actor note named holds
          exact ⟨result.1, by rw [perform, done]; rfl, wrote⟩

/-- An accepted call is one write; the others leave the desk as it is. -/
theorem step_follows (ids : IdSupply) (follows : Follows catalog writes desk)
    (call : SelectionCall) :
    Follows catalog (writes ++ (call.write? catalog).toList) (desk.step ids catalog call) := by
  have performed := perform_writes ids follows.indexed call
  unfold step
  cases accepted : call.write? catalog with
  | none =>
      rw [accepted] at performed
      obtain ⟨failure, failed⟩ := performed
      rw [failed, Option.toList_none, List.append_nil]
      exact follows
  | some write =>
      rw [accepted] at performed
      obtain ⟨next, done, wrote⟩ := performed
      rw [done]
      exact follows.follow wrote

/-- **Last writes.** After a run the desk is the store of the writes of its accepted calls,
and its log records them in order. -/
theorem follows_run (ids : IdSupply) (catalog : Catalog) (calls : List SelectionCall) :
    Follows catalog (calls.filterMap (SelectionCall.write? catalog))
      (reached ids catalog calls) := by
  have rounds : ∀ (calls : List SelectionCall) (writes : List (Slot × String)) (desk : Desk),
      Follows catalog writes desk →
        Follows catalog (writes ++ calls.filterMap (SelectionCall.write? catalog))
          (run (step ids catalog) desk calls) := by
    intro calls
    induction calls with
    | nil =>
        intro writes desk follows
        rw [List.filterMap_nil, List.append_nil]
        exact follows
    | cons call rest ih =>
        intro writes desk follows
        have later := ih _ _ (step_follows ids follows call)
        rw [List.append_assoc] at later
        cases accepted : call.write? catalog with
        | none =>
            rw [List.filterMap_cons_none accepted]
            rwa [accepted] at later
        | some write =>
            rw [List.filterMap_cons_some accepted]
            rwa [accepted] at later
  exact rounds calls [] empty (follows_empty catalog)

/-! ## What the log determines -/

/-- The slots that calls within the pairs can write. -/
def Slot.Within (catalog : Catalog) (pairs : Set (Uuid × Target)) : Set Slot :=
  {slot | ∀ clientSearchPresetId target, slot = .entry clientSearchPresetId target →
    (clientSearchPresetId, target) ∈ pairs ∩ catalog.pairs}

/-- Calls within some pairs write within them. -/
theorem writes_within {pairs : Set (Uuid × Target)} {calls : List SelectionCall}
    (within : ∀ call ∈ calls, call.Within pairs) :
    LastWrite.Within (Slot.Within catalog pairs)
      (calls.filterMap (SelectionCall.write? catalog)) := by
  rintro write member preset target same
  obtain ⟨call, inside, accepted⟩ := List.mem_filterMap.mp member
  obtain ⟨names, _, holds, _⟩ := write?_eq_some.mp accepted
  rw [same] at names holds
  refine ⟨?_, holds⟩
  cases call with
  | setSelection now listingId propertyId status actor actorType note =>
      obtain ⟨_, _, differs⟩ := Option.map_eq_some_iff.mp names
      cases differs
  | setEntry now clientSearchPresetId listingId propertyId status actor actorType note =>
      obtain ⟨_, named, equal⟩ := Option.map_eq_some_iff.mp names
      cases equal
      exact within _ inside _ named

/-- Records tell writes apart when their targets tell the presets apart. -/
theorem record_apart {pairs : Set (Uuid × Target)}
    (apart : Set.InjOn (fun pair => pair.2.id) (pairs ∩ catalog.pairs))
    (first second : Slot × String) (firstIn : first.1 ∈ Slot.Within catalog pairs)
    (secondIn : second.1 ∈ Slot.Within catalog pairs) (same : record first = record second) :
    first = second := by
  obtain ⟨slot, value⟩ := first
  obtain ⟨other, otherValue⟩ := second
  simp only [record, Prod.mk.injEq, Option.some.injEq, List.cons.injEq, JsonScalar.text.injEq,
    and_true] at same
  obtain ⟨labels, _, rfl⟩ := same
  congr 1
  cases slot with
  | selection target =>
      cases other with
      | selection otherTarget =>
          cases target <;> cases otherTarget <;>
            simp_all [Slot.label, Target.type, Target.id]
      | entry preset otherTarget => simp [Slot.label] at labels
  | entry preset target =>
      cases other with
      | selection otherTarget => simp [Slot.label] at labels
      | entry otherPreset otherTarget =>
          simp only [Slot.label, Prod.mk.injEq, true_and] at labels
          have equal := apart (firstIn preset target rfl) (secondIn otherPreset otherTarget rfl)
            labels
          cases equal
          rfl

/-- Where ids tell the targets of the pairs apart, desks with one log have the same statuses. -/
theorem sameStatuses_of_log {pairs : Set (Uuid × Target)}
    (apart : Set.InjOn (fun pair => pair.2.id) (pairs ∩ catalog.pairs))
    {first second : List SelectionCall} (firstWithin : ∀ call ∈ first, call.Within pairs)
    (secondWithin : ∀ call ∈ second, call.Within pairs)
    (logs : (reached ids catalog first).logContents = (reached ids catalog second).logContents) :
    SameStatuses (reached ids catalog first) (reached ids catalog second) := by
  have firstFollows := follows_run ids catalog first
  have secondFollows := follows_run ids catalog second
  have records := firstFollows.logged
  rw [logs, secondFollows.logged] at records
  have writes := LastWrite.eq_of_log (record_apart apart) (writes_within secondWithin)
    (writes_within firstWithin) records
  refine sameStatuses_iff.mpr fun slot => ?_
  rw [firstFollows.values, secondFollows.values, writes]

/-- A human puts the target on the shortlist of the preset. -/
def includes (clientSearchPresetId : Uuid) : Target → SelectionCall
  | .listing id => .setEntry 0 clientSearchPresetId (some id) none .included "" .human none
  | .property id => .setEntry 0 clientSearchPresetId none (some id) .included "" .human none

theorem includes_write? {clientSearchPresetId : Uuid} {target : Target}
    (present : (clientSearchPresetId, target) ∈ catalog.pairs) :
    (includes clientSearchPresetId target).write? catalog =
      some (.entry clientSearchPresetId target, "INCLUDED") := by
  cases target <;> exact write?_eq_some.mpr ⟨rfl, rfl, present, rfl⟩

theorem includes_valueAt {clientSearchPresetId : Uuid} {target : Target}
    (present : (clientSearchPresetId, target) ∈ catalog.pairs) (slot : Slot) :
    (reached ids catalog [includes clientSearchPresetId target]).valueAt slot =
      if slot = .entry clientSearchPresetId target then some "INCLUDED" else none := by
  rw [(follows_run ids catalog _).values, List.filterMap_cons_some (includes_write? present)]
  exact LastWrite.stored_concat [] _ slot

/-- The record of a new entry names the target and nothing of the preset. -/
theorem reached_includes {clientSearchPresetId : Uuid} {target : Target}
    (present : (clientSearchPresetId, target) ∈ catalog.pairs) :
    (reached ids catalog [includes clientSearchPresetId target]).logContents =
      [{ actionLogId := 0
         actor := ""
         actorType := .human
         actionType := "client_shortlist_change"
         targetType := "client_shortlist_entry"
         targetId := target.id
         afterValues := some [("entry_status", .text "INCLUDED")]
         reason := none }] := by
  obtain ⟨known, has⟩ := present
  cases target <;>
    simp only [reached, run_cons, run_nil, includes, step, perform, setEntry, refuse, ne_eq,
      not_true_eq_false, ↓reduceIte, ok_bind, require, target?, empty, List.filter_nil,
      scalarOneOrNone_nil, known, has, and_self] <;> rfl

/-- A call that is not a human's is refused. -/
theorem step_of_system (desk : Desk) {call : SelectionCall} (system : call.actorType = .system) :
    desk.step ids catalog call = desk := by
  cases call <;> obtain rfl := system <;> rfl

/-- A call on a selection leaves the entries alone. -/
theorem step_selection_entries (desk : Desk) {call : SelectionCall} (kind : call.isEntry = false) :
    (desk.step ids catalog call).entries = desk.entries := by
  unfold step
  cases done : desk.perform ids catalog call with
  | error failure => rfl
  | ok next =>
      cases call with
      | setEntry => cases kind
      | setSelection now listingId propertyId status actor actorType note =>
          simp only [perform, setSelection, bind_eq_ok] at done
          obtain ⟨_, ⟨_, _, target, _, current, _, wrote⟩, returned⟩ := done
          cases returned
          cases current with
          | none =>
              obtain ⟨_, _, row⟩ := bind_eq_ok.mp wrote
              cases row
              rfl
          | some row =>
              cases wrote
              rfl

/-- A call on an entry leaves the selections alone. -/
theorem step_entry_selections (desk : Desk) {call : SelectionCall} (kind : call.isEntry = true) :
    (desk.step ids catalog call).selections = desk.selections := by
  unfold step
  cases done : desk.perform ids catalog call with
  | error failure => rfl
  | ok next =>
      cases call with
      | setSelection => cases kind
      | setEntry now preset listingId propertyId status actor actorType note =>
          simp only [perform, setEntry, bind_eq_ok] at done
          obtain ⟨_, ⟨_, _, target, _, entry, _, wrote⟩, returned⟩ := done
          cases returned
          cases entry with
          | none =>
              obtain ⟨_, _, row⟩ := bind_eq_ok.mp wrote
              cases row
              rfl
          | some row =>
              cases wrote
              rfl

/-- **Audit log.** For histories over some pairs of presets and targets the audit log
determines every status just when the ids of the targets tell the existing pairs apart;
calls of the system change nothing, and neither service writes the other's table. -/
theorem log_determines_iff (ids : IdSupply) (catalog : Catalog) (pairs : Set (Uuid × Target)) :
    ((∀ first second : List SelectionCall, (∀ call ∈ first, call.Within pairs) →
        (∀ call ∈ second, call.Within pairs) →
        (reached ids catalog first).logContents = (reached ids catalog second).logContents →
          SameStatuses (reached ids catalog first) (reached ids catalog second)) ↔
      Set.InjOn (fun pair => pair.2.id) (pairs ∩ catalog.pairs)) ∧
    (∀ desk call, call.actorType = .system → step ids catalog desk call = desk) ∧
    (∀ desk call, call.isEntry = false → (step ids catalog desk call).entries = desk.entries) ∧
    ∀ desk call, call.isEntry = true →
      (step ids catalog desk call).selections = desk.selections := by
  refine ⟨⟨fun determined => ?_, fun apart first second firstWithin secondWithin logs =>
    sameStatuses_of_log apart firstWithin secondWithin logs⟩,
    fun desk call => step_of_system desk, fun desk call => step_selection_entries desk,
    fun desk call => step_entry_selections desk⟩
  rintro ⟨preset, target⟩ ⟨inside, present⟩ ⟨other, otherTarget⟩ ⟨otherInside, otherPresent⟩ same
  have within : ∀ {preset target}, (preset, target) ∈ pairs →
      ∀ call ∈ [includes preset target], call.Within pairs := by
    intro preset target member call called
    obtain rfl := List.mem_singleton.mp called
    cases target <;> rintro _ ⟨⟩ <;> exact member
  have statuses := determined [includes preset target] [includes other otherTarget]
    (within inside) (within otherInside) (by
      dsimp only at same
      rw [reached_includes present, reached_includes otherPresent, same])
  have values := sameStatuses_iff.mp statuses (.entry preset target)
  rw [includes_valueAt present, includes_valueAt otherPresent, if_pos rfl] at values
  by_contra differ
  rw [if_neg fun equal => differ (congrArg₂ Prod.mk (Slot.entry.inj equal).1
    (Slot.entry.inj equal).2)] at values
  cases values

/-- Two clients, and a listing that either may take. -/
def twoClients : Catalog where
  presetIds := [1, 2]
  listingIds := [7]
  propertyIds := []

/-- The log does not tell for which client the listing was included. -/
theorem twoClients_not_determined :
    ¬ ∀ first second : List SelectionCall,
      (reached countingIds twoClients first).logContents =
          (reached countingIds twoClients second).logContents →
        SameStatuses (reached countingIds twoClients first)
          (reached countingIds twoClients second) := by
  intro determined
  have statuses := (determined [includes 1 (.listing 7)] [includes 2 (.listing 7)] (by decide)).2
    1 (.listing 7)
  exact absurd statuses (by decide)

end Desk

end RentalAgent
