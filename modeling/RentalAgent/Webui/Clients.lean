import Mathlib.Data.List.Sort
import Mathlib.Logic.Function.Basic
import RentalAgent.Acquisition.ParseSnippet
import RentalAgent.Canonical.Selection
import RentalAgent.Foundation.Joins
import RentalAgent.Foundation.Simulation

/-! # Clients

The operator adds clients under pseudonyms, describes what they need, puts listings and
properties of the company on their shortlists, removes clients and adds them again, and selects
targets for the market. A client is a saved search: the handlers of the page find it by its
label but for case, and the services of `ClientShortlistService` archive and restore it.

Over them stands a directory, which says what this is for: one client for each name but for
case, who comes back with profile and shortlist when added again, and a selection for the
market that is independent of all clients. Labels are texts that the database can hold and
index: a NUL, or a label too long for the index, makes the request fail there. The desk
simulates the directory in every run in which the two lower cases, of Python and of the
database, agree on the labels, and then no request for a client fails
(`ClientDesk.simulates_directory`).
-/

namespace RentalAgent

open Relational Transition

/-! ## Profiles -/

/-- What the form of a profile sends: the first value of each field, empty when it is absent,
and all values of `layouts`. -/
structure ProfileForm where
  budgetMin : String := ""
  budgetMax : String := ""
  annualIncome : String := ""
  householdSize : String := ""
  layouts : List String := []
  gender : String := ""
  pets : String := ""
  guarantor : String := ""
  areas : String := ""
  moveIn : String := ""
  notes : String := ""

/-- A profile: its keys, with no value where they are absent. -/
structure ClientProfile where
  schemaVersion : Nat
  budgetMin : Option Nat
  budgetMax : Option Nat
  annualIncome : Option Nat
  householdSize : Option Nat
  layouts : List String
  gender : Option String
  pets : Option String
  guarantor : Option String
  areas : Option String
  moveIn : Option String
  notes : Option String
  deriving DecidableEq

/-- The exceptions of the handlers. -/
inductive ClientError
  /-- `HumanActionRequired`. -/
  | humanActionRequired
  /-- `ValueError`: "client preset not found". -/
  | presetNotFound
  /-- `ValueError`: "invalid literal for int()", or more digits than `int` reads. -/
  | invalidNumber
  /-- `IntegrityError`: the label of another preset. -/
  | labelTaken
  /-- An exception of `set_entry` or `set_selection`. -/
  | selection (failure : SelectionError)
  deriving DecidableEq

/-- What the handlers read: the configured operator, the tables of Python, the lower case of the
database, and where a scan meets a preset. -/
structure ClientEnvironment where
  ids : IdSupply
  operatorId : String
  tables : TextTables
  isDigit : Char → Bool
  sqlLower : List Char → List Char
  scan : Uuid → Nat

/-- `str.strip`. -/
def stripped (text : String) : String := String.ofList (strip text.toList)

namespace ClientEnvironment

variable (env : ClientEnvironment)

/-- `int`, which reads up to 4300 digits. -/
def int (digits : List Char) : Except ClientError Nat := do
  refuse (4300 < digits.length) .invalidNumber
  require .invalidNumber (env.tables.readInt digits)

/-- A number of the form; `isdigit` holds of more than what `int` reads. -/
def formNumber (raw : String) : Except ClientError (Option Nat) := do
  let digits := strip (raw.toList.filter (· ≠ ','))
  if digits ≠ [] ∧ digits.all env.isDigit = true then
    let value ← env.int digits
    return if 0 < value then some value else none
  else return none

/-- The profile that `update_client_profile` makes of the form. -/
def profileOf (form : ProfileForm) : Except ClientError ClientProfile := do
  let budgetMin ← env.formNumber form.budgetMin
  let budgetMax ← env.formNumber form.budgetMax
  let annualIncome ← env.formNumber form.annualIncome
  let householdSize ← env.formNumber form.householdSize
  let oneOf (values : List String) (value : String) : Option String :=
    if value ∈ values then some value else none
  return {
    schemaVersion := 1
    budgetMin := budgetMin
    budgetMax := budgetMax
    annualIncome := annualIncome
    householdSize := householdSize
    layouts := form.layouts.filter fun value => value ∈ ["Studio", "1BR", "2BR"]
    gender := oneOf ["male", "female"] form.gender
    pets := oneOf ["yes", "no"] form.pets
    guarantor := oneOf ["yes", "no"] form.guarantor
    areas := truthy (some (stripped form.areas))
    moveIn := truthy (some (stripped form.moveIn))
    notes := truthy (some (stripped form.notes)) }

/-- The label as `lower` of the database has it. -/
def nameOf (label : String) : List Char := env.sqlLower label.toList

/-- The label as `str.lower` has it. -/
def lower (label : String) : List Char := env.tables.lower label.toList

end ClientEnvironment

/-! ## Presets -/

/-- A row of `app.client_search_preset`; of its filters only the profile is ever written. -/
structure ClientSearchPreset where
  clientSearchPresetId : Uuid
  label : String
  clientProfile : Option ClientProfile
  filterSchemaVersion : String
  createdBy : String
  createdAt : Timestamp
  archivedAt : Option Timestamp
  deriving DecidableEq

namespace ClientSearchPreset

variable (preset : ClientSearchPreset)

def described (profile : ClientProfile) : ClientSearchPreset :=
  { preset with clientProfile := some profile }

def restored : ClientSearchPreset := { preset with archivedAt := none }

def archived (now : Timestamp) : ClientSearchPreset := { preset with archivedAt := some now }

end ClientSearchPreset

/-- The values that an audit record of a preset has. -/
inductive PresetValues
  | label (label : String)
  | clientProfile (profile : Option ClientProfile)
  deriving DecidableEq

/-- A row of `audit.action_log` about a preset; the record of a new one has no target. -/
structure PresetActionLog where
  actionLogId : Uuid
  actor : String
  actorType : ActorType
  actionType : String
  targetId : Option Uuid
  beforeValues : Option PresetValues := none
  afterValues : PresetValues
  deriving DecidableEq

/-- The desk of the two services with the presets, and the targets that exist. -/
structure ClientDesk extends Desk where
  listingIds : List Uuid
  propertyIds : List Uuid
  presets : List ClientSearchPreset
  presetLog : List PresetActionLog
  deriving DecidableEq

/-- Where a handler redirects to. -/
inductive Redirect
  | clients (client : Option Uuid) (error started : Option String)
  | page (url : String)
  deriving DecidableEq

/-- `_safe_next`. -/
def safeNext (raw : String) (fallback : Redirect) : Redirect :=
  if "/".toList <+: raw.toList ∧ ¬ "//".toList <+: raw.toList then .page raw else fallback

namespace ClientDesk

/-- No rows. -/
def empty : ClientDesk where
  toDesk := .empty
  listingIds := []
  propertyIds := []
  presets := []
  presetLog := []

/-- The rows that the foreign keys of selections and entries refer to. -/
def catalog (desk : ClientDesk) : Catalog where
  presetIds := desk.presets.map ClientSearchPreset.clientSearchPresetId
  listingIds := desk.listingIds
  propertyIds := desk.propertyIds

variable (env : ClientEnvironment) (desk : ClientDesk)

/-! ## Services -/

/-- `ClientShortlistService.create_preset`, with an empty filter definition. -/
def createPreset (now : Timestamp) (label : String) (actor : String) (actorType : ActorType) :
    Except ClientError (ClientDesk × ClientSearchPreset) := do
  refuse (actorType ≠ .human) .humanActionRequired
  refuse (label ∈ desk.presets.map ClientSearchPreset.label) .labelTaken
  let preset : ClientSearchPreset :=
    { clientSearchPresetId := env.ids.uuid desk.drawn
      label := label
      clientProfile := none
      filterSchemaVersion := "1"
      createdBy := actor
      createdAt := now
      archivedAt := none }
  let audit : PresetActionLog :=
    { actionLogId := env.ids.uuid (desk.drawn + 1)
      actor := actor
      actorType := actorType
      actionType := "client_preset_created"
      targetId := none
      afterValues := .label label }
  return ({ desk with
    drawn := desk.drawn + 2
    presets := desk.presets ++ [preset]
    presetLog := desk.presetLog ++ [audit] }, preset)

/-- The frame of the services that change one preset. -/
def changePreset (id : Uuid) (actor : String) (actorType : ActorType) (actionType : String)
    (change : ClientSearchPreset → ClientSearchPreset)
    (before : ClientSearchPreset → Option PresetValues)
    (after : ClientSearchPreset → PresetValues) :
    Except ClientError (ClientDesk × ClientSearchPreset) := do
  refuse (actorType ≠ .human) .humanActionRequired
  let preset ← require .presetNotFound
    (get ClientSearchPreset.clientSearchPresetId desk.presets id)
  let audit : PresetActionLog :=
    { actionLogId := env.ids.uuid desk.drawn
      actor := actor
      actorType := actorType
      actionType := actionType
      targetId := some id
      beforeValues := before preset
      afterValues := after preset }
  return ({ desk with
    drawn := desk.drawn + 1
    presets := updateWhere (fun row => row.clientSearchPresetId = id) change desk.presets
    presetLog := desk.presetLog ++ [audit] }, change preset)

/-- `ClientShortlistService.update_profile`. -/
def updateProfile (id : Uuid) (profile : ClientProfile) (actor : String)
    (actorType : ActorType) : Except ClientError (ClientDesk × ClientSearchPreset) :=
  desk.changePreset env id actor actorType "client_profile_updated"
    (fun preset => preset.described profile)
    (fun preset => some (.clientProfile preset.clientProfile))
    (fun _ => .clientProfile (some profile))

/-- `ClientShortlistService.restore_preset`. -/
def restorePreset (id : Uuid) (actor : String) (actorType : ActorType) :
    Except ClientError (ClientDesk × ClientSearchPreset) :=
  desk.changePreset env id actor actorType "client_preset_restored"
    ClientSearchPreset.restored (fun _ => none)
    (fun preset => .label preset.label)

/-- `ClientShortlistService.archive_preset`. -/
def archivePreset (now : Timestamp) (id : Uuid) (actor : String) (actorType : ActorType) :
    Except ClientError (ClientDesk × ClientSearchPreset) :=
  desk.changePreset env id actor actorType "client_preset_archived"
    (fun preset => preset.archived now) (fun _ => none)
    (fun preset => .label preset.label)

/-- A call of `set_entry` or `set_selection`. -/
def call (request : SelectionCall) : Except ClientError ClientDesk :=
  match desk.toDesk.perform env.ids desk.catalog request with
  | .ok next => .ok { desk with toDesk := next }
  | .error failure => .error (.selection failure)

/-! ## Handlers -/

/-- The preset that `create_preset` finds: the first in a scan of those with the label but for
case. -/
def namesake (label : String) : Option ClientSearchPreset :=
  ((desk.presets.filter fun preset => env.nameOf preset.label = env.lower label).insertionSort
    fun first second => env.scan first.clientSearchPresetId ≤
      env.scan second.clientSearchPresetId).head?

/-- The handler `create_preset`. -/
def addClient (now : Timestamp) (raw : String) : Except ClientError (ClientDesk × Redirect) := do
  let label := stripped raw
  if label = "" then
    return (desk, .clients none (some "Client name cannot be empty") none)
  match desk.namesake env label with
  | some preset =>
      if preset.archivedAt = none then
        return (desk, .clients none (some ("Client “" ++ preset.label ++ "” already exists")) none)
      else
        let (next, _) ← desk.restorePreset env preset.clientSearchPresetId env.operatorId .human
        return (next, .clients (some preset.clientSearchPresetId) none
          (some ("Restored previously removed client “" ++ preset.label ++
            "” with its saved entries")))
  | none =>
      let (next, _) ← desk.createPreset env now label env.operatorId .human
      return (next, .clients none none none)

/-- The handler `update_client_profile`. -/
def updateClientProfile (id : Uuid) (form : ProfileForm) :
    Except ClientError (ClientDesk × Redirect) := do
  let profile ← env.profileOf form
  let (next, _) ← desk.updateProfile env id profile env.operatorId .human
  return (next, .clients (some id) none none)

/-- The handler `archive_client`. -/
def archiveClient (now : Timestamp) (id : Uuid) : Except ClientError (ClientDesk × Redirect) := do
  let (next, _) ← desk.archivePreset env now id env.operatorId .human
  return (next, .clients none none none)

/-- The frame of `add_shortlist_entry` and `remove_shortlist_entry`. -/
def writeEntry (now : Timestamp) (presetId : Uuid) (listingId companyId : Option Uuid)
    (status : ShortlistEntryStatus) (note : Option String) (back : Redirect) :
    Except ClientError (ClientDesk × Redirect) := do
  if target? listingId companyId = none then
    return (desk, .clients none none none)
  else
    let next ← desk.call env
      (.setEntry now presetId listingId companyId status env.operatorId .human note)
    return (next, back)

/-- The handler `add_shortlist_entry`. -/
def addShortlistEntry (now : Timestamp) (presetId : Uuid) (listingId companyId : Option Uuid)
    (note back : String) : Except ClientError (ClientDesk × Redirect) :=
  desk.writeEntry env now presetId listingId companyId .included (truthy (some note))
    (safeNext back (.clients (some presetId) none none))

/-- The handler `remove_shortlist_entry`. -/
def removeShortlistEntry (now : Timestamp) (presetId : Uuid)
    (listingId companyId : Option Uuid) : Except ClientError (ClientDesk × Redirect) :=
  desk.writeEntry env now presetId listingId companyId .removed none
    (.clients (some presetId) none none)

/-- What a toggle sets. -/
def toggled (selected : Bool) : SelectionStatus := if selected then .removed else .selected

/-- The handler `toggle_select`; `listing_detail` knows the selections of listings that exist. -/
def toggleSelect (now : Timestamp) (listingId : Uuid) (back : String) :
    Except ClientError (ClientDesk × Redirect) := do
  let selected := decide (listingId ∈ desk.listingIds) &&
    decide (desk.selectionStatus (.listing listingId) = some .selected)
  let next ← desk.call env
    (.setSelection now (some listingId) none (toggled selected) env.operatorId .human none)
  return (next, safeNext back (.page "/inventory"))

/-- The handler `toggle_company_select`. -/
def toggleCompanySelect (now : Timestamp) (companyPropertyId : Uuid) (back : String) :
    Except ClientError (ClientDesk × Redirect) := do
  let selected := decide (desk.selectionStatus (.property companyPropertyId) = some .selected)
  let next ← desk.call env (.setSelection now none (some companyPropertyId) (toggled selected)
    env.operatorId .human none)
  return (next, safeNext back (.page "/inventory"))

/-- The handler `company_delete`: the selections and the entries of the property go with it. -/
def companyDelete (propertyId : Uuid) : ClientDesk :=
  if propertyId ∈ desk.propertyIds then
    { desk with
      propertyIds := desk.propertyIds.filter (· ≠ propertyId)
      selections := desk.selections.filter fun row => row.target ≠ .property propertyId
      entries := desk.entries.filter fun row => row.target ≠ .property propertyId }
  else desk

end ClientDesk

/-! ## Runs -/

/-- What happens at the desk: ingestion and uploads bring targets, and the operator's requests,
with the clock reading each one meets. -/
inductive ClientAction
  | listingEntered (listingId : Uuid)
  | propertyUploaded (companyPropertyId : Uuid)
  | companyDelete (companyPropertyId : Uuid)
  | createPreset (now : Timestamp) (label : String)
  | updateClientProfile (presetId : Uuid) (form : ProfileForm)
  | archiveClient (now : Timestamp) (presetId : Uuid)
  | addShortlistEntry (now : Timestamp) (presetId : Uuid) (listingId companyId : Option Uuid)
      (note back : String)
  | removeShortlistEntry (now : Timestamp) (presetId : Uuid) (listingId companyId : Option Uuid)
  | toggleSelect (now : Timestamp) (listingId : Uuid) (back : String)
  | toggleCompanySelect (now : Timestamp) (companyPropertyId : Uuid) (back : String)

/-- The two lower cases agree on the label that is asked for. -/
def ClientEnvironment.Agrees (env : ClientEnvironment) : ClientAction → Prop
  | .createPreset _ raw => env.nameOf (stripped raw) = env.lower (stripped raw)
  | _ => True

namespace ClientDesk

variable (env : ClientEnvironment) (desk : ClientDesk)

/-- The desk after an action, or the exception that its handler raises. -/
def perform : ClientAction → Except ClientError ClientDesk
  | .listingEntered listingId => .ok { desk with listingIds := desk.listingIds ++ [listingId] }
  | .propertyUploaded companyPropertyId =>
      .ok { desk with propertyIds := desk.propertyIds ++ [companyPropertyId] }
  | .companyDelete companyPropertyId => .ok (desk.companyDelete companyPropertyId)
  | .createPreset now label => Prod.fst <$> desk.addClient env now label
  | .updateClientProfile presetId form => Prod.fst <$> desk.updateClientProfile env presetId form
  | .archiveClient now presetId => Prod.fst <$> desk.archiveClient env now presetId
  | .addShortlistEntry now presetId listingId companyId note back =>
      Prod.fst <$> desk.addShortlistEntry env now presetId listingId companyId note back
  | .removeShortlistEntry now presetId listingId companyId =>
      Prod.fst <$> desk.removeShortlistEntry env now presetId listingId companyId
  | .toggleSelect now listingId back => Prod.fst <$> desk.toggleSelect env now listingId back
  | .toggleCompanySelect now companyPropertyId back =>
      Prod.fst <$> desk.toggleCompanySelect env now companyPropertyId back

/-- One action as a transaction. -/
def step (desk : ClientDesk) (action : ClientAction) : ClientDesk :=
  match desk.perform env action with
  | .ok next => next
  | .error _ => desk

/-- The desk after the actions, from empty tables. -/
abbrev reached (actions : List ClientAction) : ClientDesk := run (step env) empty actions

end ClientDesk

/-! ## The directory -/

/-- A client, as the operator knows it. -/
structure Client where
  presetId : Uuid
  live : Bool
  profile : Option ClientProfile
  shortlist : Target → Option ShortlistEntryStatus

/-- The targets there are, their selections for the market, and the client of each name. -/
@[ext]
structure Directory where
  targets : Set Target
  market : Target → Option SelectionStatus
  clients : List Char → Option Client

/-- What is asked of a directory. -/
inductive DirectoryRequest
  | offer (target : Target)
  | withdraw (target : Target)
  | enroll (name : List Char) (newId : Uuid)
  | describe (name : List Char) (profile : ClientProfile)
  | dismiss (name : List Char)
  | file (name : List Char) (target : Target) (status : ShortlistEntryStatus)
  | toggle (target : Target)

namespace Client

/-- A client who was never here before. -/
def new (presetId : Uuid) : Client where
  presetId := presetId
  live := true
  profile := none
  shortlist _ := none

def described (profile : ClientProfile) (client : Client) : Client :=
  { client with profile := some profile }

def returned (client : Client) : Client := { client with live := true }

def dismissed (client : Client) : Client := { client with live := false }

/-- A target is put on the shortlist, or taken off. -/
def listing (target : Target) (status : Option ShortlistEntryStatus) (client : Client) :
    Client :=
  { client with shortlist := Function.update client.shortlist target status }

/-- A client who was here before comes back, and another is new. -/
def enrolled (newId : Uuid) : Option Client → Client
  | some client => client.returned
  | none => new newId

end Client

namespace Directory

/-- Nobody and nothing. -/
def empty : Directory where
  targets := ∅
  market _ := none
  clients _ := none

/-- The client of the name is changed. -/
def changeClient (directory : Directory) (name : List Char) (change : Client → Client) :
    Directory :=
  { directory with
    clients := Function.update directory.clients name ((directory.clients name).map change) }

theorem changeClient_clients (directory : Directory) (name other : List Char)
    (change : Client → Client) : (directory.changeClient name change).clients other =
      if other = name then (directory.clients name).map change else directory.clients other :=
  Function.update_apply _ _ _ _

open Classical in
/-- What a request makes of the directory. A client who is enrolled again comes back as they
were. -/
noncomputable def step (directory : Directory) : DirectoryRequest → Directory
  | .offer target => { directory with targets := insert target directory.targets }
  | .withdraw target =>
      { targets := directory.targets \ {target}
        market := Function.update directory.market target none
        clients := fun name => (directory.clients name).map (Client.listing target none) }
  | .enroll name newId =>
      { directory with
        clients := Function.update directory.clients name
          (some (.enrolled newId (directory.clients name))) }
  | .describe name profile => directory.changeClient name (Client.described profile)
  | .dismiss name => directory.changeClient name Client.dismissed
  | .file name target status =>
      if target ∈ directory.targets then
        directory.changeClient name (Client.listing target (some status))
      else directory
  | .toggle target =>
      if target ∈ directory.targets then
        { directory with
          market := Function.update directory.market target
            (some (ClientDesk.toggled (directory.market target = some .selected))) }
      else directory

theorem enroll_clients (directory : Directory) (name other : List Char) (newId : Uuid) :
    (directory.step (.enroll name newId)).clients other =
      if other = name then some (.enrolled newId (directory.clients name))
      else directory.clients other :=
  Function.update_apply _ _ _ _

end Directory

namespace ClientDesk

/-- The client that a preset is. -/
def client (desk : ClientDesk) (preset : ClientSearchPreset) : Client where
  presetId := preset.clientSearchPresetId
  live := preset.archivedAt.isNone
  profile := preset.clientProfile
  shortlist := desk.entryStatus preset.clientSearchPresetId

/-- The directory that the desk keeps. -/
def directory (env : ClientEnvironment) (desk : ClientDesk) : Directory where
  targets := {target | desk.catalog.Has target}
  market := desk.selectionStatus
  clients name := (get (fun preset => env.nameOf preset.label) desk.presets name).map desk.client

/-- The name of the client that a preset is. -/
def clientName (env : ClientEnvironment) (desk : ClientDesk) (presetId : Uuid) :
    Option (List Char) :=
  (get ClientSearchPreset.clientSearchPresetId desk.presets presetId).map fun preset =>
    env.nameOf preset.label

/-- What an entry asks for. -/
def filed (env : ClientEnvironment) (desk : ClientDesk) (presetId : Uuid)
    (listingId companyId : Option Uuid) (status : ShortlistEntryStatus) :
    List DirectoryRequest :=
  match target? listingId companyId, desk.clientName env presetId with
  | some target, some name => [.file name target status]
  | _, _ => []

/-- What a label asks for. -/
def enrolling (env : ClientEnvironment) (desk : ClientDesk) (raw : String) :
    List DirectoryRequest :=
  if stripped raw = "" then []
  else [.enroll (env.nameOf (stripped raw)) (env.ids.uuid desk.drawn)]

/-- What a form asks for. -/
def describing (env : ClientEnvironment) (desk : ClientDesk) (presetId : Uuid)
    (form : ProfileForm) : List DirectoryRequest :=
  match env.profileOf form with
  | .ok profile => (desk.clientName env presetId).toList.map (.describe · profile)
  | .error _ => []

/-- What an action asks of the directory. -/
def requests (env : ClientEnvironment) (desk : ClientDesk) : ClientAction → List DirectoryRequest
  | .listingEntered listingId => [.offer (.listing listingId)]
  | .propertyUploaded companyPropertyId => [.offer (.property companyPropertyId)]
  | .companyDelete companyPropertyId => [.withdraw (.property companyPropertyId)]
  | .createPreset _ raw => desk.enrolling env raw
  | .updateClientProfile presetId form => desk.describing env presetId form
  | .archiveClient _ presetId => (desk.clientName env presetId).toList.map .dismiss
  | .addShortlistEntry _ presetId listingId companyId _ _ =>
      desk.filed env presetId listingId companyId .included
  | .removeShortlistEntry _ presetId listingId companyId =>
      desk.filed env presetId listingId companyId .removed
  | .toggleSelect _ listingId _ => [.toggle (.listing listingId)]
  | .toggleCompanySelect _ companyPropertyId _ => [.toggle (.property companyPropertyId)]

/-! ## What holds at the desk -/

/-- There is one preset for each name, under ids that were drawn, and selections and entries
are of targets and presets that are there. -/
structure Kept (env : ClientEnvironment) (desk : ClientDesk) : Prop where
  indexed : Desk.Indexed desk.catalog desk.toDesk
  names : PrimaryKey (fun preset => env.nameOf preset.label) desk.presets
  ids : PrimaryKey ClientSearchPreset.clientSearchPresetId desk.presets
  drawn : ∀ preset ∈ desk.presets, ∃ k < desk.drawn, preset.clientSearchPresetId = env.ids.uuid k

variable {env : ClientEnvironment} {desk next : ClientDesk}

theorem kept_empty : Kept env empty where
  indexed := (Desk.follows_empty _).indexed
  names := uniqueIndex_nil
  ids := uniqueIndex_nil
  drawn _ member := by cases member

theorem clients_of_mem (kept : Kept env desk) {preset : ClientSearchPreset}
    (member : preset ∈ desk.presets) :
    (desk.directory env).clients (env.nameOf preset.label) = some (desk.client preset) :=
  Option.map_eq_some_iff.mpr ⟨preset, (get_eq_some kept.names).mpr ⟨member, rfl⟩, rfl⟩

/-! ## Selections and entries -/

/-- Writing a selection sets the status of its target and leaves the entries alone. -/
theorem selection_written {catalog : Catalog} {desk next : Desk} {target : Target}
    {status : SelectionStatus}
    (wrote : Desk.Writes catalog (.selection target, status.value) desk next) :
    next.selectionStatus = Function.update desk.selectionStatus target (some status) ∧
      next.entryStatus = desk.entryStatus := by
  constructor
  · funext other
    have written := wrote.values (.selection other)
    rw [Function.update_apply]
    by_cases same : other = target
    · rw [if_pos same]
      rw [if_pos (congrArg Slot.selection same)] at written
      exact Option.map_injective SelectionStatus.value_injective written
    · rw [if_neg same]
      rw [if_neg fun equal => same (Slot.selection.inj equal)] at written
      exact Option.map_injective SelectionStatus.value_injective written
  · funext preset other
    have written := wrote.values (.entry preset other)
    rw [if_neg fun equal => by cases equal] at written
    exact Option.map_injective ShortlistEntryStatus.value_injective written

/-- Writing an entry sets the status of its target for the client and leaves the rest alone. -/
theorem entry_written {catalog : Catalog} {desk next : Desk} {presetId : Uuid} {target : Target}
    {status : ShortlistEntryStatus}
    (wrote : Desk.Writes catalog (.entry presetId target, status.value) desk next) :
    next.selectionStatus = desk.selectionStatus ∧
      ∀ other, next.entryStatus other = if other = presetId
        then Function.update (desk.entryStatus presetId) target (some status)
        else desk.entryStatus other := by
  constructor
  · funext other
    have written := wrote.values (.selection other)
    rw [if_neg fun equal => by cases equal] at written
    exact Option.map_injective SelectionStatus.value_injective written
  · intro preset
    funext other
    have written := wrote.values (.entry preset other)
    by_cases same : preset = presetId
    · subst same
      rw [if_pos rfl, Function.update_apply]
      by_cases equal : other = target
      · rw [if_pos equal]
        rw [if_pos (congrArg (Slot.entry preset) equal)] at written
        exact Option.map_injective ShortlistEntryStatus.value_injective written
      · rw [if_neg equal]
        rw [if_neg fun slots => equal (Slot.entry.inj slots).2] at written
        exact Option.map_injective ShortlistEntryStatus.value_injective written
    · rw [if_neg same]
      rw [if_neg fun slots => same (Slot.entry.inj slots).1] at written
      exact Option.map_injective ShortlistEntryStatus.value_injective written

/-- Ids are drawn and never given back. -/
theorem drawn_le_of_perform {ids : IdSupply} {catalog : Catalog} {desk next : Desk}
    {request : SelectionCall} (done : desk.perform ids catalog request = .ok next) :
    desk.drawn ≤ next.drawn := by
  cases request with
  | setSelection now canonicalListingId companyPropertyId status actor actorType note =>
      obtain ⟨result, written, rest⟩ := bind_eq_ok.mp done
      cases rest
      unfold Desk.setSelection at written
      obtain ⟨_, -, written⟩ := bind_eq_ok.mp written
      obtain ⟨target, -, written⟩ := bind_eq_ok.mp written
      obtain ⟨current, -, written⟩ := bind_eq_ok.mp written
      cases current with
      | none =>
          obtain ⟨_, -, written⟩ := bind_eq_ok.mp written
          cases written
          exact Nat.le_add_right _ _
      | some row =>
          cases written
          exact Nat.le_add_right _ _
  | setEntry now presetId canonicalListingId companyPropertyId status actor actorType note =>
      obtain ⟨result, written, rest⟩ := bind_eq_ok.mp done
      cases rest
      unfold Desk.setEntry at written
      obtain ⟨_, -, written⟩ := bind_eq_ok.mp written
      obtain ⟨target, -, written⟩ := bind_eq_ok.mp written
      obtain ⟨current, -, written⟩ := bind_eq_ok.mp written
      cases current with
      | none =>
          obtain ⟨_, -, written⟩ := bind_eq_ok.mp written
          cases written
          exact Nat.le_add_right _ _
      | some row =>
          cases written
          exact Nat.le_add_right _ _

/-- A call is accepted just when it has a write, and it writes that. -/
theorem call_writes (kept : Kept env desk) (request : SelectionCall) :
    match request.write? desk.catalog with
    | some write => ∃ next, desk.call env request = .ok { desk with toDesk := next } ∧
        Desk.Writes desk.catalog write desk.toDesk next ∧ desk.drawn ≤ next.drawn
    | none => ∃ failure, desk.call env request = .error (.selection failure) := by
  have performed := Desk.perform_writes env.ids kept.indexed request
  cases accepted : request.write? desk.catalog with
  | none =>
      rw [accepted] at performed
      obtain ⟨failure, failed⟩ := performed
      exact ⟨failure, by rw [call, failed]⟩
  | some write =>
      rw [accepted] at performed
      obtain ⟨next, done, wrote⟩ := performed
      exact ⟨next, by rw [call, done], wrote, drawn_le_of_perform done⟩

/-- What the desk writes for a slot keeps its invariant. -/
theorem kept_written {write : Slot × String} {next : Desk} (kept : Kept env desk)
    (wrote : Desk.Writes desk.catalog write desk.toDesk next) (drawn : desk.drawn ≤ next.drawn) :
    Kept env { desk with toDesk := next } where
  indexed := by
    refine ⟨wrote.selections, wrote.entries, fun slot value found => ?_⟩
    rw [wrote.values] at found
    split at found
    · rename_i same
      exact same ▸ wrote.holds
    · exact kept.indexed.known slot value found
  names := kept.names
  ids := kept.ids
  drawn preset member := by
    obtain ⟨k, before, same⟩ := kept.drawn preset member
    exact ⟨k, before.trans_le drawn, same⟩

/-! ## Presets -/

/-- A preset is changed in place: it keeps its id and its label. -/
structure Renews (change : ClientSearchPreset → ClientSearchPreset) : Prop where
  ids : ∀ preset, (change preset).clientSearchPresetId = preset.clientSearchPresetId
  labels : ∀ preset, (change preset).label = preset.label

theorem renews_restored : Renews ClientSearchPreset.restored := ⟨fun _ => rfl, fun _ => rfl⟩

theorem renews_archived (now : Timestamp) : Renews fun preset => preset.archived now :=
  ⟨fun _ => rfl, fun _ => rfl⟩

theorem renews_described (profile : ClientProfile) :
    Renews fun preset => preset.described profile :=
  ⟨fun _ => rfl, fun _ => rfl⟩

variable {change : ClientSearchPreset → ClientSearchPreset} {preset : ClientSearchPreset}
  {presetId : Uuid} {actor actionType : String} {before : ClientSearchPreset → Option PresetValues}
  {after : ClientSearchPreset → PresetValues}

/-- The desk in which the preset with the id is changed. -/
def renew (desk : ClientDesk) (presetId : Uuid)
    (change : ClientSearchPreset → ClientSearchPreset) (log : List PresetActionLog) :
    ClientDesk :=
  { desk with
    drawn := desk.drawn + 1
    presets := updateWhere (fun row => row.clientSearchPresetId = presetId) change desk.presets
    presetLog := log }

theorem changePreset_of_some
    (found : get ClientSearchPreset.clientSearchPresetId desk.presets presetId = some preset) :
    ∃ log, desk.changePreset env presetId actor .human actionType change before after =
      .ok (desk.renew presetId change log, change preset) :=
  ⟨_, bind_eq_ok.mpr ⟨⟨⟩, refuse_eq_ok.mpr (by simp),
    bind_eq_ok.mpr ⟨preset, require_eq_ok.mpr found, rfl⟩⟩⟩

/-- A preset that is not there cannot be changed. -/
theorem changePreset_of_none
    (absent : get ClientSearchPreset.clientSearchPresetId desk.presets presetId = none) :
    desk.changePreset env presetId actor .human actionType change before after =
      .error .presetNotFound := by
  unfold changePreset
  rw [absent]
  rfl

/-- Renewing presets leaves the catalog alone. -/
theorem catalog_renew (renews : Renews change) (log : List PresetActionLog) :
    (desk.renew presetId change log).catalog = desk.catalog := by
  have ids : (updateWhere (fun row => row.clientSearchPresetId = presetId) change
      desk.presets).map ClientSearchPreset.clientSearchPresetId =
      desk.presets.map ClientSearchPreset.clientSearchPresetId :=
    map_updateWhere ClientSearchPreset.clientSearchPresetId fun row _ _ => renews.ids row
  unfold catalog renew
  rw [ids]

/-- Renewing presets in place keeps the invariant. -/
theorem kept_renew (kept : Kept env desk) (renews : Renews change) (log : List PresetActionLog) :
    Kept env (desk.renew presetId change log) where
  indexed := by
    rw [catalog_renew renews]
    exact ⟨kept.indexed.selections, kept.indexed.entries, kept.indexed.known⟩
  names := UniqueIndex.updateWhere kept.names fun row _ _ _ =>
    ⟨trivial, congrArg env.nameOf (renews.labels row)⟩
  ids := UniqueIndex.updateWhere kept.ids fun row _ _ _ => ⟨trivial, renews.ids row⟩
  drawn preset member := by
    obtain ⟨old, was, rfl⟩ := mem_updateWhere.mp member
    obtain ⟨k, before, same⟩ := kept.drawn old was
    refine ⟨k, Nat.lt_succ_of_lt before, ?_⟩
    split
    · exact (renews.ids old).trans same
    · exact same

/-- A change of a preset is a change of its client. -/
theorem directory_renew (kept : Kept env desk) (renews : Renews change)
    (log : List PresetActionLog) {effect : Client → Client}
    (shows : ∀ row, desk.client (change row) = effect (desk.client row))
    (found : get ClientSearchPreset.clientSearchPresetId desk.presets presetId = some preset) :
    (desk.renew presetId change log).directory env =
      (desk.directory env).changeClient (env.nameOf preset.label) effect := by
  obtain ⟨member, own⟩ := (get_eq_some kept.ids).mp found
  have labels : ∀ row, env.nameOf (change row).label = env.nameOf row.label :=
    fun row => congrArg env.nameOf (renews.labels row)
  have targets : ((desk.renew presetId change log).directory env).targets =
      (desk.directory env).targets := by
    change {target | (desk.renew presetId change log).catalog.Has target} = _
    rw [catalog_renew renews]
    rfl
  refine Directory.ext targets rfl (funext fun name => ?_)
  change Option.map desk.client (get _ (updateWhere _ change desk.presets) name) = _
  rw [Directory.changeClient_clients]
  by_cases same : name = env.nameOf preset.label
  · subst same
    rw [if_pos rfl, get_updateWhere_of_mem kept.names labels member (decide_eq_true own),
      clients_of_mem kept member, Option.map_some, Option.map_some, shows]
  · have apart : ∀ row ∈ desk.presets, decide (row.clientSearchPresetId = presetId) = true →
        env.nameOf row.label ≠ name := by
      intro row present met equal
      have twin : row = preset :=
        kept.ids.eq_of_mem present member ((of_decide_eq_true met).trans own.symm)
      exact same (by rw [← equal, twin])
    rw [if_neg same, get_updateWhere_of_ne labels apart]
    rfl

/-- The desk with a new preset. -/
def enrol (desk : ClientDesk) (preset : ClientSearchPreset) (log : List PresetActionLog) :
    ClientDesk :=
  { desk with
    drawn := desk.drawn + 2
    presets := desk.presets ++ [preset]
    presetLog := log }

/-- An unused label makes a new preset under the next id. -/
theorem createPreset_of_unused (now : Timestamp) (actor : String) {label : String}
    (unused : label ∉ desk.presets.map ClientSearchPreset.label) :
    ∃ new log, desk.createPreset env now label actor .human = .ok (desk.enrol new log, new) ∧
      new.clientSearchPresetId = env.ids.uuid desk.drawn ∧ new.label = label ∧
      new.archivedAt = none ∧ new.clientProfile = none := by
  refine ⟨_, _, bind_eq_ok.mpr ⟨⟨⟩, refuse_eq_ok.mpr (by simp),
    bind_eq_ok.mpr ⟨⟨⟩, refuse_eq_ok.mpr unused, rfl⟩⟩, rfl, rfl, rfl, rfl⟩

section Enrolling

variable (kept : Kept env desk) {new : ClientSearchPreset}
  (id : new.clientSearchPresetId = env.ids.uuid desk.drawn)

include kept id

theorem fresh_of_drawn : ∀ row ∈ desk.presets,
    row.clientSearchPresetId ≠ new.clientSearchPresetId := by
  intro row member same
  obtain ⟨k, before, drawn⟩ := kept.drawn row member
  rw [drawn, id] at same
  exact (env.ids.distinct same ▸ before).false

/-- A preset under a free name keeps the invariant. -/
theorem kept_enrol (free : ∀ row ∈ desk.presets, env.nameOf row.label ≠ env.nameOf new.label)
    (log : List PresetActionLog) : Kept env (desk.enrol new log) where
  indexed := by
    refine ⟨kept.indexed.selections, kept.indexed.entries, fun slot value found => ?_⟩
    have known := kept.indexed.known slot value found
    cases slot with
    | selection target => exact known
    | entry preset target =>
        refine ⟨?_, known.2⟩
        change preset ∈ (desk.presets ++ [new]).map ClientSearchPreset.clientSearchPresetId
        rw [List.map_append]
        exact List.mem_append_left _ known.1
  names := UniqueIndex.insert kept.names fun _ row member _ => free row member
  ids := UniqueIndex.insert kept.ids fun _ row member _ => fresh_of_drawn kept id row member
  drawn preset member := by
    rcases List.mem_append.mp member with old | only
    · obtain ⟨k, before, same⟩ := kept.drawn preset old
      exact ⟨k, Nat.lt_add_right 2 before, same⟩
    · obtain rfl := List.mem_singleton.mp only
      exact ⟨desk.drawn, Nat.lt_add_of_pos_right (by decide), id⟩

/-- Nothing is on the shortlist of a new preset. -/
theorem client_of_drawn (live : new.archivedAt = none) (blank : new.clientProfile = none) :
    desk.client new = .new (env.ids.uuid desk.drawn) := by
  have nothing : desk.entryStatus new.clientSearchPresetId = fun _ => none := by
    funext target
    cases found : desk.entryStatus new.clientSearchPresetId target with
    | none => rfl
    | some status =>
        have known := kept.indexed.known (.entry new.clientSearchPresetId target) status.value
          (by rw [Desk.valueAt, found]; rfl)
        obtain ⟨row, member, same⟩ := List.mem_map.mp known.1
        exact absurd same (fresh_of_drawn kept id row member)
  unfold client Client.new
  rw [live, blank, nothing, id]
  rfl

/-- A new preset under a free name enrolls the client. -/
theorem directory_enrol
    (free : ∀ row ∈ desk.presets, env.nameOf row.label ≠ env.nameOf new.label)
    (live : new.archivedAt = none) (blank : new.clientProfile = none)
    (log : List PresetActionLog) : (desk.enrol new log).directory env =
      (desk.directory env).step (.enroll (env.nameOf new.label) (env.ids.uuid desk.drawn)) := by
  have absent : get (fun preset => env.nameOf preset.label) desk.presets
      (env.nameOf new.label) = none := get_eq_none.mpr free
  have unknown : (desk.directory env).clients (env.nameOf new.label) = none :=
    Option.map_eq_none_iff.mpr absent
  refine Directory.ext rfl rfl (funext fun name => ?_)
  change Option.map desk.client (get _ (desk.presets ++ [new]) name) = _
  rw [get_column_insert desk.client absent, Directory.enroll_clients, unknown,
    client_of_drawn kept id live blank]
  rfl

end Enrolling

/-! ## Targets -/

/-- What is kept at the desk is kept, and its directory meets the requests. -/
structure Advances (env : ClientEnvironment) (desk next : ClientDesk)
    (requests : List DirectoryRequest) : Prop where
  kept : Kept env next
  directory : next.directory env = run Directory.step (desk.directory env) requests

/-- A target that comes adds itself to those there are. -/
theorem offered_advances (kept : Kept env desk) {target : Target}
    (offered : ∀ other, next.catalog.Has other ↔ other = target ∨ desk.catalog.Has other)
    (presets : next.presets = desk.presets) (desks : next.toDesk = desk.toDesk) :
    Advances env desk next [.offer target] := by
  have ids : next.catalog.presetIds = desk.catalog.presetIds :=
    congrArg (List.map ClientSearchPreset.clientSearchPresetId) presets
  have drawn : next.drawn = desk.drawn := congrArg Desk.drawn desks
  constructor
  · refine ⟨?_, presets ▸ kept.names, presets ▸ kept.ids, ?_⟩
    · rw [desks]
      refine ⟨kept.indexed.selections, kept.indexed.entries, fun slot value found => ?_⟩
      have known := kept.indexed.known slot value found
      cases slot with
      | selection other => exact (offered other).mpr (.inr known)
      | entry preset other => exact ⟨ids ▸ known.1, (offered other).mpr (.inr known.2)⟩
    · rw [presets, drawn]
      exact kept.drawn
  · refine Directory.ext (Set.ext fun other => offered other) ?_ ?_
    · exact congrArg Desk.selectionStatus desks
    · funext name
      have same : next.client = desk.client := by
        unfold client
        rw [desks]
      change Option.map next.client (get _ next.presets name) = _
      rw [presets, same]
      rfl

/-- What is left when a property of the company is deleted. -/
structure Withdrawn (target : Target) (desk next : ClientDesk) : Prop where
  presets : next.presets = desk.presets
  drawn : next.drawn = desk.drawn
  selections : PrimaryKey MarketingSelection.target next.selections
  entries : PrimaryKey ClientShortlistEntry.place next.entries
  targets : ∀ other, next.catalog.Has other ↔ desk.catalog.Has other ∧ other ≠ target
  market : next.selectionStatus = Function.update desk.selectionStatus target none
  shortlists : ∀ preset, next.entryStatus preset =
    Function.update (desk.entryStatus preset) target none

/-- Deleting a property of the company takes its selection and its entries along, and nothing
else. -/
theorem companyDelete_withdrawn (kept : Kept env desk) (propertyId : Uuid) :
    Withdrawn (.property propertyId) desk (desk.companyDelete propertyId) := by
  unfold companyDelete
  split
  · refine ⟨rfl, rfl, kept.indexed.selections.filter _, kept.indexed.entries.filter _, ?_, ?_, ?_⟩
    · intro other
      cases other with
      | listing id => simp [catalog, Catalog.Has]
      | property id => simp [catalog, Catalog.Has]
    · funext other
      rw [Function.update_apply]
      change Option.map _ (get _ (desk.selections.filter _) other) = _
      rw [get_filter (fun key : Target => key ≠ .property propertyId) fun _ _ => rfl]
      by_cases same : other = .property propertyId
      · simp [same]
      · simp only [ne_eq, same, not_false_eq_true, decide_true, ↓reduceIte]
        rfl
    · intro preset
      funext other
      rw [Function.update_apply]
      change Option.map _ (get ClientShortlistEntry.place (desk.entries.filter fun row =>
        row.place.2 ≠ .property propertyId) (preset, other)) = _
      rw [get_filter (fun key : Uuid × Target => key.2 ≠ .property propertyId) fun _ _ => rfl]
      by_cases same : other = .property propertyId
      · simp [same]
      · simp only [ne_eq, same, not_false_eq_true, decide_true, ↓reduceIte]
        rfl
  · rename_i absent
    refine ⟨rfl, rfl, kept.indexed.selections, kept.indexed.entries, ?_, ?_, ?_⟩
    · intro other
      refine ⟨fun has => ⟨has, ?_⟩, And.left⟩
      rintro rfl
      exact absent has
    · funext other
      rw [Function.update_apply]
      split
      · rename_i same
        subst same
        cases found : desk.selectionStatus (.property propertyId) with
        | none => rfl
        | some status =>
            exact absurd (kept.indexed.known (.selection (.property propertyId)) status.value
              (by rw [Desk.valueAt, found]; rfl)) absent
      · rfl
    · intro preset
      funext other
      rw [Function.update_apply]
      split
      · rename_i same
        subst same
        cases found : desk.entryStatus preset (.property propertyId) with
        | none => rfl
        | some status =>
            exact absurd (kept.indexed.known (.entry preset (.property propertyId)) status.value
              (by rw [Desk.valueAt, found]; rfl)).2 absent
      · rfl

/-- What is left after a deletion keeps the invariant. -/
theorem kept_withdrawn {target : Target} (kept : Kept env desk)
    (withdrawn : Withdrawn target desk next) : Kept env next where
  indexed := by
    have ids : next.catalog.presetIds = desk.catalog.presetIds :=
      congrArg (List.map ClientSearchPreset.clientSearchPresetId) withdrawn.presets
    refine ⟨withdrawn.selections, withdrawn.entries, fun slot value found => ?_⟩
    cases slot with
    | selection other =>
        rw [Desk.valueAt, withdrawn.market, Function.update_apply] at found
        split at found
        · cases found
        · rename_i apart
          exact (withdrawn.targets other).mpr ⟨kept.indexed.known (.selection other) value found,
            apart⟩
    | entry preset other =>
        rw [Desk.valueAt, withdrawn.shortlists, Function.update_apply] at found
        split at found
        · cases found
        · rename_i apart
          have known := kept.indexed.known (.entry preset other) value found
          exact ⟨ids ▸ known.1, (withdrawn.targets other).mpr ⟨known.2, apart⟩⟩
  names := withdrawn.presets ▸ kept.names
  ids := withdrawn.presets ▸ kept.ids
  drawn := by
    rw [withdrawn.presets, withdrawn.drawn]
    exact kept.drawn

/-- The directory withdraws the target that was deleted. -/
theorem directory_withdrawn {target : Target} (withdrawn : Withdrawn target desk next) :
    next.directory env = (desk.directory env).step (.withdraw target) := by
  refine Directory.ext (Set.ext withdrawn.targets) withdrawn.market (funext fun name => ?_)
  change Option.map next.client (get _ next.presets name) = Option.map _ (Option.map _ _)
  rw [withdrawn.presets, Option.map_map]
  refine congrArg (Option.map · _) (funext fun preset => ?_)
  unfold client
  rw [withdrawn.shortlists]
  rfl

/-! ## Answers -/

/-- The desk after the answer of a handler; an exception leaves it as it was. -/
def answered (desk : ClientDesk) (answer : Except ClientError (ClientDesk × Redirect)) :
    ClientDesk :=
  match answer with
  | .ok result => result.1
  | .error _ => desk

theorem Kept.stays (kept : Kept env desk) : Advances env desk desk [] := ⟨kept, rfl⟩

/-- A preset is in the catalog just when its row is there. -/
theorem has_preset_iff {desk : ClientDesk} {presetId : Uuid} :
    presetId ∈ desk.catalog.presetIds ↔
      ∃ preset, get ClientSearchPreset.clientSearchPresetId desk.presets presetId =
        some preset := by
  cases found : get ClientSearchPreset.clientSearchPresetId desk.presets presetId with
  | none =>
      have absent := get_eq_none.mp found
      simpa [catalog] using absent
  | some preset =>
      refine iff_of_true ?_ ⟨preset, rfl⟩
      exact List.mem_map.mpr ⟨preset, mem_of_get found, key_of_get found⟩

/-- An entry that is written is on the shortlist of its client. -/
theorem directory_entry {write : Desk} {target : Target} {status : ShortlistEntryStatus}
    (kept : Kept env desk) {preset : ClientSearchPreset} (member : preset ∈ desk.presets)
    (wrote : Desk.Writes desk.catalog (.entry preset.clientSearchPresetId target, status.value)
      desk.toDesk write) :
    ({ desk with toDesk := write } : ClientDesk).directory env =
      (desk.directory env).step (.file (env.nameOf preset.label) target status) := by
  obtain ⟨market, shortlists⟩ := entry_written wrote
  have known : target ∈ (desk.directory env).targets := wrote.holds.2
  rw [Directory.step, if_pos known]
  refine Directory.ext rfl market (funext fun name => ?_)
  rw [Directory.changeClient_clients]
  change Option.map (client _) (get _ desk.presets name) = _
  by_cases same : name = env.nameOf preset.label
  · subst same
    rw [if_pos rfl, clients_of_mem kept member, (get_eq_some kept.names).mpr ⟨member, rfl⟩,
      Option.map_some, Option.map_some]
    unfold client
    rw [shortlists, if_pos rfl]
    rfl
  · rw [if_neg same]
    change _ = Option.map desk.client (get _ desk.presets name)
    cases found : get (fun preset => env.nameOf preset.label) desk.presets name with
    | none => rfl
    | some other =>
        have apart : other.clientSearchPresetId ≠ preset.clientSearchPresetId := by
          intro equal
          have twin := kept.ids.eq_of_mem (mem_of_get found) member equal
          exact same (by rw [← key_of_get found, twin])
        rw [Option.map_some, Option.map_some]
        unfold client
        rw [shortlists, if_neg apart]

/-- A toggle flips the selection of its target. -/
theorem directory_selection {write : Desk} {target : Target} {selected : Bool}
    (wrote : Desk.Writes desk.catalog (.selection target, (toggled selected).value)
      desk.toDesk write)
    (knows : selected = decide (desk.selectionStatus target = some .selected)) :
    ({ desk with toDesk := write } : ClientDesk).directory env =
      (desk.directory env).step (.toggle target) := by
  obtain ⟨market, shortlists⟩ := selection_written wrote
  have known : target ∈ (desk.directory env).targets := wrote.holds
  have same : ({ desk with toDesk := write } : ClientDesk).client = desk.client := by
    unfold client
    rw [shortlists]
  rw [Directory.step, if_pos known]
  refine Directory.ext rfl ?_ (funext fun name => ?_)
  · change write.selectionStatus = Function.update desk.selectionStatus target _
    rw [market, knows]
    rfl
  · exact congrArg (Option.map · _) same

/-- Writing an entry advances the desk by what the request files. -/
theorem writeEntry_advances (kept : Kept env desk) (now : Timestamp) (presetId : Uuid)
    (listingId companyId : Option Uuid) (status : ShortlistEntryStatus) (note : Option String)
    (back : Redirect) :
    Advances env desk
      (desk.answered (desk.writeEntry env now presetId listingId companyId status note back))
      (desk.filed env presetId listingId companyId status) := by
  unfold writeEntry filed
  cases named : target? listingId companyId with
  | none => exact kept.stays
  | some target =>
      rw [if_neg (Option.some_ne_none target)]
      have calls := call_writes kept
        (.setEntry now presetId listingId companyId status env.operatorId .human note)
      by_cases holds : desk.catalog.Holds (.entry presetId target)
      · have accepted : (SelectionCall.setEntry now presetId listingId companyId status
            env.operatorId .human note).write? desk.catalog =
              some (.entry presetId target, status.value) :=
          Desk.write?_eq_some.mpr ⟨by rw [SelectionCall.slot?, named]; rfl, rfl, holds, rfl⟩
        rw [accepted] at calls
        obtain ⟨next, done, wrote, drawn⟩ := calls
        obtain ⟨preset, found⟩ := has_preset_iff.mp holds.1
        obtain ⟨member, rfl⟩ := (get_eq_some kept.ids).mp found
        rw [done, clientName, found]
        exact ⟨kept_written kept wrote drawn, directory_entry kept member wrote⟩
      · have refused : (SelectionCall.setEntry now presetId listingId companyId status
            env.operatorId .human note).write? desk.catalog = none := by
          refine Desk.write?_eq_none.mpr fun slot names met => holds ?_
          rw [SelectionCall.slot?, named, Option.map_some, Option.some_inj] at names
          exact names ▸ met.2
        rw [refused] at calls
        obtain ⟨failure, failed⟩ := calls
        rw [failed, clientName]
        cases found : get ClientSearchPreset.clientSearchPresetId desk.presets presetId with
        | none => exact kept.stays
        | some preset =>
            have unknown : target ∉ (desk.directory env).targets :=
              fun has => holds ⟨has_preset_iff.mpr ⟨preset, found⟩, has⟩
            exact ⟨kept, (if_neg unknown).symm⟩

/-- A toggle by a person advances the desk by the selection it turns to. -/
theorem toggle_advances (kept : Kept env desk) {target : Target} (request : SelectionCall)
    (selected : Bool) (human : request.actorType = .human)
    (slot : request.slot? = some (.selection target))
    (value : request.value = (toggled selected).value)
    (knows : desk.catalog.Has target →
      selected = decide (desk.selectionStatus target = some .selected)) (back : Redirect) :
    Advances env desk
      (desk.answered (desk.call env request >>= fun next => pure (next, back)))
      [.toggle target] := by
  have calls := call_writes kept request
  by_cases has : desk.catalog.Has target
  · have accepted : request.write? desk.catalog =
        some (.selection target, (toggled selected).value) :=
      Desk.write?_eq_some.mpr ⟨slot, human, has, value⟩
    rw [accepted] at calls
    obtain ⟨next, done, wrote, drawn⟩ := calls
    rw [done]
    exact ⟨kept_written kept wrote drawn, directory_selection wrote (knows has)⟩
  · have refused : request.write? desk.catalog = none := by
      refine Desk.write?_eq_none.mpr fun other names met => has ?_
      rw [slot, Option.some_inj] at names
      have holds := met.2
      rwa [← names] at holds
    have unknown : target ∉ (desk.directory env).targets := has
    rw [refused] at calls
    obtain ⟨failure, failed⟩ := calls
    rw [failed]
    exact ⟨kept, (if_neg unknown).symm⟩

/-- The frame of the handlers that change one preset. -/
theorem changePreset_advances (kept : Kept env desk) (renews : Renews change)
    {effect : Client → Client} (shows : ∀ row, desk.client (change row) = effect (desk.client row))
    (asks : List Char → DirectoryRequest)
    (spec : ∀ name, (desk.directory env).step (asks name) =
      (desk.directory env).changeClient name effect) (back : Redirect) :
    Advances env desk
      (desk.answered (desk.changePreset env presetId actor .human actionType change before after
        >>= fun result => pure (result.1, back)))
      ((desk.clientName env presetId).toList.map asks) := by
  unfold clientName
  cases found : get ClientSearchPreset.clientSearchPresetId desk.presets presetId with
  | none =>
      rw [changePreset_of_none found]
      exact kept.stays
  | some preset =>
      obtain ⟨log, done⟩ : ∃ log, desk.changePreset env presetId actor .human actionType change
          before after = .ok (desk.renew presetId change log, change preset) :=
        changePreset_of_some found
      rw [done]
      refine ⟨kept_renew kept renews log, ?_⟩
      exact (directory_renew kept renews log shows found).trans (spec _).symm

/-- A profile form advances the desk by the description it gives. -/
theorem updateClientProfile_advances (kept : Kept env desk) (presetId : Uuid)
    (form : ProfileForm) :
    Advances env desk (desk.answered (desk.updateClientProfile env presetId form))
      (desk.describing env presetId form) := by
  unfold updateClientProfile describing
  cases env.profileOf form with
  | error failure => exact kept.stays
  | ok profile =>
      exact changePreset_advances kept (renews_described profile) (fun _ => rfl)
        (.describe · profile) (fun _ => rfl) (.clients (some presetId) none none)

/-- There is at most one preset that the scan can find. -/
theorem namesake_eq (kept : Kept env desk) (label : String) :
    desk.namesake env label =
      get (fun preset => env.nameOf preset.label) desk.presets (env.lower label) := by
  unfold namesake
  rw [kept.names.filter_eq_toList]
  cases get (fun preset => env.nameOf preset.label) desk.presets (env.lower label) <;> rfl

/-- A client is added whatever the desk holds, when the lower cases agree on the label. -/
theorem addClient_advances (kept : Kept env desk) (now : Timestamp) {raw : String}
    (agrees : env.nameOf (stripped raw) = env.lower (stripped raw)) :
    ∃ next redirect, desk.addClient env now raw = .ok (next, redirect) ∧
      Advances env desk next (desk.enrolling env raw) := by
  unfold addClient enrolling
  by_cases blank : stripped raw = ""
  · rw [if_pos blank, if_pos blank]
    exact ⟨desk, _, rfl, kept.stays⟩
  · rw [if_neg blank, if_neg blank, namesake_eq kept, ← agrees]
    cases found : get (fun preset => env.nameOf preset.label) desk.presets
        (env.nameOf (stripped raw)) with
    | some preset =>
        obtain ⟨member, name⟩ := (get_eq_some kept.names).mp found
        have here := clients_of_mem kept member
        dsimp only
        split
        · rename_i live
          refine ⟨desk, _, rfl, kept, Directory.ext rfl rfl (funext fun other => ?_)⟩
          rw [run_cons, run_nil, Directory.enroll_clients, ← name, here]
          split
          · rename_i same
            rw [same, here, Client.enrolled, client, live]
            rfl
          · rfl
        · have held : get ClientSearchPreset.clientSearchPresetId desk.presets
              preset.clientSearchPresetId = some preset :=
            (get_eq_some kept.ids).mpr ⟨member, rfl⟩
          obtain ⟨log, done⟩ : ∃ log, desk.restorePreset env preset.clientSearchPresetId
              env.operatorId .human = .ok (desk.renew preset.clientSearchPresetId
                ClientSearchPreset.restored log, preset.restored) :=
            changePreset_of_some held
          rw [done]
          refine ⟨_, _, rfl, kept_renew kept renews_restored log, ?_⟩
          have back : ∀ row : ClientSearchPreset,
              desk.client row.restored = (desk.client row).returned := fun _ => rfl
          rw [directory_renew kept renews_restored log back held, run_cons, run_nil]
          refine Directory.ext rfl rfl (funext fun other => ?_)
          rw [Directory.changeClient_clients, Directory.enroll_clients, ← name, here]
          rfl
    | none =>
        have free := get_eq_none.mp found
        have unused : stripped raw ∉ desk.presets.map ClientSearchPreset.label := by
          intro used
          obtain ⟨row, member, same⟩ := List.mem_map.mp used
          exact free row member (congrArg env.nameOf same)
        obtain ⟨new, log, done, id, label, live, blank⟩ : ∃ new log,
            desk.createPreset env now (stripped raw) env.operatorId .human =
              .ok (desk.enrol new log, new) ∧ _ :=
          createPreset_of_unused now env.operatorId unused
        dsimp only
        rw [done]
        rw [← label] at free ⊢
        exact ⟨_, _, rfl, kept_enrol kept id free log,
          directory_enrol kept id free live blank log⟩

/-- What a step does: the desk keeps what it keeps, and its directory meets the requests. -/
theorem step_advances (kept : Kept env desk) {action : ClientAction} (agrees : env.Agrees action) :
    Advances env desk (desk.step env action) (desk.requests env action) := by
  have unfolded {answer : Except ClientError (ClientDesk × Redirect)}
      (performed : desk.perform env action = Prod.fst <$> answer) :
      desk.step env action = desk.answered answer := by
    rw [step, performed]
    cases answer <;> rfl
  cases action with
  | listingEntered listingId =>
      have offered : ∀ other, (desk.step env (.listingEntered listingId)).catalog.Has other ↔
          other = .listing listingId ∨ desk.catalog.Has other := by
        intro other
        cases other <;> simp [step, perform, catalog, Catalog.Has, or_comm]
      exact offered_advances kept offered rfl rfl
  | propertyUploaded companyPropertyId =>
      have offered : ∀ other, (desk.step env (.propertyUploaded companyPropertyId)).catalog.Has
          other ↔ other = .property companyPropertyId ∨ desk.catalog.Has other := by
        intro other
        cases other <;> simp [step, perform, catalog, Catalog.Has, or_comm]
      exact offered_advances kept offered rfl rfl
  | companyDelete companyPropertyId =>
      have withdrawn := companyDelete_withdrawn kept companyPropertyId
      exact ⟨kept_withdrawn kept withdrawn, directory_withdrawn withdrawn⟩
  | createPreset now raw =>
      obtain ⟨next, redirect, done, advances⟩ := addClient_advances kept now agrees
      rw [unfolded rfl, done]
      exact advances
  | updateClientProfile presetId form =>
      rw [unfolded rfl]
      exact updateClientProfile_advances kept presetId form
  | archiveClient now presetId =>
      rw [unfolded rfl]
      exact changePreset_advances kept (renews_archived now) (fun _ => rfl) .dismiss
        (fun _ => rfl) _
  | addShortlistEntry now presetId listingId companyId note back =>
      rw [unfolded rfl]
      exact writeEntry_advances kept now presetId listingId companyId .included _ _
  | removeShortlistEntry now presetId listingId companyId =>
      rw [unfolded rfl]
      exact writeEntry_advances kept now presetId listingId companyId .removed _ _
  | toggleSelect now listingId back =>
      rw [unfolded rfl]
      refine toggle_advances kept _ _ rfl rfl rfl (fun has => ?_) _
      have present : listingId ∈ desk.listingIds := has
      rw [decide_eq_true present, Bool.true_and]
  | toggleCompanySelect now companyPropertyId back =>
      rw [unfolded rfl]
      exact toggle_advances kept _ _ rfl rfl rfl (fun _ => rfl) _

theorem step_keeps (env : ClientEnvironment) :
    Preserved (step env) (fun _ action => env.Agrees action) (Kept env) :=
  fun _ _ kept agrees => (step_advances kept agrees).kept

theorem step_simulates (env : ClientEnvironment) :
    Simulates (step env) Directory.step (directory env) (requests env)
      (fun _ action => env.Agrees action) (Kept env) :=
  fun _ _ kept agrees => (step_advances kept agrees).directory

/-- **The desk simulates the directory.** In every run in which the two lower cases agree on the
labels of new clients, the desk keeps the directory that its requests make, each read in the
state it meets: one client for each name but for case, who comes back under the same id with
profile and shortlist, and selections for the market that no request for a client touches. No
request for a new client fails. -/
theorem simulates_directory (env : ClientEnvironment) (actions : List ClientAction)
    (agree : ∀ action ∈ actions, env.Agrees action) :
    (reached env actions).directory env =
        run Directory.step .empty (requested (step env) (requests env) empty actions) ∧
      ∀ moment ∈ moments (step env) empty actions, ∀ now raw,
        moment.2 = .createPreset now raw →
          ∃ next redirect, moment.1.addClient env now raw = .ok (next, redirect) := by
  have permitted : Permitted (step env) (fun _ action => env.Agrees action) empty actions :=
    permitted_of_forall agree
  refine ⟨?_, fun moment member now raw asked => ?_⟩
  · rw [reached, run_simulates (step_keeps env) (step_simulates env) kept_empty permitted]
    refine congrArg (run Directory.step · _) ?_
    refine Directory.ext (Set.ext fun target => ?_) rfl rfl
    cases target <;> exact iff_of_false List.not_mem_nil id
  · have kept := (step_keeps env).moments kept_empty permitted moment member
    have agrees := permitted moment member
    rw [asked] at agrees
    obtain ⟨next, redirect, done, -⟩ := addClient_advances kept now agrees
    exact ⟨next, redirect, done⟩

/-! ## Labels in ASCII -/

/-- An environment in which both lower cases are those of ASCII. -/
def asciiClients : ClientEnvironment where
  ids := countingIds
  operatorId := "operator"
  tables := .ascii
  isDigit := Char.isDigit
  sqlLower := List.map Char.toLower
  scan := id

/-- A client is added, described, removed, and added again. -/
def readded : List ClientAction :=
  [.listingEntered 7, .createPreset 0 "Amy", .addShortlistEntry 1 100 (some 7) none "" "",
    .archiveClient 2 100, .createPreset 3 " amy", .createPreset 4 "AMY"]

theorem readded_agrees : ∀ action ∈ readded, asciiClients.Agrees action := by
  intro action _
  cases action <;> first | rfl | trivial

/-- A client who is removed and added again is simulated. -/
theorem simulates_directory_readded :
    (reached asciiClients readded).directory asciiClients =
        run Directory.step .empty
          (requested (step asciiClients) (requests asciiClients) empty readded) ∧
      ∀ moment ∈ moments (step asciiClients) empty readded, ∀ now raw,
        moment.2 = .createPreset now raw →
          ∃ next redirect, moment.1.addClient asciiClients now raw = .ok (next, redirect) :=
  simulates_directory asciiClients readded readded_agrees

/-- The one client is back, with the entry. -/
example : (reached asciiClients readded).presets.map (fun preset =>
    (preset.clientSearchPresetId, preset.label, preset.archivedAt)) = [(100, "Amy", none)] ∧
      (reached asciiClients readded).entries.map (fun entry => (entry.place, entry.entryStatus)) =
        [((100, .listing 7), .included)] := by
  decide +kernel

end ClientDesk

end RentalAgent
