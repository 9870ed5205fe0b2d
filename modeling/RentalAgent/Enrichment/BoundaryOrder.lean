import RentalAgent.Canonical.Durability
import RentalAgent.Enrichment.GeographicScope

/-! # The order in which boundaries are loaded

An address is judged once, by the boundaries that are loaded when it is selected. A run ends
with the verdicts that it would reach with all boundaries loaded first just when no call
judges an address out of scope that a boundary loaded later meets
(`Database.boundaryOrder_iff`). The loaders are runs of upserts (`Database.run_registry`).
-/

namespace RentalAgent

open Relational Transition

/-- The calls on the registry, validation and admission. -/
inductive ScopeAction
  | upsertBoundary (upload : BoundaryUpload)
  | validateBoundaries (scan : ScopeRow → Nat) (limit : Nat)
  | evaluateCandidates (scan : Uuid → Nat) (now : Timestamp) (limit : Nat)

def ScopeAction.call : ScopeAction → LocationAction
  | .upsertBoundary upload => .upsertBoundary upload
  | .validateBoundaries scan limit => .validateBoundaries scan limit
  | .evaluateCandidates scan now limit => .service (.evaluateCandidates scan now limit)

/-- The call loads a boundary. -/
def ScopeAction.uploads : ScopeAction → Bool
  | .upsertBoundary _ => true
  | .validateBoundaries .. | .evaluateCandidates .. => false

namespace Address

/-- The verdict about a located address by the geometries of a registry. -/
def verdict (env : LocationEnvironment) (geometries : List String) (address : Address) :
    BoundaryStatus :=
  if geometries.any (address.meets env) then .inScope else .outOfScope

/-- The address with its verdict, when it is located. -/
def judged (env : LocationEnvironment) (geometries : List String) (address : Address) : Address :=
  if address.locationPoint = none then address
  else { address with boundaryStatus := address.verdict env geometries }

/-- The address before it was judged. -/
def unjudged (address : Address) : Address := { address with boundaryStatus := .unresolved }

variable {env : LocationEnvironment} {geometries : List String} {address other : Address}

theorem verdict_eq_inScope : address.verdict env geometries = .inScope ↔
    ∃ geometry ∈ geometries, address.meets env geometry = true := by
  simp [verdict]

theorem verdict_eq_outOfScope : address.verdict env geometries = .outOfScope ↔
    ∀ geometry ∈ geometries, address.meets env geometry = false := by
  simp [verdict]

theorem verdict_ne_unresolved : address.verdict env geometries ≠ .unresolved := by
  unfold verdict
  split <;> simp

/-- Addresses at one point have one verdict. -/
theorem verdict_congr (same : other.locationPoint = address.locationPoint) :
    other.verdict env geometries = address.verdict env geometries := by
  unfold verdict meets
  rw [same]

/-- An address that is located just when it has the verdict is the judged one. -/
theorem judged_unjudged (surveyed : address.Surveyed)
    (sound : address.locationPoint ≠ none →
      address.boundaryStatus = address.verdict env geometries) :
    address.unjudged.judged env geometries = address := by
  unfold judged
  split
  · rename_i unlocated
    have unresolved : address.boundaryStatus = .unresolved := by
      by_contra verdict
      exact surveyed verdict unlocated
    rw [unjudged, ← unresolved]
  · rename_i located
    have same : address.unjudged.verdict env geometries = address.boundaryStatus :=
      (verdict_congr rfl).trans (sound located).symm
    rw [same]
    rfl

end Address

namespace Database

/-- One call as a transaction. -/
def scopeStep (env : LocationEnvironment) (db : Database) (action : ScopeAction) : Database :=
  db.survey env action.call

/-- No boundary is loaded and no address is judged yet. -/
structure Unjudged (ids : IdSupply) (db : Database) : Prop where
  warranted : Warranted ids db
  unloaded : db.boundaries = []
  unresolved : ∀ address ∈ db.addresses, address.boundaryStatus = .unresolved

/-- Every located address has a verdict. -/
def Judged (db : Database) : Prop :=
  ∀ address ∈ db.addresses, address.locationPoint ≠ none → address.boundaryStatus ≠ .unresolved

instance (db : Database) : Decidable db.Judged :=
  inferInstanceAs (Decidable (∀ address ∈ db.addresses,
    address.locationPoint ≠ none → address.boundaryStatus ≠ .unresolved))

/-- The boundaries of the run loaded first, and then one validation. -/
def loadedFirst (env : LocationEnvironment) (start : Database) (actions : List ScopeAction)
    (scan : ScopeRow → Nat) (limit : Nat) : Database :=
  run (scopeStep env) start
    (actions.filter ScopeAction.uploads ++ [.validateBoundaries scan limit])

/-- The run ends with the addresses that it would end with if all boundaries were loaded
first, and with listings that these admit and exclude. -/
def OrderIndependent (env : LocationEnvironment) (start : Database) (actions : List ScopeAction) :
    Prop :=
  ∀ scan limit, (loadedFirst env start actions scan limit).Judged →
    (run (scopeStep env) start actions).addresses =
        (loadedFirst env start actions scan limit).addresses ∧
      ∀ standing ∈ (run (scopeStep env) start actions).standings,
        (standing.lifecycleStatus = .active →
            (loadedFirst env start actions scan limit).Admissible standing) ∧
          (standing.lifecycleStatus = .excluded →
            (loadedFirst env start actions scan limit).Excludable standing)

/-- A validation selects no unjudged address that lies outside every boundary loaded so far
and inside one of the registry. -/
def AwaitsRegistry (env : LocationEnvironment) (registry : List GeographicBoundary)
    (db : Database) : ScopeAction → Prop
  | .validateBoundaries scan limit => db.boundaries ≠ [] →
      ∀ address ∈ db.addresses, (address.addressId, none) ∈ db.selectedRows env scan limit →
        ∀ boundary ∈ registry, address.meets env boundary.geometry = false
  | .upsertBoundary _ | .evaluateCandidates .. => True

variable {env : LocationEnvironment} {start db next : Database} {shapes : List String}

/-! ## The registry -/

/-- What a verdict reads of the registry. -/
def contents (db : Database) : List (String × String) :=
  db.boundaries.map fun boundary => (boundary.regionCode, boundary.geometry)

/-- A call loads the boundary of an upload whose code is new. -/
def register (contents : List (String × String)) : ScopeAction → List (String × String)
  | .upsertBoundary upload =>
      if contents.any fun entry => entry.1 = upload.regionCode then contents
      else contents ++ [(upload.regionCode, upload.geometry)]
  | .validateBoundaries .. | .evaluateCandidates .. => contents

/-- Only uploads write boundaries. -/
theorem scopeStep_boundaries (action : ScopeAction) (silent : action.uploads = false) :
    (db.scopeStep env action).boundaries = db.boundaries := by
  cases action with
  | upsertBoundary upload => simp [ScopeAction.uploads] at silent
  | validateBoundaries scan limit =>
      obtain ⟨change, wrote, _⟩ := validateBoundaries_writes env scan limit db
      change (db.validateBoundaries env scan limit).1.boundaries = _
      rw [wrote]
  | evaluateCandidates scan now limit =>
      exact (evaluateCandidates_ledgerOnly scan limit db).boundaries

/-- The registry takes up the uploads one by one. -/
theorem scopeStep_contents (action : ScopeAction) :
    (db.scopeStep env action).contents = register db.contents action := by
  cases action with
  | upsertBoundary upload =>
      simp only [scopeStep, ScopeAction.call, survey, upsertBoundary, contents, register,
        List.any_map, Function.comp_def]
      split
      · rfl
      · exact List.map_append
  | validateBoundaries _ _ | evaluateCandidates _ _ _ =>
      exact congrArg (List.map _) (scopeStep_boundaries _ rfl)

theorem run_contents (start : Database) (actions : List ScopeAction) :
    (run (scopeStep env) start actions).contents = actions.foldl register start.contents := by
  induction actions generalizing start with
  | nil => rfl
  | cons action rest ih => rw [run_cons, ih, scopeStep_contents, List.foldl_cons]

/-- Loading the boundaries first leads to the same registry. -/
theorem loadedFirst_contents (start : Database) (actions : List ScopeAction)
    (scan : ScopeRow → Nat) (limit : Nat) :
    (loadedFirst env start actions scan limit).contents =
      (run (scopeStep env) start actions).contents := by
  have skips : ∀ contents (action : ScopeAction),
      (if action.uploads = true then register contents action else contents) =
        register contents action := by
    intro contents action
    cases action <;> rfl
  rw [loadedFirst, run_contents, run_contents, List.foldl_append, List.foldl_filter]
  simp only [skips]
  rfl

/-! ## What a validation judges -/

/-- The geometries of the registry. -/
def geometries (db : Database) : List String := db.boundaries.map GeographicBoundary.geometry

/-- What calls keep: listings and addresses are warranted, and boundaries are named. -/
structure Registered (ids : IdSupply) (db : Database) : Prop where
  warranted : Warranted ids db
  named : ∀ boundary ∈ db.boundaries, boundary.regionCode ≠ ""

/-- The verdict of a row is the verdict about its address. -/
theorem status_of_regions (named : ∀ boundary ∈ db.boundaries, boundary.regionCode ≠ "")
    {row : ScopeRow} {address : Address}
    (regions : db.regionsOf env address = [] ∧ row.2 = none ∨
      ∃ code ∈ db.regionsOf env address, row.2 = some code) :
    ScopeRow.status row = address.verdict env db.geometries := by
  obtain ⟨id, region⟩ := row
  rcases regions with ⟨unmet, rfl⟩ | ⟨code, member, rfl⟩
  · refine Eq.trans rfl (Address.verdict_eq_outOfScope.mpr fun geometry inside => ?_).symm
    obtain ⟨boundary, loaded, rfl⟩ := List.mem_map.mp inside
    simpa using List.filter_eq_nil_iff.mp (List.map_eq_nil_iff.mp unmet) boundary loaded
  · obtain ⟨boundary, inside, rfl⟩ := List.mem_map.mp member
    obtain ⟨loaded, meets⟩ := List.mem_filter.mp inside
    have filled : truthy (some boundary.regionCode) = some boundary.regionCode := by
      simp [truthy, Option.filter, named boundary loaded]
    have judged : ScopeRow.status (id, some boundary.regionCode) = .inScope := by
      simp [ScopeRow.status, filled]
    exact judged.trans (Address.verdict_eq_inScope.mpr
      ⟨_, List.mem_map_of_mem loaded, meets⟩).symm

/-- A validation judges the unjudged addresses that it selects by the registry. -/
theorem validateBoundaries_judges (registered : Registered env.ids db) (scan : ScopeRow → Nat)
    (limit : Nat) :
    ∃ change : Address → Address,
      (db.scopeStep env (.validateBoundaries scan limit)).addresses = db.addresses.map change ∧
        ∀ address ∈ db.addresses,
          (change address = address ∧ (db.boundaries ≠ [] →
            ∀ row ∈ db.selectedRows env scan limit, row.1 ≠ address.addressId)) ∨
          (db.boundaries ≠ [] ∧ address.boundaryStatus = .unresolved ∧
            change address =
              { address with boundaryStatus := address.verdict env db.geometries } ∧
            (address.verdict env db.geometries = .outOfScope →
              (address.addressId, none) ∈ db.selectedRows env scan limit)) := by
  obtain ⟨change, wrote, decided⟩ := validateBoundaries_writes env scan limit db
  refine ⟨change, congrArg Database.addresses wrote, fun address member => ?_⟩
  refine (decided address).imp_right ?_
  rintro ⟨loaded, row, selected, same, judged⟩
  obtain ⟨_, unresolved, regions⟩ :=
    located_of_selected registered.warranted.keyed.primary selected member same
  refine ⟨loaded, unresolved, status_of_regions registered.named regions ▸ judged,
    fun outside => ?_⟩
  rcases regions with ⟨_, unmet⟩ | ⟨code, inside, _⟩
  · rwa [show (address.addressId, none) = row from Prod.ext same.symm unmet.symm]
  · obtain ⟨boundary, found, rfl⟩ := List.mem_map.mp inside
    obtain ⟨inRegistry, meets⟩ := List.mem_filter.mp found
    rw [Address.verdict_eq_outOfScope.mp outside _ (List.mem_map_of_mem inRegistry)] at meets
    cases meets

/-- Only validations write addresses. -/
theorem scopeStep_addresses (action : ScopeAction)
    (silent : ∀ scan limit, action ≠ .validateBoundaries scan limit) :
    (db.scopeStep env action).addresses = db.addresses := by
  cases action with
  | validateBoundaries scan limit => exact (silent _ _ rfl).elim
  | upsertBoundary upload =>
      simp only [scopeStep, ScopeAction.call, survey, upsertBoundary]
      split <;> rfl
  | evaluateCandidates scan now limit =>
      exact (evaluateCandidates_ledgerOnly scan limit db).addresses

/-- No call writes buildings. -/
theorem scopeStep_buildings (action : ScopeAction) :
    (db.scopeStep env action).buildings = db.buildings := by
  cases action with
  | upsertBoundary upload =>
      simp only [scopeStep, ScopeAction.call, survey, upsertBoundary]
      split <;> rfl
  | validateBoundaries scan limit =>
      obtain ⟨change, wrote, _⟩ := validateBoundaries_writes env scan limit db
      change (db.validateBoundaries env scan limit).1.buildings = _
      rw [wrote]
  | evaluateCandidates scan now limit =>
      exact (evaluateCandidates_ledgerOnly scan limit db).buildings

/-- A call changes verdicts only. -/
theorem scopeStep_unjudged (registered : Registered env.ids db) (action : ScopeAction) :
    (db.scopeStep env action).addresses.map Address.unjudged =
      db.addresses.map Address.unjudged := by
  by_cases validates : ∃ scan limit, action = .validateBoundaries scan limit
  · obtain ⟨scan, limit, rfl⟩ := validates
    obtain ⟨change, wrote, judged⟩ := validateBoundaries_judges registered scan limit
    rw [wrote, List.map_map]
    apply List.map_congr_left
    intro address member
    rcases judged address member with ⟨stays, _⟩ | ⟨_, _, written, _⟩
    · rw [Function.comp_apply, stays]
    · rw [Function.comp_apply, written]
      rfl
  · push Not at validates
    rw [scopeStep_addresses action validates]

/-- Every call keeps listings and addresses warranted and boundaries named. -/
theorem Registered.step (registered : Registered env.ids db) (action : ScopeAction) :
    Registered env.ids (db.scopeStep env action) := by
  refine ⟨registered.warranted.survey action.call, ?_⟩
  cases action with
  | upsertBoundary upload =>
      simp only [scopeStep, ScopeAction.call, survey, upsertBoundary]
      split
      · exact registered.named
      · intro boundary member
        rcases List.mem_append.mp member with old | new
        · exact registered.named boundary old
        · obtain rfl := List.mem_singleton.mp new
          exact upload.named
  | validateBoundaries _ _ | evaluateCandidates _ _ _ =>
      rw [scopeStep_boundaries _ rfl]
      exact registered.named

theorem registered_preserved :
    Preserved (scopeStep env) (fun _ _ => True) (Registered env.ids) :=
  fun _ action registered _ => registered.step action

/-! ## Sound verdicts -/

/-- Every verdict is the one of the registry. -/
def Sound (env : LocationEnvironment) (shapes : List String) (db : Database) : Prop :=
  ∀ address ∈ db.addresses, address.boundaryStatus ≠ .unresolved →
    address.boundaryStatus = address.verdict env shapes

/-- A validation that awaits the registry judges by it, whatever is loaded so far. -/
theorem Sound.step {registry : List GeographicBoundary} {action : ScopeAction}
    (sound : Sound env (registry.map GeographicBoundary.geometry) db)
    (registered : Registered env.ids db)
    (below : db.geometries ⊆ registry.map GeographicBoundary.geometry)
    (awaits : AwaitsRegistry env registry db action) :
    Sound env (registry.map GeographicBoundary.geometry) (db.scopeStep env action) := by
  by_cases validates : ∃ scan limit, action = .validateBoundaries scan limit
  · obtain ⟨scan, limit, rfl⟩ := validates
    obtain ⟨change, wrote, judged⟩ := validateBoundaries_judges registered scan limit
    rw [Sound, wrote]
    intro after inside resolved
    obtain ⟨address, member, rfl⟩ := List.mem_map.mp inside
    rcases judged address member with ⟨stays, _⟩ | ⟨loaded, _, written, selected⟩
    · rw [stays] at resolved ⊢
      exact sound address member resolved
    · rw [written]
      refine Eq.trans ?_ (Address.verdict_congr rfl).symm
      change address.verdict env db.geometries = _
      cases verdict : address.verdict env db.geometries with
      | unresolved => exact (Address.verdict_ne_unresolved verdict).elim
      | inScope =>
          obtain ⟨geometry, known, meets⟩ := Address.verdict_eq_inScope.mp verdict
          exact (Address.verdict_eq_inScope.mpr ⟨geometry, below known, meets⟩).symm
      | outOfScope =>
          have unmet := awaits loaded address member (selected verdict)
          exact (Address.verdict_eq_outOfScope.mpr (List.forall_mem_map.mpr unmet)).symm
  · push Not at validates
    rw [Sound, scopeStep_addresses action validates]
    exact sound

/-- Sound verdicts on every located address determine the addresses. -/
theorem Sound.addresses (sound : Sound env shapes db) (registered : Registered env.ids db)
    (judged : db.Judged)
    (origin : db.addresses.map Address.unjudged = start.addresses) :
    db.addresses = start.addresses.map (Address.judged env shapes) := by
  rw [← origin, List.map_map]
  refine (List.map_id _).symm.trans (List.map_congr_left fun address member => ?_)
  refine (Address.judged_unjudged (registered.warranted.surveyed address member) ?_).symm
  exact fun located => sound address member (judged address member located)

/-! ## Wrong verdicts -/

/-- An address is out of scope though the registry has a boundary that it meets. -/
def Misjudged (env : LocationEnvironment) (shapes : List String) (db : Database) : Prop :=
  ∃ address ∈ db.addresses, address.boundaryStatus = .outOfScope ∧
    address.verdict env shapes = .inScope

/-- No later call corrects a verdict. -/
theorem Misjudged.step (misjudged : Misjudged env shapes db) (registered : Registered env.ids db)
    (action : ScopeAction) : Misjudged env shapes (db.scopeStep env action) := by
  obtain ⟨address, member, outside, meets⟩ := misjudged
  have surveys := survey_surveys registered.warranted.tracked registered.warranted.keyed action.call
  obtain ⟨change, more, wrote, advanced, _⟩ := surveys.addresses
  have resolved : address.boundaryStatus ≠ .unresolved := by simp [outside]
  have located := registered.warranted.surveyed address member resolved
  refine ⟨change address, ?_, ((advanced address member).resolved resolved).trans outside, ?_⟩
  · rw [scopeStep, wrote]
    exact List.mem_append_left _ (List.mem_map_of_mem member)
  · exact (Address.verdict_congr ((advanced address member).located located).1).trans meets

/-- A validation that does not await the registry misjudges an address. -/
theorem misjudged_of_not_awaits (registered : Registered env.ids db)
    {registry : List GeographicBoundary} {action : ScopeAction}
    (hasty : ¬ AwaitsRegistry env registry db action) :
    Misjudged env (registry.map GeographicBoundary.geometry) (db.scopeStep env action) := by
  cases action with
  | upsertBoundary _ | evaluateCandidates _ _ _ => exact (hasty trivial).elim
  | validateBoundaries scan limit =>
      simp only [AwaitsRegistry] at hasty
      push Not at hasty
      obtain ⟨loaded, address, member, selected, boundary, known, meets⟩ := hasty
      have inside : address.verdict env (registry.map GeographicBoundary.geometry) = .inScope :=
        Address.verdict_eq_inScope.mpr ⟨_, List.mem_map_of_mem known, by simpa using meets⟩
      obtain ⟨_, _, regions⟩ :=
        located_of_selected registered.warranted.keyed.primary selected member rfl
      have outside : address.verdict env db.geometries = .outOfScope :=
        (status_of_regions registered.named regions).symm
      obtain ⟨change, wrote, judged⟩ := validateBoundaries_judges registered scan limit
      rcases judged address member with ⟨_, unnamed⟩ | ⟨_, _, written, _⟩
      · exact (unnamed loaded _ selected rfl).elim
      · refine ⟨change address, wrote ▸ List.mem_map_of_mem member, ?_, ?_⟩
        · rw [written]
          exact outside
        · rw [written]
          exact (Address.verdict_congr rfl).trans inside

/-! ## Runs -/

theorem Unjudged.registered (unjudged : Unjudged ids start) : Registered ids start :=
  ⟨unjudged.warranted, by simp [unjudged.unloaded]⟩

theorem registered_run (unjudged : Unjudged env.ids start) (actions : List ScopeAction) :
    Registered env.ids (run (scopeStep env) start actions) :=
  registered_preserved.run unjudged.registered fun _ _ => trivial

/-- A run changes verdicts only. -/
theorem run_unjudged (unjudged : Unjudged env.ids start) (actions : List ScopeAction) :
    (run (scopeStep env) start actions).addresses.map Address.unjudged = start.addresses := by
  have kept : Preserved (scopeStep env) (fun _ _ => True) fun db => Registered env.ids db ∧
      db.addresses.map Address.unjudged = start.addresses.map Address.unjudged :=
    fun _ action ⟨registered, same⟩ _ =>
      ⟨registered.step action, (scopeStep_unjudged registered action).trans same⟩
  rw [(kept.run ⟨unjudged.registered, rfl⟩ fun _ _ => trivial).2]
  refine (List.map_congr_left fun address member => ?_).trans (List.map_id _)
  rw [Address.unjudged, ← unjudged.unresolved address member]
  rfl

theorem run_buildings (start : Database) (actions : List ScopeAction) :
    (run (scopeStep env) start actions).buildings = start.buildings := by
  induction actions generalizing start with
  | nil => rfl
  | cons action rest ih => rw [run_cons, ih, scopeStep_buildings]

/-- Every registry of a run is part of the last one. -/
theorem registries_grow (start : Database) (actions : List ScopeAction) :
    Permitted (scopeStep env) (fun db _ =>
      db.boundaries ⊆ (run (scopeStep env) start actions).boundaries) start actions := by
  refine permitted_below (fun db next => db.boundaries ⊆ next.boundaries)
    (fun _ => List.Subset.refl _) List.Subset.trans (fun db action => ?_) start actions
  cases action with
  | upsertBoundary upload =>
      simp only [scopeStep, ScopeAction.call, survey, upsertBoundary]
      split
      · exact List.Subset.refl _
      · exact List.subset_append_left _ _
  | validateBoundaries _ _ | evaluateCandidates _ _ _ =>
      rw [scopeStep_boundaries _ rfl]
      exact List.Subset.refl _

/-- A run whose validations await its last registry judges by it. -/
theorem sound_run (unjudged : Unjudged env.ids start) {actions : List ScopeAction}
    (awaits : Permitted (scopeStep env)
      (AwaitsRegistry env (run (scopeStep env) start actions).boundaries) start actions) :
    Sound env (run (scopeStep env) start actions).geometries
      (run (scopeStep env) start actions) := by
  generalize same : (run (scopeStep env) start actions).boundaries = registry at awaits
  rw [geometries, same]
  have kept : Preserved (scopeStep env)
      (fun db action => db.boundaries ⊆ registry ∧ AwaitsRegistry env registry db action)
      fun db => Registered env.ids db ∧ Sound env (registry.map GeographicBoundary.geometry) db :=
    fun _ action ⟨registered, sound⟩ ⟨below, awaits⟩ => ⟨registered.step action,
      sound.step registered (List.map_subset _ below) awaits⟩
  refine (kept.run ⟨unjudged.registered, ?_⟩ fun moment member => ⟨?_, awaits moment member⟩).2
  · exact fun address member resolved => (resolved (unjudged.unresolved address member)).elim
  · exact same ▸ registries_grow start actions moment member

/-- With all boundaries loaded first, the validation awaits none. -/
theorem loadedFirst_awaits (unjudged : Unjudged env.ids start) (actions : List ScopeAction)
    (scan : ScopeRow → Nat) (limit : Nat) :
    Permitted (scopeStep env)
      (AwaitsRegistry env (loadedFirst env start actions scan limit).boundaries) start
      (actions.filter ScopeAction.uploads ++ [.validateBoundaries scan limit]) := by
  refine (permitted_append _ _ _).mpr ⟨?_, (permitted_cons _ _ _).mpr ⟨?_, permitted_nil _⟩⟩
  · have only : ∀ action ∈ actions.filter ScopeAction.uploads, action.uploads = true :=
      fun action member => (List.mem_filter.mp member).2
    refine (permitted_of_forall only).mono fun db action uploads => ?_
    cases action with
    | upsertBoundary _ => trivial
    | validateBoundaries _ _ | evaluateCandidates _ _ _ => cases uploads
  · rw [loadedFirst, run_append, run_cons, run_nil, scopeStep_boundaries _ rfl]
    intro _ address member selected boundary known
    have warranted := (registered_run unjudged (actions.filter ScopeAction.uploads)).warranted
    obtain ⟨_, _, regions⟩ := located_of_selected warranted.keyed.primary selected member rfl
    rcases regions with ⟨unmet, _⟩ | ⟨_, _, absurd⟩
    · simpa using List.filter_eq_nil_iff.mp (List.map_eq_nil_iff.mp unmet) boundary known
    · cases absurd

/-- Loading first loads the same geometries. -/
theorem loadedFirst_geometries (start : Database) (actions : List ScopeAction)
    (scan : ScopeRow → Nat) (limit : Nat) :
    (loadedFirst env start actions scan limit).geometries =
      (run (scopeStep env) start actions).geometries := by
  have same : (loadedFirst env start actions scan limit).contents =
      (run (scopeStep env) start actions).contents := loadedFirst_contents start actions scan limit
  simpa only [geometries, contents, List.map_map, Function.comp_def] using
    congrArg (List.map Prod.snd) same

/-- With all boundaries loaded first, a validation judges every located address by them. -/
theorem loadedFirst_addresses (unjudged : Unjudged env.ids start) (actions : List ScopeAction)
    {scan : ScopeRow → Nat} {limit : Nat}
    (judged : (loadedFirst env start actions scan limit).Judged) :
    (loadedFirst env start actions scan limit).addresses =
      start.addresses.map
        (Address.judged env (run (scopeStep env) start actions).geometries) := by
  rw [← loadedFirst_geometries start actions scan limit]
  exact (sound_run unjudged (loadedFirst_awaits unjudged actions scan limit)).addresses
    (registered_run unjudged _) judged (run_unjudged unjudged _)

/-- A validation that selects every row leaves no located address without a verdict. -/
theorem validateBoundaries_judged (registered : Registered env.ids db)
    (loaded : db.boundaries ≠ []) (scan : ScopeRow → Nat) :
    (db.scopeStep env
      (.validateBoundaries scan (db.scopeRows env).length)).Judged := by
  obtain ⟨change, wrote, judged⟩ :=
    validateBoundaries_judges registered scan (db.scopeRows env).length
  rw [Judged, wrote]
  intro after inside located
  obtain ⟨address, member, rfl⟩ := List.mem_map.mp inside
  rcases judged address member with ⟨stays, unnamed⟩ | ⟨_, _, written, _⟩
  · rw [stays] at located ⊢
    intro unresolved
    have selected : ∀ row ∈ db.scopeRows env,
        row ∈ db.selectedRows env scan (db.scopeRows env).length := by
      intro row member
      rw [selectedRows, List.take_of_length_le (by rw [List.length_insertionSort])]
      exact (List.mem_insertionSort _).mpr member
    cases regions : db.regionsOf env address with
    | nil =>
        refine unnamed loaded (address.addressId, none) (selected _ ?_) rfl
        exact mem_scopeRows.mpr ⟨address, member, located, unresolved, rfl, .inl ⟨regions, rfl⟩⟩
    | cons code codes =>
        refine unnamed loaded (address.addressId, some code) (selected _ ?_) rfl
        exact mem_scopeRows.mpr ⟨address, member, located, unresolved, rfl,
          .inr ⟨code, by simp [regions], rfl⟩⟩
  · rw [written]
    exact Address.verdict_ne_unresolved

/-- A run that loads a boundary has a judged run with all boundaries loaded first. -/
theorem loadedFirst_judged (unjudged : Unjudged env.ids start) {actions : List ScopeAction}
    (loaded : (run (scopeStep env) start actions).geometries ≠ []) (scan : ScopeRow → Nat) :
    ∃ limit, (loadedFirst env start actions scan limit).Judged := by
  refine ⟨((run (scopeStep env) start (actions.filter ScopeAction.uploads)).scopeRows env).length,
    ?_⟩
  rw [loadedFirst, run_append]
  refine validateBoundaries_judged (registered_run unjudged _) (fun empty => loaded ?_) scan
  rw [← loadedFirst_geometries start actions scan 0, loadedFirst, run_append, run_cons, run_nil,
    geometries, scopeStep_boundaries _ rfl, empty]
  rfl

/-- A judged address is not misjudged. -/
theorem not_misjudged (unresolved : ∀ address ∈ start.addresses,
      address.boundaryStatus = .unresolved)
    (judged : db.addresses = start.addresses.map (Address.judged env shapes)) :
    ¬ Misjudged env shapes db := by
  rintro ⟨after, member, outside, inside⟩
  rw [judged] at member
  obtain ⟨address, known, rfl⟩ := List.mem_map.mp member
  unfold Address.judged at outside inside
  split at outside
  · rw [unresolved address known] at outside
    cases outside
  · rename_i located
    rw [if_neg located, Address.verdict_congr rfl] at inside
    cases outside.symm.trans inside

/-- Where listings stand depends on buildings and addresses alone. -/
theorem addressAt_congr (buildings : next.buildings = db.buildings)
    (addresses : next.addresses = db.addresses) (standing : Standing) :
    next.addressAt standing = db.addressAt standing := by
  rw [addressAt, buildings, addresses, addressAt]

/-! ## Loaders -/

/-- An upsert adds a boundary just when it says so. -/
theorem upsertBoundary_added (ids : IdSupply) (upload : BoundaryUpload) (db : Database) :
    (db.upsertBoundary ids upload).1.boundaries.length =
      db.boundaries.length + if (db.upsertBoundary ids upload).2 then 1 else 0 := by
  unfold upsertBoundary
  split
  · rfl
  · exact List.length_append

/-- The loop of both loaders is a run of upserts, and it counts the boundaries that it adds. -/
theorem loadBoundaries_eq_run (uploads : List BoundaryUpload) (db : Database) :
    (db.loadBoundaries env.ids uploads).1 =
        run (scopeStep env) db (uploads.map .upsertBoundary) ∧
      (db.loadBoundaries env.ids uploads).2 + db.boundaries.length =
        (db.loadBoundaries env.ids uploads).1.boundaries.length := by
  unfold loadBoundaries
  suffices general : ∀ state : Database × Nat,
      let after := uploads.foldl (fun (state : Database × Nat) upload =>
        ((state.1.upsertBoundary env.ids upload).1,
          if (state.1.upsertBoundary env.ids upload).2 then state.2 + 1 else state.2)) state
      after.1 = run (scopeStep env) state.1 (uploads.map .upsertBoundary) ∧
        after.2 + state.1.boundaries.length = state.2 + after.1.boundaries.length by
    obtain ⟨same, counted⟩ := general (db, 0)
    exact ⟨same, counted.trans (Nat.zero_add _)⟩
  induction uploads with
  | nil => exact fun _ => ⟨rfl, rfl⟩
  | cons upload rest ih =>
      intro state
      obtain ⟨same, counted⟩ := ih ((state.1.upsertBoundary env.ids upload).1,
        if (state.1.upsertBoundary env.ids upload).2 then state.2 + 1 else state.2)
      refine ⟨same, ?_⟩
      have grows := upsertBoundary_added env.ids upload state.1
      rw [List.foldl_cons]
      change (rest.foldl _ ((state.1.upsertBoundary env.ids upload).1,
        if (state.1.upsertBoundary env.ids upload).2 then state.2 + 1 else state.2)).2 + _ = _
      dsimp only at counted
      cases added : (state.1.upsertBoundary env.ids upload).2 with
      | true =>
          simp only [added, if_true] at counted grows ⊢
          omega
      | false =>
          simp only [added, Bool.false_eq_true, if_false] at counted grows ⊢
          omega

/-- The calls of the command line on the registry: each loader on the features of its dataset,
validation and admission. -/
inductive RegistryCall
  | loadNycBoroughs (datasetVersion : String) (features : List BoundaryFeature)
  | loadNjPlaces (datasetVersion : String) (features : List BoundaryFeature)
  | validateBoundaries (scan : ScopeRow → Nat) (limit : Nat)
  | evaluateCandidates (scan : Uuid → Nat) (now : Timestamp) (limit : Nat)

/-- One call of the command line as a transaction. -/
def registryStep (env : LocationEnvironment) (db : Database) : RegistryCall → Database
  | .loadNycBoroughs version features =>
      (db.loadNycBoroughs env.ids env.unicode version features).1
  | .loadNjPlaces version features => (db.loadNjPlaces env.ids version features).1
  | .validateBoundaries scan limit => db.scopeStep env (.validateBoundaries scan limit)
  | .evaluateCandidates scan now limit => db.scopeStep env (.evaluateCandidates scan now limit)

/-- What a call of the command line does, upsert by upsert. -/
def RegistryCall.actions (unicode : UnicodeTables) : RegistryCall → List ScopeAction
  | .loadNycBoroughs version features =>
      (features.filterMap (nycBoundary unicode version)).map .upsertBoundary
  | .loadNjPlaces version features =>
      (features.filterMap (njBoundary version)).map .upsertBoundary
  | .validateBoundaries scan limit => [.validateBoundaries scan limit]
  | .evaluateCandidates scan now limit => [.evaluateCandidates scan now limit]

/-- A run of loaders and validations is a run of upserts and validations, so what holds of every
such run holds of the loaders. -/
theorem run_registry (start : Database) (calls : List RegistryCall) :
    run (registryStep env) start calls =
      run (scopeStep env) start (calls.flatMap (RegistryCall.actions env.unicode)) := by
  induction calls generalizing start with
  | nil => rfl
  | cons call rest ih =>
      rw [run_cons, ih, List.flatMap_cons, run_append]
      congr 1
      cases call with
      | loadNycBoroughs version features => exact (loadBoundaries_eq_run _ start).1
      | loadNjPlaces version features => exact (loadBoundaries_eq_run _ start).1
      | validateBoundaries scan limit => rfl
      | evaluateCandidates scan now limit => rfl

/-! ## The order of loads -/

/-- **Order of boundaries.** A run that starts without boundaries and verdicts, and ends with
a verdict on every located address, ends as if all boundaries had been loaded first just when
no validation selects an address that lies outside every boundary loaded so far and inside
one loaded later. -/
theorem boundaryOrder_iff (unjudged : Unjudged env.ids start) {actions : List ScopeAction}
    (judged : (run (scopeStep env) start actions).Judged) :
    OrderIndependent env start actions ↔
      Permitted (scopeStep env)
        (AwaitsRegistry env (run (scopeStep env) start actions).boundaries) start actions := by
  have registered := registered_run unjudged actions
  constructor
  · intro independent
    refine permitted_of_not_lost registered_preserved
      (fun _ _ registered hasty => misjudged_of_not_awaits registered hasty)
      (fun _ action registered misjudged => misjudged.step registered action)
      unjudged.registered ?_
    intro misjudged
    have loaded : (run (scopeStep env) start actions).geometries ≠ [] := by
      obtain ⟨address, _, _, inside⟩ := misjudged
      obtain ⟨geometry, known, _⟩ := Address.verdict_eq_inScope.mp inside
      exact List.ne_nil_of_mem known
    obtain ⟨limit, firstJudged⟩ := loadedFirst_judged unjudged loaded fun _ => 0
    obtain ⟨same, _⟩ := independent _ limit firstJudged
    exact not_misjudged unjudged.unresolved
      (same.trans (loadedFirst_addresses unjudged actions firstJudged)) misjudged
  · intro awaits scan limit firstJudged
    have addresses : (run (scopeStep env) start actions).addresses =
        (loadedFirst env start actions scan limit).addresses := by
      rw [loadedFirst_addresses unjudged actions firstJudged]
      exact (sound_run unjudged awaits).addresses registered judged (run_unjudged unjudged actions)
    have places := addressAt_congr ((run_buildings start _).trans (run_buildings start _).symm)
      addresses.symm
    refine ⟨addresses, fun standing member => ⟨fun active => ?_, fun excluded => ?_⟩⟩
    · have admissible := registered.warranted.admitted standing member active
      exact ⟨admissible.layout, admissible.resolution, by
        rw [loadedFirst, places]
        exact admissible.located⟩
    · have excludable := registered.warranted.excluded standing member excluded
      rwa [Excludable, loadedFirst, places]

/-! ## Jersey City before its boundary -/

/-- A geometry is the longitude that it covers. -/
def meridians : LocationEnvironment where
  ids := countingIds
  unicode := asciiTables
  sha256 := String.ofList
  covers geometry point := geometry = "-74" && point.longitude = -74
  intersects geometry point := geometry = "-74" && point.longitude = -74

/-- A rental in Jersey City. -/
def jerseyListing : SourceObservation :=
  let row := observedAt 1 1 "a" none
  { row with
    parsedPayload :=
      { row.parsedPayload with
        identity := { rawAddressText := some "1 Main", sourceGeographicLabels := ["Jersey City"] }
        layout := { proposedLayoutClass := .studio } } }

/-- The rental is normalized and its address located. -/
def jerseyLocated : List LocationAction :=
  [.service (.outside
      { observations := [jerseyListing]
        sourceRuns := []
        overrides := []
        geography := fun address => (address.locationPrecision, address.boundaryStatus) }),
    .service (process 1),
    .geocodePending
      [{ providerCode := "census_geocoder"
         geocode := fun _ _ =>
          { status := .succeeded
            longitude := some (-74)
            latitude := some 40
            precision := .interpolatedAddress } }] (fun _ => 0) 0 500]

def manhattan : BoundaryUpload :=
  ⟨"NYC_MANHATTAN", "Manhattan (NYC)", "NYC", "-73", "1", by decide⟩

def jerseyCity : BoundaryUpload :=
  ⟨"NJ_JERSEY_CITY", "Jersey City, NJ", "NJ", "-74", "1", by decide⟩

/-- Validation and admission between the two loads, and a validation at the end. -/
def splitLoads : List ScopeAction :=
  [.upsertBoundary manhattan, .validateBoundaries (fun _ => 0) 1000,
    .evaluateCandidates (fun _ => 0) 0 1000, .upsertBoundary jerseyCity,
    .validateBoundaries (fun _ => 0) 1000]

/-- Both loads first. -/
def jointLoads : List ScopeAction :=
  [.upsertBoundary manhattan, .upsertBoundary jerseyCity, .validateBoundaries (fun _ => 0) 1000,
    .evaluateCandidates (fun _ => 0) 0 1000]

theorem unjudged_jersey :
    Unjudged meridians.ids (run (survey meridians) empty jerseyLocated) := by
  have warranted : Warranted meridians.ids (run (survey meridians) empty jerseyLocated) :=
    warranted_preserved.run (warranted_empty _) fun _ _ => trivial
  exact ⟨warranted, rfl, by decide⟩

/-- The rental is excluded by the boundary of another city, and stays so. -/
theorem excluded_before_its_boundary :
    (run (scopeStep meridians) (run (survey meridians) empty jerseyLocated) splitLoads).Judged ∧
      (∃ listing ∈ (run (scopeStep meridians) (run (survey meridians) empty jerseyLocated)
        splitLoads).listings, listing.lifecycleStatus = .excluded) ∧
      ¬ OrderIndependent meridians (run (survey meridians) empty jerseyLocated) splitLoads := by
  refine ⟨?_, ?_, fun independent => ?_⟩
  · decide
  · decide
  · exact absurd (independent (fun _ => 0) 1000 (by decide)).1 (by decide)

theorem boundaryOrder_iff_jersey :
    OrderIndependent meridians (run (survey meridians) empty jerseyLocated) jointLoads ↔
      Permitted (scopeStep meridians) (AwaitsRegistry meridians
        (run (scopeStep meridians) (run (survey meridians) empty jerseyLocated)
          jointLoads).boundaries) (run (survey meridians) empty jerseyLocated) jointLoads :=
  boundaryOrder_iff unjudged_jersey (by decide)

end Database

end RentalAgent
