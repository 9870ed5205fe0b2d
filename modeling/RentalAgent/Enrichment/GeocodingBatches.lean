import RentalAgent.Enrichment.GeocodedPoints
import RentalAgent.Foundation.Sweep

/-! # Batches that place nothing

`geocode_pending` cuts a batch before it skips placeholders, and a placeholder that is skipped
stays pending. What a call attempts depends on which rows the database gives: as many
placeholders as the limit can fill every batch, and an address behind them is never asked for.
With fewer placeholders than the limit every call attempts an address, whatever the rows, until
none is left (`batches_make_progress_iff`).
-/

namespace RentalAgent

open Relational Transition Ranking

/-- The address has no point, has not failed, and has a line to ask for. -/
def Address.geocodable (address : Address) : Bool := address.pending && !address.placeholder

/-- The address is selected and skipped. -/
def Address.unusable (address : Address) : Bool := address.pending && address.placeholder

/-- What a call of `geocode_pending` is made with: the time, the geocoders, and the order in
which the database meets the rows. -/
structure GeocodeCall where
  now : Timestamp
  geocoders : List Geocoder
  scan : Uuid → Nat

namespace Database

variable (env : LocationEnvironment) (limit : Nat)

/-- The database after a call. -/
def geocodeStep (db : Database) (call : GeocodeCall) : Database :=
  (db.geocodePending env call.now call.geocoders call.scan limit).1

/-- How many addresses a call attempts. -/
def attempts (db : Database) (call : GeocodeCall) : Nat :=
  (db.geocodePending env call.now call.geocoders call.scan limit).2.attempted

variable {env limit} {now : Timestamp} {geocoders : List Geocoder} {db : Database}

/-! ## One call -/

/-- An address that is geocoded is located or failed, and the others stay as they are. -/
theorem geocodeAddress_settles (env : LocationEnvironment) (now : Timestamp)
    (geocoders : List Geocoder) (db : Database) {address : Address} {line : String}
    (usable : truthy address.addressLine1 = some line) :
    ∃ change : Address → Address,
      (db.geocodeAddress env now geocoders address).1.addresses =
        updateWhere (fun row => row.addressId = address.addressId) change db.addresses ∧
      ∀ row, (change row).addressId = row.addressId ∧ (change row).pending = false := by
  have requests := askGeocoders_requestsOnly env now address (address.geocodeRequest line)
    geocoders db
  rw [geocodeAddress, usable]
  dsimp only
  split
  case h_1 found _ =>
    have registered := requests.trans
      (geocoderSource_requestsOnly env.ids found.providerCode _)
    exact ⟨fun row => row.locate found.point found.result _ now _,
      congrArg (updateWhere _ _) registered.addresses,
      fun row => ⟨rfl, by simp [Address.pending, Address.locate]⟩⟩
  case h_2 =>
    exact ⟨fun row => { row with geocodeStatus := .failed },
      congrArg (updateWhere _ _) requests.addresses,
      fun row => ⟨rfl, by simp [Address.pending]⟩⟩

/-- The address is among the rows and not skipped. -/
def Picked (rows : List Address) (address : Address) : Prop :=
  ∃ row ∈ rows, row.addressId = address.addressId ∧ row.placeholder = false

/-- A round settles its address unless it skips it. -/
theorem geocodeRound_settles (env : LocationEnvironment) (now : Timestamp)
    (geocoders : List Geocoder) (row : Address) (state : Database × GeocodeRunSummary) :
    ∃ change : Address → Address,
      (geocodeRound env now geocoders state row).1.addresses = state.1.addresses.map change ∧
      ∀ address, (change address).addressId = address.addressId ∧
        (Picked [row] address → (change address).pending = false) ∧
        (¬Picked [row] address → change address = address) := by
  cases skipped : row.placeholder with
  | true =>
      refine ⟨id, ?_, fun address => ⟨rfl, fun ⟨other, member, _, usable⟩ => ?_, fun _ => rfl⟩⟩
      · simp [geocodeRound, skipped]
      · rw [List.mem_singleton.mp member, skipped] at usable
        cases usable
  | false =>
      have line : ∃ line, truthy row.addressLine1 = some line := by
        rw [← Option.isSome_iff_exists, ← Option.not_isNone]
        simp only [Address.placeholder, Bool.or_eq_false_iff] at skipped
        simp [skipped.1]
      obtain ⟨line, usable⟩ := line
      obtain ⟨change, wrote, settles⟩ :=
        geocodeAddress_settles env now geocoders state.1 usable
      have round : (geocodeRound env now geocoders state row).1.addresses =
          (state.1.geocodeAddress env now geocoders row).1.addresses := by
        simp only [geocodeRound, skipped, Bool.false_eq_true, if_false]
        split <;> rfl
      refine ⟨fun address => if address.addressId = row.addressId then change address else address,
        ?_, fun address => ?_⟩
      · rw [round, wrote, updateWhere]
        simp only [decide_eq_true_eq]
      · have picked : Picked [row] address ↔ address.addressId = row.addressId :=
          ⟨fun ⟨other, member, same, _⟩ => List.mem_singleton.mp member ▸ same.symm,
            fun same => ⟨row, List.mem_singleton.mpr rfl, same.symm, skipped⟩⟩
        rw [picked]
        by_cases same : address.addressId = row.addressId
        · simp [same, settles address]
        · simp [same]

/-- The rounds settle the addresses that are not skipped and leave the others as they are. -/
theorem geocodeRounds_settle (env : LocationEnvironment) (now : Timestamp)
    (geocoders : List Geocoder) (rows : List Address) (state : Database × GeocodeRunSummary) :
    ∃ change : Address → Address,
      (rows.foldl (geocodeRound env now geocoders) state).1.addresses =
        state.1.addresses.map change ∧
      ∀ address, (change address).addressId = address.addressId ∧
        (Picked rows address → (change address).pending = false) ∧
        (¬Picked rows address → change address = address) := by
  induction rows generalizing state with
  | nil => exact ⟨id, by simp, fun address => ⟨rfl, by simp [Picked], fun _ => rfl⟩⟩
  | cons row rest ih =>
      obtain ⟨first, wrote, settles⟩ :=
        geocodeRound_settles env now geocoders row state
      obtain ⟨second, wroteRest, settlesRest⟩ := ih (geocodeRound env now geocoders state row)
      refine ⟨second ∘ first, ?_, fun address => ?_⟩
      · rw [List.foldl_cons, wroteRest, wrote, List.map_map]
      · obtain ⟨sameId, here, apart⟩ := settles address
        obtain ⟨sameIdRest, there, apartRest⟩ := settlesRest (first address)
        have picked : Picked (row :: rest) address ↔
            Picked [row] address ∨ Picked rest (first address) := by
          simp [Picked, sameId]
        refine ⟨sameIdRest.trans sameId, fun chosen => ?_, fun left => ?_⟩
        · by_cases later : Picked rest (first address)
          · exact there later
          · change (second (first address)).pending = false
            rw [apartRest later]
            exact here ((picked.mp chosen).resolve_right later)
        · rw [picked, not_or] at left
          change second (first address) = address
          rw [apartRest left.2, apart left.1]

/-- A run of rounds attempts the rows that it does not skip. -/
theorem attempted_geocodeRounds (rows : List Address) (state : Database × GeocodeRunSummary) :
    (rows.foldl (geocodeRound env now geocoders) state).2.attempted =
      state.2.attempted + rows.countP fun row => !row.placeholder := by
  induction rows generalizing state with
  | nil => rfl
  | cons row rest ih =>
      rw [List.foldl_cons, ih, List.countP_cons]
      cases skipped : row.placeholder with
      | true => simp [geocodeRound, skipped]
      | false =>
          have counted : (geocodeRound env now geocoders state row).2.attempted =
              state.2.attempted + 1 := by
            simp only [geocodeRound, skipped, Bool.false_eq_true, if_false]
            split <;> rfl
          rw [counted]
          simp
          omega

/-! ## Batches -/

/-- A call attempts the addresses of its batch that are not skipped. -/
theorem attempts_eq (db : Database) (call : GeocodeCall) :
    db.attempts env limit call =
      (db.pendingAddresses call.scan limit).countP fun row => !row.placeholder := by
  rw [attempts, geocodePending, attempted_geocodeRounds, Nat.zero_add]

theorem pendingAddresses_eq (scan : Uuid → Nat) (db : Database) :
    db.pendingAddresses scan limit =
      firstRows (fun first second => scan first.addressId ≤ scan second.addressId)
        Address.pending limit db.addresses := rfl

theorem attempts_pos {call : GeocodeCall} : 0 < db.attempts env limit call ↔
    ∃ row ∈ firstRows (fun first second => call.scan first.addressId ≤ call.scan second.addressId)
      Address.pending limit db.addresses, (!row.placeholder) = true := by
  rw [attempts_eq, pendingAddresses_eq, List.countP_pos_iff]

/-- Every call attempts an address exactly when one is geocodable and the addresses that are
skipped do not fill the limit. -/
theorem attempts_pos_iff (keyed : PrimaryKey Address.addressId db.addresses) :
    (∀ call, 0 < db.attempts env limit call) ↔
      (∃ address ∈ db.addresses, address.geocodable = true) ∧
        db.addresses.countP Address.unusable < limit := by
  have wanted : (∀ scan : Uuid → Nat,
      ∃ row ∈ firstRows (fun first second => scan first.addressId ≤ scan second.addressId)
        Address.pending limit db.addresses, (!row.placeholder) = true) ↔
      (∃ row ∈ db.addresses, row.pending = true ∧ (!row.placeholder) = true) ∧
        db.addresses.countP (fun row => row.pending && !!row.placeholder) < limit :=
    firstRows_wanted_iff fun first inside second within =>
      keyed.eq_of_mem inside within
  simp only [Bool.not_not] at wanted
  simp only [Address.geocodable, Bool.and_eq_true]
  refine Iff.trans ?_ wanted
  exact ⟨fun every scan => attempts_pos.mp (every ⟨0, [], scan⟩),
    fun every call => attempts_pos.mpr (every call.scan)⟩

/-- Calls select pending addresses and want those that are not skipped. -/
def geocodeRule : Sweep.Rule Address Uuid where
  key := Address.addressId
  selects := Address.pending
  wanted address := !address.placeholder

theorem idle_geocodeRule : geocodeRule.idle = Address.unusable := by
  funext address
  simp [Sweep.Rule.idle, geocodeRule, Address.unusable]

/-- A call is a sweep: the addresses that it attempts are no longer pending, and the others
stay as they are. -/
theorem swept_geocodeStep (env : LocationEnvironment) (limit : Nat)
    (keyed : PrimaryKey Address.addressId db.addresses) (call : GeocodeCall) :
    geocodeRule.Swept limit call.scan db.addresses (db.geocodeStep env limit call).addresses := by
  obtain ⟨change, wrote, settles⟩ := geocodeRounds_settle env call.now call.geocoders
    (db.pendingAddresses call.scan limit) (db, {})
  have picked : ∀ {address}, geocodeRule.settles limit db.addresses call.scan address = true →
      Picked (db.pendingAddresses call.scan limit) address := by
    intro address chosen
    obtain ⟨inside, usable⟩ := Sweep.Rule.settles_eq_true.mp chosen
    exact ⟨address, inside, rfl, (Bool.not_eq_true' _).mp usable⟩
  refine ⟨change, wrote.trans (List.map_congr_left fun address member => ?_),
    fun address chosen => ⟨(settles address).1, (settles address).2.1 (picked chosen)⟩⟩
  by_cases chosen : geocodeRule.settles limit db.addresses call.scan address = true
  · rw [if_pos chosen]
  · rw [if_neg chosen]
    refine (settles address).2.2 fun ⟨row, inside, same, usable⟩ => chosen ?_
    obtain rfl := keyed.eq_of_mem (mem_of_mem_firstRows inside).1 member same
    exact Sweep.Rule.settles_eq_true.mpr ⟨inside, (Bool.not_eq_true' _).mpr usable⟩

/-- Calls sweep the addresses. -/
theorem sweeps_geocodeStep (env : LocationEnvironment) (limit : Nat) :
    geocodeRule.Sweeps limit (geocodeStep env limit) addresses GeocodeCall.scan :=
  fun _ call keyed => swept_geocodeStep env limit keyed call

/-- A call that attempts nothing leaves every address as it is. -/
theorem geocodeStep_idle (keyed : PrimaryKey Address.addressId db.addresses) {call : GeocodeCall}
    (idle : db.attempts env limit call = 0) :
    (db.geocodeStep env limit call).addresses = db.addresses := by
  rw [attempts_eq, List.countP_eq_zero] at idle
  exact (swept_geocodeStep env limit keyed call).eq_self fun row inside =>
    Bool.eq_false_iff.mpr (idle row inside)

/-! ## Calls in a row -/

/-- The addresses of a database have their keys, and if one is geocodable, those that are
skipped do not fill the limit. -/
structure Unblocked (limit : Nat) (db : Database) : Prop where
  keyed : PrimaryKey Address.addressId db.addresses
  room : (∃ address ∈ db.addresses, address.geocodable = true) →
    db.addresses.countP Address.unusable < limit

/-- An unblocked database has room for the sweep of a call. -/
theorem unblocked_iff : Unblocked limit db ↔
    PrimaryKey geocodeRule.key db.addresses ∧ geocodeRule.Room limit db.addresses := by
  rw [Sweep.Rule.Room, idle_geocodeRule]
  exact ⟨fun unblocked => ⟨unblocked.keyed, unblocked.room⟩,
    fun ⟨keyed, room⟩ => ⟨keyed, room⟩⟩

theorem Unblocked.run (unblocked : Unblocked limit db) (env : LocationEnvironment)
    (calls : List GeocodeCall) :
    Unblocked limit (run (Database.geocodeStep env limit) db calls) :=
  unblocked_iff.mpr ((sweeps_geocodeStep env limit).preserved.run (unblocked_iff.mp unblocked)
    fun _ _ => trivial)

/-- In an unblocked database every call attempts an address as long as one is geocodable. -/
theorem Unblocked.attempts_pos (unblocked : Unblocked limit db) (env : LocationEnvironment)
    (left : ∃ address ∈ db.addresses, address.geocodable = true) (call : GeocodeCall) :
    0 < db.attempts env limit call :=
  (attempts_pos_iff unblocked.keyed).mpr ⟨left, unblocked.room left⟩ call

/-- As many calls as there are geocodable addresses leave none. -/
theorem Unblocked.drained (unblocked : Unblocked limit db) (env : LocationEnvironment)
    {calls : List GeocodeCall}
    (enough : db.addresses.countP Address.geocodable ≤ calls.length) :
    ∀ address ∈ (Transition.run (Database.geocodeStep env limit) db calls).addresses,
      address.geocodable = false :=
  (sweeps_geocodeStep env limit).drained unblocked.keyed (unblocked_iff.mp unblocked).2 enough

/-- **Batches.** Every call attempts an address as long as one is geocodable, a call that
attempts nothing leaves none, and as many calls as there are geocodable addresses leave none,
whatever the rows and the answers, exactly when no address is geocodable or the pending
addresses without a usable line are fewer than the limit. -/
theorem batches_make_progress_iff (env : LocationEnvironment) (limit : Nat)
    (keyed : PrimaryKey Address.addressId db.addresses) :
    (∀ calls,
      let reached := run (geocodeStep env limit) db calls
      ((∃ address ∈ reached.addresses, address.geocodable = true) →
        ∀ call, 0 < reached.attempts env limit call) ∧
      (∀ call, reached.attempts env limit call = 0 →
        ∀ address ∈ (reached.geocodeStep env limit call).addresses, address.geocodable = false) ∧
      (db.addresses.countP Address.geocodable ≤ calls.length →
        ∀ address ∈ reached.addresses, address.geocodable = false)) ↔
    ((∃ address ∈ db.addresses, address.geocodable = true) →
      db.addresses.countP Address.unusable < limit) := by
  constructor
  · intro progress left
    exact ((attempts_pos_iff keyed).mp ((progress []).1 left)).2
  · intro room calls
    have unblocked : Unblocked limit db := ⟨keyed, room⟩
    have reached := unblocked.run env calls
    refine ⟨reached.attempts_pos env, fun call idle => ?_, unblocked.drained env⟩
    rw [geocodeStep_idle reached.keyed idle]
    intro address member
    refine Bool.eq_false_iff.mpr fun left => ?_
    have := reached.attempts_pos env ⟨address, member, left⟩ call
    omega

/-- One call after which the address of Jersey City is settled, beside a placeholder. -/
theorem jersey_is_settled :
    ((run (geocodeStep longitudes 500) jerseyAddresses
      [⟨5, [geocoderAt "census" (-74)], id⟩]).addresses.all fun address =>
        !address.geocodable) = true := by
  have keyed : PrimaryKey Address.addressId jerseyAddresses.addresses :=
    primaryKey_iff_nodup.mpr (by decide)
  have few : jerseyAddresses.addresses.countP Address.unusable < 500 := by decide
  have one : jerseyAddresses.addresses.countP Address.geocodable = 1 := by decide
  have settled := ((batches_make_progress_iff longitudes 500 keyed).mpr (fun _ => few)
    [⟨5, [geocoderAt "census" (-74)], id⟩]).2.2 one.le
  exact List.all_eq_true.mpr fun address member => by rw [settled address member, Bool.not_false]

/-- As many placeholders as a batch takes, and an address that can be geocoded. -/
def fullBatch : Database :=
  { Database.empty with
    addresses := (List.range 500).map (fun k =>
        { columbusDrive with
          addressId := k
          addressLine1 := none
          formattedAddress := "[address unresolved]" }) ++
      [{ columbusDrive with addressId := 500 }] }

/-- A call whose batch is all placeholders attempts nothing, although an address could be
geocoded. -/
theorem placeholders_fill_a_batch :
    (∃ address ∈ fullBatch.addresses, address.geocodable = true) ∧
      fullBatch.attempts longitudes 500 ⟨5, [geocoderAt "census" (-74)], id⟩ = 0 := by
  refine ⟨⟨{ columbusDrive with addressId := 500 }, by simp [fullBatch], by decide⟩, ?_⟩
  decide +kernel

end Database

end RentalAgent
