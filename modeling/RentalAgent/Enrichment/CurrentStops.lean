import RentalAgent.Canonical.Reversal
import RentalAgent.Enrichment.NearbyTransit
import RentalAgent.Foundation.Transition

/-! # Whether nearby transit is current

What an enrichment stores is right only as far as its query and its reuse go. The query
looks at the stops of every dataset version; the reuse looks at the origin and not at the
stops. `enrichesCurrent_iff` says of every history when each enrichment leaves the nearest
stops of the newest datasets behind.
-/

namespace RentalAgent

open Relational Transition

/-! ## The purpose -/

/-- A stop as its provider knows it. -/
def TransitStop.providerStop (stop : TransitStop) : Uuid × String :=
  (stop.providerSourceId, stop.providerStopId)

namespace NearbyTables

/-- The dataset version of a provider that was ingested last. -/
def newestVersion (tables : NearbyTables) (providerSourceId : Uuid) : Option String :=
  (tables.ingested.find? fun version => version.1 = providerSourceId).map Prod.snd

/-- The stop is of the newest dataset version of its provider. -/
def Newest (tables : NearbyTables) (stop : TransitStop) : Prop :=
  tables.newestVersion stop.providerSourceId = some stop.datasetVersion

instance (tables : NearbyTables) : DecidablePred tables.Newest :=
  fun _ => inferInstanceAs (Decidable (_ = _))

/-- The rows of a listing and a mode, in the order of their ranks. -/
def rowsByRank (tables : NearbyTables) (canonicalListingId : Uuid) (mode : TransitMode) :
    List TransitAccess :=
  Ranking.ranked (fun first second => first.proximityRank ≤ second.proximityRank)
    (fun row => row.canonicalListingId = canonicalListingId && row.mode = mode) tables.access

/-- The stop of a row. -/
def stopOf (tables : NearbyTables) (row : TransitAccess) : Option TransitStop :=
  get TransitStop.transitStopId tables.transit.stops row.transitStopId

/-- The stops of rows. -/
def stopsOf (tables : NearbyTables) (rows : List TransitAccess) : List TransitStop :=
  rows.filterMap tables.stopOf

end NearbyTables

namespace NearbyEnvironment

variable {env : NearbyEnvironment} {tables : NearbyTables} {canonicalListingId : Uuid}
  {point : Point} {mode : TransitMode} {radius : Rat} {stops : List TransitStop}

/-- A candidate of the newest dataset version of its provider. -/
def current (env : NearbyEnvironment) (tables : NearbyTables) (point : Point)
    (mode : TransitMode) (radius : Rat) (stop : TransitStop) : Bool :=
  env.candidate point mode radius stop && decide (tables.Newest stop)

/-- The stops are the nearest current candidates, at most five, by distance. -/
structure Nearest (env : NearbyEnvironment) (tables : NearbyTables) (point : Point)
    (mode : TransitMode) (radius : Rat) (stops : List TransitStop) : Prop where
  among : ∀ stop ∈ stops, stop ∈ tables.transit.stops ∧
    env.current tables point mode radius stop = true
  ordered : stops.Pairwise fun first second => env.meters point first ≤ env.meters point second
  complete : stops.length =
    min maxCandidatesPerMode (tables.transit.stops.countP (env.current tables point mode radius))
  nearest : ∀ stop ∈ stops, ∀ other ∈ tables.transit.stops,
    env.current tables point mode radius other = true → other ∉ stops →
      env.meters point stop ≤ env.meters point other

/-- The rows of a listing show the nearest stops of each mode, ranked from one on, and no
stop of a provider twice. -/
structure Current (env : NearbyEnvironment) (tables : NearbyTables) (canonicalListingId : Uuid)
    (point : Point) : Prop where
  ranked : ∀ mode radius, (mode, radius) ∈ candidateRadii → ∃ stops,
    (tables.rowsByRank canonicalListingId mode).map
        (fun row => (row.transitStopId, row.proximityRank)) =
      (stops.zipIdx 1).map (fun place => (place.1.transitStopId, place.2)) ∧
    env.Nearest tables point mode radius stops
  modes : ∀ row ∈ tables.accessRows canonicalListingId, row.mode ∈ candidateRadii.map Prod.fst
  once : ((tables.stopsOf (tables.accessRows canonicalListingId)).map
    TransitStop.providerStop).Nodup

/-- Enriching a located listing leaves its rows current. -/
def EnrichesCurrent (env : NearbyEnvironment) (tables : NearbyTables) : NearbyAction → Prop
  | .enrich canonicalListingId now => ∀ point precision,
      tables.origin canonicalListingId = some (point, precision) →
        env.Current (env.enrichListing canonicalListingId now tables).1 canonicalListingId point
  | _ => True

/-! ## The condition -/

/-- Each candidate of a superseded dataset version has five other candidates before it. -/
def Unsuperseded (env : NearbyEnvironment) (tables : NearbyTables) (point : Point) : Prop :=
  ∀ mode radius, (mode, radius) ∈ candidateRadii → ∀ stop ∈ tables.transit.stops,
    env.candidate point mode radius stop = true → ¬tables.Newest stop →
      maxCandidatesPerMode ≤ Ranking.ahead (env.scan.before (env.meters point))
        (env.candidate point mode radius) tables.transit.stops stop

/-- Stops stand for a mode: they are current candidates, in the order of their distance
from the point, and a current candidate is missing only when five stops are there that are
no farther. -/
structure StandsFor (env : NearbyEnvironment) (tables : NearbyTables) (point : Point)
    (mode : TransitMode) (radius : Rat) (stops : List TransitStop) : Prop where
  among : ∀ stop ∈ stops, env.current tables point mode radius stop = true
  ordered : stops.Pairwise fun first second => env.meters point first ≤ env.meters point second
  nearest : ∀ other ∈ tables.transit.stops, env.current tables point mode radius other = true →
    other ∉ stops → stops.length = maxCandidatesPerMode ∧
      ∀ stop ∈ stops, env.meters point stop ≤ env.meters point other

/-- The stops of the stored rows of a listing stand. -/
def Stands (env : NearbyEnvironment) (tables : NearbyTables) (canonicalListingId : Uuid)
    (point : Point) : Prop :=
  ∀ mode radius, (mode, radius) ∈ candidateRadii → env.StandsFor tables point mode radius
    (tables.stopsOf (tables.rowsByRank canonicalListingId mode))

/-- Rows that an enrichment reuses stand, and what a query gives is not superseded. -/
def Undisturbed (env : NearbyEnvironment) (tables : NearbyTables) : NearbyAction → Prop
  | .enrich canonicalListingId _ => ∀ point precision,
      tables.origin canonicalListingId = some (point, precision) →
        if tables.existingHash canonicalListingId = some (env.locationHash point precision) then
          env.Stands tables canonicalListingId point
        else env.Unsuperseded tables point
  | _ => True

end NearbyEnvironment

/-! ## Rows and stops -/

namespace NearbyTables

variable {tables : NearbyTables} {rows : List TransitAccess} {stops : List TransitStop}
  {canonicalListingId : Uuid} {mode : TransitMode} {row : TransitAccess} {stop : TransitStop}

theorem mem_stopsOf (member : stop ∈ tables.stopsOf rows) :
    stop ∈ tables.transit.stops ∧ ∃ row ∈ rows, row.transitStopId = stop.transitStopId := by
  obtain ⟨row, listed, found⟩ := List.mem_filterMap.mp member
  exact ⟨mem_of_get found, row, listed, (key_of_get found).symm⟩

/-- Rows of stored stops have the identifiers of their stops. -/
theorem map_stopsOf (known : ∀ row ∈ rows,
      row.transitStopId ∈ tables.transit.stops.map TransitStop.transitStopId) :
    (tables.stopsOf rows).map TransitStop.transitStopId =
      rows.map TransitAccess.transitStopId := by
  induction rows with
  | nil => rfl
  | cons row rest ih =>
      obtain ⟨first, later⟩ := List.forall_mem_cons.mp known
      obtain ⟨stop, stored, same⟩ := List.mem_map.mp first
      cases found : tables.stopOf row with
      | none => exact (get_eq_none.mp found stop stored same).elim
      | some other =>
          rw [stopsOf, List.filterMap_cons_some found, List.map_cons, List.map_cons,
            key_of_get found]
          exact congrArg _ (ih later)

/-- Stored stops with the identifiers of rows are their stops. -/
theorem stopsOf_eq (unique : PrimaryKey TransitStop.transitStopId tables.transit.stops)
    (stored : ∀ stop ∈ stops, stop ∈ tables.transit.stops)
    (same : rows.map TransitAccess.transitStopId = stops.map TransitStop.transitStopId) :
    tables.stopsOf rows = stops := by
  induction rows generalizing stops with
  | nil => rw [List.map_eq_nil_iff.mp same.symm]; rfl
  | cons row rest ih =>
      cases stops with
      | nil => cases same
      | cons stop more =>
          obtain ⟨first, later⟩ := List.cons.inj same
          obtain ⟨here, others⟩ := List.forall_mem_cons.mp stored
          have found : tables.stopOf row = some stop :=
            (get_eq_some unique).mpr ⟨here, first.symm⟩
          rw [stopsOf, List.filterMap_cons_some found]
          exact congrArg _ (ih others later)

/-- Rows whose ranks count from one on show the places of their stops. -/
theorem places_of_ranks (known : ∀ row ∈ rows,
      row.transitStopId ∈ tables.transit.stops.map TransitStop.transitStopId)
    (ranks : rows.map TransitAccess.proximityRank = List.range' 1 rows.length) :
    rows.map (fun row => (row.transitStopId, row.proximityRank)) =
      ((tables.stopsOf rows).zipIdx 1).map (fun place => (place.1.transitStopId, place.2)) := by
  have ids := map_stopsOf known
  have length : (tables.stopsOf rows).length = rows.length := by
    simpa using congrArg List.length ids
  rw [← List.zip_map', ranks, ← ids, List.zip_map_left, List.zipIdx_eq_zip_range', length]
  rfl

theorem mem_rowsByRank : row ∈ tables.rowsByRank canonicalListingId mode ↔
    row ∈ tables.access ∧ row.canonicalListingId = canonicalListingId ∧ row.mode = mode := by
  simp [rowsByRank, Ranking.mem_ranked]

end NearbyTables

/-! ## What is stored -/

namespace NearbyEnvironment

variable {env : NearbyEnvironment} {tables : NearbyTables} {canonicalListingId : Uuid}
  {point : Point} {mode : TransitMode} {radius : Rat} {stops : List TransitStop}

/-- Rows refer to stored stops, a stop once for a listing and a mode, and the ranks of a
listing and a mode count from one to at most five. -/
structure Sound (env : NearbyEnvironment) (tables : NearbyTables) : Prop where
  keyed : tables.transit.Keyed env.ids
  known : ∀ row ∈ tables.access,
    row.transitStopId ∈ tables.transit.stops.map TransitStop.transitStopId
  modes : ∀ row ∈ tables.access, row.mode ∈ candidateRadii.map Prod.fst
  unique : PrimaryKey (fun row => (row.canonicalListingId, row.mode, row.transitStopId))
    tables.access
  ranks : ∀ canonicalListingId mode,
    (tables.rowsByRank canonicalListingId mode).map TransitAccess.proximityRank =
      List.range' 1 (tables.rowsByRank canonicalListingId mode).length
  few : ∀ canonicalListingId mode,
    (tables.rowsByRank canonicalListingId mode).length ≤ maxCandidatesPerMode

theorem Sound.known_rowsByRank (sound : Sound env tables) :
    ∀ row ∈ tables.rowsByRank canonicalListingId mode,
      row.transitStopId ∈ tables.transit.stops.map TransitStop.transitStopId :=
  fun row member => sound.known row (NearbyTables.mem_rowsByRank.mp member).1

/-- The stops of a listing and a mode are told apart. -/
theorem Sound.nodup_stopsOf (sound : Sound env tables) :
    (tables.stopsOf (tables.rowsByRank canonicalListingId mode)).Nodup := by
  have distinct : ((tables.rowsByRank canonicalListingId mode).map
      TransitAccess.transitStopId).Nodup := by
    refine (Ranking.ranked_perm.map _).nodup_iff.mpr (List.pairwise_map.mpr ?_)
    refine (List.Pairwise.filter _ sound.unique).imp_of_mem fun first second apart same => ?_
    simp only [List.mem_filter, Bool.and_eq_true, decide_eq_true_eq] at first second
    exact apart trivial trivial (Prod.ext (first.2.1.trans second.2.1.symm)
      (Prod.ext (first.2.2.trans second.2.2.symm) same))
  rw [← NearbyTables.map_stopsOf sound.known_rowsByRank] at distinct
  exact distinct.of_map _

/-- A listing has at most the allowed number of stops for each mode. -/
theorem Sound.length_stopsOf (sound : Sound env tables) :
    (tables.stopsOf (tables.rowsByRank canonicalListingId mode)).length ≤
      maxCandidatesPerMode := by
  have ids : (tables.stopsOf (tables.rowsByRank canonicalListingId mode)).map
      TransitStop.transitStopId = _ := NearbyTables.map_stopsOf sound.known_rowsByRank
  have length := congrArg List.length ids
  rw [List.length_map, List.length_map] at length
  exact length.trans_le (sound.few canonicalListingId mode)

theorem current_eq_true {stop : TransitStop} :
    env.current tables point mode radius stop = true ↔
      env.candidate point mode radius stop = true ∧ tables.Newest stop := by
  simp [current]

theorem mode_of_candidate {stop : TransitStop}
    (selected : env.candidate point mode radius stop = true) : stop.mode = mode := by
  simp only [candidate, Bool.and_eq_true, decide_eq_true_eq] at selected
  exact selected.1

/-- Distinct current candidates are no more than there are. -/
theorem length_le_countP (distinct : stops.Nodup)
    (among : ∀ stop ∈ stops, stop ∈ tables.transit.stops ∧
      env.current tables point mode radius stop = true) :
    stops.length ≤ tables.transit.stops.countP (env.current tables point mode radius) := by
  rw [List.countP_eq_length_filter]
  exact (List.subperm_of_subset distinct fun stop member =>
    List.mem_filter.mpr (among stop member)).length_le

/-- Stops that stand are the nearest ones, and the nearest ones stand. -/
theorem standsFor_iff (distinct : stops.Nodup) (few : stops.length ≤ maxCandidatesPerMode)
    (stored : ∀ stop ∈ stops, stop ∈ tables.transit.stops)
    (apart : tables.transit.stops.Nodup) :
    env.Nearest tables point mode radius stops ↔
      env.StandsFor tables point mode radius stops := by
  constructor
  · intro nearest
    refine ⟨fun stop member => (nearest.among stop member).2, nearest.ordered,
      fun other present current missing =>
        ⟨?_, fun stop member => nearest.nearest stop member other present current missing⟩⟩
    have more : (other :: stops).length ≤
        tables.transit.stops.countP (env.current tables point mode radius) :=
      length_le_countP (List.nodup_cons.mpr ⟨missing, distinct⟩)
        (List.forall_mem_cons.mpr ⟨⟨present, current⟩, nearest.among⟩)
    have complete := nearest.complete
    rw [List.length_cons] at more
    omega
  · intro stands
    have among : ∀ stop ∈ stops, stop ∈ tables.transit.stops ∧
        env.current tables point mode radius stop = true :=
      fun stop member => ⟨stored stop member, stands.among stop member⟩
    refine ⟨among, stands.ordered, ?_, fun stop member other present current missing =>
      (stands.nearest other present current missing).2 stop member⟩
    have least := length_le_countP distinct among
    by_cases left : ∃ other ∈ tables.transit.stops,
        env.current tables point mode radius other = true ∧ other ∉ stops
    · obtain ⟨other, present, current, missing⟩ := left
      have full := (stands.nearest other present current missing).1
      omega
    · have most : tables.transit.stops.countP (env.current tables point mode radius) ≤
          stops.length := by
        rw [List.countP_eq_length_filter]
        refine (List.subperm_of_subset (apart.filter _) fun stop member => ?_).length_le
        obtain ⟨present, current⟩ := List.mem_filter.mp member
        exact by_contra fun missing => left ⟨stop, present, current, missing⟩
      omega

/-- Where the stops of a listing stand, each row has a stop of its mode and of the newest
dataset version. -/
theorem Stands.newest {row : TransitAccess} {stop : TransitStop} (sound : Sound env tables)
    (stands : env.Stands tables canonicalListingId point)
    (listed : row ∈ tables.accessRows canonicalListingId)
    (found : tables.stopOf row = some stop) : stop.mode = row.mode ∧ tables.Newest stop := by
  obtain ⟨stored, own⟩ := List.mem_filter.mp listed
  obtain ⟨⟨mode, radius⟩, searched, same⟩ := List.mem_map.mp (sound.modes row stored)
  change mode = row.mode at same
  subst same
  have member : stop ∈ tables.stopsOf (tables.rowsByRank canonicalListingId row.mode) :=
    List.mem_filterMap.mpr
      ⟨row, NearbyTables.mem_rowsByRank.mpr ⟨stored, of_decide_eq_true own, rfl⟩, found⟩
  obtain ⟨selected, newest⟩ :=
    current_eq_true.mp ((stands row.mode radius searched).among stop member)
  exact ⟨mode_of_candidate selected, newest⟩

/-- Where the stops of a listing stand, no stop of a provider is there twice. -/
theorem Stands.once (sound : Sound env tables)
    (stands : env.Stands tables canonicalListingId point) :
    ((tables.stopsOf (tables.accessRows canonicalListingId)).map
      TransitStop.providerStop).Nodup := by
  refine List.pairwise_map.mpr (List.pairwise_filterMap.mpr ?_)
  refine (List.Pairwise.filter _ sound.unique).imp_of_mem ?_
  intro first second firstListed secondListed apart stop found other otherFound same
  obtain ⟨firstMode, firstNewest⟩ := stands.newest sound firstListed found
  obtain ⟨secondMode, secondNewest⟩ := stands.newest sound secondListed otherFound
  obtain ⟨provider, providerStop⟩ := Prod.mk.inj same
  rw [NearbyTables.Newest, provider] at firstNewest
  have version := Option.some.inj (firstNewest.symm.trans secondNewest)
  have one : stop = other := sound.keyed.stopKeys.eq_of_mem (mem_of_get found)
    (mem_of_get otherFound) (Prod.ext provider (Prod.ext providerStop version))
  have firstOwn := of_decide_eq_true (List.mem_filter.mp firstListed).2
  have secondOwn := of_decide_eq_true (List.mem_filter.mp secondListed).2
  refine apart trivial trivial (Prod.ext (firstOwn.trans secondOwn.symm)
    (Prod.ext ?_ ?_))
  · exact firstMode.symm.trans ((congrArg _ one).trans secondMode)
  · exact (key_of_get found).symm.trans ((congrArg _ one).trans (key_of_get otherFound))

/-- The rows of a listing are current just when their stops stand. -/
theorem current_iff (sound : Sound env tables) :
    env.Current tables canonicalListingId point ↔ env.Stands tables canonicalListingId point := by
  have apart : tables.transit.stops.Nodup :=
    (primaryKey_iff_nodup.mp sound.keyed.stopIds).of_map _
  constructor
  · intro current mode radius searched
    obtain ⟨stops, places, nearest⟩ := current.ranked mode radius searched
    have ids : (tables.rowsByRank canonicalListingId mode).map TransitAccess.transitStopId =
        ((stops.zipIdx 1).map Prod.fst).map TransitStop.transitStopId := by
      simpa only [List.map_map, Function.comp_def] using congrArg (List.map Prod.fst) places
    rw [List.zipIdx_map_fst] at ids
    have own : tables.stopsOf (tables.rowsByRank canonicalListingId mode) = stops :=
      NearbyTables.stopsOf_eq sound.keyed.stopIds
        (fun stop member => (nearest.among stop member).1) ids
    rw [own]
    have distinct : stops.Nodup := own ▸ sound.nodup_stopsOf
    have few : stops.length ≤ maxCandidatesPerMode := own ▸ sound.length_stopsOf
    exact (standsFor_iff distinct few (fun stop member => (nearest.among stop member).1)
      apart).mp nearest
  · intro stands
    refine ⟨fun mode radius searched => ⟨_, NearbyTables.places_of_ranks sound.known_rowsByRank
      (sound.ranks canonicalListingId mode), ?_⟩, fun row listed =>
        sound.modes row (List.mem_filter.mp listed).1, stands.once sound⟩
    exact (standsFor_iff sound.nodup_stopsOf sound.length_stopsOf
      (fun stop member => (NearbyTables.mem_stopsOf member).1) apart).mpr
        (stands mode radius searched)

/-! ## What a query gives -/

/-- Stops that come before each other are one stop. -/
theorem before_antisymm (sound : Sound env tables) (measure : TransitStop → Rat) :
    ∀ first ∈ tables.transit.stops, ∀ second ∈ tables.transit.stops,
      env.scan.before measure first second → env.scan.before measure second first →
        first = second := by
  intro first member second otherMember ahead behind
  rw [StopScan.before_eq] at ahead behind
  exact sound.keyed.stopIds.eq_of_mem member otherMember (env.apart (ahead.place_eq behind))

/-- What a query gives stands just when no superseded stop is nearer than five others. -/
theorem standsFor_nearestStops_iff (sound : Sound env tables) :
    env.StandsFor tables point mode radius
        (env.nearestStops point mode radius tables.transit.stops) ↔
      ∀ stop ∈ tables.transit.stops, env.candidate point mode radius stop = true →
        ¬tables.Newest stop → maxCandidatesPerMode ≤ Ranking.ahead
          (env.scan.before (env.meters point)) (env.candidate point mode radius)
            tables.transit.stops stop := by
  have apart : tables.transit.stops.Nodup :=
    (primaryKey_iff_nodup.mp sound.keyed.stopIds).of_map _
  have given : ∀ {stop}, stop ∈ env.nearestStops point mode radius tables.transit.stops ↔ _ :=
    Ranking.mem_firstRows_iff (before_antisymm sound (env.meters point)) apart
  constructor
  · intro stands stop present selected superseded
    by_contra few
    have listed := given.mpr ⟨⟨present, selected⟩, Nat.lt_of_not_le few⟩
    exact superseded (current_eq_true.mp (stands.among stop listed)).2
  · intro unsuperseded
    refine ⟨fun stop listed => ?_, ?_, fun other present current missing => ⟨?_, ?_⟩⟩
    · obtain ⟨⟨present, selected⟩, few⟩ := given.mp listed
      refine current_eq_true.mpr ⟨selected, by_contra fun superseded => ?_⟩
      exact absurd few (Nat.not_lt.mpr (unsuperseded stop present selected superseded))
    · have sorted : (Ranking.ranked (env.scan.before (env.meters point))
          (env.candidate point mode radius) tables.transit.stops).Pairwise
            (env.scan.before (env.meters point)) := Ranking.pairwise_ranked
      exact (sorted.sublist (List.take_sublist _ _)).imp StopScan.le_of_before
    · have selected := (current_eq_true.mp current).1
      have length : (env.nearestStops point mode radius tables.transit.stops).length = _ :=
        Ranking.length_firstRows
      by_contra short
      refine missing (Ranking.mem_firstRows_of_le ?_ present selected)
      omega
    · intro stop listed
      exact StopScan.le_of_before (Ranking.before_of_not_mem_firstRows listed present
        (current_eq_true.mp current).1 missing)

/-! ## One enrichment -/

variable {hash : String} {now : Timestamp} {precision : LocationPrecision}

/-- The tables after the rows of a listing were written anew. -/
def generated (env : NearbyEnvironment) (tables : NearbyTables) (canonicalListingId : Uuid)
    (point : Point) (hash : String) (now : Timestamp) : NearbyTables :=
  { tables with
    access := (tables.access.filter fun row => row.canonicalListingId ≠ canonicalListingId) ++
      candidateRadii.flatMap
        (env.modeRows canonicalListingId point hash now tables.transit.stops) }

theorem enrichListing_reuses (located : tables.origin canonicalListingId = some (point, precision))
    (same : tables.existingHash canonicalListingId = some (env.locationHash point precision)) :
    env.enrichListing canonicalListingId now tables = (tables, 0) := by
  rw [enrichListing, located]
  exact if_pos same

/-- A located listing whose hash differs has its rows generated. -/
theorem enrichListing_generates
    (located : tables.origin canonicalListingId = some (point, precision))
    (differs : tables.existingHash canonicalListingId ≠ some (env.locationHash point precision)) :
    (env.enrichListing canonicalListingId now tables).1 = env.generated tables
      canonicalListingId point (env.locationHash point precision) now := by
  rw [enrichListing, located]
  dsimp only
  rw [if_neg differs]
  by_cases fresh : tables.existingHash canonicalListingId = none
  · have none : tables.accessRows canonicalListingId = [] := by
      simpa [NearbyTables.existingHash] using fresh
    have kept : (tables.access.filter fun row => row.canonicalListingId ≠ canonicalListingId) =
        tables.access := by
      refine List.filter_eq_self.mpr fun row member => decide_eq_true fun own => ?_
      exact List.filter_eq_nil_iff.mp none row member (decide_eq_true own)
    simp only [fresh, ↓reduceIte, generated, kept]
  · simp only [fresh, ↓reduceIte, generated]

/-- A new row is of its listing and mode, and leads to one of the nearest stops. -/
theorem mem_modeRows {row : TransitAccess} {stops : List TransitStop}
    (member : row ∈ env.modeRows canonicalListingId point hash now stops (mode, radius)) :
    row.canonicalListingId = canonicalListingId ∧ row.mode = mode ∧
      ∃ stop ∈ env.nearestStops point mode radius stops,
        stop.transitStopId = row.transitStopId := by
  obtain ⟨⟨stop, rank⟩, place, rfl⟩ := List.mem_map.mp member
  exact ⟨rfl, rfl, stop, List.fst_mem_of_mem_zipIdx place, rfl⟩

/-- The ranks of the rows that are written for a mode count from one on. -/
theorem ranks_modeRows (stops : List TransitStop) :
    (env.modeRows canonicalListingId point hash now stops (mode, radius)).map
        TransitAccess.proximityRank =
      List.range' 1 (env.nearestStops point mode radius stops).length := by
  rw [modeRows, List.map_map]
  exact List.zipIdx_map_snd 1 _

theorem length_modeRows (stops : List TransitStop) :
    (env.modeRows canonicalListingId point hash now stops (mode, radius)).length =
      (env.nearestStops point mode radius stops).length := by
  rw [modeRows, List.length_map, List.length_zipIdx]

/-- The new rows lead to the nearest stops in order. -/
theorem stopIds_modeRows (stops : List TransitStop) :
    (env.modeRows canonicalListingId point hash now stops (mode, radius)).map
        TransitAccess.transitStopId =
      (env.nearestStops point mode radius stops).map TransitStop.transitStopId := by
  conv_rhs => rw [← List.zipIdx_map_fst 1 (env.nearestStops point mode radius stops)]
  rw [modeRows, List.map_map, List.map_map]
  rfl

/-- The rows that are written for a listing and a mode stand in the order of their ranks. -/
theorem rowsByRank_generated (searched : (mode, radius) ∈ candidateRadii) :
    (env.generated tables canonicalListingId point hash now).rowsByRank canonicalListingId mode =
      env.modeRows canonicalListingId point hash now tables.transit.stops (mode, radius) := by
  have written : (env.generated tables canonicalListingId point hash now).access.filter
      (fun row => row.canonicalListingId = canonicalListingId && row.mode = mode) =
        env.modeRows canonicalListingId point hash now tables.transit.stops (mode, radius) := by
    have own : ∀ other, (env.modeRows canonicalListingId point hash now tables.transit.stops
        other).filter (fun row => row.canonicalListingId = canonicalListingId && row.mode = mode) =
          if other.1 = mode then
            env.modeRows canonicalListingId point hash now tables.transit.stops other else [] := by
      rintro ⟨otherMode, otherRadius⟩
      split
      · rename_i same
        refine List.filter_eq_self.mpr fun row member => ?_
        obtain ⟨listing, same', _⟩ := mem_modeRows member
        simp [listing, same', ← same]
      · rename_i differs
        refine List.filter_eq_nil_iff.mpr fun row member => ?_
        obtain ⟨_, same', _⟩ := mem_modeRows member
        simp [same', differs]
    rw [generated, List.filter_append, List.filter_flatMap, List.filter_filter]
    have others : (tables.access.filter fun row =>
        (row.canonicalListingId = canonicalListingId && row.mode = mode) &&
          decide (row.canonicalListingId ≠ canonicalListingId)) = [] := by
      refine List.filter_eq_nil_iff.mpr fun row _ => ?_
      simp only [Bool.and_eq_true, decide_eq_true_eq, not_and]
      exact fun listed differs => differs listed.1
    rw [others, List.nil_append]
    simp only [own]
    simp only [candidateRadii, List.mem_cons, Prod.mk.injEq, List.not_mem_nil, or_false] at searched
    rcases searched with ⟨rfl, rfl⟩ | ⟨rfl, rfl⟩ <;> simp [candidateRadii]
  rw [NearbyTables.rowsByRank, Ranking.ranked, written]
  refine List.Pairwise.insertionSort_eq (List.pairwise_map.mp ?_)
  rw [ranks_modeRows]
  exact (List.pairwise_lt_range' 1).imp fun less => Nat.le_of_lt less

/-- Generating the rows of one listing leaves those of the others alone. -/
theorem rowsByRank_generated_of_ne {other : Uuid} (differs : other ≠ canonicalListingId) :
    (env.generated tables canonicalListingId point hash now).rowsByRank other mode =
      tables.rowsByRank other mode := by
  have written : (env.generated tables canonicalListingId point hash now).access.filter
      (fun row => row.canonicalListingId = other && row.mode = mode) =
        tables.access.filter (fun row => row.canonicalListingId = other && row.mode = mode) := by
    have none : (candidateRadii.flatMap
        (env.modeRows canonicalListingId point hash now tables.transit.stops)).filter
          (fun row => row.canonicalListingId = other && row.mode = mode) = [] := by
      refine List.filter_eq_nil_iff.mpr fun row member => ?_
      obtain ⟨⟨_, _⟩, _, listed⟩ := List.mem_flatMap.mp member
      simp [(mem_modeRows listed).1, Ne.symm differs]
    rw [generated, List.filter_append, none, List.append_nil, List.filter_filter]
    refine List.filter_congr fun row _ => ?_
    by_cases same : row.canonicalListingId = other <;> simp [same, differs]
  rw [NearbyTables.rowsByRank, Ranking.ranked, written]
  rfl

/-- The stops of the rows that are written are the stops that the query gave. -/
theorem stopsOf_generated (sound : Sound env tables) (searched : (mode, radius) ∈ candidateRadii) :
    (env.generated tables canonicalListingId point hash now).stopsOf
        ((env.generated tables canonicalListingId point hash now).rowsByRank
          canonicalListingId mode) =
      env.nearestStops point mode radius tables.transit.stops := by
  rw [rowsByRank_generated searched]
  exact NearbyTables.stopsOf_eq sound.keyed.stopIds
    (fun stop member => (Ranking.mem_of_mem_firstRows member).1) (stopIds_modeRows _)

/-- What is written stands just when no superseded stop is nearer than five others. -/
theorem stands_generated_iff (sound : Sound env tables) :
    env.Stands (env.generated tables canonicalListingId point hash now) canonicalListingId point ↔
      env.Unsuperseded tables point := by
  refine forall₂_congr fun mode radius => forall_congr' fun searched => ?_
  rw [stopsOf_generated sound searched]
  exact ⟨fun stands => (standsFor_nearestStops_iff sound).mp
      ⟨stands.among, stands.ordered, stands.nearest⟩,
    fun unsuperseded =>
      have stands := (standsFor_nearestStops_iff sound).mpr unsuperseded
      ⟨stands.among, stands.ordered, stands.nearest⟩⟩

theorem nodup_nearestStops (sound : Sound env tables) :
    ((env.nearestStops point mode radius tables.transit.stops).map
      TransitStop.transitStopId).Nodup := by
  refine List.Nodup.sublist ((List.take_sublist _ _).map _) ?_
  refine (Ranking.ranked_perm.map _).nodup_iff.mpr ?_
  exact (primaryKey_iff_nodup.mp sound.keyed.stopIds).sublist (List.filter_sublist.map _)

/-- Generated rows name each stop once a mode. -/
theorem unique_generated (sound : Sound env tables) :
    PrimaryKey (fun row => (row.canonicalListingId, row.mode, row.transitStopId))
      (env.generated tables canonicalListingId point hash now).access := by
  refine List.pairwise_append.mpr ⟨List.Pairwise.filter _ sound.unique, ?_, ?_⟩
  · refine List.pairwise_flatMap.mpr ⟨?_, ?_⟩
    · rintro ⟨mode, radius⟩ _
      have distinct : ((env.modeRows canonicalListingId point hash now tables.transit.stops
          (mode, radius)).map TransitAccess.transitStopId).Nodup := by
        rw [stopIds_modeRows]
        exact nodup_nearestStops sound
      refine (List.pairwise_map.mp distinct).imp fun apart _ _ same => apart ?_
      exact (Prod.mk.inj (Prod.mk.inj same).2).2
    · have modes : candidateRadii.Pairwise fun first second => first.1 ≠ second.1 := by decide
      refine modes.imp fun apart row member other otherMember _ _ same => apart ?_
      have mode := (Prod.mk.inj (Prod.mk.inj same).2).1
      rw [(mem_modeRows member).2.1, (mem_modeRows otherMember).2.1] at mode
      exact mode
  · intro row member other otherMember _ _ same
    obtain ⟨⟨mode, radius⟩, _, listed⟩ := List.mem_flatMap.mp otherMember
    refine of_decide_eq_true (List.mem_filter.mp member).2 ?_
    exact (Prod.mk.inj same).1.trans (mem_modeRows listed).1

/-- What the rows of a listing and a mode are after a listing was written anew. -/
theorem rowsByRank_generated_cases (listing : Uuid) (mode : TransitMode) :
    (env.generated tables canonicalListingId point hash now).rowsByRank listing mode =
        tables.rowsByRank listing mode ∨
      (∃ radius, (env.generated tables canonicalListingId point hash now).rowsByRank listing mode =
        env.modeRows canonicalListingId point hash now tables.transit.stops (mode, radius)) ∨
      (env.generated tables canonicalListingId point hash now).rowsByRank listing mode = [] := by
  by_cases own : listing = canonicalListingId
  · subst own
    by_cases searched : ∃ radius, (mode, radius) ∈ candidateRadii
    · obtain ⟨radius, searched⟩ := searched
      exact .inr (.inl ⟨radius, rowsByRank_generated searched⟩)
    · refine .inr (.inr (List.eq_nil_iff_forall_not_mem.mpr fun row member => searched ?_))
      obtain ⟨present, listed, rfl⟩ := NearbyTables.mem_rowsByRank.mp member
      rcases List.mem_append.mp present with old | new
      · exact (of_decide_eq_true (List.mem_filter.mp old).2 listed).elim
      · obtain ⟨⟨mode, radius⟩, among, written⟩ := List.mem_flatMap.mp new
        exact ⟨radius, (mem_modeRows written).2.1 ▸ among⟩
  · exact .inl (rowsByRank_generated_of_ne own)

/-- Generating rows keeps the tables sound. -/
theorem Sound.generated (sound : Sound env tables) :
    Sound env (env.generated tables canonicalListingId point hash now) := by
  refine ⟨sound.keyed, fun row member => ?_, fun row member => ?_, unique_generated sound,
    fun listing mode => ?_, fun listing mode => ?_⟩
  · rcases List.mem_append.mp member with old | new
    · exact sound.known row (List.mem_filter.mp old).1
    · obtain ⟨⟨mode, radius⟩, _, listed⟩ := List.mem_flatMap.mp new
      obtain ⟨_, _, stop, given, same⟩ := mem_modeRows listed
      exact List.mem_map.mpr ⟨stop, (Ranking.mem_of_mem_firstRows given).1, same⟩
  · rcases List.mem_append.mp member with old | new
    · exact sound.modes row (List.mem_filter.mp old).1
    · obtain ⟨⟨mode, radius⟩, searched, listed⟩ := List.mem_flatMap.mp new
      exact List.mem_map.mpr ⟨_, searched, (mem_modeRows listed).2.1.symm⟩
  · rcases rowsByRank_generated_cases listing mode with same | ⟨radius, same⟩ | same
    · rw [same]
      exact sound.ranks listing mode
    · rw [same, ranks_modeRows, length_modeRows]
    · rw [same]
      rfl
  · rcases rowsByRank_generated_cases listing mode with same | ⟨radius, same⟩ | same
    · rw [same]
      exact sound.few listing mode
    · rw [same, length_modeRows, nearestStops, Ranking.length_firstRows]
      exact Nat.min_le_left _ _
    · rw [same]
      exact Nat.zero_le _

/-! ## Histories -/

theorem enrichListing_unlocated (missing : tables.origin canonicalListingId = none) :
    env.enrichListing canonicalListingId now tables = (tables, 0) := by
  rw [enrichListing, missing]

/-- Every action keeps what is stored sound. -/
theorem Sound.step (sound : Sound env tables) (action : NearbyAction) :
    Sound env (env.step tables action) := by
  cases action with
  | ingest dataset providerSourceId =>
      exact ⟨sound.keyed.ingestDataset dataset providerSourceId,
        fun row member => TransitTables.mem_stopIds_ingestDataset dataset providerSourceId
          (sound.known row member), sound.modes, sound.unique, sound.ranks, sound.few⟩
  | relocate listings buildings addresses =>
      exact ⟨sound.keyed, sound.known, sound.modes, sound.unique, sound.ranks, sound.few⟩
  | enrich canonicalListingId now =>
      change Sound env (env.enrichListing canonicalListingId now tables).1
      rcases located : tables.origin canonicalListingId with - | ⟨point, precision⟩
      · rw [enrichListing_unlocated located]
        exact sound
      · by_cases same : tables.existingHash canonicalListingId =
            some (env.locationHash point precision)
        · rw [enrichListing_reuses located same]
          exact sound
        · rw [enrichListing_generates located same]
          exact sound.generated

/-- An action leaves the stops current just when nothing disturbs it. -/
theorem enrichesCurrent_action_iff (sound : Sound env tables) (action : NearbyAction) :
    EnrichesCurrent env tables action ↔ Undisturbed env tables action := by
  cases action with
  | ingest dataset providerSourceId => exact Iff.rfl
  | relocate listings buildings addresses => exact Iff.rfl
  | enrich canonicalListingId now =>
      refine forall₂_congr fun point precision => forall_congr' fun located => ?_
      split
      · rename_i same
        rw [enrichListing_reuses located same]
        exact current_iff sound
      · rename_i differs
        rw [enrichListing_generates located differs, current_iff sound.generated]
        exact stands_generated_iff sound

theorem sound_empty (env : NearbyEnvironment) : Sound env .empty where
  keyed := ⟨uniqueIndex_nil, uniqueIndex_nil, fun _ member => absurd member List.not_mem_nil⟩
  known := fun _ member => absurd member List.not_mem_nil
  modes := fun _ member => absurd member List.not_mem_nil
  unique := uniqueIndex_nil
  ranks := fun _ _ => rfl
  few := fun _ _ => Nat.zero_le _

/-- **Current stops.** In every history each enrichment leaves the nearest stops of the newest
datasets behind just when, at each enrichment, the rows that are reused stand and no
superseded stop is among the five nearest that are queried. -/
theorem enrichesCurrent_iff (env : NearbyEnvironment) (actions : List NearbyAction) :
    Permitted env.step (EnrichesCurrent env) .empty actions ↔
      Permitted env.step (Undisturbed env) .empty actions := by
  have kept : Preserved env.step (fun tables action => True ∧ Undisturbed env tables action)
      (Sound env) := fun _ action sound _ => sound.step action
  exact permitted_congr kept (fun _ action sound _ => enrichesCurrent_action_iff sound action)
    (sound_empty env) fun _ _ => trivial

/-- Distances along the streets of a grid. -/
def gridEnvironment : NearbyEnvironment where
  ids := countingIds
  scan := {
    distance := fun first second => 84000 * |first.longitude - second.longitude| +
      111000 * |first.latitude - second.latitude|
    position := id }
  apart := Function.injective_id
  digest := fun (longitude, latitude, _) => toString longitude ++ "," ++ toString latitude

/-- A stop next to the listing, in a dataset version. -/
def timesSquare (datasetVersion : String) : TransitDataset where
  operatorCode := "MTA"
  datasetVersion := datasetVersion
  stops := [⟨"127", none, "MTA", "Times Sq-42 St", .subway, 407553 / 10000, -739870 / 10000⟩]

/-- One listing in one building, which is located. -/
def locateListing : NearbyAction :=
  .relocate [Database.plainListing 1 .candidate] [⟨0, 3⟩]
    [{ addressId := 3, addressLine1 := none, locality := "New York", administrativeArea := "NY"
       formattedAddress := "", addressFingerprint := none, locationPrecision := .building
       boundaryStatus := .unresolved
       locationPoint := some ⟨-739875 / 10000, 407555 / 10000⟩ }]

/-- Two versions of a dataset are ingested: the listing shows their stop twice. -/
theorem timesSquare_twice :
    ¬Permitted gridEnvironment.step (EnrichesCurrent gridEnvironment) .empty
      [locateListing, .ingest (timesSquare "v1") 9, .ingest (timesSquare "v2") 9,
        .enrich 1 5] := by
  intro current
  obtain ⟨_, current⟩ := (permitted_cons _ _ _).mp current
  obtain ⟨_, current⟩ := (permitted_cons _ _ _).mp current
  obtain ⟨_, current⟩ := (permitted_cons _ _ _).mp current
  obtain ⟨enriched, _⟩ := (permitted_cons _ _ _).mp current
  have once := (enriched ⟨-739875 / 10000, 407555 / 10000⟩ .building rfl).once
  revert once
  decide +kernel

end NearbyEnvironment

end RentalAgent
