import RentalAgent.Acquisition.Snippet
import RentalAgent.Canonical.Replay

/-! # Labels that normalize to nothing

The unit branch of `_create_canonical` asks whether the raw label is empty, not
whether its fingerprint is. A bare designator therefore makes a unit with the empty
fingerprint, on which every other bare label of the building lands: units have
fingerprints just when no new identity comes with such a label
(`Database.unit_evidence_iff`).
-/

namespace RentalAgent

open Relational Transition

namespace ParsedSourceObservation

/-- The unit label is there and normalizes to nothing. -/
def BareLabel (unicode : UnicodeTables) (observation : ParsedSourceObservation) : Prop :=
  observation.unitLabel.map (unitFingerprint unicode) = some ""

instance (unicode : UnicodeTables) : DecidablePred (BareLabel unicode) := fun _ =>
  inferInstanceAs (Decidable (_ = _))

/-- The observation without its claims about the unit. -/
def withoutUnit (observation : ParsedSourceObservation) : ParsedSourceObservation :=
  { observation with
    identity :=
      { observation.identity with
        rawUnitLabel := none
        normalizedUnitCandidate := none } }

end ParsedSourceObservation

namespace Database

variable {ids : IdSupply} {unicode : UnicodeTables} {env : Environment} {now : Timestamp}
  {db next : Database} {row : SourceObservation} {observation : ParsedSourceObservation}
  {method : DiscoveryMethod} {outcome : NormalizationOutcome} {observationId : Uuid}

/-- Every unit has a fingerprint that says something. -/
def UnitsNamed (db : Database) : Prop := ∀ unit ∈ db.units, unit.unitFingerprint ≠ some ""

/-- A call asks for unit evidence: the units it leaves are named, and a new identity
with a bare label ends as it would without the label and is not attached by its unit. -/
structure AsksForEvidence (env : Environment) (now : Timestamp) (method : DiscoveryMethod)
    (row : SourceObservation) (db next : Database) (outcome : NormalizationOutcome) : Prop where
  named : next.UnitsNamed
  unlabelled : row.processable = true → db.findLink row = .ok none →
    row.parsedPayload.BareLabel env.unicode →
      db.createCanonical env now row row.parsedPayload.withoutUnit method = .ok (next, outcome)
  attached : row.processable = true → db.findLink row = .ok none →
    row.parsedPayload.BareLabel env.unicode →
      ∀ link ∈ next.links, link ∉ db.links → link.identityMethod ≠ .exactAddressAndUnit

/-- A new identity comes with no label or with one that says something. -/
def LabelNames (unicode : UnicodeTables) (db : Database) (row : SourceObservation) : Prop :=
  row.processable = true → db.findLink row = .ok none → ¬ row.parsedPayload.BareLabel unicode

/-! ## The units of one call -/

/-- A unit is found or is the one of the label. -/
theorem resolveUnit_units {building : Building} {unitMatch : UnitMatch}
    (resolved : db.resolveUnit env building observation = .ok (next, unitMatch)) :
    ∀ unit ∈ next.units, unit ∈ db.units ∨
      observation.unitLabel.map (unitFingerprint env.unicode) = unit.unitFingerprint := by
  cases resolveUnit_resolved resolved with
  | unlabelled | occupied | vacant => exact fun unit member => .inl member
  | added stated absent id inBuilding fingerprint =>
      intro unit member
      refine (List.mem_append.mp member).imp_right fun new => ?_
      rw [List.mem_singleton.mp new, stated, fingerprint]
      rfl

/-- A unit that was not there before has the fingerprint of the label. -/
theorem resolvePlace_units {building : Building} {unitMatch : UnitMatch}
    (resolved : db.resolvePlace env row observation = .ok (next, building, unitMatch)) :
    ∀ unit ∈ next.units, unit ∈ db.units ∨
      observation.unitLabel.map (unitFingerprint env.unicode) = unit.unitFingerprint := by
  obtain ⟨⟨first, address⟩, addressed, resolved⟩ := bind_eq_ok.mp resolved
  obtain ⟨⟨second, place⟩, built, resolved⟩ := bind_eq_ok.mp resolved
  obtain ⟨⟨third, found⟩, unitResolved, wrote⟩ := bind_eq_ok.mp resolved
  cases wrote
  rw [← resolveAddress_units addressed, ← resolveBuilding_units built]
  exact resolveUnit_units unitResolved

/-- What comes after the place adds no unit. -/
theorem Creation.units {building : Building} {unitMatch : UnitMatch}
    (creation : Creation env now row observation method db building unitMatch
      (.ok (next, outcome))) : next.units = db.units := by
  have begun : ∀ unitId, db.startListing env now row observation method building unitId =
      .ok (next, outcome) → next.units = db.units := by
    intro unitId started
    rw [(startListing_evidenceOnly started).frame]
    rfl
  generalize result : Except.ok (next, outcome) = ended at creation
  cases creation with
  | exact =>
      cases result
      rfl
  | strong _ =>
      cases result
      rfl
  | vacant => exact begun _ result.symm
  | unmatched _ => exact begun _ result.symm

/-- The units after a call: those before, and the one of the label of a new identity. -/
theorem processObservation_units (found : db.observation? observationId = some row)
    (processed : db.processObservation env now method observationId = .ok (next, outcome)) :
    ∀ unit ∈ next.units, unit ∈ db.units ∨ row.processable = true ∧ db.findLink row = .ok none ∧
      row.parsedPayload.unitLabel.map (unitFingerprint env.unicode) = unit.unitFingerprint := by
  obtain ⟨other, again, processes⟩ := processObservation_processes processed
  cases found.symm.trans again
  cases processes with
  | aside _ same => exact fun unit member => .inl (same ▸ member)
  | continued _ _ updated =>
      obtain ⟨_, _, update⟩ := updateExisting_cases updated
      rw [update.inventoryOnly.frame]
      exact fun unit member => .inl member
  | opened parsed unknown created =>
      obtain ⟨place, building, unitMatch, resolved, creation⟩ := createCanonical_cases created
      rw [creation.units]
      exact fun unit member => (resolvePlace_units resolved unit member).imp_right
        fun same => ⟨SourceObservation.processable_iff.mpr parsed, unknown, same⟩

/-- A new identity with a label leaves a unit with the fingerprint of the label. -/
theorem processObservation_unit (found : db.observation? observationId = some row)
    (processed : db.processObservation env now method observationId = .ok (next, outcome))
    (processable : row.processable = true) (unknown : db.findLink row = .ok none) {label : String}
    (stated : row.parsedPayload.unitLabel = some label) :
    ∃ unit ∈ next.units, unit.unitFingerprint = some (unitFingerprint env.unicode label) := by
  rcases processObservation_cases processed found (SourceObservation.processable_iff.mp processable)
    with ⟨_, created⟩ | ⟨_, known, _⟩
  · obtain ⟨place, building, unitMatch, resolved, creation⟩ := createCanonical_cases created
    rcases resolvePlace_eq_ok resolved with ⟨_, unlabelled⟩ | ⟨other, unit, same, unitFound⟩
    · cases unlabelled.symm.trans stated
    · cases same.symm.trans stated
      exact ⟨unit, creation.units ▸ unitFound.member, unitFound.fingerprint⟩
  · cases unknown.symm.trans known

/-! ## Runs -/

/-- The calls that return ask for unit evidence. -/
def EvidenceAsked (ids : IdSupply) (unicode : UnicodeTables) (db : Database) :
    ServiceAction → Prop
  | .processObservation scan now method observationId => ∀ row next outcome,
      db.observation? observationId = some row →
      db.processObservation ⟨ids, unicode, scan⟩ now method observationId = .ok (next, outcome) →
        AsksForEvidence ⟨ids, unicode, scan⟩ now method row db next outcome
  | .mergeListings .. | .reverseMerge .. | .resolveDuplicateCandidate .. | .evaluateCandidates ..
  | .processSourceRun .. | .outside _ => True

/-- The calls that return meet labels that say something. -/
def LabelsName (ids : IdSupply) (unicode : UnicodeTables) (db : Database) : ServiceAction → Prop
  | .processObservation scan now method observationId => ∀ row next outcome,
      db.observation? observationId = some row →
      db.processObservation ⟨ids, unicode, scan⟩ now method observationId = .ok (next, outcome) →
        LabelNames unicode db row
  | .mergeListings .. | .reverseMerge .. | .resolveDuplicateCandidate .. | .evaluateCandidates ..
  | .processSourceRun .. | .outside _ => True

/-- An observation whose label names its unit keeps every unit named. -/
theorem unitsNamed_of_labelNames (found : db.observation? observationId = some row)
    (processed : db.processObservation env now method observationId = .ok (next, outcome))
    (named : db.UnitsNamed) (names : LabelNames env.unicode db row) : next.UnitsNamed := by
  intro unit member empty
  rcases processObservation_units found processed unit member with
    old | ⟨processable, unknown, same⟩
  · exact named unit old empty
  · exact names processable unknown (same.trans empty)

/-- Observations whose labels name their units keep every unit named. -/
theorem unitsNamed_preserved : Preserved (step ids unicode)
    (fun db action => action.refreshes = true ∧ LabelsName ids unicode db action) UnitsNamed := by
  rintro db action named ⟨refreshes, names⟩
  unfold step
  split
  · rename_i next performed
    cases perform_performs performed with
    | processObservation processed =>
        obtain ⟨row, found, -⟩ := processObservation_processes processed
        exact unitsNamed_of_labelNames found processed named (names row _ _ found processed)
    | outside write => exact named
    | mergeListings _ | reverseMerge _ | resolveDuplicateCandidate _ | evaluateCandidates _ _ _
    | processSourceRun _ => cases refreshes
  · exact named

/-- Where units are named, normalization asks for evidence just when the label names its unit. -/
theorem asksForEvidence_iff (found : db.observation? observationId = some row)
    (processed : db.processObservation env now method observationId = .ok (next, outcome))
    (named : db.UnitsNamed) :
    AsksForEvidence env now method row db next outcome ↔ LabelNames env.unicode db row := by
  constructor
  · intro asks processable unknown bare
    obtain ⟨label, stated, empty⟩ := Option.map_eq_some_iff.mp bare
    obtain ⟨unit, member, fingerprint⟩ :=
      processObservation_unit found processed processable unknown stated
    exact asks.named unit member (fingerprint.trans (congrArg some empty))
  · intro names
    exact ⟨unitsNamed_of_labelNames found processed named names,
      fun processable unknown bare => (names processable unknown bare).elim,
      fun processable unknown bare => (names processable unknown bare).elim⟩

/-- **Unit evidence.** In every history of refreshes, no unit without a fingerprint
comes up and no new identity attaches through a bare label just when no new identity
that is processed comes with a bare label. -/
theorem unit_evidence_iff (ids : IdSupply) (unicode : UnicodeTables)
    (history : List ServiceAction) (only : ∀ action ∈ history, action.refreshes = true) :
    Permitted (step ids unicode) (EvidenceAsked ids unicode) Database.empty history ↔
      Permitted (step ids unicode) (LabelsName ids unicode) Database.empty history := by
  refine permitted_congr unitsNamed_preserved ?_ (fun _ member => (List.not_mem_nil member).elim)
    (permitted_of_forall only)
  intro db action named refreshes
  cases action with
  | processObservation scan now method observationId =>
      exact forall_congr' fun row => forall_congr' fun next => forall_congr' fun outcome =>
        forall_congr' fun found => forall_congr' fun processed =>
          asksForEvidence_iff found processed named
  | outside _ => exact Iff.rfl
  | mergeListings _ _ | reverseMerge _ _ _ _ _ | resolveDuplicateCandidate _ _ _ _ _ _
  | evaluateCandidates _ _ _ | processSourceRun _ _ => exact Iff.rfl

/-! ## Two apartments of one building -/

/-- A listing of one source, with the unit label that its title gives. -/
def titled (id : Uuid) (nativeId title : String) : SourceObservation :=
  observedAt id 1 nativeId ((searchUnitLabel asciiTables title.toList).map String.ofList)

/-- Two listings of one building. -/
def titledRun (first second : String) : List ServiceAction :=
  [.outside
      { observations := [titled 1 "a" first, titled 2 "b" second]
        sourceRuns := []
        overrides := []
        geography := fun address => (address.locationPrecision, address.boundaryStatus) },
    process 1, process 2]

/-- The equivalence at two numbered apartments of one building. -/
theorem unit_evidence_iff_numbered :
    Permitted (step countingIds asciiTables) (EvidenceAsked countingIds asciiTables) Database.empty
      (titledRun "1 Main St #4A" "1 Main St #4B") := by
  refine (unit_evidence_iff countingIds asciiTables _ (by decide)).mpr ?_
  refine (permitted_cons _ _ _).mpr ⟨trivial, (permitted_cons _ _ _).mpr ⟨?first,
    (permitted_cons _ _ _).mpr ⟨?second, permitted_nil _⟩⟩⟩
  case first =>
    intro row _ _ found _ _ _
    cases found
    decide
  case second =>
    intro row _ _ found _ _ _
    cases found
    decide

/-- Titles with "#Apt" give bare labels, and the second apartment is attached to the
listing of the first by its unit. -/
theorem bare_labels_collapse :
    ¬ Permitted (step countingIds asciiTables) (EvidenceAsked countingIds asciiTables)
      Database.empty
      (titledRun "1 Main St #Apt 4" "1 Main St #Apt 7") := by
  intro permitted
  obtain ⟨_, permitted⟩ := (permitted_cons _ _ _).mp permitted
  obtain ⟨_, permitted⟩ := (permitted_cons _ _ _).mp permitted
  obtain ⟨asks, _⟩ := (permitted_cons _ _ _).mp permitted
  have asked := asks (titled 2 "b" "1 Main St #Apt 7") _ _ rfl rfl
  exact asked.attached (by decide) (by decide) (by decide) _ (List.getLast_mem (by decide))
    (by decide) (by decide)

end Database

end RentalAgent
