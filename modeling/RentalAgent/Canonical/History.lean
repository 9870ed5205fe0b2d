import RentalAgent.Canonical.Replay

/-! # Histories of normalization

A history keeps, beside the database, the observations whose processing returned,
in order, with the outcome of each. Questions about where the observations of a
source end up are questions about these visits and the final tables.
-/

namespace RentalAgent

open Relational Transition

/-- The rows and outcomes of a call of process_observation that returned. -/
structure Visit where
  row : SourceObservation
  outcome : NormalizationOutcome
  deriving DecidableEq

/-- A call of process_observation. -/
structure Request where
  scan : Uuid → Nat
  now : Timestamp
  discoveryMethod : DiscoveryMethod
  observationId : Uuid

def Request.action (request : Request) : ServiceAction :=
  .processObservation request.scan request.now request.discoveryMethod request.observationId

/-- A database and the visits that led to it. -/
structure History where
  db : Database
  visits : List Visit

/-- The columns of a link that identify it: they are written once. -/
structure LinkIdentity where
  linkId : Uuid
  listingId : Uuid
  sourceId : Uuid
  sourceNativeId : Option String
  sourceUrl : String
  deriving DecidableEq

def ListingSourceLink.identity (link : ListingSourceLink) : LinkIdentity where
  linkId := link.listingSourceLinkId
  listingId := link.canonicalListingId
  sourceId := link.sourceId
  sourceNativeId := link.sourceNativeId
  sourceUrl := link.sourceUrl

/-- The identity is the one of the row: by native id when the row has one, by URL
otherwise. -/
def LinkIdentity.identifies (row : SourceObservation) (entry : LinkIdentity) : Bool :=
  entry.sourceId = row.sourceId &&
    match row.sourceNativeId with
    | some nativeId => entry.sourceNativeId = some nativeId
    | none => entry.sourceUrl = row.sourceUrl

/-- The identity a row starts. -/
def SourceObservation.opens (row : SourceObservation) (linkId listingId : Uuid) : LinkIdentity where
  linkId := linkId
  listingId := listingId
  sourceId := row.sourceId
  sourceNativeId := row.sourceNativeId
  sourceUrl := row.sourceUrl

/-- A call for a row that is not put aside, when it returns. -/
def Database.visit (ids : IdSupply) (unicode : UnicodeTables) (db : Database) (request : Request) :
    Option (Database × Visit) :=
  match db.observation? request.observationId with
  | none => none
  | some row =>
      if row.processable then
        match db.processObservation ⟨ids, unicode, request.scan⟩ request.now
            request.discoveryMethod request.observationId with
        | .ok (next, outcome) => some (next, ⟨row, outcome⟩)
        | .error _ => none
      else none

namespace History

/-- Nothing was processed yet; the observations are stored. -/
def start (observations : List SourceObservation) (overrides : List HumanOverride) : History where
  db := { Database.empty with
    observations := observations
    overrides := overrides }
  visits := []

/-- One call; the visits grow when it returns. -/
def step (ids : IdSupply) (unicode : UnicodeTables) (history : History) (request : Request) :
    History :=
  match history.db.visit ids unicode request with
  | none => history
  | some (next, visit) => ⟨next, history.visits ++ [visit]⟩

/-- The rows of the visits. -/
abbrev rows (history : History) : List SourceObservation := history.visits.map Visit.row

end History

namespace Database

variable {ids : IdSupply} {unicode : UnicodeTables} {env : Environment} {now : Timestamp}
  {db next : Database} {row : SourceObservation} {observation : ParsedSourceObservation}
  {method : DiscoveryMethod} {outcome : NormalizationOutcome} {link : ListingSourceLink}
  {request : Request} {visit : Visit}

/-- A visit is the processing of a stored observation that is processable and does not fail. -/
theorem visit_eq_some : db.visit ids unicode request = some (next, visit) ↔
    db.observation? request.observationId = some visit.row ∧ visit.row.processable = true ∧
      db.processObservation ⟨ids, unicode, request.scan⟩ request.now request.discoveryMethod
        request.observationId = .ok (next, visit.outcome) := by
  unfold Database.visit
  cases db.observation? request.observationId with
  | none => simp
  | some row =>
      by_cases processable : row.processable = true
      · cases processed : db.processObservation ⟨ids, unicode, request.scan⟩ request.now
            request.discoveryMethod request.observationId with
        | error failure =>
            simp only [processable, ↓reduceIte, reduceCtorEq, and_false]
        | ok result =>
            obtain ⟨after, outcome⟩ := result
            obtain ⟨other, settled⟩ := visit
            simp only [processable, ↓reduceIte, Option.some.injEq, Prod.mk.injEq, Visit.mk.injEq,
              Except.ok.injEq]
            constructor
            · rintro ⟨rfl, rfl, rfl⟩
              exact ⟨rfl, processable, rfl, rfl⟩
            · rintro ⟨rfl, _, rfl, rfl⟩
              exact ⟨rfl, rfl, rfl⟩
      · simp only [processable, Bool.false_eq_true, ↓reduceIte, reduceCtorEq, false_iff, not_and,
          Option.some.injEq]
        rintro rfl visited
        exact absurd visited processable

/-- An update reports its link and the listing of its link. -/
theorem updateExisting_outcome
    (updated : db.updateExisting env now row observation link = .ok (next, outcome)) :
    outcome.listingSourceLinkId = some link.listingSourceLinkId ∧
      outcome.canonicalListingId = some link.canonicalListingId := by
  unfold updateExisting at updated
  dsimp only at updated
  split at updated
  · cases updated
  · rename_i listing found
    have owner : listing.canonicalListingId = link.canonicalListingId := key_of_get found
    split at updated
    · cases updated
      exact ⟨rfl, congrArg some owner⟩
    · split at updated
      · cases updated
        exact ⟨rfl, congrArg some owner⟩
      · obtain ⟨_, _, updated⟩ := bind_eq_ok.mp updated
        obtain ⟨_, _, updated⟩ := bind_eq_ok.mp updated
        obtain ⟨_, _, updated⟩ := bind_eq_ok.mp updated
        obtain ⟨⟨_, emitted⟩, _, wrote⟩ := bind_eq_ok.mp updated
        dsimp only at wrote
        split at wrote <;> (cases wrote; exact ⟨rfl, congrArg some owner⟩)

/-- The identities of the links. -/
def identities (db : Database) : List LinkIdentity := db.links.map ListingSourceLink.identity

theorem findLink_eq (db : Database) (row : SourceObservation) :
    db.findLink row = scalarOneOrNone .multipleResultsFound
      (db.links.filter fun link => link.identity.identifies row) := by
  unfold findLink LinkIdentity.identifies
  cases row.sourceNativeId <;> rfl

theorem filter_identities (db : Database) (row : SourceObservation) :
    db.identities.filter (LinkIdentity.identifies row) =
      (db.links.filter fun link => link.identity.identifies row).map ListingSourceLink.identity :=
  List.filter_map

/-- The lookup fails just when several identities are the one of the row. -/
theorem findLink_fails_iff {failure : ServiceError} : db.findLink row = .error failure ↔
    failure = .multipleResultsFound ∧
      1 < (db.identities.filter (LinkIdentity.identifies row)).length := by
  rw [findLink_eq, filter_identities, List.length_map]
  generalize (db.links.filter fun link => link.identity.identifies row) = found
  match found with
  | [] => simp
  | [_] => simp
  | _ :: _ :: _ => simp [scalarOneOrNone, eq_comm]

theorem identities_map {change : ListingSourceLink → ListingSourceLink}
    (links : next.links = db.links.map change)
    (keeps : ∀ link, (change link).identity = link.identity) : next.identities = db.identities := by
  rw [identities, links, List.map_map, identities]
  exact List.map_congr_left fun link _ => keeps link

/-- An update of a known identity leaves the identities of the links alone. -/
theorem Update.identities {listing : CanonicalListing}
    (update : Update env row observation link listing db next) :
    next.identities = db.identities := by
  have links := update.links
  split at links
  · rw [Database.identities, links, Database.identities]
  · refine identities_map links fun other => ?_
    unfold touchLink
    split <;> rfl

/-- What a visit does to the identities: the one of its row is known, or it is new and
opened. -/
inductive Visited (db next : Database) (visit : Visit) : Prop
  | known {entry : LinkIdentity}
      (found : db.identities.filter (LinkIdentity.identifies visit.row) = [entry])
      (same : next.identities = db.identities)
      (link : visit.outcome.listingSourceLinkId = some entry.linkId)
      (listing : visit.outcome.canonicalListingId = some entry.listingId)
  | opened {linkId listingId : Uuid}
      (absent : db.identities.filter (LinkIdentity.identifies visit.row) = [])
      (added : next.identities = db.identities ++ [visit.row.opens linkId listingId])
      (link : visit.outcome.listingSourceLinkId = some linkId)
      (listing : visit.outcome.canonicalListingId = some listingId)

/-- A visit finds the identity of its row, or opens it. -/
theorem visit_cases (visited : db.visit ids unicode request = some (next, visit)) :
    Visited db next visit := by
  obtain ⟨found, processable, processed⟩ := visit_eq_some.mp visited
  have parsed := SourceObservation.processable_iff.mp processable
  rcases processObservation_cases processed found parsed with
    ⟨unknown, created⟩ | ⟨link, known, updated⟩
  · obtain ⟨linkId, listingId, _, _, links, outcomeLink, outcomeListing⟩ :=
      createCanonical_link created
    rw [findLink_eq, scalarOneOrNone_eq_none] at unknown
    refine .opened (by rw [filter_identities, unknown, List.map_nil]) ?_ outcomeLink outcomeListing
    rw [identities, links, List.map_append]
    rfl
  · obtain ⟨outcomeLink, outcomeListing⟩ := updateExisting_outcome updated
    obtain ⟨listing, _, update⟩ := updateExisting_cases updated
    rw [findLink_eq, scalarOneOrNone_eq_some] at known
    exact .known (by rw [filter_identities, known, List.map_singleton]) update.identities
      outcomeLink
      outcomeListing

/-- A visit is a call of the service. -/
theorem visit_step (visited : db.visit ids unicode request = some (next, visit)) :
    db.step ids unicode request.action = next := by
  obtain ⟨_, _, processed⟩ := visit_eq_some.mp visited
  simp only [step, Request.action, perform, processed, ok_bind]
  rfl

end Database

namespace History

variable {ids : IdSupply} {unicode : UnicodeTables} {observations : List SourceObservation}
  {overrides : List HumanOverride}

/-- A history goes through the databases of the services. -/
theorem step_db (ids : IdSupply) (unicode : UnicodeTables) (history : History) (request : Request) :
    (history.step ids unicode request).db = history.db.step ids unicode request.action := by
  unfold step
  cases visited : history.db.visit ids unicode request with
  | some result => exact (Database.visit_step visited).symm
  | none =>
      unfold Database.visit at visited
      simp only [Database.step, Request.action, Database.perform]
      cases processed : history.db.processObservation ⟨ids, unicode, request.scan⟩ request.now
          request.discoveryMethod request.observationId with
      | error failure => rfl
      | ok result =>
          obtain ⟨next, outcome⟩ := result
          rw [processed] at visited
          obtain ⟨row, found, processes⟩ := Database.processObservation_processes processed
          simp only [found, ite_eq_right_iff, reduceCtorEq, imp_false] at visited
          cases processes with
          | aside _ same =>
              cases same
              rfl
          | opened parsed | continued parsed =>
              exact absurd (SourceObservation.processable_iff.mpr parsed) visited

theorem tracked_preserved (ids : IdSupply) (unicode : UnicodeTables) :
    Preserved (step ids unicode) (fun _ _ => True) fun history =>
      Database.Tracked ids history.db := by
  intro history request tracked _
  rw [step_db]
  exact tracked.moves (Database.step_moves tracked request.action)

theorem tracked_start (ids : IdSupply) (observations : List SourceObservation)
    (overrides : List HumanOverride) : Database.Tracked ids (start observations overrides).db :=
  (Database.tracked_empty ids).moves (Database.Quiet.refines ⟨rfl, Nat.le_refl _⟩)

/-- A request changes nothing, or is one more visit. -/
theorem step_cases (ids : IdSupply) (unicode : UnicodeTables) (history : History)
    (request : Request) : history.step ids unicode request = history ∨
      ∃ next visit, history.db.visit ids unicode request = some (next, visit) ∧
        history.step ids unicode request = ⟨next, history.visits ++ [visit]⟩ := by
  unfold step
  cases visited : history.db.visit ids unicode request with
  | none => exact .inl rfl
  | some result => exact .inr ⟨result.1, result.2, rfl, rfl⟩

/-- The visits of a state on the way are the first visits of the whole run. -/
theorem visits_of_moment (ids : IdSupply) (unicode : UnicodeTables) {history : History}
    {requests : List Request} :
    ∀ moment ∈ moments (step ids unicode) history requests,
      ∃ more, (run (step ids unicode) history requests).visits = moment.1.visits ++ more := by
  have grows : ∀ (requests : List Request) (history : History),
      ∃ more, (run (step ids unicode) history requests).visits = history.visits ++ more := by
    intro requests
    induction requests with
    | nil => exact fun history => ⟨[], (List.append_nil _).symm⟩
    | cons request rest ih =>
        intro history
        obtain ⟨more, same⟩ := ih (history.step ids unicode request)
        rcases step_cases ids unicode history request with idle | ⟨next, visit, _, stepped⟩
        · exact ⟨more, by rw [run_cons, same, idle]⟩
        · exact ⟨visit :: more, by rw [run_cons, same, stepped, List.append_assoc]; rfl⟩
  induction requests generalizing history with
  | nil => simp
  | cons request rest ih =>
      rintro moment (_ | ⟨_, member⟩)
      · exact grows (request :: rest) history
      · exact ih moment member

/-- The rows of the visits are stored. -/
def Stored (observations : List SourceObservation) (history : History) : Prop :=
  history.db.observations = observations ∧ ∀ row ∈ history.rows, row ∈ observations

/-- Visits keep the stored observations, and their rows are among them. -/
theorem stored_preserved (ids : IdSupply) (unicode : UnicodeTables)
    (observations : List SourceObservation) :
    Preserved (step ids unicode) (fun _ _ => True) (Stored observations) := by
  rintro history request ⟨table, rows⟩ _
  rcases step_cases ids unicode history request with idle | ⟨next, visit, visited, stepped⟩
  · rw [idle]
    exact ⟨table, rows⟩
  · obtain ⟨found, _, processed⟩ := Database.visit_eq_some.mp visited
    rw [stepped]
    refine ⟨?_, fun row member => ?_⟩
    · rw [← table, (Database.processObservation_canonicalOnly processed).frame]
    · rw [History.rows, List.map_append, List.mem_append] at member
      rcases member with old | new
      · exact rows row old
      · obtain rfl := List.mem_singleton.mp new
        exact table ▸ mem_of_get found

end History

end RentalAgent
