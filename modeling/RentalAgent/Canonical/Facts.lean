import RentalAgent.Database

/-! # Facts and overrides

`FactRecorder`: assertions, the current resolution of each fact, and the
precedence of active human overrides. The operations write evidence tables only.
-/

namespace RentalAgent

open Relational

/-- `RESOLUTION_RULE_VERSION`. -/
def resolutionRuleVersion : String := "recency-1"

/-- The arguments of `record` that vary between its callers here. -/
structure FactRecord where
  entityType : FactEntityType
  entityId : Uuid
  factKey : String
  valueJson : JsonScalar
  valueStatus : ValueStatus := .asserted
  derivationType : DerivationType := .sourceText
  confidence : Confidence
  sourceObservationId : Option Uuid := none
  evidenceText : Option String := none
  deriving DecidableEq

/-- The override is active and overrides the given field of the given entity. -/
def HumanOverride.governs (entityType : FactEntityType) (entityId : Uuid) (fieldName : String)
    (override : HumanOverride) : Bool :=
  override.entityType = entityType && override.entityId = entityId &&
    override.fieldName = fieldName && override.overrideStatus = .active

/-- The assertion `record` adds. -/
def FactRecord.assertion (record : FactRecord) (now : Timestamp) (id : Uuid) : FactAssertion where
  factAssertionId := id
  entityType := record.entityType
  entityId := record.entityId
  factKey := record.factKey
  valueJson := record.valueJson
  valueStatus := record.valueStatus
  derivationType := record.derivationType
  sourceObservationId := record.sourceObservationId
  evidenceText := record.evidenceText
  confidence := record.confidence
  validationStatus := .pending
  assertedAt := now

/-- The resolution `record` makes current. -/
def FactRecord.resolution (record : FactRecord) (id assertionId : Uuid) : FactResolution where
  factResolutionId := id
  entityType := record.entityType
  entityId := record.entityId
  factKey := record.factKey
  effectiveAssertionId := some assertionId
  resolutionStatus := if record.valueStatus = .asserted then .resolved else .unknown
  resolutionMethod := .recency
  resolutionRuleVersion := resolutionRuleVersion
  supersededAt := none

/-- The resolution is the current one of the recorded fact. -/
def FactRecord.supersedes (record : FactRecord) (resolution : FactResolution) : Bool :=
  resolution.entityType = record.entityType && resolution.entityId = record.entityId &&
    resolution.factKey = record.factKey && resolution.supersededAt = none

namespace Database

/-- `FactRecorder.active_override`. -/
def activeOverride (db : Database) (entityType : FactEntityType) (entityId : Uuid)
    (fieldName : String) : Except ServiceError (Option HumanOverride) :=
  scalarOneOrNone .multipleResultsFound
    (db.overrides.filter (HumanOverride.governs entityType entityId fieldName))

/-- `FactRecorder.record`. -/
def recordFact (ids : IdSupply) (now : Timestamp) (record : FactRecord) (db : Database) :
    Except ServiceError Database := do
  match ← db.activeOverride record.entityType record.entityId record.factKey with
  | some _ =>
      return { db with
        drawn := db.drawn + 1
        assertions := db.assertions ++ [record.assertion now (ids.uuid db.drawn)] }
  | none =>
      return { db with
        drawn := db.drawn + 2
        assertions := db.assertions ++ [record.assertion now (ids.uuid db.drawn)]
        resolutions :=
          updateWhere record.supersedes (fun row => { row with supersededAt := some now })
              db.resolutions ++
            [record.resolution (ids.uuid (db.drawn + 1)) (ids.uuid db.drawn)] }

/-- The conflict review issue `raise_conflict_with_override` adds. -/
def conflictIssue (id : Uuid) (override : HumanOverride) (entityId : Uuid) (factKey : String)
    (incoming : JsonScalar) : ReviewIssue where
  reviewIssueId := id
  entityType := .listing
  entityId := entityId
  issueType := .conflict
  severity := .warning
  status := .open
  details := .overrideConflict factKey override.humanOverrideId override.overrideValue incoming
  resolvedAt := none
  resolvedBy := none

/-- An open issue already surfaces a conflict about the fact. -/
def surfacesConflict (entityId : Uuid) (factKey : String) (issue : ReviewIssue) : Bool :=
  issue.entityType = .listing && issue.entityId = entityId && issue.issueType = .conflict &&
    issue.status = .open &&
      match issue.details with
      | .overrideConflict key _ _ _ => key = factKey
      | .duplicateCandidate .. | .circuitBreaker .. => false

/-- `FactRecorder.raise_conflict_with_override`. -/
def raiseConflictWithOverride (ids : IdSupply) (override : HumanOverride) (entityId : Uuid)
    (factKey : String) (incoming : JsonScalar) (db : Database) : Database :=
  if !override.reviewOnNewConflict || db.reviewIssues.any (surfacesConflict entityId factKey) then
    db
  else
    { db with
      drawn := db.drawn + 1
      reviewIssues := db.reviewIssues ++
        [conflictIssue (ids.uuid db.drawn) override entityId factKey incoming] }

end Database

end RentalAgent
