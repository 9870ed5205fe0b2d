import RentalAgent.Enrichment.QuotaRefusals
import RentalAgent.Foundation.Transition

/-! # Runs of checks

One property is checked again and again, each time with other answers of the web, the model and
the geocoders. What a check writes to the link and to the history of the property is one of
three things (`checkRow_cases`): nothing, a failure, or what it read from a page.
-/

namespace RentalAgent

open Dialogue Transition

/-- One check of a property: its environment with the rules for texts, its times, and the answers
of the web. -/
structure CheckRound (rules : TextRules) where
  env : CompanyEnvironment
  rules_eq : env.toTextRules = rules
  now : Timestamp
  committedAt : Timestamp
  discardStale : Bool
  respond : List TavilyExchange → TavilyRequest → TavilyAnswer

namespace CheckRound

variable {rules : TextRules} (round : CheckRound rules) (row : CompanyProperty)

/-- The exchanges of a check, and how it ends. -/
def course : List TavilyExchange × Except ServiceError (Option CheckResult × CompanyProperty) :=
  (round.env.refreshProperty round.now round.committedAt round.discardStale row).converse
    round.respond []

/-- What the check exchanges with the web. -/
def talk : List TavilyExchange := (round.course row).1

/-- What the check returns, unless it raises. -/
def result : Option CheckResult :=
  match (round.course row).2 with
  | .ok (result, _) => result
  | .error _ => none

end CheckRound

variable {rules : TextRules}

/-- The row as it is stored after a check. -/
def checkRow (row : CompanyProperty) (round : CheckRound rules) : CompanyProperty :=
  match (round.course row).2 with
  | .ok (_, stored) => stored
  | .error _ => row

namespace CompanyProperty

/-- The columns of a row that tell its link and its history. -/
structure SameLink (row other : CompanyProperty) : Prop where
  originalUrl : other.originalUrl = row.originalUrl
  resolvedUrl : other.resolvedUrl = row.resolvedUrl
  resolvedUrlKind : other.resolvedUrlKind = row.resolvedUrlKind

theorem SameLink.trans {first second third : CompanyProperty} (before : SameLink first second)
    (after : SameLink second third) : SameLink first third :=
  ⟨after.originalUrl.trans before.originalUrl, after.resolvedUrl.trans before.resolvedUrl,
    after.resolvedUrlKind.trans before.resolvedUrlKind⟩

theorem sameLink_nameAsAddress (env : CompanyEnvironment) (row : CompanyProperty) :
    SameLink row (row.nameAsAddress env) := by
  rw [nameAsAddress]
  split <;> exact ⟨rfl, rfl, rfl⟩

theorem nameAsAddress_checkLog (env : CompanyEnvironment) (row : CompanyProperty) :
    (row.nameAsAddress env).checkLog = row.checkLog := by
  rw [nameAsAddress]
  split <;> rfl

/-- Committing a row keeps its link and its history. -/
theorem sameLink_commitRow (committedAt : Timestamp) (row changed : CompanyProperty) :
    SameLink changed (CompanyEnvironment.commitRow committedAt row changed) ∧
      (CompanyEnvironment.commitRow committedAt row changed).checkLog = changed.checkLog := by
  rw [CompanyEnvironment.commitRow]
  split
  · rename_i same
    rw [same]
    exact ⟨⟨rfl, rfl, rfl⟩, rfl⟩
  · exact ⟨⟨rfl, rfl, rfl⟩, rfl⟩

theorem sameLink_resolveLocation (env : CompanyEnvironment) (row : CompanyProperty) :
    SameLink row (row.resolveLocation env) ∧
      (row.resolveLocation env).checkLog = row.checkLog := by
  obtain ⟨latitude, longitude, building, moved⟩ := resolveLocation_moves env row
  rw [moved]
  exact ⟨⟨rfl, rfl, rfl⟩, rfl⟩

/-- Transit attached to a property leaves its link and its log alone. -/
theorem sameLink_attachNearbyTransit (env : CompanyEnvironment)
    (route : Point → Point → Option (Int × Int)) (row : CompanyProperty) :
    SameLink row (row.attachNearbyTransit env route) ∧
      (row.attachNearbyTransit env route).checkLog = row.checkLog := by
  rw [attachNearbyTransit]
  split
  · exact ⟨⟨rfl, rfl, rfl⟩, rfl⟩
  · exact ⟨⟨rfl, rfl, rfl⟩, rfl⟩

/-- A failure is logged and leaves the link alone. -/
theorem recordFailure_writes (env : CompanyEnvironment) (row : CompanyProperty)
    (now : Timestamp) (discardStale : Bool) (error : String) :
    SameLink row (row.recordFailure env now discardStale error) ∧
      (row.recordFailure env now discardStale error).checkLog =
        (row.appendCheckLog .failed [] now).checkLog := by
  rw [recordFailure]
  obtain ⟨⟨original, resolved, kind⟩, log⟩ := sameLink_resolveLocation env
    (({ row with
      lastCheckedAt := some now
      checkStatus := .failed
      checkError := some error
      availability := if discardStale then none else row.availability }).appendCheckLog .failed []
        now)
  exact ⟨⟨original, resolved, kind⟩, log⟩

/-- The units of a page whose rents may be true. -/
def keptUnits (extracted : CompanyPageAvailability) : List CompanyUnit :=
  extracted.availableUnits.filter fun unit =>
    unit.monthlyRentUsd.all fun usd => 300 ≤ usd && usd ≤ 100000

/-- A page that was read is logged, and its URL is the link. -/
theorem recordChecked_link (env : CompanyEnvironment) (row : CompanyProperty)
    (now : Timestamp) (page : FetchedPage) (extracted : CompanyPageAvailability) :
    (row.recordChecked env now page extracted).resolvedUrl = some page.url ∧
      (row.recordChecked env now page extracted).resolvedUrlKind = some page.kind ∧
      (row.recordChecked env now page extracted).checkLog =
        (row.appendCheckLog .checked (keptUnits extracted) now).checkLog := by
  rw [recordChecked]
  cases env.walkRouter with
  | none =>
      exact ⟨(sameLink_resolveLocation env _).1.resolvedUrl,
        (sameLink_resolveLocation env _).1.resolvedUrlKind,
        (sameLink_resolveLocation env _).2⟩
  | some route =>
      refine ⟨(sameLink_attachNearbyTransit env route _).1.resolvedUrl.trans ?_,
        (sameLink_attachNearbyTransit env route _).1.resolvedUrlKind.trans ?_,
        (sameLink_attachNearbyTransit env route _).2.trans ?_⟩
      · exact (sameLink_resolveLocation env _).1.resolvedUrl
      · exact (sameLink_resolveLocation env _).1.resolvedUrlKind
      · exact (sameLink_resolveLocation env _).2

end CompanyProperty

/-! ## What a check writes -/

open CompanyProperty CompanyEnvironment

/-- A check goes by how its page fetch ends. -/
theorem checkRow_eq (row : CompanyProperty) (round : CheckRound rules) :
    (round.result row = none ∧ checkRow row round = row) ∨
      ∃ outcome, Conversation (round.env.fetchPage (row.nameAsAddress round.env)) (round.talk row)
          outcome ∧
        (round.result row, checkRow row round) = stored round.committedAt row
          (round.env.checkEnding round.now round.discardStale (row.nameAsAddress round.env)
            outcome) := by
  have conversation := conversation_converse round.respond []
    (round.env.refreshProperty round.now round.committedAt round.discardStale row)
  cases ended : (round.course row).2 with
  | error error =>
      left
      unfold CheckRound.result checkRow
      rw [ended]
      exact ⟨rfl, rfl⟩
  | ok written =>
      have read : (round.result row, checkRow row round) = written := by
        unfold CheckRound.result checkRow
        rw [ended]
      change Conversation _ (round.talk row) (round.course row).2 at conversation
      rw [ended] at conversation
      obtain ⟨outcome, fetched, same⟩ := refreshProperty_talk conversation
      exact .inr ⟨outcome, fetched, read.trans same⟩

/-- What is logged depends on the history alone. -/
theorem appendCheckLog_congr {first second : CompanyProperty}
    (same : first.checkLog = second.checkLog) (status : CompanyCheckStatus)
    (units : List CompanyUnit) (now : Timestamp) :
    (first.appendCheckLog status units now).checkLog =
      (second.appendCheckLog status units now).checkLog := by
  rw [appendCheckLog, appendCheckLog, same]

/-- A failure, as it is stored. -/
theorem failure_stored {row prop other : CompanyProperty} {env : CompanyEnvironment}
    {now committedAt : Timestamp} {discardStale : Bool} {error : String}
    (named : SameLink row prop) (log : prop.checkLog = row.checkLog) (same : SameLink prop other)
    (kept : other.checkLog = prop.checkLog) :
    SameLink row (commitRow committedAt row (other.recordFailure env now discardStale error)) ∧
      (commitRow committedAt row (other.recordFailure env now discardStale error)).checkLog =
        (row.appendCheckLog .failed [] now).checkLog := by
  obtain ⟨link, entry⟩ := recordFailure_writes env other now discardStale error
  obtain ⟨committed, history⟩ := sameLink_commitRow committedAt row
    (other.recordFailure env now discardStale error)
  refine ⟨((named.trans same).trans link).trans committed, ?_⟩
  rw [history, entry]
  exact appendCheckLog_congr (kept.trans log) .failed [] now

/-- A check leaves the link and the history alone, or logs a failure, or reads a page that it
fetched and logs this. -/
theorem checkRow_cases (row : CompanyProperty) (round : CheckRound rules) :
    (round.result row ≠ some .checked ∧ round.result row ≠ some .failed ∧
        SameLink row (checkRow row round) ∧ (checkRow row round).checkLog = row.checkLog) ∨
      (round.result row = some .failed ∧ SameLink row (checkRow row round) ∧
        (checkRow row round).checkLog = (row.appendCheckLog .failed [] round.now).checkLog) ∨
      ∃ page units, round.result row = some .checked ∧
        Conversation (round.env.fetchPage (row.nameAsAddress round.env)) (round.talk row)
          (.ok (some page)) ∧
        (checkRow row round).resolvedUrl = some page.url ∧
        (checkRow row round).resolvedUrlKind = some page.kind ∧
        (checkRow row round).checkLog =
          (row.appendCheckLog .checked units round.now).checkLog := by
  rcases checkRow_eq row round with ⟨raised, kept⟩ | ⟨outcome, fetched, ended⟩
  · rw [raised, kept]
    exact .inl ⟨by simp, by simp, ⟨rfl, rfl, rfl⟩, rfl⟩
  · have named := sameLink_nameAsAddress round.env row
    have log := nameAsAddress_checkLog round.env row
    generalize row.nameAsAddress round.env = prop at fetched ended named log
    cases outcome with
    | error error =>
        left
        have quiet : (round.result row = some .rateLimited ∧
            checkRow row round = commitRow round.committedAt row prop) ∨
              (round.result row = none ∧ checkRow row round = row) := by
          cases error with
          | tavilyQuotaError => exact .inl (Prod.mk.inj ended)
          | _ => exact .inr (Prod.mk.inj ended)
        rcases quiet with ⟨limited, kept⟩ | ⟨raised, kept⟩
        · rw [limited, kept]
          obtain ⟨committed, history⟩ := sameLink_commitRow round.committedAt row prop
          exact ⟨by simp, by simp, named.trans committed, history.trans log⟩
        · rw [raised, kept]
          exact ⟨by simp, by simp, ⟨rfl, rfl, rfl⟩, rfl⟩
    | ok found =>
        rw [checkEnding] at ended
        cases found with
        | none =>
            obtain ⟨failed, kept⟩ := Prod.mk.inj ended
            rw [failed, kept]
            exact .inr (.inl ⟨rfl, failure_stored named log ⟨rfl, rfl, rfl⟩ rfl⟩)
        | some page =>
            rw [judgePage] at ended
            split at ended
            · obtain ⟨failed, kept⟩ := Prod.mk.inj ended
              rw [failed, kept]
              exact .inr (.inl ⟨rfl, failure_stored named log ⟨rfl, rfl, rfl⟩ rfl⟩)
            · rename_i extracted _
              obtain ⟨checked, kept⟩ := Prod.mk.inj ended
              obtain ⟨url, kind, entry⟩ := recordChecked_link round.env prop round.now page
                extracted
              obtain ⟨committed, history⟩ := sameLink_commitRow round.committedAt row
                (prop.recordChecked round.env round.now page extracted)
              rw [checked, kept]
              refine .inr (.inr ⟨page, keptUnits extracted, rfl, fetched,
                committed.resolvedUrl.trans url, committed.resolvedUrlKind.trans kind, ?_⟩)
              rw [history, entry]
              exact appendCheckLog_congr log .checked _ _

end RentalAgent
