import RentalAgent.Enrichment.OfficialSites

/-! # The history of checks

A successful check is labelled after the last successful one in the log of the property. The
log keeps thirty entries and failures are entries too, so thirty failures in a row drop the last
success from it and the next one is labelled as the first check again. The log is the start of
the whole history (`checkLog_run`), and its labels are right exactly if no success comes after so
many failures (`history_is_right_iff`).
-/

namespace RentalAgent

open Transition CompanyProperty

variable {rules : TextRules}

/-! ## The whole history -/

/-- The entry that a check puts on the log, when it logs one. -/
def loggedEntry (row : CompanyProperty) (round : CheckRound rules) : Option CheckLogEntry :=
  match round.result row with
  | some .checked | some .failed => (checkRow row round).checkLog.bind List.head?
  | _ => none

/-- The entries of a run of checks, newest first. -/
def history (row : CompanyProperty) (rounds : List (CheckRound rules)) : List CheckLogEntry :=
  ((moments checkRow row rounds).filterMap fun moment => loggedEntry moment.1 moment.2).reverse

/-- The entry is one of a successful check. -/
def CheckLogEntry.succeeded (entry : CheckLogEntry) : Bool := entry.status = .checked

/-- What a success is after another one. -/
def eventAfter (previous entry : CheckLogEntry) : CheckEvent :=
  if previous.unitCount ≠ entry.unitCount then .availabilityChanged
  else if (previous.minRent, previous.maxRent) ≠ (entry.minRent, entry.maxRent) then .priceChanged
  else .unchanged

/-- A success with the entries before it, newest first. -/
def SuccessAfter (entries : List CheckLogEntry) (entry : CheckLogEntry)
    (earlier : List CheckLogEntry) : Prop :=
  entry.succeeded = true ∧ ∃ later, entries = later ++ entry :: earlier

/-- The log holds the newest entries of the history, the first success is the one that is
labelled as the first check, and every other success is labelled after the last one before
it. -/
structure HistoryIsRight (row : CompanyProperty) (rounds : List (CheckRound rules)) : Prop where
  capped : (run checkRow row rounds).checkLog.getD [] = (history row rounds).take checkLogCap
  firstCheck : ∀ entry earlier, SuccessAfter (history row rounds) entry earlier →
    (entry.event = .firstCheck ↔ ∀ other ∈ earlier, other.succeeded = false)
  compared : ∀ entry earlier, SuccessAfter (history row rounds) entry earlier →
    ∀ previous, earlier.find? CheckLogEntry.succeeded = some previous →
      entry.event = eventAfter previous entry

/-- A success that has a success before it has one among the entries that the log keeps. -/
def NoLongOutage (row : CompanyProperty) (rounds : List (CheckRound rules)) : Prop :=
  ∀ entry earlier, SuccessAfter (history row rounds) entry earlier →
    (∃ other ∈ earlier, other.succeeded = true) →
      ∃ other ∈ earlier.take checkLogCap, other.succeeded = true

/-! ## One check -/

/-- The entry of a check after the log. -/
def newEntry (log : List CheckLogEntry) (status : CompanyCheckStatus) (units : List CompanyUnit)
    (now : Timestamp) : CheckLogEntry :=
  let rents := units.filterMap fun unit => unit.monthlyRentUsd.filter (· ≠ 0)
  ⟨now, status, units.length, rents.min?, rents.max?,
    if status ≠ .checked then .checkFailed
    else checkedEvent (log.find? CheckLogEntry.succeeded) units.length rents.min? rents.max?⟩

/-- A check logs nothing, or puts one entry on the log. -/
theorem loggedEntry_cases (row : CompanyProperty) (round : CheckRound rules) :
    (loggedEntry row round = none ∧ (checkRow row round).checkLog = row.checkLog) ∨
      ∃ status units,
        loggedEntry row round =
          some (newEntry (row.checkLog.getD []) status units round.now) ∧
        (checkRow row round).checkLog =
          some ((newEntry (row.checkLog.getD []) status units round.now ::
            row.checkLog.getD []).take checkLogCap) := by
  rcases checkRow_cases row round with
    ⟨unchecked, unfailed, -, kept⟩ | ⟨failed, -, log⟩ | ⟨page, units, checked, -, -, -, log⟩
  · left
    refine ⟨?_, kept⟩
    unfold loggedEntry
    split
    · exact absurd ‹_› unchecked
    · exact absurd ‹_› unfailed
    · rfl
  · refine .inr ⟨.failed, [], ?_, log⟩
    unfold loggedEntry
    rw [failed, log]
    rfl
  · refine .inr ⟨.checked, units, ?_, log⟩
    unfold loggedEntry
    rw [checked, log]
    rfl

/-! ## Runs -/

/-- What a cap has dropped does not come back. -/
theorem take_cons_take {α : Type} (cap : Nat) (first : α) (rest : List α) :
    (first :: rest.take cap).take cap = (first :: rest).take cap := by
  cases cap with
  | zero => rfl
  | succ cap =>
      rw [List.take_succ_cons, List.take_succ_cons, List.take_take,
        Nat.min_eq_left (Nat.le_succ cap)]

/-- One more round logs one more entry, or none. -/
theorem history_append_singleton (row : CompanyProperty) (rounds : List (CheckRound rules))
    (round : CheckRound rules) :
    history row (rounds ++ [round]) =
      (loggedEntry (run checkRow row rounds) round).toList ++ history row rounds := by
  rw [history, moments_append, List.filterMap_append, List.reverse_append, moments_cons,
    moments_nil, List.filterMap_cons]
  cases loggedEntry (run checkRow row rounds) round <;> rfl

/-- The log is the start of the history. -/
theorem checkLog_run (row : CompanyProperty) (fresh : row.checkLog = none)
    (rounds : List (CheckRound rules)) :
    (run checkRow row rounds).checkLog.getD [] = (history row rounds).take checkLogCap := by
  induction rounds using List.reverseRecOn with
  | nil =>
      rw [run_nil, fresh]
      rfl
  | append_singleton rounds round log =>
      rw [run_append, run_cons, run_nil, history_append_singleton]
      rcases loggedEntry_cases (run checkRow row rounds) round with
        ⟨none, kept⟩ | ⟨status, units, logged, kept⟩
      · rw [none, kept, log]
        rfl
      · rw [logged, kept, log]
        exact take_cons_take checkLogCap _ _

/-- Every success of a run is labelled after the last one that the log had kept. -/
theorem event_of_success (row : CompanyProperty) (fresh : row.checkLog = none)
    (rounds : List (CheckRound rules)) {entry : CheckLogEntry} {earlier : List CheckLogEntry}
    (success : SuccessAfter (history row rounds) entry earlier) :
    entry.event = checkedEvent ((earlier.take checkLogCap).find? CheckLogEntry.succeeded)
      entry.unitCount entry.minRent entry.maxRent := by
  induction rounds using List.reverseRecOn with
  | nil =>
      obtain ⟨-, later, split⟩ := success
      cases later <;> cases split
  | append_singleton rounds round following =>
      obtain ⟨checked, later, split⟩ := success
      rw [history_append_singleton] at split
      rcases loggedEntry_cases (run checkRow row rounds) round with
        ⟨none, -⟩ | ⟨status, units, logged, -⟩
      · rw [none] at split
        exact following ⟨checked, later, split⟩
      · rw [logged, checkLog_run row fresh] at split
        cases later with
        | cons first later => exact following ⟨checked, later, (List.cons.inj split).2⟩
        | nil =>
            obtain ⟨same, rest⟩ := List.cons.inj split
            rw [← rest]
            rw [← same] at checked ⊢
            have successful : status = .checked := of_decide_eq_true checked
            rw [newEntry, successful, if_neg (by simp)]
            rfl

/-! ## Labels -/

/-- A label that looks at a part of the log is right if the part has a success when the log has
one. -/
theorem label_iff {entry : CheckLogEntry} {earlier : List CheckLogEntry}
    (event : entry.event = checkedEvent ((earlier.take checkLogCap).find? CheckLogEntry.succeeded)
      entry.unitCount entry.minRent entry.maxRent) :
    ((entry.event = .firstCheck ↔ ∀ other ∈ earlier, other.succeeded = false) ∧
        ∀ previous, earlier.find? CheckLogEntry.succeeded = some previous →
          entry.event = eventAfter previous entry) ↔
      ((∃ other ∈ earlier, other.succeeded = true) →
        ∃ other ∈ earlier.take checkLogCap, other.succeeded = true) := by
  cases kept : (earlier.take checkLogCap).find? CheckLogEntry.succeeded with
  | some previous =>
      have found : earlier.find? CheckLogEntry.succeeded = some previous := by
        conv_lhs => rw [← List.take_append_drop checkLogCap earlier]
        rw [List.find?_append, kept]
        rfl
      have after : entry.event = eventAfter previous entry := by
        rw [event, kept]
        rfl
      have other : entry.event ≠ .firstCheck := by
        rw [after, eventAfter]
        split <;> [skip; split] <;> simp
      have member := List.mem_of_find?_eq_some found
      have succeeded := List.find?_some found
      refine iff_of_true ⟨⟨fun first => absurd first other, fun none => ?_⟩, ?_⟩ fun _ =>
        ⟨previous, List.mem_of_find?_eq_some kept, succeeded⟩
      · cases (none previous member).symm.trans succeeded
      · intro again same
        rw [found] at same
        rw [after, Option.some.inj same]
  | none =>
      have first : entry.event = .firstCheck := by
        rw [event, kept]
        rfl
      have nothing : ¬∃ other ∈ earlier.take checkLogCap, other.succeeded = true := by
        rintro ⟨other, member, succeeded⟩
        exact List.find?_eq_none.mp kept other member succeeded
      constructor
      · rintro ⟨only, -⟩ ⟨other, member, succeeded⟩
        cases (only.mp first other member).symm.trans succeeded
      · intro keeps
        have none : ∀ other ∈ earlier, other.succeeded = false := by
          intro other member
          by_contra succeeded
          exact nothing (keeps ⟨other, member, by simpa using succeeded⟩)
        refine ⟨iff_of_true first none, fun previous found => ?_⟩
        cases (none previous (List.mem_of_find?_eq_some found)).symm.trans (List.find?_some found)

/-- **History.** The checks of a new property are labelled right exactly if no success comes
after so many failures that the log has lost the success before it. -/
theorem history_is_right_iff (row : CompanyProperty) (rounds : List (CheckRound rules)) :
    HistoryIsRight { row with checkLog := none } rounds ↔
      NoLongOutage { row with checkLog := none } rounds := by
  have label {entry : CheckLogEntry} {earlier : List CheckLogEntry}
      (success : SuccessAfter (history { row with checkLog := none } rounds) entry earlier) :=
    label_iff (event_of_success { row with checkLog := none } rfl rounds success)
  constructor
  · intro right entry earlier success
    exact (label success).mp ⟨right.firstCheck entry earlier success,
      right.compared entry earlier success⟩
  · intro short
    exact ⟨checkLog_run { row with checkLog := none } rfl rounds,
      fun entry earlier success => ((label success).mpr (short entry earlier success)).1,
      fun entry earlier success => ((label success).mpr (short entry earlier success)).2⟩

/-- A check that reads the page of the property, thirty that find no page, and one that reads
the same page again. -/
def longOutage : List (CheckRound readingEnvironment.toTextRules) :=
  let reads := findingRound "https://pearl.example/"
  reads :: (List.replicate 30
    { reads with respond := CompanyEnvironment.deadLinkPlanLimit } ++ [reads])

/-- The second success is labelled as the first check. -/
theorem long_outage_forgets :
    ¬HistoryIsRight { unlinked with checkLog := none } longOutage := by
  intro right
  have events : (history { unlinked with checkLog := none } longOutage).map
      (fun entry => (entry.succeeded, entry.event)) =
        (true, .firstCheck) :: (List.replicate 30 (false, .checkFailed) ++
          [(true, .firstCheck)]) := by
    decide +kernel
  obtain ⟨newest, earlier, split, label, before⟩ := List.map_eq_cons_iff.mp events
  have oldest : (true, CheckEvent.firstCheck) ∈
      earlier.map fun entry => (entry.succeeded, entry.event) := by
    rw [before]
    exact List.mem_append_right _ (List.mem_singleton_self _)
  obtain ⟨first, member, same⟩ := List.mem_map.mp oldest
  have only := (right.firstCheck newest earlier ⟨(Prod.mk.inj label).1, [], split⟩).mp
    (Prod.mk.inj label).2
  cases (only first member).symm.trans (Prod.mk.inj same).1

end RentalAgent
