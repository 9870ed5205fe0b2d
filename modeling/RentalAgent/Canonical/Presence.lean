import RentalAgent.Canonical.Durability

/-! # What a source run says about the links

A gate-passed run gives every active or missing link of its source a status
(`Database.linkVerdict`). The run counts a link as observed only by the latest
observation of the link, so it contradicts its own observations just when the
latest observation is of another run (`Database.presence_respected_iff`).
-/

namespace RentalAgent

open Relational Transition

/-- The link with another status. -/
def ListingSourceLink.withStatus (link : ListingSourceLink) (status : LinkStatus) :
    ListingSourceLink :=
  { link with linkStatus := status }

@[simp] theorem ListingSourceLink.withStatus_self (link : ListingSourceLink) :
    link.withStatus link.linkStatus = link := rfl

namespace Database

variable {ids : IdSupply} {unicode : UnicodeTables} {now : Timestamp} {db next : Database}

/-- Enough gate-passed runs and enough time have gone by without the link. -/
abbrev removalDue (db : Database) (now : Timestamp) (run : SourceRun) (link : ListingSourceLink) :
    Prop :=
  removalConsecutiveMisses ≤ db.healthyRunsSince run.sourceId link.lastSeenAt ∧
    removalMinElapsed ≤ now - link.lastSeenAt

/-- The run decides about the link. -/
def judges (run : SourceRun) (link : ListingSourceLink) : Bool :=
  link.sourceId = run.sourceId && (link.linkStatus = .active || link.linkStatus = .missing)

/-- The status a run gives a link that it decides about. -/
def presenceStatus (db : Database) (now : Timestamp) (run : SourceRun)
    (observed : ListingSourceLink → Bool) (link : ListingSourceLink) : LinkStatus :=
  if observed link then .active else if db.removalDue now run link then .removed else .missing

/-- The status of a link after the run. -/
def linkVerdict (db : Database) (now : Timestamp) (run : SourceRun) (link : ListingSourceLink) :
    LinkStatus :=
  if judges run link then db.presenceStatus now run (db.observedInRun run.sourceRunId) link
  else link.linkStatus

/-! ## The link loop -/

theorem insertEvent_links (event : Uuid → ListingEvent) (db : Database) :
    (db.insertEvent ids event).1.links = db.links :=
  (insertEvent_evidenceOnly ids event db).links

theorem insertEvent_sourceRuns (event : Uuid → ListingEvent) (db : Database) :
    (db.insertEvent ids event).1.sourceRuns = db.sourceRuns := by
  rw [(insertEvent_evidenceOnly ids event db).frame]

/-- Where ids tell links apart, a status is set on one link. -/
theorem setLinkStatus_links (db : Database) (link : ListingSourceLink) (status : LinkStatus)
    (agree : ∀ row ∈ db.links, row.listingSourceLinkId = link.listingSourceLinkId → row = link) :
    (db.setLinkStatus link status).links =
      db.links.map fun row => if row = link then row.withStatus status else row := by
  apply List.map_congr_left
  intro row member
  by_cases same : row.listingSourceLinkId = link.listingSourceLinkId
  · cases agree row member same
    simp [ListingSourceLink.withStatus]
  · simp [same, show row ≠ link from fun equal => same (congrArg _ equal)]

/-- One round writes the status of its link and leaves the source runs alone. -/
theorem processLink_links (ids : IdSupply) (now : Timestamp) {run : SourceRun}
    {observed : ListingSourceLink → Bool} {link : ListingSourceLink}
    (judged : judges run link = true)
    (agree : ∀ row ∈ db.links, row.listingSourceLinkId = link.listingSourceLinkId → row = link)
    (summary : DisappearanceSummary) :
    (processLink ids now run observed (db, summary) link).1.links = (db.links.map fun row =>
        if row = link then row.withStatus (db.presenceStatus now run observed row) else row) ∧
      (processLink ids now run observed (db, summary) link).1.sourceRuns = db.sourceRuns := by
  have unchanged : db.presenceStatus now run observed link = link.linkStatus →
      db.links = db.links.map fun row =>
        if row = link then row.withStatus (db.presenceStatus now run observed row) else row := by
    intro same
    conv_lhs => rw [← List.map_id db.links]
    apply List.map_congr_left
    intro row _
    by_cases equal : row = link
    · subst equal
      rw [if_pos rfl, same]
      rfl
    · rw [if_neg equal]
      rfl
  have written : ∀ status, db.presenceStatus now run observed link = status →
      (db.setLinkStatus link status).links = db.links.map fun row =>
        if row = link then row.withStatus (db.presenceStatus now run observed row) else row := by
    rintro _ rfl
    rw [setLinkStatus_links db link _ agree]
    apply List.map_congr_left
    intro row _
    by_cases equal : row = link
    · rw [if_pos equal, if_pos equal, equal]
    · rw [if_neg equal, if_neg equal]
  simp only [judges, Bool.and_eq_true, Bool.or_eq_true, decide_eq_true_eq] at judged
  unfold processLink
  dsimp only
  by_cases seen : observed link = true
  · rw [if_pos seen]
    split
    · exact ⟨written .active (by simp [presenceStatus, seen]), rfl⟩
    · rename_i standing
      have active : link.linkStatus = .active := judged.2.resolve_right standing
      exact ⟨unchanged (by simp [presenceStatus, seen, active]), rfl⟩
  · rw [if_neg seen]
    by_cases due : db.removalDue now run link
    · rw [if_pos due]
      exact ⟨written .removed (by simp [presenceStatus, seen, due]), rfl⟩
    · rw [if_neg due]
      split
      · rw [insertEvent_links, insertEvent_sourceRuns]
        exact ⟨written .missing (by simp [presenceStatus, seen, due]), rfl⟩
      · rename_i away
        have missing : link.linkStatus = .missing := judged.2.resolve_left away
        exact ⟨unchanged (by simp [presenceStatus, seen, due, missing]), rfl⟩

/-- The status that a run gives depends on the source runs alone. -/
theorem presenceStatus_congr (same : next.sourceRuns = db.sourceRuns) (now : Timestamp)
    (run : SourceRun) (observed : ListingSourceLink → Bool) (link : ListingSourceLink) :
    next.presenceStatus now run observed link = db.presenceStatus now run observed link := by
  have counts : next.healthyRunsSince = db.healthyRunsSince := by
    funext sourceId since
    rw [healthyRunsSince, healthyRunsSince, same]
  unfold presenceStatus removalDue
  rw [counts]

/-- The loop writes the status of each link it goes over. -/
theorem processLinks_links {run : SourceRun} {observed : ListingSourceLink → Bool}
    {links : List ListingSourceLink} (judged : ∀ link ∈ links, judges run link = true)
    (distinct : (links.map ListingSourceLink.listingSourceLinkId).Nodup)
    (agree : ∀ link ∈ links, ∀ row ∈ db.links,
      row.listingSourceLinkId = link.listingSourceLinkId → row = link)
    (summary : DisappearanceSummary) :
    (links.foldl (processLink ids now run observed) (db, summary)).1.links =
      db.links.map fun row =>
        if row ∈ links then row.withStatus (db.presenceStatus now run observed row) else row := by
  induction links generalizing db summary with
  | nil => simp
  | cons link rest ih =>
      obtain ⟨apart, distinct⟩ := List.nodup_cons.mp distinct
      obtain ⟨written, runs⟩ := processLink_links ids now
        (judged link List.mem_cons_self) (agree link List.mem_cons_self) summary
      rw [List.foldl_cons]
      generalize processLink ids now run observed (db, summary) link = state at written runs ⊢
      obtain ⟨middle, counted⟩ := state
      have agreeRest : ∀ other ∈ rest, ∀ row ∈ middle.links,
          row.listingSourceLinkId = other.listingSourceLinkId → row = other := by
        intro other member row rowMem same
        rw [written] at rowMem
        obtain ⟨old, oldMem, rfl⟩ := List.mem_map.mp rowMem
        by_cases equal : old = link
        · subst equal
          rw [if_pos rfl] at same
          exact (apart (List.mem_map.mpr ⟨other, member, same.symm⟩)).elim
        · rw [if_neg equal] at same ⊢
          exact agree other (List.mem_cons_of_mem _ member) old oldMem same
      rw [ih (fun other member => judged other (List.mem_cons_of_mem _ member)) distinct agreeRest,
        written, List.map_map]
      apply List.map_congr_left
      intro row member
      by_cases equal : row = link
      · subst equal
        have gone : row.withStatus (db.presenceStatus now run observed row) ∉ rest := fun inside =>
          apart (List.mem_map.mpr ⟨_, inside, rfl⟩)
        simp [gone]
      · simp [equal, presenceStatus_congr runs]

theorem inactivate_links (db : Database) (listing : CanonicalListing) :
    (inactivate ids now db listing).links = db.links :=
  insertEvent_links _ _

/-- Inactivations leave the links alone. -/
theorem inactivateUnsupported_links (state : Database × DisappearanceSummary) :
    (inactivateUnsupported ids now state).1.links = state.1.links := by
  unfold inactivateUnsupported
  dsimp only
  split
  · rfl
  · split
    · rfl
    · exact (composes_of_column Database.links).foldl id inactivate_links _ state.1

/-- A gate-passed run goes over the links that it judges and then over the listings. -/
theorem processSourceRun_passed {sourceRunId : Uuid} {run : SourceRun}
    {summary : DisappearanceSummary} (found : db.sourceRun? sourceRunId = some run)
    (passed : run.healthGatePassed = some true)
    (processed : db.processSourceRun ids now sourceRunId = .ok (next, summary)) :
    next = (inactivateUnsupported ids now ((db.links.filter (judges run)).foldl
      (processLink ids now run (db.observedInRun sourceRunId)) (db, {}))).1 := by
  obtain ⟨other, again, ways⟩ := processSourceRun_eq_ok processed
  cases found.symm.trans again
  rcases ways with ⟨refused, -⟩ | ⟨-, wrote⟩
  · exact (refused passed).elim
  · exact wrote

/-- A gate-passed run gives every link its verdict. -/
theorem processSourceRun_links {sourceRunId : Uuid} {run : SourceRun}
    {summary : DisappearanceSummary}
    (distinct : (db.links.map ListingSourceLink.listingSourceLinkId).Nodup)
    (found : db.sourceRun? sourceRunId = some run) (passed : run.healthGatePassed = some true)
    (processed : db.processSourceRun ids now sourceRunId = .ok (next, summary)) :
    next.links = db.links.map fun link => link.withStatus (db.linkVerdict now run link) := by
  have sameRun : run.sourceRunId = sourceRunId := key_of_get found
  have single : ∀ link ∈ db.links, ∀ row ∈ db.links,
      row.listingSourceLinkId = link.listingSourceLinkId → row = link :=
    fun link linkMem row rowMem => List.inj_on_of_nodup_map distinct rowMem linkMem
  have filtered : ∀ link ∈ db.links.filter (judges run), link ∈ db.links ∧ judges run link = true :=
    fun link => List.mem_filter.mp
  rw [processSourceRun_passed found passed processed, inactivateUnsupported_links,
    processLinks_links (fun link member => (filtered link member).2)
    (distinct.sublist (List.filter_sublist.map _))
    (fun link member => single link (filtered link member).1)]
  apply List.map_congr_left
  intro link member
  by_cases judged : judges run link = true
  · simp [List.mem_filter, member, judged, linkVerdict, sameRun]
  · simp [List.mem_filter, judged, linkVerdict]

/-- Processing a run judges the links when its gate passed, and does nothing else. -/
theorem step_processSourceRun_links (ids : IdSupply) (unicode : UnicodeTables)
    (distinct : (db.links.map ListingSourceLink.listingSourceLinkId).Nodup) (now : Timestamp)
    (sourceRunId : Uuid) :
    (∀ run ∈ db.sourceRun? sourceRunId, run.healthGatePassed ≠ some true) ∧
        db.step ids unicode (.processSourceRun now sourceRunId) = db ∨
      ∃ run ∈ db.sourceRun? sourceRunId, run.healthGatePassed = some true ∧
        (db.step ids unicode (.processSourceRun now sourceRunId)).links =
          db.links.map fun link => link.withStatus (db.linkVerdict now run link) := by
  cases found : db.sourceRun? sourceRunId with
  | none =>
      refine .inl ⟨(fun run member => by cases member), ?_⟩
      simp only [step, perform, processSourceRun, found, error_bind]
  | some run =>
      by_cases passed : run.healthGatePassed = some true
      · refine .inr ⟨run, rfl, passed, ?_⟩
        cases processed : db.processSourceRun ids now sourceRunId with
        | error failure => simp [processSourceRun, found, passed] at processed
        | ok outcome =>
            simp only [step, perform, processed, ok_bind]
            exact processSourceRun_links distinct found passed processed
      · refine .inl ⟨fun other member => ?_, ?_⟩
        · cases member
          exact passed
        · simp only [step, perform, processSourceRun, found, if_pos passed, ok_bind]
          rfl

/-- A run leaves active what it judges and has observed, and what was active otherwise. -/
theorem linkVerdict_eq_active {run : SourceRun} {link : ListingSourceLink} :
    db.linkVerdict now run link = .active ↔
      if judges run link then db.observedInRun run.sourceRunId link = true
      else link.linkStatus = .active := by
  unfold linkVerdict presenceStatus
  cases judges run link with
  | false => exact Iff.rfl
  | true =>
      cases db.observedInRun run.sourceRunId link with
      | true => simp
      | false =>
          simp only [↓reduceIte, Bool.false_eq_true, iff_false]
          split <;> simp

/-- A run removes what was removed before, and what it judges, has not observed and finds
due. -/
theorem linkVerdict_eq_removed {run : SourceRun} {link : ListingSourceLink} :
    db.linkVerdict now run link = .removed ↔ link.linkStatus = .removed ∨
      judges run link = true ∧ db.observedInRun run.sourceRunId link = false ∧
        db.removalDue now run link := by
  unfold linkVerdict
  by_cases judged : judges run link = true
  · have standing : link.linkStatus ≠ .removed := by
      intro removed
      simp [judges, removed] at judged
    rw [if_pos judged, presenceStatus]
    cases seen : db.observedInRun run.sourceRunId link with
    | true => simp [standing]
    | false =>
        by_cases due : db.removalDue now run link
        · rw [if_neg Bool.false_ne_true, if_pos due]
          exact iff_of_true rfl (.inr ⟨judged, rfl, due⟩)
        · rw [if_neg Bool.false_ne_true, if_neg due]
          refine iff_of_false (by simp) ?_
          rintro (removed | ⟨_, _, holds⟩)
          · exact standing removed
          · exact due holds
  · rw [if_neg judged]
    exact (or_iff_left fun rest => judged rest.1).symm

/-! ## Observations of the run -/

/-- The run persisted an observation of the identity of the link. -/
def ObservedIn (db : Database) (sourceRunId : Uuid) (link : ListingSourceLink) : Prop :=
  ∃ row ∈ db.observations, row.sourceRunId = sourceRunId ∧ row.sourceId = link.sourceId ∧
    match row.sourceNativeId with
    | some nativeId => link.sourceNativeId = some nativeId
    | none => row.sourceUrl = link.sourceUrl

/-- The link goes from active to missing, or becomes removed. -/
def Disappears (link after : ListingSourceLink) : Prop :=
  link.linkStatus = .active ∧ after.linkStatus = .missing ∨
    link.linkStatus ≠ .removed ∧ after.linkStatus = .removed

instance (link after : ListingSourceLink) : Decidable (Disappears link after) :=
  inferInstanceAs (Decidable (_ ∨ _))

/-- No link that the run observed disappears in the step. -/
def PresenceRespected (db next : Database) (sourceRunId : Uuid) : Prop :=
  ∀ link ∈ db.links, db.ObservedIn sourceRunId link → ∀ after ∈ next.links,
    after.listingSourceLinkId = link.listingSourceLinkId → ¬ Disappears link after

/-- Every active link the run observed has its latest observation in the run, and so
has every missing one whose removal is due. -/
def LatestInRun (db : Database) (now : Timestamp) (run : SourceRun) : Prop :=
  ∀ link ∈ db.links, db.ObservedIn run.sourceRunId link → link.sourceId = run.sourceId →
    (link.linkStatus = .active ∨ link.linkStatus = .missing ∧ db.removalDue now run link) →
      db.observedInRun run.sourceRunId link = true

/-- A link disappears when its source's run did not observe it and it was active or due for
removal. -/
theorem disappears_iff (db : Database) (now : Timestamp) (run : SourceRun)
    (link : ListingSourceLink) :
    Disappears link (link.withStatus (db.linkVerdict now run link)) ↔
      link.sourceId = run.sourceId ∧ db.observedInRun run.sourceRunId link = false ∧
        (link.linkStatus = .active ∨ link.linkStatus = .missing ∧ db.removalDue now run link) := by
  change (link.linkStatus = .active ∧ db.linkVerdict now run link = .missing ∨
    link.linkStatus ≠ .removed ∧ db.linkVerdict now run link = .removed) ↔ _
  by_cases judged : judges run link = true
  · obtain ⟨source, status⟩ : link.sourceId = run.sourceId ∧
        (link.linkStatus = .active ∨ link.linkStatus = .missing) := by
      simpa [judges] using judged
    rw [linkVerdict, if_pos judged, presenceStatus]
    by_cases seen : db.observedInRun run.sourceRunId link = true
    · simp [seen]
    · by_cases due : db.removalDue now run link
      · rw [if_neg seen, if_pos due]
        have standing : link.linkStatus ≠ .removed := by
          rcases status with active | missing <;> simp [*]
        exact iff_of_true (.inr ⟨standing, rfl⟩)
          ⟨source, by simpa using seen, status.imp_right fun missing => ⟨missing, due⟩⟩
      · rw [if_neg seen, if_neg due]
        rcases status with active | missing <;> simp [*]
  · rw [linkVerdict, if_neg judged]
    have away : link.sourceId = run.sourceId → link.linkStatus ≠ .active ∧
        link.linkStatus ≠ .missing := by
      intro source
      simpa [judges, source] using judged
    constructor
    · rintro (⟨active, missing⟩ | ⟨standing, removed⟩)
      · simp [active] at missing
      · exact (standing removed).elim
    · rintro ⟨source, _, active | ⟨missing, _⟩⟩
      · exact ((away source).1 active).elim
      · exact ((away source).2 missing).elim

/-- The call is of a run whose gate did not pass, or that contradicts none of its own
observations. -/
def RespectsOwnRun (ids : IdSupply) (unicode : UnicodeTables) (db : Database) :
    ServiceAction → Prop
  | .processSourceRun now sourceRunId => ∀ run ∈ db.sourceRun? sourceRunId,
      run.healthGatePassed = some true →
        db.PresenceRespected (db.step ids unicode (.processSourceRun now sourceRunId)) sourceRunId
  | .processObservation .. | .mergeListings .. | .reverseMerge .. | .resolveDuplicateCandidate ..
  | .evaluateCandidates .. | .outside _ => True

/-- The call is of a run whose gate did not pass, or that has the latest observation
of each link it would let disappear. -/
def OwnsLatest (db : Database) : ServiceAction → Prop
  | .processSourceRun now sourceRunId => ∀ run ∈ db.sourceRun? sourceRunId,
      run.healthGatePassed = some true → db.LatestInRun now run
  | .processObservation .. | .mergeListings .. | .reverseMerge .. | .resolveDuplicateCandidate ..
  | .evaluateCandidates .. | .outside _ => True

/-- A gate-passed run respects what it observed just when its observations are the latest ones of
the links at stake. -/
theorem presenceRespected_iff
    (distinct : (db.links.map ListingSourceLink.listingSourceLinkId).Nodup) {sourceRunId : Uuid}
    {run : SourceRun} (found : db.sourceRun? sourceRunId = some run)
    (passed : run.healthGatePassed = some true) {summary : DisappearanceSummary}
    (processed : db.processSourceRun ids now sourceRunId = .ok (next, summary)) :
    db.PresenceRespected next sourceRunId ↔ db.LatestInRun now run := by
  have links := processSourceRun_links distinct found passed processed
  obtain rfl : run.sourceRunId = sourceRunId := key_of_get found
  constructor
  · intro respected link member observed source status
    by_contra unseen
    refine respected link member observed (link.withStatus (db.linkVerdict now run link))
      (links ▸ List.mem_map_of_mem member) rfl ?_
    exact (disappears_iff db now run link).mpr ⟨source, by simpa using unseen, status⟩
  · intro latest link member observed after afterMem same disappears
    rw [links] at afterMem
    obtain ⟨old, oldMem, rfl⟩ := List.mem_map.mp afterMem
    cases List.inj_on_of_nodup_map distinct oldMem member same
    obtain ⟨source, unseen, status⟩ := (disappears_iff db now run link).mp disappears
    simp [latest link member observed source status] at unseen

/-- A call respects its own run just when the run has the latest observations. -/
theorem respectsOwnRun_iff (tracked : Tracked ids db) (action : ServiceAction) :
    db.RespectsOwnRun ids unicode action ↔ db.OwnsLatest action := by
  cases action with
  | processSourceRun now sourceRunId =>
      refine forall_congr' fun run => forall_congr' fun found => forall_congr' fun passed => ?_
      have distinct := tracked.linkIds
      cases processed : db.processSourceRun ids now sourceRunId with
      | error failure =>
          simp [processSourceRun, Option.mem_def.mp found, passed] at processed
      | ok outcome =>
          obtain ⟨next, summary⟩ := outcome
          have stepped : db.step ids unicode (.processSourceRun now sourceRunId) = next := by
            simp only [step, perform, processed, ok_bind]
            rfl
          rw [stepped]
          exact presenceRespected_iff distinct found passed processed
  | processObservation _ _ _ _ | mergeListings _ _ | reverseMerge _ _ _ _ _
  | resolveDuplicateCandidate _ _ _ _ _ _ | evaluateCandidates _ _ _ | outside _ => exact Iff.rfl

/-- **Presence in the own run.** In every run of the services from the empty
database, no gate-passed source run lets a link disappear that it observed itself
just when it always has the latest observation of such a link. -/
theorem presence_respected_iff (ids : IdSupply) (unicode : UnicodeTables)
    (actions : List ServiceAction) :
    Permitted (step ids unicode) (RespectsOwnRun ids unicode) Database.empty actions ↔
      Permitted (step ids unicode) OwnsLatest Database.empty actions := by
  refine forall_congr' fun moment => forall_congr' fun member => respectsOwnRun_iff ?_ moment.2
  exact tracked_preserved.moments (tracked_empty ids) (fun _ _ => trivial) moment member

/-! ## An earlier run processed late -/

/-- A gate-passed run of the first source. -/
def healthyRun (id : Uuid) (startedAt : Timestamp) : SourceRun where
  sourceRunId := id
  refreshRunId := id
  sourceId := 1
  startedAt := startedAt
  completedAt := some startedAt
  status := .healthy
  healthGatePassed := some true
  counts := none
  errorSummary := none
  adapterVersion := "1"

/-- Two runs observe one rental, both observations are normalized, and then the first
run is processed. -/
def lateRun : List ServiceAction :=
  [.outside
      { observations := [{ observedAt 1 1 "a" none with sourceRunId := 1, observedAt := 10 },
          { observedAt 2 1 "a" none with sourceRunId := 2, observedAt := 20 }]
        sourceRuns := [healthyRun 1 10, healthyRun 2 20]
        overrides := []
        geography := fun address => (address.locationPrecision, address.boundaryStatus) },
    process 1, process 2]

/-- The first run lets the link disappear, though it observed the rental. -/
theorem late_run_contradicts_itself :
    ¬ Permitted (step countingIds asciiTables) (RespectsOwnRun countingIds asciiTables)
      Database.empty (lateRun ++ [.processSourceRun 30 1]) := by
  intro permitted
  obtain ⟨respects, _⟩ := (permitted_cons _ _ _).mp ((permitted_append _ _ _).mp permitted).2
  have respected := respects (healthyRun 1 10) rfl rfl
  refine respected _ (List.head_mem (by decide)) ?_ _ (List.head_mem (by decide)) (by decide)
    (by decide)
  exact ⟨_, List.head_mem (by decide), rfl, rfl, rfl⟩

end Database

end RentalAgent
