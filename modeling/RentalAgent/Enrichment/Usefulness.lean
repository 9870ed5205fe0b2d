import RentalAgent.Enrichment.CurrentStops
import RentalAgent.Foundation.Sweep

/-! # Useful transit

`classify_usefulness` reads rows that are candidates and marks those of stops near by as
useful. A row of a stop that is farther stays a candidate, so that every later pass reads it
again; the query has a limit and no order. `usefulness_exact` says what each pass of a history
does, and from each state that is reached, when passes mark every row that is near.
-/

namespace RentalAgent

open Relational Transition

/-! ## The pass -/

/-- `USEFULNESS_RULE_VERSION`. -/
def usefulnessRuleVersion : String := "usefulness-straightline-v1"

/-- `USEFUL_STRAIGHT_LINE_M`. -/
def usefulStraightLineM : Int := 800

/-- `MODE_REASON`. -/
def modeReason : TransitMode → Option String
  | .subway => some "DIRECT_SUBWAY_ACCESS"
  | .path => some "DIRECT_PATH_ACCESS"
  | _ => none

/-- What tells the rows of transit access apart: the listing, the mode and the stop. -/
abbrev AccessKey := Uuid × TransitMode × Uuid

namespace TransitAccess

/-- The key of a row. -/
def accessKey (access : TransitAccess) : AccessKey :=
  (access.canonicalListingId, access.mode, access.transitStopId)

/-- The reason for which a row is useful. -/
def directReason (access : TransitAccess) : Option String :=
  if access.straightLineDistanceM ≤ usefulStraightLineM then modeReason access.mode else none

/-- The stop of the row is of a mode with direct access, and near by. -/
def near (access : TransitAccess) : Bool := access.directReason.isSome

/-- The row, marked as useful. -/
def markUseful (access : TransitAccess) : TransitAccess :=
  { access with usefulnessStatus := .useful }

/-- The row is a candidate. -/
def isCandidate (access : TransitAccess) : Bool := access.usefulnessStatus = .candidate

end TransitAccess

/-- The value of the column `usefulness_reasons`. -/
structure UsefulnessReasons where
  rule : String
  reasons : List String
  distanceBasis : String
  deriving DecidableEq

/-- The reasons of a row with one reason. -/
def UsefulnessReasons.of (reason : String) : UsefulnessReasons where
  rule := usefulnessRuleVersion
  reasons := [reason]
  distanceBasis := "straight_line_only"

/-- `UsefulnessSummary`. -/
structure UsefulnessSummary where
  evaluated : Nat := 0
  useful : Nat := 0
  candidate : Nat := 0

/-- What a pass has done: the tables, its summary, and the reasons that it wrote to rows. -/
structure UsefulnessPass where
  tables : NearbyTables
  summary : UsefulnessSummary
  reasons : List (AccessKey × UsefulnessReasons)

/-- One round of `classify_usefulness`. -/
def UsefulnessPass.classifyAccess (pass : UsefulnessPass) (access : TransitAccess) :
    UsefulnessPass :=
  let summary := { pass.summary with evaluated := pass.summary.evaluated + 1 }
  match access.directReason with
  | some reason =>
      { tables := { pass.tables with
          access := updateWhere (fun row => row.accessKey = access.accessKey)
            TransitAccess.markUseful pass.tables.access }
        summary := { summary with useful := summary.useful + 1 }
        reasons := pass.reasons ++ [(access.accessKey, .of reason)] }
  | none =>
      { tables := pass.tables
        summary := { summary with candidate := summary.candidate + 1 }
        reasons := pass.reasons ++ [(access.accessKey, .of "SERVICE_UNVERIFIED")] }

namespace NearbyTables

/-- The rows that a pass reads, as the scan meets them. -/
def candidateAccess (tables : NearbyTables) (scan : AccessKey → Nat) (limit : Nat) :
    List TransitAccess :=
  Ranking.firstRows (fun first second => scan first.accessKey ≤ scan second.accessKey)
    TransitAccess.isCandidate limit tables.access

/-- `classify_usefulness`. -/
def classifyUsefulness (tables : NearbyTables) (scan : AccessKey → Nat) (limit : Nat) :
    UsefulnessPass :=
  (tables.candidateAccess scan limit).foldl UsefulnessPass.classifyAccess ⟨tables, {}, []⟩

/-! ## The purpose -/

/-- The row is near and still a candidate. -/
def waiting (access : TransitAccess) : Bool := access.isCandidate && access.near

/-- The row is a candidate, and no pass marks it. -/
def lingering (access : TransitAccess) : Bool := access.isCandidate && !access.near

/-- Rows are useful or candidates, and only rows that are near are useful. -/
def Marked (tables : NearbyTables) : Prop :=
  ∀ row ∈ tables.access, row.usefulnessStatus = .candidate ∨
    row.usefulnessStatus = .useful ∧ row.near = true

/-- A pass marks the near rows that it reads and changes nothing else. It writes the reason of
each row that it reads and counts the rows that it marks. -/
structure Classified (tables : NearbyTables) (scan : AccessKey → Nat) (limit : Nat)
    (pass : UsefulnessPass) : Prop where
  marks : pass.tables = { tables with
    access := tables.access.map fun row =>
      if row ∈ tables.candidateAccess scan limit ∧ row.near = true then row.markUseful else row }
  reasons : pass.reasons = (tables.candidateAccess scan limit).map fun row =>
    (row.accessKey, .of (row.directReason.getD "SERVICE_UNVERIFIED"))
  evaluated : pass.summary.evaluated = min limit (tables.access.countP TransitAccess.isCandidate)
  useful : pass.summary.useful + pass.tables.access.countP waiting = tables.access.countP waiting
  rest : pass.summary.useful + pass.summary.candidate = pass.summary.evaluated

end NearbyTables

/-- What happens to the tables: what happens to nearby transit, or a pass. -/
inductive UsefulnessAction
  | nearby (action : NearbyAction)
  | classify (scan : AccessKey → Nat) (limit : Nat)

namespace NearbyEnvironment

def usefulnessStep (env : NearbyEnvironment) (tables : NearbyTables) :
    UsefulnessAction → NearbyTables
  | .nearby action => env.step tables action
  | .classify scan limit => (tables.classifyUsefulness scan limit).tables

end NearbyEnvironment

/-! ## One pass -/

namespace TransitAccess

@[simp] theorem accessKey_markUseful (access : TransitAccess) :
    access.markUseful.accessKey = access.accessKey := rfl

@[simp] theorem markUseful_markUseful (access : TransitAccess) :
    access.markUseful.markUseful = access.markUseful := rfl

end TransitAccess

/-- Passes read candidates and want those that are near. -/
def usefulnessRule : Sweep.Rule TransitAccess AccessKey where
  key := TransitAccess.accessKey
  selects := TransitAccess.isCandidate
  wanted := TransitAccess.near

namespace UsefulnessPass

/-- The rounds mark the rows with the key of a row that is near. -/
theorem tables_classified (rows : List TransitAccess) (pass : UsefulnessPass) :
    (rows.foldl classifyAccess pass).tables = { pass.tables with
      access := updateWhere
        (fun row => rows.any fun access => access.near && row.accessKey = access.accessKey)
        TransitAccess.markUseful pass.tables.access } := by
  induction rows generalizing pass with
  | nil => rw [List.foldl_nil, updateWhere_eq_self fun _ _ => List.any_nil]
  | cons access rest ih =>
      rw [List.foldl_cons, ih]
      cases reason : access.directReason with
      | none =>
          have far : access.near = false := by simp [TransitAccess.near, reason]
          simp only [classifyAccess, reason, List.any_cons, far, Bool.false_and, Bool.false_or]
      | some text =>
          have near : access.near = true := by simp [TransitAccess.near, reason]
          simp only [classifyAccess, reason, List.any_cons, near, Bool.true_and]
          rw [updateWhere, updateWhere, updateWhere, List.map_map]
          congr 1
          refine List.map_congr_left fun row _ => ?_
          by_cases same : row.accessKey = access.accessKey
          · simp [same]
          · simp [same]

/-- The rounds count their rows, and the near ones among them. -/
theorem summary_classified (rows : List TransitAccess) (pass : UsefulnessPass) :
    (rows.foldl classifyAccess pass).summary.evaluated = pass.summary.evaluated + rows.length ∧
      (rows.foldl classifyAccess pass).summary.useful =
        pass.summary.useful + rows.countP TransitAccess.near ∧
      (rows.foldl classifyAccess pass).summary.candidate =
        pass.summary.candidate + rows.countP fun row => !row.near := by
  induction rows generalizing pass with
  | nil => exact ⟨rfl, rfl, rfl⟩
  | cons access rest ih =>
      obtain ⟨evaluated, useful, candidate⟩ := ih (pass.classifyAccess access)
      rw [List.foldl_cons, evaluated, useful, candidate, List.length_cons, List.countP_cons,
        List.countP_cons]
      cases reason : access.directReason with
      | none =>
          have far : access.near = false := by simp [TransitAccess.near, reason]
          simp only [classifyAccess, reason, far, Bool.false_eq_true, ↓reduceIte, Bool.not_false]
          omega
      | some text =>
          have near : access.near = true := by simp [TransitAccess.near, reason]
          simp only [classifyAccess, reason, near, Bool.false_eq_true, ↓reduceIte, Bool.not_true]
          omega

/-- Each round writes the reason of its row. -/
theorem reasons_classified (rows : List TransitAccess) (pass : UsefulnessPass) :
    (rows.foldl classifyAccess pass).reasons = pass.reasons ++ rows.map fun row =>
      (row.accessKey, .of (row.directReason.getD "SERVICE_UNVERIFIED")) := by
  induction rows generalizing pass with
  | nil => rw [List.foldl_nil, List.map_nil, List.append_nil]
  | cons access rest ih =>
      rw [List.foldl_cons, ih, List.map_cons, ← List.singleton_append, ← List.append_assoc]
      cases reason : access.directReason with
      | none => simp only [classifyAccess, reason, Option.getD_none]
      | some text => simp only [classifyAccess, reason, Option.getD_some]

end UsefulnessPass

namespace NearbyTables

variable {tables : NearbyTables} {scan : AccessKey → Nat} {limit : Nat}

/-- A pass marks the rows that a sweep settles. -/
theorem tables_classifyUsefulness (keyed : PrimaryKey TransitAccess.accessKey tables.access) :
    (tables.classifyUsefulness scan limit).tables = { tables with
      access := updateWhere (usefulnessRule.settles limit tables.access scan)
        TransitAccess.markUseful tables.access } := by
  rw [classifyUsefulness, UsefulnessPass.tables_classified]
  dsimp only
  rw [updateWhere, updateWhere]
  congr 1
  refine List.map_congr_left fun row member => ?_
  congr 1
  refine propext ?_
  rw [List.any_eq_true, Sweep.Rule.settles_eq_true]
  constructor
  · rintro ⟨access, inside, chosen⟩
    simp only [Bool.and_eq_true, decide_eq_true_eq] at chosen
    obtain rfl := keyed.eq_of_mem member (Ranking.mem_of_mem_firstRows inside).1 chosen.2
    exact ⟨inside, chosen.1⟩
  · rintro ⟨inside, near⟩
    exact ⟨row, inside, Bool.and_eq_true_iff.mpr ⟨near, decide_eq_true rfl⟩⟩

/-- A pass is a sweep. -/
theorem swept_classifyUsefulness (keyed : PrimaryKey TransitAccess.accessKey tables.access) :
    usefulnessRule.Swept limit scan tables.access
      (tables.classifyUsefulness scan limit).tables.access :=
  ⟨TransitAccess.markUseful, congrArg NearbyTables.access (tables_classifyUsefulness keyed),
    fun _ _ => ⟨rfl, rfl⟩⟩

/-- A pass does what it is for. -/
theorem classified (keyed : PrimaryKey TransitAccess.accessKey tables.access) :
    tables.Classified scan limit (tables.classifyUsefulness scan limit) := by
  obtain ⟨evaluated, useful, candidate⟩ :=
    UsefulnessPass.summary_classified (tables.candidateAccess scan limit) ⟨tables, {}, []⟩
  rw [← classifyUsefulness] at evaluated useful candidate
  simp only [Nat.zero_add] at evaluated useful candidate
  refine ⟨?_, ?_, ?_, ?_, ?_⟩
  · rw [tables_classifyUsefulness keyed, updateWhere]
    simp only [Sweep.Rule.settles_eq_true]
    rfl
  · rw [classifyUsefulness, UsefulnessPass.reasons_classified, List.nil_append]
  · rw [evaluated, candidateAccess, Ranking.length_firstRows]
  · have swept : usefulnessRule.Swept limit scan tables.access
        (tables.classifyUsefulness scan limit).tables.access := swept_classifyUsefulness keyed
    have counted := swept.countP_due
    rw [Sweep.Rule.countP_settles keyed] at counted
    rw [useful, Nat.add_comm]
    exact counted
  · rw [evaluated, useful, candidate, List.length_eq_countP_add_countP TransitAccess.near]
    refine congrArg _ (List.countP_congr fun row _ => ?_)
    rw [Bool.not_eq_true', decide_eq_true_eq, Bool.not_eq_true]

/-! ## What is stored -/

/-- A change of rows that keeps their listings, modes and ranks keeps their order. -/
theorem rowsByRank_map (tables : NearbyTables) {change : TransitAccess → TransitAccess}
    (listing : ∀ row, (change row).canonicalListingId = row.canonicalListingId)
    (mode : ∀ row, (change row).mode = row.mode)
    (rank : ∀ row, (change row).proximityRank = row.proximityRank)
    (canonicalListingId : Uuid) (searched : TransitMode) :
    ({ tables with access := tables.access.map change } : NearbyTables).rowsByRank
        canonicalListingId searched =
      (tables.rowsByRank canonicalListingId searched).map change := by
  have selected : ((tables.access.map change).filter fun row =>
      row.canonicalListingId = canonicalListingId && row.mode = searched) =
      (tables.access.filter fun row =>
        row.canonicalListingId = canonicalListingId && row.mode = searched).map change := by
    rw [List.filter_map]
    simp only [Function.comp_def, listing, mode]
  rw [rowsByRank, Ranking.ranked, selected]
  refine (List.map_insertionSort _ _ change _ fun first _ second _ => ?_).symm
  rw [rank, rank]

end NearbyTables

namespace NearbyEnvironment

variable {env : NearbyEnvironment} {tables : NearbyTables} {scan : AccessKey → Nat} {limit : Nat}

/-- A pass keeps what is stored sound. -/
theorem Sound.classifyUsefulness (sound : Sound env tables) :
    Sound env (tables.classifyUsefulness scan limit).tables := by
  have swept : usefulnessRule.Swept limit scan tables.access
      (tables.classifyUsefulness scan limit).tables.access :=
    NearbyTables.swept_classifyUsefulness sound.unique
  have unique := swept.primaryKey sound.unique
  rw [NearbyTables.tables_classifyUsefulness sound.unique] at unique ⊢
  have column : ∀ {Value : Type} (column : TransitAccess → Value),
      (∀ row, column row.markUseful = column row) → ∀ row,
        column (if usefulnessRule.settles limit tables.access scan row
          then row.markUseful else row) = column row := by
    intro Value column keeps row
    split
    · exact keeps row
    · rfl
  have ordered := NearbyTables.rowsByRank_map tables
    (column TransitAccess.canonicalListingId fun _ => rfl)
    (column TransitAccess.mode fun _ => rfl)
    (column TransitAccess.proximityRank fun _ => rfl)
  refine ⟨sound.keyed, fun row member => ?_, fun row member => ?_, unique,
    fun listing mode => ?_, fun listing mode => ?_⟩
  · obtain ⟨old, stored, rfl⟩ := mem_updateWhere.mp member
    exact (column TransitAccess.transitStopId (fun _ => rfl) old).symm ▸ sound.known old stored
  · obtain ⟨old, stored, rfl⟩ := mem_updateWhere.mp member
    exact (column TransitAccess.mode (fun _ => rfl) old).symm ▸ sound.modes old stored
  · rw [updateWhere, ordered, List.map_map, List.length_map]
    refine Eq.trans (List.map_congr_left fun row _ => ?_) (sound.ranks listing mode)
    exact column TransitAccess.proximityRank (fun _ => rfl) row
  · rw [updateWhere, ordered, List.length_map]
    exact sound.few listing mode

/-- An enrichment writes candidates. -/
theorem marked_generated {canonicalListingId : Uuid} {point : Point} {hash : String}
    {now : Timestamp} (marked : tables.Marked) :
    (env.generated tables canonicalListingId point hash now).Marked := by
  intro row member
  rcases List.mem_append.mp member with old | new
  · exact marked row (List.mem_filter.mp old).1
  · obtain ⟨_, _, listed⟩ := List.mem_flatMap.mp new
    obtain ⟨_, _, rfl⟩ := List.mem_map.mp listed
    exact .inl rfl

/-- Every action keeps the rows marked as they should be. -/
theorem marked_step (sound : Sound env tables) (marked : tables.Marked)
    (action : UsefulnessAction) : (env.usefulnessStep tables action).Marked := by
  cases action with
  | classify scan limit =>
      change (tables.classifyUsefulness scan limit).tables.Marked
      rw [NearbyTables.tables_classifyUsefulness sound.unique]
      intro row member
      obtain ⟨old, stored, rfl⟩ := mem_updateWhere.mp member
      split
      case isTrue settled => exact .inr ⟨rfl, (Sweep.Rule.settles_eq_true.mp settled).2⟩
      case isFalse => exact marked old stored
  | nearby action =>
      cases action with
      | ingest dataset providerSourceId => exact marked
      | relocate listings buildings addresses => exact marked
      | enrich canonicalListingId now =>
          change (env.enrichListing canonicalListingId now tables).1.Marked
          rcases located : tables.origin canonicalListingId with - | ⟨point, precision⟩
          · rw [enrichListing_unlocated located]
            exact marked
          · by_cases same : tables.existingHash canonicalListingId =
                some (env.locationHash point precision)
            · rw [enrichListing_reuses located same]
              exact marked
            · rw [enrichListing_generates located same]
              exact marked_generated marked

theorem sound_step (sound : Sound env tables) (action : UsefulnessAction) :
    Sound env (env.usefulnessStep tables action) := by
  cases action with
  | nearby action => exact sound.step action
  | classify scan limit => exact sound.classifyUsefulness

/-! ## Distances -/

/-- A number is cut off to at most a bound when it is less than the next whole number. -/
theorem wholePart_le_iff {value : Rat} {bound : Int} (positive : 0 ≤ bound) :
    wholePart value ≤ bound ↔ value < bound + 1 := by
  rcases lt_or_ge value 0 with negative | valid
  · have least : wholePart value ≤ 0 := by
      rw [wholePart, ← Int.zero_tdiv (value.den : Int)]
      exact Int.tdiv_le_tdiv (Int.natCast_pos.mpr value.den_pos) (Rat.num_neg.mpr negative).le
    have above : (0 : Rat) < bound + 1 := (Int.cast_nonneg positive).trans_lt (lt_add_one _)
    exact iff_of_true (least.trans positive) (negative.trans above)
  · rw [wholePart, Int.tdiv_eq_ediv_of_nonneg (Rat.num_nonneg.mpr valid), ← Rat.floor_def',
      ← Int.lt_add_one_iff, Int.floor_lt, Int.cast_add, Int.cast_one]

/-- The row of a stop is near when its mode has direct access and the stop is less than 801
meters away: the fraction of a meter is cut off before the comparison. -/
theorem near_accessRow {canonicalListingId : Uuid} {point : Point} {hash : String}
    {now : Timestamp} {mode : TransitMode} (ranked : TransitStop × Nat) :
    (env.accessRow canonicalListingId point hash now mode ranked).near = true ↔
      (modeReason mode).isSome = true ∧ env.meters point ranked.1 < 801 := by
  have within : wholePart (env.meters point ranked.1) ≤ usefulStraightLineM ↔
      env.meters point ranked.1 < 801 := by
    rw [wholePart_le_iff (by decide)]
    norm_num [usefulStraightLineM]
  rw [TransitAccess.near, TransitAccess.directReason, ← within]
  change (if wholePart (env.meters point ranked.1) ≤ usefulStraightLineM then modeReason mode
    else none).isSome = true ↔ _
  split
  case isTrue less => exact (and_iff_left less).symm
  case isFalse more => simp only [Option.isSome_none, Bool.false_eq_true, more, and_false]

/-! ## Histories -/

/-- A pass does what it is for. -/
def ClassifiesExactly (tables : NearbyTables) : UsefulnessAction → Prop
  | .nearby _ => True
  | .classify scan limit => tables.Classified scan limit (tables.classifyUsefulness scan limit)

/-- What is stored is sound, and the rows are marked as they should be. -/
def SoundlyMarked (env : NearbyEnvironment) (tables : NearbyTables) : Prop :=
  Sound env tables ∧ tables.Marked

theorem soundlyMarked_preserved (env : NearbyEnvironment) :
    Preserved env.usefulnessStep (fun _ _ => True) (SoundlyMarked env) :=
  fun _ action ⟨sound, marked⟩ _ => ⟨sound_step sound action, marked_step sound marked action⟩

theorem soundlyMarked_empty (env : NearbyEnvironment) : SoundlyMarked env .empty :=
  ⟨sound_empty env, fun _ member => absurd member List.not_mem_nil⟩

/-- Passes sweep the rows. -/
theorem sweeps_classify (env : NearbyEnvironment) (limit : Nat) :
    usefulnessRule.Sweeps limit
      (fun tables scan => env.usefulnessStep tables (.classify scan limit))
      NearbyTables.access id :=
  fun _ _ keyed => NearbyTables.swept_classifyUsefulness keyed

/-- A row of marked tables is as it should be when it does not wait. -/
theorem status_iff (marked : tables.Marked) {row : TransitAccess} (member : row ∈ tables.access) :
    row.usefulnessStatus = (if row.near then .useful else .candidate) ↔
      usefulnessRule.due row = false := by
  change _ ↔ (row.isCandidate && row.near) = false
  rcases marked row member with candidate | ⟨useful, near⟩
  · cases near : row.near <;> simp [TransitAccess.isCandidate, candidate]
  · simp [TransitAccess.isCandidate, useful, near]

/-- **Useful transit.** In every history each pass marks the near rows that it reads and nothing
else, and only near rows are useful. From each state that is reached, as many passes as near
rows are still candidates mark every near row, whatever they read first, exactly when there is
no such row or the candidates that are not near are fewer than the limit. -/
theorem usefulness_exact (env : NearbyEnvironment) (actions : List UsefulnessAction) :
    Permitted env.usefulnessStep ClassifiesExactly .empty actions ∧
    let reached := run env.usefulnessStep .empty actions
    reached.Marked ∧ ∀ limit,
      (∀ scans : List (AccessKey → Nat),
        reached.access.countP NearbyTables.waiting ≤ scans.length →
          ∀ row ∈ (run env.usefulnessStep reached
              (scans.map fun scan => .classify scan limit)).access,
            row.usefulnessStatus = if row.near then .useful else .candidate) ↔
      ((∃ row ∈ reached.access, NearbyTables.waiting row = true) →
        reached.access.countP NearbyTables.lingering < limit) := by
  have preserved := soundlyMarked_preserved env
  refine ⟨?_, ?_⟩
  · intro moment member
    obtain ⟨sound, _⟩ := preserved.moments (soundlyMarked_empty env) (fun _ _ => trivial)
      moment member
    cases action : moment.2 with
    | nearby action => trivial
    | classify scan limit => exact NearbyTables.classified sound.unique
  · intro reached
    obtain ⟨sound, marked⟩ : SoundlyMarked env reached :=
      preserved.run (soundlyMarked_empty env) fun _ _ => trivial
    refine ⟨marked, fun limit => ?_⟩
    have drains := (sweeps_classify env limit).drains_iff Function.surjective_id sound.unique
    refine Iff.trans (forall₂_congr fun scans _ => ?_) drains
    obtain ⟨_, later⟩ : SoundlyMarked env (run env.usefulnessStep reached
        (scans.map fun scan => .classify scan limit)) :=
      preserved.run ⟨sound, marked⟩ fun _ _ => trivial
    rw [run, List.foldl_map] at later ⊢
    exact forall₂_congr fun row member => status_iff later member

/-- A station that is not near fills a pass of one row, which leaves the near one unmarked. -/
example :
    let far : TransitAccess := ⟨1, 7, .subway, 900, 1, .candidate, .pending, "", "v1", 5⟩
    let near := { far with transitStopId := 8, straightLineDistanceM := 300 }
    let tables := { NearbyTables.empty with access := [far, near] }
    (tables.classifyUsefulness (fun _ => 0) 1).tables = tables := by decide

end NearbyEnvironment

end RentalAgent
