import RentalAgent.Foundation.Ranking
import RentalAgent.Foundation.Relational
import RentalAgent.Foundation.Transition

/-! # Sweeps

A sweep takes the first rows that a query selects and settles those that are wanted. A settled
row is selected no more; a row that is not wanted is left as it is, and later sweeps meet it
again. When the steps of a system are sweeps, they settle every wanted row, whatever the order
in which they meet the rows, exactly when the rows that are not wanted do not fill a sweep
(`Rule.Sweeps.drains_iff`).
-/

namespace Sweep

open Relational Transition Ranking

/-- What the sweeps of a table select, and what they want. -/
structure Rule (Row Key : Type*) where
  key : Row → Key
  selects : Row → Bool
  wanted : Row → Bool

variable {Row Key : Type*}

/-- Rows that an update takes out of a count are missing from it. -/
theorem countP_updateWhere {rows : List Row} {counted condition : Row → Bool} {change : Row → Row}
    (among : ∀ row, condition row = true → counted row = true)
    (leaves : ∀ row, condition row = true → counted (change row) = false) :
    (updateWhere condition change rows).countP counted + rows.countP condition =
      rows.countP counted := by
  induction rows with
  | nil => rfl
  | cons row rest ih =>
      rw [updateWhere] at ih
      rw [updateWhere, List.map_cons, List.countP_cons, List.countP_cons, List.countP_cons]
      cases selected : condition row with
      | true =>
          simp only [↓reduceIte, leaves row selected, Bool.false_eq_true, among row selected]
          omega
      | false =>
          simp only [Bool.false_eq_true, ↓reduceIte]
          omega

namespace Rule

/-- The row waits to be settled. -/
def due (rule : Rule Row Key) (row : Row) : Bool := rule.selects row && rule.wanted row

/-- The row is selected, and no sweep settles it. -/
def idle (rule : Rule Row Key) (row : Row) : Bool := rule.selects row && !rule.wanted row

/-- The rows of a sweep: those that the scan meets first. -/
def batch (rule : Rule Row Key) (limit : Nat) (scan : Key → Nat) (rows : List Row) : List Row :=
  firstRows (fun first second => scan (rule.key first) ≤ scan (rule.key second)) rule.selects
    limit rows

variable [DecidableEq Row]

/-- The row is settled by a sweep. -/
def settles (rule : Rule Row Key) (limit : Nat) (rows : List Row) (scan : Key → Nat)
    (row : Row) : Bool :=
  decide (row ∈ rule.batch limit scan rows) && rule.wanted row

/-- A sweep settles the wanted rows of its batch and leaves the others as they are. -/
def Swept (rule : Rule Row Key) (limit : Nat) (scan : Key → Nat) (rows next : List Row) : Prop :=
  ∃ settle : Row → Row, next = updateWhere (rule.settles limit rows scan) settle rows ∧
    ∀ row, rule.settles limit rows scan row = true →
      rule.key (settle row) = rule.key row ∧ rule.selects (settle row) = false

variable {rule : Rule Row Key} {limit : Nat} {rows next : List Row} {scan : Key → Nat} {row : Row}

/-! ## One sweep -/

theorem settles_eq_true : rule.settles limit rows scan row = true ↔
    row ∈ rule.batch limit scan rows ∧ rule.wanted row = true := by
  simp [settles]

/-- What a sweep settles was due. -/
theorem due_of_settles (settled : rule.settles limit rows scan row = true) :
    rule.due row = true := by
  obtain ⟨inside, wanted⟩ := settles_eq_true.mp settled
  rw [due, (mem_of_mem_firstRows inside).2, wanted, Bool.and_self]

theorem Swept.primaryKey (swept : rule.Swept limit scan rows next)
    (keyed : PrimaryKey rule.key rows) : PrimaryKey rule.key next := by
  obtain ⟨settle, rfl, settled⟩ := swept
  exact UniqueIndex.updateWhere keyed fun row _ chosen _ => ⟨trivial, (settled row chosen).1⟩

/-- A sweep keeps the rows that it does not want. -/
theorem Swept.countP_idle (swept : rule.Swept limit scan rows next) :
    next.countP rule.idle = rows.countP rule.idle := by
  obtain ⟨settle, rfl, settled⟩ := swept
  rw [updateWhere, List.countP_map]
  refine List.countP_congr fun row _ => ?_
  by_cases chosen : rule.settles limit rows scan row = true
  · have wanted := (settles_eq_true.mp chosen).2
    simp [chosen, idle, wanted, (settled row chosen).2]
  · simp [chosen]

/-- Each row that a sweep settles is one less to settle. -/
theorem Swept.countP_due (swept : rule.Swept limit scan rows next) :
    next.countP rule.due + rows.countP (rule.settles limit rows scan) =
      rows.countP rule.due := by
  obtain ⟨settle, rfl, settled⟩ := swept
  refine countP_updateWhere (fun _ => due_of_settles) fun row chosen => ?_
  rw [due, (settled row chosen).2, Bool.false_and]

/-- A sweep settles as many rows as its batch has wanted ones. -/
theorem countP_settles (keyed : PrimaryKey rule.key rows) :
    rows.countP (rule.settles limit rows scan) =
      (rule.batch limit scan rows).countP rule.wanted := by
  have distinct : rows.Nodup := (primaryKey_iff_nodup.mp keyed).of_map _
  have batch : (rule.batch limit scan rows).Nodup :=
    (nodup_map_firstRows (primaryKey_iff_nodup.mp keyed)).of_map _
  have same : (rows.filter fun row => decide (row ∈ rule.batch limit scan rows)).Perm
      (rule.batch limit scan rows) := by
    refine (List.perm_ext_iff_of_nodup (distinct.filter _) batch).mpr fun row => ?_
    rw [List.mem_filter, decide_eq_true_eq]
    exact and_iff_right_of_imp fun inside => (mem_of_mem_firstRows inside).1
  rw [← same.countP_eq, List.countP_filter]
  exact List.countP_congr fun row _ => by rw [settles, Bool.and_comm]

/-- A sweep that meets no wanted row leaves the rows as they are. -/
theorem Swept.eq_self (swept : rule.Swept limit scan rows next)
    (unwanted : ∀ row ∈ rule.batch limit scan rows, rule.wanted row = false) : next = rows := by
  obtain ⟨settle, rfl, -⟩ := swept
  refine updateWhere_eq_self fun row _ => Bool.eq_false_iff.mpr fun settled => ?_
  obtain ⟨inside, wanted⟩ := settles_eq_true.mp settled
  exact Bool.false_ne_true ((unwanted row inside).symm.trans wanted)

/-- While the rows that are not wanted do not fill a sweep, it settles a row that is due, when
there is one. -/
theorem settles_pos (room : rows.countP rule.idle < limit)
    (left : ∃ row ∈ rows, rule.due row = true) (scan : Key → Nat) :
    0 < rows.countP (rule.settles limit rows scan) := by
  obtain ⟨row, member, due⟩ := left
  have present : ∃ row ∈ rows, rule.selects row = true ∧ rule.wanted row = true :=
    ⟨row, member, Bool.and_eq_true_iff.mp due⟩
  obtain ⟨row, inside, wanted⟩ : ∃ row ∈ rule.batch limit scan rows, rule.wanted row = true :=
    exists_wanted_firstRows room present
  exact List.countP_pos_iff.mpr
    ⟨row, (mem_of_mem_firstRows inside).1, settles_eq_true.mpr ⟨inside, wanted⟩⟩

/-! ## Sweeps in a row -/

variable {State Call : Type*} {step : State → Call → State} {rowsOf : State → List Row}
  {scanOf : Call → Key → Nat} {state : State}

/-- If a row is due, the rows that are not wanted do not fill a sweep. -/
def Room (rule : Rule Row Key) (limit : Nat) (rows : List Row) : Prop :=
  (∃ row ∈ rows, rule.due row = true) → rows.countP rule.idle < limit

/-- The steps of a system sweep its rows. -/
def Sweeps (rule : Rule Row Key) (limit : Nat) (step : State → Call → State)
    (rowsOf : State → List Row) (scanOf : Call → Key → Nat) : Prop :=
  ∀ state call, PrimaryKey rule.key (rowsOf state) →
    rule.Swept limit (scanOf call) (rowsOf state) (rowsOf (step state call))

/-- A sweep leaves room. -/
theorem Swept.room (swept : rule.Swept limit scan rows next) (room : rule.Room limit rows) :
    rule.Room limit next := by
  intro left
  have counted := swept.countP_due
  have remaining := List.countP_pos_iff.mpr left
  rw [swept.countP_idle]
  exact room (List.countP_pos_iff.mp (by omega))

/-- What is kept when a system sweeps rows that have their keys and room. -/
theorem Sweeps.preserved (sweeps : rule.Sweeps limit step rowsOf scanOf) :
    Preserved step (fun _ _ => True) fun state =>
      PrimaryKey rule.key (rowsOf state) ∧ rule.Room limit (rowsOf state) :=
  fun state call ⟨keyed, room⟩ _ =>
    ⟨(sweeps state call keyed).primaryKey keyed, (sweeps state call keyed).room room⟩

/-- With room, as many sweeps as there are rows due leave none. -/
theorem Sweeps.drained (sweeps : rule.Sweeps limit step rowsOf scanOf)
    (keyed : PrimaryKey rule.key (rowsOf state)) (room : rule.Room limit (rowsOf state))
    {calls : List Call} (enough : (rowsOf state).countP rule.due ≤ calls.length) :
    ∀ row ∈ rowsOf (run step state calls), rule.due row = false := by
  induction calls generalizing state with
  | nil =>
      intro row member
      exact Bool.eq_false_iff.mpr (List.countP_eq_zero.mp (Nat.le_zero.mp enough) row member)
  | cons call rest ih =>
      have swept := sweeps state call keyed
      have counted := swept.countP_due
      rw [List.length_cons] at enough
      refine ih (swept.primaryKey keyed) (swept.room room) ?_
      by_cases left : ∃ row ∈ rowsOf state, rule.due row = true
      · have settled := settles_pos (room left) left (scanOf call)
        omega
      · have none := List.countP_pos_iff.not.mpr left
        omega

variable [DecidableEq Key]

/-- When the rows that are not wanted fill a sweep, the scan that meets them first settles
nothing. -/
theorem Sweeps.stuck (sweeps : rule.Sweeps limit step rowsOf scanOf)
    (keyed : PrimaryKey rule.key (rowsOf state))
    (full : limit ≤ (rowsOf state).countP rule.idle) {call : Call}
    (scan : scanOf call = unwantedFirst rule.key rule.wanted (rowsOf state)) :
    rowsOf (step state call) = rowsOf state := by
  refine (sweeps state call keyed).eq_self ?_
  rw [scan]
  exact unwanted_of_mem_firstRows
    (fun first inside second within => keyed.eq_of_mem inside within) full

/-- It settles nothing however often it is repeated. -/
theorem Sweeps.blocked (sweeps : rule.Sweeps limit step rowsOf scanOf)
    (keyed : PrimaryKey rule.key (rowsOf state))
    (full : limit ≤ (rowsOf state).countP rule.idle) {call : Call}
    (scan : scanOf call = unwantedFirst rule.key rule.wanted (rowsOf state)) (times : Nat) :
    rowsOf (run step state (List.replicate times call)) = rowsOf state := by
  induction times generalizing state with
  | zero => rfl
  | succ times ih =>
      have stuck := sweeps.stuck keyed full scan
      rw [List.replicate_succ, run_cons]
      exact (ih (stuck ▸ keyed) (stuck ▸ full) (stuck ▸ scan)).trans stuck

/-- **Sweeps.** As many sweeps as there are rows due leave none, whatever they meet first,
exactly when no row is due or the rows that are not wanted do not fill a sweep. -/
theorem Sweeps.drains_iff (sweeps : rule.Sweeps limit step rowsOf scanOf)
    (scans : Function.Surjective scanOf) (keyed : PrimaryKey rule.key (rowsOf state)) :
    (∀ calls : List Call, (rowsOf state).countP rule.due ≤ calls.length →
      ∀ row ∈ rowsOf (run step state calls), rule.due row = false) ↔
    rule.Room limit (rowsOf state) := by
  constructor
  · rintro drains ⟨row, member, due⟩
    refine Nat.lt_of_not_le fun full => ?_
    obtain ⟨call, scan⟩ := scans (unwantedFirst rule.key rule.wanted (rowsOf state))
    have left := drains (List.replicate ((rowsOf state).countP rule.due) call)
      (Nat.le_of_eq List.length_replicate.symm)
    rw [sweeps.blocked keyed full scan] at left
    exact Bool.false_ne_true ((left row member).symm.trans due)
  · exact fun room _ enough => sweeps.drained keyed room enough

end Rule

end Sweep
