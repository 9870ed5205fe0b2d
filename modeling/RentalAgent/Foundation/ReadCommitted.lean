import Mathlib.Data.List.Pairwise
import Mathlib.Logic.Function.Basic
import RentalAgent.Foundation.Relational
import RentalAgent.Foundation.Transition

/-! # Transactions over committed rows

Workers run transactions side by side over one table that enforces no key. A lookup sees
the rows committed so far and the transaction's own ones; what a transaction inserts
becomes visible to the others at its commit. A careful transaction inserts a row only
after it looked the key of the row up and found nothing. However careful transactions are
interleaved, keys are unique and no lookup finds several rows just when no key is committed
by another transaction between the lookup and the commit (`ReadCommitted.healthy_iff`).
-/

namespace ReadCommitted

open Relational Transition

variable {Worker Call Id Row Key Failure Result Value : Type}

/-- A transaction looks rows up, inserts rows under drawn ids, and returns or raises. -/
inductive Transaction (Id Row Failure Result : Type)
  | finish (result : Except Failure Result)
  | select (query : Row → Bool) (rest : List Row → Transaction Id Row Failure Result)
  | insert (row : Id → Row) (rest : Id → Transaction Id Row Failure Result)

namespace Transaction

/-- The transaction raised. -/
def failed : Transaction Id Row Failure Result → Bool
  | .finish (.error _) => true
  | .finish (.ok _) | .select .. | .insert .. => false

/-- The run of a transaction that is alone: the table and the number of ids drawn after
it, with its result. -/
def alone (draw : Nat → Id) : Transaction Id Row Failure Result → List Row → Nat →
    (List Row × Nat) × Except Failure Result
  | .finish result, rows, drawn => ((rows, drawn), result)
  | .select query rest, rows, drawn => (rest (rows.filter query)).alone draw rows drawn
  | .insert row rest, rows, drawn =>
      (rest (draw drawn)).alone draw (rows ++ [row (draw drawn)]) (drawn + 1)

/-- A lookup of at most one row of a kind; several rows raise. -/
def selectOne (kind : Row → Option Value) (query : Value → Bool) (several : Failure)
    (rest : Option Value → Transaction Id Row Failure Result) :
    Transaction Id Row Failure Result :=
  .select (fun row => (kind row).any query) fun rows =>
    match scalarOneOrNone several (rows.filterMap kind) with
    | .ok found => rest found
    | .error failure => .finish (.error failure)

end Transaction

/-- A transaction under way: what is left of it, its own rows with the number of rows that were
committed at the lookup before each of them, and that number at the last lookup. -/
structure Session (Id Row Failure Result : Type) where
  program : Transaction Id Row Failure Result
  pending : List (Row × Nat)
  seen : Nat

structure System (Worker Id Row Failure Result : Type) where
  committed : List Row
  drawn : Nat
  session : Worker → Option (Session Id Row Failure Result)

/-- A worker starts a call, executes its next statement, commits or rolls back. -/
inductive Action (Worker Call : Type)
  | start (worker : Worker) (call : Call)
  | advance (worker : Worker)
  | commit (worker : Worker)
  | rollback (worker : Worker)

/-- The rows a transaction has inserted. -/
def Session.own (session : Session Id Row Failure Result) : List Row :=
  session.pending.map Prod.fst

namespace System

def empty : System Worker Id Row Failure Result := ⟨[], 0, fun _ => none⟩

variable [DecidableEq Worker]

def setSession (system : System Worker Id Row Failure Result) (worker : Worker)
    (session : Option (Session Id Row Failure Result)) : System Worker Id Row Failure Result :=
  { system with session := Function.update system.session worker session }

/-- The next statement of a transaction. A lookup sees the committed rows and its own. -/
def advance (draw : Nat → Id) (system : System Worker Id Row Failure Result) (worker : Worker)
    (session : Session Id Row Failure Result) : System Worker Id Row Failure Result :=
  match session.program with
  | .finish _ => system
  | .select query rest =>
      system.setSession worker (some
        { session with
          program := rest ((system.committed ++ session.own).filter query)
          seen := system.committed.length })
  | .insert row rest =>
      { system.setSession worker (some
          { session with
            program := rest (draw system.drawn)
            pending := session.pending ++ [(row (draw system.drawn), session.seen)] }) with
        drawn := system.drawn + 1 }

/-- A transaction that returned makes its rows visible. -/
def commit (system : System Worker Id Row Failure Result) (worker : Worker)
    (session : Session Id Row Failure Result) : System Worker Id Row Failure Result :=
  match session.program with
  | .finish (.ok _) =>
      { system.setSession worker none with committed := system.committed ++ session.own }
  | .finish (.error _) | .select .. | .insert .. => system

/-- An action of a worker; one that is not possible changes nothing. -/
def step (draw : Nat → Id) (program : Call → Transaction Id Row Failure Result)
    (system : System Worker Id Row Failure Result) :
    Action Worker Call → System Worker Id Row Failure Result
  | .start worker call =>
      match system.session worker with
      | none => system.setSession worker (some ⟨program call, [], 0⟩)
      | some _ => system
  | .advance worker =>
      match system.session worker with
      | none => system
      | some session => system.advance draw worker session
  | .commit worker =>
      match system.session worker with
      | none => system
      | some session => system.commit worker session
  | .rollback worker => system.setSession worker none

end System

/-! ## Keys -/

/-- No two rows have one key; rows without a key are not constrained. -/
def UniqueKeys (key : Row → Option Key) (rows : List Row) : Prop :=
  rows.Pairwise fun first second => ∀ value, key first = some value → key second ≠ some value

/-- The query selects the rows of the key, and besides them only rows without a key. -/
structure LooksUp (key : Row → Option Key) (query : Row → Bool) (value : Key) : Prop where
  finds : ∀ row, key row = some value → query row = true
  only : ∀ row, query row = true → key row = some value ∨ key row = none

/-- A careful transaction looks up keys it has no row of, raises just when it finds
several rows, and inserts a row with a key only when the lookup before it was for the key and
found nothing. -/
def Careful (key : Row → Option Key) :
    Option Key → List Row → Transaction Id Row Failure Result → Prop
  | _, _, .finish _ => True
  | _, own, .select query rest => ∃ value, LooksUp key query value ∧
      (∀ row ∈ own, query row = false) ∧
      ∀ rows, (∀ row ∈ rows, query row = true) →
        ((rest rows).failed = true ↔ 2 ≤ rows.length) ∧
          Careful key (if rows = [] then some value else none) own (rest rows)
  | missed, own, .insert row rest => ∀ id,
      (∀ value, key (row id) = some value → missed = some value) ∧
        (rest id).failed = false ∧ Careful key none (own ++ [row id]) (rest id)

/-- A session whose lookups missed the keys of its rows among the rows committed then. -/
structure Session.Sound (key : Row → Option Key) (committed : List Row)
    (session : Session Id Row Failure Result) : Prop where
  seen : session.seen ≤ committed.length
  careful : ∃ missed, Careful key missed session.own session.program ∧
    ∀ value, missed = some value →
      ∀ row ∈ committed.take session.seen ++ session.own, key row ≠ some value
  fresh : ∀ entry ∈ session.pending, entry.2 ≤ committed.length ∧
    ∀ value, key entry.1 = some value → ∀ row ∈ committed.take entry.2, key row ≠ some value
  distinct : UniqueKeys key session.own

namespace System

/-- Every transaction under way is sound. -/
def Sound (key : Row → Option Key) (system : System Worker Id Row Failure Result) : Prop :=
  ∀ worker session, system.session worker = some session → session.Sound key system.committed

/-- The committed keys are unique, and no lookup has found several rows. -/
structure Healthy (key : Row → Option Key) (system : System Worker Id Row Failure Result) :
    Prop where
  unique : UniqueKeys key system.committed
  answered : ∀ worker session, system.session worker = some session →
    session.program.failed = false

/-- A commit is valid when no row with a key of its rows was committed since the lookup
of the key; and a row without a key that a lookup finds is all it finds. -/
def Valid (key : Row → Option Key) (system : System Worker Id Row Failure Result) :
    Action Worker Call → Prop
  | .commit worker => ∀ session, system.session worker = some session →
      (∃ result, session.program = .finish (.ok result)) →
        ∀ entry ∈ session.pending, ∀ value, key entry.1 = some value →
          ∀ row ∈ system.committed.drop entry.2, key row ≠ some value
  | .advance worker => ∀ session, system.session worker = some session →
      ∀ query rest, session.program = .select query rest →
        (∃ row ∈ system.committed, query row = true ∧ key row = none) →
          (system.committed.filter query).length ≤ 1
  | .start .. | .rollback .. => True

end System

variable {key : Row → Option Key} {rows more : List Row} {committed : List Row}
  {session : Session Id Row Failure Result}

theorem uniqueKeys_nil : UniqueKeys key ([] : List Row) := List.Pairwise.nil

theorem uniqueKeys_append : UniqueKeys key (rows ++ more) ↔ UniqueKeys key rows ∧
    UniqueKeys key more ∧ ∀ row ∈ rows, ∀ other ∈ more, ∀ value, key row = some value →
      key other ≠ some value := by
  exact List.pairwise_append

/-- A lookup of a key among unique keys finds at most one row with a key. -/
theorem UniqueKeys.length_filter_le_one (unique : UniqueKeys key rows) {query : Row → Bool}
    {value : Key} (looks : LooksUp key query value)
    (keyed : ∀ row ∈ rows, query row = true → key row ≠ none) :
    (rows.filter query).length ≤ 1 := by
  have all : ∀ row ∈ rows.filter query, key row = some value := by
    intro row member
    obtain ⟨inside, selected⟩ := List.mem_filter.mp member
    exact (looks.only row selected).resolve_right (keyed row inside selected)
  have apart : (rows.filter query).Pairwise _ := unique.filter query
  match found : rows.filter query with
  | [] => simp
  | [_] => simp
  | first :: second :: rest =>
      rw [found] at all apart
      exact ((List.pairwise_cons.mp apart).1 second (by simp) value (all first (by simp))
        (all second (by simp))).elim

/-! ## Lookups of one row -/

section SelectOne

variable {kind : Row → Option Value} {query : Value → Bool} {several : Failure}
  {rest : Option Value → Transaction Id Row Failure Result} {own : List Row} {missed : Option Key}

/-- Of the selected rows the kind reads the values that the query selects. -/
theorem filterMap_filter_any (rows : List Row) :
    (rows.filter fun row => (kind row).any query).filterMap kind =
      (rows.filterMap kind).filter query := by
  induction rows with
  | nil => rfl
  | cons row rows ih =>
      cases read : kind row with
      | none =>
          rw [List.filter_cons_of_neg (by simp [read]), List.filterMap_cons_none read]
          exact ih
      | some value =>
          rw [List.filterMap_cons_some read]
          by_cases selected : query value = true
          · rw [List.filter_cons_of_pos (by simp [read, selected]), List.filterMap_cons_some read,
              List.filter_cons_of_pos selected, ih]
          · rw [List.filter_cons_of_neg (by simp [read, selected]),
              List.filter_cons_of_neg selected]
            exact ih

/-- A lookup of one row that runs alone goes on with the row it finds. -/
theorem alone_selectOne (draw : Nat → Id) (rows : List Row) (drawn : Nat) :
    (Transaction.selectOne kind query several rest).alone draw rows drawn =
      match scalarOneOrNone several ((rows.filterMap kind).filter query) with
      | .ok found => (rest found).alone draw rows drawn
      | .error failure => ((rows, drawn), .error failure) := by
  rw [Transaction.selectOne, Transaction.alone, filterMap_filter_any]
  split <;> rfl

/-- A lookup of one row is careful when what follows it is, and does not raise at once. -/
theorem careful_selectOne {value : Key}
    (looks : LooksUp key (fun row => (kind row).any query) value)
    (notOwn : ∀ row ∈ own, (kind row).any query = false)
    (proceeds : ∀ found, (rest found).failed = false)
    (missing : Careful key (some value) own (rest none))
    (found : ∀ value, Careful key none own (rest (some value))) :
    Careful key missed own (Transaction.selectOne kind query several rest) := by
  refine ⟨value, looks, notOwn, fun rows selected => ?_⟩
  have length : (rows.filterMap kind).length = rows.length := by
    refine List.filterMap_length_eq_length.mpr fun row member => ?_
    exact Option.isSome_of_any (selected row member)
  dsimp only
  generalize rows.filterMap kind = values at length
  match values with
  | [] =>
      have none : rows = [] := List.length_eq_zero_iff.mp length.symm
      subst none
      exact ⟨by simp [proceeds], by simpa using missing⟩
  | [one] =>
      have some : rows ≠ [] := by rintro rfl; simp at length
      simp only [scalarOneOrNone_singleton, proceeds, if_neg some, found, and_true]
      simp [← length]
  | _ :: _ :: _ =>
      simp only [scalarOneOrNone]
      refine ⟨iff_of_true rfl ?_, ?_⟩
      · rw [← length]
        simp
      · split <;> trivial

end SelectOne

/-! ## Soundness -/

/-- More commits keep a session sound. -/
theorem Session.Sound.append (sound : session.Sound key committed) (more : List Row) :
    session.Sound key (committed ++ more) := by
  have stays : ∀ {count}, count ≤ committed.length →
      (committed ++ more).take count = committed.take count := fun bound =>
    List.take_append_of_le_length bound
  refine ⟨?_, ?_, fun entry member => ?_, sound.distinct⟩
  · rw [List.length_append]
    exact Nat.le_add_right_of_le sound.seen
  · rw [stays sound.seen]
    exact sound.careful
  · obtain ⟨bound, missed⟩ := sound.fresh entry member
    rw [stays bound, List.length_append]
    exact ⟨Nat.le_add_right_of_le bound, missed⟩

/-- A careful call starts sound. -/
theorem sound_start {program : Transaction Id Row Failure Result}
    (careful : Careful key none [] program) (committed : List Row) :
    Session.Sound key committed ⟨program, [], 0⟩ where
  seen := Nat.zero_le _
  careful := ⟨none, careful, fun _ missed => by cases missed⟩
  fresh _ member := (List.not_mem_nil member).elim
  distinct := uniqueKeys_nil

/-- The rows a sound lookup finds are committed ones. -/
theorem Session.Sound.select {query : Row → Bool}
    {rest : List Row → Transaction Id Row Failure Result}
    (sound : session.Sound key committed) (selects : session.program = .select query rest) :
    ∃ value, LooksUp key query value ∧
      (committed ++ session.own).filter query = committed.filter query ∧
        ((rest (committed.filter query)).failed = true ↔ 2 ≤ (committed.filter query).length) ∧
          Session.Sound key committed
            { session with
              program := rest (committed.filter query)
              seen := committed.length } := by
  obtain ⟨missed, careful, _⟩ := sound.careful
  rw [selects] at careful
  obtain ⟨value, looks, notOwn, next⟩ := careful
  obtain ⟨fails, careful⟩ := next (committed.filter query) fun row member =>
    (List.mem_filter.mp member).2
  have ownNone : session.own.filter query = [] :=
    List.filter_eq_nil_iff.mpr fun row member => by simp [notOwn row member]
  refine ⟨value, looks, by rw [List.filter_append, ownNone, List.append_nil], fails,
    Nat.le_refl _, ⟨_, careful, ?_⟩, sound.fresh, sound.distinct⟩
  intro missedValue found row member
  obtain ⟨nothing, same⟩ := Option.ite_none_right_eq_some.mp found
  cases same
  rw [List.take_of_length_le (Nat.le_refl _)] at member
  rcases List.mem_append.mp member with old | own
  · exact fun keyed => List.filter_eq_nil_iff.mp nothing row old (looks.finds row keyed)
  · intro keyed
    cases (notOwn row own).symm.trans (looks.finds row keyed)

/-- A sound insert keeps the keys of the session distinct and missed. -/
theorem Session.Sound.insert {row : Id → Row} {rest : Id → Transaction Id Row Failure Result}
    (sound : session.Sound key committed) (inserts : session.program = .insert row rest) (id : Id) :
    (rest id).failed = false ∧ Session.Sound key committed
      { session with
        program := rest id
        pending := session.pending ++ [(row id, session.seen)] } := by
  obtain ⟨missed, careful, absent⟩ := sound.careful
  rw [inserts] at careful
  obtain ⟨keyed, succeeds, careful⟩ := careful id
  have own : Session.own
      { session with
        program := rest id
        pending := session.pending ++ [(row id, session.seen)] } = session.own ++ [row id] := by
    simp [Session.own]
  refine ⟨succeeds, sound.seen, ⟨none, by rw [own]; exact careful, fun _ missed => by cases missed⟩,
    fun entry member => ?_, ?_⟩
  · rcases List.mem_append.mp member with old | new
    · exact sound.fresh entry old
    · cases List.mem_singleton.mp new
      exact ⟨sound.seen, fun value has other inside =>
        absent value (keyed value has) other (List.mem_append_left _ inside)⟩
  · rw [own]
    refine uniqueKeys_append.mpr ⟨sound.distinct, List.pairwise_singleton _ _, ?_⟩
    intro other inside last lastMem value has same
    cases List.mem_singleton.mp lastMem
    exact absent value (keyed value same) other (List.mem_append_right _ inside) has

theorem sound_empty (key : Row → Option Key) :
    System.Sound key (System.empty : System Worker Id Row Failure Result) :=
  fun _ _ none => by cases none

theorem healthy_empty (key : Row → Option Key) :
    System.Healthy key (System.empty : System Worker Id Row Failure Result) :=
  ⟨uniqueKeys_nil, fun _ _ none => by cases none⟩

/-! ## Runs -/

section Runs

variable [DecidableEq Worker] {draw : Nat → Id}
  {program : Call → Transaction Id Row Failure Result}
  {system : System Worker Id Row Failure Result} {worker other : Worker}

theorem session_setSession_self (system : System Worker Id Row Failure Result) (worker : Worker)
    (session : Option (Session Id Row Failure Result)) :
    (system.setSession worker session).session worker = session := by
  simp [System.setSession]

theorem session_setSession_of_ne (system : System Worker Id Row Failure Result)
    (session : Option (Session Id Row Failure Result)) (differs : other ≠ worker) :
    (system.setSession worker session).session other = system.session other := by
  simp [System.setSession, differs]

/-- What holds of the new session and of the others holds of all sessions. -/
theorem forall_setSession {holds : Session Id Row Failure Result → Prop}
    {new : Option (Session Id Row Failure Result)}
    (others : ∀ other session, system.session other = some session → holds session)
    (here : ∀ session, new = some session → holds session) :
    ∀ other session, (system.setSession worker new).session other = some session →
      holds session := by
  intro other session found
  by_cases same : other = worker
  · subst same
    rw [session_setSession_self] at found
    exact here session found
  · rw [session_setSession_of_ne system new same] at found
    exact others other session found

/-- Sessions of careful calls stay sound. -/
theorem sound_step (careful : ∀ call, Careful key none [] (program call))
    (sound : system.Sound key) (action : Action Worker Call) :
    (system.step draw program action).Sound key := by
  cases action with
  | start worker call =>
      unfold System.step
      dsimp only
      split
      · refine forall_setSession sound fun session started => ?_
        cases started
        exact sound_start (careful call) system.committed
      · exact sound
  | advance worker =>
      unfold System.step
      dsimp only
      split
      · exact sound
      · rename_i session under
        unfold System.advance
        split
        · exact sound
        · rename_i query rest selects
          obtain ⟨_, _, visible, _, next⟩ := (sound worker session under).select selects
          refine forall_setSession sound fun session advanced => ?_
          cases advanced
          rw [visible]
          exact next
        · rename_i row rest inserts
          obtain ⟨_, next⟩ := (sound worker session under).insert inserts (draw system.drawn)
          exact forall_setSession sound fun session advanced => by
            cases advanced
            exact next
  | commit worker =>
      unfold System.step
      dsimp only
      split
      · exact sound
      · rename_i session under
        unfold System.commit
        split
        · exact forall_setSession
            (fun other session found => (sound other session found).append _)
            fun _ none => by cases none
        · exact sound
        · exact sound
        · exact sound
  | rollback worker => exact forall_setSession sound fun _ none => by cases none

/-- A commit keeps the keys unique just when none of its keys was committed after the lookup that
missed it. -/
theorem uniqueKeys_commit (sound : session.Sound key committed)
    (unique : UniqueKeys key committed) :
    UniqueKeys key (committed ++ session.own) ↔
      ∀ entry ∈ session.pending, ∀ value, key entry.1 = some value →
        ∀ row ∈ committed.drop entry.2, key row ≠ some value := by
  rw [uniqueKeys_append]
  constructor
  · rintro ⟨_, _, apart⟩ entry member value has row inside same
    exact apart row (List.mem_of_mem_drop inside) entry.1 (List.mem_map_of_mem member) value same
      has
  · intro valid
    refine ⟨unique, sound.distinct, fun row inside other member value has same => ?_⟩
    obtain ⟨entry, entryMem, rfl⟩ := List.mem_map.mp member
    rw [← List.take_append_drop entry.2 committed] at inside
    rcases List.mem_append.mp inside with earlier | later
    · exact (sound.fresh entry entryMem).2 value same row earlier has
    · exact valid entry entryMem value same row later has

/-- In a healthy system the answer of a lookup is one row at most, just when a row without
a key that it finds is all it finds. -/
theorem answered_iff (sound : session.Sound key committed) (unique : UniqueKeys key committed)
    {query : Row → Bool} {rest : List Row → Transaction Id Row Failure Result}
    (selects : session.program = .select query rest) :
    (rest ((committed ++ session.own).filter query)).failed = false ↔
      ((∃ row ∈ committed, query row = true ∧ key row = none) →
        (committed.filter query).length ≤ 1) := by
  obtain ⟨value, looks, visible, fails, _⟩ := sound.select selects
  rw [visible, ← Bool.not_eq_true, fails, Nat.not_le, Nat.lt_succ_iff]
  refine ⟨fun short _ => short, fun keyless => ?_⟩
  by_cases unkeyed : ∃ row ∈ committed, query row = true ∧ key row = none
  · exact keyless unkeyed
  · exact unique.length_filter_le_one looks fun row inside selected none =>
      unkeyed ⟨row, inside, selected, none⟩

/-- A session that changes without a commit keeps a healthy system healthy just when it
has not raised. -/
theorem healthy_setSession (healthy : system.Healthy key)
    {next : System Worker Id Row Failure Result} {session : Session Id Row Failure Result}
    (committed : next.committed = system.committed)
    (sessions : next.session = (system.setSession worker (some session)).session) :
    next.Healthy key ↔ session.program.failed = false := by
  constructor
  · intro healthyAfter
    refine healthyAfter.answered worker session ?_
    rw [sessions, session_setSession_self]
  · intro answered
    refine ⟨committed ▸ healthy.unique, ?_⟩
    rw [sessions]
    exact forall_setSession healthy.answered fun other same => Option.some.inj same ▸ answered

/-- A commit keeps the system healthy just when the transaction rolls back or none of its keys
was committed after the lookup that missed it. -/
theorem healthy_commit (sound : session.Sound key system.committed) (healthy : system.Healthy key) :
    (system.commit worker session).Healthy key ↔
      ((∃ result, session.program = .finish (.ok result)) →
        ∀ entry ∈ session.pending, ∀ value, key entry.1 = some value →
          ∀ row ∈ system.committed.drop entry.2, key row ≠ some value) := by
  unfold System.commit
  split
  · rename_i result finished
    rw [forall_prop_of_true ⟨result, finished⟩, ← uniqueKeys_commit sound healthy.unique]
    refine ⟨fun healthyAfter => healthyAfter.unique, fun unique => ⟨unique, ?_⟩⟩
    exact forall_setSession healthy.answered fun _ none => by cases none
  · rename_i failure finished
    exact iff_of_true healthy fun ⟨_, other⟩ => by cases finished.symm.trans other
  · rename_i selects
    exact iff_of_true healthy fun ⟨_, other⟩ => by cases selects.symm.trans other
  · rename_i inserts
    exact iff_of_true healthy fun ⟨_, other⟩ => by cases inserts.symm.trans other

/-- A statement keeps the system healthy just when a lookup that finds a row without a key finds
no second row. -/
theorem healthy_advance (sound : session.Sound key system.committed)
    (healthy : system.Healthy key) :
    (system.advance draw worker session).Healthy key ↔
      ∀ query rest, session.program = .select query rest →
        (∃ row ∈ system.committed, query row = true ∧ key row = none) →
          (system.committed.filter query).length ≤ 1 := by
  unfold System.advance
  split
  · rename_i result finished
    exact iff_of_true healthy fun _ _ selects => by cases finished.symm.trans selects
  · rename_i query rest selects
    refine (healthy_setSession healthy (by rfl) (by rfl)).trans ?_
    rw [answered_iff sound healthy.unique selects]
    constructor
    · intro short other next again
      cases selects.symm.trans again
      exact short
    · exact fun short => short query rest selects
  · rename_i row rest inserts
    obtain ⟨succeeds, _⟩ := sound.insert inserts (draw system.drawn)
    refine iff_of_true ((healthy_setSession healthy (by rfl) (by rfl)).mpr succeeds) ?_
    exact fun _ _ selects => by cases inserts.symm.trans selects

/-- A step from a healthy state leads to a healthy one just when it is valid. -/
theorem healthy_step (starts : ∀ call, (program call).failed = false)
    (sound : system.Sound key) (healthy : system.Healthy key) (action : Action Worker Call) :
    (system.step draw program action).Healthy key ↔ system.Valid key action := by
  cases action with
  | start worker call =>
      refine iff_of_true ?_ trivial
      unfold System.step
      dsimp only
      split
      · exact (healthy_setSession healthy (by rfl) (by rfl)).mpr (starts call)
      · exact healthy
  | advance worker =>
      unfold System.step System.Valid
      dsimp only
      cases under : system.session worker with
      | none => exact iff_of_true healthy (by simp)
      | some session =>
          simp only [Option.some.injEq, forall_eq']
          exact healthy_advance (sound worker session under) healthy
  | commit worker =>
      unfold System.step System.Valid
      dsimp only
      cases under : system.session worker with
      | none => exact iff_of_true healthy (by simp)
      | some session =>
          simp only [Option.some.injEq, forall_eq']
          exact healthy_commit (sound worker session under) healthy
  | rollback worker =>
      refine iff_of_true ⟨healthy.unique, ?_⟩ trivial
      exact forall_setSession healthy.answered fun _ none => by cases none

/-- **Unique keys of careful transactions.** In every interleaving of careful calls from a
healthy system, every state has unique committed keys and no lookup that found several
rows, just when every step is valid. -/
theorem healthy_iff (careful : ∀ call, Careful key none [] (program call))
    (starts : ∀ call, (program call).failed = false) (sound : system.Sound key)
    (healthy : system.Healthy key) (actions : List (Action Worker Call)) :
    (∀ earlier later, actions = earlier ++ later →
      (run (System.step draw program) system earlier).Healthy key) ↔
    Permitted (System.step draw program) (System.Valid key) system actions := by
  have prefixes : (∀ earlier later, actions = earlier ++ later →
      (run (System.step draw program) system earlier).Healthy key) ↔
        system.Healthy key ∧ Permitted (System.step draw program)
          (fun system action => (system.step draw program action).Healthy key) system actions :=
    forall_prefix_iff fun system : System Worker Id Row Failure Result => system.Healthy key
  have preserved : Preserved (System.step draw program)
      (fun system action => True ∧ system.Valid key action)
      fun system : System Worker Id Row Failure Result =>
        system.Sound key ∧ system.Healthy key := by
    rintro system action ⟨sound, healthy⟩ ⟨_, valid⟩
    exact ⟨sound_step careful sound action, (healthy_step starts sound healthy action).mpr valid⟩
  have every : Permitted (System.step draw program) (fun _ _ => True) system actions :=
    fun _ _ => trivial
  have each : Permitted (System.step draw program)
      (fun system action => (system.step draw program action).Healthy key) system actions ↔
      Permitted (System.step draw program) (System.Valid key) system actions :=
    permitted_congr preserved (fun system action invariant _ =>
      healthy_step starts invariant.1 invariant.2 action) ⟨sound, healthy⟩ every
  rw [← each]
  exact prefixes.trans (and_iff_right healthy)

end Runs

end ReadCommitted
