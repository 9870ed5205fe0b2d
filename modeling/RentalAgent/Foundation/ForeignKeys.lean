import Mathlib.Logic.Function.Basic
import Mathlib.Logic.Relation
import Mathlib.Data.List.Basic

/-! # Tables with foreign keys

A store has a list of rows for each table, and a schema is the list of its foreign keys.
Truncating tables with everything that refers to them keeps all references intact
(`Intact.truncate`), and so does an insertion that is accepted. What a cascade of
truncations empties can be computed (`mem_cascade_iff`).
-/

namespace ForeignKeys

open Relation

/-- A column of a table that refers to the rows of a target. -/
structure ForeignKey (Table Column : Type*) where
  table : Table
  column : Column
  target : Table
  deriving DecidableEq

/-- A row: its primary key, the rows it refers to, and its other columns. -/
structure Row (Column Id Data : Type*) where
  id : Id
  reference : Column → Option Id
  data : Data

/-- The rows of every table, in the order in which a query returns them. -/
abbrev Store (Table Column Id Data : Type*) := Table → List (Row Column Id Data)

variable {Table Column Id Data : Type*} {keys : List (ForeignKey Table Column)}
  {tables roots : List Table} {store next : Store Table Column Id Data} {table : Table}
  {row : Row Column Id Data} {rows : List (Row Column Id Data)}

section Columns

variable [DecidableEq Column]

/-- The row with NULL in a column. -/
def Row.clear (column : Column) (row : Row Column Id Data) : Row Column Id Data :=
  { row with reference := Function.update row.reference column none }

@[simp] theorem Row.clear_reference_self (column : Column) (row : Row Column Id Data) :
    (row.clear column).reference column = none :=
  Function.update_self ..

theorem Row.clear_reference_of_ne {column other : Column} (differs : other ≠ column)
    (row : Row Column Id Data) : (row.clear column).reference other = row.reference other :=
  Function.update_of_ne differs ..

/-- The rows agree, but maybe in a column. -/
def Row.AgreesBut (column : Column) (first second : Row Column Id Data) : Prop :=
  first.id = second.id ∧ first.data = second.data ∧
    ∀ other, other ≠ column → first.reference other = second.reference other

theorem Row.clear_agreesBut (column : Column) (row : Row Column Id Data) :
    row.AgreesBut column (row.clear column) :=
  ⟨rfl, rfl, fun _ differs => (Row.clear_reference_of_ne differs row).symm⟩

end Columns

variable [DecidableEq Table]

/-! ## Cascades -/

/-- A foreign key leads from the table to the target. -/
def Refers (keys : List (ForeignKey Table Column)) (table target : Table) : Prop :=
  ∃ key ∈ keys, key.table = table ∧ key.target = target

/-- Foreign keys lead from the table to a root. -/
def Cascaded (keys : List (ForeignKey Table Column)) (roots : List Table) (table : Table) : Prop :=
  ∃ root ∈ roots, ReflTransGen (Refers keys) table root

/-- The tables with those that refer to them. -/
def widen (keys : List (ForeignKey Table Column)) (tables : List Table) : List Table :=
  tables ++ (keys.filter fun key =>
    decide (key.target ∈ tables) && !decide (key.table ∈ tables)).map ForeignKey.table

/-- The tables that rounds of widening reach. -/
def cascade (keys : List (ForeignKey Table Column)) : Nat → List Table → List Table
  | 0, tables => tables
  | rounds + 1, tables => cascade keys rounds (widen keys tables)

/-- No foreign key leads into the tables from outside. -/
def Closed (keys : List (ForeignKey Table Column)) (tables : List Table) : Prop :=
  ∀ key ∈ keys, key.target ∈ tables → key.table ∈ tables

instance (keys : List (ForeignKey Table Column)) (tables : List Table) :
    Decidable (Closed keys tables) :=
  inferInstanceAs (Decidable (∀ key ∈ keys, key.target ∈ tables → key.table ∈ tables))

theorem subset_cascade (rounds : Nat) : tables ⊆ cascade keys rounds tables := by
  induction rounds generalizing tables with
  | zero => exact List.Subset.refl _
  | succ rounds ih => exact fun table member => ih (List.mem_append_left _ member)

/-- Foreign keys lead to the roots from every table that a cascade reaches. -/
theorem cascaded_of_mem_cascade {rounds : Nat} (member : table ∈ cascade keys rounds tables) :
    Cascaded keys tables table := by
  induction rounds generalizing tables with
  | zero => exact ⟨table, member, .refl⟩
  | succ rounds ih =>
      obtain ⟨middle, inside, path⟩ := ih member
      rcases List.mem_append.mp inside with old | new
      · exact ⟨middle, old, path⟩
      · obtain ⟨key, chosen, rfl⟩ := List.mem_map.mp new
        obtain ⟨keyMem, ends⟩ := List.mem_filter.mp chosen
        rw [Bool.and_eq_true, decide_eq_true_eq] at ends
        exact ⟨key.target, ends.1, path.tail ⟨key, keyMem, rfl, rfl⟩⟩

/-- **Cascades.** A computed cascade that is closed has just the tables that foreign keys
lead from to the roots. -/
theorem mem_cascade_iff {rounds : Nat} (closed : Closed keys (cascade keys rounds roots)) :
    table ∈ cascade keys rounds roots ↔ Cascaded keys roots table := by
  refine ⟨cascaded_of_mem_cascade, ?_⟩
  rintro ⟨root, rootMem, path⟩
  induction path using ReflTransGen.head_induction_on with
  | refl => exact subset_cascade rounds rootMem
  | head step _ ih =>
      obtain ⟨key, keyMem, rfl, rfl⟩ := step
      exact closed key keyMem ih

/-! ## Truncation -/

/-- `TRUNCATE tables`. -/
def truncate (tables : List Table) (store : Store Table Column Id Data) :
    Store Table Column Id Data :=
  fun table => if table ∈ tables then [] else store table

theorem truncate_of_mem (member : table ∈ tables) : truncate tables store table = [] :=
  if_pos member

theorem truncate_of_not_mem (outside : table ∉ tables) :
    truncate tables store table = store table :=
  if_neg outside

/-- Every reference is to a row. -/
def Intact (keys : List (ForeignKey Table Column)) (store : Store Table Column Id Data) : Prop :=
  ∀ key ∈ keys, ∀ row ∈ store key.table, ∀ id ∈ row.reference key.column,
    ∃ target ∈ store key.target, target.id = id

/-- Truncating tables with all that refers to them keeps the references intact. -/
theorem Intact.truncate (intact : Intact keys store) (closed : Closed keys tables) :
    Intact keys (truncate tables store) := by
  intro key keyMem row member id refers
  have kept : key.table ∉ tables := by
    intro wiped
    rw [truncate_of_mem wiped] at member
    cases member
  rw [truncate_of_not_mem kept] at member
  rw [truncate_of_not_mem fun wiped => kept (closed key keyMem wiped)]
  exact intact key keyMem row member id refers

/-! ## Insertion -/

/-- The store with more rows in a table. -/
def extend (store : Store Table Column Id Data) (table : Table)
    (rows : List (Row Column Id Data)) : Store Table Column Id Data :=
  Function.update store table (store table ++ rows)

theorem extend_self : extend store table rows table = store table ++ rows :=
  Function.update_self ..

theorem extend_of_ne {other : Table} (differs : other ≠ table) :
    extend store table rows other = store other :=
  Function.update_of_ne differs ..

theorem extend_nil : extend store table [] = store := by
  rw [extend, List.append_nil, Function.update_eq_self]

theorem extend_extend (first second : List (Row Column Id Data)) :
    extend (extend store table first) table second = extend store table (first ++ second) := by
  rw [extend, extend_self, extend, Function.update_idem, List.append_assoc]
  rfl

/-- An extended store has the rows it had. -/
theorem mem_extend {other : Table} (member : row ∈ store other) :
    row ∈ extend store table rows other := by
  by_cases same : other = table
  · subst same
    rw [extend_self]
    exact List.mem_append_left _ member
  · rwa [extend_of_ne same]

variable [DecidableEq Id]

/-- The references of a new row are to rows, itself among them. -/
def Accepts (keys : List (ForeignKey Table Column)) (store : Store Table Column Id Data)
    (table : Table) (row : Row Column Id Data) : Prop :=
  ∀ key ∈ keys, key.table = table → ∀ id ∈ row.reference key.column,
    ∃ target ∈ extend store table [row] key.target, target.id = id

instance (keys : List (ForeignKey Table Column)) (store : Store Table Column Id Data)
    (table : Table) (row : Row Column Id Data) : Decidable (Accepts keys store table row) :=
  inferInstanceAs (Decidable (∀ key ∈ keys, key.table = table →
    ∀ id ∈ row.reference key.column,
      ∃ target ∈ extend store table [row] key.target, target.id = id))

/-- A violated foreign key. -/
inductive IntegrityError
  | foreignKeyViolation
  deriving DecidableEq

/-- `INSERT` of one row. -/
def insertRow (keys : List (ForeignKey Table Column)) (table : Table)
    (store : Store Table Column Id Data) (row : Row Column Id Data) :
    Except IntegrityError (Store Table Column Id Data) :=
  if Accepts keys store table row then .ok (extend store table [row])
  else .error .foreignKeyViolation

/-- `INSERT` of rows, one after the other. -/
def insertAll (keys : List (ForeignKey Table Column)) (table : Table)
    (rows : List (Row Column Id Data)) (store : Store Table Column Id Data) :
    Except IntegrityError (Store Table Column Id Data) :=
  rows.foldlM (insertRow keys table) store

/-- Insertions succeed when every row is accepted after those before it. -/
theorem insertAll_eq_ok : insertAll keys table rows store = .ok next ↔
    (∀ before row after, rows = before ++ row :: after →
      Accepts keys (extend store table before) table row) ∧ next = extend store table rows := by
  induction rows generalizing store with
  | nil =>
      rw [extend_nil]
      constructor
      · rintro ⟨⟩
        exact ⟨by simp, rfl⟩
      · rintro ⟨_, rfl⟩
        rfl
  | cons row rest ih =>
      rw [insertAll, List.foldlM_cons, insertRow]
      by_cases accepted : Accepts keys store table row
      · rw [if_pos accepted]
        change insertAll keys table rest (extend store table [row]) = .ok next ↔ _
        rw [ih, extend_extend, List.singleton_append]
        refine and_congr_left fun _ => ?_
        constructor
        · rintro later (_ | ⟨first, before⟩) other after same
          · cases same
            rwa [extend_nil]
          · cases same
            have each := later before other after rfl
            rwa [extend_extend] at each
        · rintro each before other after rfl
          rw [extend_extend]
          exact each (row :: before) other after rfl
      · rw [if_neg accepted]
        refine iff_of_false (by rintro ⟨⟩) fun ⟨each, _⟩ => accepted ?_
        have first := each [] row rest rfl
        rwa [extend_nil] at first

/-- Insertions succeed when all references are to rows that are there. -/
theorem insertAll_of_intact (present : ∀ row ∈ rows, ∀ key ∈ keys, key.table = table →
      ∀ id ∈ row.reference key.column, ∃ target ∈ store key.target, target.id = id) :
    insertAll keys table rows store = .ok (extend store table rows) := by
  refine insertAll_eq_ok.mpr ⟨?_, rfl⟩
  rintro before row after rfl key keyMem own id refers
  obtain ⟨target, member, same⟩ := present row (by simp) key keyMem own id refers
  exact ⟨target, mem_extend (mem_extend member), same⟩

/-- Accepted rows keep the references intact. -/
theorem Intact.insertAll (intact : Intact keys store)
    (inserted : insertAll keys table rows store = .ok next) : Intact keys next := by
  obtain ⟨accepted, rfl⟩ := insertAll_eq_ok.mp inserted
  intro key keyMem row member id refers
  by_cases own : key.table = table
  · subst own
    rw [extend_self] at member
    rcases List.mem_append.mp member with old | new
    · obtain ⟨target, targetMem, same⟩ := intact key keyMem row old id refers
      exact ⟨target, mem_extend targetMem, same⟩
    · obtain ⟨before, after, rfl⟩ := List.append_of_mem new
      obtain ⟨target, targetMem, same⟩ := accepted before row after rfl key keyMem rfl id refers
      refine ⟨target, ?_, same⟩
      rw [extend_extend] at targetMem
      have later : before ++ row :: after = (before ++ [row]) ++ after := by simp
      rw [later, ← extend_extend]
      exact mem_extend targetMem
  · rw [extend_of_ne own] at member
    obtain ⟨target, targetMem, same⟩ := intact key keyMem row member id refers
    exact ⟨target, mem_extend targetMem, same⟩

end ForeignKeys
