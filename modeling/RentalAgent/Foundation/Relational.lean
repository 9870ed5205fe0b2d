import Mathlib.Data.List.Basic
import Mathlib.Data.List.Pairwise

/-! # Tables as lists of rows

A table is the list of its rows in insertion order. `updateWhere` is an `UPDATE`
with a condition, `UniqueIndex` a unique index that covers the rows satisfying a
condition (a primary key covers all of them), and `scalarOneOrNone` the reading
of a query that expects at most one row.
-/

namespace Relational

variable {Row Key : Type*}

/-- `UPDATE rows SET change WHERE condition`. -/
def updateWhere (condition : Row → Bool) (change : Row → Row) (rows : List Row) : List Row :=
  rows.map fun row => if condition row then change row else row

theorem mem_updateWhere {condition : Row → Bool} {change : Row → Row} {rows : List Row}
    {row : Row} : row ∈ updateWhere condition change rows ↔
      ∃ old ∈ rows, (if condition old then change old else old) = row :=
  List.mem_map

/-- An update keeps every column it does not write. -/
theorem map_updateWhere {Value : Type*} (column : Row → Value) {condition : Row → Bool}
    {change : Row → Row} {rows : List Row}
    (keeps : ∀ row ∈ rows, condition row = true → column (change row) = column row) :
    (updateWhere condition change rows).map column = rows.map column := by
  rw [updateWhere, List.map_map]
  apply List.map_congr_left
  intro row member
  by_cases selected : condition row = true
  · simp only [Function.comp_apply, selected, ↓reduceIte, keeps row member selected]
  · simp only [Function.comp_apply, selected, Bool.false_eq_true, ↓reduceIte]

/-- An update that selects no row changes nothing. -/
theorem updateWhere_eq_self {condition : Row → Bool} {change : Row → Row} {rows : List Row}
    (selects : ∀ row ∈ rows, condition row = false) : updateWhere condition change rows = rows := by
  rw [updateWhere]
  conv_rhs => rw [← List.map_id rows]
  apply List.map_congr_left
  intro row member
  simp [selects row member]

/-- An update leaves the rows of a query alone when it selects none of them and
brings none in. -/
theorem filter_updateWhere {condition query : Row → Bool} {change : Row → Row} {rows : List Row}
    (outside : ∀ row ∈ rows, condition row = true → query row = false ∧
      query (change row) = false) :
    (updateWhere condition change rows).filter query = rows.filter query := by
  induction rows with
  | nil => rfl
  | cons row rest ih =>
      have tail := ih fun other member => outside other (List.mem_cons_of_mem _ member)
      rw [updateWhere, List.map_cons]
      by_cases selected : condition row = true
      · obtain ⟨before, after⟩ := outside row List.mem_cons_self selected
        rw [List.filter_cons_of_neg (by simp [selected, after]),
          List.filter_cons_of_neg (by simp [before])]
        exact tail
      · simp only [selected, Bool.false_eq_true, ↓reduceIte, List.filter_cons]
        rw [← tail, updateWhere]

/-- A unique index on the rows that satisfy `covered`: two of them never share
their key. -/
def UniqueIndex (covered : Row → Prop) (key : Row → Key) (rows : List Row) : Prop :=
  rows.Pairwise fun first second => covered first → covered second → key first ≠ key second

instance [DecidableEq Key] (covered : Row → Prop) [DecidablePred covered] (key : Row → Key)
    (rows : List Row) : Decidable (UniqueIndex covered key rows) :=
  inferInstanceAs (Decidable (List.Pairwise _ _))

/-- A primary key: a unique index over every row. -/
abbrev PrimaryKey (key : Row → Key) (rows : List Row) : Prop :=
  UniqueIndex (fun _ => True) key rows

variable {covered : Row → Prop} {key : Row → Key} {rows : List Row}

@[simp] theorem uniqueIndex_nil : UniqueIndex covered key [] := List.Pairwise.nil

/-- Two covered rows with one key are one row. -/
theorem UniqueIndex.eq_of_mem (unique : UniqueIndex covered key rows) {first second : Row}
    (firstMem : first ∈ rows) (secondMem : second ∈ rows) (firstCovered : covered first)
    (secondCovered : covered second) (same : key first = key second) : first = second := by
  induction rows with
  | nil => exact (List.not_mem_nil firstMem).elim
  | cons row rest ih =>
      obtain ⟨head, tail⟩ := List.pairwise_cons.mp unique
      rcases List.mem_cons.mp firstMem with rfl | firstRest
      · rcases List.mem_cons.mp secondMem with rfl | secondRest
        · rfl
        · exact (head second secondRest firstCovered secondCovered same).elim
      · rcases List.mem_cons.mp secondMem with rfl | secondRest
        · exact (head first firstRest secondCovered firstCovered same.symm).elim
        · exact ih tail firstRest secondRest

theorem PrimaryKey.eq_of_mem (unique : PrimaryKey key rows) {first second : Row}
    (firstMem : first ∈ rows) (secondMem : second ∈ rows) (same : key first = key second) :
    first = second :=
  UniqueIndex.eq_of_mem unique firstMem secondMem trivial trivial same

theorem primaryKey_iff_nodup : PrimaryKey key rows ↔ (rows.map key).Nodup := by
  simp [UniqueIndex, List.Nodup, List.pairwise_map]

/-- Rewriting rows keeps a unique index when no row enters it and no covered row
changes its key. -/
theorem UniqueIndex.map (unique : UniqueIndex covered key rows) {change : Row → Row}
    (leaves : ∀ row ∈ rows, covered (change row) → covered row ∧ key (change row) = key row) :
    UniqueIndex covered key (rows.map change) := by
  rw [UniqueIndex, List.pairwise_map]
  refine List.Pairwise.imp_of_mem ?_ unique
  intro first second firstMem secondMem apart firstCovered secondCovered
  obtain ⟨firstOld, firstKey⟩ := leaves first firstMem firstCovered
  obtain ⟨secondOld, secondKey⟩ := leaves second secondMem secondCovered
  rw [firstKey, secondKey]
  exact apart firstOld secondOld

/-- An update keeps an index unique when it changes no key that the index covers. -/
theorem UniqueIndex.updateWhere (unique : UniqueIndex covered key rows) {condition : Row → Bool}
    {change : Row → Row}
    (leaves : ∀ row ∈ rows, condition row = true → covered (change row) →
      covered row ∧ key (change row) = key row) :
    UniqueIndex covered key (Relational.updateWhere condition change rows) := by
  apply unique.map
  intro row member
  by_cases selected : condition row = true
  · simpa only [selected, ↓reduceIte] using leaves row member selected
  · simp [selected]

/-- Rewriting one row keeps a unique index when no covered row has its new key. -/
theorem UniqueIndex.updateWhere_fresh {Id : Type*} {identity : Row → Id}
    (unique : UniqueIndex covered key rows) (ids : PrimaryKey identity rows) (value : Id)
    {condition : Row → Bool} {change : Row → Row}
    (single : ∀ row ∈ rows, condition row = true → identity row = value)
    (fresh : ∀ row ∈ rows, condition row = true → ∀ other ∈ rows, covered other →
      key other ≠ key (change row)) :
    UniqueIndex covered key (Relational.updateWhere condition change rows) := by
  rw [UniqueIndex, Relational.updateWhere, List.pairwise_map]
  refine List.Pairwise.imp_of_mem ?_ (List.Pairwise.and unique ids)
  intro first second firstMem secondMem ⟨apart, different⟩
  by_cases firstSelected : condition first = true
  · by_cases secondSelected : condition second = true
    · have same := (single first firstMem firstSelected).trans
        (single second secondMem secondSelected).symm
      exact (different trivial trivial same).elim
    · simp only [firstSelected, secondSelected, Bool.false_eq_true, ↓reduceIte]
      exact fun _ secondCovered =>
        (fresh first firstMem firstSelected second secondMem secondCovered).symm
  · by_cases secondSelected : condition second = true
    · simp only [firstSelected, secondSelected, Bool.false_eq_true, ↓reduceIte]
      exact fun firstCovered _ =>
        fresh second secondMem secondSelected first firstMem firstCovered
    · simpa only [firstSelected, secondSelected, Bool.false_eq_true, ↓reduceIte] using apart

/-- A new row keeps a unique index when no covered row has its key. -/
theorem UniqueIndex.insert (unique : UniqueIndex covered key rows) {new : Row}
    (fresh : covered new → ∀ row ∈ rows, covered row → key row ≠ key new) :
    UniqueIndex covered key (rows ++ [new]) := by
  rw [UniqueIndex, List.pairwise_append]
  refine ⟨unique, List.pairwise_singleton _ _, ?_⟩
  intro row member last lastMem rowCovered lastCovered
  cases List.mem_singleton.mp lastMem
  exact fresh lastCovered row member rowCovered

/-- At most one covered row has a given key. -/
theorem UniqueIndex.length_filter_le_one (unique : UniqueIndex covered key rows)
    {query : Row → Bool} (value : Key)
    (selects : ∀ row ∈ rows, query row = true → covered row ∧ key row = value) :
    (rows.filter query).length ≤ 1 := by
  induction rows with
  | nil => simp
  | cons row rest ih =>
      obtain ⟨head, tail⟩ := List.pairwise_cons.mp unique
      have restBound := ih tail fun other member => selects other (List.mem_cons_of_mem _ member)
      by_cases selected : query row = true
      · obtain ⟨rowCovered, rowKey⟩ := selects row List.mem_cons_self selected
        have none : rest.filter query = [] := by
          apply List.filter_eq_nil_iff.mpr
          intro other member otherSelected
          obtain ⟨otherCovered, otherKey⟩ :=
            selects other (List.mem_cons_of_mem _ member) otherSelected
          exact head other member rowCovered otherCovered (rowKey.trans otherKey.symm)
        simp [selected, none]
      · simpa [List.filter_cons, selected] using restBound

/-- A query on the key of a unique index returns just the row it selects. -/
theorem UniqueIndex.filter_eq_singleton (unique : UniqueIndex covered key rows)
    {query : Row → Bool} (value : Key)
    (selects : ∀ row ∈ rows, query row = true → covered row ∧ key row = value) {row : Row}
    (member : row ∈ rows) (selected : query row = true) : rows.filter query = [row] := by
  have inside : row ∈ rows.filter query := List.mem_filter.mpr ⟨member, selected⟩
  have single : (rows.filter query).length = 1 :=
    Nat.le_antisymm (unique.length_filter_le_one value selects) (List.length_pos_of_mem inside)
  obtain ⟨other, same⟩ := List.length_eq_one_iff.mp single
  rw [same] at inside ⊢
  rw [List.mem_singleton.mp inside]

/-- An update on the key of a unique index rewrites just the row it selects. -/
theorem UniqueIndex.updateWhere_single (unique : UniqueIndex covered key rows)
    {condition : Row → Bool} {change : Row → Row} (value : Key)
    (selects : ∀ row ∈ rows, condition row = true → covered row ∧ key row = value) {row : Row}
    (member : row ∈ rows) (selected : condition row = true) :
    ∃ before after, rows = before ++ row :: after ∧
      Relational.updateWhere condition change rows = before ++ change row :: after := by
  obtain ⟨before, after, rfl⟩ := List.append_of_mem member
  obtain ⟨rowCovered, rowKey⟩ := selects row member selected
  obtain ⟨_, tail, across⟩ := List.pairwise_append.mp unique
  refine ⟨before, after, rfl, ?_⟩
  have leading : Relational.updateWhere condition change before = before := by
    refine updateWhere_eq_self fun other inside => Bool.eq_false_iff.mpr fun chosen => ?_
    obtain ⟨otherCovered, otherKey⟩ := selects other (List.mem_append_left _ inside) chosen
    exact across other inside row List.mem_cons_self otherCovered rowCovered
      (otherKey.trans rowKey.symm)
  have trailing : Relational.updateWhere condition change after = after := by
    refine updateWhere_eq_self fun other inside => Bool.eq_false_iff.mpr fun chosen => ?_
    obtain ⟨otherCovered, otherKey⟩ :=
      selects other (List.mem_append_right _ (List.mem_cons_of_mem _ inside)) chosen
    exact (List.pairwise_cons.mp tail).1 other inside rowCovered otherCovered
      (rowKey.trans otherKey.symm)
  unfold Relational.updateWhere at leading trailing ⊢
  rw [List.map_append, List.map_cons, leading, trailing, if_pos selected]

/-- Two rows are counted just when rows of two keys are. -/
theorem PrimaryKey.two_le_countP_iff (unique : PrimaryKey key rows) {counted : Row → Bool} :
    2 ≤ rows.countP counted ↔ ∃ first ∈ rows, ∃ second ∈ rows,
      key first ≠ key second ∧ counted first = true ∧ counted second = true := by
  rw [List.countP_eq_length_filter]
  have distinct : ((rows.filter counted).map key).Nodup :=
    (primaryKey_iff_nodup.mp unique).sublist (List.filter_sublist.map key)
  have inside : ∀ row, row ∈ rows.filter counted ↔ row ∈ rows ∧ counted row = true :=
    fun row => List.mem_filter
  generalize rows.filter counted = kept at distinct inside
  constructor
  · intro several
    match kept, several with
    | first :: second :: rest, _ =>
      obtain ⟨firstMem, firstCounted⟩ := (inside first).mp List.mem_cons_self
      obtain ⟨secondMem, secondCounted⟩ :=
        (inside second).mp (List.mem_cons_of_mem _ List.mem_cons_self)
      refine ⟨first, firstMem, second, secondMem, fun same => ?_, firstCounted, secondCounted⟩
      have apart := (List.nodup_cons.mp distinct).1
      exact apart (List.mem_map.mpr ⟨second, List.mem_cons_self, same.symm⟩)
  · rintro ⟨first, firstMem, second, secondMem, apart, firstCounted, secondCounted⟩
    have firstKept := (inside first).mpr ⟨firstMem, firstCounted⟩
    have secondKept := (inside second).mpr ⟨secondMem, secondCounted⟩
    match kept with
    | [] => cases firstKept
    | [row] =>
      rw [List.mem_singleton.mp firstKept, List.mem_singleton.mp secondKept] at apart
      exact (apart rfl).elim
    | _ :: _ :: _ => simp

/-- The lookup of a row by its primary key. -/
def get [DecidableEq Key] (key : Row → Key) (rows : List Row) (value : Key) : Option Row :=
  rows.find? fun row => key row = value

/-- A primary key finds the one row that has it. -/
theorem get_eq_some [DecidableEq Key] {value : Key} {row : Row} (unique : PrimaryKey key rows) :
    get key rows value = some row ↔ row ∈ rows ∧ key row = value := by
  constructor
  · intro found
    exact ⟨List.mem_of_find?_eq_some found, by simpa using List.find?_some found⟩
  · rintro ⟨member, same⟩
    cases found : get key rows value with
    | none =>
        have absent := List.find?_eq_none.mp found row member
        simp [same] at absent
    | some other =>
        have otherKey : key other = value := by simpa using List.find?_some found
        rw [unique.eq_of_mem (List.mem_of_find?_eq_some found) member (otherKey.trans same.symm)]

theorem mem_of_get [DecidableEq Key] {value : Key} {row : Row}
    (found : get key rows value = some row) : row ∈ rows :=
  List.mem_of_find?_eq_some found

theorem key_of_get [DecidableEq Key] {value : Key} {row : Row}
    (found : get key rows value = some row) : key row = value := by
  simpa using List.find?_some found

theorem get_eq_none [DecidableEq Key] {value : Key} :
    get key rows value = none ↔ ∀ row ∈ rows, key row ≠ value := by
  simp [get]

/-- A change of the rows that keeps their keys is a change of what a lookup finds. -/
theorem get_map [DecidableEq Key] {change : Row → Row} {value : Key}
    (keeps : ∀ row ∈ rows, key (change row) = key row) :
    get key (rows.map change) value = (get key rows value).map change := by
  induction rows with
  | nil => rfl
  | cons row rest ih =>
      obtain ⟨first, later⟩ := List.forall_mem_cons.mp keeps
      unfold get at ih ⊢
      rw [List.map_cons, List.find?_cons, List.find?_cons, first]
      cases decide (key row = value) with
      | true => rfl
      | false => exact ih later

/-- A row that was found is found after others are appended. -/
theorem get_append [DecidableEq Key] {value : Key} {row : Row} {more : List Row}
    (found : get key rows value = some row) : get key (rows ++ more) value = some row := by
  unfold get at found ⊢
  rw [List.find?_append, found]
  rfl

/-- A lookup by another key does not see a new row. -/
theorem get_concat_of_ne [DecidableEq Key] {value : Key} {new : Row} (differs : key new ≠ value) :
    get key (rows ++ [new]) value = get key rows value := by
  simp [get, List.find?_append, differs]

/-- A new row with a new key is found. -/
theorem get_concat_self [DecidableEq Key] {new : Row} (fresh : ∀ row ∈ rows, key row ≠ key new) :
    get key (rows ++ [new]) (key new) = some new := by
  have absent : get key rows (key new) = none := get_eq_none.mpr fresh
  unfold get at absent ⊢
  simp [List.find?_append, absent]

/-- Looking up the row an update has written. -/
theorem get_updateWhere [DecidableEq Key] {change : Row → Row} {value : Key}
    (keeps : ∀ row, key (change row) = key row) :
    get key (updateWhere (fun row => key row = value) change rows) value =
      (get key rows value).map change := by
  induction rows with
  | nil => rfl
  | cons row rest ih =>
      unfold get updateWhere at ih ⊢
      rw [List.map_cons, List.find?_cons, List.find?_cons]
      by_cases same : key row = value
      · simp [same, keeps]
      · simpa [same] using ih

/-- A column of a looked up row after an insertion. -/
theorem get_column_insert [DecidableEq Key] {Value : Type*} (column : Row → Value) {new : Row}
    (fresh : get key rows (key new) = none) (value : Key) :
    (get key (rows ++ [new]) value).map column =
      if value = key new then some (column new) else (get key rows value).map column := by
  by_cases same : value = key new
  · rw [if_pos same, same, get_concat_self (get_eq_none.mp fresh)]
    rfl
  · rw [if_neg same, get_concat_of_ne (Ne.symm same)]

/-- A column of a looked up row after an update by key. -/
theorem get_column_update [DecidableEq Key] {Value : Type*} (column : Row → Value) {old : Key}
    {row : Row} (found : get key rows old = some row) {change : Row → Row}
    (keeps : ∀ row, key (change row) = key row) {written : Value}
    (writes : ∀ row, column (change row) = written) (value : Key) :
    (get key (updateWhere (fun row => key row = old) change rows) value).map column =
      if value = old then some written else (get key rows value).map column := by
  by_cases same : value = old
  · subst same
    rw [if_pos rfl, get_updateWhere keeps, found, Option.map_some, Option.map_some, writes]
  · have kept : ∀ row ∈ rows,
        key (if decide (key row = old) then change row else row) = key row := by
      intro row _
      split
      · exact keeps row
      · rfl
    rw [if_neg same, updateWhere, get_map kept]
    cases other : get key rows value with
    | none => rfl
    | some row =>
        have differs : key row ≠ old := key_of_get other ▸ same
        simp [differs]

section Fallible

universe u v

variable {Failure : Type u} {Value Result : Type v}

@[simp] theorem ok_bind (value : Value) (rest : Value → Except Failure Result) :
    (Except.ok value >>= rest) = rest value := rfl

@[simp] theorem error_bind (failure : Failure) (rest : Value → Except Failure Result) :
    (Except.error failure >>= rest) = .error failure := rfl

/-- A sequence succeeds when both parts do. -/
theorem bind_eq_ok {first : Except Failure Value} {rest : Value → Except Failure Result}
    {result : Result} :
    (first >>= rest) = .ok result ↔ ∃ value, first = .ok value ∧ rest value = .ok result := by
  cases first with
  | error failure => simp
  | ok value => simp

/-- A sequence fails when its first part does, or its second part after the first. -/
theorem bind_eq_error {first : Except Failure Value} {rest : Value → Except Failure Result}
    {failure : Failure} :
    (first >>= rest) = .error failure ↔
      first = .error failure ∨ ∃ value, first = .ok value ∧ rest value = .error failure := by
  cases first with
  | error other => simp
  | ok value => simp

/-- Renaming the failure keeps the successes. -/
@[simp] theorem mapError_eq_ok {Other : Type*} {rename : Failure → Other}
    {result : Except Failure Value} {value : Value} :
    result.mapError rename = .ok value ↔ result = .ok value := by
  cases result <;> simp [Except.mapError]

/-- Raising `failure` when the condition holds. -/
def refuse (condition : Prop) [Decidable condition] (failure : Failure) : Except Failure PUnit :=
  if condition then .error failure else .ok ⟨⟩

@[simp] theorem refuse_eq_ok {condition : Prop} [Decidable condition] {failure : Failure}
    {result : PUnit} : refuse condition failure = .ok result ↔ ¬ condition := by
  by_cases holds : condition <;> simp [refuse, holds]

/-- The value of an option, or `failure` when there is none. -/
def require (failure : Failure) : Option Value → Except Failure Value
  | none => .error failure
  | some value => .ok value

@[simp] theorem require_eq_ok {failure : Failure} {found : Option Value} {value : Value} :
    require failure found = .ok value ↔ found = some value := by
  cases found <;> simp [require]

end Fallible

/-- The rows of a query that expects at most one; several rows are an error. -/
def scalarOneOrNone {Failure : Type*} (several : Failure) : List Row → Except Failure (Option Row)
  | [] => .ok none
  | [row] => .ok (some row)
  | _ :: _ :: _ => .error several

@[simp] theorem scalarOneOrNone_nil {Failure : Type*} (several : Failure) :
    scalarOneOrNone several ([] : List Row) = .ok none := rfl

@[simp] theorem scalarOneOrNone_singleton {Failure : Type*} (several : Failure) (row : Row) :
    scalarOneOrNone several [row] = .ok (some row) := rfl

theorem scalarOneOrNone_eq_none {Failure : Type*} {several : Failure} {rows : List Row} :
    scalarOneOrNone several rows = .ok none ↔ rows = [] := by
  match rows with
  | [] => simp
  | [_] => simp
  | _ :: _ :: _ => simp [scalarOneOrNone]

theorem scalarOneOrNone_eq_some {Failure : Type*} {several : Failure} {rows : List Row}
    {row : Row} : scalarOneOrNone several rows = .ok (some row) ↔ rows = [row] := by
  match rows with
  | [] => simp
  | [_] => simp
  | _ :: _ :: _ => simp [scalarOneOrNone]

/-- A query over at most one row does not fail. -/
theorem scalarOneOrNone_of_length_le_one {Failure : Type*} {several : Failure} {rows : List Row}
    (short : rows.length ≤ 1) : scalarOneOrNone several rows = .ok rows.head? := by
  match rows with
  | [] => rfl
  | [_] => rfl
  | _ :: _ :: _ => simp at short

/-- A query by a unique key does not fail and finds what a lookup finds. -/
theorem PrimaryKey.scalarOneOrNone_filter [DecidableEq Key] {key : Row → Key} {rows : List Row}
    (unique : PrimaryKey key rows) {Failure : Type*} (several : Failure) (value : Key) :
    scalarOneOrNone several (rows.filter fun row => key row = value) =
      .ok (get key rows value) := by
  have short : (rows.filter fun row => key row = value).length ≤ 1 :=
    UniqueIndex.length_filter_le_one unique value fun row _ found =>
      ⟨trivial, of_decide_eq_true found⟩
  rw [scalarOneOrNone_of_length_le_one short, List.head?_filter]
  rfl

end Relational
