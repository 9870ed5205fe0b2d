import RentalAgent.Foundation.Relational

/-! # Joins on a primary key

A join pairs a row with the rows that have the key it names, and an outer join keeps a row that
names none. On a primary key an outer join is a lookup for every row (`outerJoin_eq`), and so is
a join when every row names a row that is there (`join_eq`). A lookup by one key in a table that
an update picked out by another has changed finds the changed row (`get_updateWhere_of_mem`).
-/

namespace Relational

variable {Row Other Key : Type*} [DecidableEq Key] (reference : Row → Key) (key : Other → Key)

/-- `JOIN … ON key = reference`. -/
def join (others : List Other) (rows : List Row) : List (Row × Other) :=
  rows.flatMap fun row => (others.filter fun other => key other = reference row).map (Prod.mk row)

/-- `LEFT OUTER JOIN … ON key = reference`. -/
def outerJoin (others : List Other) (rows : List Row) : List (Row × Option Other) :=
  rows.flatMap fun row =>
    match others.filter fun other => key other = reference row with
    | [] => [(row, none)]
    | named => named.map fun other => (row, some other)

variable {reference key} {others : List Other} {rows : List Row} {row : Row}

/-- A query by a primary key is a lookup. -/
theorem PrimaryKey.filter_eq_toList (unique : PrimaryKey key others) (value : Key) :
    (others.filter fun other => key other = value) = (get key others value).toList := by
  cases found : get key others value with
  | none =>
      rw [Option.toList_none, List.filter_eq_nil_iff]
      simpa using get_eq_none.mp found
  | some other =>
      obtain ⟨member, same⟩ := (get_eq_some unique).mp found
      exact unique.filter_eq_singleton value (fun _ _ chosen => ⟨trivial, of_decide_eq_true chosen⟩)
        member (decide_eq_true same)

/-- On a primary key an outer join gives every row once, with what it names. -/
theorem outerJoin_eq (unique : PrimaryKey key others) (rows : List Row) :
    outerJoin reference key others rows =
      rows.map fun row => (row, get key others (reference row)) := by
  rw [outerJoin, ← List.flatMap_pure_eq_map]
  refine List.flatMap_congr fun row _ => ?_
  rw [unique.filter_eq_toList, Function.comp_apply]
  cases get key others (reference row) <;> rfl

/-- On a primary key a join gives every row once that names one, with what it names. -/
theorem join_eq (unique : PrimaryKey key others) (rows : List Row) :
    join reference key others rows =
      rows.filterMap fun row => (get key others (reference row)).map (Prod.mk row) := by
  rw [join, List.filterMap_eq_flatMap_toList]
  refine List.flatMap_congr fun row _ => ?_
  rw [unique.filter_eq_toList]
  cases get key others (reference row) <;> rfl

/-! ## Lookups in changed tables -/

section Lookups

variable {Row Key : Type*} [DecidableEq Key] {key : Row → Key} {rows : List Row} {value : Key}

/-- A lookup does not see an update of rows that have other keys before and after. -/
theorem get_updateWhere_of_ne {condition : Row → Bool} {change : Row → Row}
    (keeps : ∀ row, key (change row) = key row)
    (apart : ∀ row ∈ rows, condition row = true → key row ≠ value) :
    get key (updateWhere condition change rows) value = get key rows value := by
  have same : ∀ row ∈ rows, key (if condition row then change row else row) = key row := by
    intro row _
    split
    · exact keeps row
    · rfl
  rw [updateWhere, get_map same]
  cases found : get key rows value with
  | none => rfl
  | some row =>
      rw [Option.map_some, if_neg]
      intro met
      exact apart row (mem_of_get found) met (key_of_get found)

/-- The row with the key is updated when the condition picks it out. -/
theorem get_updateWhere_of_mem (unique : PrimaryKey key rows) {condition : Row → Bool}
    {change : Row → Row} (keeps : ∀ row, key (change row) = key row) {row : Row}
    (member : row ∈ rows) (met : condition row = true) :
    get key (updateWhere condition change rows) (key row) = some (change row) := by
  have same : ∀ other ∈ rows, key (if condition other then change other else other) =
      key other := by
    intro other _
    split
    · exact keeps other
    · rfl
  rw [updateWhere, get_map same, (get_eq_some unique).mpr ⟨member, rfl⟩, Option.map_some,
    if_pos met]

/-- A lookup in the rows that a condition on their keys keeps. -/
theorem get_filter {keep : Row → Bool} (kept : Key → Bool)
    (same : ∀ row ∈ rows, keep row = kept (key row)) :
    get key (rows.filter keep) value = if kept value = true then get key rows value else none := by
  induction rows with
  | nil => simp [get]
  | cons row rest ih =>
      obtain ⟨first, later⟩ := List.forall_mem_cons.mp same
      have rest := ih later
      unfold get at rest ⊢
      rw [List.filter_cons, first]
      by_cases own : key row = value
      · subst own
        split
        · simp
        · rename_i drops
          rw [if_neg drops] at rest
          exact rest
      · split
        · rw [List.find?_cons_of_neg (by simpa using own), rest,
            List.find?_cons_of_neg (by simpa using own)]
        · rw [rest, List.find?_cons_of_neg (by simpa using own)]

end Lookups

end Relational
