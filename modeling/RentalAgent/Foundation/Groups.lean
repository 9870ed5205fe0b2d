import Mathlib.Data.List.Forall2
import Mathlib.Data.List.Sort
import RentalAgent.Foundation.Upsert

/-! # Filing rows under their keys

A loop files every row under its key: the first row of a key opens an entry, and the entry of
the key then takes the row in. Its dictionary has one entry for each key, in the order in which
the keys first appear (`Dictionary.keys_filed`), made of the rows of that key in their order
(`Dictionary.mem_filed`). So when an entry keeps the rows it takes in, every row is in exactly
one entry (`Dictionary.flatMap_filed_perm`). The first row of a sorted list is the earliest of
the least rows (`Dictionary.head?_insertionSort`). A loop over the entries that may fail succeeds
with the results of its rounds (`Dictionary.mapM_eq_ok`).
-/

universe u

namespace Dictionary

variable {Row Key Value : Type u} [DecidableEq Key]

/-- The value under a key is changed. -/
def modify (entries : Dictionary Key Value) (key : Key) (change : Value → Value) :
    Dictionary Key Value :=
  entries.map fun item => if item.1 = key then (item.1, change item.2) else item

/-- A new entry is added just when its key is new. -/
theorem mem_addNew {entries : Dictionary Key Value} {item new : Key × Value} :
    item ∈ addNew entries new ↔ item ∈ entries ∨ item = new ∧ new.1 ∉ entries.map Prod.fst := by
  rw [addNew]
  split
  · rename_i known
    simp [known]
  · rename_i fresh
    rw [List.mem_append, List.mem_singleton, and_iff_left fresh]

/-- After a change the entries under the key are the changed ones, and the others are as before. -/
theorem mem_modify {entries : Dictionary Key Value} {key : Key} {change : Value → Value}
    {item : Key × Value} : item ∈ entries.modify key change ↔
      (item.1 = key ∧ ∃ value, (key, value) ∈ entries ∧ change value = item.2) ∨
        item.1 ≠ key ∧ item ∈ entries := by
  rw [modify, List.mem_map]
  constructor
  · rintro ⟨entry, member, rfl⟩
    split
    · rename_i same
      exact .inl ⟨same, entry.2, same ▸ member, rfl⟩
    · rename_i other
      exact .inr ⟨other, member⟩
  · rintro (⟨same, value, member, changed⟩ | ⟨other, member⟩)
    · exact ⟨_, member, by rw [if_pos rfl, changed, ← same]⟩
    · exact ⟨_, member, if_neg other⟩

section Filing

variable (key : Row → Key) (start : Row → Value) (add : Row → Value → Value)

/-- `setdefault` under the key of a row, and then the row is taken in. -/
def file (entries : Dictionary Key Value) (row : Row) : Dictionary Key Value :=
  (addNew entries (key row, start row)).modify (key row) (add row)

/-- Every row is filed. -/
def filed (rows : List Row) : Dictionary Key Value := rows.foldl (file key start add) []

/-- The entry of rows that all have one key. -/
def taken (rows : List Row) : Option Value :=
  rows.head?.map fun first => rows.foldl (fun value row => add row value) (start first)

variable {key start add} {rows : List Row} {item : Key × Value}

theorem filed_append_singleton (rows : List Row) (row : Row) :
    filed key start add (rows ++ [row]) = file key start add (filed key start add rows) row := by
  rw [filed, List.foldl_append]
  rfl

theorem taken_append_singleton (row : Row) : taken start add (rows ++ [row]) =
    some (add row ((taken start add rows).getD (start row))) := by
  cases rows with
  | nil => rfl
  | cons first rest => simp [taken, List.foldl_append]

theorem taken_eq_none : taken start add rows = none ↔ rows = [] := by
  cases rows <;> simp [taken]

theorem keys_modify (entries : Dictionary Key Value) (key : Key) (change : Value → Value) :
    (entries.modify key change).map Prod.fst = entries.map Prod.fst := by
  rw [modify, List.map_map]
  refine List.map_congr_left fun item _ => ?_
  rw [Function.comp_apply]
  split <;> rfl

/-- There is one entry for each key, and the keys stand in the order in which they come. -/
theorem keys_filed (rows : List Row) : (filed key start add rows).map Prod.fst =
    (firsts (rows.map fun row => (key row, row))).map Prod.fst := by
  induction rows using List.reverseRecOn with
  | nil => rfl
  | append_singleton rows row same =>
      rw [filed_append_singleton, file, keys_modify, List.map_append, List.map_singleton,
        firsts_append_singleton, addNew, addNew, same]
      split
      · exact same
      · rw [List.map_append, List.map_append, same]
        rfl

theorem nodup_keys_filed (rows : List Row) :
    ((filed key start add rows).map Prod.fst).Nodup := by
  rw [keys_filed]
  exact nodup_firsts _

theorem mem_keys_filed {name : Key} :
    name ∈ (filed key start add rows).map Prod.fst ↔ ∃ row ∈ rows, key row = name := by
  rw [keys_filed, mem_keys_firsts, List.map_map, List.mem_map]
  rfl

/-- An entry is made of the rows of its key, and of no others. -/
theorem mem_filed : item ∈ filed key start add rows ↔
    taken start add (rows.filter fun row => key row = item.1) = some item.2 := by
  induction rows using List.reverseRecOn generalizing item with
  | nil => simp [filed, taken]
  | append_singleton rows row known =>
      obtain ⟨name, value⟩ := item
      rw [filed_append_singleton, file, mem_modify, List.filter_append]
      by_cases own : key row = name
      · subst own
        have last : [row].filter (fun other => key other = key row) = [row] := by simp
        rw [last, taken_append_singleton, Option.some_inj]
        cases before : taken start add (rows.filter fun other => key other = key row) with
        | none =>
            have absent : key row ∉ (filed key start add rows).map Prod.fst := by
              rw [mem_keys_filed]
              rintro ⟨other, member, same⟩
              have kept := List.filter_eq_nil_iff.mp (taken_eq_none.mp before) other member
              exact kept (decide_eq_true same)
            have none : ∀ earlier, (key row, earlier) ∉ filed key start add rows :=
              fun earlier member => absent (List.mem_map_of_mem member)
            simp [mem_addNew, none]
        | some earlier =>
            have entry (other : Value) :
                (key row, other) ∈ filed key start add rows ↔ earlier = other := by
              rw [known, before, Option.some_inj]
            have present : key row ∈ (filed key start add rows).map Prod.fst :=
              List.mem_map_of_mem ((entry earlier).mpr rfl)
            simp only [mem_addNew, present, not_true_eq_false, and_false, or_false, entry,
              exists_eq_left', true_and, ne_eq, false_and, Option.getD_some]
      · have last : [row].filter (fun other => key other = name) = [] := by simp [own]
        rw [last, List.append_nil, ← known, mem_addNew]
        refine ⟨fun either => ?_, fun member => .inr ⟨Ne.symm own, .inl member⟩⟩
        obtain ⟨_, member | new⟩ := either.resolve_left fun same => own same.1.symm
        · exact member
        · exact absurd (congrArg Prod.fst new.1).symm own

/-! ## Entries that keep their rows -/

section Parts

variable {parts : Value → List Row} (opens : ∀ row, parts (start row) = [])
  (takes : ∀ row value, parts (add row value) = parts value ++ [row])

include opens takes

/-- Rows taken one by one are the parts of what they make. -/
theorem parts_taken {value : Value} (made : taken start add rows = some value) :
    parts value = rows := by
  induction rows using List.reverseRecOn generalizing value with
  | nil => cases made
  | append_singleton rows row known =>
      rw [taken_append_singleton, Option.some_inj] at made
      rw [← made, takes]
      cases before : taken start add rows with
      | none =>
          rw [taken_eq_none.mp before, Option.getD_none, opens]
      | some earlier =>
          rw [Option.getD_some, known before]

/-- An entry keeps the rows of its key, in their order. -/
theorem parts_of_mem_filed (member : item ∈ filed key start add rows) :
    parts item.2 = rows.filter fun row => key row = item.1 :=
  parts_taken opens takes (mem_filed.mp member)

/-- Every row is in exactly one entry. -/
theorem flatMap_filed_perm (rows : List Row) :
    ((filed key start add rows).flatMap fun item => parts item.2).Perm rows := by
  have entries : ((filed key start add rows).flatMap fun item => parts item.2) =
      ((filed key start add rows).map Prod.fst).flatMap fun name =>
        rows.filter fun row => key row = name := by
    rw [List.flatMap_map]
    exact List.flatMap_congr fun item member => parts_of_mem_filed opens takes member
  rw [entries]
  have split : ∀ names : List Key, names.Nodup →
      (names.flatMap fun name => rows.filter fun row => key row = name).Perm
        (rows.filter fun row => key row ∈ names) := by
    intro names distinct
    induction names with
    | nil => simp
    | cons name names ih =>
        obtain ⟨fresh, distinct⟩ := List.nodup_cons.mp distinct
        have rest : (rows.filter fun row => key row ∈ name :: names).filter
            (fun row => ! decide (key row = name)) = rows.filter fun row => key row ∈ names := by
          rw [List.filter_filter]
          refine List.filter_congr fun row _ => ?_
          by_cases same : key row = name
          · simp [same, fresh]
          · simp [same]
        have own : (rows.filter fun row => key row ∈ name :: names).filter
            (fun row => key row = name) = rows.filter fun row => key row = name := by
          rw [List.filter_filter]
          refine List.filter_congr fun row _ => ?_
          by_cases same : key row = name
          · simp [same]
          · simp [same]
        rw [List.flatMap_cons]
        refine ((ih distinct).append_left _).trans ?_
        rw [← own, ← rest]
        exact List.filter_append_perm _ _
  refine (split _ (nodup_keys_filed rows)).trans (List.Perm.of_eq ?_)
  exact List.filter_eq_self.mpr fun row member =>
    decide_eq_true (mem_keys_filed.mpr ⟨row, member, rfl⟩)

end Parts

end Filing

/-! ## The first of the least rows -/

section Sorting

variable {before : Row → Row → Prop} [DecidableRel before] [Std.Total before]
  [IsTrans Row before] {rows : List Row} {first : Row}

/-- The first row of a sorted list is the earliest of the least rows. -/
theorem head?_insertionSort (found : (rows.insertionSort before).head? = some first) :
    (∀ row ∈ rows, before first row) ∧
      ∃ front back, rows = front ++ first :: back ∧ ∀ row ∈ front, ¬ before row first := by
  refine ⟨fun row member => ?_, ?_⟩
  · have sorted : (rows.insertionSort before).Pairwise before := List.pairwise_insertionSort _ _
    have listed : row ∈ rows.insertionSort before := (List.mem_insertionSort before).mpr member
    obtain ⟨rest, split⟩ := List.head?_eq_some_iff.mp found
    rw [split] at sorted listed
    rcases List.mem_cons.mp listed with rfl | later
    · exact (Std.Total.total row row).elim id id
    · exact (List.pairwise_cons.mp sorted).1 row later
  · induction rows with
    | nil => cases found
    | cons row rows ih =>
        rw [List.insertionSort_cons] at found
        cases sorted : rows.insertionSort before with
        | nil =>
            rw [sorted] at found
            cases found
            exact ⟨[], rows, rfl, by simp⟩
        | cons least rest =>
            rw [sorted, List.orderedInsert] at found
            split at found
            · cases found
              exact ⟨[], rows, rfl, by simp⟩
            · rename_i later
              cases found
              obtain ⟨front, back, rfl, ahead⟩ := ih (by rw [sorted]; rfl)
              exact ⟨row :: front, back, rfl, List.forall_mem_cons.mpr ⟨later, ahead⟩⟩

end Sorting

/-! ## Rounds that may fail -/

section Rounds

variable {Item Failure Result : Type*} {round : Item → Except Failure Result} {items : List Item}

/-- A loop succeeds with the results of its rounds. -/
theorem mapM_eq_ok {results : List Result} : items.mapM round = .ok results ↔
    List.Forall₂ (fun item result => round item = .ok result) items results := by
  induction items generalizing results with
  | nil =>
      rw [List.mapM_nil, List.forall₂_nil_left_iff]
      exact ⟨fun same => (Except.ok.inj same).symm, fun same => congrArg Except.ok same.symm⟩
  | cons item items ih =>
      rw [List.mapM_cons, Relational.bind_eq_ok, List.forall₂_cons_left_iff]
      constructor
      · rintro ⟨result, first, rest⟩
        obtain ⟨later, others, same⟩ := Relational.bind_eq_ok.mp rest
        exact ⟨result, later, first, ih.mp others, (Except.ok.inj same).symm⟩
      · rintro ⟨result, later, first, others, rfl⟩
        exact ⟨result, first, Relational.bind_eq_ok.mpr ⟨later, ih.mpr others, rfl⟩⟩

/-- A result is that of some round. -/
theorem exists_of_mem_results {related : Item → Result → Prop} {results : List Result}
    (rounds : List.Forall₂ related items results) {result : Result} (member : result ∈ results) :
    ∃ item, related item result := by
  induction rounds with
  | nil => cases member
  | cons first rest ih =>
      rcases List.mem_cons.mp member with rfl | later
      · exact ⟨_, first⟩
      · exact ih later

/-- A loop whose rounds all succeed succeeds. -/
theorem exists_mapM_eq_ok (each : ∀ item ∈ items, ∃ result, round item = .ok result) :
    ∃ results, items.mapM round = .ok results := by
  induction items with
  | nil => exact ⟨[], rfl⟩
  | cons item items ih =>
      obtain ⟨first, rest⟩ := List.forall_mem_cons.mp each
      obtain ⟨result, succeeds⟩ := first
      obtain ⟨results, others⟩ := ih rest
      exact ⟨result :: results, mapM_eq_ok.mpr (.cons succeeds (mapM_eq_ok.mp others))⟩

end Rounds

end Dictionary
