import Mathlib.Data.List.Induction
import Mathlib.Data.List.Nodup
import RentalAgent.Foundation.Relational

/-! # Merging entries into keyed rows

An entry is merged into the row that has its key, and a row is created for it when there is
none. Entries with distinct keys do not meet each other: every row is merged with the one entry
that has its key, and the new rows stand behind (`upsertAll_rows`). So merging the same entries
again changes nothing when it changes nothing of a row that was just merged or created
(`upsertAll_again`). The entries are those of a dictionary, which keeps the first item of each
key (`Dictionary.mem_firsts`).
-/

universe u

/-- A dictionary that keeps its order: the items by their keys. -/
abbrev Dictionary (Key Value : Type u) := List (Key × Value)

namespace Dictionary

variable {Key Value : Type u} [DecidableEq Key]

/-- Adding an item under a new key. -/
def addNew (entries : Dictionary Key Value) (item : Key × Value) : Dictionary Key Value :=
  if item.1 ∈ entries.map Prod.fst then entries else entries ++ [item]

/-- The first item of each key. -/
def firsts (items : List (Key × Value)) : Dictionary Key Value := items.foldl addNew []

variable {items : List (Key × Value)}

theorem firsts_append_singleton (items : List (Key × Value)) (item : Key × Value) :
    firsts (items ++ [item]) = addNew (firsts items) item := by
  rw [firsts, List.foldl_append]
  rfl

/-- The first items have different keys. -/
theorem nodup_firsts (items : List (Key × Value)) : ((firsts items).map Prod.fst).Nodup := by
  induction items using List.reverseRecOn with
  | nil => exact List.nodup_nil
  | append_singleton items item distinct =>
      rw [firsts_append_singleton, addNew]
      split
      · exact distinct
      · rename_i fresh
        rw [List.map_append]
        exact List.nodup_append'.mpr
          ⟨distinct, List.nodup_singleton _, List.disjoint_singleton.mpr fresh⟩

/-- The first items have the keys of all items. -/
theorem mem_keys_firsts {key : Key} :
    key ∈ (firsts items).map Prod.fst ↔ key ∈ items.map Prod.fst := by
  induction items using List.reverseRecOn with
  | nil => exact Iff.rfl
  | append_singleton items item same =>
      rw [firsts_append_singleton, addNew, List.map_append, List.mem_append, ← same]
      split
      · rename_i known
        refine ⟨.inl, fun either => either.elim id fun last => ?_⟩
        rw [List.map_singleton, List.mem_singleton] at last
        rwa [last]
      · rw [List.map_append, List.mem_append]

/-- Without items there are no first items. -/
theorem firsts_eq_nil : firsts items = [] ↔ items = [] := by
  refine ⟨fun none => ?_, fun none => by rw [none]; rfl⟩
  cases items with
  | nil => rfl
  | cons item items =>
      have kept : item.1 ∈ (firsts (item :: items)).map Prod.fst :=
        mem_keys_firsts.mpr List.mem_cons_self
      rw [none] at kept
      cases kept

/-- An item is kept when no item before it has its key. -/
theorem mem_firsts {item : Key × Value} : item ∈ firsts items ↔
    ∃ before after, items = before ++ item :: after ∧ item.1 ∉ before.map Prod.fst := by
  induction items using List.reverseRecOn with
  | nil =>
      refine ⟨fun member => absurd member List.not_mem_nil, ?_⟩
      rintro ⟨before, after, split, -⟩
      cases before <;> cases split
  | append_singleton items last kept =>
      rw [firsts_append_singleton, addNew]
      have known (other : Key × Value) : (∃ before after, items ++ [last] =
          before ++ other :: after ∧ other.1 ∉ before.map Prod.fst) ↔
          (∃ before after, items = before ++ other :: after ∧ other.1 ∉ before.map Prod.fst) ∨
            other = last ∧ other.1 ∉ items.map Prod.fst := by
        constructor
        · rintro ⟨before, after, split, fresh⟩
          rcases List.eq_nil_or_concat' after with rfl | ⟨front, final, rfl⟩
          · obtain ⟨rfl, same⟩ := List.append_inj' split rfl
            exact .inr ⟨(List.cons.inj same).1.symm, fresh⟩
          · rw [← List.cons_append, ← List.append_assoc] at split
            obtain ⟨rfl, -⟩ := List.append_inj' split rfl
            exact .inl ⟨before, front, rfl, fresh⟩
        · rintro (⟨before, after, rfl, fresh⟩ | ⟨rfl, fresh⟩)
          · exact ⟨before, after ++ [last], by simp, fresh⟩
          · exact ⟨items, [], rfl, fresh⟩
      rw [known, ← kept]
      split
      · rename_i taken
        refine ⟨.inl, fun either => either.elim id ?_⟩
        rintro ⟨rfl, fresh⟩
        exact absurd (mem_keys_firsts.mp taken) fresh
      · rename_i fresh
        rw [mem_keys_firsts] at fresh
        rw [List.mem_append, List.mem_singleton]
        exact or_congr_right ⟨fun same => ⟨same, by rwa [same]⟩, fun same => same.1⟩

/-- Changing the values does not change which items are kept. -/
theorem firsts_map {Value' : Type u} (change : Value → Value') (items : List (Key × Value)) :
    firsts (items.map fun item => (item.1, change item.2)) =
      (firsts items).map fun item => (item.1, change item.2) := by
  induction items using List.reverseRecOn with
  | nil => rfl
  | append_singleton items item same =>
      have keys : ((firsts items).map fun item => (item.1, change item.2)).map Prod.fst =
          (firsts items).map Prod.fst := by
        rw [List.map_map]
        rfl
      rw [List.map_append, List.map_singleton, firsts_append_singleton, same, addNew,
        firsts_append_singleton, addNew, keys]
      split
      · rfl
      · rw [List.map_append, List.map_singleton]

/-- Items with distinct keys are all kept. -/
theorem firsts_eq_self (distinct : (items.map Prod.fst).Nodup) : firsts items = items := by
  induction items using List.reverseRecOn with
  | nil => rfl
  | append_singleton items item same =>
      rw [List.map_append, List.nodup_append'] at distinct
      rw [firsts_append_singleton, same distinct.1, addNew, if_neg]
      exact List.disjoint_singleton.mp distinct.2.2

end Dictionary

namespace Relational

variable {Row Entry Key : Type u} [DecidableEq Key]

/-- Rows, and how many identifiers were drawn for them. -/
structure Table (Row : Type u) where
  rows : List Row
  drawn : Nat

/-- How entries become rows: the keys, what an entry changes in the row that has its key, and
the row that is created for it. -/
structure Merging (Row Entry Key : Type u) where
  rowKey : Row → Key
  entryKey : Entry → Key
  merge : Entry → Row → Row
  create : Nat → Entry → Row
  rowKey_merge : ∀ entry row, rowKey (merge entry row) = rowKey row
  rowKey_create : ∀ drawn entry, rowKey (create drawn entry) = entryKey entry

namespace Merging

variable (merging : Merging Row Entry Key)

/-- Merging one entry. -/
def upsert (table : Table Row) (entry : Entry) : Table Row :=
  if merging.entryKey entry ∈ table.rows.map merging.rowKey then
    { table with
      rows := updateWhere (fun row => merging.rowKey row = merging.entryKey entry)
        (merging.merge entry) table.rows }
  else ⟨table.rows ++ [merging.create table.drawn entry], table.drawn + 1⟩

/-- Merging entries one after the other. -/
def upsertAll (entries : List Entry) (table : Table Row) : Table Row :=
  entries.foldl merging.upsert table

/-- A row merged with the entry that has its key, if there is one. -/
def merged (entries : List Entry) (row : Row) : Row :=
  (entries.find? fun entry => merging.entryKey entry = merging.rowKey row).elim row
    fun entry => merging.merge entry row

/-- The rows that are created, the first with the given number. -/
def created (keys : List Key) (drawn : Nat) (entries : List Entry) : List Row :=
  ((entries.filter fun entry => merging.entryKey entry ∉ keys).zipIdx drawn).map
    fun (entry, drawn) => merging.create drawn entry

variable {merging} {entries : List Entry} {table : Table Row}

theorem merged_cons_self {entry : Entry} {row : Row}
    (same : merging.rowKey row = merging.entryKey entry) :
    merging.merged (entry :: entries) row = merging.merge entry row := by
  simp [merged, same]

theorem merged_cons_of_ne {entry : Entry} {row : Row}
    (differs : merging.rowKey row ≠ merging.entryKey entry) :
    merging.merged (entry :: entries) row = merging.merged entries row := by
  rw [merged, List.find?_cons_of_neg (by simpa using differs.symm), merged]

/-- A row without an entry stays as it is. -/
theorem merged_of_not_mem {row : Row}
    (none : merging.rowKey row ∉ entries.map merging.entryKey) :
    merging.merged entries row = row := by
  rw [merged, List.find?_eq_none.mpr]
  · rfl
  · intro entry member same
    exact none (List.mem_map.mpr ⟨entry, member, of_decide_eq_true same⟩)

@[simp] theorem rowKey_merged (entries : List Entry) (row : Row) :
    merging.rowKey (merging.merged entries row) = merging.rowKey row := by
  rw [merged]
  cases entries.find? fun entry => merging.entryKey entry = merging.rowKey row with
  | none => rfl
  | some entry => exact merging.rowKey_merge entry row

/-- Entries with distinct keys: each row is merged with the one that has its key, and new rows
are created for the others. -/
theorem upsertAll_rows (distinct : (entries.map merging.entryKey).Nodup) (table : Table Row) :
    (merging.upsertAll entries table).rows = table.rows.map (merging.merged entries) ++
      merging.created (table.rows.map merging.rowKey) table.drawn entries := by
  induction entries generalizing table with
  | nil =>
      have none : merging.merged [] = id := rfl
      rw [none, List.map_id]
      exact (List.append_nil _).symm
  | cons entry entries following =>
      obtain ⟨fresh, distinct⟩ := List.nodup_cons.mp distinct
      change (merging.upsertAll entries (merging.upsert table entry)).rows = _
      rw [following distinct, upsert]
      by_cases known : merging.entryKey entry ∈ table.rows.map merging.rowKey
      · rw [if_pos known]
        have keys : (updateWhere (fun row => merging.rowKey row = merging.entryKey entry)
            (merging.merge entry) table.rows).map merging.rowKey =
              table.rows.map merging.rowKey :=
          map_updateWhere merging.rowKey fun row _ _ => merging.rowKey_merge entry row
        change (updateWhere (fun row => merging.rowKey row = merging.entryKey entry)
            (merging.merge entry) table.rows).map (merging.merged entries) ++
          merging.created ((updateWhere (fun row => merging.rowKey row = merging.entryKey entry)
            (merging.merge entry) table.rows).map merging.rowKey) table.drawn entries = _
        rw [keys, updateWhere, List.map_map]
        have news : merging.created (table.rows.map merging.rowKey) table.drawn (entry :: entries) =
            merging.created (table.rows.map merging.rowKey) table.drawn entries := by
          rw [created, created, List.filter_cons_of_neg (by simpa using known)]
        rw [news]
        refine congrArg (· ++ _) (List.map_congr_left fun row _ => ?_)
        change merging.merged entries (if decide (merging.rowKey row = merging.entryKey entry) then
          merging.merge entry row else row) = _
        by_cases same : merging.rowKey row = merging.entryKey entry
        · rw [if_pos (decide_eq_true same), merged_cons_self same, merged_of_not_mem]
          rwa [merging.rowKey_merge, same]
        · rw [if_neg (by simpa using same), merged_cons_of_ne same]
      · rw [if_neg known]
        change (table.rows ++ [merging.create table.drawn entry]).map (merging.merged entries) ++
          merging.created ((table.rows ++ [merging.create table.drawn entry]).map merging.rowKey)
            (table.drawn + 1) entries = _
        have old : table.rows.map (merging.merged entries) =
            table.rows.map (merging.merged (entry :: entries)) :=
          List.map_congr_left fun row member => (merged_cons_of_ne fun same =>
            known (List.mem_map.mpr ⟨row, member, same⟩)).symm
        have new : merging.merged entries (merging.create table.drawn entry) =
            merging.create table.drawn entry :=
          merged_of_not_mem (by rwa [merging.rowKey_create])
        have left : (entries.filter fun other => merging.entryKey other ∉
            (table.rows ++ [merging.create table.drawn entry]).map merging.rowKey) =
              entries.filter fun other => merging.entryKey other ∉
                table.rows.map merging.rowKey := by
          refine List.filter_congr fun other member => ?_
          have differs : merging.entryKey other ≠ merging.entryKey entry :=
            fun same => fresh (same ▸ List.mem_map_of_mem member)
          simp [merging.rowKey_create, differs]
        rw [created, left, List.map_append, List.map_singleton, new, old, List.append_assoc,
          created, List.filter_cons_of_pos (by simpa using known)]
        rfl

/-- Merging the same entries again, in another way with the same keys: what does not see a
difference between a row and the row after its entry was merged again sees none at all. -/
theorem upsertAll_again {View : Type u} (view : Row → View)
    (merging second : Merging Row Entry Key)
    (rowKeys : second.rowKey = merging.rowKey) (entryKeys : second.entryKey = merging.entryKey)
    (distinct : (entries.map merging.entryKey).Nodup)
    (again : ∀ entry row,
      view (second.merge entry (merging.merge entry row)) = view (merging.merge entry row))
    (settled : ∀ drawn entry,
      view (second.merge entry (merging.create drawn entry)) = view (merging.create drawn entry))
    (table : Table Row) :
    (second.upsertAll entries (merging.upsertAll entries table)).rows.map view =
      (merging.upsertAll entries table).rows.map view := by
  have stays : ∀ row ∈ (merging.upsertAll entries table).rows,
      view (second.merged entries row) = view row := by
    intro row member
    rw [upsertAll_rows distinct table, List.mem_append] at member
    rw [merged, entryKeys, rowKeys]
    rcases member with old | new
    · obtain ⟨before, -, rfl⟩ := List.mem_map.mp old
      rw [rowKey_merged, merged]
      cases entries.find? fun entry => merging.entryKey entry = merging.rowKey before with
      | none => rfl
      | some entry => exact again entry before
    · obtain ⟨⟨entry, drawn⟩, member, rfl⟩ := List.mem_map.mp new
      have inEntries : entry ∈ entries :=
        (List.mem_filter.mp (List.fst_mem_of_mem_zipIdx member)).1
      rw [merging.rowKey_create]
      cases found : entries.find? fun other =>
          merging.entryKey other = merging.entryKey entry with
      | none => rfl
      | some other =>
          have matched : decide (merging.entryKey other = merging.entryKey entry) = true := by
            simpa using List.find?_some found
          have same : other = entry := List.inj_on_of_nodup_map distinct
            (List.mem_of_find?_eq_some found) inEntries (of_decide_eq_true matched)
          rw [same]
          exact settled drawn entry
  have covered : ∀ entry ∈ entries, merging.entryKey entry ∈
      (merging.upsertAll entries table).rows.map merging.rowKey := by
    intro entry member
    rw [upsertAll_rows distinct table, List.map_append, List.mem_append]
    by_cases known : merging.entryKey entry ∈ table.rows.map merging.rowKey
    · left
      simpa using known
    · right
      have numbered : entry ∈ ((entries.filter fun entry => merging.entryKey entry ∉
          table.rows.map merging.rowKey).zipIdx table.drawn).map Prod.fst := by
        rw [List.zipIdx_map_fst]
        exact List.mem_filter.mpr ⟨member, by simpa using known⟩
      obtain ⟨pair, inside, rfl⟩ := List.mem_map.mp numbered
      exact List.mem_map.mpr ⟨_, List.mem_map.mpr ⟨_, inside, rfl⟩, merging.rowKey_create _ _⟩
  have none : second.created ((merging.upsertAll entries table).rows.map second.rowKey)
      (merging.upsertAll entries table).drawn entries = [] := by
    rw [created, rowKeys, entryKeys,
      List.filter_eq_nil_iff.mpr fun entry member => by simpa using covered entry member]
    rfl
  rw [upsertAll_rows (entryKeys ▸ distinct), none, List.append_nil, List.map_map]
  exact List.map_congr_left stays

/-- Every row stays, merged or not. -/
theorem mem_upsertAll_of_mem (distinct : (entries.map merging.entryKey).Nodup) (table : Table Row)
    {row : Row} (member : row ∈ table.rows) :
    merging.merged entries row ∈ (merging.upsertAll entries table).rows := by
  rw [upsertAll_rows distinct]
  exact List.mem_append_left _ (List.mem_map_of_mem member)

/-- A row that has the key of an entry is merged with it. -/
theorem merged_eq (distinct : (entries.map merging.entryKey).Nodup) {entry : Entry} {row : Row}
    (member : entry ∈ entries) (same : merging.rowKey row = merging.entryKey entry) :
    merging.merged entries row = merging.merge entry row := by
  cases found : entries.find? fun other => merging.entryKey other = merging.rowKey row with
  | none =>
      have differs := List.find?_eq_none.mp found entry member
      simp [same] at differs
  | some other =>
      have matched : decide (merging.entryKey other = merging.rowKey row) = true := by
        simpa using List.find?_some found
      have one : other = entry := List.inj_on_of_nodup_map distinct
        (List.mem_of_find?_eq_some found) member ((of_decide_eq_true matched).trans same)
      rw [merged, found, one]
      rfl

end Merging

end Relational
