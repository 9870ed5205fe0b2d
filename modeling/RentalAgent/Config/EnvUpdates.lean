import RentalAgent.Config.EnvScan

/-! # What an update of the environment file does

The loop over the lines replaces the first line of each given key and keeps the others, so
that a reader finds what it found in the kept lines and the given values in between
(`read_updateLines`). Where it finds a given value is then a question of what stands behind the
first line of the key (`stored_newReadings`), and a removed key is found where it stands
besides this line (`filter_newReadings_removed`).
-/

namespace RentalAgent

open Assignments Lines

/-! ## The loop over the lines -/

section Loop

variable {key line : List Char} {value : Option (List Char)}
  {remaining : List (List Char × Option (List Char))} {block rest : List (List Char)}

theorem entryOf_eq_some (found : entryOf line remaining = some (key, value)) :
    assignedKey line = some key ∧ (key, value) ∈ remaining := by
  obtain ⟨assigned, same, first⟩ := Option.bind_eq_some_iff.mp found
  have matched : key = assigned := by simpa using List.find?_some first
  exact ⟨matched ▸ same, List.mem_of_find?_eq_some first⟩

theorem entryOf_eq_none : entryOf line remaining = none ↔
    ∀ key ∈ assignedKey line, ∀ entry ∈ remaining, entry.1 ≠ key := by
  rw [entryOf, Option.bind_eq_none_iff]
  refine forall₂_congr fun key _ => ?_
  rw [List.find?_eq_none]
  exact forall₂_congr fun entry _ => by rw [decide_eq_true_eq]

/-- Lines without an entry are kept. -/
theorem updateLines_append (kept : ∀ line ∈ block, entryOf line remaining = none) :
    updateLines (block ++ rest) remaining =
      (block ++ (updateLines rest remaining).1, (updateLines rest remaining).2) := by
  induction block with
  | nil => rfl
  | cons line block ih =>
      obtain ⟨here, later⟩ := List.forall_mem_cons.mp kept
      rw [List.cons_append, updateLines, here]
      simp only [ih later, List.cons_append]

/-- A line with an entry is replaced by it. -/
theorem updateLines_cons (found : entryOf line remaining = some (key, value)) :
    updateLines (line :: rest) remaining =
      ((value.map (formatLine key)).toList ++
        (updateLines rest (remaining.eraseP fun entry => entry.1 = key)).1,
      (updateLines rest (remaining.eraseP fun entry => entry.1 = key)).2) := by
  rw [updateLines, found]

/-- Without the entry of a key the others remain. -/
theorem mem_eraseP_key (distinct : (remaining.map Prod.fst).Nodup)
    {entry : List Char × Option (List Char)} :
    entry ∈ remaining.eraseP (fun other => other.1 = key) ↔ entry ∈ remaining ∧ entry.1 ≠ key := by
  induction remaining with
  | nil => simp
  | cons first others ih =>
      rw [List.map_cons, List.nodup_cons] at distinct
      by_cases same : first.1 = key
      · rw [List.eraseP_cons_of_pos (by simpa using same)]
        subst same
        constructor
        · intro member
          refine ⟨List.mem_cons_of_mem _ member, fun again => distinct.1 ?_⟩
          exact again ▸ List.mem_map_of_mem member
        · rintro ⟨member, other⟩
          exact (List.mem_cons.mp member).resolve_left fun here => other (here ▸ rfl)
      · rw [List.eraseP_cons_of_neg (by simpa using same), List.mem_cons, List.mem_cons,
          ih distinct.2]
        constructor
        · rintro (rfl | ⟨member, other⟩)
          · exact ⟨.inl rfl, same⟩
          · exact ⟨.inr member, other⟩
        · rintro ⟨rfl | member, other⟩
          · exact .inl rfl
          · exact .inr ⟨member, other⟩

theorem distinct_eraseP (distinct : (remaining.map Prod.fst).Nodup) :
    ((remaining.eraseP fun other => other.1 = key).map Prod.fst).Nodup :=
  distinct.sublist (List.eraseP_sublist.map _)

theorem eq_of_entries (distinct : (remaining.map Prod.fst).Nodup) {other : Option (List Char)}
    (first : (key, value) ∈ remaining) (second : (key, other) ∈ remaining) : value = other := by
  have same := List.inj_on_of_nodup_map distinct first second rfl
  exact congrArg Prod.snd same

end Loop

/-! ## What a reader finds -/

section Readings

variable {read : List Char → List (List Char × Option (List Char))} {values : EnvValues}
  {remaining : List (List Char × Option (List Char))} {blocks : List (List (List Char))}
  {block rest : List (List Char)} {key line value : List Char}

variable (read) in
/-- What a reader finds after an update of a file in blocks. -/
def newReadings : List (List (List Char)) → List (List Char × Option (List Char)) →
    List (List Char × Option (List Char))
  | [], remaining => remaining.filterMap fun entry => entry.2.map fun value => (entry.1, some value)
  | block :: rest, remaining =>
      match block.head?.bind fun line => entryOf line remaining with
      | some (key, value) =>
          (value.map fun value => (key, some value)).toList ++
            newReadings rest (remaining.eraseP fun entry => entry.1 = key)
      | none => read (endedLines block) ++ newReadings rest remaining

/-- The remaining values are among the given ones and can be written. -/
structure Remaining (values : EnvValues) (remaining : List (List Char × Option (List Char))) :
    Prop where
  distinct : (remaining.map Prod.fst).Nodup
  given : ∀ entry ∈ remaining, values.Gives entry.1
  writable : ∀ key value, (key, some value) ∈ remaining → ReadableKey key ∧ WritableValue value

theorem Remaining.eraseP (left : Remaining values remaining) (key : List Char) :
    Remaining values (remaining.eraseP fun entry => entry.1 = key) where
  distinct := distinct_eraseP left.distinct
  given entry member := left.given entry (List.mem_of_mem_eraseP member)
  writable key value member := left.writable key value (List.mem_of_mem_eraseP member)

/-- A block is one line with an entry, or no line of it has one. -/
theorem ReadAlone.cases (alone : ReadAlone read values block)
    (left : Remaining values remaining) :
    (∃ line key value, block = [line] ∧ entryOf line remaining = some (key, value) ∧
      ∀ binding ∈ read (endedLines block), binding.1 = key) ∨
    ∀ line ∈ block, entryOf line remaining = none := by
  by_cases kept : ∀ line ∈ block, entryOf line remaining = none
  · exact .inr kept
  · obtain ⟨line, member, taken⟩ := not_forall₂.mp kept
    obtain ⟨⟨key, value⟩, found⟩ := Option.ne_none_iff_exists'.mp taken
    obtain ⟨assigned, entry⟩ := entryOf_eq_some found
    have gives : values.Gives key := left.given _ entry
    exact .inl ⟨line, key, value, alone.alone line member ⟨key, assigned, gives⟩, found,
      alone.binds line member key assigned gives⟩

/-- A block without entries is read as it stands. -/
theorem newReadings_kept (kept : ∀ line ∈ block, entryOf line remaining = none) :
    newReadings read (block :: blocks) remaining =
      read (endedLines block) ++ newReadings read blocks remaining := by
  rw [newReadings]
  cases block with
  | nil => rfl
  | cons line block => rw [List.head?_cons, Option.bind_some, kept line List.mem_cons_self]

theorem newReadings_taken {given : Option (List Char)}
    (found : entryOf line remaining = some (key, given)) :
    newReadings read ([line] :: blocks) remaining =
      (given.map fun value => (key, some value)).toList ++
        newReadings read blocks (remaining.eraseP fun entry => entry.1 = key) := by
  rw [newReadings, List.head?_cons, Option.bind_some, found]

/-- The lines that are added read as the values that remained. -/
theorem read_addedLines (reader : EnvReader read) (left : Remaining values remaining) :
    read (endedLines (addedLines remaining)) =
      remaining.filterMap fun entry => entry.2.map fun value => (entry.1, some value) := by
  have writable := left.writable
  clear left
  induction remaining with
  | nil => exact reader.empty
  | cons entry others ih =>
      obtain ⟨key, value⟩ := entry
      have later := ih fun key value member => writable key value (List.mem_cons_of_mem _ member)
      cases value with
      | none => simpa [addedLines] using later
      | some value =>
          obtain ⟨readable, fits⟩ := writable key value List.mem_cons_self
          have lines : addedLines ((key, some value) :: others) =
              formatLine key value :: addedLines others := rfl
          rw [lines, endedLines_cons, read_formatLine reader readable fits, later]
          rfl

/-- A reader finds the readings of the kept blocks and the written values. -/
theorem read_updateLines (reader : EnvReader read)
    (alone : ∀ block ∈ blocks, ReadAlone read values block) (left : Remaining values remaining) :
    read (endedLines ((updateLines blocks.flatten remaining).1 ++
      addedLines (updateLines blocks.flatten remaining).2)) =
        newReadings read blocks remaining := by
  induction blocks generalizing remaining with
  | nil => exact read_addedLines reader left
  | cons block blocks ih =>
      obtain ⟨here, others⟩ := List.forall_mem_cons.mp alone
      rcases here.cases left with ⟨line, key, value, rfl, found, -⟩ | kept
      · rw [newReadings_taken found, List.flatten_cons, List.singleton_append,
          updateLines_cons found, List.append_assoc, endedLines_append]
        have later := ih others (left.eraseP key)
        cases value with
        | none => exact later
        | some value =>
            obtain ⟨readable, fits⟩ := left.writable key value (entryOf_eq_some found).2
            change read (formatLine key value ++ ['\n'] ++ [] ++ _) = _
            rw [List.append_nil, List.append_assoc, List.singleton_append,
              read_formatLine reader readable fits, later]
            rfl
      · rw [newReadings_kept kept, List.flatten_cons, updateLines_append kept, List.append_assoc,
          endedLines_append, here.whole, ih others left]

/-- What is found for keys that are not given any more is what was found before. -/
theorem filter_newReadings (chosen : List Char → Prop) [DecidablePred chosen]
    (alone : ∀ block ∈ blocks, ReadAlone read values block) (left : Remaining values remaining)
    (others : ∀ entry ∈ remaining, ¬chosen entry.1) :
    ((newReadings read blocks remaining).filter fun binding => chosen binding.1) =
      (blocks.flatMap fun block => read (endedLines block)).filter
        fun binding => chosen binding.1 := by
  induction blocks generalizing remaining with
  | nil =>
      refine List.filter_eq_nil_iff.mpr fun binding member => ?_
      obtain ⟨entry, inside, written⟩ := List.mem_filterMap.mp member
      obtain ⟨value, -, rfl⟩ := Option.map_eq_some_iff.mp written
      simpa using others entry inside
  | cons block blocks ih =>
      obtain ⟨here, later⟩ := List.forall_mem_cons.mp alone
      rw [List.flatMap_cons, List.filter_append]
      rcases here.cases left with ⟨line, key, value, rfl, found, binds⟩ | kept
      · have other : ¬chosen key := others _ (entryOf_eq_some found).2
        have old : (read (endedLines [line])).filter (fun binding => chosen binding.1) = [] :=
          List.filter_eq_nil_iff.mpr fun binding member => by
            simpa [binds binding member] using other
        have new : ((value.map fun value => (key, some value)).toList.filter
            fun binding : List Char × Option (List Char) => chosen binding.1) = [] := by
          cases value <;> simp [other]
        rw [newReadings_taken found, List.filter_append, old, new,
          ih later (left.eraseP key) fun entry member =>
            others entry (List.mem_of_mem_eraseP member)]
      · rw [newReadings_kept kept, List.filter_append, ih later left others]

/-- Lines without an entry assign no remaining key. -/
theorem assignedKey_ne_of_kept {given : Option (List Char)}
    (kept : ∀ line ∈ block, entryOf line remaining = none) (member : (key, given) ∈ remaining) :
    ∀ line ∈ block, assignedKey line ≠ some key :=
  fun line inside assigned => entryOf_eq_none.mp (kept line inside) key assigned _ member rfl

/-- A line that assigns another key is no line of the key. -/
theorem assignedKey_ne_of_assigned {other : List Char} (assigned : assignedKey line = some other)
    (different : other ≠ key) : ∀ found ∈ [line], assignedKey found ≠ some key :=
  List.forall_mem_singleton.mpr fun same =>
    different (Option.some.inj (assigned.symm.trans same))

theorem linesBehind_append (others : ∀ line ∈ block, assignedKey line ≠ some key) :
    linesBehind key (block ++ rest) = linesBehind key rest := by
  rw [linesBehind, List.dropWhile_append_of_pos fun line member =>
    decide_eq_true (others line member)]
  rfl

theorem linesBehind_cons (assigned : assignedKey line = some key) :
    linesBehind key (line :: rest) = rest := by
  rw [linesBehind, List.dropWhile_cons_of_neg (by simpa using assigned)]
  rfl

theorem linesBesides_append (others : ∀ line ∈ block, assignedKey line ≠ some key) :
    linesBesides key (block ++ rest) = block ++ linesBesides key rest :=
  List.eraseP_append_right rest fun line member => by simpa using others line member

theorem linesBesides_cons (assigned : assignedKey line = some key) :
    linesBesides key (line :: rest) = rest :=
  List.eraseP_cons_of_pos (decide_eq_true assigned)

/-- What is written for the entry of a key, and nothing else, is about the key. -/
theorem filter_written (distinct : (remaining.map Prod.fst).Nodup)
    {given : Option (List Char)} (member : (key, given) ∈ remaining) :
    ((remaining.filterMap fun entry => entry.2.map fun value => (entry.1, some value)).filter
      fun binding => binding.1 = key) = (given.map fun value => (key, some value)).toList := by
  induction remaining with
  | nil => cases member
  | cons entry others ih =>
      obtain ⟨first, value⟩ := entry
      have keys := List.nodup_cons.mp distinct
      by_cases same : first = key
      · subst same
        obtain rfl := eq_of_entries distinct member List.mem_cons_self
        have none : ((others.filterMap fun entry =>
            entry.2.map fun value => (entry.1, some value)).filter
              fun binding => binding.1 = first) = [] := by
          refine List.filter_eq_nil_iff.mpr fun binding inside matched => keys.1 ?_
          obtain ⟨entry, later, written⟩ := List.mem_filterMap.mp inside
          obtain ⟨value, -, rfl⟩ := Option.map_eq_some_iff.mp written
          exact List.mem_map.mpr ⟨entry, later, of_decide_eq_true matched⟩
        cases given with
        | none => simpa using none
        | some value => simpa using none
      · have later : (key, given) ∈ others :=
          (List.mem_cons.mp member).resolve_left fun here => same (congrArg Prod.fst here).symm
        rw [← ih keys.2 later]
        cases value with
        | none => rfl
        | some value =>
            rw [List.filterMap_cons]
            exact List.filter_cons_of_neg (by simpa using same)

/-- **What is found for a given value.** It is the last value assigned behind the first line of
the key, and the given one where there is none. -/
theorem stored_newReadings (reader : EnvReader read)
    (alone : ∀ block ∈ blocks, ReadAlone read values block) (left : Remaining values remaining)
    (member : (key, some value) ∈ remaining) :
    LastWrite.stored (newReadings read blocks remaining) key =
      some ((LastWrite.stored (read (endedLines (linesBehind key blocks.flatten))) key).getD
        (some value)) := by
  induction blocks generalizing remaining with
  | nil =>
      rw [newReadings, ← LastWrite.stored_filter, filter_written left.distinct member,
        List.flatten_nil]
      change LastWrite.stored [(key, some value)] key =
        some ((LastWrite.stored (read []) key).getD (some value))
      rw [reader.empty]
      simp [LastWrite.stored]
  | cons block blocks ih =>
      obtain ⟨here, later⟩ := List.forall_mem_cons.mp alone
      rcases here.cases left with ⟨line, other, given, rfl, found, binds⟩ | kept
      · obtain ⟨assigned, entry⟩ := entryOf_eq_some found
        rw [newReadings_taken found, LastWrite.stored_append, List.flatten_cons,
          List.singleton_append]
        by_cases same : other = key
        · subst same
          obtain rfl := eq_of_entries left.distinct entry member
          have rest := stored_congr (filter_newReadings (fun found => found = other) later
            (left.eraseP other) fun entry inside =>
              ((mem_eraseP_key left.distinct).mp inside).2)
          rw [rest, linesBehind_cons assigned,
            read_pieces reader.empty fun block inside => (later block inside).whole]
          have new : LastWrite.stored [(other, some value)] other = some (some value) := by
            simp [LastWrite.stored]
          rw [Option.map_some, Option.toList_some, new]
          exact Option.or_some
        · have remains := (mem_eraseP_key left.distinct).mpr ⟨member, Ne.symm same⟩
          have others := assignedKey_ne_of_assigned assigned same
          rw [ih later (left.eraseP other) remains, ← List.singleton_append,
            linesBehind_append others, Option.some_or]
      · rw [newReadings_kept kept, LastWrite.stored_append, ih later left member,
          List.flatten_cons, linesBehind_append (assignedKey_ne_of_kept kept member),
          Option.some_or]

/-- **What is found for a removed key.** It is what is found besides its first line. -/
theorem filter_newReadings_removed (reader : EnvReader read)
    (alone : ∀ block ∈ blocks, ReadAlone read values block) (left : Remaining values remaining)
    (member : (key, none) ∈ remaining) :
    ((newReadings read blocks remaining).filter fun binding => binding.1 = key) =
      (read (endedLines (linesBesides key blocks.flatten))).filter
        fun binding => binding.1 = key := by
  induction blocks generalizing remaining with
  | nil =>
      rw [newReadings, filter_written left.distinct member, List.flatten_nil]
      change [] = (read []).filter _
      rw [reader.empty, List.filter_nil]
  | cons block blocks ih =>
      obtain ⟨here, later⟩ := List.forall_mem_cons.mp alone
      rcases here.cases left with ⟨line, other, given, rfl, found, binds⟩ | kept
      · obtain ⟨assigned, entry⟩ := entryOf_eq_some found
        rw [newReadings_taken found, List.filter_append, List.flatten_cons, List.singleton_append]
        by_cases same : other = key
        · subst same
          obtain rfl := eq_of_entries left.distinct entry member
          have rest := filter_newReadings (fun found => found = other) later
            (left.eraseP other) fun entry inside =>
              ((mem_eraseP_key left.distinct).mp inside).2
          rw [rest, linesBesides_cons assigned,
            read_pieces reader.empty fun block inside => (later block inside).whole]
          rfl
        · have remains := (mem_eraseP_key left.distinct).mpr ⟨member, Ne.symm same⟩
          have others := assignedKey_ne_of_assigned assigned same
          have new : ((given.map fun value => (other, some value)).toList.filter
              fun binding : List Char × Option (List Char) => binding.1 = key) = [] := by
            cases given <;> simp [same]
          have old : (read (endedLines [line])).filter (fun binding => binding.1 = key) = [] :=
            List.filter_eq_nil_iff.mpr fun binding inside => by
              simpa [binds binding inside] using same
          rw [ih later (left.eraseP other) remains, ← List.singleton_append,
            linesBesides_append others, endedLines_append, here.whole, List.filter_append, new, old]
      · rw [newReadings_kept kept, List.filter_append, ih later left member, List.flatten_cons,
          linesBesides_append (assignedKey_ne_of_kept kept member), endedLines_append, here.whole,
          List.filter_append]

end Readings

/-! ## The written file -/

section Written

variable {values : EnvValues} {remaining : List (List Char × Option (List Char))}
  {lines kept : List (List Char)} {line text : List Char}

/-- Text that was read in text mode has no carriage return. -/
theorem return_notMem_universalNewlines (text : List Char) : '\r' ∉ universalNewlines text := by
  induction text with
  | nil => simp [universalNewlines]
  | cons c rest ih =>
      rw [universalNewlines]
      split
      · split
        · exact ih
        · simp [ih]
      · rename_i letter
        simp [ih, Ne.symm letter]

theorem universalNewlines_eq_self (plain : '\r' ∉ text) : universalNewlines text = text := by
  induction text with
  | nil => rfl
  | cons c rest ih =>
      obtain ⟨here, later⟩ := not_or.mp (List.mem_cons.not.mp plain)
      rw [universalNewlines, if_neg (Ne.symm here), ih later]

/-- The lines of the output are lines of the file and lines that are written. -/
theorem mem_updateLines (member : line ∈ (updateLines lines remaining).1) :
    line ∈ lines ∨ ∃ key value, (key, some value) ∈ remaining ∧ line = formatLine key value := by
  induction lines generalizing remaining with
  | nil => cases member
  | cons first rest ih =>
      cases found : entryOf first remaining with
      | none =>
          rw [updateLines, found] at member
          rcases List.mem_cons.mp member with rfl | later
          · exact .inl List.mem_cons_self
          · exact (ih later).imp_left (List.mem_cons_of_mem _)
      | some entry =>
          obtain ⟨key, value⟩ := entry
          rw [updateLines_cons found] at member
          rcases List.mem_append.mp member with here | later
          · obtain ⟨given, rfl, rfl⟩ : ∃ given, value = some given ∧
                line = formatLine key given := by
              cases value <;> simp_all
            exact .inr ⟨key, given, (entryOf_eq_some found).2, rfl⟩
          · rcases ih later with old | ⟨other, given, entry, rfl⟩
            · exact .inl (List.mem_cons_of_mem _ old)
            · exact .inr ⟨other, given, List.mem_of_mem_eraseP entry, rfl⟩

/-- What remains after the lines was there before them. -/
theorem remaining_subset (lines : List (List Char))
    (remaining : List (List Char × Option (List Char))) :
    (updateLines lines remaining).2 ⊆ remaining := by
  induction lines generalizing remaining with
  | nil => exact fun _ member => member
  | cons first rest ih =>
      cases found : entryOf first remaining with
      | none =>
          rw [updateLines, found]
          exact ih remaining
      | some entry =>
          rw [updateLines_cons found]
          exact fun _ member => List.mem_of_mem_eraseP (ih _ member)

/-- A line of the updated file was there before, or a new value is formatted in it. -/
theorem mem_updatedLines (member : line ∈ updatedLines lines values) :
    line ∈ lines ∨ ∃ key value, (key, some value) ∈ values.entries ∧
      line = formatLine key value := by
  rcases List.mem_append.mp member with inOutput | added
  · exact mem_updateLines inOutput
  · obtain ⟨⟨key, given⟩, entry, written⟩ := List.mem_filterMap.mp added
    obtain ⟨value, rfl, rfl⟩ := Option.map_eq_some_iff.mp written
    exact .inr ⟨key, value, remaining_subset _ _ entry, rfl⟩

/-- A line that is written has no carriage return. -/
theorem return_notMem_formatLine {key value : List Char} (readable : ReadableKey key)
    (writable : WritableValue value) : '\r' ∉ formatLine key value := by
  have noKey : '\r' ∉ key := fun member => absurd (readable.2.1 _ member).2.2 (by decide)
  have noEscape : '\r' ∉ escaped value := fun member =>
    (mem_escaped member).elim (by decide) writable.1
  rw [formatLine]
  split
  · simp [noKey, noEscape]
  · simp [noKey, writable.1]

/-- Lines that assign no given key are kept in their order. -/
theorem otherLines_sublist (given : ∀ entry ∈ remaining, values.Gives entry.1)
    (lines : List (List Char)) :
    (lines.filter fun line => ¬values.Assigns line).Sublist (updateLines lines remaining).1 := by
  induction lines generalizing remaining with
  | nil => exact List.Sublist.slnil
  | cons line rest ih =>
      cases found : entryOf line remaining with
      | none =>
          rw [updateLines, found, List.filter_cons]
          split
          · exact (ih given).cons_cons line
          · exact (ih given).cons line
      | some entry =>
          obtain ⟨key, value⟩ := entry
          obtain ⟨assigned, inside⟩ := entryOf_eq_some found
          have assigns : values.Assigns line := ⟨key, assigned, given _ inside⟩
          rw [updateLines_cons found, List.filter_cons_of_neg (by simpa using assigns)]
          exact (ih fun entry member => given entry (List.mem_of_mem_eraseP member)).trans
            (List.sublist_append_right _ _)

end Written

/-! ## The update -/

section Update

variable {read : List Char → List (List Char × Option (List Char))} {values : EnvValues}
  {file : List Char}

theorem updateEnvFile_some (file : List Char) (values : EnvValues) :
    updateEnvFile (some file) values =
      joinLines (updatedLines (splitLines (universalNewlines file)) values) ++ ['\n'] := rfl

/-- The written file has no line breaks of another kind. -/
theorem universalNewlines_updateEnvFile (regular : Regular read values (universalNewlines file)) :
    universalNewlines (updateEnvFile (some file) values) = updateEnvFile (some file) values := by
  refine universalNewlines_eq_self fun member => ?_
  rw [updateEnvFile_some] at member
  rcases List.mem_append.mp member with inside | final
  · obtain ⟨line, among, letter⟩ := mem_joinLines inside (by decide)
    rcases mem_updatedLines among with old | ⟨key, value, entry, rfl⟩
    · exact return_notMem_universalNewlines file
        ((infix_of_mem_splitLines old).subset letter)
    · obtain ⟨readable, writable⟩ := regular.writable key value entry
      exact return_notMem_formatLine readable writable letter
  · exact absurd (List.mem_singleton.mp final) (by decide)

/-- A final newline does not matter to a reader. -/
theorem read_joinLines (reader : EnvReader read) (lines : List (List Char)) :
    read (joinLines lines ++ ['\n']) = read (endedLines lines) := by
  cases lines with
  | nil => exact reader.ends []
  | cons line rest => rw [joinLines_newline (List.cons_ne_nil _ _)]

theorem read_splitLines (reader : EnvReader read) {text : List Char}
    (newlines : ∀ c ∈ text, isLineBreak c = true → c = '\n') :
    read (endedLines (splitLines text)) = read text := by
  rcases flatMap_splitLinesFrom newlines [] with same | same
  · rw [endedLines, splitLines, same, List.nil_append]
  · rw [endedLines, splitLines, same, List.nil_append, reader.ends]

/-- All given values remain before the first line. -/
theorem remaining_entries (regular : Regular read values (universalNewlines file)) :
    Remaining values values.entries :=
  ⟨values.distinct, fun _ member => List.mem_map_of_mem member, regular.writable⟩

/-- What a reader finds in the written file. -/
theorem read_updateEnvFile (reader : EnvReader read)
    (regular : Regular read values (universalNewlines file))
    {blocks : List (List (List Char))}
    (lines : splitLines (universalNewlines file) = blocks.flatten)
    (alone : ∀ block ∈ blocks, ReadAlone read values block) :
    read (universalNewlines (updateEnvFile (some file) values)) =
      newReadings read blocks values.entries := by
  rw [universalNewlines_updateEnvFile regular, updateEnvFile_some, read_joinLines reader,
    updatedLines, lines]
  exact read_updateLines reader alone (remaining_entries regular)

/-- The other lines of the file are lines of the written file. -/
theorem otherLines_kept (file : List Char)
    (given : ∀ entry ∈ values.entries, values.Gives entry.1) :
    ((splitLines (universalNewlines file)).filter fun line => ¬values.Assigns line).Sublist
      (splitLines (updateEnvFile (some file) values)) := by
  have kept := (otherLines_sublist given (splitLines (universalNewlines file))).trans
    (List.sublist_append_left _
      (addedLines (updateLines (splitLines (universalNewlines file)) values.entries).2))
  change List.Sublist _ (updatedLines (splitLines (universalNewlines file)) values) at kept
  rw [updateEnvFile_some]
  by_cases empty : updatedLines (splitLines (universalNewlines file)) values = []
  · rw [empty] at kept
    rw [List.sublist_nil.mp kept]
    exact List.nil_sublist _
  · rw [joinLines_newline empty]
    exact sublist_splitLines (fun line member => oneLine_of_mem_splitLinesFrom
      (by simp [OneLine]) (List.mem_of_mem_filter member)) kept

/-- In a file that is read in blocks, an update does what it is for exactly when nothing else
is assigned to the given keys. -/
theorem updated_iff (reader : EnvReader read)
    (regular : Regular read values (universalNewlines file)) :
    Updated read values (universalNewlines file)
        (universalNewlines (updateEnvFile (some file) values)) ↔
      NotReassigned read values (splitLines (universalNewlines file)) := by
  obtain ⟨blocks, lines, alone⟩ := regular.blocks
  have left := remaining_entries regular
  have after := read_updateEnvFile reader regular lines alone
  have before : read (universalNewlines file) =
      blocks.flatMap fun block => read (endedLines block) := by
    rw [← read_splitLines reader regular.newlines, lines,
      read_pieces reader.empty fun block member => (alone block member).whole]
  constructor
  · intro updated
    refine ⟨fun key value entry found behind => ?_, fun key entry binding besides same => ?_⟩
    · have now := updated.given key value entry
      rw [after, stored_newReadings reader alone left entry, ← lines, behind] at now
      exact Option.some.inj now
    · have removed := filter_newReadings_removed reader alone left entry
      rw [← after, ← lines] at removed
      exact updated.removed key entry binding
        ((mem_iff_of_filter_eq removed (decide_eq_true same)).mpr besides) same
  · intro quiet
    refine ⟨fun key value entry => ?_, fun key entry binding member same => ?_, ?_, ?_⟩
    · rw [after, stored_newReadings reader alone left entry, ← lines]
      cases behind : LastWrite.stored
          (read (endedLines (linesBehind key (splitLines (universalNewlines file))))) key with
      | none => rfl
      | some found => rw [quiet.given key value entry found behind, Option.getD_some]
    · have removed := filter_newReadings_removed reader alone left entry
      rw [← after, ← lines] at removed
      exact quiet.removed key entry binding
        ((mem_iff_of_filter_eq removed (decide_eq_true same)).mp member) same
    · rw [after, before]
      exact filter_newReadings (fun key => ¬values.Gives key) alone left
        fun entry member => not_not_intro (left.given entry member)
    · rw [universalNewlines_updateEnvFile regular]
      exact otherLines_kept file left.given

/-- **Updating the file.** Where a reader reads the lines of the file by themselves and the
given values can be written, an update does what it is for exactly when no other value is
assigned to a given key behind its first line, and a removed key is not assigned besides it. -/
theorem update_env_file_iff (reader : EnvReader read) (file : List Char) (values : EnvValues) :
    (Regular read values (universalNewlines file) ∧
        NotReassigned read values (splitLines (universalNewlines file)) →
      Updated read values (universalNewlines file)
        (universalNewlines (updateEnvFile (some file) values))) ∧
    (Regular read values (universalNewlines file) ∧
        Updated read values (universalNewlines file)
          (universalNewlines (updateEnvFile (some file) values)) →
      NotReassigned read values (splitLines (universalNewlines file))) :=
  ⟨fun ⟨regular, quiet⟩ => (updated_iff reader regular).mpr quiet,
    fun ⟨regular, updated⟩ => (updated_iff reader regular).mp updated⟩

end Update

/-! ## Saved settings -/

/-- The file of the settings page: a comment, a port and an endpoint. -/
def savedEnv : List Char :=
  "# comment\nRENTAL_DB_PORT=5433\nRENTAL_PROVIDER_LLM_BASE_URL=old\n".toList

/-- The endpoint is removed, and a key is added that has to be quoted. -/
def savedValues : EnvValues where
  entries := [("RENTAL_PROVIDER_LLM_BASE_URL".toList, none),
    ("RENTAL_PROVIDER_OPENAI_API_KEY".toList, some "sk test".toList)]
  distinct := by decide

/-- The saved file meets the conditions on regular files. -/
theorem savedEnv_regular : Regular scanEnv savedValues (universalNewlines savedEnv) where
  newlines c member boundary := by
    have breaks : ((universalNewlines savedEnv).all fun c =>
        !isLineBreak c || c = '\n') = true := by decide +kernel
    simpa [boundary] using List.all_eq_true.mp breaks c member
  blocks := by
    refine ⟨[["# comment".toList], ["RENTAL_DB_PORT=5433".toList],
      ["RENTAL_PROVIDER_LLM_BASE_URL=old".toList]], by decide +kernel, ?_⟩
    simp only [List.forall_mem_cons, List.not_mem_nil, false_implies, implies_true, and_true]
    exact ⟨readAlone_of_scan (by decide +kernel) (by decide +kernel),
      readAlone_of_scan (by decide +kernel) (by decide +kernel),
      readAlone_of_scan (by decide +kernel) (by decide +kernel)⟩
  writable key value member := by
    have entry : key = "RENTAL_PROVIDER_OPENAI_API_KEY".toList ∧ value = "sk test".toList := by
      simpa [savedValues] using member
    obtain ⟨rfl, rfl⟩ := entry
    have letters : ("RENTAL_PROVIDER_OPENAI_API_KEY".toList.all fun c =>
        c ≠ '=' ∧ c ≠ '#' ∧ isSpace c = false) = true := by decide +kernel
    exact ⟨⟨by decide, fun c inside => of_decide_eq_true (List.all_eq_true.mp letters c inside),
      by decide⟩, by decide, by decide +kernel, by decide⟩

/-- The saved file assigns no updated key twice. -/
theorem savedEnv_notReassigned :
    NotReassigned scanEnv savedValues (splitLines (universalNewlines savedEnv)) where
  given key value member found behind := by
    have entry : key = "RENTAL_PROVIDER_OPENAI_API_KEY".toList ∧ value = "sk test".toList := by
      simpa [savedValues] using member
    obtain ⟨rfl, rfl⟩ := entry
    have none : LastWrite.stored (scanEnv (endedLines (linesBehind
        "RENTAL_PROVIDER_OPENAI_API_KEY".toList (splitLines (universalNewlines savedEnv)))))
          "RENTAL_PROVIDER_OPENAI_API_KEY".toList = none := by decide +kernel
    cases none.symm.trans behind
  removed key member := by
    have entry : key = "RENTAL_PROVIDER_LLM_BASE_URL".toList := by
      simpa [savedValues] using member
    subst entry
    decide +kernel

/-- The settings are saved as they were entered. -/
theorem update_env_file_savedEnv :
    Updated scanEnv savedValues (universalNewlines savedEnv)
      (universalNewlines (updateEnvFile (some savedEnv) savedValues)) :=
  (update_env_file_iff scanEnv_reader savedEnv savedValues).1
    ⟨savedEnv_regular, savedEnv_notReassigned⟩

/-- A new key for a file that assigns the key twice. -/
def renewedKey : EnvValues where
  entries := [("API_KEY".toList, some "new".toList)]
  distinct := by decide

/-- A second line of a key keeps its old value in force. -/
theorem second_assignment_stays :
    LastWrite.stored (scanEnv (universalNewlines
        (updateEnvFile (some "API_KEY=old\nAPI_KEY=older\n".toList) renewedKey)))
        "API_KEY".toList = some (some "older".toList) ∧
      ¬Updated scanEnv renewedKey (universalNewlines "API_KEY=old\nAPI_KEY=older\n".toList)
        (universalNewlines
          (updateEnvFile (some "API_KEY=old\nAPI_KEY=older\n".toList) renewedKey)) := by
  have stays : LastWrite.stored (scanEnv (universalNewlines
      (updateEnvFile (some "API_KEY=old\nAPI_KEY=older\n".toList) renewedKey)))
      "API_KEY".toList = some (some "older".toList) := by decide +kernel
  refine ⟨stays, fun updated => ?_⟩
  have renewed := updated.given _ _ (List.mem_singleton.mpr rfl)
  rw [stays] at renewed
  exact absurd renewed (by decide)

end RentalAgent
