import Mathlib.Data.List.Basic

/-! # Comma-separated values

A writer that quotes a field only when it has to, and a reader that goes through the text one
character at a time. What a writer that did not quote line ends or did not double quotation
marks would lose is read back here: the reader finds the rows that were written, whatever their
fields are (`read_write`).
-/

namespace Csv

/-! ## Writing -/

/-- The characters for which a field is quoted. -/
def special (c : Char) : Bool := c = ',' || c = '"' || c = '\r' || c = '\n'

/-- Inside of quotation marks, a quotation mark is written twice. -/
def escape (field : List Char) : List Char :=
  field.flatMap fun c => if c = '"' then ['"', '"'] else [c]

/-- A field of a row. The only field of a row is quoted when it is empty, for else its row would
be an empty line. -/
def writeField (alone : Bool) (field : List Char) : List Char :=
  if field.any special || (alone && field.isEmpty) then '"' :: (escape field ++ ['"']) else field

/-- A row and the end of its line. -/
def writeRow (row : List (List Char)) : List Char :=
  [','].intercalate (row.map (writeField (row.length = 1))) ++ ['\r', '\n']

/-- The rows of a file. -/
def write (rows : List (List (List Char))) : List Char := rows.flatMap writeRow

/-! ## Reading -/

/-- Where the reader stands: at the start of a line, at the start of a field, in a field without
quotation marks, in one with them, behind a quotation mark in such a field, or behind a carriage
return. -/
inductive Mode
  | line | field | bare | quoted | closing | feed
  deriving DecidableEq

/-- What was read: the present field, the fields before it in the row, and the rows. -/
structure Reader where
  mode : Mode
  field : List Char
  row : List (List Char)
  rows : List (List (List Char))

namespace Reader

/-- The end of a field or of a row outside of quotation marks, or one more character. -/
def proceed (reader : Reader) (c : Char) : Reader :=
  if c = ',' then ⟨.field, [], reader.row ++ [reader.field], reader.rows⟩
  else if c = '\r' then ⟨.feed, [], [], reader.rows ++ [reader.row ++ [reader.field]]⟩
  else if c = '\n' then ⟨.line, [], [], reader.rows ++ [reader.row ++ [reader.field]]⟩
  else { reader with mode := .bare, field := reader.field ++ [c] }

/-- The first character of a field. -/
def openField (reader : Reader) (c : Char) : Reader :=
  if c = '"' then { reader with mode := .quoted } else reader.proceed c

/-- The first character of a line; an empty line is a row without fields. -/
def openLine (reader : Reader) (c : Char) : Reader :=
  if c = '\r' then ⟨.feed, [], [], reader.rows ++ [[]]⟩
  else if c = '\n' then ⟨.line, [], [], reader.rows ++ [[]]⟩
  else reader.openField c

/-- One more character. -/
def advance (reader : Reader) (c : Char) : Reader :=
  match reader.mode with
  | .line => reader.openLine c
  | .field => reader.openField c
  | .bare => reader.proceed c
  | .quoted =>
      if c = '"' then { reader with mode := .closing }
      else { reader with field := reader.field ++ [c] }
  | .closing =>
      if c = '"' then { reader with mode := .quoted, field := reader.field ++ [c] }
      else reader.proceed c
  | .feed => if c = '\n' then { reader with mode := .line } else reader.openLine c

/-- The rows, once the text has ended. -/
def finish (reader : Reader) : List (List (List Char)) :=
  match reader.mode with
  | .line | .feed => reader.rows
  | _ => reader.rows ++ [reader.row ++ [reader.field]]

end Reader

/-- The rows of a text. -/
def read (text : List Char) : List (List (List Char)) :=
  (text.foldl Reader.advance ⟨.line, [], [], []⟩).finish

/-! ## Reading what was written -/

section RoundTrip

variable {field front : List Char} {row fields : List (List Char)}
  {rows : List (List (List Char))} {mode : Mode}

/-- A bare field is read as it was written. -/
theorem foldl_bare (plain : ∀ c ∈ field, special c = false) :
    field.foldl Reader.advance ⟨.bare, front, row, rows⟩ =
      ⟨.bare, front ++ field, row, rows⟩ := by
  induction field generalizing front with
  | nil => simp
  | cons c rest ih =>
      obtain ⟨here, later⟩ := List.forall_mem_cons.mp plain
      have apart : ¬c = ',' ∧ ¬c = '"' ∧ ¬c = '\r' ∧ ¬c = '\n' := by
        simpa [special, and_assoc] using here
      have step : Reader.advance ⟨.bare, front, row, rows⟩ c =
          ⟨.bare, front ++ [c], row, rows⟩ := by
        simp [Reader.advance, Reader.proceed, apart]
      rw [List.foldl_cons, step, ih later, List.append_assoc]
      rfl

/-- Between quotation marks every field is read as it is. -/
theorem foldl_escape :
    (escape field).foldl Reader.advance ⟨.quoted, front, row, rows⟩ =
      ⟨.quoted, front ++ field, row, rows⟩ := by
  induction field generalizing front with
  | nil => simp [escape]
  | cons c rest ih =>
      have split : escape (c :: rest) = (if c = '"' then ['"', '"'] else [c]) ++ escape rest := rfl
      have step : (if c = '"' then ['"', '"'] else [c]).foldl Reader.advance
          ⟨.quoted, front, row, rows⟩ = ⟨.quoted, front ++ [c], row, rows⟩ := by
        by_cases mark : c = '"'
        · subst mark
          rfl
        · simp [mark, Reader.advance]
      rw [split, List.foldl_append, step, ih, List.append_assoc]
      rfl

/-- The reader stands in a row or at its start, behind what may be a whole field. -/
def Mode.pausing : Mode → Bool
  | .line | .field | .bare | .closing => true
  | _ => false

theorem advance_comma (pausing : mode.pausing = true) :
    Reader.advance ⟨mode, field, row, rows⟩ ',' = ⟨.field, [], row ++ [field], rows⟩ := by
  cases mode <;> first | rfl | cases pausing

theorem foldl_lineEnd (pausing : mode.pausing = true) (inside : mode ≠ .line) :
    ['\r', '\n'].foldl Reader.advance ⟨mode, field, row, rows⟩ =
      ⟨.line, [], [], rows ++ [row ++ [field]]⟩ := by
  cases mode <;> first | rfl | exact absurd rfl inside | cases pausing

/-- A written field is read; the reader is past the start of the row unless nothing was
written there. -/
theorem foldl_writeField (starts : mode = .line ∨ mode = .field) (alone : Bool)
    (field : List Char) (row : List (List Char)) (rows : List (List (List Char))) :
    ∃ after : Mode, (writeField alone field).foldl Reader.advance ⟨mode, [], row, rows⟩ =
      ⟨after, field, row, rows⟩ ∧ after.pausing = true ∧
        (mode = .field ∨ alone = true → after ≠ .line) := by
  unfold writeField
  split
  · refine ⟨.closing, ?_, rfl, nofun⟩
    have opened : Reader.advance ⟨mode, [], row, rows⟩ '"' = ⟨.quoted, [], row, rows⟩ := by
      rcases starts with rfl | rfl <;> rfl
    rw [List.foldl_cons, opened, List.foldl_append, foldl_escape]
    rfl
  · rename_i bare
    simp only [Bool.or_eq_true, Bool.and_eq_true, not_or, List.any_eq_true, not_exists,
      not_and, Bool.not_eq_true, List.isEmpty_iff] at bare
    obtain ⟨plain, present⟩ := bare
    cases field with
    | nil =>
        refine ⟨mode, rfl, by rcases starts with rfl | rfl <;> rfl, ?_⟩
        rintro (rfl | rfl)
        · nofun
        · exact absurd rfl (present rfl)
    | cons c rest =>
        obtain ⟨here, later⟩ := List.forall_mem_cons.mp plain
        have apart : ¬c = ',' ∧ ¬c = '"' ∧ ¬c = '\r' ∧ ¬c = '\n' := by
          simpa [special, and_assoc] using here
        have step : Reader.advance ⟨mode, [], row, rows⟩ c = ⟨.bare, [c], row, rows⟩ := by
          rcases starts with rfl | rfl <;>
            simp [Reader.advance, Reader.openLine, Reader.openField, Reader.proceed, apart]
        refine ⟨.bare, ?_, rfl, nofun⟩
        rw [List.foldl_cons, step, foldl_bare later]
        rfl

/-- The fields of a row behind its first one, and the end of the line. -/
theorem foldl_fields (present : fields ≠ []) :
    ([','].intercalate (fields.map (writeField false)) ++ ['\r', '\n']).foldl Reader.advance
      ⟨.field, [], row, rows⟩ = ⟨.line, [], [], rows ++ [row ++ fields]⟩ := by
  induction fields generalizing row with
  | nil => exact absurd rfl present
  | cons field rest ih =>
      obtain ⟨after, read, pausing, inside⟩ :=
        foldl_writeField (.inr rfl : Mode.field = .line ∨ Mode.field = .field) false field row rows
      cases rest with
      | nil =>
          rw [List.map_singleton, List.intercalate_singleton, List.foldl_append, read,
            foldl_lineEnd pausing (inside (.inl rfl))]
      | cons next more =>
          rw [List.map_cons, List.map_cons, List.intercalate_cons_cons, List.append_assoc,
            List.append_assoc, List.foldl_append, read, List.singleton_append, List.foldl_cons,
            advance_comma pausing, ← List.map_cons, ih (List.cons_ne_nil next more),
            List.append_assoc]
          rfl

/-- A written row is read as one row. -/
theorem foldl_writeRow (row : List (List Char)) :
    (writeRow row).foldl Reader.advance ⟨.line, [], [], rows⟩ = ⟨.line, [], [], rows ++ [row]⟩ := by
  rcases row with - | ⟨field, - | ⟨next, more⟩⟩
  · rfl
  · obtain ⟨after, read, pausing, inside⟩ :=
      foldl_writeField (.inl rfl : Mode.line = .line ∨ Mode.line = .field) true field [] rows
    have single : writeRow [field] = writeField true field ++ ['\r', '\n'] := by
      simp [writeRow, List.intercalate_singleton]
    rw [single, List.foldl_append, read, foldl_lineEnd pausing (inside (.inr rfl))]
    rfl
  · obtain ⟨after, read, pausing, -⟩ :=
      foldl_writeField (.inl rfl : Mode.line = .line ∨ Mode.line = .field) false field [] rows
    have several : writeRow (field :: next :: more) = writeField false field ++ (',' ::
        ([','].intercalate ((next :: more).map (writeField false)) ++ ['\r', '\n'])) := by
      simp [writeRow, List.intercalate_cons_cons]
    rw [several, List.foldl_append, read, List.foldl_cons, advance_comma pausing,
      foldl_fields (List.cons_ne_nil next more)]
    rfl

/-- Reading what was written appends the rows to those read before. -/
theorem foldl_write (written : List (List (List Char))) :
    (write written).foldl Reader.advance ⟨.line, [], [], rows⟩ =
      ⟨.line, [], [], rows ++ written⟩ := by
  induction written generalizing rows with
  | nil => simp [write]
  | cons row rest ih =>
      have split : write (row :: rest) = writeRow row ++ write rest := rfl
      rw [split, List.foldl_append, foldl_writeRow, ih, List.append_assoc]
      rfl

/-- **Round trip.** The rows that were written are read. -/
theorem read_write (rows : List (List (List Char))) : read (write rows) = rows := by
  rw [read, foldl_write]
  exact List.nil_append rows

end RoundTrip

end Csv
