import RentalAgent.Canonical.Fingerprint
import RentalAgent.Foundation.Assignments

/-! # The local environment file

`update_env_file` rewrites the file line by line: the first line that assigns a given key is
replaced or dropped, every other line is kept, and the keys without a line are added at the
end. A reader takes the last assignment of a key, so that a later line of the same key, or one
that assigns it in another form, keeps its old value in force. What a reader does is stated by
rules (`EnvReader`), and a line that is written for a value that can be written on a line is
read back by them (`read_formatLine`).
-/

namespace RentalAgent

open Assignments Lines

/-! ## Writing -/

/-- `_QUOTE_TRIGGERS`. -/
def quoteTriggers : List Char := [' ', '#', '"', Char.ofNat 39]

/-- `str.replace` of a character. -/
def replaceChar (c : Char) (replacement text : List Char) : List Char :=
  text.flatMap fun d => if d = c then replacement else [d]

/-- A value between double quotes: its backslashes and then its double quotes are escaped. -/
def escaped (value : List Char) : List Char :=
  replaceChar '"' ['\\', '"'] (replaceChar '\\' ['\\', '\\'] value)

/-- `_format_line`. -/
def formatLine (key value : List Char) : List Char :=
  if value.any quoteTriggers.contains then key ++ ['=', '"'] ++ escaped value ++ ['"']
  else key ++ '=' :: value

/-- The given values: each key once, with a value or `None`. -/
structure EnvValues where
  entries : List (List Char × Option (List Char))
  distinct : (entries.map Prod.fst).Nodup

/-- The key that a line assigns, as the rewriter sees it. -/
def assignedKey (line : List Char) : Option (List Char) :=
  let stripped := strip line
  let key := if '=' ∈ stripped then strip (stripped.takeWhile (· ≠ '=')) else []
  if key ≠ [] ∧ stripped.head? ≠ some '#' then some key else none

/-- The entry of the remaining values that a line is replaced by. -/
def entryOf (line : List Char) (remaining : List (List Char × Option (List Char))) :
    Option (List Char × Option (List Char)) :=
  (assignedKey line).bind fun key => remaining.find? fun entry => entry.1 = key

/-- The loop over the lines: the lines of the output, and the values that remain. -/
def updateLines : List (List Char) → List (List Char × Option (List Char)) →
    List (List Char) × List (List Char × Option (List Char))
  | [], remaining => ([], remaining)
  | line :: rest, remaining =>
      match entryOf line remaining with
      | some (key, value) =>
          let (output, left) := updateLines rest (remaining.eraseP fun entry => entry.1 = key)
          ((value.map (formatLine key)).toList ++ output, left)
      | none =>
          let (output, left) := updateLines rest remaining
          (line :: output, left)

/-- The lines of the remaining values. -/
def addedLines (remaining : List (List Char × Option (List Char))) : List (List Char) :=
  remaining.filterMap fun entry => entry.2.map (formatLine entry.1)

/-- Reading a file as text: a carriage return is a newline, and so is one with a newline. -/
def universalNewlines : List Char → List Char
  | [] => []
  | c :: rest =>
      if c = '\r' then
        if rest.head? = some '\n' then universalNewlines rest else '\n' :: universalNewlines rest
      else c :: universalNewlines rest

/-- The lines of `update_env_file`. -/
def updatedLines (lines : List (List Char)) (values : EnvValues) : List (List Char) :=
  let (output, remaining) := updateLines lines values.entries
  output ++ addedLines remaining

/-- `update_env_file`: what it writes for a file that may not exist yet. -/
def updateEnvFile (file : Option (List Char)) (values : EnvValues) : List Char :=
  let lines := match file with
    | some file => splitLines (universalNewlines file)
    | none => []
  joinLines (updatedLines lines values) ++ ['\n']

/-! ## Reading -/

/-- What a backslash and a character stand for in a double-quoted value. -/
def unescapeChar (c : Char) : Option Char :=
  if c = '\\' ∨ c = '"' ∨ c = Char.ofNat 39 then some c
  else if c = 'a' then some (Char.ofNat 7)
  else if c = 'b' then some (Char.ofNat 8)
  else if c = 'f' then some (Char.ofNat 12)
  else if c = 'n' then some '\n'
  else if c = 'r' then some '\r'
  else if c = 't' then some '\t'
  else if c = 'v' then some (Char.ofNat 11)
  else none

/-- A double-quoted value, decoded. -/
def unescape : List Char → List Char
  | [] => []
  | [c] => [c]
  | c :: d :: rest =>
      match if c = '\\' then unescapeChar d else none with
      | some decoded => decoded :: unescape rest
      | none => c :: unescape (d :: rest)

/-- A name in braces after a dollar sign, or one with a default. -/
def startsVariable : List Char → Bool
  | '$' :: '\x7b' :: rest =>
      match rest.dropWhile fun c => c ≠ '\x7d' && c ≠ ':' with
      | '\x7d' :: _ => true
      | ':' :: '-' :: default => default.contains '\x7d'
      | _ => false
  | _ => false

/-- The text refers to a variable. -/
def hasVariable (text : List Char) : Bool := text.tails.any startsVariable

/-- Every double quote follows a backslash, where the text follows one or not. -/
def escapesQuotes : Bool → List Char → Bool
  | _, [] => true
  | escaped, c :: rest => (c ≠ '"' || escaped) && escapesQuotes (c = '\\') rest

/-- A key that is written as it is. -/
def ReadableKey (key : List Char) : Prop :=
  key ≠ [] ∧ (∀ c ∈ key, c ≠ '=' ∧ c ≠ '#' ∧ isSpace c = false) ∧
    key.head? ≠ some (Char.ofNat 39)

/-- A value that is written as it is. -/
def PlainValue (value : List Char) : Prop :=
  (∀ c ∈ value, c ∉ quoteTriggers ∧ c ≠ '\n' ∧ c ≠ '\r') ∧
    (∀ c ∈ value.head?, isSpace c = false) ∧ (∀ c ∈ value.getLast?, isSpace c = false) ∧
    hasVariable value = false

/-- The body of a double-quoted value that ends with its closing quote. -/
def QuotedBody (body : List Char) : Prop :=
  escapesQuotes false body = true ∧ body.getLast? ≠ some '\\' ∧ '\r' ∉ body ∧
    hasVariable (unescape body) = false

/-- What a reader of environment files does: a final newline does not matter, and a line with
a plain or a double-quoted value that refers to no variable assigns this value, whatever
follows it. -/
structure EnvReader (read : List Char → List (List Char × Option (List Char))) : Prop where
  empty : read [] = []
  ends : ∀ text, read (text ++ ['\n']) = read text
  plain : ∀ key value rest, ReadableKey key → PlainValue value →
    read (key ++ '=' :: value ++ '\n' :: rest) = (key, some value) :: read rest
  quoted : ∀ key body rest, ReadableKey key → QuotedBody body →
    read (key ++ ['=', '"'] ++ body ++ '"' :: '\n' :: rest) =
      (key, some (unescape body)) :: read rest

/-! ## What an update is for -/

variable (read : List Char → List (List Char × Option (List Char)))

/-- The key is one of the given ones. -/
def EnvValues.Gives (values : EnvValues) (key : List Char) : Prop :=
  key ∈ values.entries.map Prod.fst

instance (values : EnvValues) (key : List Char) : Decidable (values.Gives key) :=
  inferInstanceAs (Decidable (_ ∈ _))

/-- The line assigns a given key, as the rewriter sees it. -/
def EnvValues.Assigns (values : EnvValues) (line : List Char) : Prop :=
  ∃ key ∈ assignedKey line, values.Gives key

instance (values : EnvValues) (line : List Char) : Decidable (values.Assigns line) :=
  inferInstanceAs (Decidable (∃ key ∈ assignedKey line, _))

/-- A reader finds the given values and no others for the given keys; the other keys and the
other lines are as they were. -/
structure Updated (values : EnvValues) (before after : List Char) : Prop where
  given : ∀ key value, (key, some value) ∈ values.entries →
    LastWrite.stored (read after) key = some (some value)
  removed : ∀ key, (key, none) ∈ values.entries → ∀ binding ∈ read after, binding.1 ≠ key
  others : ((read after).filter fun binding => ¬values.Gives binding.1) =
    (read before).filter fun binding => ¬values.Gives binding.1
  lines : ((splitLines before).filter fun line => ¬values.Assigns line).Sublist (splitLines after)

/-- Lines that a reader reads by themselves; a line of a given key stands alone, and a reader
finds no other key in it. -/
structure ReadAlone (values : EnvValues) (block : List (List Char)) : Prop where
  whole : Whole read (endedLines block)
  alone : ∀ line ∈ block, values.Assigns line → block = [line]
  binds : ∀ line ∈ block, ∀ key ∈ assignedKey line, values.Gives key →
    ∀ binding ∈ read (endedLines block), binding.1 = key

/-- A value that can be written on a line. -/
def WritableValue (value : List Char) : Prop :=
  '\r' ∉ value ∧ hasVariable value = false ∧
    if value.any quoteTriggers.contains then value.getLast? ≠ some '\\'
    else '\n' ∉ value ∧ (∀ c ∈ value.head?, isSpace c = false) ∧
      ∀ c ∈ value.getLast?, isSpace c = false

/-- The text has no line breaks but newlines, a reader reads it in blocks of lines, and the
given values can be written. -/
structure Regular (values : EnvValues) (text : List Char) : Prop where
  newlines : ∀ c ∈ text, isLineBreak c = true → c = '\n'
  blocks : ∃ blocks : List (List (List Char)), splitLines text = blocks.flatten ∧
    ∀ block ∈ blocks, ReadAlone read values block
  writable : ∀ key value, (key, some value) ∈ values.entries →
    ReadableKey key ∧ WritableValue value

/-- The lines behind the first one of a key. -/
def linesBehind (key : List Char) (lines : List (List Char)) : List (List Char) :=
  (lines.dropWhile fun line => assignedKey line ≠ some key).tail

/-- The lines besides the first one of a key. -/
def linesBesides (key : List Char) (lines : List (List Char)) : List (List Char) :=
  lines.eraseP fun line => assignedKey line = some key

/-- Behind the first line of a key no other value is assigned to it, and besides that of a
removed key there is no assignment. -/
structure NotReassigned (values : EnvValues) (lines : List (List Char)) : Prop where
  given : ∀ key value, (key, some value) ∈ values.entries → ∀ found,
    LastWrite.stored (read (endedLines (linesBehind key lines))) key = some found →
      found = some value
  removed : ∀ key, (key, none) ∈ values.entries →
    ∀ binding ∈ read (endedLines (linesBesides key lines)), binding.1 ≠ key

/-! ## Written values -/

section Escapes

variable {c : Char} {value rest : List Char}

theorem escaped_append (first second : List Char) :
    escaped (first ++ second) = escaped first ++ escaped second := by
  simp only [escaped, replaceChar, List.flatMap_append]

/-- Escaping goes letter by letter. -/
theorem escaped_cons (c : Char) (rest : List Char) :
    escaped (c :: rest) = (if c = '\\' ∨ c = '"' then ['\\', c] else [c]) ++ escaped rest := by
  rw [← List.singleton_append, escaped_append]
  congr 1
  by_cases backslash : c = '\\'
  · subst backslash
    rfl
  · by_cases quote : c = '"'
    · subst quote
      rfl
    · simp [escaped, replaceChar, backslash, quote]

theorem unescape_cons_of_ne (plain : c ≠ '\\') (rest : List Char) :
    unescape (c :: rest) = c :: unescape rest := by
  cases rest with
  | nil => rfl
  | cons d rest => rw [unescape, if_neg plain]

/-- What is escaped is decoded again. -/
@[simp] theorem unescape_escaped (value : List Char) : unescape (escaped value) = value := by
  induction value with
  | nil => rfl
  | cons c rest ih =>
      rw [escaped_cons]
      split
      · rename_i special
        have decoded : unescapeChar c = some c := by
          rw [unescapeChar, if_pos (special.imp_right .inl)]
        rw [List.cons_append, List.singleton_append, unescape, if_pos rfl, decoded]
        simp only [ih]
      · rename_i letter
        rw [List.singleton_append, unescape_cons_of_ne (fun same => letter (.inl same)), ih]

/-- An escaped value has no bare quote in it. -/
theorem escapesQuotes_escaped (before : Bool) (value : List Char) :
    escapesQuotes before (escaped value) = true := by
  induction value generalizing before with
  | nil => rfl
  | cons c rest ih =>
      rw [escaped_cons]
      split
      · simp [escapesQuotes, ih]
      · rename_i letter
        rw [not_or] at letter
        simp [escapesQuotes, ih, letter.2]

/-- Escaping adds backslashes only. -/
theorem mem_escaped (member : c ∈ escaped value) : c = '\\' ∨ c ∈ value := by
  induction value with
  | nil => cases member
  | cons d rest ih =>
      rw [escaped_cons, List.mem_append] at member
      rcases member with here | later
      · split at here
        · simp only [List.mem_cons, List.not_mem_nil, or_false] at here
          exact here.imp_right fun same => List.mem_cons.mpr (.inl same)
        · exact .inr (List.mem_cons.mpr (.inl (List.mem_singleton.mp here)))
      · exact (ih later).imp_right (List.mem_cons_of_mem _)

theorem getLast?_escaped (value : List Char) : (escaped value).getLast? = value.getLast? := by
  induction value using List.reverseRecOn with
  | nil => rfl
  | append_singleton front c ih =>
      rw [escaped_append, escaped_cons]
      split <;> simp [escaped, replaceChar]

/-- A line that is written for a key is read by itself, and assigns the value. -/
theorem read_formatLine {read : List Char → List (List Char × Option (List Char))}
    (reader : EnvReader read) {key : List Char} (readable : ReadableKey key)
    (writable : WritableValue value) (rest : List Char) :
    read (formatLine key value ++ '\n' :: rest) = (key, some value) :: read rest := by
  obtain ⟨noReturn, noVariable, ends⟩ := writable
  rw [formatLine]
  by_cases quoted : value.any quoteTriggers.contains = true
  · rw [if_pos quoted] at ends ⊢
    have body : QuotedBody (escaped value) := by
      refine ⟨escapesQuotes_escaped false value, by rwa [getLast?_escaped], fun member => ?_,
        by rwa [unescape_escaped]⟩
      exact (mem_escaped member).elim (by decide) noReturn
    have found := reader.quoted key (escaped value) rest readable body
    rw [unescape_escaped] at found
    rw [← found]
    simp
  · rw [if_neg quoted] at ends ⊢
    have letters : ∀ c ∈ value, c ∉ quoteTriggers ∧ c ≠ '\n' ∧ c ≠ '\r' := by
      intro c member
      refine ⟨fun trigger => quoted (List.any_eq_true.mpr ⟨c, member, by simpa using trigger⟩),
        fun same => ends.1 (same ▸ member), fun same => noReturn (same ▸ member)⟩
    exact reader.plain key value rest readable ⟨letters, ends.2.1, ends.2.2, noVariable⟩

end Escapes

end RentalAgent
