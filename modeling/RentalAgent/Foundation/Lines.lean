import Mathlib.Algebra.GroupWithZero.Nat
import Mathlib.Data.List.Infix
import Mathlib.Data.List.Nodup

/-! # Lines of a text

`splitlines` of the standard library on lists of characters. A text is split at more than
newlines, so lines that are joined by newlines are split into the same lines only if they have
no boundary in them (`splitLines_lines`); the number of the line that a place is in is the
number of boundaries before it (`countBreaks_lines`).
-/

namespace Lines

/-- The boundaries of `str.splitlines`. -/
def isLineBreak (c : Char) : Bool :=
  (10 ≤ c.toNat && c.toNat ≤ 13) || (28 ≤ c.toNat && c.toNat ≤ 30) || c.toNat = 0x85 ||
    c.toNat = 0x2028 || c.toNat = 0x2029

/-- `str.splitlines`, with the line so far. A carriage return and a newline are one boundary. -/
def splitLinesFrom (line : List Char) : List Char → List (List Char)
  | [] => if line = [] then [] else [line]
  | c :: rest =>
      if isLineBreak c then
        if c = '\r' ∧ rest.head? = some '\n' then splitLinesFrom line rest
        else line :: splitLinesFrom [] rest
      else splitLinesFrom (line ++ [c]) rest

/-- `str.splitlines`. -/
def splitLines (text : List Char) : List (List Char) := splitLinesFrom [] text

/-- `"\n".join`. -/
def joinLines (lines : List (List Char)) : List Char := ['\n'].intercalate lines

/-- How many boundaries a text has. -/
def countBreaks : List Char → Nat
  | [] => 0
  | c :: rest =>
      if isLineBreak c then
        if c = '\r' ∧ rest.head? = some '\n' then countBreaks rest else countBreaks rest + 1
      else countBreaks rest

/-- The number of the line that a place of a text is in. -/
def lineNumber (text : List Char) (place : Nat) : Nat := countBreaks (text.take place)

/-- A text on one line. -/
def OneLine (text : List Char) : Prop := ∀ c ∈ text, isLineBreak c = false

variable {line text rest : List Char}

theorem isLineBreak_newline : isLineBreak '\n' = true := rfl

@[simp] theorem splitLinesFrom_newline (line rest : List Char) :
    splitLinesFrom line ('\n' :: rest) = line :: splitLines rest := by
  rw [splitLinesFrom, if_pos isLineBreak_newline, if_neg fun both => absurd both.1 (by decide)]
  rfl

theorem oneLine_cons {c : Char} : OneLine (c :: text) ↔ isLineBreak c = false ∧ OneLine text :=
  List.forall_mem_cons

/-- A text on one line goes on with the line that was begun. -/
theorem splitLinesFrom_append (plain : OneLine text) (line rest : List Char) :
    splitLinesFrom line (text ++ rest) = splitLinesFrom (line ++ text) rest := by
  induction text generalizing line with
  | nil => rw [List.nil_append, List.append_nil]
  | cons c text following =>
      obtain ⟨here, others⟩ := oneLine_cons.mp plain
      rw [List.cons_append, splitLinesFrom, if_neg (by simp [here]), following others,
        List.append_assoc, List.singleton_append]

/-- A line that a newline ends is split off. -/
theorem splitLines_append_newline (plain : OneLine line) (rest : List Char) :
    splitLines (line ++ '\n' :: rest) = line :: splitLines rest := by
  rw [splitLines, splitLinesFrom_append plain, List.nil_append, splitLinesFrom_newline]

/-- A line that was begun is among the lines. -/
theorem splitLinesFrom_ne_nil (present : line ≠ []) : splitLinesFrom line text ≠ [] := by
  induction text generalizing line with
  | nil =>
      rw [splitLinesFrom, if_neg present]
      exact List.cons_ne_nil _ _
  | cons c text following =>
      rw [splitLinesFrom]
      split
      · split
        · exact following present
        · exact List.cons_ne_nil _ _
      · exact following (by simp)

/-- A text that is not empty has a line. -/
theorem splitLines_ne_nil (present : text ≠ []) : splitLines text ≠ [] := by
  obtain ⟨c, rest, rfl⟩ := List.exists_cons_of_ne_nil present
  rw [splitLines, splitLinesFrom]
  split
  · split
    · rename_i both
      obtain ⟨more, rfl⟩ := List.head?_eq_some_iff.mp both.2
      rw [splitLinesFrom_newline]
      exact List.cons_ne_nil _ _
    · exact List.cons_ne_nil _ _
  · exact splitLinesFrom_ne_nil (by simp)

/-- A line is what was read so far with the text up to a boundary, or a part of the text. -/
theorem mem_splitLinesFrom {front : List Char} (member : line ∈ splitLinesFrom front text) :
    (∃ start, OneLine start ∧ start <+: text ∧ line = front ++ start) ∨ line <:+: text := by
  induction text generalizing front with
  | nil =>
      rw [splitLinesFrom] at member
      split at member
      · cases member
      · rw [List.mem_singleton.mp member]
        exact .inl ⟨[], by simp [OneLine], List.nil_prefix, (List.append_nil _).symm⟩
  | cons c rest following =>
      rw [splitLinesFrom] at member
      split at member
      · split at member
        · rename_i both
          rcases following member with ⟨start, plain, starts, rfl⟩ | inside
          · obtain ⟨more, rfl⟩ := List.head?_eq_some_iff.mp both.2
            rcases List.prefix_cons_iff.mp starts with rfl | ⟨others, rfl, -⟩
            · exact .inl ⟨[], plain, List.nil_prefix, rfl⟩
            · cases isLineBreak_newline.symm.trans (oneLine_cons.mp plain).1
          · exact .inr (List.infix_cons inside)
        · rcases List.mem_cons.mp member with rfl | later
          · exact .inl ⟨[], by simp [OneLine], List.nil_prefix, (List.append_nil _).symm⟩
          · rcases following later with ⟨start, -, starts, rfl⟩ | inside
            · exact .inr (List.infix_cons starts.isInfix)
            · exact .inr (List.infix_cons inside)
      · rename_i letter
        rcases following member with ⟨start, plain, starts, rfl⟩ | inside
        · refine .inl ⟨c :: start, oneLine_cons.mpr ⟨by simpa using letter, plain⟩,
            List.cons_prefix_cons.mpr ⟨rfl, starts⟩, ?_⟩
          rw [List.append_assoc, List.singleton_append]
        · exact .inr (List.infix_cons inside)

/-- A line of a text is a part of it. -/
theorem infix_of_mem_splitLines (member : line ∈ splitLines text) : line <:+: text := by
  rcases mem_splitLinesFrom member with ⟨start, -, starts, rfl⟩ | inside
  · exact starts.isInfix
  · exact inside

/-- The lines of a text have no boundaries. -/
theorem oneLine_of_mem_splitLinesFrom {front : List Char} (plain : OneLine front)
    (member : line ∈ splitLinesFrom front text) : OneLine line := by
  induction text generalizing front with
  | nil =>
      rw [splitLinesFrom] at member
      split at member
      · cases member
      · exact List.mem_singleton.mp member ▸ plain
  | cons c rest ih =>
      rw [splitLinesFrom] at member
      split at member
      · split at member
        · exact ih plain member
        · rcases List.mem_cons.mp member with rfl | later
          · exact plain
          · exact ih (by simp [OneLine]) later
      · rename_i letter
        refine ih (fun d inside => ?_) member
        rcases List.mem_append.mp inside with before | here
        · exact plain d before
        · exact List.mem_singleton.mp here ▸ Bool.eq_false_iff.mpr letter

/-! ## Counting -/

@[simp] theorem countBreaks_newline (rest : List Char) :
    countBreaks ('\n' :: rest) = countBreaks rest + 1 := by
  rw [countBreaks, if_pos isLineBreak_newline, if_neg fun both => absurd both.1 (by decide)]

/-- A text without boundaries is on one line. -/
theorem countBreaks_eq_zero : countBreaks text = 0 ↔ OneLine text := by
  induction text with
  | nil => simp [countBreaks, OneLine]
  | cons c rest following =>
      rw [oneLine_cons, countBreaks]
      split
      · rename_i boundary
        split
        · rename_i both
          obtain ⟨more, rfl⟩ := List.head?_eq_some_iff.mp both.2
          simp [boundary]
        · simp [boundary]
      · rename_i letter
        rw [following]
        simp [letter]

/-- The boundaries of a text whose start does not end in the middle of one. -/
theorem countBreaks_append_newline (ends : line.getLast? ≠ some '\r') (rest : List Char) :
    countBreaks (line ++ '\n' :: rest) = countBreaks line + 1 + countBreaks rest := by
  induction line with
  | nil => rw [List.nil_append, countBreaks_newline, countBreaks, Nat.zero_add, Nat.add_comm]
  | cons c line following =>
      cases line with
      | nil =>
          have other : c ≠ '\r' := fun same => ends (by rw [same]; rfl)
          have alone : countBreaks [c] = if isLineBreak c then 1 else 0 := by
            simp [countBreaks]
          rw [List.cons_append, List.nil_append, alone, countBreaks, countBreaks_newline]
          simp only [other, false_and, if_false]
          split <;> omega
      | cons d line =>
          rw [List.getLast?_cons_cons] at ends
          have counted := following ends
          rw [List.cons_append, countBreaks, countBreaks, counted]
          have heads : (d :: line ++ '\n' :: rest).head? = (d :: line).head? := rfl
          rw [heads]
          split
          · split <;> omega
          · rfl

/-- The boundaries in lines that newlines end, and in what follows them. -/
theorem countBreaks_lines {lines : List (List Char)}
    (ends : ∀ line ∈ lines, line.getLast? ≠ some '\r') (rest : List Char) :
    countBreaks (lines.flatMap (· ++ ['\n']) ++ rest) =
      (lines.map countBreaks).sum + lines.length + countBreaks rest := by
  induction lines with
  | nil => simp
  | cons line lines following =>
      have counted := following fun other member => ends other (List.mem_cons_of_mem _ member)
      rw [List.flatMap_cons, List.append_assoc, List.append_assoc, List.singleton_append,
        countBreaks_append_newline (ends line List.mem_cons_self), counted, List.map_cons,
        List.sum_cons, List.length_cons]
      omega

/-- Lines without boundaries that newlines end are split off one by one. -/
theorem splitLines_lines {lines : List (List Char)} (plain : ∀ line ∈ lines, OneLine line)
    (rest : List Char) :
    splitLines (lines.flatMap (· ++ ['\n']) ++ rest) = lines ++ splitLines rest := by
  induction lines with
  | nil => rfl
  | cons line lines following =>
      rw [List.flatMap_cons, List.append_assoc, List.append_assoc, List.singleton_append,
        splitLines_append_newline (plain line List.mem_cons_self),
        following fun other member => plain other (List.mem_cons_of_mem _ member)]
      rfl

/-- The lines of a text whose only boundaries are newlines make up the text, but for a newline
at its end. -/
theorem flatMap_splitLinesFrom (newlines : ∀ c ∈ text, isLineBreak c = true → c = '\n')
    (line : List Char) :
    (splitLinesFrom line text).flatMap (· ++ ['\n']) = line ++ text ∨
      (splitLinesFrom line text).flatMap (· ++ ['\n']) = line ++ text ++ ['\n'] := by
  induction text generalizing line with
  | nil =>
      rw [splitLinesFrom]
      split
      · rename_i empty
        exact .inl (by simp [empty])
      · exact .inr (by simp)
  | cons c rest following =>
      obtain ⟨here, others⟩ := List.forall_mem_cons.mp newlines
      by_cases boundary : isLineBreak c = true
      · obtain rfl := here boundary
        rw [splitLinesFrom_newline, List.flatMap_cons]
        refine (following others []).imp (fun same => ?_) fun same => ?_
        all_goals
          rw [splitLines, same]
          simp
      · rw [splitLinesFrom, if_neg boundary]
        simpa using following others (line ++ [c])

/-- What follows a newline is split by itself. -/
theorem splitLines_suffix (text rest line : List Char) :
    splitLines rest <:+ splitLinesFrom line (text ++ '\n' :: rest) := by
  induction text generalizing line with
  | nil =>
      rw [List.nil_append, splitLinesFrom_newline]
      exact List.suffix_cons _ _
  | cons c text following =>
      rw [List.cons_append, splitLinesFrom]
      split
      · split
        · exact following line
        · exact (following []).trans (List.suffix_cons _ _)
      · exact following _

/-- Joined lines, parted after some of them. -/
theorem joinLines_append {first second : List (List Char)} (present : second ≠ []) :
    joinLines (first ++ second) = first.flatMap (· ++ ['\n']) ++ joinLines second := by
  induction first with
  | nil => rfl
  | cons line first following =>
      have more : first ++ second ≠ [] := List.append_ne_nil_of_right_ne_nil _ present
      rw [joinLines] at following
      rw [joinLines, List.cons_append, List.intercalate_cons_of_ne_nil more, following,
        List.flatMap_cons, List.append_assoc, List.append_assoc, List.append_assoc]

/-- Joined lines begin with the first. -/
theorem prefix_of_joinLines (line : List Char) (rest : List (List Char)) :
    line <+: joinLines (line :: rest) := by
  cases rest with
  | nil =>
      rw [joinLines, List.intercalate_singleton]
  | cons next rest =>
      rw [joinLines, List.intercalate_cons_cons, List.append_assoc]
      exact List.prefix_append line _

/-- Joined lines are empty when there is none, or an empty one alone. -/
theorem joinLines_eq_nil {lines : List (List Char)} :
    joinLines lines = [] ↔ lines = [] ∨ lines = [[]] := by
  cases lines with
  | nil => simp [joinLines]
  | cons line rest =>
      cases rest with
      | nil => simp [joinLines]
      | cons next rest => simp [joinLines, List.intercalate_cons_cons]

/-- A character of joined lines that is no newline is in one of them. -/
theorem mem_joinLines {lines : List (List Char)} {c : Char} (member : c ∈ joinLines lines)
    (letter : c ≠ '\n') : ∃ line ∈ lines, c ∈ line := by
  induction lines with
  | nil => cases member
  | cons line rest following =>
      cases rest with
      | nil => exact ⟨line, List.mem_cons_self, by simpa [joinLines] using member⟩
      | cons next rest =>
          rw [joinLines, List.intercalate_cons_cons, List.mem_append, List.mem_append] at member
          rcases member with (here | between) | later
          · exact ⟨line, List.mem_cons_self, here⟩
          · exact absurd (List.mem_singleton.mp between) letter
          · obtain ⟨other, among, inside⟩ := following later
            exact ⟨other, List.mem_cons_of_mem _ among, inside⟩

/-- Joined lines up to a place in one of them. -/
theorem prefix_of_joinLines_drop {lines : List (List Char)} {number : Nat} {front : List Char}
    (present : lines[number]? = some line) (starts : front <+: line) :
    (lines.take number).flatMap (· ++ ['\n']) ++ front <+: joinLines lines := by
  obtain ⟨within, rfl⟩ := List.getElem?_eq_some_iff.mp present
  have rest : lines.drop number ≠ [] := by
    rw [Ne, List.drop_eq_nil_iff]
    omega
  conv_rhs => rw [← List.take_append_drop number lines, joinLines_append rest]
  refine (List.prefix_append_right_inj _).mpr (starts.trans ?_)
  rw [List.drop_eq_getElem_cons within]
  exact prefix_of_joinLines _ _

end Lines
