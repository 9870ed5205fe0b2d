import Mathlib.Data.List.DropRight
import RentalAgent.Config.EnvFile

/-! # A scanner of environment files

A reader that goes through a file character by character. It follows the rules of
`EnvReader` (`scanEnv_reader`), and a piece behind which a new line starts is read by itself
(`scanEnv_append`).
-/

namespace RentalAgent

open Assignments Lines

/-- Where a reader is in a file. -/
inductive ScanState
  | start
  | key (front : List Char)
  | equals (key : List Char)
  | plain (key front : List Char)
  | quoted (key front : List Char)
  | skip
  deriving DecidableEq

/-- A plain value: what stands before a comment, without white space around it. -/
def plainText (front : List Char) : List Char := strip (front.takeWhile (· ≠ '#'))

/-- One character of a file: the assignment that it ends, and what is read next. -/
def scanStep : ScanState → Char → List (List Char × Option (List Char)) × ScanState
  | .start, c => ([], if isSpace c then .start else if c = '#' then .skip else .key [c])
  | .key front, c =>
      if c = '=' then ([], .equals front)
      else if c = '\n' then ([(front, none)], .start)
      else ([], .key (front ++ [c]))
  | .equals key, c =>
      if c = '\n' then ([(key, some [])], .start)
      else if c = '"' then ([], .quoted key [])
      else ([], if isSpace c then .equals key else .plain key [c])
  | .plain key front, c =>
      if c = '\n' then ([(key, some (plainText front))], .start)
      else ([], .plain key (front ++ [c]))
  | .quoted key front, c =>
      if c = '"' ∧ front.getLast? ≠ some '\\' then ([(key, some (unescape front))], .skip)
      else ([], .quoted key (front ++ [c]))
  | .skip, c => ([], if c = '\n' then .start else .skip)

/-- The assignments that a text ends, and where a reader is behind it. -/
def scanFrom : ScanState → List Char → List (List Char × Option (List Char)) × ScanState
  | state, [] => ([], state)
  | state, c :: rest =>
      let (found, next) := scanStep state c
      let (later, last) := scanFrom next rest
      (found ++ later, last)

/-- The assignment that the end of a file ends. -/
def scanEnd : ScanState → List (List Char × Option (List Char))
  | .key front => [(front, none)]
  | .equals key => [(key, some [])]
  | .plain key front => [(key, some (plainText front))]
  | _ => []

/-- A reader of comments, plain values and double-quoted values. -/
def scanEnv (text : List Char) : List (List Char × Option (List Char)) :=
  (scanFrom .start text).1 ++ scanEnd (scanFrom .start text).2

section Scan

variable {state next : ScanState} {key front piece value : List Char}
  {found : List (List Char × Option (List Char))}

/-- A text is scanned piece by piece. -/
theorem scanFrom_append (state : ScanState) (piece rest : List Char) :
    scanFrom state (piece ++ rest) =
      ((scanFrom state piece).1 ++ (scanFrom (scanFrom state piece).2 rest).1,
        (scanFrom (scanFrom state piece).2 rest).2) := by
  induction piece generalizing state with
  | nil => rfl
  | cons c piece ih => simp only [List.cons_append, scanFrom, ih, List.append_assoc]

/-- A piece behind which a line starts is read by itself. -/
theorem scanEnv_append (alone : scanFrom .start piece = (found, .start)) (rest : List Char) :
    scanEnv (piece ++ rest) = found ++ scanEnv rest := by
  simp only [scanEnv, scanFrom_append, alone, List.append_assoc]

/-- A piece that a family of states takes letter by letter yields nothing. -/
theorem scanFrom_letters {states : List Char → ScanState}
    (letter : ∀ front, ∀ c ∈ piece, scanStep (states front) c = ([], states (front ++ [c])))
    (front : List Char) : scanFrom (states front) piece = ([], states (front ++ piece)) := by
  induction piece generalizing front with
  | nil => rw [List.append_nil]; rfl
  | cons c piece ih =>
      have later := ih (fun front d member => letter front d (List.mem_cons_of_mem _ member))
        (front ++ [c])
      simp only [scanFrom, letter front c List.mem_cons_self, later, List.append_assoc,
        List.singleton_append, List.nil_append]

/-- A piece without a bare quote stays inside the quotes. -/
theorem scanFrom_quoted (escapes : escapesQuotes (front.getLast? = some '\\') piece = true) :
    scanFrom (.quoted key front) piece = ([], .quoted key (front ++ piece)) := by
  induction piece generalizing front with
  | nil => rw [List.append_nil]; rfl
  | cons c piece ih =>
      rw [escapesQuotes, Bool.and_eq_true] at escapes
      have goesOn : ¬(c = '"' ∧ front.getLast? ≠ some '\\') := by
        simpa [imp_iff_not_or] using escapes.1
      have later := @ih (front ++ [c]) (by simpa using escapes.2)
      simp only [scanFrom, scanStep, if_neg goesOn, later, List.append_assoc,
        List.singleton_append, List.nil_append]

/-- A readable key is read up to the equals sign. -/
theorem scanFrom_key (readable : ReadableKey key) :
    scanFrom .start (key ++ ['=']) = ([], .equals key) := by
  obtain ⟨present, letters, -⟩ := readable
  obtain ⟨first, rest, rfl⟩ := List.exists_cons_of_ne_nil present
  obtain ⟨here, later⟩ := List.forall_mem_cons.mp letters
  have body : scanFrom (.key [first]) rest = ([], .key ([first] ++ rest)) :=
    scanFrom_letters (fun front c member => by
      obtain ⟨noEquals, -, noSpace⟩ := later c member
      have noNewline : c ≠ '\n' := fun same => by simp [same, isSpace] at noSpace
      simp [scanStep, noEquals, noNewline]) [first]
  have start : scanStep .start first = ([], .key [first]) := by simp [scanStep, here]
  rw [List.cons_append, scanFrom, start]
  simp only [scanFrom_append, body]
  simp [scanFrom, scanStep]

/-- A plain value is read as it stands. -/
theorem plainText_eq (plain : PlainValue value) : plainText value = value := by
  obtain ⟨letters, starts, ends, -⟩ := plain
  have whole : value.takeWhile (· ≠ '#') = value :=
    List.takeWhile_eq_self_iff.mpr fun c member => decide_eq_true fun same =>
      (letters c member).1 (by rw [same]; decide)
  have front : value.dropWhile isSpace = value := by
    cases value with
    | nil => rfl
    | cons c rest => exact List.dropWhile_cons_of_neg (by simp [starts c rfl])
  rw [plainText, whole, strip, front, List.rdropWhile_eq_self_iff]
  intro present
  rw [ends _ (List.getLast?_eq_some_getLast present)]
  exact Bool.false_ne_true

/-- The scanner reads files as the reader of the application is documented to. -/
theorem scanEnv_reader : EnvReader scanEnv where
  empty := rfl
  ends text := by
    have newline : ∀ state, (scanStep state '\n').1 ++ scanEnd (scanStep state '\n').2 =
        scanEnd state := by
      intro state
      cases state <;> simp [scanStep, scanEnd, isSpace]
    simp only [scanEnv, scanFrom_append, scanFrom, List.append_nil, List.append_assoc, newline]
  plain key value rest readable plain := by
    have alone : scanFrom .start (key ++ ['='] ++ value ++ ['\n']) =
        ([(key, some value)], .start) := by
      rw [scanFrom_append, scanFrom_append, scanFrom_key readable]
      cases value with
      | nil => simp [scanFrom, scanStep]
      | cons first more =>
          obtain ⟨here, later⟩ := List.forall_mem_cons.mp plain.1
          have noQuote : first ≠ '"' := fun same => here.1 (by rw [same]; decide)
          have body : scanFrom (.plain key [first]) more = ([], .plain key ([first] ++ more)) :=
            scanFrom_letters (fun front c member => by
              simp [scanStep, (later c member).2.1]) [first]
          have written := plainText_eq plain
          simp [scanFrom, scanStep, here.2.1, noQuote, plain.2.1 first rfl, body, written]
    have found := scanEnv_append alone rest
    simpa using found
  quoted key body rest readable quoted := by
    obtain ⟨escapes, ends, -⟩ := quoted
    have alone : scanFrom .start (key ++ ['='] ++ ['"'] ++ body ++ ['"', '\n']) =
        ([(key, some (unescape body))], .start) := by
      have inside : scanFrom (.quoted key []) body = ([], .quoted key body) :=
        scanFrom_quoted (by simpa using escapes)
      simp only [scanFrom_append, scanFrom_key readable]
      simp [scanFrom, scanStep, inside, ends]
    have found := scanEnv_append alone rest
    simpa using found

/-- A line behind which the next one starts, and that assigns what the rewriter sees. -/
theorem readAlone_of_scan {values : EnvValues} {line : List Char}
    (ends : (scanFrom .start (line ++ ['\n'])).2 = .start)
    (binds : ∀ key ∈ assignedKey line, values.Gives key →
      ∀ binding ∈ scanEnv (line ++ ['\n']), binding.1 = key) :
    ReadAlone scanEnv values [line] where
  whole rest := by
    have alone : scanFrom .start (line ++ ['\n']) =
        ((scanFrom .start (line ++ ['\n'])).1, .start) := Prod.ext rfl ends
    have itself := scanEnv_append alone []
    rw [List.append_nil] at itself
    rw [endedLines_cons, endedLines_nil, scanEnv_append alone, itself]
    simp [scanEnv, scanFrom, scanEnd]
  alone other member _ := by rw [List.mem_singleton.mp member]
  binds other member := by
    rw [List.mem_singleton.mp member, endedLines_cons, endedLines_nil]
    exact binds

end Scan

end RentalAgent
