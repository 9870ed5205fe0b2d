import RentalAgent.Foundation.LastWrite
import RentalAgent.Foundation.Lines

/-! # Readers of assignments

A reader gives the assignments of a text in their order; a key has the value that was assigned
last. Where the pieces of a text are read by themselves, whatever follows them, the text is
read piece by piece (`read_pieces`), and what is said of a key only depends on the assignments
to it (`stored_congr`).
-/

namespace Assignments

open Lines

variable {Key Value : Type*} {read : List Char → List (Key × Value)}

/-- The text of lines, each ended by a newline. -/
def endedLines (lines : List (List Char)) : List Char := lines.flatMap (· ++ ['\n'])

/-- A piece that is read by itself, whatever follows it. -/
def Whole (read : List Char → List (Key × Value)) (piece : List Char) : Prop :=
  ∀ rest, read (piece ++ rest) = read piece ++ read rest

@[simp] theorem endedLines_nil : endedLines [] = [] := rfl

@[simp] theorem endedLines_append (first second : List (List Char)) :
    endedLines (first ++ second) = endedLines first ++ endedLines second :=
  List.flatMap_append

theorem endedLines_cons (line : List Char) (rest : List (List Char)) :
    endedLines (line :: rest) = line ++ '\n' :: endedLines rest := by
  simp [endedLines]

/-- Lines that are joined and ended are the ended lines, if there are any. -/
theorem joinLines_newline {lines : List (List Char)} (present : lines ≠ []) :
    joinLines lines ++ ['\n'] = endedLines lines := by
  rcases List.eq_nil_or_concat lines with rfl | ⟨front, last, rfl⟩
  · exact absurd rfl present
  · rw [List.concat_eq_append, joinLines_append (List.cons_ne_nil _ _), endedLines_append]
    simp [endedLines, joinLines]

/-- Lines without boundaries among ended lines are lines of the text. -/
theorem sublist_splitLines {chosen lines : List (List Char)}
    (plain : ∀ line ∈ chosen, OneLine line) (among : chosen.Sublist lines) :
    chosen.Sublist (splitLines (endedLines lines)) := by
  induction among with
  | slnil => exact List.nil_sublist _
  | cons line _ ih =>
      rw [endedLines_cons]
      exact (ih plain).trans (splitLines_suffix line _ []).sublist
  | cons_cons line _ ih =>
      obtain ⟨here, later⟩ := List.forall_mem_cons.mp plain
      rw [endedLines_cons, splitLines_append_newline here]
      exact (ih later).cons_cons line

/-- A text in pieces that are read by themselves is read piece by piece. -/
theorem read_pieces (empty : read [] = []) {blocks : List (List (List Char))}
    (whole : ∀ block ∈ blocks, Whole read (endedLines block)) :
    read (endedLines blocks.flatten) = blocks.flatMap fun block => read (endedLines block) := by
  induction blocks with
  | nil => exact empty
  | cons block blocks ih =>
      obtain ⟨here, others⟩ := List.forall_mem_cons.mp whole
      rw [List.flatten_cons, endedLines_append, here, ih others, List.flatMap_cons]

/-- Two lists that agree on the rows that are kept have the same of these. -/
theorem mem_iff_of_filter_eq {Row : Type*} {first second : List Row} {keep : Row → Bool}
    (same : first.filter keep = second.filter keep) {row : Row} (kept : keep row = true) :
    row ∈ first ↔ row ∈ second := by
  constructor
  · intro member
    have inside := List.mem_filter.mpr ⟨member, kept⟩
    rw [same] at inside
    exact List.mem_of_mem_filter inside
  · intro member
    have inside := List.mem_filter.mpr ⟨member, kept⟩
    rw [← same] at inside
    exact List.mem_of_mem_filter inside

variable [DecidableEq Key]

/-- Two readings with the same assignments to a key say the same of it. -/
theorem stored_congr {first second : List (Key × Value)} {key : Key}
    (same : (first.filter fun binding => binding.1 = key) =
      second.filter fun binding => binding.1 = key) :
    LastWrite.stored first key = LastWrite.stored second key := by
  rw [← LastWrite.stored_filter first, same, LastWrite.stored_filter]

end Assignments
