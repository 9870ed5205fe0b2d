import RentalAgent.Canonical.Fingerprint

/-! # Labels in search snippets

The unit label that `parse_snippet` of the StreetEasy adapter takes from the text of
a title and a snippet.
-/

namespace RentalAgent

/-- The class `[\w-]`. -/
def UnicodeTables.isLabel (unicode : UnicodeTables) (c : Char) : Bool :=
  unicode.isWord c || c = '-'

/-- What `\s?([\w-]{1,8})` captures at the start of a text, or nothing. White space is
no label character, so the optional space is taken whenever it is there. -/
def captureLabel (unicode : UnicodeTables) (text : List Char) : List Char :=
  ((if text.head?.any isSpace then text.tail else text).take 8).takeWhile unicode.isLabel

/-- `_UNIT_RE.search(text).group(1)` for `#\s?([\w-]{1,8})`: the label after the first
number sign that has one. -/
def searchUnitLabel (unicode : UnicodeTables) : List Char → Option (List Char)
  | [] => none
  | c :: rest =>
      if c = '#' ∧ captureLabel unicode rest ≠ [] then some (captureLabel unicode rest)
      else searchUnitLabel unicode rest

/-- A captured label is a part of its text. -/
theorem captureLabel_within {unicode : UnicodeTables} (text : List Char) :
    captureLabel unicode text <:+: text := by
  rw [captureLabel]
  refine ((List.takeWhile_prefix _).trans (List.take_prefix _ _)).isInfix.trans ?_
  split
  · exact (List.tail_suffix text).isInfix
  · exact List.infix_rfl

/-- The label that is found is a part of the text. -/
theorem searchUnitLabel_within {unicode : UnicodeTables} {text label : List Char}
    (found : searchUnitLabel unicode text = some label) : label <:+: text := by
  induction text with
  | nil => cases found
  | cons c rest ih =>
      rw [searchUnitLabel] at found
      split at found
      · cases found
        exact List.infix_cons (captureLabel_within rest)
      · exact List.infix_cons (ih found)

end RentalAgent
