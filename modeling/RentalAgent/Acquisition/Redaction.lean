import RentalAgent.Acquisition.SnippetTotal

/-! # What a redacted text tells

Redaction forgets what a contact was, but it does not forget where the text has a bar, and it
does not forget a space that a bar stands behind. No contact has a bar in it, so a redacted
text falls into the redacted parts between its bars (`redact_append_bar`). A contact with a
space in it is a phone number, and no phone number begins another one: whatever stands before
a space is redacted in another way when the space is there (`redact_append_space_ne`).
-/

namespace RentalAgent.Snippet

open Pattern

variable {tables : TextTables} {text tail : List Char}

/-! ## Phone numbers -/

/-- A character that is no parenthesis. -/
abbrev Plain (c : Char) : Prop := c ≠ '(' ∧ c ≠ ')'

/-- A phone number: the parentheses stand around its first three digits, and nine characters
follow. -/
theorem phone_shape {word : List Char} (phone : (phonePattern tables).Accepts word) :
    ∃ opening a b c closing separator d rest,
      word = opening ++ a :: b :: c :: (closing ++ separator :: d :: rest) ∧ rest.length = 7 ∧
        (opening = [] ∨ opening = ['(']) ∧ (closing = [] ∨ closing = [')']) ∧
        tables.isDecimal a = true ∧ ∀ letter ∈ [a, b, c, separator, d], Plain letter := by
  have opens : tables.isDecimal '(' = false := decimal_eq_none (by decide) (by decide)
  have closes : tables.isDecimal ')' = false := decimal_eq_none (by decide) (by decide)
  have plainDigit {c : Char} (isDigit : tables.isDecimal c = true) : Plain c := by
    constructor
    · rintro rfl
      cases opens.symm.trans isDigit
    · rintro rfl
      cases closes.symm.trans isDigit
  obtain ⟨opening, _, rfl, isOpening, area, _, rfl, areaMatch, closing, _, rfl, isClosing, _, _,
    rfl, ⟨separator, rfl, separates⟩, office, _, rfl, officeMatch, _, _, rfl,
    ⟨dash, rfl, -⟩, line, _, rfl, lineMatch, rfl⟩ := phone
  obtain ⟨areaLength, areaDigits⟩ := matches_times_letter.mp areaMatch
  obtain ⟨officeLength, officeDigits⟩ := matches_times_letter.mp officeMatch
  obtain ⟨lineLength, -⟩ := matches_times_letter.mp lineMatch
  obtain ⟨a, b, c, rfl⟩ := List.length_eq_three.mp areaLength
  obtain ⟨d, e, f, rfl⟩ := List.length_eq_three.mp officeLength
  have plainSeparator : Plain separator := by
    constructor
    · rintro rfl
      revert separates
      decide
    · rintro rfl
      revert separates
      decide
  refine ⟨opening, a, b, c, closing, separator, d, e :: f :: dash :: line, by simp, ?_, ?_, ?_,
    areaDigits a (by simp), ?_⟩
  · simp [lineLength]
  · rcases isOpening with ⟨paren, rfl, same⟩ | rfl
    · exact .inr (by rw [of_decide_eq_true same])
    · exact .inl rfl
  · rcases isClosing with ⟨paren, rfl, same⟩ | rfl
    · exact .inr (by rw [of_decide_eq_true same])
    · exact .inl rfl
  · intro letter member
    simp only [List.mem_cons, List.not_mem_nil, or_false] at member
    rcases member with rfl | rfl | rfl | rfl | rfl
    · exact plainDigit (areaDigits _ (by simp))
    · exact plainDigit (areaDigits _ (by simp))
    · exact plainDigit (areaDigits _ (by simp))
    · exact plainSeparator
    · exact plainDigit (officeDigits _ (by simp))

/-- The first five characters of a phone number tell its length. -/
theorem phone_length {word : List Char} (phone : (phonePattern tables).Accepts word) :
    word.length = 12 + (word.take 5).count '(' + (word.take 5).count ')' := by
  obtain ⟨opening, a, b, c, closing, separator, d, rest, rfl, length, isOpening, isClosing, -,
    plain⟩ := phone_shape phone
  have aPlain := plain a (by simp)
  have bPlain := plain b (by simp)
  have cPlain := plain c (by simp)
  have separatorPlain := plain separator (by simp)
  have dPlain := plain d (by simp)
  rcases isOpening with rfl | rfl <;> rcases isClosing with rfl | rfl <;>
    simp [length, aPlain, bPlain, cPlain, separatorPlain, dPlain]

/-- No phone number begins another. -/
theorem phone_eq_of_isPrefix {word other : List Char} (phone : (phonePattern tables).Accepts word)
    (longer : (phonePattern tables).Accepts other) (starts : word <+: other) : word = other := by
  have length := phone_length phone
  have same : word.take 5 = other.take 5 := by
    obtain ⟨rest, rfl⟩ := starts
    rw [List.take_append_of_le_length (by omega)]
  rw [same, ← phone_length longer] at length
  exact starts.eq_of_length length

/-- A contact with a space in it is a phone number. -/
theorem phone_of_space {word : List Char} (contact : (contactPattern tables).Accepts word)
    (space : ' ' ∈ word) : (phonePattern tables).Accepts word := by
  rcases contact with phone | email
  · exact phone
  · have wordless : tables.isWord ' ' = false := isWord_ascii (by decide)
    have unused : (emailPattern tables).uses ' ' = false := by
      simp [emailPattern, inSequence, plus, exactly, uses, wordless, UnicodeTables.isLabel]
    exact absurd (uses_of_mem email space) (by simp [unused])

/-- A contact that begins a phone number is the phone number. -/
theorem contact_eq_of_isPrefix {word other : List Char}
    (contact : (contactPattern tables).Accepts word) (phone : (phonePattern tables).Accepts other)
    (starts : word <+: other) : word = other := by
  rcases contact with isPhone | email
  · exact phone_eq_of_isPrefix isPhone phone starts
  · obtain ⟨_, _, rfl, -, _, _, rfl, ⟨sign, rfl, isSign⟩, -⟩ := email
    have digit : tables.isDecimal '@' = false := decimal_eq_none (by decide) (by decide)
    have unused : (phonePattern tables).uses '@' = false := by
      simp [phonePattern, inSequence, times, opt, exactly, uses, digit, isPhoneSeparator, isSpace]
    obtain rfl := of_decide_eq_true isSign
    have member : '@' ∈ other := starts.subset (by simp)
    exact absurd (uses_of_mem phone member) (by simp [unused])

/-! ## Spaces -/

/-- Where a phone number begins and is cut off, nothing is redacted. -/
theorem redact_ne_of_cut {start word after : List Char} (present : start ≠ [])
    (phone : (phonePattern tables).Accepts word) (starts : start <+: word)
    (shorter : start.length < word.length) :
    redact tables start ≠ "[redacted]".toList ++ after := by
  obtain ⟨c, rest, rfl⟩ := List.exists_cons_of_ne_nil present
  have none : (contactPattern tables).lengths [] (c :: rest) = [] := by
    rw [lengths_eq_nil_iff]
    intro part others split matched
    have contact := (matches_iff_accepts contactPattern_plain).mp matched
    have within : part <+: c :: rest := ⟨others, split.symm⟩
    rw [contact_eq_of_isPrefix contact phone (within.trans starts)] at within
    exact absurd within.length_le (by omega)
  intro same
  rw [redact, sub_kept contactPattern_plain none] at same
  obtain ⟨rfl, -⟩ := List.cons.inj same
  obtain ⟨opening, a, _, _, _, _, _, _, split, -, isOpening, -, isDigit, -⟩ := phone_shape phone
  rw [split] at starts
  have bracket : tables.isDecimal '[' = false := decimal_eq_none (by decide) (by decide)
  rcases isOpening with rfl | rfl
  · obtain ⟨rfl, -⟩ := List.cons_prefix_cons.mp starts
    cases bracket.symm.trans isDigit
  · exact absurd (List.cons_prefix_cons.mp starts).1 (by decide)

/-- A redaction leaves its bracket, so nothing becomes empty. -/
theorem redact_ne_nil (present : text ≠ []) : redact tables text ≠ [] := by
  revert present
  refine sub_induction contactPattern_plain contactPattern_consumes
    (fun text result => text ≠ [] → result ≠ []) ?_ ?_ ?_ text
  · exact fun present => present
  · exact fun c rest _ _ _ => List.cons_ne_nil _ _
  · exact fun word after _ _ _ => List.cons_ne_nil _ _

/-- A redaction goes on into what follows, unless a contact reaches over the end. -/
theorem redact_append (tables : TextTables) (text tail : List Char) :
    redact tables (text ++ tail) = redact tables text ++ redact tables tail ∨
      ∃ left start word after, start ≠ [] ∧
        redact tables text = redact tables left ++ redact tables start ∧
        start ++ tail = word ++ after ∧ start.length < word.length ∧
        (contactPattern tables).Accepts word ∧
        redact tables (text ++ tail) =
          redact tables left ++ ("[redacted]".toList ++ redact tables after) := by
  rcases sub_append contactPattern_plain contactPattern_consumes text tail with parts |
    ⟨left, start, word, after, -, present, parts, reach, longer, accepted, reached⟩
  · exact .inl parts
  · exact .inr ⟨left, start, word, after, present, parts, reach, longer, accepted, reached⟩

/-- A space and what follows it show in the redacted text. -/
theorem redact_append_space_ne : redact tables (text ++ ' ' :: tail) ≠ redact tables text := by
  intro same
  rcases redact_append tables text (' ' :: tail) with parts |
    ⟨left, start, word, after, present, parts, reach, longer, accepted, reached⟩
  · rw [parts, List.append_right_eq_self] at same
    exact redact_ne_nil (List.cons_ne_nil _ _) same
  · obtain ⟨more, rfl⟩ : start <+: word :=
      List.prefix_of_prefix_length_le ⟨_, reach⟩ ⟨after, rfl⟩ longer.le
    have space : ' ' ∈ start ++ more := by
      rw [List.append_assoc] at reach
      cases more with
      | nil => simp at longer
      | cons c more =>
          obtain ⟨rfl, -⟩ := List.cons.inj (List.append_cancel_left reach)
          simp
    rw [reached, parts, List.append_cancel_left_eq] at same
    exact redact_ne_of_cut present (phone_of_space accepted space) (List.prefix_append _ _) longer
      same.symm

/-- No contact begins with a space. -/
theorem redact_space (text : List Char) :
    redact tables (' ' :: text) = ' ' :: redact tables text := by
  have none : (contactPattern tables).lengths [] (' ' :: text) = [] := by
    rw [lengths_eq_nil_iff]
    intro word after split matched
    have contact := (matches_iff_accepts contactPattern_plain).mp matched
    obtain ⟨c, word, rfl⟩ := List.exists_cons_of_ne_nil
      (ne_nil_of_matches contactPattern_consumes matched)
    obtain ⟨rfl, -⟩ := List.cons.inj split
    obtain ⟨opening, a, _, _, _, _, _, _, shape, -, isOpening, -, isDigit, -⟩ :=
      phone_shape (phone_of_space contact List.mem_cons_self)
    have wordless : tables.isDecimal ' ' = false := decimal_eq_none (by decide) (by decide)
    rcases isOpening with rfl | rfl
    · obtain ⟨rfl, -⟩ := List.cons.inj shape
      cases wordless.symm.trans isDigit
    · exact absurd (List.cons.inj shape).1 (by decide)
  exact sub_kept contactPattern_plain none

/-! ## Bars -/

theorem contactPattern_bar : (contactPattern tables).uses '|' = false := by
  have digit : tables.isDecimal '|' = false := decimal_eq_none (by decide) (by decide)
  have wordless : tables.isWord '|' = false := isWord_ascii (by decide)
  simp [contactPattern, phonePattern, emailPattern, inSequence, times, plus, opt, exactly, uses,
    digit, wordless, isPhoneSeparator, UnicodeTables.isLabel, isSpace]

/-- A bar parts a redaction. -/
theorem redact_append_bar (text tail : List Char) :
    redact tables (text ++ '|' :: tail) = redact tables text ++ '|' :: redact tables tail :=
  sub_append_cons contactPattern_plain contactPattern_consumes contactPattern_bar text tail

/-- Redaction neither adds a bar nor removes one. -/
theorem count_redact (text : List Char) : (redact tables text).count '|' = text.count '|' := by
  refine sub_induction contactPattern_plain contactPattern_consumes
    (fun text result => result.count '|' = text.count '|') rfl ?_ ?_ text
  · intro c rest _ same
    rw [List.count_cons, List.count_cons, same]
  · intro word after accepted same
    have none : word.count '|' = 0 := List.count_eq_zero.mpr fun member => by
      have used := uses_of_mem accepted member
      rw [contactPattern_bar] at used
      cases used
    rw [List.count_append, List.count_append, same, none]
    rfl

/-- Lists that agree, parted at letters with as many of their kind in front, agree in parts. -/
theorem append_cons_inj {α : Type} [DecidableEq α] {c : α} {left right other others : List α}
    (counts : left.count c = other.count c)
    (same : left ++ c :: right = other ++ c :: others) : left = other ∧ right = others := by
  induction left generalizing other with
  | nil =>
      cases other with
      | nil => exact ⟨rfl, (List.cons.inj same).2⟩
      | cons d other =>
          obtain ⟨rfl, -⟩ := List.cons.inj same
          simp at counts
  | cons d left following =>
      cases other with
      | nil =>
          obtain ⟨rfl, -⟩ := List.cons.inj same
          simp at counts
      | cons e other =>
          obtain ⟨rfl, rest⟩ := List.cons.inj same
          rw [List.count_cons, List.count_cons, Nat.add_right_cancel_iff] at counts
          obtain ⟨rfl, rfl⟩ := following counts rest
          exact ⟨rfl, rfl⟩

/-- Redacted texts that agree, parted at bars with as many in front, agree in parts. -/
theorem redact_bar_inj {left right other others : List Char}
    (counts : left.count '|' = other.count '|')
    (same : redact tables (left ++ '|' :: right) = redact tables (other ++ '|' :: others)) :
    redact tables left = redact tables other ∧ redact tables right = redact tables others := by
  rw [redact_append_bar, redact_append_bar] at same
  exact append_cons_inj (by rw [count_redact, count_redact, counts]) same

/-- A text with a bar in it, parted at its first bar. -/
theorem exists_first_bar (middle right : List Char) : ∃ front rest, '|' ∉ front ∧
    middle ++ '|' :: right = front ++ '|' :: rest := by
  induction middle with
  | nil => exact ⟨[], right, List.not_mem_nil, rfl⟩
  | cons c middle following =>
      by_cases bar : c = '|'
      · exact ⟨[], middle ++ '|' :: right, List.not_mem_nil, by rw [bar]; rfl⟩
      · obtain ⟨front, rest, free, split⟩ := following
        refine ⟨c :: front, rest, ?_, by rw [List.cons_append, split, List.cons_append]⟩
        rw [List.mem_cons, not_or]
        exact ⟨Ne.symm bar, free⟩

/-- A space before a bar and a bar in its place are told apart. -/
theorem redact_space_bar_ne {left middle right others : List Char} :
    redact tables (left ++ ' ' :: (middle ++ '|' :: right)) ≠
      redact tables (left ++ '|' :: others) := by
  intro same
  obtain ⟨front, rest, free, split⟩ := exists_first_bar middle right
  have regroup : left ++ ' ' :: (middle ++ '|' :: right) =
      (left ++ ' ' :: front) ++ '|' :: rest := by
    rw [split, List.append_assoc, List.cons_append]
  rw [regroup] at same
  refine redact_append_space_ne (redact_bar_inj ?_ same).1
  rw [List.count_append, List.count_cons, List.count_eq_zero.mpr free]
  rfl

/-- Where a text with a bar behind it and the text with the bar in front of it are redacted
alike, the text is made of bars. -/
theorem bars_of_shift {middle right others : List Char}
    (same : redact tables (middle ++ '|' :: right) = redact tables ('|' :: (middle ++ others))) :
    (∀ c ∈ middle, c = '|') ∧ redact tables right = redact tables others := by
  induction middle with
  | nil =>
      have parts : redact tables ([] ++ '|' :: right) = redact tables ([] ++ '|' :: others) := same
      exact ⟨by simp, (redact_bar_inj rfl parts).2⟩
  | cons c middle following =>
      by_cases bar : c = '|'
      · rw [bar] at same ⊢
        have parts : redact tables ([] ++ '|' :: (middle ++ '|' :: right)) =
            redact tables ([] ++ '|' :: ('|' :: (middle ++ others))) := same
        obtain ⟨bars, rest⟩ := following (redact_bar_inj rfl parts).2
        exact ⟨List.forall_mem_cons.mpr ⟨rfl, bars⟩, rest⟩
      · obtain ⟨front, rest, free, split⟩ := exists_first_bar middle right
        have parts : redact tables ((c :: front) ++ '|' :: rest) =
            redact tables ([] ++ '|' :: (c :: middle ++ others)) := by
          rw [List.cons_append, ← split]
          exact same
        have count : (c :: front).count '|' = ([] : List Char).count '|' := by
          rw [List.count_cons_of_ne bar, List.count_eq_zero.mpr free, List.count_nil]
        exact absurd (redact_bar_inj count parts).1 (redact_ne_nil (List.cons_ne_nil _ _))

end RentalAgent.Snippet
