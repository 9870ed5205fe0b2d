import RentalAgent.Acquisition.ParseSnippet

/-! # Totality and redaction of the snippet parser

Nothing that the parser returns looks like a contact (`contactFree_of_parseSnippet`): a
redaction leaves no match, and its brackets keep what is left apart. But the parser is not
total. The group of the price pattern is filled by commas as well as by digits, and `int`
raises on commas alone; and a number of more than ten characters is cut, so that the rent may
be one that the text does not state, unless the price stands alone (`states_of_standsAlone`).
`parseSnippet_meets_iff` says when neither happens.
-/

namespace RentalAgent.Snippet

open Pattern

variable (tables : TextTables)

/-! ## What is asked of the parser -/

/-- A text without a part that the contact pattern matches. -/
def ContactFree (text : List Char) : Prop :=
  ∀ part, part <:+: text → ¬ (contactPattern tables).Accepts part

/-- The digits and commas after a dollar sign, and after one space at most, spell the
number. -/
def States (text : List Char) (dollars : Nat) : Prop :=
  ∃ before space run after, text = before ++ '$' :: (space ++ run ++ after) ∧
    (space = [] ∨ ∃ c, isSpace c = true ∧ space = [c]) ∧
    (∀ c ∈ run, tables.isDecimal c = true ∨ c = ',') ∧
    (∀ c ∈ after.head?, ¬ (tables.isDecimal c = true ∨ c = ',')) ∧
    tables.readInt (run.filter (· ≠ ',')) = some dollars

/-- What follows a price is no part of its number: neither a digit nor a comma, nor a bracket
of a redaction. -/
def StandsAlone (price : Excerpt Char) : Prop :=
  ∀ next ∈ (price.closing ++ price.after).head?,
    ¬ (tables.isDecimal next = true ∨ next = ',') ∧ next ≠ '[' ∧ next ≠ ']'

/-- Every text in what the parser returns. -/
def Facts.texts (facts : Facts) : List String :=
  facts.pricing.sourcePriceText.toList ++ facts.priceEvidence ++
    facts.layout.rawLayoutText.toList ++ facts.identity.rawAddressText.toList ++
    facts.identity.rawUnitLabel.toList ++ facts.description.text.toList

/-- The parser returns, the rent is a plausible one that the text states, and no text that is
returned has a contact in it. -/
def Meets (title snippet : Option String) : Prop :=
  ∃ facts, parseSnippet tables title snippet = .ok facts ∧
    (∀ rent ∈ facts.pricing.monthlyRentMinor, ∃ dollars, rent = 100 * dollars ∧
      500 ≤ dollars ∧ dollars ≤ 100000 ∧ States tables (joinedText title snippet) dollars) ∧
    ∀ text ∈ facts.texts, ContactFree tables text.toList

/-! ## Redaction -/

variable {tables} {text : List Char}

theorem decimal_eq_none {c : Char} (ascii : c.toNat < 128) (other : c.isDigit = false) :
    tables.isDecimal c = false := by
  rw [TextTables.isDecimal, tables.decimal_ascii c ascii, other]
  rfl

theorem isWord_ascii {c : Char} (ascii : c.toNat < 128) :
    tables.isWord c = (c.isAlphanum || c = '_') := by
  rw [UnicodeTables.isWord, tables.isAlnum_ascii c ascii]

theorem contactPattern_plain : (contactPattern tables).plain = true := rfl

theorem contactPattern_consumes : (contactPattern tables).consumes = true := rfl

/-- A bracket is no letter of a contact. -/
theorem contactPattern_uses {c : Char} (bracket : c = '[' ∨ c = ']') :
    (contactPattern tables).uses c = false := by
  have ascii : c.toNat < 128 := by rcases bracket with rfl | rfl <;> decide
  have digit : tables.isDecimal c = false :=
    decimal_eq_none ascii (by rcases bracket with rfl | rfl <;> decide)
  have wordless : tables.isWord c = false := by
    rw [isWord_ascii ascii]
    rcases bracket with rfl | rfl <;> decide
  rcases bracket with rfl | rfl <;>
    simp [contactPattern, phonePattern, emailPattern, inSequence, times, plus, opt, exactly, uses,
      digit, wordless, isPhoneSeparator, UnicodeTables.isLabel, isSpace]

theorem contactPattern_dollar : (contactPattern tables).uses '$' = false := by
  have digit : tables.isDecimal '$' = false := decimal_eq_none (by decide) (by decide)
  have wordless : tables.isWord '$' = false := isWord_ascii (by decide)
  simp [contactPattern, phonePattern, emailPattern, inSequence, times, plus, opt, exactly, uses,
    digit, wordless, isPhoneSeparator, UnicodeTables.isLabel, isSpace]

/-- A dollar sign at the end of a text stays there. -/
theorem redact_dollar (text : List Char) :
    redact tables (text ++ ['$']) = redact tables text ++ ['$'] :=
  sub_append_cons contactPattern_plain contactPattern_consumes contactPattern_dollar text []

/-- A contact has a separator or an at sign in it. -/
theorem exists_separator {part : List Char} (contact : (contactPattern tables).Accepts part) :
    ∃ c ∈ part, isPhoneSeparator c = true ∨ c = '@' := by
  rcases contact with phone | email
  · obtain ⟨_, _, rfl, -, _, _, rfl, -, _, _, rfl, -, _, _, rfl, ⟨c, rfl, separator⟩, -⟩ := phone
    exact ⟨c, by simp, .inl separator⟩
  · obtain ⟨_, _, rfl, -, _, _, rfl, ⟨c, rfl, sign⟩, -⟩ := email
    exact ⟨c, by simp, .inr (of_decide_eq_true sign)⟩

/-- A redaction leaves no contact, and its brackets make none with what is left. -/
theorem contactFree_redact : ContactFree tables (redact tables text) := by
  intro part inside
  have split : "[redacted]".toList = "[redacted".toList ++ [']'] := rfl
  refine not_accepts_of_infix_sub contactPattern_plain contactPattern_consumes rfl
    (contactPattern_uses (.inl rfl)) split (contactPattern_uses (.inr rfl)) ?_ inside
  intro word inWord contact
  have none : ("[redacted".toList.all fun c => !isPhoneSeparator c && c ≠ '@') = true := by decide
  obtain ⟨c, member, separates⟩ := exists_separator contact
  have plain := List.all_eq_true.mp none c (inWord.subset member)
  rcases separates with separator | rfl
  · rw [separator] at plain
    cases plain
  · revert plain
    decide

theorem ContactFree.of_infix {part : List Char} (free : ContactFree tables text)
    (inside : part <:+: text) : ContactFree tables part :=
  fun inner within => free inner (within.trans inside)

/-! ## Prices -/

/-- The group of a price has digits and commas only. -/
theorem searchPrice_group {price : Excerpt Char} (found : searchPrice tables text = some price) :
    ∀ c ∈ price.group, tables.isDecimal c = true ∨ c = ',' := by
  obtain ⟨-, -, -, group, -⟩ := captureFrom_spec found
  intro c member
  have used := uses_of_mem group member
  simpa [pricePattern, between, times, upTo, opt, uses] using used

/-- What a search finds stands in the text. -/
theorem word_infix_of_capture {opening group closing : Pattern Char} {found : Excerpt Char}
    (captured : capture opening group closing text = some found) : found.word <:+: text :=
  ⟨found.skipped, found.after, (captureFrom_spec captured).1⟩

/-- `int` reads every text of decimal digits that is not empty. -/
theorem exists_readInt {digits : List Char} (present : digits ≠ [])
    (decimal : ∀ c ∈ digits, tables.isDecimal c = true) :
    ∃ value, tables.readInt digits = some value := by
  have values : ∃ values, digits.mapM tables.decimal = some values := by
    clear present
    induction digits with
    | nil => exact ⟨[], rfl⟩
    | cons c digits ih =>
        obtain ⟨here, others⟩ := List.forall_mem_cons.mp decimal
        obtain ⟨value, read⟩ := Option.isSome_iff_exists.mp here
        obtain ⟨values, rest⟩ := ih others
        exact ⟨value :: values, by rw [List.mapM_cons, read, rest]; rfl⟩
  obtain ⟨values, read⟩ := values
  exact ⟨_, by rw [TextTables.readInt, if_neg present, read]; rfl⟩

/-- A price is read from its group, without the commas. -/
theorem readDollars_eq_ok {price : Excerpt Char} {dollars : Nat} :
    readDollars tables price = .ok dollars ↔
      tables.readInt (price.group.filter (· ≠ ',')) = some dollars := by
  rw [readDollars]
  constructor
  · intro reads
    split at reads
    · cases reads
      assumption
    · cases reads
  · intro read
    simp only [read]

/-- A price reads as a number when it has a digit. -/
theorem readDollars_ok_iff {price : Excerpt Char} (found : searchPrice tables text = some price) :
    (∃ dollars, readDollars tables price = .ok dollars) ↔
      ∃ c ∈ price.group, tables.isDecimal c = true := by
  have comma : tables.isDecimal ',' = false := decimal_eq_none (by decide) (by decide)
  have digits : ∀ c ∈ price.group.filter (· ≠ ','), tables.isDecimal c = true := by
    intro c member
    obtain ⟨member, other⟩ := List.mem_filter.mp member
    exact (searchPrice_group found c member).resolve_right (of_decide_eq_true other)
  constructor
  · rintro ⟨dollars, read⟩
    cases split : price.group.filter (· ≠ ',') with
    | nil =>
        rw [readDollars_eq_ok, split] at read
        cases read
    | cons c others =>
        have member : c ∈ price.group.filter (· ≠ ',') := by
          rw [split]
          exact List.mem_cons_self
        exact ⟨c, (List.mem_filter.mp member).1, digits c member⟩
  · rintro ⟨c, member, digit⟩
    have other : c ≠ ',' := fun same => by rw [same, comma] at digit; cases digit
    have present : price.group.filter (· ≠ ',') ≠ [] :=
      List.ne_nil_of_mem (List.mem_filter.mpr ⟨member, decide_eq_true other⟩)
    obtain ⟨dollars, read⟩ := exists_readInt present digits
    exact ⟨dollars, readDollars_eq_ok.mpr read⟩

/-- A price opens with a dollar sign and one space at most. -/
theorem searchPrice_opening {price : Excerpt Char} (found : searchPrice tables text = some price) :
    ∃ space, price.opening = '$' :: space ∧
      (space = [] ∨ ∃ c, isSpace c = true ∧ space = [c]) := by
  obtain ⟨-, -, ⟨_, space, opens, ⟨dollar, rfl, sign⟩, spaced⟩, -, -⟩ := captureFrom_spec found
  obtain rfl : dollar = '$' := of_decide_eq_true sign
  refine ⟨space, opens, ?_⟩
  rcases spaced with ⟨c, rfl, blank⟩ | empty
  · exact .inr ⟨c, blank, rfl⟩
  · exact .inl empty

/-- A price with what follows it has a bracket only where that is one. -/
theorem bracket_not_mem_price {bracket next : Char} {space group : List Char}
    (isBracket : bracket = '[' ∨ bracket = ']')
    (spaces : space = [] ∨ ∃ c, isSpace c = true ∧ space = [c])
    (digits : ∀ c ∈ group, tables.isDecimal c = true ∨ c = ',') (apart : bracket ≠ next) :
    bracket ∉ '$' :: (space ++ group ++ [next]) := by
  have ascii : bracket.toNat < 128 := by rcases isBracket with rfl | rfl <;> decide
  have digitless : tables.isDecimal bracket = false :=
    decimal_eq_none ascii (by rcases isBracket with rfl | rfl <;> decide)
  have ungrouped : bracket ∉ group := fun member => by
    rcases digits bracket member with digit | rfl
    · rw [digitless] at digit
      cases digit
    · revert isBracket
      decide
  have unspaced : bracket ∉ space := by
    rcases spaces with rfl | ⟨blank, isBlank, rfl⟩
    · exact List.not_mem_nil
    · intro member
      rw [← List.mem_singleton.mp member] at isBlank
      rcases isBracket with rfl | rfl <;> revert isBlank <;> decide
  simp only [List.mem_cons, List.mem_append, List.not_mem_nil, or_false, not_or]
  refine ⟨?_, ⟨unspaced, ungrouped⟩, apart⟩
  rcases isBracket with rfl | rfl <;> decide

/-- A price in a text with a dollar sign put behind it is stated by the text itself. -/
theorem states_of_infix {space group : List Char} {next : Char} {dollars : Nat}
    (spaces : space = [] ∨ ∃ c, isSpace c = true ∧ space = [c])
    (digits : ∀ c ∈ group, tables.isDecimal c = true ∨ c = ',')
    (other : ¬ (tables.isDecimal next = true ∨ next = ','))
    (read : tables.readInt (group.filter (· ≠ ',')) = some dollars)
    (inside : '$' :: (space ++ group ++ [next]) <:+: text ++ ['$']) :
    States tables text dollars := by
  obtain ⟨before, after, inText⟩ := inside
  rcases List.eq_nil_or_concat after with rfl | ⟨rest, last, rfl⟩
  · have same : (before ++ '$' :: (space ++ group)) ++ [next] = text ++ ['$'] := by
      rw [← inText]
      simp
    obtain ⟨rfl, -⟩ := List.append_inj' same rfl
    exact ⟨before, space, group, [], by simp, spaces, digits, by simp, read⟩
  · have same : (before ++ '$' :: (space ++ group ++ next :: rest)) ++ [last] = text ++ ['$'] := by
      rw [← inText]
      simp
    obtain ⟨rfl, -⟩ := List.append_inj' same rfl
    refine ⟨before, space, group, next :: rest, rfl, spaces, digits, ?_, read⟩
    intro c here
    cases here
    exact other

/-- The number of a price that stands alone in the redacted text is stated by the text. -/
theorem states_of_standsAlone {price : Excerpt Char} {dollars : Nat}
    (found : searchPrice tables (redact tables text) = some price)
    (read : readDollars tables price = .ok dollars) (alone : StandsAlone tables price) :
    States tables text dollars := by
  obtain ⟨space, opens, spaces⟩ := searchPrice_opening found
  have group := searchPrice_group found
  have whole : price.skipped ++ price.word ++ price.after = redact tables text :=
    (captureFrom_spec found).1
  -- with a dollar sign behind the text, something follows the price in any case
  obtain ⟨next, others, followed, other, plain⟩ : ∃ next others,
      price.closing ++ price.after ++ ['$'] = next :: others ∧
        ¬ (tables.isDecimal next = true ∨ next = ',') ∧ next ≠ '[' ∧ next ≠ ']' := by
    cases rest : price.closing ++ price.after with
    | nil =>
        have digitless : tables.isDecimal '$' = false := decimal_eq_none (by decide) (by decide)
        exact ⟨'$', [], rfl, by simp [digitless], by decide, by decide⟩
    | cons next others => exact ⟨next, others ++ ['$'], rfl, alone next (by simp [rest])⟩
  have inside : '$' :: (space ++ price.group ++ [next]) <:+: redact tables (text ++ ['$']) := by
    refine ⟨price.skipped, others, ?_⟩
    have cut : price.skipped ++ price.word ++ price.after ++ ['$'] =
        price.skipped ++ '$' :: (space ++ price.group ++ next :: others) := by
      rw [← followed, Excerpt.word, opens]
      simp
    rw [redact_dollar, ← whole, cut]
    simp
  have ends : "[redacted]".toList = "[redacted".toList ++ [']'] := rfl
  -- a match of the replacement would have a dollar sign, and it has none
  rcases infix_of_infix_sub contactPattern_plain contactPattern_consumes rfl
    (bracket_not_mem_price (.inl rfl) spaces group plain.1.symm) ends
    (bracket_not_mem_price (.inr rfl) spaces group plain.2.symm) inside with
    inReplacement | inText
  · have none : '$' ∉ "[redacted".toList := by decide
    exact absurd (inReplacement.subset List.mem_cons_self) none
  · exact states_of_infix spaces group other (readDollars_eq_ok.mp read) inText

/-! ## The parser -/

variable {title snippet : Option String} {facts : Facts}

theorem parseSnippet_eq_ok : parseSnippet tables title snippet = .ok facts ↔
    ∃ rent, rentOf tables (searchPrice tables (redact tables (joinedText title snippet))) =
        .ok rent ∧ factsOf tables (joinedText title snippet) rent = facts := by
  rw [parseSnippet, Relational.bind_eq_ok]
  exact exists_congr fun rent => and_congr_right fun _ => ⟨Except.ok.inj, congrArg Except.ok⟩

/-- The parser returns when the first price, if there is one, has a digit. -/
theorem parseSnippet_returns_iff : (∃ facts, parseSnippet tables title snippet = .ok facts) ↔
    ∀ price, searchPrice tables (redact tables (joinedText title snippet)) = some price →
      ∃ c ∈ price.group, tables.isDecimal c = true := by
  constructor
  · rintro ⟨facts, parsed⟩ price found
    obtain ⟨rent, read, -⟩ := parseSnippet_eq_ok.mp parsed
    rw [found] at read
    obtain ⟨dollars, reads, -⟩ := Relational.bind_eq_ok.mp read
    exact (readDollars_ok_iff found).mp ⟨dollars, reads⟩
  · intro digit
    cases found : searchPrice tables (redact tables (joinedText title snippet)) with
    | none => exact ⟨_, parseSnippet_eq_ok.mpr ⟨none, by rw [found]; rfl, rfl⟩⟩
    | some price =>
        obtain ⟨dollars, read⟩ := (readDollars_ok_iff found).mpr (digit price found)
        exact ⟨_, parseSnippet_eq_ok.mpr ⟨_, by rw [found, rentOf, read]; rfl, rfl⟩⟩

/-- No text that the parser returns has a contact in it. -/
theorem contactFree_of_mem_texts (rent : Option Nat) {returned : String}
    (member : returned ∈ (factsOf tables text rent).texts) :
    ContactFree tables returned.toList := by
  have part {inner : List Char} (inside : inner <:+: redact tables text) :
      ContactFree tables (String.ofList inner).toList := by
    rw [String.toList_ofList]
    exact contactFree_redact.of_infix inside
  simp only [Facts.texts, factsOf, List.mem_append, Option.mem_toList, or_assoc,
    Option.map_eq_some_iff] at member
  rcases member with ⟨price, found, rfl⟩ | ⟨price, found, rfl⟩ | layout | ⟨address, found, rfl⟩ |
    ⟨unit, found, rfl⟩ | description
  · exact part (word_infix_of_capture found)
  · exact part (word_infix_of_capture found)
  · split at layout
    · cases layout
    · cases layout
      exact part (List.take_prefix _ _).isInfix
  · exact part (word_infix_of_capture found)
  · exact part (searchUnitLabel_within found)
  · obtain ⟨same, -⟩ := Option.filter_eq_some_iff.mp description
    cases same
    exact part List.infix_rfl

/-- **When the snippet parser meets its contract.** The first price of the redacted text has a
digit, and where it reads as a plausible rent it stands alone, or the text has the number after
a dollar sign elsewhere. -/
theorem parseSnippet_meets_iff (title snippet : Option String) : Meets tables title snippet ↔
    ∀ price, searchPrice tables (redact tables (joinedText title snippet)) = some price →
      (∃ c ∈ price.group, tables.isDecimal c = true) ∧
      ∀ dollars, readDollars tables price = .ok dollars → plausibleRent dollars = true →
        StandsAlone tables price ∨ States tables (joinedText title snippet) dollars := by
  constructor
  · rintro ⟨facts, parsed, stated, -⟩ price found
    obtain ⟨rent, read, rfl⟩ := parseSnippet_eq_ok.mp parsed
    rw [found] at read
    obtain ⟨dollars, readsAs, kept⟩ := Relational.bind_eq_ok.mp read
    refine ⟨(readDollars_ok_iff found).mp ⟨dollars, readsAs⟩, fun other readsOther inBand => ?_⟩
    obtain rfl : dollars = other := Except.ok.inj (readsAs.symm.trans readsOther)
    obtain rfl : some (dollars * 100) = rent := by
      rw [← Except.ok.inj kept, if_pos inBand]
    obtain ⟨number, same, -, -, states⟩ := stated (dollars * 100) rfl
    obtain rfl : dollars = number := by omega
    exact .inr states
  · intro condition
    obtain ⟨facts, parsed⟩ :=
      parseSnippet_returns_iff.mpr fun price found => (condition price found).1
    obtain ⟨rent, read, rfl⟩ := parseSnippet_eq_ok.mp parsed
    refine ⟨_, parsed, fun kept same => ?_, fun text => contactFree_of_mem_texts _⟩
    obtain rfl : rent = some kept := same
    cases found : searchPrice tables (redact tables (joinedText title snippet)) with
    | none =>
        rw [found] at read
        cases read
    | some price =>
        rw [found] at read
        obtain ⟨dollars, reads, kept⟩ := Relational.bind_eq_ok.mp read
        have same := Except.ok.inj kept
        split at same
        · rename_i inBand
          cases same
          obtain ⟨low, high⟩ := Bool.and_eq_true _ _ ▸ inBand
          exact ⟨dollars, Nat.mul_comm _ _, of_decide_eq_true low, of_decide_eq_true high,
            ((condition price found).2 dollars reads inBand).elim
              (states_of_standsAlone found reads) id⟩
        · cases same

/-- Commas after a dollar sign make the parser raise. -/
theorem commas_raise : ¬ Meets TextTables.ascii (some "Rent $,,, a month") none := by
  rintro ⟨facts, parsed, -⟩
  have raised : parseSnippet TextTables.ascii (some "Rent $,,, a month") none =
      .error (.valueError []) := by decide
  rw [raised] at parsed
  cases parsed

end RentalAgent.Snippet
