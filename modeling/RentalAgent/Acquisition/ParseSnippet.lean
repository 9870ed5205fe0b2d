import RentalAgent.Foundation.Substitution
import RentalAgent.Acquisition.Snippet
import RentalAgent.Canonical.Normalization

/-! # Facts from a title and a snippet

`parse_snippet` of the StreetEasy adapter, which the other two search adapters share: the
rent, the layout, the address and the unit that the title and the snippet of a search result
state, once what looks like a contact is redacted.
-/

namespace RentalAgent

/-- The Unicode tables that `re` and `int` consult, with what they are on ASCII. A decimal
digit is what `\d` matches; its value is what `int` reads. -/
structure TextTables extends UnicodeTables where
  decimal : Char → Option Nat
  isAlnum_ascii : ∀ c : Char, c.toNat < 128 → isAlnum c = c.isAlphanum
  decimal_ascii : ∀ c : Char, c.toNat < 128 →
    decimal c = if c.isDigit then some (c.toNat - 48) else none

namespace TextTables

variable (tables : TextTables)

/-- `\d`. -/
def isDecimal (c : Char) : Bool := (tables.decimal c).isSome

/-- `int`, which fails on a text without digits. -/
def readInt (text : List Char) : Option Nat :=
  if text = [] then none
  else (text.mapM tables.decimal).map (List.foldl (fun value digit => 10 * value + digit) 0)

/-- The tables on ASCII alone. -/
def ascii : TextTables where
  lower := List.map Char.toLower
  upper := List.map Char.toUpper
  isAlnum := Char.isAlphanum
  decimal c := if c.isDigit then some (c.toNat - 48) else none
  isAlnum_ascii _ _ := rfl
  decimal_ascii _ _ := rfl

end TextTables

/-- A character that a letter of a pattern stands for under `re.IGNORECASE`. Four characters
outside ASCII match ASCII letters. -/
def sameIgnoringCase (expected c : Char) : Bool :=
  expected.toLower = c.toLower ||
    (expected.toLower = 'i' && (c.toNat = 0x130 || c.toNat = 0x131)) ||
    (expected.toLower = 's' && c.toNat = 0x17F) || (expected.toLower = 'k' && c.toNat = 0x212A)

namespace Snippet

open Pattern

variable (tables : TextTables)

/-! ## Patterns -/

/-- One character. -/
def exactly (expected : Char) : Pattern Char := letter fun c => c = expected

/-- A word up to case. -/
def word (text : String) : Pattern Char := literal sameIgnoringCase text.toList

/-- A word in its own case. -/
def caseWord (text : String) : Pattern Char :=
  literal (fun expected c => c = expected) text.toList

/-- `[\s.-]`. -/
def isPhoneSeparator (c : Char) : Bool := isSpace c || c = '.' || c = '-'

/-- The first branch of `_CONTACT_RE`: `\(?\d{3}\)?[\s.-]\d{3}[\s.-]\d{4}`. -/
def phonePattern : Pattern Char :=
  inSequence [opt (exactly '('), times (letter tables.isDecimal) 3, opt (exactly ')'),
    letter isPhoneSeparator, times (letter tables.isDecimal) 3, letter isPhoneSeparator,
    times (letter tables.isDecimal) 4]

/-- The second branch of `_CONTACT_RE`: `[\w.+-]+@[\w-]+\.[\w.]+`. -/
def emailPattern : Pattern Char :=
  inSequence [plus (letter fun c => tables.isWord c || c = '.' || c = '+' || c = '-'), exactly '@',
    plus (letter tables.isLabel), exactly '.', plus (letter fun c => tables.isWord c || c = '.')]

/-- `_CONTACT_RE`. -/
def contactPattern : Pattern Char := alt (phonePattern tables) (emailPattern tables)

/-- What stands before the group of `_PRICE_RE`: `\$\s?`. -/
def priceOpening : Pattern Char := seq (exactly '$') (opt (letter isSpace))

/-- The group of `_PRICE_RE`: `[\d,]{3,10}`. -/
def pricePattern : Pattern Char := between 3 10 (letter fun c => tables.isDecimal c || c = ',')

/-- What stands after the group of `_PRICE_RE`: `(?:\s*(?:/|per\s*)mo(?:nth)?)?`. -/
def priceClosing : Pattern Char :=
  opt (inSequence [star (letter isSpace),
    alt (exactly '/') (seq (word "per") (star (letter isSpace))), word "mo", opt (word "nth")])

/-- `_PRICE_RE.search`. -/
def searchPrice (text : List Char) : Option (Excerpt Char) :=
  capture priceOpening (pricePattern tables) priceClosing text

/-- `\b(?:…)[\s-]*(?:bed(?:room)?|br)\b`. -/
def bedroomPattern (count : Pattern Char) : Pattern Char :=
  inSequence [boundary tables.isWord, count, star (letter fun c => isSpace c || c = '-'),
    alt (seq (word "bed") (opt (word "room"))) (word "br"), boundary tables.isWord]

/-- `_LAYOUT_PATTERNS`. -/
def layoutPatterns : List (Pattern Char × LayoutClass) :=
  [(inSequence [boundary tables.isWord, word "studio", boundary tables.isWord], .studio),
    (bedroomPattern tables (oneOf [exactly '1', word "one"]), .oneBedroom),
    (bedroomPattern tables (oneOf [exactly '2', word "two"]), .twoBedroom),
    (bedroomPattern tables
      (oneOf [letter fun c => '3' ≤ c && c ≤ '9', word "three", word "four", word "five"]),
      .outOfScope)]

/-- `_ADDRESS_RE`. -/
def addressPattern : Pattern Char :=
  inSequence [between 1 5 (letter tables.isDecimal), star (letter tables.isLabel),
    plus (letter isSpace),
    between 1 5 (inSequence [letter fun c => c.isUpper || c.isDigit,
      star (letter fun c => tables.isWord c || c.toNat = 39 || c = '.'), opt (letter isSpace)]),
    oneOf (["Street", "St", "Avenue", "Ave", "Road", "Rd", "Boulevard", "Blvd", "Place", "Pl",
      "Drive", "Dr", "Lane", "Ln", "Court", "Ct", "Terrace", "Ter", "Parkway", "Pkwy", "Broadway",
      "Way"].map caseWord),
    boundary tables.isWord, opt (exactly '.'),
    opt (seq (star (letter isSpace)) (oneOf (["East", "West", "North", "South"].map caseWord)))]

/-! ## The parser -/

/-- `PricingBlock.price_type`, as far as snippets go. -/
inductive PriceType
  | exactMonthlyAsking | unknown
  deriving DecidableEq

/-- What `parse_snippet` returns; the evidence of a price is its text. -/
structure Facts where
  pricing : PricingBlock
  priceType : PriceType
  priceEvidence : List String
  layout : LayoutBlock
  identity : IdentityBlock
  description : DescriptionBlock
  deriving DecidableEq

/-- The exception of `int`. -/
inductive SnippetError
  | valueError (literal : List Char)
  deriving DecidableEq

/-- `" ".join(part for part in (title, snippet) if part)`. -/
def joinedText (title snippet : Option String) : List Char :=
  [' '].intercalate (([title, snippet].filterMap truthy).map String.toList)

/-- `_CONTACT_RE.sub("[redacted]", text)`. -/
def redact (text : List Char) : List Char :=
  (contactPattern tables).sub "[redacted]".toList text

/-- A monthly rent that is kept. -/
def plausibleRent (dollars : Nat) : Bool := 500 ≤ dollars && dollars ≤ 100000

/-- The number of dollars in the group of a price. -/
def readDollars (price : Excerpt Char) : Except SnippetError Nat :=
  let digits := price.group.filter (· ≠ ',')
  match tables.readInt digits with
  | some dollars => .ok dollars
  | none => .error (.valueError digits)

/-- The rent that a price states, when it is plausible. -/
def rentOf : Option (Excerpt Char) → Except SnippetError (Option Nat)
  | none => .ok none
  | some price => do
      let dollars ← readDollars tables price
      return if plausibleRent dollars then some (dollars * 100) else none

/-- The layout of the first pattern that occurs. -/
def layoutOf (text : List Char) : LayoutClass :=
  (((layoutPatterns tables).find? fun entry => entry.1.occurs text).map Prod.snd).getD .unknown

/-- The blocks of `parse_snippet` for a text, once its rent is read. -/
def factsOf (text : List Char) (rent : Option Nat) : Facts :=
  let redacted := redact tables text
  let priceText := (searchPrice tables redacted).map fun price => String.ofList price.word
  let layout := layoutOf tables redacted
  { pricing := { sourcePriceText := priceText, monthlyRentMinor := rent }
    priceType := if rent.isSome then .exactMonthlyAsking else .unknown
    priceEvidence := priceText.toList
    layout :=
      { rawLayoutText :=
          if layout = .unknown then none else some (String.ofList (redacted.take 200))
        proposedLayoutClass := layout
        confidence := if layout = .unknown then .unknown else .medium }
    identity :=
      { rawAddressText := ((addressPattern tables).search redacted).map fun found =>
          String.ofList found.word
        rawUnitLabel := (searchUnitLabel tables.toUnicodeTables redacted).map String.ofList }
    description :=
      { text := truthy (some (String.ofList redacted))
        redactionStatus := if redacted ≠ text then .redacted else .notPresent } }

/-- `parse_snippet`. -/
def parseSnippet (title snippet : Option String) : Except SnippetError Facts := do
  let text := joinedText title snippet
  let rent ← rentOf tables (searchPrice tables (redact tables text))
  return factsOf tables text rent

end Snippet

end RentalAgent
