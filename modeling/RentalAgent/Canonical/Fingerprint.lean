import Mathlib.Data.List.DropRight
import RentalAgent.Values

/-! # Fingerprints of addresses and units

`unit_fingerprint` and `address_fingerprint` on lists of characters. The case
tables of Unicode and its class of alphanumeric characters are parameters; the
white space of `str.strip` and of `\s` is listed.
-/

namespace RentalAgent

/-- Texts are compared character by character. -/
instance lawfulText : LawfulBEq (List Char) := inferInstance

/-- The Unicode tables the text functions consult. -/
structure UnicodeTables where
  lower : List Char → List Char
  upper : List Char → List Char
  isAlnum : Char → Bool

/-- The white space of `str.strip` and `\s`. -/
def isSpace (c : Char) : Bool :=
  (9 ≤ c.toNat && c.toNat ≤ 13) || (28 ≤ c.toNat && c.toNat ≤ 32) || c.toNat = 0x85 ||
    c.toNat = 0xA0 || c.toNat = 0x1680 || (0x2000 ≤ c.toNat && c.toNat ≤ 0x200A) ||
    c.toNat = 0x2028 || c.toNat = 0x2029 || c.toNat = 0x202F || c.toNat = 0x205F ||
    c.toNat = 0x3000

/-- `str.strip`. -/
def strip (text : List Char) : List Char :=
  (text.dropWhile isSpace).rdropWhile isSpace

/-- `\w`. -/
def UnicodeTables.isWord (unicode : UnicodeTables) (c : Char) : Bool :=
  unicode.isAlnum c || c = '_'

/-! ## Units -/

/-- The designators of a unit, in the order the pattern tries them. -/
def unitDesignators : List (List Char) :=
  ["APT".toList, "UNIT".toList, "STE".toList, "SUITE".toList, "NO".toList]

/-- `re.sub(r"^(APT|UNIT|STE|SUITE|NO)\.?\s*", "", text)`. -/
def dropDesignator (text : List Char) : List Char :=
  match unitDesignators.find? (·.isPrefixOf text) with
  | none => text
  | some designator =>
      let rest := text.drop designator.length
      let rest := if rest.head? = some '.' then rest.tail else rest
      rest.dropWhile isSpace

/-- The class `[\s\-#.]`. -/
def isUnitPunctuation (c : Char) : Bool :=
  isSpace c || c = '-' || c = '#' || c = '.'

/-- `unit_fingerprint`. -/
def unitFingerprint (unicode : UnicodeTables) (raw : String) : String :=
  String.ofList ((dropDesignator (strip (unicode.upper raw.toList))).filter
    fun c => !isUnitPunctuation c)

/-! ## Addresses -/

/-- The suffixes and directions that are abbreviated, in source order. -/
def addressReplacements : List (List Char × List Char) :=
  [("street".toList, "st".toList), ("avenue".toList, "ave".toList),
    ("boulevard".toList, "blvd".toList), ("road".toList, "rd".toList),
    ("place".toList, "pl".toList), ("drive".toList, "dr".toList), ("lane".toList, "ln".toList),
    ("terrace".toList, "ter".toList), ("parkway".toList, "pkwy".toList),
    ("east".toList, "e".toList), ("west".toList, "w".toList), ("north".toList, "n".toList),
    ("south".toList, "s".toList)]

/-- `re.sub(r"\bword\b", abbreviation, text)` for a word of word characters: its
occurrences between boundaries are the maximal runs of word characters that
equal it. -/
def replaceWord (unicode : UnicodeTables) (word abbreviation text : List Char) : List Char :=
  ((text.splitBy fun a b => unicode.isWord a = unicode.isWord b).map
    fun run => if run = word then abbreviation else run).flatten

/-- `re.sub(r"\s+", " ", text)`, where `inSpace` tells that the previous character
was white space. -/
def collapseSpaces (inSpace : Bool) : List Char → List Char
  | [] => []
  | c :: rest =>
      if isSpace c then
        if inSpace then collapseSpaces true rest else ' ' :: collapseSpaces true rest
      else c :: collapseSpaces false rest

/-- `address_fingerprint`. -/
def addressFingerprint (unicode : UnicodeTables) (raw : String) : String :=
  let text := strip (unicode.lower raw.toList)
  let text := text.map fun c => if c = '.' || c = ',' || c = '#' then ' ' else c
  let text := addressReplacements.foldl
    (fun text entry => replaceWord unicode entry.1 entry.2 text) text
  String.ofList (strip (collapseSpaces false text))

end RentalAgent
