import Mathlib.Data.List.Infix
import Mathlib.Data.List.Sort
import RentalAgent.Canonical.Fingerprint

/-! # Texts of pages

What detail extraction does with text: the excerpt of a long page, the hosts that are
never a building's own site, and the check that a page mentions a street address.
-/

namespace RentalAgent

/-- `needle in text`. -/
def occursIn (needle text : List Char) : Bool := text.tails.any needle.isPrefixOf

theorem occursIn_iff {needle text : List Char} :
    occursIn needle text = true ↔ needle <:+: text := by
  simp only [occursIn, List.any_eq_true, List.mem_tails, List.isPrefixOf_iff_prefix,
    List.infix_iff_prefix_suffix, and_comm]

/-- `text.find(needle, start)` for a needle that is not empty. -/
def findFrom (needle text : List Char) (start : Nat) : Option Nat :=
  ((text.drop start).tails.findIdx? needle.isPrefixOf).map (start + ·)

/-- `text.split()`. -/
def splitWords (text : List Char) : List (List Char) :=
  (text.splitOnP isSpace).filter (· ≠ [])

/-- `text[start:stop]`. -/
def slice (text : List Char) (start stop : Nat) : List Char := (text.take stop).drop start

/-! ## Excerpts -/

/-- `MAX_PAGE_CHARS`. -/
def maxPageChars : Nat := 14000

/-- `_EXCERPT_KEYWORDS`. -/
def excerptKeywords : List (List Char) :=
  ["$".toList, "laundry".toList, "washer".toList, "dryer".toList, "floor plan".toList,
    "floorplan".toList, "amenit".toList, "broker fee".toList, "no fee".toList,
    "per month".toList, "/mo".toList, "available".toList]

/-- The start and the end of a window of the text. -/
abbrev Span := Nat × Nat

/-- The windows around the next occurrences of a keyword, at most `rounds` of them,
each search starting well after the occurrence before. -/
def keywordSpans (keyword lowered : List Char) (length : Nat) : Nat → Nat → List Span
  | 0, _ => []
  | rounds + 1, start =>
      match findFrom keyword lowered start with
      | none => []
      | some index =>
          (index - 600, min length (index + 1400)) ::
            keywordSpans keyword lowered length rounds (index + 2000)

/-- One round of merging: a window that overlaps the last one extends it. The merged
windows are kept with the last one first. -/
def absorbSpan : List Span → Span → List Span
  | [], span => [span]
  | last :: earlier, span =>
      if span.1 ≤ last.2 then (last.1, max last.2 span.2) :: earlier else span :: last :: earlier

/-- The windows in order, overlapping ones merged. -/
def mergeSpans (spans : List Span) : List Span :=
  ((spans.insertionSort fun first second =>
    first.1 < second.1 ∨ first.1 = second.1 ∧ first.2 ≤ second.2).foldl absorbSpan []).reverse

/-- The pieces of the text in the windows, until `cap` characters are taken. -/
def takePieces (text : List Char) (cap : Nat) : Nat → List Span → List (List Char)
  | _, [] => []
  | total, span :: rest =>
      if cap ≤ total then []
      else
        let chunk := slice text span.1 (min span.2 (span.1 + (cap - total)))
        chunk :: takePieces text cap (total + chunk.length) rest

/-- `_relevant_excerpt`. -/
def relevantExcerpt (unicode : UnicodeTables) (text : List Char) (cap : Nat := maxPageChars) :
    List Char :=
  if text.length ≤ cap then text
  else
    let lowered := unicode.lower text
    match excerptKeywords.flatMap fun keyword => keywordSpans keyword lowered text.length 20 0 with
    | [] => text.take cap
    | spans =>
        let head := text.take 1500
        ("\n—n".toList.intercalate
          (head :: takePieces text cap head.length (mergeSpans spans))).take cap

/-! ## Official sites -/

/-- `_AGGREGATOR_DOMAINS`. -/
def aggregatorDomains : List String :=
  ["apartments.com", "zillow.com", "streeteasy.com", "rent.com", "renthop.com", "trulia.com",
    "hotpads.com", "zumper.com", "realtor.com", "apartmentguide.com", "apartmentlist.com",
    "padmapper.com", "craigslist.org", "rentcafe.com", "rentable.co", "rent-marketplace.com",
    "cityrealty.com", "propertyshark.com", "loopnet.com", "niche.com", "newyorkyimby.com",
    "prnewswire.com", "jerseydigs.com", "njbiz.com", "6sqft.com", "curbed.com",
    "therealdeal.com", "uhomes.com", "transparentcity.co", "leaseswap.nyc",
    "luxuryrentalsmanhattan.com", "redfin.com", "compass.com", "theblueground.com",
    "leasing.ai", "facebook.com", "instagram.com", "yelp.com", "google.com", "youtube.com",
    "wikipedia.org"]

/-- The characters of a URL scheme after its first letter. -/
def isSchemeChar (c : Char) : Bool :=
  c.isAlphanum || c = '+' || c = '-' || c = '.'

/-- What follows the scheme of a URL, when it has one. -/
def afterScheme (url : List Char) : List Char :=
  let scheme := url.takeWhile (· ≠ ':')
  if scheme.length < url.length && scheme.head?.any Char.isAlpha && scheme.all isSchemeChar then
    url.drop (scheme.length + 1)
  else url

/-- `urlparse(url).netloc`, before its checks: leading control characters and spaces,
tabs and line breaks are dropped. -/
def netloc (url : List Char) : List Char :=
  let url := (url.dropWhile (·.toNat ≤ 32)).filter fun c => c ≠ '\t' && c ≠ '\r' && c ≠ '\n'
  match afterScheme url with
  | '/' :: '/' :: rest => rest.takeWhile fun c => c ≠ '/' && c ≠ '?' && c ≠ '#'
  | _ => []

/-- `removeprefix("www.").lower()`. -/
def siteHost (unicode : UnicodeTables) (netloc : List Char) : List Char :=
  let www := "www.".toList
  unicode.lower (if www.isPrefixOf netloc then netloc.drop www.length else netloc)

/-- The host is an aggregator, or a municipal or nonprofit site. -/
def neverOfficial (host : List Char) : Bool :=
  aggregatorDomains.any (fun domain =>
    host = domain.toList || ('.' :: domain.toList).isSuffixOf host) ||
    ".gov".toList.isSuffixOf host || ".org".toList.isSuffixOf host

/-! ## Addresses on pages -/

/-- `_page_matches_address` for the first line of an address: the page has its first
word and the first characters of its next two. -/
def mentionsAddress (unicode : UnicodeTables) (addressLine1 text : List Char) : Bool :=
  let lowered := unicode.lower text
  match splitWords (unicode.lower addressLine1) with
  | [] => false
  | houseNumber :: rest =>
      occursIn houseNumber lowered &&
        occursIn (([' '].intercalate (rest.take 2)).take 12) lowered

end RentalAgent
