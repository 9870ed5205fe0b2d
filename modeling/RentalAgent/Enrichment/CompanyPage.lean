import RentalAgent.Enrichment.ListingContent
import RentalAgent.Enrichment.Transit
import RentalAgent.Foundation.Dialogue

/-! # Pages of company properties

The portfolio of a company lists properties by name or street address, each with a link
that may be dead. `_fetch_page` follows the stored links and else looks for the site of
the building, then for its page on StreetEasy. It talks to Tavily, and what Tavily answers
is not known: the fetch is a dialogue.
-/

namespace RentalAgent

open Dialogue

/-! ## Rows -/

/-- How the link of a property was found. -/
inductive LinkKind
  | original | officialSite | streeteasy
  deriving DecidableEq

/-- Whether the link of a property works. -/
inductive CompanyLinkStatus
  | unchecked | ok | replaced | failed
  deriving DecidableEq

/-- The outcome of the last check of a property. -/
inductive CompanyCheckStatus
  | pending | checked | failed
  deriving DecidableEq

/-- A unit that a page advertises. -/
structure CompanyUnit where
  unitLabel : Option String := none
  layout : Option String := none
  monthlyRentUsd : Option Int := none
  availabilityText : Option String := none
  deriving DecidableEq

/-- A stop near a property; the walk to it is only stored when it is plausible. -/
structure NearbyStop where
  stop : String
  mode : TransitMode
  straightLineM : Int
  walkMin : Option Int := none
  walkingM : Option Int := none
  validation : Option String := none
  deriving DecidableEq

/-- What the last successful check read from the page. -/
structure AvailabilitySnapshot where
  availableUnits : List CompanyUnit
  noUnitsStated : Bool
  pageIsThisProperty : Bool
  pagePropertyName : Option String
  evidence : String
  sourceUrl : String
  checkedAt : Timestamp
  laundryType : String
  laundryEvidence : String
  amenities : List String
  feeStatus : String
  feeEvidence : String
  description : Option String
  floorPlanPresent : Bool
  floorPlanUrl : Option String
  nearbyTransit : Option (List NearbyStop) := none
  deriving DecidableEq

/-- What a check was to the history of a property. -/
inductive CheckEvent
  | checkFailed | firstCheck | availabilityChanged | priceChanged | unchanged
  deriving DecidableEq

/-- An entry of the rolling history of checks. -/
structure CheckLogEntry where
  time : Timestamp
  status : CompanyCheckStatus
  unitCount : Nat
  minRent : Option Int
  maxRent : Option Int
  event : CheckEvent
  deriving DecidableEq

/-- A row of `app.company_property`. -/
structure CompanyProperty where
  companyPropertyId : Uuid
  name : String
  nameFingerprint : String
  sourceDocument : String
  originalUrl : Option String := none
  resolvedUrl : Option String := none
  resolvedUrlKind : Option LinkKind := none
  linkStatus : CompanyLinkStatus := .unchecked
  addressText : Option String := none
  locality : Option String := none
  latitude : Option Rat := none
  longitude : Option Rat := none
  matchedBuildingId : Option Uuid := none
  availability : Option AvailabilitySnapshot := none
  checkLog : Option (List CheckLogEntry) := none
  checkStatus : CompanyCheckStatus := .pending
  checkError : Option String := none
  lastCheckedAt : Option Timestamp := none
  createdAt : Timestamp
  updatedAt : Timestamp
  deriving DecidableEq

/-! ## Tavily -/

structure TavilyResult where
  url : Option String := none
  rawContent : Option String := none
  deriving DecidableEq

/-- What comes of a request to Tavily: an HTTP error, no connection, a body that is not
JSON, or results. -/
inductive TavilyAnswer
  | httpError (code : Nat)
  | unreachable
  | malformed
  | results (rows : List TavilyResult)
  deriving DecidableEq

/-- A request to one of the endpoints. -/
inductive TavilyRequest
  | extract (url : String)
  | search (query : SearchQuery)

/-- A request and its answer. -/
abbrev TavilyExchange := TavilyRequest × TavilyAnswer

/-- A dialogue with Tavily. -/
abbrev TavilyDialogue := Dialogue TavilyRequest TavilyAnswer ServiceError

namespace TavilyAnswer

/-- `TavilyExtractClient.extract`. -/
def extract : TavilyAnswer → Except ServiceError (Option String)
  | .httpError code => (PosterAnswer.httpError code).extract
  | .unreachable => PosterAnswer.unreachable.extract
  | .malformed => .error .valueError
  | .results rows => (PosterAnswer.results (rows.map TavilyResult.rawContent)).extract

/-- `TavilySearchProvider.search`: only one of the two refusals of an account has a status
of its own. -/
def search : TavilyAnswer → SearchResponse
  | .httpError code => ⟨if code = 429 then .rateLimited else .failed, []⟩
  | .unreachable | .malformed => ⟨.failed, []⟩
  | .results rows => ⟨.succeeded, rows.filterMap fun row => truthy row.url⟩

/-- Tavily refused the account: its rate limit or the limit of its plan is reached. -/
def refused : TavilyAnswer → Bool
  | .httpError code => code = 429 || code = 432
  | _ => false

end TavilyAnswer

/-! ## Texts -/

/-- What the check of a property consults: the Unicode tables with the decimal digits, and
which network locations `urlparse` accepts. -/
structure TextRules where
  unicode : UnicodeTables
  isDecimal : Char → Bool
  acceptsNetloc : List Char → Bool

/-- `_SUFFIX_EXPANSIONS`. -/
def suffixExpansions : List (List Char × List Char) :=
  [("st".toList, "street".toList), ("ave".toList, "avenue".toList),
    ("blvd".toList, "boulevard".toList), ("rd".toList, "road".toList),
    ("pl".toList, "place".toList), ("dr".toList, "drive".toList), ("ln".toList, "lane".toList),
    ("ter".toList, "terrace".toList), ("pkwy".toList, "parkway".toList)]

/-- The words that say nothing about a property. -/
def nameStopWords : List (List Char) :=
  ["the".toList, "and".toList, "at".toList, "of".toList, "on".toList, "apartments".toList,
    "apartment".toList, "residences".toList]

/-- `urlparse(url).path`, up to its parameters. -/
def urlPath (url : List Char) : List Char :=
  let url := (url.dropWhile (·.toNat ≤ 32)).filter fun c => c ≠ '\t' && c ≠ '\r' && c ≠ '\n'
  let rest := match afterScheme url with
    | '/' :: '/' :: rest => rest.dropWhile fun c => c ≠ '/' && c ≠ '?' && c ≠ '#'
    | rest => rest
  rest.takeWhile fun c => c ≠ '?' && c ≠ '#'

namespace TextRules

variable (rules : TextRules)

/-- `str.strip` of a text. -/
def stripped (text : String) : String := String.ofList (strip text.toList)

/-- `_looks_like_address`: `^\d+[\s-]+\w` at the start of the stripped name. -/
def looksLikeAddress (name : String) : Bool :=
  let text := strip name.toList
  let isSeparator := fun c => isSpace c || c = '-'
  let rest := text.dropWhile rules.isDecimal
  text.head?.any rules.isDecimal && rest.head?.any isSeparator &&
    (rest.dropWhile isSeparator).head?.any rules.unicode.isWord

/-- `_expand_street_suffixes`. -/
def expandStreetSuffixes (text : List Char) : List Char :=
  [' '].intercalate ((splitWords text).map fun word =>
    (suffixExpansions.lookup
      ((rules.unicode.lower word).rdropWhile fun c => c = '.' || c = ',')).getD word)

/-- `_name_tokens`. -/
def nameTokens (name : String) : List (List Char) :=
  let isToken := fun c : Char =>
    (97 ≤ c.toNat && c.toNat ≤ 122) || (48 ≤ c.toNat && c.toNat ≤ 57)
  ((rules.unicode.lower name.toList).splitOnP fun c => !isToken c).filter fun token =>
    3 ≤ token.length && token ∉ nameStopWords

/-- `_host`, for a URL that `urlparse` accepts. -/
def host (url : String) : Except ServiceError (List Char) :=
  let location := netloc url.toList
  if rules.acceptsNetloc location then .ok (siteHost rules.unicode location)
  else .error .valueError

/-- The host is an aggregator. -/
def aggregatorHost (host : List Char) : Bool :=
  aggregatorDomains.any fun domain =>
    host = domain.toList || ('.' :: domain.toList).isSuffixOf host

/-- `_is_aggregator`. -/
def isAggregator (url : String) : Except ServiceError Bool := do
  return aggregatorHost (← rules.host url)

end TextRules

/-! ## Links -/

/-- What a check is given: the rules for texts, and whether there is a search provider. -/
structure PageSearch extends TextRules where
  searches : Bool

/-- A page: its text, where it was found and how. -/
structure FetchedPage where
  text : String
  url : String
  kind : LinkKind
  deriving DecidableEq

namespace CompanyProperty

variable (rules : TextRules) (prop : CompanyProperty)

/-- `_page_name`: the marketing name that an earlier check read from the page. -/
def pageName : Option String :=
  let name := TextRules.stripped
    ((prop.availability.bind AvailabilitySnapshot.pagePropertyName).getD "")
  if name ≠ "" ∧ rules.unicode.lower name.toList ≠ rules.unicode.lower prop.name.toList then
    some name
  else none

/-- The address that a property is searched by. -/
def searchAddress : Option String :=
  if rules.looksLikeAddress prop.name then truthy (some prop.name) else truthy prop.addressText

def expandedAddress : Option String :=
  (prop.searchAddress rules).map fun address =>
    String.ofList (rules.expandStreetSuffixes address.toList)

/-- The queries for the site of the building. -/
def officialQueries : List String :=
  let place := (truthy prop.locality).getD "New York"
  let byName := fun name => "\"" ++ name ++ "\" " ++ place ++ " apartments official website leasing"
  (prop.pageName rules).toList.map byName ++ [byName prop.name] ++
    (prop.expandedAddress rules).elim [] fun expanded =>
      ["\"" ++ expanded ++ "\" " ++ place ++ " apartment building official website leasing",
        expanded ++ " " ++ place ++ " apartment building leasing office"]

/-- The queries for the page of the building on StreetEasy. -/
def streeteasyQueries : List String :=
  let byName := fun name => "site:streeteasy.com \"" ++ name ++ "\""
  (prop.pageName rules).toList.map byName ++ [byName prop.name] ++
    (prop.expandedAddress rules).toList.map fun expanded => "site:streeteasy.com " ++ expanded

/-- The page has the first word of the reference and the start of the second one. -/
def mentionsReference (reference lowered : List Char) : Bool :=
  match splitWords (rules.unicode.lower reference) with
  | first :: second :: _ => occursIn first lowered && occursIn (second.take 10) lowered
  | _ => false

/-- `_page_mentions_property`. -/
def pageMentionsProperty (text : String) : Bool :=
  let lowered := rules.unicode.lower text.toList
  let references :=
    (if rules.looksLikeAddress prop.name then [prop.name] else []) ++
      (truthy prop.addressText).toList
  let tokens := rules.nameTokens prop.name
  (references.any fun reference =>
      mentionsReference rules reference.toList lowered ||
        mentionsReference rules (rules.expandStreetSuffixes reference.toList) lowered) ||
    (!rules.looksLikeAddress prop.name && tokens ≠ [] &&
      max 1 ((tokens.length + 1) / 2) ≤ tokens.countP fun token => occursIn token lowered)

end CompanyProperty

namespace PageSearch

variable (env : PageSearch)

/-- Fetching a page: its text, when there is any. -/
def extractPage (url : String) : TavilyDialogue (Option String) := do
  let answer ← inquire (.extract url)
  return truthy (← lift answer.extract)

/-- `_search_urls`: a search that did not succeed found nothing. -/
def searchUrls (query : String) : TavilyDialogue (List String) :=
  if !env.searches then pure []
  else do
    let answer ← inquire (.search { query := query, maxResults := 8 })
    return if answer.search.status = .succeeded then answer.search.items else []

/-- The found URLs that are kept, each once, after those kept before. -/
def keepUrls (keeps : String → Except ServiceError Bool) :
    List String → List String → Except ServiceError (List String)
  | candidates, [] => .ok candidates
  | candidates, url :: rest => do
      if (← keeps url) && url ∉ candidates then keepUrls keeps (candidates ++ [url]) rest
      else keepUrls keeps candidates rest

/-- One query after the other, until there are enough candidates. -/
def findCandidates (keeps : String → Except ServiceError Bool) (enough : Nat) :
    List String → List String → TavilyDialogue (List String)
  | candidates, [] => pure (candidates.take enough)
  | candidates, query :: rest => do
      let urls ← env.searchUrls query
      let candidates ← lift (keepUrls keeps candidates urls)
      if enough ≤ candidates.length then return candidates.take enough
      else findCandidates keeps enough candidates rest

/-- Neither an aggregator nor a municipal, nonprofit or school site. -/
def mayBeOfficial (url : String) : Except ServiceError Bool := do
  let host ← env.host url
  return !(TextRules.aggregatorHost host ||
    [".gov", ".org", ".edu"].any fun suffix => suffix.toList.isSuffixOf host)

/-- A page of StreetEasy about a building or a complex. -/
def isBuildingPage (url : String) : Except ServiceError Bool := do
  let host ← env.host url
  return "streeteasy.com".toList.isSuffixOf host &&
    ["/building/", "/complex/"].any fun start => start.toList.isPrefixOf (urlPath url.toList)

/-- `_official_candidates`. -/
def officialCandidates (prop : CompanyProperty) : TavilyDialogue (List String) :=
  env.findCandidates env.mayBeOfficial 3 [] (prop.officialQueries env.toTextRules)

/-- `_streeteasy_candidates`. -/
def streeteasyCandidates (prop : CompanyProperty) : TavilyDialogue (List String) :=
  env.findCandidates env.isBuildingPage 2 [] (prop.streeteasyQueries env.toTextRules)

/-- A link that was found as the official site but is an aggregator: it was repaired under
an older list of them. -/
def leavesOut (url : String) (kind : LinkKind) : Except ServiceError Bool :=
  if kind = .officialSite then env.isAggregator url else .ok false

/-- The stored links in order. Each is tried once. With the links tried, the first page
found. -/
def fetchStored (prop : CompanyProperty) :
    List String → List (Option String × LinkKind) →
      TavilyDialogue (List String × Option FetchedPage)
  | tried, [] => pure (tried, none)
  | tried, (stored, kind) :: rest =>
      match truthy stored with
      | none => fetchStored prop tried rest
      | some url =>
          if url ∈ tried then fetchStored prop tried rest
          else do
            if ← lift (env.leavesOut url kind) then fetchStored prop tried rest
            else
              match ← extractPage url with
              | some text =>
                  let kind := if some url = prop.originalUrl then .original else kind
                  return (url :: tried, some ⟨text, url, kind⟩)
              | none => fetchStored prop (url :: tried) rest

/-- The candidates in order, each unless it was tried before. A page counts when it
mentions the property. -/
def tryCandidates (prop : CompanyProperty) (kind : LinkKind) :
    List String → List String → TavilyDialogue (List String × Option FetchedPage)
  | tried, [] => pure (tried, none)
  | tried, candidate :: rest =>
      if candidate ∈ tried then tryCandidates prop kind tried rest
      else do
        match (← extractPage candidate).filter (prop.pageMentionsProperty env.toTextRules) with
        | some text => return (candidate :: tried, some ⟨text, candidate, kind⟩)
        | none => tryCandidates prop kind (candidate :: tried) rest

/-- The finders in order, with the kind of link that each finds. -/
def repairLink (prop : CompanyProperty) :
    List String → List (TavilyDialogue (List String) × LinkKind) →
      TavilyDialogue (Option FetchedPage)
  | _, [] => pure none
  | tried, (finder, kind) :: rest => do
      let candidates ← finder
      let (tried, found) ← env.tryCandidates prop kind tried candidates
      match found with
      | some page => return some page
      | none => repairLink prop tried rest

/-- `_fetch_page`. -/
def fetchPage (prop : CompanyProperty) : TavilyDialogue (Option FetchedPage) := do
  let (tried, found) ← env.fetchStored prop []
    [(prop.resolvedUrl, prop.resolvedUrlKind.getD .original), (prop.originalUrl, .original)]
  match found with
  | some page => return some page
  | none =>
      env.repairLink prop tried
        [(env.officialCandidates prop, .officialSite),
          (env.streeteasyCandidates prop, .streeteasy)]

end PageSearch

end RentalAgent
