import RentalAgent.Foundation.Url
import RentalAgent.Acquisition.ParseSnippet

/-! # The search-index adapters

StreetEasy, Apartments.com and Rent.com are searched in an index. The three adapters differ
in the pages they accept, in the canonical form of a page's URL and in their geographic
labels; a result is kept by its canonical URL, and its title and its snippet are all that is
captured of it.
-/

namespace RentalAgent.SearchIndex

open Pattern Snippet Url

/-! ## URLs -/

/-- What an adapter knows about its source. -/
structure Site where
  sourceCode : String
  /-- The network location without `www.`. -/
  domain : List Char
  canonicalHost : List Char
  /-- What the canonical path ends with. -/
  ending : List Char
  isListingPath : List Char → Bool
  geoLabels : List (String × String)

/-- `text.removeprefix("www.")`. -/
def dropWww (netloc : List Char) : List Char :=
  if "www.".toList.isPrefixOf netloc then netloc.drop 4 else netloc

/-- `canonicalize_url`. -/
def canonicalizeUrl (site : Site) (checks : HostChecks) (url : List Char) :
    Except UrlError (Option (List Char)) := do
  let parsed ← urlparse checks url
  if dropWww parsed.netloc ≠ site.domain then return none
  else
    let path := dropSlashes parsed.path
    if site.isListingPath path then
      return some (urlunparse ⟨"https".toList, site.canonicalHost, path ++ site.ending, [], [], []⟩)
    else return none

/-- `native_id_from_url`. -/
def nativeIdFromUrl (checks : HostChecks) (canonicalUrl : List Char) :
    Except UrlError (List Char) := do
  let parsed ← urlparse checks canonicalUrl
  return (dropSlashes parsed.path).dropWhile (· = '/')

variable (tables : TextTables)

/-- `$`. -/
def atLineEnd : Pattern Char := atEnd (· = '\n')

/-- `[^/]+`. -/
def segment : Pattern Char := plus (letter (· ≠ '/'))

/-- `_LISTING_PATH_RE` of StreetEasy: `^/(building/[^/]+/[^/]+|rental/\d+)/?$`. -/
def streetEasyPath : Pattern Char :=
  inSequence [exactly '/',
    alt (inSequence [caseWord "building/", segment, exactly '/', segment])
      (inSequence [caseWord "rental/", plus (letter tables.isDecimal)]),
    opt (exactly '/'), atLineEnd]

/-- The adapter of StreetEasy. -/
def streetEasy : Site where
  sourceCode := "streeteasy"
  domain := "streeteasy.com".toList
  canonicalHost := "streeteasy.com".toList
  ending := []
  isListingPath path :=
    (streetEasyPath tables).matchesStart (path ++ ['/']) ||
      (streetEasyPath tables).matchesStart path
  geoLabels :=
    [("nyc_manhattan", "Manhattan"), ("nyc_brooklyn", "Brooklyn"), ("nyc_queens", "Queens"),
      ("nyc_bronx", "Bronx"), ("nbhd_upper_east_side", "Manhattan"), ("nbhd_astoria", "Queens"),
      ("nbhd_bushwick", "Brooklyn"), ("nbhd_harlem", "Manhattan")]

/-- `_CITY_SLUGS`. -/
def citySlugs : List (List Char) :=
  ["jersey-city-nj".toList, "hoboken-nj".toList, "fort-lee-nj".toList]

/-- `_LISTING_PATH_RE.match` of Apartments.com: `^/([\w-]+-nj)/([a-z0-9]{5,10})$`, with its
first group. -/
def matchApartmentsPath (path : List Char) : Option (Excerpt Char) :=
  captureAt (exactly '/') (seq (plus (letter tables.isLabel)) (caseWord "-nj"))
    (inSequence [exactly '/', between 5 10 (letter fun c => c.isLower || c.isDigit), atLineEnd])
    [] path

/-- The adapter of Apartments.com. -/
def apartmentsCom : Site where
  sourceCode := "apartments_com"
  domain := "apartments.com".toList
  canonicalHost := "www.apartments.com".toList
  ending := ['/']
  isListingPath path := (matchApartmentsPath tables path).any fun found => found.group ∉ citySlugs
  geoLabels := [("nj_fort_lee", "Fort Lee")]

/-- `_LISTING_PATH_RE` of Rent.com: `^/apartment/([\w-]+-lc\d{4,10})$`. -/
def rentComPath : Pattern Char :=
  inSequence [caseWord "/apartment/", plus (letter tables.isLabel), caseWord "-lc",
    between 4 10 (letter tables.isDecimal), atLineEnd]

/-- The adapter of Rent.com. -/
def rentCom : Site where
  sourceCode := "rent_com"
  domain := "rent.com".toList
  canonicalHost := "www.rent.com".toList
  ending := []
  isListingPath path := (rentComPath tables).matchesStart path
  geoLabels :=
    [("nj_jc_downtown", "Jersey City"), ("nj_jc_journal_square", "Jersey City"),
      ("nj_jc_newport", "Jersey City"), ("nj_jc_heights", "Jersey City"),
      ("nj_hoboken", "Hoboken"), ("nj_fort_lee", "Fort Lee")]

/-- The three adapters. -/
inductive Adapter
  | streetEasy | apartmentsCom | rentCom
  deriving DecidableEq

/-- What each adapter knows about its source. -/
def Adapter.site : Adapter → Site
  | .streetEasy => SearchIndex.streetEasy tables
  | .apartmentsCom => SearchIndex.apartmentsCom tables
  | .rentCom => SearchIndex.rentCom tables

/-! ## Discovery -/

/-- `SearchResultItem`. -/
structure SearchResultItem where
  url : String
  title : Option String := none
  snippet : Option String := none
  deriving DecidableEq

/-- `SearchResponse`. -/
structure SearchResponse where
  status : ProviderRequestStatus
  items : List SearchResultItem := []
  errorCode : Option String := none

/-- `DiscoveredItem`, with the title and the snippet of its card. -/
structure DiscoveredItem where
  sourceNativeId : List Char
  detailUrl : List Char
  title : Option String
  snippet : Option String
  deriving DecidableEq

/-- `health_markers`: the error of a search, or the number of its results. -/
inductive HealthMarker
  | searchError (errorCode : Option String)
  | resultCount (count : Nat)
  deriving DecidableEq

/-- `DiscoveryPage`. -/
structure DiscoveryPage where
  items : List DiscoveredItem
  appearsTruncated : Bool
  healthMarker : HealthMarker
  deriving DecidableEq

/-- What an adapter remembers of its results, by canonical URL. -/
structure AdapterState where
  itemContext : List Char → Option SearchResultItem := fun _ => none
  itemGeo : List Char → Option String := fun _ => none

/-- Remembering a result of a partition: a partition without a label leaves the label of
an earlier one. -/
def AdapterState.remember (site : Site) (geography : String) (canonical : List Char)
    (result : SearchResultItem) (state : AdapterState) : AdapterState where
  itemContext := Function.update state.itemContext canonical (some result)
  itemGeo :=
    match site.geoLabels.lookup geography with
    | some label => Function.update state.itemGeo canonical (some label)
    | none => state.itemGeo

/-- The loop of `discover`: the memory, what was seen, and the items so far. -/
structure Discovery where
  state : AdapterState
  seen : List (List Char) := []
  items : List DiscoveredItem := []

/-- One round of `discover`. -/
def Discovery.visit (site : Site) (checks : HostChecks) (geography : String)
    (discovery : Discovery) (result : SearchResultItem) : Except UrlError Discovery := do
  match ← canonicalizeUrl site checks result.url.toList with
  | none => return discovery
  | some canonical =>
      if canonical ∈ discovery.seen then return discovery
      else
        let nativeId ← nativeIdFromUrl checks canonical
        return {
          state := discovery.state.remember site geography canonical result
          seen := canonical :: discovery.seen
          items := discovery.items ++ [⟨nativeId, canonical, result.title, result.snippet⟩] }

/-- `discover` for the answer of the search provider. -/
def discover (site : Site) (checks : HostChecks) (maxResults : Nat) (geography : String)
    (response : SearchResponse) (state : AdapterState) :
    Except UrlError (AdapterState × DiscoveryPage) :=
  if response.status ≠ .succeeded then
    .ok (state, ⟨[], true, .searchError response.errorCode⟩)
  else do
    let discovery ← response.items.foldlM (Discovery.visit site checks geography) { state := state }
    return (discovery.state, ⟨discovery.items, maxResults ≤ response.items.length,
      .resultCount response.items.length⟩)

/-! ## Captures -/

/-- `RawListingCapture`, with the title, the snippet and the label in its blocks. -/
structure SnippetCapture where
  finalUrl : List Char
  retrievedAt : Timestamp
  contentHash : String
  title : Option String
  snippet : Option String
  geoLabel : Option String
  deriving DecidableEq

/-- The text that is hashed: the title, a bar and the snippet. -/
def payload (title snippet : Option String) : String := title.getD "" ++ "|" ++ snippet.getD ""

/-- `fetch_detail`: what the adapter remembers of the item. -/
def fetchDetail (sha256 : String → String) (now : Timestamp) (state : AdapterState)
    (item : DiscoveredItem) : SnippetCapture :=
  let result := (state.itemContext item.detailUrl).getD { url := String.ofList item.detailUrl }
  { finalUrl := item.detailUrl
    retrievedAt := now
    contentHash := sha256 (payload result.title result.snippet)
    title := result.title
    snippet := result.snippet
    geoLabel := state.itemGeo item.detailUrl }

/-- The exceptions of `extract`. -/
inductive ExtractError
  | snippet (failure : SnippetError)
  | url (failure : UrlError)
  deriving DecidableEq

/-- What `extract` returns. -/
structure SnippetObservation where
  sourceNativeId : List Char
  sourceUrl : List Char
  observedAt : Timestamp
  retrievedAt : Timestamp
  facts : Facts
  deriving DecidableEq

/-- The labels of a capture. -/
def SnippetCapture.labels (capture : SnippetCapture) : List String :=
  (truthy capture.geoLabel).toList

/-- `extract`. -/
def extract (checks : HostChecks) (now : Timestamp) (capture : SnippetCapture) :
    Except ExtractError SnippetObservation := do
  let facts ← (parseSnippet tables capture.title capture.snippet).mapError .snippet
  let nativeId ← (nativeIdFromUrl checks capture.finalUrl).mapError .url
  return {
    sourceNativeId := nativeId
    sourceUrl := capture.finalUrl
    observedAt := capture.retrievedAt
    retrievedAt := now
    facts := { facts with
      identity := { facts.identity with sourceGeographicLabels := capture.labels } } }

end RentalAgent.SearchIndex
