import RentalAgent.Acquisition.ListingUrls

/-! # The pages a search discovers

A source is followed by the native ids of its pages, so a discovery must not report one page
twice and must not report two pages as one. Both depend on the canonical URLs: the discovery
compares canonical URLs, and the native id is read from a canonical URL. A path with a
semicolon in its last segment, which a slash at its end brings past the splitter, is the case
in which the two disagree (`identifies_iff`).
-/

namespace RentalAgent.SearchIndex

open Pattern Snippet Url

variable {tables : TextTables} {checks : HostChecks} {site : Site} {geography : String}
  {results : List SearchResultItem} {discovery : Discovery}

/-! ## The walk over the results -/

/-- A result that is accepted, as the page of this path. -/
abbrev Finds (site : Site) (checks : HostChecks) (results : List SearchResultItem)
    (path : List Char) : Prop :=
  ∃ result ∈ results, Accepts site checks result.url.toList path

/-- The native id of a path. -/
def nativeId (path : List Char) : List Char := (bare path).dropWhile (· = '/')

/-- A URL that cannot be split. -/
def Unreadable (checks : HostChecks) (url : List Char) : Prop :=
  urlparse checks url = .error .valueError

/-- What the walk knows after some results: one item for every page that was found. -/
structure Walked (site : Site) (checks : HostChecks) (results : List SearchResultItem)
    (discovery : Discovery) : Prop where
  seen : ∀ canonical, canonical ∈ discovery.seen ↔
    canonical ∈ discovery.items.map DiscoveredItem.detailUrl
  once : (discovery.items.map DiscoveredItem.detailUrl).Nodup
  found : ∀ item ∈ discovery.items, ∃ path, Finds site checks results path ∧
    item.detailUrl = site.canonical path ∧ item.sourceNativeId = nativeId path
  kept : ∀ path, Finds site checks results path →
    site.canonical path ∈ discovery.items.map DiscoveredItem.detailUrl

/-- Nothing was walked before the first answer. -/
theorem Walked.start (state : AdapterState) : Walked site checks [] { state := state } where
  seen _ := Iff.rfl
  once := List.nodup_nil
  found _ member := absurd member List.not_mem_nil
  kept := by
    rintro path ⟨result, member, -⟩
    cases member

theorem Accepts.unique {url path other : List Char} (accepts : Accepts site checks url path)
    (again : Accepts site checks url other) : path = other := by
  obtain ⟨parsed, split, accepted⟩ := accepts
  obtain ⟨parsedAgain, splitAgain, acceptedAgain⟩ := again
  obtain rfl := Except.ok.inj (split.symm.trans splitAgain)
  exact Option.some.inj (accepted.symm.trans acceptedAgain)

/-- One round: an unreadable URL stops the walk, a result that is no page is passed over, and
a page is added when its canonical URL was not seen. -/
theorem Discovery.visit_cases (checks : HostChecks) (regular : site.Regular)
    (geography : String) (discovery : Discovery) (result : SearchResultItem) :
    (Unreadable checks result.url.toList ∧
      discovery.visit site checks geography result = .error .valueError) ∨
    ((∃ parsed, urlparse checks result.url.toList = .ok parsed) ∧
      (∀ path, ¬Accepts site checks result.url.toList path) ∧
      discovery.visit site checks geography result = .ok discovery) ∨
    ∃ path, Accepts site checks result.url.toList path ∧
      discovery.visit site checks geography result = .ok
        (if site.canonical path ∈ discovery.seen then discovery
        else {
          state := discovery.state.remember site geography (site.canonical path) result
          seen := site.canonical path :: discovery.seen
          items := discovery.items ++
            [⟨nativeId path, site.canonical path, result.title, result.snippet⟩] }) := by
  rw [Discovery.visit, canonicalizeUrl_eq]
  cases split : urlparse checks result.url.toList with
  | error failure => exact .inl ⟨split, rfl⟩
  | ok parsed =>
      cases accepted : site.acceptedPath parsed with
      | none =>
          refine .inr (.inl ⟨⟨parsed, rfl⟩, ?_, ?_⟩)
          · rintro path ⟨again, splitAgain, found⟩
            obtain rfl := Except.ok.inj (split.symm.trans splitAgain)
            rw [accepted] at found
            cases found
          · simp [Except.map, accepted]
            rfl
      | some path =>
          have accepts : Accepts site checks result.url.toList path := ⟨parsed, split, accepted⟩
          refine .inr (.inr ⟨path, accepts, ?_⟩)
          have reads := nativeIdFromUrl_canonical checks regular accepts.listingPath
          have canonical : (Except.ok (some (site.canonical path)) : Except UrlError _) =
              Except.map (fun parsed => (site.acceptedPath parsed).map site.canonical)
                (.ok parsed) := by
            rw [Except.map, accepted]
            rfl
          rw [← canonical, Relational.ok_bind]
          change (if site.canonical path ∈ discovery.seen then _ else _) = _
          split
          · rfl
          · rw [reads]
            rfl

/-- What one round preserves. -/
theorem Walked.visit (regular : site.Regular) {result : SearchResultItem}
    {next : Discovery} (walked : Walked site checks results discovery)
    (step : discovery.visit site checks geography result = .ok next) :
    (∃ parsed, urlparse checks result.url.toList = .ok parsed) ∧
      Walked site checks (results ++ [result]) next := by
  have earlier {path : List Char} (finds : Finds site checks results path) :
      Finds site checks (results ++ [result]) path := by
    obtain ⟨one, member, accepts⟩ := finds
    exact ⟨one, List.mem_append_left _ member, accepts⟩
  rcases Discovery.visit_cases checks regular geography discovery result with
    ⟨-, fails⟩ | ⟨reads, noPage, passes⟩ | ⟨path, accepts, adds⟩
  · rw [fails] at step
    cases step
  · rw [passes] at step
    cases step
    refine ⟨reads, walked.seen, walked.once, fun item member => ?_, ?_⟩
    · obtain ⟨path, finds, same⟩ := walked.found item member
      exact ⟨path, earlier finds, same⟩
    · rintro path ⟨one, member, accepts⟩
      rcases List.mem_append.mp member with before | last
      · exact walked.kept path ⟨one, before, accepts⟩
      · rw [List.mem_singleton.mp last] at accepts
        exact absurd accepts (noPage path)
  · have finds : Finds site checks (results ++ [result]) path :=
      ⟨result, List.mem_append_right _ (List.mem_singleton_self _), accepts⟩
    have only {other : List Char} (found : Finds site checks (results ++ [result]) other) :
        Finds site checks results other ∨ other = path := by
      obtain ⟨one, member, acceptsOne⟩ := found
      rcases List.mem_append.mp member with before | last
      · exact .inl ⟨one, before, acceptsOne⟩
      · rw [List.mem_singleton.mp last] at acceptsOne
        exact .inr (acceptsOne.unique accepts)
    refine ⟨?_, ?_⟩
    · obtain ⟨parsed, split, -⟩ := accepts
      exact ⟨parsed, split⟩
    rw [adds] at step
    obtain rfl := Except.ok.inj step
    by_cases seen : site.canonical path ∈ discovery.seen
    · rw [if_pos seen]
      refine ⟨walked.seen, walked.once, fun item member => ?_, fun other found => ?_⟩
      · obtain ⟨page, found, same⟩ := walked.found item member
        exact ⟨page, earlier found, same⟩
      · rcases only found with before | rfl
        · exact walked.kept other before
        · exact (walked.seen _).mp seen
    · rw [if_neg seen]
      refine ⟨fun canonical => ?_, ?_, fun item member => ?_, fun other found => ?_⟩
      · rw [List.map_append, List.mem_append, List.mem_cons, walked.seen canonical, or_comm]
        exact or_congr_right List.mem_singleton.symm
      · rw [List.map_append]
        refine List.nodup_append'.mpr ⟨walked.once, List.nodup_singleton _, ?_⟩
        exact List.disjoint_singleton.mpr fun member => seen ((walked.seen _).mpr member)
      · rcases List.mem_append.mp member with before | last
        · obtain ⟨page, found, same⟩ := walked.found item before
          exact ⟨page, earlier found, same⟩
        · rw [List.mem_singleton.mp last]
          exact ⟨path, finds, rfl, rfl⟩
      · rw [List.map_append]
        rcases only found with before | rfl
        · exact List.mem_append_left _ (walked.kept other before)
        · exact List.mem_append_right _ (List.mem_singleton_self _)

/-- The walk reaches its end when every URL can be split. -/
theorem foldlM_visit_ok (regular : site.Regular) (geography : String)
    (readable : ∀ result ∈ results, ∃ parsed, urlparse checks result.url.toList = .ok parsed) :
    ∃ next, results.foldlM (Discovery.visit site checks geography) discovery = .ok next := by
  induction results generalizing discovery with
  | nil => exact ⟨discovery, rfl⟩
  | cons result rest following =>
      have others := fun other member => readable other (List.mem_cons_of_mem _ member)
      obtain ⟨parsed, split⟩ := readable result List.mem_cons_self
      rcases Discovery.visit_cases checks regular geography discovery result with
        ⟨fails, -⟩ | ⟨-, -, passes⟩ | ⟨path, -, adds⟩
      · cases fails.symm.trans split
      · rw [List.foldlM_cons, passes]
        exact following others
      · rw [List.foldlM_cons, adds]
        exact following others

/-- What a whole walk knows. -/
theorem walked_of_foldlM (regular : site.Regular) {next : Discovery} (state : AdapterState)
    (walk : results.foldlM (Discovery.visit site checks geography) { state := state } = .ok next) :
    (∀ result ∈ results, ∃ parsed, urlparse checks result.url.toList = .ok parsed) ∧
      Walked site checks results next := by
  induction results using List.reverseRecOn generalizing next with
  | nil =>
      obtain rfl := Except.ok.inj walk
      exact ⟨fun _ member => absurd member List.not_mem_nil, .start state⟩
  | append_singleton before result earlier =>
      rw [List.foldlM_append] at walk
      obtain ⟨middle, reached, last⟩ := Relational.bind_eq_ok.mp walk
      obtain ⟨readable, walked⟩ := earlier reached
      rw [List.foldlM_cons] at last
      obtain ⟨after, step, done⟩ := Relational.bind_eq_ok.mp last
      obtain rfl := Except.ok.inj done
      obtain ⟨reads, walkedAfter⟩ := walked.visit regular step
      refine ⟨fun one member => ?_, walkedAfter⟩
      rcases List.mem_append.mp member with inFront | atEnd
      · exact readable one inFront
      · rw [List.mem_singleton.mp atEnd]
        exact reads

/-! ## What an adapter identifies -/

/-- The results that a discovery walks over. -/
def SearchResponse.answered (response : SearchResponse) : List SearchResultItem :=
  if response.status = .succeeded then response.items else []

/-- A URL whose scheme is `http` or `https`. -/
def IsWeb (checks : HostChecks) (url : List Char) : Prop :=
  ∃ parsed, urlparse checks url = .ok parsed ∧
    parsed.scheme ∈ ["http".toList, "https".toList]

/-- The canonical URLs of an answer identify its pages: a canonical URL is its own canonical
URL, the spellings of a page have one, the native ids tell canonical URLs apart, and a
discovery has each native id at most once and one item for each page. -/
structure Identifies (site : Site) (checks : HostChecks) (maxResults : Nat) (geography : String)
    (response : SearchResponse) (state : AdapterState) : Prop where
  stable : ∀ result ∈ response.answered, IsWeb checks result.url.toList → ∀ canonical,
    canonicalizeUrl site checks result.url.toList = .ok (some canonical) →
      canonicalizeUrl site checks canonical = .ok (some canonical)
  variants : ∀ first ∈ response.answered, ∀ second ∈ response.answered,
    IsWeb checks first.url.toList → IsWeb checks second.url.toList →
      Variants first.url.toList second.url.toList → ∀ canonical other,
        canonicalizeUrl site checks first.url.toList = .ok (some canonical) →
        canonicalizeUrl site checks second.url.toList = .ok (some other) → canonical = other
  injective : ∀ first ∈ response.answered, ∀ second ∈ response.answered,
    IsWeb checks first.url.toList → IsWeb checks second.url.toList → ∀ canonical other,
      canonicalizeUrl site checks first.url.toList = .ok (some canonical) →
      canonicalizeUrl site checks second.url.toList = .ok (some other) →
        nativeIdFromUrl checks canonical = nativeIdFromUrl checks other → canonical = other
  discovers : ∃ next page,
    discover site checks maxResults geography response state = .ok (next, page) ∧
      (page.items.map DiscoveredItem.sourceNativeId).Nodup ∧
      (∀ result ∈ response.answered, ∀ canonical,
        canonicalizeUrl site checks result.url.toList = .ok (some canonical) →
          ∃! item, item ∈ page.items ∧ item.detailUrl = canonical) ∧
      ∀ item ∈ page.items, ∃ result ∈ response.answered,
        canonicalizeUrl site checks result.url.toList = .ok (some item.detailUrl)

/-- No two pages of an answer have paths that differ only behind a semicolon. -/
def Distinguishable (site : Site) (checks : HostChecks) (results : List SearchResultItem) : Prop :=
  ∀ path other, Finds site checks results path → Finds site checks results other →
    bare path = bare other → path = other

/-- No web page of an answer has a semicolon in the last segment of its path. -/
def PlainPaths (site : Site) (checks : HostChecks) (results : List SearchResultItem) : Prop :=
  ∀ result ∈ results, IsWeb checks result.url.toList → ∀ path,
    Accepts site checks result.url.toList path → ';' ∉ lastSegment path

/-- Every page that was found has one item. -/
theorem Walked.existsUnique {path : List Char} (walked : Walked site checks results discovery)
    (finds : Finds site checks results path) :
    ∃! item, item ∈ discovery.items ∧ item.detailUrl = site.canonical path := by
  obtain ⟨item, member, detail⟩ := List.mem_map.mp (walked.kept path finds)
  refine ⟨item, ⟨member, detail⟩, fun other ⟨otherMember, otherDetail⟩ => ?_⟩
  exact List.inj_on_of_nodup_map walked.once otherMember member (otherDetail.trans detail.symm)

/-- The native ids are distinct when the pages are distinguishable. -/
theorem Walked.nativeIds_nodup (regular : site.Regular)
    (walked : Walked site checks results discovery)
    (apart : Distinguishable site checks results) :
    (discovery.items.map DiscoveredItem.sourceNativeId).Nodup := by
  refine List.Nodup.map_on ?_ (List.Nodup.of_map _ walked.once)
  intro item member other otherMember same
  obtain ⟨path, finds, detail, id⟩ := walked.found item member
  obtain ⟨otherPath, findsOther, otherDetail, otherId⟩ := walked.found other otherMember
  have page : ListingPath site path := by
    obtain ⟨_, -, accepts⟩ := finds
    exact accepts.listingPath
  have otherPage : ListingPath site otherPath := by
    obtain ⟨_, -, accepts⟩ := findsOther
    exact accepts.listingPath
  have one : path = otherPath := apart path otherPath finds findsOther
    (bare_eq_of_nativeId regular page otherPage (id.symm.trans (same.trans otherId)))
  exact List.inj_on_of_nodup_map walked.once member otherMember
    (by rw [detail, otherDetail, one])

/-- What a discovery returns: an item for each page of an answer whose URLs can be split. -/
theorem discover_spec (regular : site.Regular) {maxResults : Nat} {response : SearchResponse}
    {state next : AdapterState} {page : DiscoveryPage}
    (discovered : discover site checks maxResults geography response state = .ok (next, page)) :
    (∀ result ∈ response.answered, ∃ parsed, urlparse checks result.url.toList = .ok parsed) ∧
      ∃ discovery, Walked site checks response.answered discovery ∧
        discovery.items = page.items := by
  rw [discover] at discovered
  split at discovered
  · rename_i failed
    obtain ⟨rfl, rfl⟩ := Prod.mk.inj (Except.ok.inj discovered)
    rw [SearchResponse.answered, if_neg failed]
    exact ⟨fun _ member => absurd member List.not_mem_nil, _, .start state, rfl⟩
  · rename_i succeeded
    obtain ⟨discovery, walk, done⟩ := Relational.bind_eq_ok.mp discovered
    obtain ⟨rfl, rfl⟩ := Prod.mk.inj (Except.ok.inj done)
    rw [SearchResponse.answered, if_pos (not_not.mp succeeded)]
    obtain ⟨readable, walked⟩ := walked_of_foldlM regular state walk
    exact ⟨readable, discovery, walked, rfl⟩

/-- Discovery returns a page when every URL of the response can be read. -/
theorem discover_returns (regular : site.Regular) {maxResults : Nat} {response : SearchResponse}
    {state : AdapterState} (readable : ∀ result ∈ response.answered,
      ∃ parsed, urlparse checks result.url.toList = .ok parsed) :
    ∃ next page, discover site checks maxResults geography response state = .ok (next, page) := by
  rw [discover]
  split
  · exact ⟨_, _, rfl⟩
  · rename_i succeeded
    rw [SearchResponse.answered, if_pos (not_not.mp succeeded)] at readable
    obtain ⟨discovery, walk⟩ := foldlM_visit_ok regular geography readable
    exact ⟨_, _, by rw [walk]; rfl⟩

/-- Without a semicolon in its last segment, an accepted path is its own bare path. -/
theorem Adapter.bare_eq_self {adapter : Adapter} {path : List Char}
    (other : adapter ≠ .streetEasy) (page : ListingPath (adapter.site tables) path) :
    bare path = path :=
  (bare_eq_self_iff page).mpr fun member =>
    adapter.no_semicolon other page.listing ((List.rtakeWhile_suffix _ _).subset member)

/-- The listing paths of the other adapters are plain, so they tell listings apart. -/
theorem Adapter.plain_apart {adapter : Adapter} (other : adapter ≠ .streetEasy)
    (results : List SearchResultItem) :
    PlainPaths (adapter.site tables) checks results ∧
      Distinguishable (adapter.site tables) checks results := by
  constructor
  · intro result member web path accepts
    exact (bare_eq_self_iff accepts.listingPath).mp (bare_eq_self other accepts.listingPath)
  · rintro path second ⟨_, -, accepts⟩ ⟨_, -, acceptsSecond⟩ same
    rwa [bare_eq_self other accepts.listingPath, bare_eq_self other acceptsSecond.listingPath]
      at same

/-- The native id of an item is that of the page that it reports. -/
theorem Walked.sourceNativeId_eq (regular : site.Regular)
    (walked : Walked site checks results discovery) {item : DiscoveredItem} {path : List Char}
    (member : item ∈ discovery.items) (page : ListingPath site path)
    (detail : item.detailUrl = site.canonical path) : item.sourceNativeId = nativeId path := by
  obtain ⟨again, ⟨_, -, accepts⟩, detailAgain, id⟩ := walked.found item member
  rw [id, canonical_injective regular accepts.listingPath page (detailAgain.symm.trans detail)]

section Exactness

variable {maxResults : Nat} {response : SearchResponse} {state : AdapterState}

/-- Identified pages were read from URLs that split, and their canonical URLs are their own. -/
theorem Identifies.plain_apart (regular : site.Regular)
    (identifies : Identifies site checks maxResults geography response state) :
    (∀ result ∈ response.answered, ∃ parsed, urlparse checks result.url.toList = .ok parsed) ∧
      PlainPaths site checks response.answered ∧
        Distinguishable site checks response.answered := by
  obtain ⟨next, page, discovered, once, kept, -⟩ := identifies.discovers
  obtain ⟨readable, discovery, walked, items⟩ := discover_spec regular discovered
  refine ⟨readable, fun result member web path accepts => ?_, ?_⟩
  · have accepted := canonicalizeUrl_eq_some.mpr ⟨path, accepts, rfl⟩
    exact (canonicalizeUrl_canonical_iff regular accepts.listingPath).mp
      (identifies.stable result member web _ accepted)
  · rintro path other ⟨result, member, accepts⟩ ⟨second, secondMember, acceptsOther⟩ same
    obtain ⟨item, ⟨inPage, detail⟩, -⟩ := kept result member _
      (canonicalizeUrl_eq_some.mpr ⟨path, accepts, rfl⟩)
    obtain ⟨otherItem, ⟨otherInPage, otherDetail⟩, -⟩ := kept second secondMember _
      (canonicalizeUrl_eq_some.mpr ⟨other, acceptsOther, rfl⟩)
    -- two pages of one native id are one item, and an item has one URL
    have ids : item.sourceNativeId = otherItem.sourceNativeId := by
      rw [walked.sourceNativeId_eq regular (items ▸ inPage) accepts.listingPath detail,
        walked.sourceNativeId_eq regular (items ▸ otherInPage) acceptsOther.listingPath otherDetail,
        nativeId, same, nativeId]
    have one : item = otherItem := List.inj_on_of_nodup_map once inPage otherInPage ids
    rw [one] at detail
    exact canonical_injective regular accepts.listingPath acceptsOther.listingPath
      (detail.symm.trans otherDetail)

/-- Pages whose canonical URLs are their own are identified. -/
theorem identifies_of_plain_apart (regular : site.Regular)
    (readable : ∀ result ∈ response.answered,
      ∃ parsed, urlparse checks result.url.toList = .ok parsed)
    (plain : PlainPaths site checks response.answered)
    (apart : Distinguishable site checks response.answered) :
    Identifies site checks maxResults geography response state := by
  refine ⟨?_, ?_, ?_, ?_⟩
  · intro result member web canonical accepted
    obtain ⟨path, accepts, rfl⟩ := canonicalizeUrl_eq_some.mp accepted
    exact (canonicalizeUrl_canonical_iff regular accepts.listingPath).mpr
      (plain result member web path accepts)
  · intro first member second secondMember web secondWeb variants canonical other accepted again
    obtain ⟨path, accepts, rfl⟩ := canonicalizeUrl_eq_some.mp accepted
    obtain ⟨otherPath, acceptsOther, rfl⟩ := canonicalizeUrl_eq_some.mp again
    rw [path_eq_of_variants variants accepts acceptsOther (plain first member web _ accepts)
      (plain second secondMember secondWeb _ acceptsOther)]
  · intro first member second secondMember _ _ canonical other accepted again same
    obtain ⟨path, accepts, rfl⟩ := canonicalizeUrl_eq_some.mp accepted
    obtain ⟨otherPath, acceptsOther, rfl⟩ := canonicalizeUrl_eq_some.mp again
    rw [nativeIdFromUrl_canonical checks regular accepts.listingPath,
      nativeIdFromUrl_canonical checks regular acceptsOther.listingPath] at same
    rw [apart path otherPath ⟨first, member, accepts⟩ ⟨second, secondMember, acceptsOther⟩
      (bare_eq_of_nativeId regular accepts.listingPath acceptsOther.listingPath
        (Except.ok.inj same))]
  · obtain ⟨next, page, discovered⟩ := discover_returns regular readable
    obtain ⟨-, discovery, walked, items⟩ := discover_spec regular discovered
    refine ⟨next, page, discovered, items ▸ walked.nativeIds_nodup regular apart, ?_, ?_⟩
    · intro result member canonical accepted
      obtain ⟨path, accepts, rfl⟩ := canonicalizeUrl_eq_some.mp accepted
      rw [← items]
      exact walked.existsUnique ⟨result, member, accepts⟩
    · intro item member
      rw [← items] at member
      obtain ⟨path, ⟨result, inAnswer, accepts⟩, detail, -⟩ := walked.found item member
      exact ⟨result, inAnswer, canonicalizeUrl_eq_some.mpr ⟨path, accepts, detail.symm⟩⟩

end Exactness

/-- **Exactness of the pages a search discovers.** The canonical URLs and the native ids of an
answer identify its pages when its URLs can be split and, for StreetEasy, no web page has a
semicolon in the last segment of its path and no two pages differ only behind one. -/
theorem identifies_iff (adapter : Adapter) (tables : TextTables) (checks : HostChecks)
    (maxResults : Nat) (geography : String) (response : SearchResponse) (state : AdapterState) :
    Identifies (adapter.site tables) checks maxResults geography response state ↔
      (∀ result ∈ response.answered, ∃ parsed, urlparse checks result.url.toList = .ok parsed) ∧
        (adapter = .streetEasy →
          PlainPaths (adapter.site tables) checks response.answered ∧
            Distinguishable (adapter.site tables) checks response.answered) := by
  constructor
  · intro identifies
    obtain ⟨readable, both⟩ := identifies.plain_apart adapter.regular
    exact ⟨readable, fun _ => both⟩
  · rintro ⟨readable, condition⟩
    by_cases streetEasy : adapter = .streetEasy
    · obtain ⟨plain, apart⟩ := condition streetEasy
      exact identifies_of_plain_apart adapter.regular readable plain apart
    · obtain ⟨plain, apart⟩ := Adapter.plain_apart streetEasy response.answered
      exact identifies_of_plain_apart adapter.regular readable plain apart

/-- A result of StreetEasy whose canonical URL is not its own: the canonical URL loses the slash
that kept the semicolon in the path. -/
def semicolonResponse : SearchResponse where
  status := .succeeded
  items := [{ url := "https://streeteasy.com/building/a/b;p/" }]

/-- The canonical URL of a page with a semicolon is the URL of another page. -/
theorem semicolon_moves_the_page : ¬ Identifies (Adapter.streetEasy.site TextTables.ascii)
    ⟨id, fun _ => false⟩ 10 "nyc_manhattan" semicolonResponse {} := by
  intro identifies
  have web : IsWeb ⟨id, fun _ => false⟩ "https://streeteasy.com/building/a/b;p/".toList :=
    ⟨_, rfl, by decide⟩
  have again := identifies.stable _ List.mem_cons_self web
    "https://streeteasy.com/building/a/b;p".toList (by decide)
  have moved : canonicalizeUrl (Adapter.streetEasy.site TextTables.ascii) ⟨id, fun _ => false⟩
      "https://streeteasy.com/building/a/b;p".toList =
        .ok (some "https://streeteasy.com/building/a/b".toList) := by decide
  rw [moved] at again
  revert again
  decide

end RentalAgent.SearchIndex
