import RentalAgent.Acquisition.SnippetTotal
import RentalAgent.Acquisition.SearchAdapters

/-! # Canonical URLs of listings

The canonical URL of a page is put together from the path that a URL was accepted for, and it
is read again by the same splitter. Reading it gives the path back unless its last segment has
a semicolon (`canonicalizeUrl_canonical_iff`): what stands behind a semicolon is no part of the
path. The native id is read from the canonical URL, so two pages whose paths differ only behind
a semicolon have one native id. Only StreetEasy accepts such a path
(`Adapter.no_semicolon`).
-/

namespace RentalAgent.SearchIndex

open Pattern Snippet Url

variable {tables : TextTables} {checks : HostChecks} {site : Site} {parsed : ParsedUrl}
  {path url : List Char}

/-! ## Accepted paths -/

/-- The path of a listing page, when the URL is one of the source. -/
def Site.acceptedPath (site : Site) (parsed : ParsedUrl) : Option (List Char) :=
  if dropWww parsed.netloc = site.domain ∧ site.isListingPath (dropSlashes parsed.path) = true then
    some (dropSlashes parsed.path)
  else none

/-- The canonical URL of a path. -/
def Site.canonical (site : Site) (path : List Char) : List Char :=
  urlunparse ⟨"https".toList, site.canonicalHost, path ++ site.ending, [], [], []⟩

/-- A URL is read, its path is accepted or not, and an accepted path is spelled in one way. -/
theorem canonicalizeUrl_eq (site : Site) (checks : HostChecks) (url : List Char) :
    canonicalizeUrl site checks url =
      (urlparse checks url).map fun parsed => (site.acceptedPath parsed).map site.canonical := by
  rw [canonicalizeUrl]
  cases urlparse checks url with
  | error failure => rfl
  | ok parsed =>
      change (if dropWww parsed.netloc ≠ site.domain then _ else _) = Except.ok _
      by_cases domain : dropWww parsed.netloc = site.domain
      · by_cases listing : site.isListingPath (dropSlashes parsed.path) = true
        · simp [Site.acceptedPath, domain, listing]
          rfl
        · simp [Site.acceptedPath, domain, listing]
          rfl
      · simp [Site.acceptedPath, domain]
        rfl

/-- What the pages of a source have in common: their paths begin with one slash, and the
canonical host is one that the source is recognized by. -/
structure Site.Regular (site : Site) : Prop where
  starts : ∀ path, site.isListingPath path = true → ∃ c rest, path = '/' :: c :: rest ∧ c ≠ '/'
  host : ∀ checks, checkNetloc checks site.canonicalHost = true
  domain : dropWww site.canonicalHost = site.domain
  letters : ∀ c ∈ site.canonicalHost, endsNetloc c = false ∧ isRemoved c = false
  ending : site.ending = [] ∨
    site.ending = ['/'] ∧ ∀ path, site.isListingPath path = true → ';' ∉ path

theorem plainLetters (text : List Char)
    (plain : (text.all fun c => !endsNetloc c && !isRemoved c) = true) :
    ∀ c ∈ text, endsNetloc c = false ∧ isRemoved c = false := by
  intro c member
  simpa using List.all_eq_true.mp plain c member

/-- The host and the listing paths of StreetEasy are as canonicalization needs them. -/
theorem streetEasy_regular : (streetEasy tables).Regular where
  starts path listing := by
    have first (text : List Char) (found : (streetEasyPath tables).matchesStart text = true) :
        ∃ c d rest, text = '/' :: c :: d :: rest ∧ c ≠ '/' := by
      obtain ⟨word, after, rfl, _, more, rfl, ⟨slash, rfl, isSlash⟩, _, _, rfl, kinds, -⟩ :=
        matchesStart_iff.mp found
      rw [of_decide_eq_true isSlash]
      rcases kinds with ⟨_, _, rfl, name, -⟩ | ⟨_, _, rfl, name, -⟩
      · rw [matches_literal_eq.mp name]
        exact ⟨'b', 'u', _, rfl, by decide⟩
      · rw [matches_literal_eq.mp name]
        exact ⟨'r', 'e', _, rfl, by decide⟩
    rcases Bool.or_eq_true _ _ ▸ listing with withSlash | found
    · obtain ⟨c, d, rest, same, other⟩ := first _ withSlash
      rcases path with _ | ⟨slash, _ | ⟨next, rest⟩⟩
      · cases same
      · cases same
      · obtain ⟨rfl, more⟩ := List.cons.inj same
        obtain ⟨rfl, -⟩ := List.cons.inj more
        exact ⟨next, rest, rfl, other⟩
    · obtain ⟨c, d, rest, same, other⟩ := first _ found
      exact ⟨c, d :: rest, same, other⟩
  host _ := rfl
  domain := rfl
  letters := plainLetters "streeteasy.com".toList (by decide)
  ending := .inl rfl

/-- What stands after a match that reaches to the end of a line. -/
theorem after_of_atLineEnd {before word after : List Char}
    (matched : atLineEnd.Matches before word after) : ';' ∉ after := by
  rcases matched.2 with rfl | ⟨-, breaks⟩
  · exact List.not_mem_nil
  · exact fun member => absurd (List.all_eq_true.mp breaks _ member) (by decide)

theorem isLabel_eq_false {c : Char} (ascii : c.toNat < 128) (other : c.isAlphanum = false)
    (bar : c ≠ '_') (dash : c ≠ '-') : tables.isLabel c = false := by
  rw [UnicodeTables.isLabel, isWord_ascii ascii, other]
  simp [bar, dash]

theorem isLabel_semicolon : tables.isLabel ';' = false :=
  isLabel_eq_false (by decide) (by decide) (by decide) (by decide)

/-- A path of Apartments.com begins with one slash and has no semicolon. -/
theorem matchApartmentsPath_spec {found : Excerpt Char}
    (matched : matchApartmentsPath tables path = some found) :
    (∃ c rest, path = '/' :: c :: rest ∧ c ≠ '/') ∧ ';' ∉ path := by
  obtain ⟨-, split, opening, group, closing⟩ := captureAt_spec matched
  have noOpening : (exactly '/').uses ';' = false := by decide
  have noGroup : (seq (plus (letter tables.isLabel)) (caseWord "-nj")).uses ';' = false := by
    have fixed : (caseWord "-nj").uses ';' = false := by decide
    simp [uses, plus, isLabel_semicolon, fixed]
  have noClosing : (inSequence [exactly '/', between 5 10 (letter fun c => c.isLower || c.isDigit),
      atLineEnd]).uses ';' = false := by decide
  have noAfter : ';' ∉ found.after := by
    obtain ⟨_, _, -, -, _, _, -, -, _, ends, -, lineEnd, rfl⟩ := closing
    exact after_of_atLineEnd lineEnd
  constructor
  · obtain ⟨slash, opens, isSlash⟩ := opening
    obtain ⟨_, right, whole, ⟨_, more, rfl, ⟨c, rfl, label⟩, -⟩, -⟩ := group
    refine ⟨c, more ++ right ++ found.closing ++ found.after, ?_, ?_⟩
    · rw [split, Excerpt.word, opens, whole, of_decide_eq_true isSlash]
      simp
    · rintro rfl
      have outside : tables.isLabel '/' = false :=
        isLabel_eq_false (by decide) (by decide) (by decide) (by decide)
      exact Bool.false_ne_true (outside.symm.trans label)
  · rw [split, Excerpt.word]
    simp only [List.mem_append, not_or]
    refine ⟨⟨⟨fun member => ?_, fun member => ?_⟩, fun member => ?_⟩, noAfter⟩
    · exact Bool.false_ne_true (noOpening.symm.trans (uses_of_mem opening member))
    · exact Bool.false_ne_true (noGroup.symm.trans (uses_of_mem group member))
    · exact Bool.false_ne_true (noClosing.symm.trans (uses_of_mem closing member))

/-- The host and the listing paths of Apartments.com are as canonicalization needs them. -/
theorem apartmentsCom_regular : (apartmentsCom tables).Regular where
  starts path listing := by
    obtain ⟨found, matched, -⟩ := (Option.any_eq_true _ _).mp listing
    exact (matchApartmentsPath_spec matched).1
  host _ := rfl
  domain := rfl
  letters := plainLetters "www.apartments.com".toList (by decide)
  ending := by
    refine .inr ⟨rfl, fun path listing => ?_⟩
    obtain ⟨found, matched, -⟩ := (Option.any_eq_true _ _).mp listing
    exact (matchApartmentsPath_spec matched).2

/-- A path of Rent.com begins with one slash and has no semicolon. -/
theorem rentComPath_spec (found : (rentComPath tables).matchesStart path = true) :
    (∃ c rest, path = '/' :: c :: rest ∧ c ≠ '/') ∧ ';' ∉ path := by
  obtain ⟨word, after, rfl, matched⟩ := matchesStart_iff.mp found
  have noWord : (rentComPath tables).uses ';' = false := by
    have first : (caseWord "/apartment/").uses ';' = false := by decide
    have second : (caseWord "-lc").uses ';' = false := by decide
    have digit : tables.isDecimal ';' = false := decimal_eq_none (by decide) (by decide)
    simp [rentComPath, inSequence, uses, plus, isLabel_semicolon, first, second, between, times,
      upTo, opt, digit, atLineEnd]
  have noneIn : ';' ∉ word := fun member =>
    Bool.false_ne_true (noWord.symm.trans (uses_of_mem matched member))
  obtain ⟨_, _, rfl, name, _, _, rfl, -, _, _, rfl, -, _, _, rfl, -, _, _, rfl, lineEnd, rfl⟩ :=
    matched
  refine ⟨?_, ?_⟩
  · rw [matches_literal_eq.mp name]
    exact ⟨'a', _, rfl, by decide⟩
  · rw [List.mem_append, not_or]
    exact ⟨noneIn, after_of_atLineEnd lineEnd⟩

theorem rentCom_regular : (rentCom tables).Regular where
  starts path listing := (rentComPath_spec listing).1
  host _ := rfl
  domain := rfl
  letters := plainLetters "www.rent.com".toList (by decide)
  ending := .inl rfl

/-- Only StreetEasy accepts a path with a semicolon. -/
theorem Adapter.no_semicolon {adapter : Adapter} (other : adapter ≠ .streetEasy)
    (listing : (adapter.site tables).isListingPath path = true) : ';' ∉ path := by
  cases adapter with
  | streetEasy => exact absurd rfl other
  | apartmentsCom =>
      obtain ⟨found, matched, -⟩ := (Option.any_eq_true _ _).mp listing
      exact (matchApartmentsPath_spec matched).2
  | rentCom => exact (rentComPath_spec listing).2

theorem Adapter.regular (adapter : Adapter) : (adapter.site tables).Regular := by
  cases adapter with
  | streetEasy => exact streetEasy_regular
  | apartmentsCom => exact apartmentsCom_regular
  | rentCom => exact rentCom_regular

/-! ## Reading a canonical URL -/

/-- A path as it is read from its canonical URL. -/
def bare (path : List Char) : List Char := dropSlashes (cutParams path)

/-- The URL is accepted, as the page of this path. -/
def Accepts (site : Site) (checks : HostChecks) (url path : List Char) : Prop :=
  ∃ parsed, urlparse checks url = .ok parsed ∧ site.acceptedPath parsed = some path

/-- An accepted path: a listing path without a slash at its end and without characters that
end a path or are removed from one. -/
structure ListingPath (site : Site) (path : List Char) : Prop where
  listing : site.isListingPath path = true
  trimmed : dropSlashes path = path
  letters : ∀ c ∈ path, isRemoved c = false ∧ c ≠ '?' ∧ c ≠ '#'

/-- An accepted URL has a path of a listing. -/
theorem Accepts.listingPath (accepts : Accepts site checks url path) : ListingPath site path := by
  obtain ⟨parsed, split, accepted⟩ := accepts
  rw [Site.acceptedPath] at accepted
  split at accepted
  · rename_i here
    cases accepted
    exact ⟨here.2, dropSlashes_idem _, fun c member =>
      path_of_urlparse split c ((prefix_of_dropSlashes _).subset member)⟩
  · cases accepted

/-- A URL has a canonical form just when a path of it is accepted, and that path spells it. -/
theorem canonicalizeUrl_eq_some {canonical : List Char} :
    canonicalizeUrl site checks url = .ok (some canonical) ↔
      ∃ path, Accepts site checks url path ∧ site.canonical path = canonical := by
  rw [canonicalizeUrl_eq]
  cases split : urlparse checks url with
  | error failure => simp [Except.map, Accepts, split]
  | ok parsed => simp [Except.map, Accepts, split]

/-- The canonical URL as it is written. -/
theorem canonical_eq_render (regular : site.Regular) (page : ListingPath site path) :
    site.canonical path =
      render "https".toList site.canonicalHost (path ++ site.ending) none none := by
  obtain ⟨c, rest, rfl, -⟩ := regular.starts path page.listing
  simp [Site.canonical, urlunparse, render]

theorem canonical_injective (regular : site.Regular) {other : List Char}
    (page : ListingPath site path) (otherPage : ListingPath site other)
    (same : site.canonical path = site.canonical other) : path = other := by
  rw [canonical_eq_render regular page, canonical_eq_render regular otherPage] at same
  simpa [render] using same

/-- The canonical URL of a path is read as a URL of the source with the bare path. -/
theorem urlparse_canonical (checks : HostChecks) (regular : site.Regular)
    (page : ListingPath site path) :
    ∃ parsed, urlparse checks (site.canonical path) = .ok parsed ∧
      dropWww parsed.netloc = site.domain ∧ dropSlashes parsed.path = bare path := by
  have letters : ∀ c ∈ path ++ site.ending, isRemoved c = false ∧ c ≠ '?' ∧ c ≠ '#' := by
    intro c member
    rcases List.mem_append.mp member with inPath | atEnd
    · exact page.letters c inPath
    · rcases regular.ending with none | ⟨slash, -⟩
      · rw [none] at atEnd
        cases atEnd
      · rw [slash, List.mem_singleton] at atEnd
        rw [atEnd]
        decide
  have isPath : IsPath (path ++ site.ending) := by
    obtain ⟨c, rest, rfl, -⟩ := regular.starts path page.listing
    exact ⟨.inr rfl, fun c member => (letters c member).2⟩
  have isScheme : IsScheme "https".toList := ⟨by decide, by decide⟩
  have hostFree : ∀ c ∈ site.canonicalHost, endsNetloc c = false :=
    fun c member => (regular.letters c member).1
  have host : clean site.canonicalHost = site.canonicalHost :=
    clean_eq_self fun c member => (regular.letters c member).2
  rw [canonical_eq_render regular page, urlparse_render isScheme hostFree isPath (by simp), host,
    if_pos (regular.host checks), clean_eq_self fun c member => (letters c member).1,
    ParsedUrl.of, if_pos (by decide)]
  refine ⟨_, rfl, regular.domain, ?_⟩
  change dropSlashes (cutParams (path ++ site.ending)) = bare path
  rcases regular.ending with none | ⟨slash, noSemicolon⟩
  · rw [none, List.append_nil, bare]
  · have whole : cutParams path = path := cutParams_eq_self_iff.mpr fun member =>
      noSemicolon path page.listing ((List.rtakeWhile_suffix _ _).subset member)
    rw [slash, cutParams_append_slash, dropSlashes_append_slash, bare, whole]

/-- A path is bare when its last segment has no semicolon. -/
theorem bare_eq_self_iff (page : ListingPath site path) :
    bare path = path ↔ ';' ∉ lastSegment path := by
  rw [← cutParams_eq_self_iff, bare]
  constructor
  · intro same
    have shorter := (prefix_of_dropSlashes (cutParams path)).length_le
    rw [same] at shorter
    exact (prefix_of_cutParams path).eq_of_length_le shorter
  · intro whole
    rw [whole, page.trimmed]

/-- A canonical URL is its own canonical URL when its path is bare. -/
theorem canonicalizeUrl_canonical_iff (regular : site.Regular) (page : ListingPath site path) :
    canonicalizeUrl site checks (site.canonical path) = .ok (some (site.canonical path)) ↔
      ';' ∉ lastSegment path := by
  obtain ⟨parsed, split, domain, reads⟩ := urlparse_canonical checks regular page
  rw [← bare_eq_self_iff page, canonicalizeUrl_eq_some]
  constructor
  · rintro ⟨other, accepts, same⟩
    obtain rfl := canonical_injective regular accepts.listingPath page same
    obtain ⟨again, splitAgain, accepted⟩ := accepts
    obtain rfl := Except.ok.inj (split.symm.trans splitAgain)
    rw [Site.acceptedPath] at accepted
    split at accepted
    · exact reads.symm.trans (Option.some.inj accepted)
    · cases accepted
  · intro whole
    refine ⟨path, ⟨parsed, split, ?_⟩, rfl⟩
    rw [Site.acceptedPath, reads, whole, if_pos ⟨domain, page.listing⟩]

/-- The native id of a page is its bare path without the slash in front. -/
theorem nativeIdFromUrl_canonical (checks : HostChecks) (regular : site.Regular)
    (page : ListingPath site path) :
    nativeIdFromUrl checks (site.canonical path) = .ok ((bare path).dropWhile (· = '/')) := by
  obtain ⟨parsed, split, -, reads⟩ := urlparse_canonical checks regular page
  rw [nativeIdFromUrl, split, ← reads]
  rfl

/-- Two pages have one native id when their bare paths are the same. -/
theorem bare_eq_of_nativeId (regular : site.Regular) {other : List Char}
    (page : ListingPath site path) (otherPage : ListingPath site other)
    (same : (bare path).dropWhile (· = '/') = (bare other).dropWhile (· = '/')) :
    bare path = bare other := by
  have shape {path : List Char} (page : ListingPath site path) :
      bare path = [] ∨ ∃ c rest, bare path = '/' :: c :: rest ∧ c ≠ '/' := by
    obtain ⟨c, rest, rfl, first⟩ := regular.starts path page.listing
    have start : bare ('/' :: c :: rest) <+: '/' :: c :: rest :=
      (prefix_of_dropSlashes _).trans (prefix_of_cutParams _)
    rcases List.prefix_cons_iff.mp start with empty | ⟨more, slash, others⟩
    · exact .inl empty
    rcases List.prefix_cons_iff.mp others with rfl | ⟨following, rfl, -⟩
    · have once := dropSlashes_idem (cutParams ('/' :: c :: rest))
      change dropSlashes (bare ('/' :: c :: rest)) = bare ('/' :: c :: rest) at once
      rw [slash] at once
      cases once
    · exact .inr ⟨c, following, slash, first⟩
  rcases shape page with empty | ⟨c, rest, slash, first⟩ <;>
    rcases shape otherPage with otherEmpty | ⟨d, others, otherSlash, otherFirst⟩
  · rw [empty, otherEmpty]
  · rw [empty, otherSlash] at same
    simp [otherFirst] at same
  · rw [slash, otherEmpty] at same
    simp [first] at same
  · rw [slash, otherSlash] at same ⊢
    simpa [first, otherFirst] using same

/-! ## Spellings of a URL -/

/-- What does not make another page: the scheme, `www.`, slashes at the end of the path, the
query and the fragment. -/
structure Spelling where
  scheme : List Char
  www : Bool
  slashes : Nat
  query : Option (List Char)
  fragment : Option (List Char)
  web : scheme.map Char.toLower ∈ ["http".toList, "https".toList]
  queryFree : ∀ given ∈ query, '#' ∉ given

/-- A page's URL in a spelling. -/
def Spelling.text (spelling : Spelling) (host path : List Char) : List Char :=
  render spelling.scheme ((if spelling.www then "www.".toList else []) ++ host)
    (path ++ List.replicate spelling.slashes '/') spelling.query spelling.fragment

/-- Two URLs that differ only in how they are spelled. -/
def Variants (first second : List Char) : Prop :=
  ∃ host path, (∀ c ∈ host, endsNetloc c = false) ∧ IsPath path ∧
    ∃ one other : Spelling, first = one.text host path ∧ second = other.text host path

theorem isAlpha_of_toLower {c : Char} (lower : c.toLower.isAlpha = true) : c.isAlpha = true := by
  cases upper : c.isUpper with
  | true => exact Letters.isAlpha_iff.mpr (.inl upper)
  | false => rwa [Letters.toLower_of_not_isUpper upper] at lower

/-- Both spellings of the scheme are schemes. -/
theorem Spelling.isScheme (spelling : Spelling) : IsScheme spelling.scheme := by
  have letters : ∀ c ∈ spelling.scheme, c.isAlpha = true := by
    have lower : (["http".toList, "https".toList].all fun scheme => scheme.all Char.isAlpha) =
        true := by decide
    exact fun c member => isAlpha_of_toLower (List.all_eq_true.mp
      (List.all_eq_true.mp lower _ spelling.web) _ (List.mem_map_of_mem member))
  have present : spelling.scheme ≠ [] := by
    intro empty
    have web := spelling.web
    rw [empty] at web
    revert web
    decide
  refine ⟨?_, List.all_eq_true.mpr fun c member => ?_⟩
  · obtain ⟨c, rest, split⟩ := List.exists_cons_of_ne_nil present
    rw [split]
    exact letters c (by simp [split])
  · have letter : c.isAlphanum = true := Letters.isAlphanum_iff.mpr (.inl (letters c member))
    simp [Url.isSchemeChar, letter]

/-- The page that a spelling is accepted as. -/
theorem Spelling.path_of_accepts {spelling : Spelling} {host accepted : List Char}
    (hostFree : ∀ c ∈ host, endsNetloc c = false) (isPath : IsPath path)
    (accepts : Accepts site checks (spelling.text host path) accepted) :
    accepted = bare (clean path ++ List.replicate spelling.slashes '/') := by
  obtain ⟨parsed, split, accepted⟩ := accepts
  have netlocFree : ∀ c ∈ (if spelling.www then "www.".toList else []) ++ host,
      endsNetloc c = false := by
    intro c member
    rcases List.mem_append.mp member with prefixed | inHost
    · have www : ("www.".toList.all fun c => !endsNetloc c && !isRemoved c) = true := by decide
      split at prefixed
      · exact (plainLetters _ www c prefixed).1
      · cases prefixed
    · exact hostFree c inHost
  have slashes : ∀ c ∈ List.replicate spelling.slashes '/', c = '/' := fun c member =>
    List.eq_of_mem_replicate member
  have isPathWhole : IsPath (path ++ List.replicate spelling.slashes '/') := by
    refine ⟨?_, fun c member => ?_⟩
    · rcases isPath.starts with rfl | slash
      · cases spelling.slashes with
        | zero => exact .inl rfl
        | succ count => exact .inr rfl
      · obtain ⟨rest, rfl⟩ := List.head?_eq_some_iff.mp slash
        exact .inr rfl
    · rcases List.mem_append.mp member with inPath | slash
      · exact isPath.separators c inPath
      · rw [slashes c slash]
        decide
  have kept : clean (List.replicate spelling.slashes '/') = List.replicate spelling.slashes '/' :=
    clean_eq_self fun c member => by rw [slashes c member]; decide
  rw [Spelling.text] at split
  generalize (if spelling.www then "www.".toList else []) ++ host = netloc at split netlocFree
  rw [urlparse_render spelling.isScheme netlocFree isPathWhole spelling.queryFree,
    clean_append path, kept] at split
  split at split
  · obtain rfl := Except.ok.inj split
    have hasParams : String.ofList (spelling.scheme.map Char.toLower) ∈ usesParams := by
      have listed : ∀ scheme ∈ ["http".toList, "https".toList],
          String.ofList scheme ∈ usesParams := by decide
      exact listed _ spelling.web
    rw [Site.acceptedPath] at accepted
    split at accepted
    · rw [← Option.some.inj accepted, ParsedUrl.of, if_pos hasParams, bare]
    · cases accepted
  · cases split

/-- With a slash at the end, a semicolon is a letter of the path. -/
theorem bare_append_slashes (path : List Char) (count : Nat) :
    bare (path ++ List.replicate (count + 1) '/') = dropSlashes path := by
  rw [bare, List.replicate_succ', ← List.append_assoc, cutParams_append_slash,
    dropSlashes_append_slash, dropSlashes_append_replicate]

/-- Without parameters in its last segment a path only loses its trailing slashes. -/
theorem bare_eq_dropSlashes (plain : ';' ∉ lastSegment (dropSlashes path)) :
    bare path = dropSlashes path := by
  rcases List.eq_nil_or_concat' path with rfl | ⟨front, c, rfl⟩
  · rfl
  by_cases slash : c = '/'
  · rw [slash, bare, cutParams_append_slash]
  · have trimmed : dropSlashes (front ++ [c]) = front ++ [c] :=
      List.rdropWhile_concat_neg _ _ _ (by simpa using slash)
    rw [trimmed] at plain
    rw [bare, cutParams_eq_self_iff.mpr plain]

/-- Two spellings of one page are accepted as one path, when neither has a semicolon in its
last segment. -/
theorem path_eq_of_variants {first second firstPath secondPath : List Char}
    (variants : Variants first second) (firstAccepts : Accepts site checks first firstPath)
    (secondAccepts : Accepts site checks second secondPath)
    (firstPlain : ';' ∉ lastSegment firstPath) (secondPlain : ';' ∉ lastSegment secondPath) :
    firstPath = secondPath := by
  obtain ⟨host, path, hostFree, isPath, one, other, rfl, rfl⟩ := variants
  have reads := one.path_of_accepts hostFree isPath firstAccepts
  have otherReads := other.path_of_accepts hostFree isPath secondAccepts
  cases slashes : one.slashes with
  | zero =>
      rw [slashes, List.replicate_zero, List.append_nil] at reads
      cases otherSlashes : other.slashes with
      | zero =>
          rw [otherSlashes, List.replicate_zero, List.append_nil] at otherReads
          rw [reads, otherReads]
      | succ count =>
          rw [otherSlashes, bare_append_slashes] at otherReads
          rw [otherReads] at secondPlain ⊢
          rw [reads, bare_eq_dropSlashes secondPlain]
  | succ count =>
      rw [slashes, bare_append_slashes] at reads
      cases otherSlashes : other.slashes with
      | zero =>
          rw [otherSlashes, List.replicate_zero, List.append_nil] at otherReads
          rw [reads] at firstPlain ⊢
          rw [otherReads, bare_eq_dropSlashes firstPlain]
      | succ count =>
          rw [otherSlashes, bare_append_slashes] at otherReads
          rw [reads, otherReads]

end RentalAgent.SearchIndex
