import RentalAgent.Acquisition.Redaction
import RentalAgent.Acquisition.DiscoveredPages

/-! # Content hashes of snippets

A listing whose content hash is the hash of its latest observation is not looked at again. The
hash is taken of the title and the snippet with a bar between them, while the facts are read
from the two joined by a space, and the geographic label is not hashed at all. So one hash can
stand for different facts: a bar in the title or in the snippet hides where the one ends and
the other begins, and another partition brings another label. `facts_of_hash_iff` says when
the facts of two captures with one hash are the same.
-/

namespace RentalAgent.SearchIndex

open Pattern Snippet Url

variable {tables : TextTables} {checks : HostChecks} {site : Site} {sha256 : String → String}

/-! ## Texts with one payload -/

/-- Two texts joined by a space, an empty one left out. -/
def joined (first second : List Char) : List Char :=
  if first = [] then second else if second = [] then first else first ++ ' ' :: second

/-- A missing title or snippet is an empty one in the joined text. -/
theorem joinedText_eq (title snippet : Option String) :
    joinedText title snippet = joined (title.getD "").toList (snippet.getD "").toList := by
  have absent {text : Option String} (none : truthy text = none) : text.getD "" = "" := by
    cases text with
    | none => rfl
    | some text =>
        by_cases empty : text = ""
        · exact empty
        · simp [truthy, empty] at none
  have present {text : Option String} {kept : String} (found : truthy text = some kept) :
      text.getD "" = kept ∧ kept.toList ≠ [] := by
    obtain ⟨rfl, filled⟩ := Option.filter_eq_some_iff.mp found
    exact ⟨rfl, fun none => by simp [String.toList_eq_nil_iff.mp none] at filled⟩
  cases first : truthy title with
  | none =>
      cases second : truthy snippet with
      | none => simp [joinedText, joined, first, second, absent first, absent second]
      | some text => simp [joinedText, joined, first, second, absent first, present second]
  | some text =>
      obtain ⟨same, filled⟩ := present first
      cases second : truthy snippet with
      | none => simp [joinedText, joined, first, second, absent second, same, filled]
      | some other =>
          obtain ⟨otherSame, otherFilled⟩ := present second
          simp [joinedText, joined, first, second, same, filled, otherSame, otherFilled]

/-- Texts that a bar joins alike and whose joined texts are redacted alike are joined alike. -/
theorem joined_eq_of_shift {left middle right : List Char}
    (same : redact tables (joined left (middle ++ '|' :: right)) =
      redact tables (joined (left ++ '|' :: middle) right)) :
    joined left (middle ++ '|' :: right) = joined (left ++ '|' :: middle) right := by
  have following : joined (left ++ '|' :: middle) right =
      left ++ '|' :: (middle ++ if right = [] then [] else ' ' :: right) := by
    rw [joined, if_neg (by simp)]
    split <;> simp
  have leading : joined left (middle ++ '|' :: right) =
      if left = [] then middle ++ '|' :: right else left ++ ' ' :: (middle ++ '|' :: right) := by
    rw [joined, if_neg (fun none : middle ++ '|' :: right = [] => by simp at none)]
  rw [following, leading] at same ⊢
  split at same
  · rename_i empty
    rw [empty, if_pos rfl]
    rw [empty] at same
    obtain ⟨bars, rest⟩ := bars_of_shift same
    split at rest
    · rename_i none
      have shifted : middle ++ ['|'] = '|' :: middle := by
        rw [List.eq_replicate_of_mem bars, ← List.replicate_succ', List.replicate_succ]
      rw [if_pos none, none, List.append_nil, shifted, List.nil_append]
    · rw [redact_space] at rest
      exact absurd (congrArg List.length rest) (by simp)
  · exact absurd same redact_space_bar_ne

/-- Texts with a bar at the same place that agree behind it join to the same text when their
redactions agree. -/
theorem joined_eq_of_payload {left right other others : List Char}
    (payloads : left ++ '|' :: right = other ++ '|' :: others)
    (same : redact tables (joined left right) = redact tables (joined other others)) :
    joined left right = joined other others := by
  rcases List.append_eq_append_iff.mp payloads with ⟨middle, rfl, bar⟩ | ⟨middle, rfl, bar⟩
  · cases middle with
    | nil => rw [(List.cons.inj bar).2, List.append_nil]
    | cons c middle =>
        obtain ⟨rfl, rfl⟩ := List.cons.inj bar
        exact joined_eq_of_shift same
  · cases middle with
    | nil => rw [(List.cons.inj bar).2, List.append_nil]
    | cons c middle =>
        obtain ⟨rfl, rfl⟩ := List.cons.inj bar
        exact (joined_eq_of_shift same.symm).symm

/-- Captures with one payload have one text when they have one redacted text. -/
theorem joinedText_eq_of_payload {title snippet otherTitle otherSnippet : Option String}
    (payloads : payload title snippet = payload otherTitle otherSnippet)
    (same : redact tables (joinedText title snippet) =
      redact tables (joinedText otherTitle otherSnippet)) :
    joinedText title snippet = joinedText otherTitle otherSnippet := by
  rw [joinedText_eq, joinedText_eq] at same ⊢
  refine joined_eq_of_payload ?_ same
  have texts := congrArg String.toList payloads
  simpa [payload] using texts

/-! ## Captures of a source -/

/-- The searches of an adapter, one for each partition: what it remembers, and the items that
were discovered. -/
def searches (site : Site) (checks : HostChecks) (maxResults : Nat)
    (answers : List (String × SearchResponse)) :
    Except UrlError (AdapterState × List DiscoveredItem) :=
  answers.foldlM (fun (state, items) (geography, response) => do
    let (state, page) ← discover site checks maxResults geography response state
    return (state, items ++ page.items)) ({}, [])

/-- A capture of an item, after any searches. -/
def Captured (site : Site) (checks : HostChecks) (sha256 : String → String)
    (capture : SnippetCapture) : Prop :=
  ∃ maxResults answers state items now, searches site checks maxResults answers =
    .ok (state, items) ∧ ∃ item ∈ items, fetchDetail sha256 now state item = capture

/-- The items of the searches are pages of the source. -/
theorem page_of_searches (regular : site.Regular) {maxResults : Nat}
    {answers : List (String × SearchResponse)} {state : AdapterState}
    {items : List DiscoveredItem}
    (reached : searches site checks maxResults answers = .ok (state, items)) :
    ∀ item ∈ items, ∃ path, ListingPath site path ∧ item.detailUrl = site.canonical path := by
  induction answers using List.reverseRecOn generalizing state items with
  | nil =>
      obtain ⟨rfl, rfl⟩ := Prod.mk.inj (Except.ok.inj reached)
      exact fun item member => absurd member List.not_mem_nil
  | append_singleton before answer earlier =>
      rw [searches, List.foldlM_append] at reached
      obtain ⟨⟨middle, found⟩, walked, last⟩ := Relational.bind_eq_ok.mp reached
      rw [List.foldlM_cons] at last
      obtain ⟨result, step, done⟩ := Relational.bind_eq_ok.mp last
      obtain ⟨⟨next, page⟩, discovered, same⟩ := Relational.bind_eq_ok.mp step
      obtain rfl := Except.ok.inj same
      obtain ⟨rfl, rfl⟩ := Prod.mk.inj (Except.ok.inj done)
      obtain ⟨-, discovery, walk, itemsOf⟩ := discover_spec regular discovered
      intro item member
      rcases List.mem_append.mp member with inFront | inPage
      · exact earlier walked item inFront
      · rw [← itemsOf] at inPage
        obtain ⟨path, ⟨_, -, accepts⟩, detail, -⟩ := walk.found item inPage
        exact ⟨path, accepts.listingPath, detail⟩

/-- What is known of every capture: it is of a page, and it is hashed as it should be. -/
theorem Captured.spec (regular : site.Regular) {capture : SnippetCapture}
    (captured : Captured site checks sha256 capture) :
    capture.contentHash = sha256 (payload capture.title capture.snippet) ∧
      ∃ id, nativeIdFromUrl checks capture.finalUrl = .ok id := by
  obtain ⟨maxResults, answers, state, items, now, reached, item, member, rfl⟩ := captured
  obtain ⟨path, page, detail⟩ := page_of_searches regular reached item member
  refine ⟨rfl, nativeId path, ?_⟩
  change nativeIdFromUrl checks item.detailUrl = .ok (nativeId path)
  rw [detail, nativeIdFromUrl_canonical checks regular page, nativeId]

/-- The page of one result can be captured with its title and its snippet. -/
theorem captured_of_accepts (regular : site.Regular) (sha256 : String → String) (now : Timestamp)
    (geography : String) (result : SearchResultItem) {path : List Char}
    (accepts : Accepts site checks result.url.toList path) :
    Captured site checks sha256 ⟨site.canonical path, now,
      sha256 (payload result.title result.snippet), result.title, result.snippet,
      site.geoLabels.lookup geography⟩ := by
  rcases Discovery.visit_cases checks regular geography { state := {} } result with
    ⟨unreadable, -⟩ | ⟨-, noPage, -⟩ | ⟨page, acceptsPage, visit⟩
  · obtain ⟨parsed, split, -⟩ := accepts
    cases unreadable.symm.trans split
  · exact absurd accepts (noPage path)
  · obtain rfl := accepts.unique acceptsPage
    rw [if_neg List.not_mem_nil] at visit
    have discovered : discover site checks 20 geography
        { status := .succeeded, items := [result] } {} =
        .ok (({} : AdapterState).remember site geography (site.canonical path) result,
          ⟨[⟨nativeId path, site.canonical path, result.title, result.snippet⟩], false,
            .resultCount 1⟩) := by
      rw [discover, if_neg (fun failed => failed rfl), List.foldlM_cons, visit]
      rfl
    refine ⟨20, [(geography, { status := .succeeded, items := [result] })],
      ({} : AdapterState).remember site geography (site.canonical path) result,
      [⟨nativeId path, site.canonical path, result.title, result.snippet⟩], now, ?_, _,
      List.mem_singleton_self _, ?_⟩
    · rw [searches, List.foldlM_cons]
      change ((discover site checks 20 geography { status := .succeeded, items := [result] }
        {}).bind _).bind _ = _
      rw [discovered]
      rfl
    · have context : (({} : AdapterState).remember site geography (site.canonical path)
          result).itemContext (site.canonical path) = some result := Function.update_self ..
      have label : (({} : AdapterState).remember site geography (site.canonical path)
          result).itemGeo (site.canonical path) = site.geoLabels.lookup geography := by
        rw [AdapterState.remember]
        cases site.geoLabels.lookup geography with
        | none => rfl
        | some label => exact Function.update_self ..
      rw [fetchDetail, context, label]
      rfl

/-! ## Facts -/

/-- Both captures are extracted, and their facts are the same. -/
def SameFacts (tables : TextTables) (checks : HostChecks) (now later : Timestamp)
    (first second : SnippetCapture) : Prop :=
  ∃ one other, extract tables checks now first = .ok one ∧
    extract tables checks later second = .ok other ∧ one.facts = other.facts

/-- The first price of the capture, if there is one, has a digit. -/
def PriceHasDigit (tables : TextTables) (capture : SnippetCapture) : Prop :=
  ∀ price, searchPrice tables (redact tables (joinedText capture.title capture.snippet)) =
    some price → ∃ c ∈ price.group, tables.isDecimal c = true

/-- An extraction succeeds just when the parser does, and it takes over what the parser states. -/
theorem extract_eq_ok {now : Timestamp} {capture : SnippetCapture}
    {observation : SnippetObservation}
    (extracted : extract tables checks now capture = .ok observation) :
    ∃ facts, parseSnippet tables capture.title capture.snippet = .ok facts ∧
      observation.facts = { facts with
        identity := { facts.identity with sourceGeographicLabels := capture.labels } } := by
  obtain ⟨facts, parsed, more⟩ := Relational.bind_eq_ok.mp extracted
  obtain ⟨id, -, done⟩ := Relational.bind_eq_ok.mp more
  exact ⟨facts, Relational.mapError_eq_ok.mp parsed, by rw [← Except.ok.inj done]⟩

/-- The redacted text is told from the description. -/
theorem redact_eq_of_description {text other : List Char}
    (same : (factsOf tables text none).description = (factsOf tables other none).description) :
    redact tables text = redact tables other := by
  have texts : truthy (some (String.ofList (redact tables text))) =
      truthy (some (String.ofList (redact tables other))) :=
    congrArg DescriptionBlock.text same
  have read (letters : List Char) :
      ((truthy (some (String.ofList letters))).getD "").toList = letters := by
    rw [truthy, Option.filter_some]
    split
    · exact String.toList_ofList
    · rename_i empty
      simpa using empty
  rw [← read (redact tables text), texts, read]

/-- An observation with the content hash of the latest one is passed over: whatever it states,
only the freshness of the listing changes. -/
theorem updateExisting_of_hash {env : Environment} {now : Timestamp}
    {row previous : SourceObservation} {observation : ParsedSourceObservation}
    {link : ListingSourceLink} {db : Database} {listing : CanonicalListing}
    (found : db.listing? link.canonicalListingId = some listing)
    (differs : link.latestObservationId ≠ row.sourceObservationId)
    (latest : db.observation? link.latestObservationId = some previous)
    (hash : previous.contentHash = row.contentHash) :
    db.updateExisting env now row observation link = .ok (db.touchFreshness link listing row,
      { classification := .unchanged
        canonicalListingId := some listing.canonicalListingId
        listingSourceLinkId := some link.listingSourceLinkId }) := by
  have same : db.sameContent link row = true := by
    rw [Database.sameContent, latest]
    exact decide_eq_true hash
  rw [Database.updateExisting, found]
  simp only [if_neg differs, same, if_true]

/-- **What one content hash stands for.** Two captures of a listing with one content hash have
the same facts when their titles and snippets join to one text, they carry one label, and their
first price, if there is one, has a digit. -/
theorem facts_of_hash_iff (adapter : Adapter) (tables : TextTables) (checks : HostChecks)
    (now later : Timestamp) {sha256 : String → String} (injective : Function.Injective sha256)
    {first second : SnippetCapture}
    (captured : Captured (adapter.site tables) checks sha256 first)
    (again : Captured (adapter.site tables) checks sha256 second)
    (listing : first.finalUrl = second.finalUrl)
    (hash : first.contentHash = second.contentHash) :
    SameFacts tables checks now later first second ↔
      joinedText first.title first.snippet = joinedText second.title second.snippet ∧
        first.labels = second.labels ∧ PriceHasDigit tables first := by
  obtain ⟨firstHash, id, firstId⟩ := captured.spec adapter.regular
  obtain ⟨secondHash, -⟩ := again.spec adapter.regular
  have payloads : payload first.title first.snippet = payload second.title second.snippet :=
    injective (by rw [← firstHash, ← secondHash, hash])
  constructor
  · rintro ⟨one, other, extracted, extractedAgain, same⟩
    obtain ⟨facts, parsed, blocks⟩ := extract_eq_ok extracted
    obtain ⟨otherFacts, otherParsed, otherBlocks⟩ := extract_eq_ok extractedAgain
    obtain ⟨rent, -, rfl⟩ := parseSnippet_eq_ok.mp parsed
    obtain ⟨otherRent, -, rfl⟩ := parseSnippet_eq_ok.mp otherParsed
    rw [blocks, otherBlocks] at same
    have descriptions := congrArg Facts.description same
    have labels := congrArg (fun facts => facts.identity.sourceGeographicLabels) same
    exact ⟨joinedText_eq_of_payload payloads (redact_eq_of_description descriptions), labels,
      parseSnippet_returns_iff.mp ⟨_, parsed⟩⟩
  · rintro ⟨texts, labels, digit⟩
    obtain ⟨facts, parsed⟩ := parseSnippet_returns_iff.mpr digit
    have parsedAgain : parseSnippet tables second.title second.snippet = .ok facts := by
      rw [← parsed, parseSnippet, parseSnippet, texts]
    rw [SameFacts, extract, extract, parsed, parsedAgain, ← listing, firstId, ← labels]
    exact ⟨_, _, rfl, rfl, rfl⟩

/-- A capture of a page of StreetEasy. -/
def rentalCapture (title snippet : String) : SnippetCapture where
  finalUrl := "https://streeteasy.com/rental/1".toList
  retrievedAt := 0
  contentHash := payload (some title) (some snippet)
  title := some title
  snippet := some snippet
  geoLabel := some "Manhattan"

/-- The capture of a rental is one that the adapter can make. -/
theorem captured_rental (title snippet : String) :
    Captured (Adapter.streetEasy.site TextTables.ascii) ⟨id, fun _ => false⟩ id
      (rentalCapture title snippet) := by
  have accepts : Accepts (Adapter.streetEasy.site TextTables.ascii) ⟨id, fun _ => false⟩
      "https://streeteasy.com/rental/1".toList "/rental/1".toList :=
    ⟨_, rfl, by decide⟩
  exact captured_of_accepts Adapter.streetEasy.regular id 0 "nyc_manhattan"
    ⟨"https://streeteasy.com/rental/1", some title, some snippet⟩ accepts

/-- A page captured twice with one title and one snippet. -/
theorem facts_of_hash_same : SameFacts TextTables.ascii ⟨id, fun _ => false⟩ 0 1
    (rentalCapture "Studio" "NYC") (rentalCapture "Studio" "NYC") :=
  (facts_of_hash_iff .streetEasy TextTables.ascii ⟨id, fun _ => false⟩ 0 1 Function.injective_id
    (captured_rental "Studio" "NYC") (captured_rental "Studio" "NYC") rfl rfl).mpr
    ⟨rfl, rfl, fun price found => by
      have none : searchPrice TextTables.ascii (redact TextTables.ascii
          (joinedText (some "Studio") (some "NYC"))) = none := by decide
      cases none.symm.trans found⟩

/-- One bar more in the title or in the snippet: the hash is the same and the layout is not. -/
theorem bar_moves_a_bedroom :
    Captured (Adapter.streetEasy.site TextTables.ascii) ⟨id, fun _ => false⟩ id
        (rentalCapture "1" "bed|NYC") ∧
      Captured (Adapter.streetEasy.site TextTables.ascii) ⟨id, fun _ => false⟩ id
        (rentalCapture "1|bed" "NYC") ∧
      (rentalCapture "1" "bed|NYC").finalUrl = (rentalCapture "1|bed" "NYC").finalUrl ∧
      (rentalCapture "1" "bed|NYC").contentHash = (rentalCapture "1|bed" "NYC").contentHash ∧
      ¬ SameFacts TextTables.ascii ⟨id, fun _ => false⟩ 0 1 (rentalCapture "1" "bed|NYC")
        (rentalCapture "1|bed" "NYC") := by
  refine ⟨captured_rental _ _, captured_rental _ _, rfl, by decide, ?_⟩
  rintro ⟨one, other, extracted, extractedAgain, same⟩
  have bedroom : (extract TextTables.ascii ⟨id, fun _ => false⟩ 0
      (rentalCapture "1" "bed|NYC")).map (fun one => one.facts.layout.proposedLayoutClass) =
        .ok .oneBedroom := by decide
  have unknown : (extract TextTables.ascii ⟨id, fun _ => false⟩ 1
      (rentalCapture "1|bed" "NYC")).map (fun one => one.facts.layout.proposedLayoutClass) =
        .ok .unknown := by decide
  rw [extracted] at bedroom
  rw [extractedAgain] at unknown
  have first : one.facts.layout.proposedLayoutClass = .oneBedroom := Except.ok.inj bedroom
  have second : other.facts.layout.proposedLayoutClass = .unknown := Except.ok.inj unknown
  rw [same, second] at first
  cases first

end RentalAgent.SearchIndex
