import RentalAgent.Enrichment.CheckRuns

/-! # Official sites of properties

An aggregator is never the official site of a building. A search result is judged by the raw
network location of its URL, so an aggregator with a port, or with a user name in front, is
not recognized, and a host like `www.gov` loses the label in front of its suffix. A link that
is stored as the official site was so before, or was found by a search and judged to be one
(`officialPage_origin`); so where the searches find no URL that is mistaken, no aggregator is
ever stored (`aggregators_are_never_official`).
-/

namespace RentalAgent

open Dialogue Relational Transition

/-! ## Hosts -/

/-- `urlparse(url).hostname`: the network location without user information and port. -/
def hostName (unicode : UnicodeTables) (url : String) : List Char :=
  let info := (netloc url.toList).rtakeWhile (· ≠ '@')
  let name :=
    if '[' ∈ info then ((info.dropWhile (· ≠ '[')).drop 1).takeWhile (· ≠ ']')
    else info.takeWhile (· ≠ ':')
  unicode.lower (name.takeWhile (· ≠ '%')) ++ name.dropWhile (· ≠ '%')

/-- The host is an aggregator or a subdomain of one, or a municipal, nonprofit or school
site. -/
def neverLeases (host : List Char) : Bool :=
  TextRules.aggregatorHost host ||
    [".gov", ".org", ".edu"].any fun suffix => suffix.toList.isSuffixOf host

/-- The URL is one of a site that never leases, but its network location does not look so. -/
def TextRules.MistakenForOfficial (rules : TextRules) (url : String) : Prop :=
  neverLeases (siteHost rules.unicode (netloc url.toList)) = false ∧
    neverLeases (hostName rules.unicode url) = true

/-- The link that is stored as the official site is not one of a site that never leases. -/
def OfficialSiteLeases (rules : TextRules) (row : CompanyProperty) : Prop :=
  row.resolvedUrlKind = some .officialSite → ∀ url, row.resolvedUrl = some url →
    neverLeases (hostName rules.unicode url) = false

/-- A search of the exchanges found the URL. -/
def FoundBySearch (talk : List TavilyExchange) (url : String) : Prop :=
  ∃ exchange ∈ talk, (∃ asked, exchange.1 = .search asked) ∧
    exchange.2.search.status = .succeeded ∧ url ∈ exchange.2.search.items

/-- Of the URLs that the searches of a check find, none whose page then mentions the property
is mistaken for an official site. -/
def JudgesFoundPages {rules : TextRules} (row : CompanyProperty) (round : CheckRound rules) :
    Prop :=
  ∀ url, FoundBySearch (round.talk row) url →
    (∃ exchange ∈ round.talk row, ∃ text,
      round.env.Reads (row.nameAsAddress round.env) exchange url text) →
    ¬rules.MistakenForOfficial url

/-! ## Where an official site comes from -/

theorem FoundBySearch.left {first : List TavilyExchange} {url : String}
    (found : FoundBySearch first url) (second : List TavilyExchange) :
    FoundBySearch (first ++ second) url := by
  obtain ⟨exchange, member, rest⟩ := found
  exact ⟨exchange, List.mem_append_left _ member, rest⟩

theorem FoundBySearch.right {second : List TavilyExchange} {url : String}
    (found : FoundBySearch second url) (first : List TavilyExchange) :
    FoundBySearch (first ++ second) url := by
  obtain ⟨exchange, member, rest⟩ := found
  exact ⟨exchange, List.mem_append_right _ member, rest⟩

namespace PageSearch

variable {env : PageSearch} {prop : CompanyProperty} {talk : List TavilyExchange}

/-- A URL that is kept was kept before or is one of the found ones that the filter keeps. -/
theorem keepUrls_origin {keeps : String → Except ServiceError Bool}
    {candidates urls kept : List String} (ended : keepUrls keeps candidates urls = .ok kept)
    {url : String} (member : url ∈ kept) :
    url ∈ candidates ∨ url ∈ urls ∧ keeps url = .ok true := by
  induction urls generalizing candidates with
  | nil =>
      cases ended
      exact .inl member
  | cons next rest following =>
      rw [keepUrls] at ended
      obtain ⟨keep, judged, ended⟩ := bind_eq_ok.mp ended
      split at ended
      · rename_i fresh
        rcases following ended with before | ⟨later, held⟩
        · rcases List.mem_append.mp before with old | new
          · exact .inl old
          · rw [List.mem_singleton.mp new]
            rw [Bool.and_eq_true] at fresh
            exact .inr ⟨List.mem_cons_self, by rw [judged, fresh.1]⟩
        · exact .inr ⟨List.mem_cons_of_mem _ later, held⟩
      · rcases following ended with before | ⟨later, held⟩
        · exact .inl before
        · exact .inr ⟨List.mem_cons_of_mem _ later, held⟩

/-- A candidate was one before or was found by a search and kept by the filter. -/
theorem findCandidates_origin {keeps : String → Except ServiceError Bool} {enough : Nat}
    {candidates queries found : List String}
    (conversation : Conversation (env.findCandidates keeps enough candidates queries) talk
      (.ok found)) {url : String} (member : url ∈ found) :
    url ∈ candidates ∨ keeps url = .ok true ∧ FoundBySearch talk url := by
  induction queries generalizing candidates talk with
  | nil =>
      obtain ⟨-, same⟩ := conversation_pure.mp conversation
      cases same
      exact .inl (List.mem_of_mem_take member)
  | cons query rest following =>
      rcases conversation_bind.mp conversation with
        ⟨error, _, same⟩ | ⟨urls, first, second, searched, later, rfl⟩
      · cases same
      · rcases conversation_bind.mp later with
          ⟨error, _, same⟩ | ⟨kept, third, fourth, filtered, last, rfl⟩
        · cases same
        · obtain ⟨rfl, judged⟩ := conversation_lift.mp filtered
          have held : url ∈ kept → url ∈ candidates ∨
              keeps url = .ok true ∧ FoundBySearch (first ++ ([] ++ fourth)) url := by
            intro inside
            refine (keepUrls_origin judged.symm inside).imp_right fun ⟨listed, keep⟩ => ?_
            refine ⟨keep, FoundBySearch.left ?_ _⟩
            rcases searchUrls_talk searched with ⟨_, same⟩ | ⟨asked, answer, rfl, same⟩
            · cases same
              cases listed
            · cases same
              split at listed
              · rename_i succeeded
                exact ⟨_, List.mem_singleton_self _, ⟨asked, rfl⟩, succeeded, listed⟩
              · cases listed
          split at last
          · obtain ⟨-, same⟩ := conversation_pure.mp last
            cases same
            exact held (List.mem_of_mem_take member)
          · rcases following last with inside | ⟨keep, searched⟩
            · exact held inside
            · exact .inr ⟨keep, .right (.right searched _) _⟩

/-- A page that is found among the candidates is the page of one of them. -/
theorem tryCandidates_origin {kind : LinkKind} {tried candidates after : List String}
    {page : FetchedPage}
    (conversation : Conversation (env.tryCandidates prop kind tried candidates) talk
      (.ok (after, some page))) : page.kind = kind ∧ page.url ∈ candidates := by
  induction candidates generalizing tried talk with
  | nil =>
      obtain ⟨-, same⟩ := conversation_pure.mp conversation
      cases same
  | cons candidate rest following =>
      rw [tryCandidates] at conversation
      split at conversation
      · exact (following conversation).imp_right (List.mem_cons_of_mem _)
      · rcases conversation_bind.mp conversation with
          ⟨error, _, same⟩ | ⟨text, first, second, fetched, later, rfl⟩
        · cases same
        · split at later
          · obtain ⟨-, same⟩ := conversation_pure.mp later
            cases same
            exact ⟨rfl, List.mem_cons_self⟩
          · exact (following later).imp_right (List.mem_cons_of_mem _)

/-- A page that a repair finds is the page of a candidate of one of the finders. -/
theorem repairLink_origin {tried : List String}
    {finders : List (TavilyDialogue (List String) × LinkKind)} {page : FetchedPage}
    (conversation : Conversation (env.repairLink prop tried finders) talk (.ok (some page))) :
    ∃ finder, (finder, page.kind) ∈ finders ∧ ∃ candidates before first after,
      talk = before ++ first ++ after ∧ Conversation finder first (.ok candidates) ∧
        page.url ∈ candidates := by
  induction finders generalizing tried talk with
  | nil =>
      obtain ⟨-, same⟩ := conversation_pure.mp conversation
      cases same
  | cons finder rest following =>
      obtain ⟨find, kind⟩ := finder
      rcases conversation_bind.mp conversation with
        ⟨error, _, same⟩ | ⟨candidates, first, second, found, later, rfl⟩
      · cases same
      · rcases conversation_bind.mp later with
          ⟨error, _, same⟩ | ⟨⟨tried, outcome⟩, third, fourth, fetched, last, rfl⟩
        · cases same
        · cases outcome with
          | some read =>
              obtain ⟨-, same⟩ := conversation_pure.mp last
              cases same
              obtain ⟨rfl, member⟩ := tryCandidates_origin fetched
              exact ⟨find, List.mem_cons_self, candidates, [], first, _,
                by rw [List.nil_append], found, member⟩
          | none =>
              obtain ⟨finder, member, candidates, before, middle, after, rfl, rest⟩ :=
                following last
              exact ⟨finder, List.mem_cons_of_mem _ member, candidates, first ++ (third ++ before),
                middle, after, by simp, rest⟩

/-- A page of a stored link is of the kind of the link, unless it is the original one. -/
theorem fetchStored_origin {tried after : List String} {links : List (Option String × LinkKind)}
    {page : FetchedPage}
    (conversation : Conversation (env.fetchStored prop tried links) talk
      (.ok (after, some page))) (official : page.kind = .officialSite) :
    (some page.url, LinkKind.officialSite) ∈ links := by
  induction links generalizing tried talk with
  | nil =>
      obtain ⟨-, same⟩ := conversation_pure.mp conversation
      cases same
  | cons link rest following =>
      obtain ⟨stored, kind⟩ := link
      rw [fetchStored] at conversation
      split at conversation
      · exact List.mem_cons_of_mem _ (following conversation)
      · rename_i url present
        split at conversation
        · exact List.mem_cons_of_mem _ (following conversation)
        · rcases conversation_bind.mp conversation with
            ⟨error, _, same⟩ | ⟨skipped, first, second, judged, later, rfl⟩
          · cases same
          · split at later
            · exact List.mem_cons_of_mem _ (following later)
            · rcases conversation_bind.mp later with
                ⟨error, _, same⟩ | ⟨text, third, fourth, fetched, last, rfl⟩
              · cases same
              · cases text with
                | none => exact List.mem_cons_of_mem _ (following last)
                | some text =>
                    obtain ⟨-, same⟩ := conversation_pure.mp last
                    cases same
                    change (if some url = prop.originalUrl then LinkKind.original else kind) =
                      .officialSite at official
                    split at official
                    · cases official
                    · rw [(truthy_eq_some.mp present).1, ← official]
                      exact List.mem_cons_self

/-- A page of an official site is that of the stored link, or of a search result that was judged
to be one and whose page mentions the property. -/
theorem officialPage_origin {page : FetchedPage}
    (conversation : Conversation (env.fetchPage prop) talk (.ok (some page)))
    (official : page.kind = .officialSite) :
    (prop.resolvedUrlKind = some .officialSite ∧ prop.resolvedUrl = some page.url) ∨
      env.mayBeOfficial page.url = .ok true ∧ FoundBySearch talk page.url ∧
        ∃ exchange ∈ talk, ∃ text, env.Reads prop exchange page.url text := by
  have verdict := fetchPage_verdict conversation
  rcases conversation_bind.mp conversation with
    ⟨error, _, same⟩ | ⟨⟨tried, outcome⟩, first, second, stored, later, rfl⟩
  · cases same
  · cases outcome with
    | some read =>
        obtain ⟨-, same⟩ := conversation_pure.mp later
        cases same
        left
        have link := fetchStored_origin stored official
        rcases List.mem_cons.mp link with resolved | original
        · obtain ⟨url, kind⟩ := Prod.mk.inj resolved
          refine ⟨?_, url.symm⟩
          cases known : prop.resolvedUrlKind with
          | none =>
              rw [known] at kind
              cases kind
          | some stored =>
              rw [known] at kind
              rw [kind]
              rfl
        · cases (Prod.mk.inj (List.mem_singleton.mp original)).2
    | none =>
        right
        obtain ⟨finder, member, candidates, before, middle, after, rfl, found, candidate⟩ :=
          repairLink_origin later
        rw [official] at member
        rcases List.mem_cons.mp member with repaired | streeteasy
        · rw [(Prod.mk.inj repaired).1] at found
          rcases findCandidates_origin found candidate with none | ⟨judged, searched⟩
          · cases none
          · have within : FoundBySearch (first ++ (before ++ middle ++ after)) page.url :=
              ((searched.right before).left after).right first
            rcases verdict with fetches | ⟨silent, answer, whole, -, reads⟩
            · obtain ⟨exchange, inside, ⟨asked, search⟩, -⟩ := within
              obtain ⟨url, extract⟩ := fetches exchange inside
              cases extract.symm.trans search
            · refine ⟨judged, within, _, ?_, page.text, reads⟩
              rw [whole]
              exact List.mem_append_right _ (List.mem_singleton_self _)
        · cases (Prod.mk.inj (List.mem_singleton.mp streeteasy)).2

end PageSearch

variable {rules : TextRules}

/-- A URL that may be official does not look like one of a site that never leases. -/
theorem neverLeases_of_mayBeOfficial {env : PageSearch} {url : String}
    (judged : env.mayBeOfficial url = .ok true) :
    neverLeases (siteHost env.unicode (netloc url.toList)) = false := by
  obtain ⟨host, read, same⟩ := bind_eq_ok.mp judged
  rw [TextRules.host] at read
  split at read
  · cases read
    exact Bool.not_eq_true' _ |>.mp (Except.ok.inj same)
  · cases read

/-- One check keeps the official site off the sites that never lease. -/
theorem checkRow_officialSiteLeases {row : CompanyProperty} {round : CheckRound rules}
    (leases : OfficialSiteLeases rules row) (judges : JudgesFoundPages row round) :
    OfficialSiteLeases rules (checkRow row round) := by
  intro official url link
  have same : OfficialSiteLeases rules (checkRow row round) ∨ ∃ page,
      Conversation (round.env.fetchPage (row.nameAsAddress round.env)) (round.talk row)
        (.ok (some page)) ∧ (checkRow row round).resolvedUrl = some page.url ∧
        (checkRow row round).resolvedUrlKind = some page.kind := by
    rcases checkRow_cases row round with
      ⟨-, -, kept, -⟩ | ⟨-, kept, -⟩ | ⟨page, units, -, fetched, resolved, kind, -⟩
    · exact .inl fun official url link =>
        leases (kept.resolvedUrlKind.symm.trans official) url (kept.resolvedUrl.symm.trans link)
    · exact .inl fun official url link =>
        leases (kept.resolvedUrlKind.symm.trans official) url (kept.resolvedUrl.symm.trans link)
    · exact .inr ⟨page, fetched, resolved, kind⟩
  rcases same with kept | ⟨page, fetched, resolved, kind⟩
  · exact kept official url link
  · have here : page.kind = .officialSite := Option.some.inj (kind.symm.trans official)
    obtain rfl : page.url = url := Option.some.inj (resolved.symm.trans link)
    have named := CompanyProperty.sameLink_nameAsAddress round.env row
    rcases PageSearch.officialPage_origin fetched here with ⟨before, stored⟩ | ⟨judged, found, read⟩
    · exact leases (named.resolvedUrlKind.symm.trans before) _ (named.resolvedUrl.symm.trans stored)
    · have looks := neverLeases_of_mayBeOfficial judged
      rw [round.rules_eq] at looks
      by_contra never
      rw [Bool.not_eq_false] at never
      exact judges _ found read ⟨looks, never⟩

/-- **Aggregators.** A property that starts without a resolved link never has a site that never
leases as its official one, in a run of checks whose searches find no URL that is mistaken for
one. -/
theorem aggregators_are_never_official (rules : TextRules) (row : CompanyProperty)
    (rounds : List (CheckRound rules)) (unresolved : row.resolvedUrl = none)
    (judges : Permitted checkRow JudgesFoundPages row rounds) :
    ∀ earlier later, rounds = earlier ++ later →
      OfficialSiteLeases rules (run checkRow row earlier) := by
  rintro earlier later rfl
  have start : OfficialSiteLeases rules row := fun _ url link => by
    cases unresolved.symm.trans link
  have preserved : Preserved (@checkRow rules) JudgesFoundPages
      (OfficialSiteLeases rules) :=
    fun _ _ leases judges => checkRow_officialSiteLeases leases judges
  exact preserved.run start ((permitted_append row earlier later).mp judges).1

/-! ## Two searches -/

/-- A model that reads every page and finds nothing in it. -/
def readingEnvironment : CompanyEnvironment :=
  { CompanyEnvironment.silentEnvironment with
    llm := fun _ => ⟨.succeeded, .valid {}, none⟩ }

/-- Every search finds one URL, and its page names the property. -/
def findsPage (url : String) (_ : List TavilyExchange) : TavilyRequest → TavilyAnswer
  | .search _ => .results [{ url := some url }]
  | .extract _ => .results [{ rawContent := some "Pearl House" }]

/-- A check whose searches find one URL. -/
def findingRound (url : String) : CheckRound readingEnvironment.toTextRules where
  env := readingEnvironment
  rules_eq := rfl
  now := 5
  committedAt := 6
  discardStale := false
  respond := findsPage url

/-- A property without a link. -/
def unlinked : CompanyProperty where
  companyPropertyId := 1
  name := "Pearl House"
  nameFingerprint := "pearl house"
  sourceDocument := "portfolio.docx"
  createdAt := 0
  updatedAt := 0

/-- The site of a building is stored. -/
theorem own_site_is_official :
    OfficialSiteLeases readingEnvironment.toTextRules
      (run checkRow unlinked [findingRound "https://pearl.example/"]) := by
  refine aggregators_are_never_official _ unlinked [findingRound "https://pearl.example/"] rfl ?_
    [findingRound "https://pearl.example/"] [] rfl
  rw [permitted_cons, and_iff_left (permitted_nil _)]
  rintro url ⟨exchange, member, -, -, found⟩ -
  have only : (((findingRound "https://pearl.example/").talk unlinked).all fun exchange =>
      exchange.2.search.items.all (· = "https://pearl.example/")) = true := by
    decide
  have same := List.all_eq_true.mp (List.all_eq_true.mp only exchange member) url found
  rw [of_decide_eq_true same]
  exact fun mistaken => absurd mistaken.2 (by decide)

/-- The site of an aggregator with a port is stored as the official site. -/
theorem port_hides_an_aggregator :
    unlinked.resolvedUrl = none ∧ ¬OfficialSiteLeases readingEnvironment.toTextRules
      (run checkRow unlinked [findingRound "https://www.zillow.com:443/b/pearl-house"]) := by
  refine ⟨rfl, fun leases => ?_⟩
  have stored := leases (by decide) "https://www.zillow.com:443/b/pearl-house" (by decide)
  exact absurd stored (by decide)

end RentalAgent
