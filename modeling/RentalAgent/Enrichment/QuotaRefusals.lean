import RentalAgent.Canonical.Durability
import RentalAgent.Enrichment.CompanyCheck

/-! # Refusals of Tavily

A page fetch that Tavily refuses ends a check with `RATE_LIMITED`, but the name of a
property may have been written to its address before. A refused search is not noticed at
all: the check goes on as if nothing had been found. `refreshProperty_keepsQuota_iff` says
for every course of a check when a refusal leaves the row alone.
-/

namespace RentalAgent

open Dialogue Relational

/-! ## Exchanges -/

namespace TavilyAnswer

/-- The extraction raises the quota error just when Tavily refused. -/
theorem extract_eq_quota {answer : TavilyAnswer} :
    answer.extract = .error .tavilyQuotaError ↔ answer.refused = true := by
  cases answer with
  | httpError code =>
      simp only [extract, PosterAnswer.extract, refused]
      split
      · simpa using ‹code = 429 ∨ code = 432›
      · simpa using not_or.mp ‹_›
  | unreachable => simp [extract, PosterAnswer.extract, refused]
  | malformed => simp [extract, refused]
  | results rows => simp [extract, PosterAnswer.extract, refused]

end TavilyAnswer

/-- A page fetch that Tavily refused. -/
def RefusedExtract (exchange : TavilyExchange) : Prop :=
  (∃ url, exchange.1 = .extract url) ∧ exchange.2.refused = true

/-- A search that Tavily refused. -/
def RefusedSearch (exchange : TavilyExchange) : Prop :=
  (∃ query, exchange.1 = .search query) ∧ exchange.2.refused = true

namespace PageSearch

variable (env : PageSearch) (prop : CompanyProperty)

/-- The exchange raises: a page fetch that is refused or not understood, or a search that
finds a URL `urlparse` does not accept. -/
def Raises (exchange : TavilyExchange) : Prop :=
  match exchange.1 with
  | .extract _ => ∃ error, exchange.2.extract = .error error
  | .search _ => exchange.2.search.status = .succeeded ∧
      ∃ url ∈ exchange.2.search.items, env.acceptsNetloc (netloc url.toList) = false

/-- The exchange is the fetch of a page that mentions the property. -/
def Reads (exchange : TavilyExchange) (url text : String) : Prop :=
  exchange.1 = .extract url ∧ exchange.2.extract = .ok (some text) ∧ text ≠ "" ∧
    prop.pageMentionsProperty env.toTextRules text = true

/-- The exchange neither raises nor reads a page of the property. -/
def Silent (exchange : TavilyExchange) : Prop :=
  ¬env.Raises exchange ∧ ∀ url text, ¬env.Reads prop exchange url text

/-! ## Page fetches that raise -/

/-- The alarm of a refused page fetch. -/
def Refusal (request : TavilyRequest) (answer : TavilyAnswer) : Prop :=
  RefusedExtract (request, answer)

/-- An extraction fails with the quota error just when it was refused. -/
theorem heeds_extractPage (url : String) :
    Heeds Refusal ServiceError.tavilyQuotaError (extractPage url) := by
  refine heeds_inquire (fun answer refusal => ?_) fun answer quiet => ?_
  · rw [TavilyAnswer.extract_eq_quota.mpr refusal.2]
    rfl
  · refine .bind (heeds_lift fun raised => quiet ⟨⟨url, rfl⟩, ?_⟩) fun _ => .done _
    exact TavilyAnswer.extract_eq_quota.mp raised

/-- A search fails with the quota error just when it was refused. -/
theorem heeds_searchUrls (query : String) :
    Heeds Refusal ServiceError.tavilyQuotaError (env.searchUrls query) := by
  unfold searchUrls
  split
  · exact .done _
  · refine heeds_inquire (fun answer refusal => ?_) fun answer _ => .done _
    obtain ⟨⟨url, extract⟩, _⟩ := refusal
    cases extract

/-- A filter of found URLs that raises at just those that `urlparse` does not accept. -/
def ParsesUrls (keeps : String → Except ServiceError Bool) : Prop :=
  ∀ url, (env.acceptsNetloc (netloc url.toList) = true ∧ ∃ keep, keeps url = .ok keep) ∨
    (env.acceptsNetloc (netloc url.toList) = false ∧ keeps url = .error .valueError)

/-- A URL has a host just when its network location is accepted. -/
theorem host_cases (url : String) :
    (env.acceptsNetloc (netloc url.toList) = true ∧ ∃ host, env.host url = .ok host) ∨
      (env.acceptsNetloc (netloc url.toList) = false ∧ env.host url = .error .valueError) := by
  unfold TextRules.host
  cases accepted : env.acceptsNetloc (netloc url.toList) with
  | true => exact .inl ⟨rfl, _, if_pos accepted⟩
  | false => exact .inr ⟨rfl, if_neg (by simp [accepted])⟩

/-- Filtering candidates fails just when some URL among them cannot be parsed. -/
theorem keepUrls_cases {keeps : String → Except ServiceError Bool} (parses : env.ParsesUrls keeps)
    (candidates urls : List String) :
    ((∀ url ∈ urls, env.acceptsNetloc (netloc url.toList) = true) ∧
        ∃ kept, keepUrls keeps candidates urls = .ok kept) ∨
      ((∃ url ∈ urls, env.acceptsNetloc (netloc url.toList) = false) ∧
        keepUrls keeps candidates urls = .error .valueError) := by
  induction urls generalizing candidates with
  | nil => exact .inl ⟨by simp, candidates, rfl⟩
  | cons url rest ih =>
      rcases parses url with ⟨accepted, keep, kept⟩ | ⟨rejected, kept⟩
      · have step : keepUrls keeps candidates (url :: rest) = keepUrls keeps
            (if keep && url ∉ candidates then candidates ++ [url] else candidates) rest := by
          rw [keepUrls, kept]
          change (if keep && url ∉ candidates then _ else _) = _
          split <;> rfl
        rw [step]
        rcases ih (if keep && url ∉ candidates then candidates ++ [url] else candidates) with
          ⟨all, found⟩ | ⟨⟨other, member, bad⟩, raised⟩
        · exact .inl ⟨List.forall_mem_cons.mpr ⟨accepted, all⟩, found⟩
        · exact .inr ⟨⟨other, List.mem_cons_of_mem _ member, bad⟩, raised⟩
      · refine .inr ⟨⟨url, List.mem_cons_self, rejected⟩, ?_⟩
        rw [keepUrls, kept]
        rfl

/-- Searching for candidates fails with the quota error just when a search was refused. -/
theorem heeds_findCandidates {keeps : String → Except ServiceError Bool}
    (parses : env.ParsesUrls keeps) (enough : Nat) (candidates queries : List String) :
    Heeds Refusal ServiceError.tavilyQuotaError
      (env.findCandidates keeps enough candidates queries) := by
  induction queries generalizing candidates with
  | nil => exact .done _
  | cons query rest ih =>
      refine .bind (env.heeds_searchUrls query) fun urls => ?_
      refine .bind (heeds_lift ?_) fun found => ?_
      · rcases env.keepUrls_cases parses candidates urls with ⟨_, kept, ok⟩ | ⟨_, raised⟩
        · simp [ok]
        · simp [raised]
      · split
        · exact .done _
        · exact ih found

/-- Trying candidates fails with the quota error just when an extraction was refused. -/
theorem heeds_tryCandidates (kind : LinkKind) (tried candidates : List String) :
    Heeds Refusal ServiceError.tavilyQuotaError (env.tryCandidates prop kind tried candidates) := by
  induction candidates generalizing tried with
  | nil => exact .done _
  | cons candidate rest ih =>
      unfold tryCandidates
      split
      · exact ih tried
      · refine .bind (heeds_extractPage candidate) fun text => ?_
        split
        · exact .done _
        · exact ih _

/-- The check of a URL never fails with the quota error. -/
theorem leavesOut_ne_quota (url : String) (kind : LinkKind) :
    env.leavesOut url kind ≠ .error ServiceError.tavilyQuotaError := by
  unfold leavesOut
  split
  · rcases env.host_cases url with ⟨_, host, ok⟩ | ⟨_, raised⟩
    · rw [TextRules.isAggregator, ok]
      exact fun raised => by cases raised
    · rw [TextRules.isAggregator, raised]
      exact fun same => by cases same
  · simp

/-- Fetching the stored links fails with the quota error just when an extraction was refused. -/
theorem heeds_fetchStored (tried : List String) (links : List (Option String × LinkKind)) :
    Heeds Refusal ServiceError.tavilyQuotaError (env.fetchStored prop tried links) := by
  induction links generalizing tried with
  | nil => exact .done _
  | cons link rest ih =>
      obtain ⟨stored, kind⟩ := link
      unfold fetchStored
      split
      · exact ih tried
      · rename_i url _
        split
        · exact ih tried
        · refine .bind (heeds_lift (env.leavesOut_ne_quota url kind)) fun skipped => ?_
          split
          · exact ih tried
          · refine .bind (heeds_extractPage url) fun text => ?_
            cases text with
            | none => exact ih _
            | some text => exact .done _

/-- A repair whose finders heed refusals heeds them itself. -/
theorem heeds_repairLink (tried : List String)
    {finders : List (TavilyDialogue (List String) × LinkKind)}
    (heed : ∀ find kind, (find, kind) ∈ finders →
      Heeds Refusal ServiceError.tavilyQuotaError find) :
    Heeds Refusal ServiceError.tavilyQuotaError (env.repairLink prop tried finders) := by
  induction finders generalizing tried with
  | nil => exact .done _
  | cons finder rest ih =>
      obtain ⟨find, kind⟩ := finder
      refine .bind (heed find kind List.mem_cons_self) fun candidates => ?_
      refine .bind (env.heeds_tryCandidates prop kind tried candidates) ?_
      rintro ⟨tried, found⟩
      cases found with
      | none =>
          exact ih tried fun find kind member => heed find kind (List.mem_cons_of_mem _ member)
      | some page => exact .done _

theorem mayBeOfficial_parsesUrls : env.ParsesUrls env.mayBeOfficial := by
  intro url
  rcases env.host_cases url with ⟨accepted, host, ok⟩ | ⟨rejected, raised⟩
  · exact .inl ⟨accepted, _, by rw [mayBeOfficial, ok]; rfl⟩
  · exact .inr ⟨rejected, by rw [mayBeOfficial, raised]; rfl⟩

theorem isBuildingPage_parsesUrls : env.ParsesUrls env.isBuildingPage := by
  intro url
  rcases env.host_cases url with ⟨accepted, host, ok⟩ | ⟨rejected, raised⟩
  · exact .inl ⟨accepted, _, by rw [isBuildingPage, ok]; rfl⟩
  · exact .inr ⟨rejected, by rw [isBuildingPage, raised]; rfl⟩

theorem heeds_officialCandidates :
    Heeds Refusal ServiceError.tavilyQuotaError (env.officialCandidates prop) := by
  unfold officialCandidates
  exact env.heeds_findCandidates env.mayBeOfficial_parsesUrls 3 [] _

theorem heeds_streeteasyCandidates :
    Heeds Refusal ServiceError.tavilyQuotaError (env.streeteasyCandidates prop) := by
  unfold streeteasyCandidates
  exact env.heeds_findCandidates env.isBuildingPage_parsesUrls 2 [] _

/-- A fetch raises the quota error in just the courses in which a page fetch is refused. -/
theorem heeds_fetchPage : Heeds Refusal ServiceError.tavilyQuotaError (env.fetchPage prop) := by
  refine .bind (env.heeds_fetchStored prop [] _) ?_
  rintro ⟨tried, found⟩
  cases found with
  | some page => exact .done _
  | none =>
      refine env.heeds_repairLink prop tried fun find kind member => ?_
      rcases List.mem_cons.mp member with same | last
      · rw [(Prod.mk.inj same).1]
        exact env.heeds_officialCandidates prop
      · rw [(Prod.mk.inj (List.mem_singleton.mp last)).1]
        exact env.heeds_streeteasyCandidates prop

/-! ## What a repair comes to -/

/-- How a search for a page ended and what was exchanged: it raised because an exchange
did, it found nothing because every exchange was silent, or its last exchange was the first
to read a page. -/
def Verdict (talk : List TavilyExchange) : Except ServiceError (Option FetchedPage) → Prop
  | .error _ => ∃ exchange ∈ talk, env.Raises exchange
  | .ok none => ∀ exchange ∈ talk, env.Silent prop exchange
  | .ok (some page) => ∃ before answer, talk = before ++ [(.extract page.url, answer)] ∧
      (∀ exchange ∈ before, env.Silent prop exchange) ∧
        env.Reads prop (.extract page.url, answer) page.url page.text

variable {env prop} {talk first second : List TavilyExchange}

/-- What silent exchanges are followed by decides how the search for a page ends. -/
theorem Verdict.after {ending : Except ServiceError (Option FetchedPage)}
    (silent : ∀ exchange ∈ first, env.Silent prop exchange)
    (verdict : env.Verdict prop second ending) : env.Verdict prop (first ++ second) ending := by
  cases ending with
  | error error =>
      obtain ⟨exchange, member, raises⟩ := verdict
      exact ⟨exchange, List.mem_append_right _ member, raises⟩
  | ok found =>
      cases found with
      | none => exact List.forall_mem_append.mpr ⟨silent, verdict⟩
      | some page =>
          obtain ⟨before, answer, rfl, rest, reads⟩ := verdict
          exact ⟨first ++ before, answer, (List.append_assoc ..).symm,
            List.forall_mem_append.mpr ⟨silent, rest⟩, reads⟩

/-- An extraction is one exchange, and its answer is the page. -/
theorem extractPage_talk {url : String} {ending : Except ServiceError (Option String)}
    (conversation : Conversation (extractPage url) talk ending) :
    ∃ answer, talk = [(.extract url, answer)] ∧ ending = answer.extract.map truthy := by
  rcases conversation_bind.mp conversation with
    ⟨error, failed, _⟩ | ⟨answer, first, second, asked, rest, rfl⟩
  · obtain ⟨_, _, same⟩ := conversation_inquire.mp failed
    cases same
  · obtain ⟨_, rfl, same⟩ := conversation_inquire.mp asked
    cases same
    refine ⟨answer, ?_⟩
    rcases conversation_bind.mp rest with
      ⟨error, failed, rfl⟩ | ⟨content, first, second, extracted, last, rfl⟩
    · obtain ⟨rfl, raised⟩ := conversation_lift.mp failed
      exact ⟨rfl, by rw [← raised]; rfl⟩
    · obtain ⟨rfl, same⟩ := conversation_lift.mp extracted
      obtain ⟨rfl, rfl⟩ := conversation_pure.mp last
      exact ⟨rfl, by rw [← same]; rfl⟩

/-- A search that is not asked finds nothing; one that succeeds finds its items. -/
theorem searchUrls_talk {query : String} {ending : Except ServiceError (List String)}
    (conversation : Conversation (env.searchUrls query) talk ending) :
    (talk = [] ∧ ending = .ok []) ∨ ∃ asked answer, talk = [(.search asked, answer)] ∧
      ending = .ok (if answer.search.status = .succeeded then answer.search.items else []) := by
  unfold searchUrls at conversation
  split at conversation
  · exact .inl (conversation_pure.mp conversation)
  · right
    rcases conversation_bind.mp conversation with
      ⟨error, failed, _⟩ | ⟨answer, first, second, asked, rest, rfl⟩
    · obtain ⟨_, _, same⟩ := conversation_inquire.mp failed
      cases same
    · obtain ⟨_, rfl, same⟩ := conversation_inquire.mp asked
      cases same
      obtain ⟨rfl, rfl⟩ := conversation_pure.mp rest
      exact ⟨_, answer, rfl, rfl⟩

/-- A search reads no page, and it raises when a URL it found is not accepted. -/
theorem silent_search {asked : SearchQuery} {answer : TavilyAnswer}
    (accepted : answer.search.status = .succeeded →
      ∀ url ∈ answer.search.items, env.acceptsNetloc (netloc url.toList) = true) :
    env.Silent prop (.search asked, answer) := by
  refine ⟨fun ⟨succeeded, url, member, rejected⟩ => ?_, fun url text reads => ?_⟩
  · rw [accepted succeeded url member] at rejected
    cases rejected
  · cases reads.1

/-- Finding candidates reads no page: it raises with an exchange, or all of them are silent. -/
theorem findCandidates_verdict {keeps : String → Except ServiceError Bool}
    (parses : env.ParsesUrls keeps) {enough : Nat} {candidates queries : List String}
    {ending : Except ServiceError (List String)}
    (conversation : Conversation (env.findCandidates keeps enough candidates queries) talk
      ending) : env.Verdict prop talk (ending.map fun _ => none) := by
  induction queries generalizing candidates talk with
  | nil =>
      obtain ⟨rfl, rfl⟩ := conversation_pure.mp conversation
      exact List.forall_mem_nil _
  | cons query rest ih =>
      rcases conversation_bind.mp conversation with
        ⟨error, failed, rfl⟩ | ⟨urls, first, second, searched, later, rfl⟩
      · rcases searchUrls_talk failed with ⟨_, same⟩ | ⟨_, _, _, same⟩ <;> cases same
      · rcases conversation_bind.mp later with
          ⟨error, failed, rfl⟩ | ⟨found, third, fourth, kept, last, rfl⟩
        · obtain ⟨rfl, raised⟩ := conversation_lift.mp failed
          rcases env.keepUrls_cases parses candidates urls with
            ⟨_, _, ok⟩ | ⟨⟨url, member, rejected⟩, _⟩
          · rw [ok] at raised
            cases raised
          · rcases searchUrls_talk searched with ⟨_, same⟩ | ⟨asked, answer, rfl, same⟩
            · cases same
              cases member
            · cases same
              split at member
              · rename_i succeeded
                exact ⟨(.search asked, answer), by simp, succeeded, url, member, rejected⟩
              · cases member
        · obtain ⟨rfl, ok⟩ := conversation_lift.mp kept
          rw [List.nil_append]
          refine .after (fun exchange member => ?_) ?_
          · rcases env.keepUrls_cases parses candidates urls with
              ⟨accepted, _⟩ | ⟨_, raised⟩
            · rcases searchUrls_talk searched with ⟨rfl, _⟩ | ⟨asked, answer, rfl, same⟩
              · cases member
              · obtain rfl := List.mem_singleton.mp member
                refine silent_search fun succeeded => ?_
                cases same
                rwa [if_pos succeeded] at accepted
            · rw [raised] at ok
              cases ok
          · split at last
            · obtain ⟨rfl, rfl⟩ := conversation_pure.mp last
              exact List.forall_mem_nil _
            · exact ih last

/-- A page fetch without content that counts is silent. -/
theorem silent_extract {url : String} {answer : TavilyAnswer} {content : Option String}
    (extracted : answer.extract = .ok content)
    (ignored : ∀ text, truthy content = some text →
      prop.pageMentionsProperty env.toTextRules text = false) :
    env.Silent prop (.extract url, answer) := by
  refine ⟨fun ⟨error, raised⟩ => ?_, fun other text ⟨_, read, filled, mentions⟩ => ?_⟩
  · rw [extracted] at raised
    cases raised
  · cases extracted.symm.trans read
    rw [ignored text (by simp [truthy, filled])] at mentions
    cases mentions

theorem truthy_eq_some {content : Option String} {text : String} :
    truthy content = some text ↔ content = some text ∧ text ≠ "" := by
  simp [truthy, Option.filter_eq_some_iff]

/-- Trying candidates ends with the first page that an exchange reads. -/
theorem tryCandidates_verdict {kind : LinkKind} {tried candidates : List String}
    {ending : Except ServiceError (List String × Option FetchedPage)}
    (conversation : Conversation (env.tryCandidates prop kind tried candidates) talk ending) :
    env.Verdict prop talk (ending.map Prod.snd) := by
  induction candidates generalizing tried talk with
  | nil =>
      obtain ⟨rfl, rfl⟩ := conversation_pure.mp conversation
      exact List.forall_mem_nil _
  | cons candidate rest ih =>
      unfold tryCandidates at conversation
      split at conversation
      · exact ih conversation
      · rcases conversation_bind.mp conversation with
          ⟨error, failed, rfl⟩ | ⟨text, first, second, fetched, later, rfl⟩
        · obtain ⟨answer, rfl, same⟩ := extractPage_talk failed
          cases extracted : answer.extract with
          | error error => exact ⟨_, List.mem_singleton_self _, error, extracted⟩
          | ok content =>
              rw [extracted] at same
              cases same
        · obtain ⟨answer, rfl, same⟩ := extractPage_talk fetched
          cases extracted : answer.extract with
          | error error =>
              rw [extracted] at same
              cases same
          | ok content =>
              rw [extracted] at same
              obtain rfl : text = truthy content := Except.ok.inj same
              split at later
              · rename_i page counts
                obtain ⟨held, mentions⟩ := Option.filter_eq_some_iff.mp counts
                obtain ⟨rfl, filled⟩ := truthy_eq_some.mp held
                obtain ⟨rfl, rfl⟩ := conversation_pure.mp later
                exact ⟨[], answer, rfl, by simp, rfl, extracted, filled, mentions⟩
              · rename_i ignored
                refine .after (List.forall_mem_singleton.mpr ?_) (ih later)
                refine silent_extract extracted fun text held => ?_
                rw [held] at ignored
                simpa using ignored

/-- A repair ends with the first page read when each of its finders is sound. -/
theorem repairLink_verdict {tried : List String}
    {finders : List (TavilyDialogue (List String) × LinkKind)}
    (sound : ∀ find kind, (find, kind) ∈ finders → ∀ talk ending,
      Conversation find talk ending → env.Verdict prop talk (ending.map fun _ => none))
    {ending : Except ServiceError (Option FetchedPage)}
    (conversation : Conversation (env.repairLink prop tried finders) talk ending) :
    env.Verdict prop talk ending := by
  induction finders generalizing tried talk with
  | nil =>
      obtain ⟨rfl, rfl⟩ := conversation_pure.mp conversation
      exact List.forall_mem_nil _
  | cons finder rest ih =>
      obtain ⟨find, kind⟩ := finder
      have finds := sound find kind List.mem_cons_self
      rcases conversation_bind.mp conversation with
        ⟨error, failed, rfl⟩ | ⟨candidates, first, second, found, later, rfl⟩
      · exact finds talk _ failed
      · refine .after (finds first _ found) ?_
        rcases conversation_bind.mp later with
          ⟨error, failed, rfl⟩ | ⟨outcome, third, fourth, searched, last, rfl⟩
        · exact tryCandidates_verdict failed
        · have tries := tryCandidates_verdict searched
          obtain ⟨tried, found⟩ := outcome
          cases found with
          | none =>
              exact .after tries
                (ih (fun find kind member => sound find kind (List.mem_cons_of_mem _ member)) last)
          | some page =>
              obtain ⟨rfl, rfl⟩ := conversation_pure.mp last
              rw [List.append_nil]
              exact tries

/-- Following the stored links fetches pages only; when none is found, none had content. -/
theorem fetchStored_talk {tried : List String} {links : List (Option String × LinkKind)}
    {ending : Except ServiceError (List String × Option FetchedPage)}
    (conversation : Conversation (env.fetchStored prop tried links) talk ending) :
    (∀ exchange ∈ talk, ∃ url, exchange.1 = .extract url) ∧
      (∀ tried, ending = .ok (tried, none) → ∀ exchange ∈ talk, env.Silent prop exchange) := by
  induction links generalizing tried talk with
  | nil =>
      obtain ⟨rfl, rfl⟩ := conversation_pure.mp conversation
      exact ⟨List.forall_mem_nil _, fun _ _ => List.forall_mem_nil _⟩
  | cons link rest ih =>
      obtain ⟨stored, kind⟩ := link
      unfold fetchStored at conversation
      split at conversation
      · exact ih conversation
      · rename_i url _
        split at conversation
        · exact ih conversation
        · rcases conversation_bind.mp conversation with
            ⟨error, failed, rfl⟩ | ⟨skipped, first, second, judged, later, rfl⟩
          · obtain ⟨rfl, _⟩ := conversation_lift.mp failed
            exact ⟨List.forall_mem_nil _, fun _ _ => List.forall_mem_nil _⟩
          · obtain ⟨rfl, _⟩ := conversation_lift.mp judged
            rw [List.nil_append]
            split at later
            · exact ih later
            · rcases conversation_bind.mp later with
                ⟨error, failed, rfl⟩ | ⟨text, third, fourth, fetched, last, rfl⟩
              · obtain ⟨answer, rfl, _⟩ := extractPage_talk failed
                exact ⟨List.forall_mem_singleton.mpr ⟨url, rfl⟩, fun _ same => by cases same⟩
              · obtain ⟨answer, rfl, same⟩ := extractPage_talk fetched
                cases text with
                | some text =>
                    obtain ⟨rfl, rfl⟩ := conversation_pure.mp last
                    exact ⟨List.forall_mem_singleton.mpr ⟨url, rfl⟩, fun _ same => by cases same⟩
                | none =>
                    obtain ⟨fetches, silent⟩ := ih last
                    refine ⟨List.forall_mem_append.mpr
                      ⟨List.forall_mem_singleton.mpr ⟨url, rfl⟩, fetches⟩, fun tried ended =>
                        List.forall_mem_append.mpr
                          ⟨List.forall_mem_singleton.mpr ?_, silent tried ended⟩⟩
                    cases extracted : answer.extract with
                    | error error =>
                        rw [extracted] at same
                        cases same
                    | ok content =>
                        rw [extracted] at same
                        refine silent_extract extracted fun text held => ?_
                        rw [← Except.ok.inj same] at held
                        cases held

/-- A fetch that searched ends by what the exchanges say. -/
theorem fetchPage_verdict {ending : Except ServiceError (Option FetchedPage)}
    (conversation : Conversation (env.fetchPage prop) talk ending) :
    (∀ exchange ∈ talk, ∃ url, exchange.1 = .extract url) ∨ env.Verdict prop talk ending := by
  rcases conversation_bind.mp conversation with
    ⟨error, failed, rfl⟩ | ⟨outcome, first, second, stored, later, rfl⟩
  · exact .inl (fetchStored_talk failed).1
  · obtain ⟨fetches, silent⟩ := fetchStored_talk stored
    obtain ⟨tried, found⟩ := outcome
    cases found with
    | some page =>
        obtain ⟨rfl, rfl⟩ := conversation_pure.mp later
        rw [List.append_nil]
        exact .inl fetches
    | none =>
        refine .inr (.after (silent tried rfl) (repairLink_verdict ?_ later))
        intro find kind member talk ending found
        rcases List.mem_cons.mp member with same | last
        · rw [(Prod.mk.inj same).1, officialCandidates] at found
          exact findCandidates_verdict env.mayBeOfficial_parsesUrls found
        · rw [(Prod.mk.inj (List.mem_singleton.mp last)).1, streeteasyCandidates] at found
          exact findCandidates_verdict env.isBuildingPage_parsesUrls found

end PageSearch

/-! ## Refusals and the row -/

namespace CompanyProperty

variable {env : CompanyEnvironment} {row : CompanyProperty}

/-- The row has no address, and its name is one. -/
def NamedByAddress (env : CompanyEnvironment) (row : CompanyProperty) : Prop :=
  env.looksLikeAddress row.name = true ∧ truthy row.addressText = none

theorem nameAsAddress_of_not (kept : ¬row.NamedByAddress env) : row.nameAsAddress env = row :=
  if_neg kept

/-- A name that is an address is written to the row. -/
theorem nameAsAddress_addressText_ne (named : row.NamedByAddress env) :
    (row.nameAsAddress env).addressText ≠ row.addressText := by
  rw [show row.nameAsAddress env = { row with addressText := some (TextRules.stripped row.name) }
    from if_pos named]
  intro same
  have filled : strip row.name.toList ≠ [] := by
    intro blank
    have looks := named.1
    simp [TextRules.looksLikeAddress, blank] at looks
  have missing := named.2
  rw [← same] at missing
  simp [truthy, TextRules.stripped, filled] at missing

end CompanyProperty

/-- What refusals may do to a row: a check that returns `RATE_LIMITED` leaves every column
alone, and a check that met a refusal neither clears the snapshot nor records a failure. -/
structure KeepsQuota (row : CompanyProperty) (talk : List TavilyExchange)
    (result : Option CheckResult × CompanyProperty) : Prop where
  rateLimited : result.1 = some .rateLimited → result.2 = row
  snapshot : (∃ exchange ∈ talk, exchange.2.refused = true) →
    row.availability ≠ none → result.2.availability ≠ none
  failure : (∃ exchange ∈ talk, exchange.2.refused = true) →
    result.1 ≠ some .failed ∧ (result.2.checkStatus = .failed → row.checkStatus = .failed)

/-- The refusals of a course do no harm: no page fetch is refused while the name of the
property stands in for its address, and beside a refused search there is an exchange that
raises, or one that reads a page of the property from which the model reads too. -/
structure RefusalsHarmless (env : CompanyEnvironment) (row : CompanyProperty)
    (talk : List TavilyExchange) : Prop where
  fetches : (∃ exchange ∈ talk, RefusedExtract exchange) → ¬row.NamedByAddress env
  searches : (∃ exchange ∈ talk, RefusedSearch exchange) → ∃ exchange ∈ talk,
    env.Raises exchange ∨ ∃ url text extracted,
      env.Reads (row.nameAsAddress env) exchange url text ∧
        (env.llm ((row.nameAsAddress env).taskRequest env url text)).read = .ok extracted

namespace CompanyEnvironment

variable {env : CompanyEnvironment} {row : CompanyProperty} {talk : List TavilyExchange}
  {now committedAt : Timestamp} {discardStale : Bool}

/-- A refused exchange is a refused page fetch or a refused search. -/
theorem refused_cases {exchange : TavilyExchange} (refused : exchange.2.refused = true) :
    RefusedExtract exchange ∨ RefusedSearch exchange := by
  obtain ⟨request, answer⟩ := exchange
  cases request with
  | extract url => exact .inl ⟨⟨url, rfl⟩, refused⟩
  | search query => exact .inr ⟨⟨query, rfl⟩, refused⟩

/-- A page fetch that was refused raises. -/
theorem RefusedExtract.raises {exchange : TavilyExchange} (refused : RefusedExtract exchange) :
    env.Raises exchange := by
  obtain ⟨request, answer⟩ := exchange
  obtain ⟨⟨url, rfl⟩, same⟩ := refused
  exact ⟨_, TavilyAnswer.extract_eq_quota.mpr same⟩

/-- The fetch that reads a page raises nothing and reads that page only. -/
theorem Reads.only {prop : CompanyProperty} {answer : TavilyAnswer} {url text : String}
    (reads : env.Reads prop (.extract url, answer) url text) :
    ¬env.Raises (.extract url, answer) ∧ ∀ otherUrl otherText,
      env.Reads prop (.extract url, answer) otherUrl otherText →
        otherUrl = url ∧ otherText = text := by
  obtain ⟨_, extracted, _⟩ := reads
  refine ⟨fun ⟨error, raised⟩ => ?_, fun otherUrl otherText ⟨request, other, _⟩ => ?_⟩
  · rw [extracted] at raised
    cases raised
  · cases request
    cases other.symm.trans extracted
    exact ⟨rfl, rfl⟩

/-- A judged page is recorded, or the check failed: there was no page, or the model did not
read one. -/
theorem judgePage_cases (env : CompanyEnvironment) (now : Timestamp) (discardStale : Bool)
    (prop : CompanyProperty) (found : Option FetchedPage) :
    (∃ page extracted, found = some page ∧
        (env.llm (prop.taskRequest env page.url page.text)).read = .ok extracted ∧
          env.judgePage now discardStale prop found =
            (.checked, prop.recordChecked env now page extracted)) ∨
      ((env.judgePage now discardStale prop found).1 = .failed ∧ ∀ page, found = some page →
        ∀ extracted,
          (env.llm (prop.taskRequest env page.url page.text)).read ≠ .ok extracted) := by
  cases found with
  | none => exact .inr ⟨rfl, fun _ same => by cases same⟩
  | some page =>
      unfold judgePage
      cases read : (env.llm (prop.taskRequest env page.url page.text)).read with
      | error error =>
          refine .inr ⟨by simp only [read], fun other same extracted => ?_⟩
          cases same
          simp [read]
      | ok extracted => exact .inl ⟨page, extracted, rfl, read, by simp only [read]⟩

/-- A fetch that searched for links: its ending tells whether an exchange raised or read a
page that the model reads too. -/
theorem helped_iff {prop : CompanyProperty} {found : Option FetchedPage}
    (fetch : Conversation (env.fetchPage prop) talk (.ok found))
    (searched : ∃ exchange ∈ talk, RefusedSearch exchange) :
    (∃ exchange ∈ talk, env.Raises exchange ∨ ∃ url text extracted,
        env.Reads prop exchange url text ∧
          (env.llm (prop.taskRequest env url text)).read = .ok extracted) ↔
      ∃ page extracted, found = some page ∧
        (env.llm (prop.taskRequest env page.url page.text)).read = .ok extracted := by
  have verdict : env.Verdict prop talk (.ok found) := by
    rcases PageSearch.fetchPage_verdict fetch with fetches | verdict
    · obtain ⟨exchange, member, ⟨query, search⟩, _⟩ := searched
      obtain ⟨url, extract⟩ := fetches exchange member
      cases search.symm.trans extract
    · exact verdict
  cases found with
  | none =>
      refine ⟨fun ⟨exchange, member, helps⟩ => ?_, fun ⟨_, _, same, _⟩ => by cases same⟩
      obtain ⟨quiet, blind⟩ := verdict exchange member
      rcases helps with raises | ⟨url, text, _, reads, _⟩
      · exact (quiet raises).elim
      · exact (blind url text reads).elim
  | some page =>
      obtain ⟨before, answer, rfl, silent, reads⟩ := verdict
      constructor
      · rintro ⟨exchange, member, helps⟩
        rcases List.mem_append.mp member with early | last
        · obtain ⟨quiet, blind⟩ := silent exchange early
          rcases helps with raises | ⟨url, text, _, other, _⟩
          · exact (quiet raises).elim
          · exact (blind url text other).elim
        · obtain rfl := List.mem_singleton.mp last
          obtain ⟨quiet, only⟩ := Reads.only reads
          rcases helps with raises | ⟨url, text, extracted, other, read⟩
          · exact (quiet raises).elim
          · obtain ⟨rfl, rfl⟩ := only url text other
            exact ⟨page, extracted, rfl, read⟩
      · rintro ⟨_, extracted, same, read⟩
        cases same
        exact ⟨_, List.mem_append_right _ (List.mem_singleton_self _),
          .inr ⟨page.url, page.text, extracted, reads, read⟩⟩

/-- A fetch that Tavily refused leaves the row alone when the name is no address. -/
theorem keepsQuota_refused_iff
    (fetch : Conversation (env.fetchPage (row.nameAsAddress env)) talk
      (.error .tavilyQuotaError)) :
    KeepsQuota row talk (stored committedAt row (env.checkEnding now discardStale
        (row.nameAsAddress env) (.error .tavilyQuotaError))) ↔
      RefusalsHarmless env row talk := by
  have refused : ∃ exchange ∈ talk, RefusedExtract exchange :=
    ((env.heeds_fetchPage _).ending_iff fetch).mp rfl
  constructor
  · intro keeps
    refine ⟨fun _ named => ?_, fun _ => ?_⟩
    · have same := congrArg CompanyProperty.addressText (keeps.rateLimited rfl)
      exact CompanyProperty.nameAsAddress_addressText_ne named
        ((commitRow_addressText ..).symm.trans same)
    · obtain ⟨exchange, member, raised⟩ := refused
      exact ⟨exchange, member, .inl (RefusedExtract.raises raised)⟩
  · intro harmless
    have kept := CompanyProperty.nameAsAddress_of_not (harmless.fetches refused)
    have same : stored committedAt row (env.checkEnding now discardStale
        (row.nameAsAddress env) (.error .tavilyQuotaError)) = (some .rateLimited, row) := by
      simp [checkEnding, stored, kept, commitRow]
    rw [same]
    exact ⟨fun _ => rfl, fun _ filled => filled, fun _ => ⟨by simp, id⟩⟩

/-- A fetch that raises something else stores nothing, and its refusals are harmless. -/
theorem keepsQuota_of_raised {error : ServiceError} (other : error ≠ .tavilyQuotaError)
    (fetch : Conversation (env.fetchPage (row.nameAsAddress env)) talk (.error error)) :
    KeepsQuota row talk (stored committedAt row (env.checkEnding now discardStale
        (row.nameAsAddress env) (.error error))) ∧
      RefusalsHarmless env row talk := by
  have quota := (env.heeds_fetchPage _).ending_iff fetch
  have same : stored committedAt row (env.checkEnding now discardStale
      (row.nameAsAddress env) (.error error)) = (none, row) := by
    unfold checkEnding
    split
    · rename_i limited
      cases limited
      exact (other rfl).elim
    · rfl
    · rename_i found
      cases found
  rw [same]
  refine ⟨⟨by simp, fun _ filled => filled, fun _ => ⟨by simp, id⟩⟩, fun refused => ?_, ?_⟩
  · exact (other (Except.error.inj (quota.mpr refused))).elim
  · rintro ⟨exchange, member, ⟨query, search⟩, _⟩
    rcases PageSearch.fetchPage_verdict fetch with fetches | ⟨raising, inside, raises⟩
    · obtain ⟨url, extract⟩ := fetches exchange member
      cases search.symm.trans extract
    · exact ⟨raising, inside, .inl raises⟩

/-- A fetch that ends in a page, or in none, was refused in a search only; the check is
recorded as read when the model reads the page, and as failed otherwise. -/
theorem keepsQuota_found_iff {found : Option FetchedPage}
    (fetch : Conversation (env.fetchPage (row.nameAsAddress env)) talk (.ok found)) :
    KeepsQuota row talk (stored committedAt row (env.checkEnding now discardStale
        (row.nameAsAddress env) (.ok found))) ↔
      RefusalsHarmless env row talk := by
  have fetched : ¬∃ exchange ∈ talk, RefusedExtract exchange := fun refused => by
    cases ((env.heeds_fetchPage _).ending_iff fetch).mpr refused
  rcases judgePage_cases env now discardStale (row.nameAsAddress env) found with
    ⟨page, extracted, rfl, read, judged⟩ | ⟨failed, unread⟩
  · have writes := CompanyProperty.recordChecked_writes env (row.nameAsAddress env) now page
      extracted
    refine iff_of_true ⟨?_, ?_, ?_⟩ ⟨fun refused => (fetched refused).elim, fun searched => ?_⟩
    · simp [checkEnding, stored, judged]
    · simp [checkEnding, stored, judged, writes]
    · simp [checkEnding, stored, judged, writes]
    · exact (helped_iff fetch searched).mpr ⟨page, extracted, rfl, read⟩
  · constructor
    · intro keeps
      refine ⟨fun refused => (fetched refused).elim, fun searched => ?_⟩
      obtain ⟨exchange, member, refused⟩ := searched
      refine ((keeps.failure ⟨exchange, member, refused.2⟩).1 ?_).elim
      simp [checkEnding, stored, failed]
    · intro harmless
      have quiet : ¬∃ exchange ∈ talk, exchange.2.refused = true := by
        rintro ⟨exchange, member, refused⟩
        rcases refused_cases refused with extract | search
        · exact fetched ⟨exchange, member, extract⟩
        · have searched : ∃ exchange ∈ talk, RefusedSearch exchange := ⟨exchange, member, search⟩
          obtain ⟨page, extracted, same, read⟩ :=
            (helped_iff fetch searched).mp (harmless.searches searched)
          exact unread page same extracted read
      refine ⟨?_, fun refused => (quiet refused).elim, fun refused => (quiet refused).elim⟩
      simp [checkEnding, stored, failed]

/-- **Refusals and company data.** Whatever Tavily, the model and the geocoders answer, a
check leaves what it should alone just when its refusals are harmless. -/
theorem refreshProperty_keepsQuota_iff {result : Option CheckResult × CompanyProperty}
    (conversation : Conversation (env.refreshProperty now committedAt discardStale row) talk
      (.ok result)) :
    KeepsQuota row talk result ↔ RefusalsHarmless env row talk := by
  obtain ⟨outcome, fetch, rfl⟩ := refreshProperty_talk conversation
  cases outcome with
  | error error =>
      by_cases limited : error = .tavilyQuotaError
      · subst limited
        exact keepsQuota_refused_iff fetch
      · obtain ⟨keeps, harmless⟩ := keepsQuota_of_raised limited fetch
        exact iff_of_true keeps harmless
  | ok found => exact keepsQuota_found_iff fetch

/-! ## Two courses that touch the row -/

/-- Nothing but Tavily answers. -/
def silentEnvironment : CompanyEnvironment where
  unicode := Database.asciiTables
  isDecimal := Char.isDigit
  acceptsNetloc _ := true
  searches := true
  llm _ := ⟨.failed, .missing, none⟩
  geocoders := []
  walkRouter := none
  scan := ⟨fun _ _ => 0, fun _ => 0⟩
  addresses := []
  buildings := []
  stops := []

/-- The plan is exhausted. -/
def planLimit (_ : List TavilyExchange) (_ : TavilyRequest) : TavilyAnswer := .httpError 432

/-- A dead link, and a search that the exhausted plan refuses. -/
def deadLinkPlanLimit (_ : List TavilyExchange) : TavilyRequest → TavilyAnswer
  | .extract _ => .httpError 404
  | .search _ => .httpError 432

/-- A property that is listed by its street address. -/
def waterStreet : CompanyProperty where
  companyPropertyId := 1
  name := "160 water st"
  nameFingerprint := "160 water st"
  sourceDocument := "portfolio.docx"
  originalUrl := some "https://water.example"
  createdAt := 0
  updatedAt := 0

/-- A property with a snapshot and a link that died. -/
def greenpoint : CompanyProperty where
  companyPropertyId := 2
  name := "Greenpoint"
  nameFingerprint := "greenpoint"
  sourceDocument := "portfolio.docx"
  originalUrl := some "https://dead.example"
  availability := some (CompanyProperty.snapshot 0 "https://dead.example" [] {})
  checkStatus := .checked
  createdAt := 0
  updatedAt := 0

/-- The exchanges and the outcome of a check with these answers. -/
def course (respond : List TavilyExchange → TavilyRequest → TavilyAnswer) (discardStale : Bool)
    (row : CompanyProperty) :
    List TavilyExchange × Except ServiceError (Option CheckResult × CompanyProperty) :=
  (silentEnvironment.refreshProperty 5 6 discardStale row).converse respond []

/-- A refused page fetch leaves an address behind, and after a refused search a re-check
records a failure and clears the snapshot. -/
theorem refusals_touch_rows :
    (∃ talk result, Conversation (silentEnvironment.refreshProperty 5 6 false waterStreet) talk
        (.ok result) ∧ ¬KeepsQuota waterStreet talk result) ∧
      ∃ talk result, Conversation (silentEnvironment.refreshProperty 5 6 true greenpoint) talk
        (.ok result) ∧ ¬KeepsQuota greenpoint talk result := by
  have first : ∃ row, (course planLimit false waterStreet).2 = .ok (some .rateLimited, row) ∧
      row.addressText ≠ none :=
    ⟨{ waterStreet with addressText := some "160 water st", updatedAt := 6 }, by decide, by decide⟩
  have second : ∃ row, (course deadLinkPlanLimit true greenpoint).2 = .ok (some .failed, row) :=
    ⟨_, rfl⟩
  constructor
  · obtain ⟨row, ended, written⟩ := first
    refine ⟨_, (some .rateLimited, row), ended ▸ conversation_converse planLimit [] _, ?_⟩
    intro keeps
    exact written (congrArg CompanyProperty.addressText (keeps.rateLimited rfl))
  · obtain ⟨row, ended⟩ := second
    refine ⟨_, (some .failed, row), ended ▸ conversation_converse deadLinkPlanLimit [] _, ?_⟩
    intro keeps
    exact (keeps.failure (by decide)).1 rfl

/-- A refused page fetch of a property that is listed by its name leaves the row alone. -/
theorem planLimit_keepsQuota :
    KeepsQuota greenpoint (course planLimit true greenpoint).1
      (some .rateLimited, greenpoint) := by
  have ended : (course planLimit true greenpoint).2 = .ok (some .rateLimited, greenpoint) := by
    decide
  have held : Conversation (silentEnvironment.refreshProperty 5 6 true greenpoint)
      (course planLimit true greenpoint).1 (.ok (some .rateLimited, greenpoint)) :=
    ended ▸ conversation_converse planLimit [] _
  refine (refreshProperty_keepsQuota_iff held).mpr ⟨fun _ named => ?_, fun _ => ?_⟩
  · exact absurd named.1 (by decide)
  · exact ⟨(.extract "https://dead.example", .httpError 432), List.mem_singleton_self _,
      .inl ⟨.tavilyQuotaError, rfl⟩⟩

end CompanyEnvironment

end RentalAgent
