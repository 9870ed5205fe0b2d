import RentalAgent.Acquisition.SnippetTotal
import RentalAgent.Enrichment.GeographicScope

/-! # Layouts of snippets that mention several

The layout patterns are tried in order and the first one that occurs decides. A text that
mentions a studio and an apartment of three bedrooms is therefore one of a studio, and a
listing that is started from it can be activated. `parseSnippet_cautious_iff` says on which
texts the parser gives no admissible layout although the text mentions several; where it
gives none, a listing started from the observation is never active, whatever happens to it
later (`neverActive_of_not_admissible`).
-/

namespace RentalAgent.Snippet

open Pattern Relational Transition

variable (tables : TextTables)

/-- The layout classes whose pattern occurs in the text. -/
def mentioned (text : List Char) : List LayoutClass :=
  ((layoutPatterns tables).filter fun entry => entry.1.occurs text).map Prod.snd

/-- The text mentions an admissible layout and another one. -/
def Mixed (text : List Char) : Prop :=
  ∃ first ∈ mentioned tables text, first ∈ admissibleLayouts ∧
    ∃ second ∈ mentioned tables text, second ≠ first

instance (text : List Char) : Decidable (Mixed tables text) :=
  inferInstanceAs (Decidable (∃ first ∈ mentioned tables text, first ∈ admissibleLayouts ∧
    ∃ second ∈ mentioned tables text, second ≠ first))

/-- The call processes an observation with this layout block and starts the listing. -/
def Starts (env : LocationEnvironment) (db : Database) (action : LocationAction)
    (layout : LayoutBlock) (id : Uuid) : Prop :=
  ∃ scan now method observationId row,
    action = .service (.processObservation scan now method observationId) ∧
    db.observation? observationId = some row ∧ row.parsedPayload.layout = layout ∧
    id ∉ db.listings.map CanonicalListing.canonicalListingId ∧
    id ∈ (db.survey env action).listings.map CanonicalListing.canonicalListingId

/-- Whatever calls come before and after the one that starts a listing from an observation
with this layout block, the listing is not active. -/
def NeverActive (layout : LayoutBlock) : Prop :=
  ∀ (env : LocationEnvironment) (before : List LocationAction) (action : LocationAction)
    (after : List LocationAction) (id : Uuid),
    Starts env (run (Database.survey env) Database.empty before) action layout id →
      ∀ listing ∈ (run (Database.survey env) Database.empty (before ++ action :: after)).listings,
        listing.canonicalListingId = id → listing.lifecycleStatus ≠ .active

/-- On a text that mentions several layouts, the parser gives no admissible one, and no
listing that is started from its layout is ever active. -/
def Cautious (title snippet : Option String) : Prop :=
  Mixed tables (joinedText title snippet) →
    ∀ facts, parseSnippet tables title snippet = .ok facts →
      facts.layout.proposedLayoutClass ∉ admissibleLayouts ∧ NeverActive facts.layout

/-! ## Listings of an observation -/

/-- A listing has the layout. -/
def HasLayout (id : Uuid) (layoutClass : LayoutClass) (db : Database) : Prop :=
  ∃ standing ∈ db.standings, standing.listingId = id ∧ standing.layoutClass = layoutClass

variable {env : LocationEnvironment} {db : Database} {action : LocationAction}
  {layout : LayoutBlock} {id : Uuid} {layoutClass : LayoutClass}

/-- A started listing has the layout of its observation. -/
theorem Starts.hasLayout (starts : Starts env db action layout id) :
    HasLayout id layout.proposedLayoutClass (db.survey env action) := by
  obtain ⟨scan, now, method, observationId, row, rfl, found, rfl, unknown, listed⟩ := starts
  obtain ⟨listing, member, key⟩ := List.mem_map.mp listed
  refine ⟨listing.standing, Database.mem_standings.mpr ⟨listing, member, rfl⟩, key, ?_⟩
  change listing ∈ (db.step env.ids env.unicode
    (.processObservation scan now method observationId)).listings at member
  unfold Database.step at member
  cases performed : db.perform env.ids env.unicode
      (.processObservation scan now method observationId) with
  | error failure =>
      rw [performed] at member
      exact absurd (key ▸ List.mem_map_of_mem member) unknown
  | ok next =>
      rw [performed] at member
      obtain ⟨⟨after, outcome⟩, processed, wrote⟩ := bind_eq_ok.mp performed
      cases wrote
      obtain ⟨started, same, proposes⟩ := Database.processObservation_starts processed
      have standing : listing.standing ∈ next.standings :=
        Database.mem_standings.mpr ⟨listing, member, rfl⟩
      rw [same] at standing
      rcases List.mem_append.mp standing with old | new
      · obtain ⟨before, inside, stands⟩ := Database.mem_standings.mp old
        have sameId : before.canonicalListingId = id :=
          (congrArg Standing.listingId stands).trans key
        exact absurd (sameId ▸ List.mem_map_of_mem inside) unknown
      · obtain ⟨-, other, foundOther, proposed⟩ := proposes _ new
        cases found.symm.trans foundOther
        exact proposed

/-- A listing that has a layout keeps it in every run. -/
theorem hasLayout_preserved : Preserved (Database.survey env) (fun _ _ => True)
    fun db => Database.Warranted env.ids db ∧ HasLayout id layoutClass db := by
  rintro db action ⟨warranted, standing, member, key, has⟩ -
  refine ⟨warranted.survey action, ?_⟩
  obtain ⟨verdict, started, same, -⟩ := Database.survey_settles warranted.tracked action
  refine ⟨{ standing with lifecycleStatus := verdict standing }, ?_, key, has⟩
  rw [same]
  exact List.mem_append_left _ (List.mem_map_of_mem member)

/-- A listing started with a layout that is not admissible is never active. -/
theorem neverActive_of_not_admissible
    (outside : layout.proposedLayoutClass ∉ admissibleLayouts) : NeverActive layout := by
  intro env before action after id starts listing member key active
  have every (db : Database) (actions : List LocationAction) :
      Permitted (Database.survey env) (fun _ _ => True) db actions := fun _ _ => trivial
  have warranted := Database.warranted_preserved.run (Database.warranted_empty env.ids)
    (every _ before)
  obtain ⟨lastly, standing, stands, sameId, has⟩ := hasLayout_preserved.run
    ⟨warranted.survey action, starts.hasLayout⟩ (every _ after)
  rw [run_append, run_cons] at member
  have own : listing.standing ∈ (run (Database.survey env)
      (Database.survey env (run (Database.survey env) Database.empty before) action)
      after).standings := Database.mem_standings.mpr ⟨listing, member, rfl⟩
  obtain ⟨other, inside, rfl⟩ := Database.mem_standings.mp stands
  obtain rfl : listing = other :=
    List.inj_on_of_nodup_map lastly.tracked.listingIds member inside (key.trans sameId.symm)
  exact outside (has ▸ (lastly.admitted _ own active).layout)

/-! ## The layout of a text -/

variable {tables}

/-- The parser gives an admissible layout just when the text mentions one: the pattern of
the others comes last. -/
theorem layoutOf_admissible_iff {text : List Char} : layoutOf tables text ∈ admissibleLayouts ↔
    ∃ layoutClass ∈ mentioned tables text, layoutClass ∈ admissibleLayouts := by
  simp only [layoutOf, mentioned, layoutPatterns, List.find?_cons, List.filter_cons]
  split
  · simp [*, admissibleLayouts]
  split
  · simp [*, admissibleLayouts]
  split
  · simp [*, admissibleLayouts]
  split <;> simp [*, admissibleLayouts]

/-- **When a text that mentions several layouts is given an admissible one.** -/
theorem parseSnippet_cautious_iff (tables : TextTables) (title snippet : Option String) :
    Cautious tables title snippet ↔
      (Mixed tables (joinedText title snippet) →
        (∀ layoutClass ∈ mentioned tables (redact tables (joinedText title snippet)),
          layoutClass ∉ admissibleLayouts) ∨
        ∃ price, searchPrice tables (redact tables (joinedText title snippet)) = some price ∧
          ∀ c ∈ price.group, tables.isDecimal c = false) := by
  refine forall_congr' fun _ => ?_
  constructor
  · intro cautious
    by_cases returns : ∃ facts, parseSnippet tables title snippet = .ok facts
    · obtain ⟨facts, parsed⟩ := returns
      obtain ⟨rent, -, rfl⟩ := parseSnippet_eq_ok.mp parsed
      have outside := (cautious _ parsed).1
      refine .inl fun layoutClass member admissible => outside ?_
      exact layoutOf_admissible_iff.mpr ⟨layoutClass, member, admissible⟩
    · rw [parseSnippet_returns_iff] at returns
      simp only [not_forall, not_exists, not_and, Bool.not_eq_true] at returns
      obtain ⟨price, found, digitless⟩ := returns
      exact .inr ⟨price, found, digitless⟩
  · rintro condition facts parsed
    have returns := parseSnippet_returns_iff.mp ⟨facts, parsed⟩
    obtain ⟨rent, -, rfl⟩ := parseSnippet_eq_ok.mp parsed
    have outside : layoutOf tables (redact tables (joinedText title snippet)) ∉
        admissibleLayouts := by
      rcases condition with none | ⟨price, found, digitless⟩
      · intro admissible
        obtain ⟨layoutClass, member, inside⟩ := layoutOf_admissible_iff.mp admissible
        exact none layoutClass member inside
      · obtain ⟨c, member, digit⟩ := returns price found
        exact absurd digit (by simp [digitless c member])
    exact ⟨outside, neverActive_of_not_admissible outside⟩

/-- A studio beside three bedrooms is a studio. -/
theorem studio_or_three_bedrooms :
    ¬ Cautious TextTables.ascii (some "Studio or 3 bed") none := by
  intro cautious
  have mixed : Mixed TextTables.ascii (joinedText (some "Studio or 3 bed") none) := by decide
  have parsed : parseSnippet TextTables.ascii (some "Studio or 3 bed") none =
      .ok (factsOf TextTables.ascii (joinedText (some "Studio or 3 bed") none) none) := rfl
  have studio : (factsOf TextTables.ascii (joinedText (some "Studio or 3 bed") none)
      none).layout.proposedLayoutClass = .studio := by decide
  exact (cautious mixed _ parsed).1 (by rw [studio]; decide)

end RentalAgent.Snippet
