import RentalAgent.Enrichment.CommuteRenewal

/-! # Stale commutes

A lookup asks an estimate for its target, its destination and its expiry. It asks neither
for the location that the estimate was researched from nor for the registry version of the
destination. So an estimate outlives a change of these, and a call returns it.
`returnsValid_iff` says of every history when no call does: a stale estimate must come
after a valid one wherever it could be found.
-/

namespace RentalAgent

open Relational Transition

namespace ResearchEnvironment

variable {env : ResearchEnvironment} {tables next : CommuteTables} {call : ResearchCall}
  {row other : CommuteResult}

/-! ## The order of a lookup -/

/-- The later estimate comes first. -/
theorem before_eq (env : ResearchEnvironment) : env.before =
    Ranking.ByMeasure (fun row => OrderDual.toDual row.calculatedAt)
      (fun row => env.position row.commuteResultId) := rfl

instance (env : ResearchEnvironment) : Std.Total env.before :=
  before_eq env ▸ inferInstance

instance (env : ResearchEnvironment) : IsTrans CommuteResult env.before :=
  before_eq env ▸ inferInstance

/-- Estimates that come before each other are one estimate. -/
theorem before_antisymm (unique : PrimaryKey CommuteResult.commuteResultId tables.results)
    (member : row ∈ tables.results) (otherMember : other ∈ tables.results)
    (ahead : env.before row other) (behind : env.before other row) : row = other := by
  rw [before_eq] at ahead behind
  exact unique.eq_of_mem member otherMember (env.apart (ahead.place_eq behind))

/-! ## Identifiers -/

/-- The identifiers of estimates were drawn, each once. -/
structure Numbered (env : ResearchEnvironment) (tables : CommuteTables) : Prop where
  unique : PrimaryKey CommuteResult.commuteResultId tables.results
  drawn : ∀ row ∈ tables.results, ∃ k < tables.drawn, row.commuteResultId = env.ids.uuid k

/-- Every action keeps the identifiers of estimates drawn and single. -/
theorem numbered_step (action : CommuteAction) (numbered : Numbered env tables) :
    Numbered env (env.step tables action) := by
  cases action with
  | outside write => exact ⟨numbered.unique, numbered.drawn⟩
  | research call =>
      unfold step
      dsimp only
      split
      · rename_i next row wrote
        rcases research_cases wrote with ⟨_, rfl⟩ | ⟨_, target, destination, output, _, same⟩
        · exact numbered
        · rw [(Prod.mk.inj same).1]
          constructor
          · refine numbered.unique.insert fun _ row member _ agrees => ?_
            obtain ⟨k, below, drawn⟩ := numbered.drawn row member
            have := env.ids.distinct (drawn.symm.trans agrees)
            omega
          · intro row member
            rcases List.mem_append.mp member with old | new
            · obtain ⟨k, below, drawn⟩ := numbered.drawn row old
              exact ⟨k, below.trans (Nat.lt_add_of_pos_right Nat.two_pos), drawn⟩
            · rw [List.mem_singleton.mp new]
              exact ⟨tables.drawn + 1, Nat.lt_succ_self _, rfl⟩
      · exact numbered

/-! ## One call -/

/-- The estimate is one for the location of the call, and for the registry version that its
destination has now. -/
structure ValidFor (tables : CommuteTables) (call : ResearchCall) (row : CommuteResult) :
    Prop where
  location : row.inputLocationHash = call.inputLocationHash
  version : ∀ destination,
    get Destination.destinationId tables.destinations call.destinationId = some destination →
      row.destinationRegistryVersion = destination.registryVersion

/-- What a call returns is valid for it. -/
def ReturnsValid (env : ResearchEnvironment) (tables : CommuteTables) : CommuteAction → Prop
  | .outside _ => True
  | .research call => ∀ next row, env.research call tables = .ok (next, row) →
      ValidFor tables call row

/-- An unexpired estimate of the target and the destination that is not valid for a call
comes after one that is. -/
def Overtaken (env : ResearchEnvironment) (tables : CommuteTables) : CommuteAction → Prop
  | .outside _ => True
  | .research call => call.target ≠ none → ∀ row ∈ tables.results, call.serves row = true →
      ¬ValidFor tables call row → ∃ other ∈ tables.results,
        call.serves other = true ∧ ValidFor tables call other ∧ env.before other row

/-- An estimate that a call writes is valid for it. -/
theorem validFor_researched {target : String × Uuid} {destination : Destination}
    {output : CommuteResearchOutput} (accepts : Accepts tables call target destination output) :
    ValidFor tables call (env.researched tables call target destination output).2 := by
  refine ⟨rfl, fun current known => ?_⟩
  cases accepts.known.symm.trans known
  rfl

/-- A call returns a valid estimate just when every invalid one that it could find is overtaken. -/
theorem returnsValid_action_iff (numbered : Numbered env tables) (action : CommuteAction) :
    ReturnsValid env tables action ↔ Overtaken env tables action := by
  cases action with
  | outside write => exact Iff.rfl
  | research call =>
      constructor
      · intro valid asked row member serves _
        obtain ⟨target, asked⟩ := Option.ne_none_iff_exists'.mp asked
        obtain ⟨cached, found⟩ : ∃ cached, env.getFreshResult call tables = some cached :=
          served_iff.mp ⟨row, member, serves⟩
        obtain ⟨present, answers⟩ := getFreshResult_serves found
        exact ⟨cached, present, answers, valid tables cached (research_cached asked found),
          Ranking.before_of_firstRow found member serves⟩
      · intro overtaken next row wrote
        rcases research_cases wrote with
          ⟨found, _⟩ | ⟨_, target, destination, output, accepts, same⟩
        · obtain ⟨target, asked, _⟩ := bind_eq_ok.mp wrote
          obtain ⟨member, serves⟩ := getFreshResult_serves found
          by_contra stale
          obtain ⟨other, present, answers, valid, ahead⟩ :=
            overtaken (by simp [require_eq_ok.mp asked]) row member serves stale
          have behind : env.before row other := Ranking.before_of_firstRow found present answers
          exact stale (before_antisymm numbered.unique present member ahead behind ▸ valid)
        · rw [(Prod.mk.inj same).2]
          exact validFor_researched accepts

/-! ## Histories -/

/-- **Validity.** In every history the calls return estimates that are valid for them just
when every stale estimate is overtaken at each call. -/
theorem returnsValid_iff (env : ResearchEnvironment) (actions : List CommuteAction) :
    Permitted env.step (ReturnsValid env) .empty actions ↔
      Permitted env.step (Overtaken env) .empty actions := by
  have kept : Preserved env.step (fun state action => True ∧ Overtaken env state action)
      (Numbered env) := fun _ action numbered _ => numbered_step action numbered
  exact permitted_congr kept (fun _ action numbered _ => returnsValid_action_iff numbered action)
    ⟨uniqueIndex_nil, fun _ member => absurd member List.not_mem_nil⟩ fun _ _ => trivial

/-- A listing is researched, moves, and is researched again a day later: the call returns
the commute from where the listing was. -/
theorem moved_returnsStale :
    ¬Permitted fourteenDays.step (ReturnsValid fourteenDays) .empty
      [.outside ⟨oneListing.listings, [], oneListing.destinations, oneListing.transit⟩,
        .research (visit 0 "a"), .research (visit (seconds 86400) "b")] := by
  intro valid
  obtain ⟨_, valid⟩ := (permitted_cons _ _ _).mp valid
  obtain ⟨_, valid⟩ := (permitted_cons _ _ _).mp valid
  obtain ⟨again, _⟩ := (permitted_cons _ _ _).mp valid
  have returned : fourteenDays.research (visit (seconds 86400) "b")
      (fourteenDays.step oneListing (.research (visit 0 "a"))) =
        .ok (fourteenDays.researched oneListing (visit 0 "a") ("listing", 1)
          ⟨2, "NYU", "NYU", "Washington Square Park", "1"⟩ halfAnHour) := by
    rfl
  exact absurd (again _ _ returned).location (by decide)

end ResearchEnvironment

end RentalAgent
