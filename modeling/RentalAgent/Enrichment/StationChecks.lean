import Mathlib.Data.List.Infix
import RentalAgent.Acquisition.ParseSnippet
import RentalAgent.Enrichment.Commute
import RentalAgent.Foundation.Letters

/-! # What a cross-check passes

The stations and routes that a model names are looked up in the transit data. A station goes
into a `LIKE` pattern as it is, so the empty text is found in every stop, and a text with `%`,
`_` or a backslash is read as a pattern. A route is looked up by its tokens of at most seven
characters, so a longer short name is never found. Without these texts the cross-check passes
what the transit data names and lists the rest (`cross_check_is_sound_iff`).
-/

namespace RentalAgent

/-! ## Named stations and routes -/

/-- The characters that mean something in a pattern of `LIKE`. -/
def likeMarks : List Char := ['%', '_', '\\']

/-- How a database lowers a text: the marks of a pattern stay, and no other character becomes
one. -/
structure KeepsMarks (unicode : UnicodeTables) : Prop where
  empty : unicode.lower [] = []
  framed : ∀ part, unicode.lower ('%' :: part ++ ['%']) = '%' :: unicode.lower part ++ ['%']
  marks : ∀ mark ∈ likeMarks, ∀ text, mark ∈ unicode.lower text → mark ∈ text

/-- The tokens of a label, of any length. -/
def labelTokens (route : String) : List (List Char) :=
  (route.toList.splitOnP fun c => !(c.isAlphanum || c = '-')).filter (· ≠ [])

namespace TransitTables

variable (unicode : UnicodeTables) (tables : TransitTables)

/-- The station occurs in the name of a stop, without case. -/
def InStopName (station : String) : Prop :=
  ∃ stop ∈ tables.stops, unicode.lower station.toList <:+: unicode.lower stop.stopName.toList

/-- The token is the short name of a route, without case. -/
def IsShortName (token : List Char) : Prop :=
  ∃ row ∈ tables.routes, ∃ name ∈ row.routeShortName,
    unicode.upper name.toList = unicode.upper token

/-- The transit data names the station. -/
def NamesStation (station : String) : Prop :=
  station ≠ "" ∧ tables.InStopName unicode station

/-- The transit data names the route. -/
def NamesRoute (route : String) : Prop :=
  ∃ token ∈ labelTokens route, tables.IsShortName unicode token

instance (station : String) : Decidable (tables.InStopName unicode station) :=
  inferInstanceAs (Decidable (∃ stop ∈ tables.stops, _))

instance (token : List Char) : Decidable (tables.IsShortName unicode token) :=
  inferInstanceAs (Decidable (∃ row ∈ tables.routes, ∃ name ∈ row.routeShortName, _))

instance (station : String) : Decidable (tables.NamesStation unicode station) :=
  inferInstanceAs (Decidable (_ ∧ _))

instance (route : String) : Decidable (tables.NamesRoute unicode route) :=
  inferInstanceAs (Decidable (∃ token ∈ labelTokens route, _))

/-- The station as a pattern matches the name of a stop. -/
def MatchesStop (station : String) : Prop :=
  ∃ stop ∈ tables.stops, ilikeWithin unicode station stop.stopName = true

/-- A token of at most seven characters is the short name of a route. -/
def FindsRoute (route : String) : Prop :=
  ∃ token ∈ labelTokens route, token.length ≤ 7 ∧ tables.IsShortName unicode token

/-- `_cross_check` as a call: a query refuses a text with the NUL character. -/
def crossCheckCall (output : CommuteResearchOutput) :
    Except ResearchError (TransitValidationStatus × ValidationReasons) :=
  if tables.stops = [] ∨ output.namedStations.all fitsText then
    .ok (tables.crossCheck unicode output)
  else .error .dataError

/-- A cross-check passes what the transit data names and lists what it does not name. -/
def SoundCheck (output : CommuteResearchOutput) :
    TransitValidationStatus × ValidationReasons → Prop
  | (.passed, _) => (∀ station ∈ output.namedStations, tables.NamesStation unicode station) ∧
      ∀ route ∈ output.likelyRoutes, tables.NamesRoute unicode route
  | (.warning, .unmatched stations routes) =>
      stations = output.namedStations.filter (fun station => ¬tables.NamesStation unicode station) ∧
        routes = output.likelyRoutes.filter fun route => ¬tables.NamesRoute unicode route
  | _ => False

end TransitTables

/-! ## Patterns -/

/-- A plain character of a pattern stands for itself. -/
theorem likeMatches_cons {c : Char} (plain : c ∉ likeMarks) (pattern text : List Char) :
    likeMatches (c :: pattern) text = true ↔
      ∃ rest, text = c :: rest ∧ likeMatches pattern rest = true := by
  simp only [likeMarks, List.mem_cons, List.not_mem_nil, or_false, not_or] at plain
  obtain ⟨notAny, notOne, notEscape⟩ := plain
  cases text with
  | nil => simp [likeMatches]
  | cons d text =>
      rw [likeMatches]
      · simp
        tauto
      all_goals simp_all

theorem likeMatches_any (pattern text : List Char) :
    likeMatches ('%' :: pattern) text = true ↔
      ∃ rest, rest <:+ text ∧ likeMatches pattern rest = true := by
  rw [likeMatches, List.any_eq_true]
  simp only [List.mem_tails]

/-- A text without marks matches what it is a beginning of. -/
theorem likeMatches_append_any {part : List Char} (plain : ∀ c ∈ part, c ∉ likeMarks)
    (text : List Char) : likeMatches (part ++ ['%']) text = true ↔ part <+: text := by
  induction part generalizing text with
  | nil =>
      rw [List.nil_append, likeMatches_any]
      exact ⟨fun _ => List.nil_prefix, fun _ => ⟨[], List.nil_suffix, rfl⟩⟩
  | cons c part ih =>
      obtain ⟨here, others⟩ := List.forall_mem_cons.mp plain
      rw [List.cons_append, likeMatches_cons here]
      constructor
      · rintro ⟨rest, rfl, matched⟩
        exact List.cons_prefix_cons.mpr ⟨rfl, (ih others rest).mp matched⟩
      · rintro ⟨after, rfl⟩
        exact ⟨part ++ after, rfl, (ih others _).mpr (List.prefix_append _ _)⟩

section Stations

variable {unicode : UnicodeTables} {tables : TransitTables}

/-- A station without marks is looked up as what it is. -/
theorem ilikeWithin_plain (keeps : KeepsMarks unicode) {station : String}
    (plain : ∀ c ∈ station.toList, c ∉ likeMarks) (name : String) :
    ilikeWithin unicode station name = true ↔
      unicode.lower station.toList <:+: unicode.lower name.toList := by
  have framed : unicode.lower ("%" ++ station ++ "%").toList =
      '%' :: (unicode.lower station.toList ++ ['%']) := by
    rw [String.toList_append, String.toList_append]
    exact keeps.framed station.toList
  have lowered : ∀ c ∈ unicode.lower station.toList, c ∉ likeMarks := fun c member mark =>
    plain c (keeps.marks c mark _ member) mark
  rw [ilikeWithin, framed, likeMatches_any]
  constructor
  · rintro ⟨rest, suffix, matched⟩
    exact ((likeMatches_append_any lowered rest).mp matched).isInfix.trans suffix.isInfix
  · intro inside
    obtain ⟨rest, start, suffix⟩ := List.infix_iff_prefix_suffix.mp inside
    exact ⟨rest, suffix, (likeMatches_append_any lowered rest).mpr start⟩

/-- A station without marks is found as a pattern where it occurs. -/
theorem matchesStop_plain (keeps : KeepsMarks unicode) {station : String}
    (plain : ∀ c ∈ station.toList, c ∉ likeMarks) :
    tables.MatchesStop unicode station ↔ tables.InStopName unicode station :=
  exists_congr fun _ => and_congr_right fun _ => ilikeWithin_plain keeps plain _

/-- The empty text is found in every stop. -/
theorem matchesStop_empty (keeps : KeepsMarks unicode) (loaded : tables.stops ≠ []) :
    tables.MatchesStop unicode "" := by
  obtain ⟨stop, stored⟩ := List.exists_mem_of_ne_nil _ loaded
  refine ⟨stop, stored, (ilikeWithin_plain keeps (by simp) _).mpr ?_⟩
  rw [String.toList_empty, keeps.empty]
  exact List.nil_infix

/-- The lookup of a station is sound unless it is empty or reads differently as a pattern. -/
theorem matchesStop_sound_iff (keeps : KeepsMarks unicode) (loaded : tables.stops ≠ [])
    (station : String) :
    (tables.MatchesStop unicode station ↔ tables.NamesStation unicode station) ↔
      station ≠ "" ∧ ((∃ mark ∈ likeMarks, mark ∈ station.toList) →
        (tables.MatchesStop unicode station ↔ tables.InStopName unicode station)) := by
  by_cases empty : station = ""
  · subst empty
    exact iff_of_false (fun sound => (sound.mp (matchesStop_empty keeps loaded)).1 rfl)
      fun both => both.1 rfl
  · have named : tables.NamesStation unicode station ↔ tables.InStopName unicode station :=
      and_iff_right empty
    rw [named]
    refine ⟨fun sound => ⟨empty, fun _ => sound⟩, fun both => ?_⟩
    by_cases marked : ∃ mark ∈ likeMarks, mark ∈ station.toList
    · exact both.2 marked
    · exact matchesStop_plain keeps fun c member mark => marked ⟨c, mark, member⟩

end Stations

/-! ## Lists of what is not found -/

section Lists

variable {unicode : UnicodeTables} {tables : TransitTables}

theorem mem_routeTokens {route : String} {upper : List Char} :
    upper ∈ routeTokens unicode route ↔
      ∃ token ∈ labelTokens route, token.length ≤ 7 ∧ unicode.upper token = upper := by
  simp only [routeTokens, labelTokens, List.mem_map, List.mem_filter, Bool.and_eq_true,
    decide_eq_true_eq, and_assoc]

instance (station : String) : Decidable (tables.MatchesStop unicode station) :=
  inferInstanceAs (Decidable (∃ stop ∈ tables.stops, _))

instance (route : String) : Decidable (tables.FindsRoute unicode route) :=
  inferInstanceAs (Decidable (∃ token ∈ labelTokens route, _))

/-- A route is found just when a row has its short name among the tokens of the route. -/
theorem findsRoute_iff (route : String) : tables.FindsRoute unicode route ↔
    (tables.routes.any fun row => row.routeShortName.any fun name =>
      unicode.upper name.toList ∈ routeTokens unicode route) = true := by
  simp only [TransitTables.FindsRoute, TransitTables.IsShortName, List.any_eq_true,
    Option.any_eq_true, decide_eq_true_eq, mem_routeTokens]
  constructor
  · rintro ⟨token, member, short, row, stored, name, named, same⟩
    exact ⟨row, stored, name, named, token, member, short, same.symm⟩
  · rintro ⟨row, stored, name, named, token, member, short, same⟩
    exact ⟨token, member, short, row, stored, name, named, same.symm⟩

/-- The lists of a cross-check are what the lookups do not find. -/
theorem crossCheck_eq (loaded : tables.stops ≠ []) (output : CommuteResearchOutput) :
    tables.crossCheck unicode output =
      let stations := output.namedStations.filter fun station =>
        ¬tables.MatchesStop unicode station
      let routes := output.likelyRoutes.filter fun route => ¬tables.FindsRoute unicode route
      if stations ≠ [] ∨ routes ≠ [] then (.warning, .unmatched stations routes)
      else (.passed, .none) := by
  have stations : (fun station => !tables.stops.any fun stop =>
      ilikeWithin unicode station stop.stopName) =
        fun station => decide ¬tables.MatchesStop unicode station := by
    funext station
    rw [decide_not, Bool.not_inj_iff, Bool.eq_iff_iff, List.any_eq_true, decide_eq_true_eq]
    rfl
  have routes : (fun route => !tables.routes.any fun row => row.routeShortName.any fun name =>
      unicode.upper name.toList ∈ routeTokens unicode route) =
        fun route => decide ¬tables.FindsRoute unicode route := by
    funext route
    rw [decide_not, Bool.not_inj_iff, Bool.eq_iff_iff, ← findsRoute_iff, decide_eq_true_eq]
  rw [TransitTables.crossCheck, if_neg loaded, stations, routes]

/-- Two filters leave the same items out just when they agree on every item. -/
theorem filter_not_eq_iff {α : Type} {first second : α → Prop} [DecidablePred first]
    [DecidablePred second] {items : List α} :
    (items.filter fun item => ¬first item) = items.filter (fun item => ¬second item) ↔
      ∀ item ∈ items, (first item ↔ second item) := by
  constructor
  · intro same item member
    have listed : item ∈ items.filter (fun item => ¬first item) ↔
        item ∈ items.filter (fun item => ¬second item) := by
      rw [same]
    simpa only [List.mem_filter, member, true_and, decide_eq_true_eq, not_iff_not] using listed
  · intro same
    exact List.filter_congr fun item member => decide_eq_decide.mpr (not_congr (same item member))

/-- The result of a cross-check is sound when each lookup finds what the transit data names. -/
theorem soundCheck_iff (loaded : tables.stops ≠ []) (output : CommuteResearchOutput) :
    tables.SoundCheck unicode output (tables.crossCheck unicode output) ↔
      (∀ station ∈ output.namedStations,
        (tables.MatchesStop unicode station ↔ tables.NamesStation unicode station)) ∧
      ∀ route ∈ output.likelyRoutes,
        (tables.FindsRoute unicode route ↔ tables.NamesRoute unicode route) := by
  rw [crossCheck_eq loaded]
  dsimp only
  split
  case isTrue => exact and_congr filter_not_eq_iff filter_not_eq_iff
  case isFalse found =>
    simp only [ne_eq, not_or, not_not, List.filter_eq_nil_iff, decide_eq_true_eq] at found
    exact and_congr
      (forall₂_congr fun station member => (iff_true_left (found.1 station member)).symm)
      (forall₂_congr fun route member => (iff_true_left (found.2 route member)).symm)

/-- The lookup of a route is sound unless only a long token is a short name. -/
theorem findsRoute_sound_iff (route : String) :
    (tables.FindsRoute unicode route ↔ tables.NamesRoute unicode route) ↔
      ((∃ token ∈ labelTokens route, 7 < token.length ∧ tables.IsShortName unicode token) →
        tables.FindsRoute unicode route) := by
  constructor
  · rintro sound ⟨token, member, -, named⟩
    exact sound.mpr ⟨token, member, named⟩
  · intro longer
    refine ⟨fun ⟨token, member, _, named⟩ => ⟨token, member, named⟩,
      fun ⟨token, member, named⟩ => ?_⟩
    rcases Nat.lt_or_ge 7 token.length with long | short
    · exact longer ⟨token, member, long, named⟩
    · exact ⟨token, member, short, named⟩

/-- **Cross-checks.** On a loaded dataset a cross-check is sound exactly when no named station
is empty or has the NUL character, each station with a mark of a pattern matches a stop as a
pattern if and only if it occurs in one, and each route with a token that is a short name has
one of at most seven characters. -/
theorem cross_check_is_sound_iff (keeps : KeepsMarks unicode) (loaded : tables.stops ≠ [])
    (output : CommuteResearchOutput) :
    (∃ result, tables.crossCheckCall unicode output = .ok result ∧
      tables.SoundCheck unicode output result) ↔
    (∀ station ∈ output.namedStations, station ≠ "" ∧ fitsText station = true ∧
      ((∃ mark ∈ likeMarks, mark ∈ station.toList) →
        (tables.MatchesStop unicode station ↔ tables.InStopName unicode station))) ∧
    ∀ route ∈ output.likelyRoutes,
      (∃ token ∈ labelTokens route, 7 < token.length ∧ tables.IsShortName unicode token) →
        tables.FindsRoute unicode route := by
  have sound : tables.SoundCheck unicode output (tables.crossCheck unicode output) ↔ _ :=
    soundCheck_iff loaded output
  rw [forall₂_congr fun station _ => matchesStop_sound_iff keeps loaded station,
    forall₂_congr fun route _ => findsRoute_sound_iff route] at sound
  by_cases fits : output.namedStations.all fitsText = true
  · have answered : tables.crossCheckCall unicode output = .ok (tables.crossCheck unicode output) :=
      if_pos (.inr fits)
    rw [answered]
    simp only [Except.ok.injEq, exists_eq_left', sound]
    rw [List.all_eq_true] at fits
    exact and_congr_left' (forall₂_congr fun station member =>
      and_congr_right' (iff_and_self.mpr fun _ => fits station member))
  · have refused : tables.crossCheckCall unicode output = .error .dataError :=
      if_neg (not_or.mpr ⟨loaded, fits⟩)
    rw [refused]
    refine iff_of_false (fun ⟨_, answered, _⟩ => by cases answered) fun both => fits ?_
    exact List.all_eq_true.mpr fun station member => (both.1 station member).2.1

end Lists

/-! ## A dataset of one stop -/

/-- Only a mark becomes a mark in lower case. -/
theorem mark_of_toLower {mark c : Char} (isMark : mark ∈ likeMarks) (lowered : c.toLower = mark) :
    c = mark := by
  have marksBelow : (likeMarks.all fun mark => mark.toNat < 97) = true := by decide
  have below := of_decide_eq_true (List.all_eq_true.mp marksBelow mark isMark)
  cases upper : c.isUpper with
  | true =>
      have range := Letters.isUpper_iff.mp upper
      rw [← lowered, Letters.toNat_toLower upper] at below
      omega
  | false => exact (Letters.toLower_of_not_isUpper upper).symm.trans lowered

/-- Lower case letter by letter keeps the marks. -/
theorem ascii_keepsMarks : KeepsMarks TextTables.ascii.toUnicodeTables where
  empty := rfl
  framed part := by
    change List.map Char.toLower _ = '%' :: List.map Char.toLower part ++ ['%']
    rw [List.map_append, List.map_cons]
    rfl
  marks mark isMark text member := by
    obtain ⟨c, inText, lowered⟩ := List.mem_map.mp member
    exact mark_of_toLower isMark lowered ▸ inText

/-- The transit data of one station and one line. -/
def groveStreet : TransitTables where
  drawn := 2
  stops := [{
    transitStopId := 1, providerSourceId := 9, providerStopId := "26728", operatorCode := "PATH"
    stopName := "Grove Street", mode := .path, locationPoint := ⟨-74, 40⟩
    activeStatus := .active, datasetVersion := "v1" }]
  routes := [{
    transitRouteId := 2, providerSourceId := 9, providerRouteId := "862", operatorCode := "PATH"
    routeShortName := some "JSQ-33", routeLongName := none, mode := .path
    datasetVersion := "v1" }]

/-- Research that names a station and a route of the data, in other words. -/
def groveResearch : CommuteResearchOutput where
  durationMinS := 1200
  durationMaxS := 1500
  likelyRoutes := ["PATH jsq-33"]
  namedStations := ["grove street"]
  sources := [⟨"https://example.org", none, none⟩]

/-- Each station that the research of Grove Street names is matched as plain text. -/
theorem unmarked_grove : ∀ station ∈ groveResearch.namedStations,
    station ≠ "" ∧ fitsText station = true ∧
      ((∃ mark ∈ likeMarks, mark ∈ station.toList) →
        (groveStreet.MatchesStop TextTables.ascii.toUnicodeTables station ↔
          groveStreet.InStopName TextTables.ascii.toUnicodeTables station)) := by
  intro station member
  obtain rfl := List.mem_singleton.mp member
  have plain : (likeMarks.all fun mark => !"grove street".toList.contains mark) = true := by
    decide +kernel
  refine ⟨by decide, by decide +kernel, fun ⟨mark, isMark, inside⟩ => ?_⟩
  have absent := List.all_eq_true.mp plain mark isMark
  rw [List.contains_iff_mem.mpr inside] at absent
  cases absent

/-- A station and a route in other words are passed, and rightly so. -/
theorem station_in_other_words : ∃ result,
    groveStreet.crossCheckCall TextTables.ascii.toUnicodeTables groveResearch = .ok result ∧
      groveStreet.SoundCheck TextTables.ascii.toUnicodeTables groveResearch result :=
  (cross_check_is_sound_iff ascii_keepsMarks (by decide) groveResearch).mpr
    ⟨unmarked_grove, by decide +kernel⟩

/-- A model that names the empty text passes the cross-check. -/
theorem empty_station_passes :
    groveStreet.crossCheckCall TextTables.ascii.toUnicodeTables
        { groveResearch with namedStations := [""] } = .ok (.passed, .none) ∧
      ¬∃ result,
        groveStreet.crossCheckCall TextTables.ascii.toUnicodeTables
            { groveResearch with namedStations := [""] } = .ok result ∧
          groveStreet.SoundCheck TextTables.ascii.toUnicodeTables
            { groveResearch with namedStations := [""] } result := by
  have passed : groveStreet.crossCheckCall TextTables.ascii.toUnicodeTables
      { groveResearch with namedStations := [""] } = .ok (.passed, .none) := by decide +kernel
  refine ⟨passed, fun ⟨result, answered, sound⟩ => ?_⟩
  cases passed.symm.trans answered
  exact (sound.1 "" (List.mem_singleton.mpr rfl)).1 rfl

end RentalAgent
