import RentalAgent.Enrichment.CompanyPage
import RentalAgent.Foundation.Words

/-! # Guards against wrong buildings

A page that replaces a dead link must mention the street address of its building. Both guards
look for two fragments of the address anywhere in the text: the first word, and the start of
what follows it. Digits inside a longer number and the start of a longer name are fragments, and
the two need not stand together, so a page of another building is accepted. What the fragments
show depends on the places where they stand: a guard is right about a text exactly when, both
fragments of a pair being there, an address stands at one place. So it is where each place of a
first fragment is the start of an address, and where fragments that spell an address stand only
in sequence, as whole words (`guard_accepts_mentions_iff`).
-/

namespace RentalAgent

/-! ## Mentions -/

section Mentions

variable (unicode : UnicodeTables)

/-- The short form of a word, as in the fingerprints of addresses. -/
def shortForm (word : List Char) : List Char := (addressReplacements.lookup word).getD word

/-- The words of a text, without case and in their short forms. -/
def shortWords (text : List Char) : List (List Char) :=
  (((unicode.lower text).splitOnP fun c => !unicode.isWord c).filter (· ≠ [])).map shortForm

/-- The words of a street address: the house number and the name of the street. -/
def streetWords (address : List Char) : List (List Char) :=
  shortWords unicode (address.takeWhile (· ≠ ','))

/-- A text has the house number of an address as a whole word, and the whole words of the
street name directly behind it. -/
def MentionsStreet (address text : List Char) : Prop :=
  streetWords unicode address ≠ [] ∧ streetWords unicode address <:+: shortWords unicode text

instance (address text : List Char) : Decidable (MentionsStreet unicode address text) :=
  inferInstanceAs (Decidable (_ ∧ _))

/-- A place of a text where an address stands: a word is touched by no word character on either
side, it is the house number in its short form, and the words behind it begin with those of
the street. -/
structure StreetStandsAt (address before word after : List Char) : Prop where
  proper : Words.IsWord unicode.isWord word
  present : word ≠ []
  ends : Words.EndsOpen unicode.isWord before
  starts : Words.StartsOpen unicode.isWord after
  number : (streetWords unicode address).head? = some (shortForm word)
  street : (streetWords unicode address).tail <+:
    (Words.wordsOf unicode.isWord after).map shortForm

/-- A fragment of an address begins the address at a place: no word reaches into it from before
it, and the words from it on begin with those of the address. -/
structure StreetBeginsAt (address before fragment after : List Char) : Prop where
  ends : Words.EndsOpen unicode.isWord before
  some : streetWords unicode address ≠ []
  address : streetWords unicode address <+:
    (Words.wordsOf unicode.isWord (fragment ++ after)).map shortForm

/-- A pair of fragments has all words of an address, and begins with them. -/
structure FragmentsSpell (address : List Char) (pair : List Char × List Char) : Prop where
  some : streetWords unicode address ≠ []
  address : streetWords unicode address <+:
    (Words.wordsOf unicode.isWord pair.1 ++ Words.wordsOf unicode.isWord pair.2).map shortForm

/-- Two fragments stand in sequence at a place: no word reaches into the first one from before
it or out of the second one, and there are no words between them, which do not touch. -/
structure FragmentsInSequence (pair : List Char × List Char) (before after : List Char) :
    Prop where
  ends : Words.EndsOpen unicode.isWord before
  follows : ∃ gap rest, after = gap ++ (pair.2 ++ rest) ∧ gap ≠ [] ∧
    (∀ c ∈ gap, unicode.isWord c = false) ∧ Words.StartsOpen unicode.isWord rest

variable {unicode} {address text : List Char}

/-- A text mentions an address just where the address stands at a place of it. -/
theorem mentionsStreet_iff : MentionsStreet unicode address text ↔
    ∃ before word after, unicode.lower text = before ++ (word ++ after) ∧
      StreetStandsAt unicode address before word after := by
  have words : shortWords unicode text =
      (Words.wordsOf unicode.isWord (unicode.lower text)).map shortForm := rfl
  rw [MentionsStreet, words]
  cases address : streetWords unicode address with
  | nil =>
      refine iff_of_false (fun mentioned => mentioned.1 rfl) ?_
      rintro ⟨before, word, after, -, stands⟩
      have number := stands.number
      rw [address] at number
      cases number
  | cons number street =>
      rw [Words.infix_map_wordsOf_iff]
      constructor
      · rintro ⟨-, before, word, after, placed, proper, present, ends, starts, rfl, follows⟩
        exact ⟨before, word, after, placed, proper, present, ends, starts, by rw [address]; rfl,
          by rw [address]; exact follows⟩
      · rintro ⟨before, word, after, placed, stands⟩
        obtain ⟨proper, present, ends, starts, same, follows⟩ := stands
        rw [address] at same follows
        exact ⟨by simp, before, word, after, placed, proper, present, ends, starts,
          (Option.some.inj same).symm, follows⟩

/-- A fragment that begins an address makes a text mention it. -/
theorem StreetBeginsAt.mentions {before fragment after : List Char}
    (begins : StreetBeginsAt unicode address before fragment after)
    (placed : unicode.lower text = before ++ (fragment ++ after)) :
    MentionsStreet unicode address text := by
  refine ⟨begins.some, ?_⟩
  have words : shortWords unicode text =
      (Words.wordsOf unicode.isWord (unicode.lower text)).map shortForm := rfl
  rw [words, placed, Words.wordsOf_append begins.ends, List.map_append]
  exact begins.address.isInfix.trans (List.suffix_append _ _).isInfix

/-- Fragments in sequence that spell an address begin it. -/
theorem FragmentsInSequence.begins {pair : List Char × List Char} {before after : List Char}
    (sequence : FragmentsInSequence unicode pair before after)
    (spell : FragmentsSpell unicode address pair) :
    StreetBeginsAt unicode address before pair.1 after := by
  obtain ⟨gap, rest, rfl, apart, outside, starts⟩ := sequence.follows
  refine ⟨sequence.ends, spell.some, spell.address.trans ?_⟩
  rw [Words.wordsOf_append_gap apart outside, Words.wordsOf_append_of_startsOpen starts,
    ← List.append_assoc]
  exact (List.prefix_append _ _).map shortForm

end Mentions

/-! ## Guards -/

/-- A guard against wrong buildings: of a property with the addresses it is known by, or of a
listing with the first line of its address. -/
inductive BuildingGuard
  | property (prop : CompanyProperty)
  | listing (addressLine1 : List Char)

namespace CompanyProperty

variable (rules : TextRules) (prop : CompanyProperty)

/-- The street addresses that a property is known by. -/
def references : List String :=
  (if rules.looksLikeAddress prop.name then [prop.name] else []) ++ (truthy prop.addressText).toList

/-- The part of `_page_mentions_property` that goes by the address. -/
def acceptsAddress (lowered : List Char) : Bool :=
  (prop.references rules).any fun reference =>
    mentionsReference rules reference.toList lowered ||
      mentionsReference rules (rules.expandStreetSuffixes reference.toList) lowered

/-- The part of `_page_mentions_property` that goes by the name. -/
def acceptsName (lowered : List Char) : Bool :=
  let tokens := rules.nameTokens prop.name
  !rules.looksLikeAddress prop.name && tokens ≠ [] &&
    max 1 ((tokens.length + 1) / 2) ≤ tokens.countP fun token => occursIn token lowered

/-- A page is accepted by the address or by the name. -/
theorem pageMentionsProperty_eq (text : String) : prop.pageMentionsProperty rules text =
    (prop.acceptsAddress rules (rules.unicode.lower text.toList) ||
      prop.acceptsName rules (rules.unicode.lower text.toList)) := rfl

/-- The fragments of a reference that are looked for. -/
def referenceFragments (reference : List Char) : Option (List Char × List Char) :=
  match splitWords (rules.unicode.lower reference) with
  | first :: second :: _ => some (first, second.take 10)
  | _ => none

/-- A reference is taken to be mentioned when both of its fragments are parts of the text. -/
theorem mentionsReference_iff (reference lowered : List Char) :
    mentionsReference rules reference lowered = true ↔
      ∃ fragments, referenceFragments rules reference = some fragments ∧
        occursIn fragments.1 lowered = true ∧ occursIn fragments.2 lowered = true := by
  rw [mentionsReference, referenceFragments]
  generalize splitWords (rules.unicode.lower reference) = words
  rcases words with _ | ⟨first, _ | ⟨second, rest⟩⟩
  · simp
  · simp
  · simp only [Bool.and_eq_true, Option.some.injEq, exists_eq_left']

end CompanyProperty

/-- The fragments of the first line of an address that are looked for. -/
def lineFragments (unicode : UnicodeTables) (addressLine1 : List Char) :
    Option (List Char × List Char) :=
  match splitWords (unicode.lower addressLine1) with
  | [] => none
  | houseNumber :: rest => some (houseNumber, ([' '].intercalate (rest.take 2)).take 12)

/-- An address line is taken to be mentioned when both of its fragments are parts of the text. -/
theorem mentionsAddress_iff (unicode : UnicodeTables) (addressLine1 text : List Char) :
    mentionsAddress unicode addressLine1 text = true ↔
      ∃ fragments, lineFragments unicode addressLine1 = some fragments ∧
        occursIn fragments.1 (unicode.lower text) = true ∧
          occursIn fragments.2 (unicode.lower text) = true := by
  rw [mentionsAddress, lineFragments]
  generalize splitWords (unicode.lower addressLine1) = words
  cases words with
  | nil => simp
  | cons houseNumber rest =>
      simp only [Bool.and_eq_true, Option.some.injEq, exists_eq_left']

namespace BuildingGuard

variable (rules : TextRules)

/-- The guard accepts a page on the grounds of an address. -/
def accepts (text : List Char) : BuildingGuard → Bool
  | .property prop => prop.acceptsAddress rules (rules.unicode.lower text)
  | .listing addressLine1 => mentionsAddress rules.unicode addressLine1 text

/-- The addresses that the guard knows. -/
def addresses : BuildingGuard → List (List Char)
  | .property prop => (prop.references rules).map String.toList
  | .listing addressLine1 => [addressLine1]

/-- The pairs of fragments that the guard looks for. -/
def fragments : BuildingGuard → List (List Char × List Char)
  | .property prop => (prop.references rules).flatMap fun reference =>
      [reference.toList, rules.expandStreetSuffixes reference.toList].filterMap
        (CompanyProperty.referenceFragments rules)
  | .listing addressLine1 => (lineFragments rules.unicode addressLine1).toList

/-- What the guard is for: it accepts only pages that mention an address. -/
def AcceptsOnlyMentions (guard : BuildingGuard) (text : List Char) : Prop :=
  guard.accepts rules text = true →
    ∃ address ∈ guard.addresses rules, MentionsStreet rules.unicode address text

variable {rules} {guard : BuildingGuard} {text : List Char}

/-- A guard accepts a text that has both fragments of a pair. -/
theorem accepts_iff : guard.accepts rules text = true ↔
    ∃ pair ∈ guard.fragments rules, occursIn pair.1 (rules.unicode.lower text) = true ∧
      occursIn pair.2 (rules.unicode.lower text) = true := by
  cases guard with
  | property prop =>
      rw [accepts, CompanyProperty.acceptsAddress, List.any_eq_true, fragments]
      constructor
      · rintro ⟨reference, member, found⟩
        rw [Bool.or_eq_true] at found
        rcases found with written | expanded
        · obtain ⟨pair, cut, both⟩ :=
            (CompanyProperty.mentionsReference_iff rules _ _).mp written
          exact ⟨pair, List.mem_flatMap.mpr ⟨reference, member, List.mem_filterMap.mpr
            ⟨_, List.mem_cons_self, cut⟩⟩, both⟩
        · obtain ⟨pair, cut, both⟩ :=
            (CompanyProperty.mentionsReference_iff rules _ _).mp expanded
          exact ⟨pair, List.mem_flatMap.mpr ⟨reference, member, List.mem_filterMap.mpr
            ⟨_, List.mem_cons_of_mem _ List.mem_cons_self, cut⟩⟩, both⟩
      · rintro ⟨pair, member, both⟩
        obtain ⟨reference, known, inside⟩ := List.mem_flatMap.mp member
        obtain ⟨spelling, spelled, cut⟩ := List.mem_filterMap.mp inside
        have found := (CompanyProperty.mentionsReference_iff rules spelling
          (rules.unicode.lower text)).mpr ⟨pair, cut, both⟩
        refine ⟨reference, known, Bool.or_eq_true_iff.mpr ?_⟩
        rcases List.mem_cons.mp spelled with rfl | expanded
        · exact .inl found
        · rw [List.mem_singleton.mp expanded] at found
          exact .inr found
  | listing addressLine1 =>
      rw [accepts, mentionsAddress_iff, fragments]
      simp only [Option.mem_toList]

/-- A guard is right about a text when an address stands in it wherever it finds fragments. -/
theorem acceptsOnlyMentions_iff : guard.AcceptsOnlyMentions rules text ↔
    ∀ pair ∈ guard.fragments rules, pair.1 <:+: rules.unicode.lower text →
      pair.2 <:+: rules.unicode.lower text → ∃ address ∈ guard.addresses rules,
        ∃ before word after, rules.unicode.lower text = before ++ (word ++ after) ∧
          StreetStandsAt rules.unicode address before word after := by
  rw [AcceptsOnlyMentions, accepts_iff]
  simp only [occursIn_iff, mentionsStreet_iff]
  constructor
  · exact fun only pair member first second => only ⟨pair, member, first, second⟩
  · rintro stands ⟨pair, member, first, second⟩
    exact stands pair member first second

/-- A guard is right about a text in which each place of a first fragment begins an address. -/
theorem acceptsOnlyMentions_of_begins
    (begins : ∀ pair ∈ guard.fragments rules, pair.2 <:+: rules.unicode.lower text →
      ∀ before after, rules.unicode.lower text = before ++ (pair.1 ++ after) →
        ∃ address ∈ guard.addresses rules,
          StreetBeginsAt rules.unicode address before pair.1 after) :
    guard.AcceptsOnlyMentions rules text := by
  intro accepted
  obtain ⟨pair, member, first, second⟩ := accepts_iff.mp accepted
  obtain ⟨before, after, placed⟩ := occursIn_iff.mp first
  rw [List.append_assoc] at placed
  obtain ⟨address, known, start⟩ :=
    begins pair member (occursIn_iff.mp second) before after placed.symm
  exact ⟨address, known, start.mentions placed.symm⟩

/-- **Wrong buildings.** Whenever both fragments of a pair are parts of the lowered text, an
address must stand at one of its places: this is exactly when a guard accepts the text only for
a mention. It is enough that each place of the first fragment begins an address; so it is
enough that the fragments spell an address and stand only in sequence, as whole words. -/
theorem guard_accepts_mentions_iff (rules : TextRules) (guard : BuildingGuard)
    (text : List Char) :
    let lowered := rules.unicode.lower text
    (guard.AcceptsOnlyMentions rules text ↔
      ∀ pair ∈ guard.fragments rules, pair.1 <:+: lowered → pair.2 <:+: lowered →
        ∃ address ∈ guard.addresses rules, ∃ before word after,
          lowered = before ++ (word ++ after) ∧
            StreetStandsAt rules.unicode address before word after) ∧
    ((∀ pair ∈ guard.fragments rules, pair.2 <:+: lowered →
        ∀ before after, lowered = before ++ (pair.1 ++ after) →
          ∃ address ∈ guard.addresses rules,
            StreetBeginsAt rules.unicode address before pair.1 after) →
      guard.AcceptsOnlyMentions rules text) ∧
    ((∀ pair ∈ guard.fragments rules, pair.1 <:+: lowered → pair.2 <:+: lowered →
        (∃ address ∈ guard.addresses rules, FragmentsSpell rules.unicode address pair) ∧
          ∀ before after, lowered = before ++ (pair.1 ++ after) →
            FragmentsInSequence rules.unicode pair before after) →
      guard.AcceptsOnlyMentions rules text) := by
  intro lowered
  refine ⟨acceptsOnlyMentions_iff, acceptsOnlyMentions_of_begins, fun sequence => ?_⟩
  refine acceptsOnlyMentions_of_begins fun pair member second before after placed => ?_
  have first : pair.1 <:+: lowered := ⟨before, after, (List.append_assoc ..).trans placed.symm⟩
  obtain ⟨⟨address, known, spell⟩, places⟩ := sequence pair member first second
  exact ⟨address, known, (places before after placed).begins spell⟩

end BuildingGuard

/-- The rules for texts on ASCII alone, with every network location accepted. -/
def asciiRules : TextRules where
  unicode := {
    lower := List.map Char.toLower
    upper := List.map Char.toUpper
    isAlnum := Char.isAlphanum }
  isDecimal := Char.isDigit
  acceptsNetloc _ := true

/-- A building at 160 Water Street. -/
def pearlHouse : CompanyProperty where
  companyPropertyId := 1
  name := "Pearl House"
  nameFingerprint := "pearl house"
  sourceDocument := "buildings.pdf"
  addressText := some "160 Water St"
  createdAt := 0
  updatedAt := 0

/-- Both guards take the page of another building for the one at 160 Water Street. -/
theorem longer_number_is_accepted :
    pearlHouse.pageMentionsProperty asciiRules "1160 Bluewater Street" = true ∧
      ¬(BuildingGuard.property pearlHouse).AcceptsOnlyMentions asciiRules
        "1160 Bluewater Street".toList ∧
      ¬(BuildingGuard.listing "160 Water St".toList).AcceptsOnlyMentions asciiRules
        "1160 Bluewater Street".toList := by
  have byAddress : (BuildingGuard.property pearlHouse).accepts asciiRules
      "1160 Bluewater Street".toList = true := by decide +kernel
  refine ⟨?_, fun only => ?_, fun only => ?_⟩
  · rw [CompanyProperty.pageMentionsProperty_eq]
    exact Bool.or_eq_true_iff.mpr (.inl byAddress)
  · exact absurd (only byAddress) (by decide +kernel)
  · exact absurd (only (by decide +kernel)) (by decide +kernel)

end RentalAgent
