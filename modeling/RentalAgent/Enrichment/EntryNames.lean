import RentalAgent.Enrichment.FileEntries

/-! # Where the names of entries come from

Every name of a company file is to come from the document verbatim. A name that the model gives
is never looked up in the document, and a line that gives a name is read without its URLs, so
that what stands before a URL and what stands after it are joined into a name that nobody wrote.
The names come from the document exactly if the names of the model do, or, where the model is
not used, if no line with a URL between its words gives a name that is not written elsewhere
(`entries_come_from_the_document`).
-/

namespace RentalAgent.Portfolio

open Lines Pattern

/-! ## The contract -/

/-- A name is written in the document text or captured as the text of an anchor. -/
def ParsedDocument.Writes (doc : ParsedDocument) (name : List Char) : Prop :=
  name <:+: doc.text ∨ name ∈ doc.links.map CapturedLink.anchor

instance (doc : ParsedDocument) (name : List Char) : Decidable (doc.Writes name) :=
  inferInstanceAs (Decidable (_ ∨ _))

variable (unicode : UnicodeTables)

/-- Entries that come from a document: names and URLs are found in it, and no two entries have
one fingerprint. -/
structure ComeFrom (doc : ParsedDocument) (entries : List CompanyFileEntry) : Prop where
  named : ∀ entry ∈ entries, doc.Writes entry.name.toList
  linked : ∀ entry ∈ entries, ∀ url, entry.url = some url → url.toList ∈ doc.allowedUrls
  distinct : (entries.map fun entry => nameFingerprint unicode entry.name).Nodup

/-! ## What is read -/

/-- What a URL or a separator at an end of a line is dropped with. -/
def isOuter : Piece Char → Bool
  | .kept c => c ∈ [' ', '-', Char.ofNat 0x2013, ':', '|', '\t']
  | .found _ => true

/-- A piece that is not a URL. -/
def isKept : Piece Char → Bool
  | .kept _ => true
  | .found _ => false

/-- The URLs of a line stand at its ends, with separators around them at most. -/
def urlsAtEnds (line : List Char) : Bool :=
  (((urlPattern.pieces line).dropWhile isOuter).rdropWhile isOuter).all isKept

/-- The line that a link without an anchor is named after. -/
def sourceLine (lines : List (List Char)) (link : CapturedLink) : Option (List Char) :=
  if looksLikeName link.anchor then none
  else
    (lines[link.line]?.filter (looksLikeName <| withoutUrls ·)).or
      ((lines.take link.line).reverse.find? (looksLikeName <| withoutUrls ·))

/-- The links that have a name, with their names, under the fingerprints. -/
def namedLinks (doc : ParsedDocument) : List (String × CapturedLink × List Char) :=
  doc.links.filterMap fun link =>
    (nameOf (splitLines doc.text) link).map fun name =>
      (nameFingerprint unicode (String.ofList name), link, name)

/-- The entries of the model whose names look like names, when its output is valid. -/
def namedEntries (llm : Option CompanyFileModel) (doc : ParsedDocument) :
    List CompanyFileEntry :=
  match llm with
  | none => []
  | some model =>
      match (model doc.task).status, (model doc.task).output with
      | .succeeded, .valid entries => entries.filter fun entry => looksLikeName entry.name.toList
      | _, _ => []

/-- The model names what the document names; where it names nothing, no line is shortened to a
name in its middle, unless the shorter line is written elsewhere. Entries and links count that
are the first with their fingerprint. -/
def ReadsNames (doc : ParsedDocument) (llm : Option CompanyFileModel) : Prop :=
  if namedEntries llm doc = [] then
    ∀ item ∈ Dictionary.firsts (namedLinks unicode doc), ∀ line,
      sourceLine (splitLines doc.text) item.2.1 = some line →
      urlsAtEnds line = true ∨ doc.Writes (withoutUrls line)
  else
    ∀ item ∈ Dictionary.firsts ((namedEntries llm doc).map fun entry =>
        (nameFingerprint unicode entry.name, entry)),
      doc.Writes (strip item.2.name.toList)

variable {unicode}

/-! ## Lines without URLs -/

/-- What stripping leaves of a text between separators is a part of the text. -/
theorem infix_of_stripChars {separators front middle back : List Char}
    (starts : ∀ c ∈ front, c ∈ separators) (ends : ∀ c ∈ back, c ∈ separators) :
    stripChars separators (front ++ middle ++ back) <:+: middle := by
  have trailing : back.reverse.dropWhile (· ∈ separators) = [] :=
    List.dropWhile_eq_nil_iff.mpr fun c member =>
      decide_eq_true (ends c (List.mem_reverse.mp member))
  rw [stripChars, List.append_assoc,
    List.dropWhile_append_of_pos fun c member => decide_eq_true (starts c member),
    List.dropWhile_append]
  split
  · have nothing : back.dropWhile (· ∈ separators) = [] :=
      List.dropWhile_eq_nil_iff.mpr fun c member => decide_eq_true (ends c member)
    rw [nothing]
    exact List.nil_infix
  · have cut : (middle.dropWhile (· ∈ separators) ++ back).rdropWhile (· ∈ separators) =
        (middle.dropWhile (· ∈ separators)).rdropWhile (· ∈ separators) := by
      rw [List.rdropWhile, List.reverse_append, List.dropWhile_append_of_pos fun c member =>
        decide_eq_true (ends c (List.mem_reverse.mp member))]
      rfl
    rw [cut]
    exact (List.rdropWhile_prefix _ _).isInfix.trans (List.dropWhile_suffix _).isInfix

/-- What is written of the outer pieces of a line are separators. -/
theorem separators_of_outer {outer : List (Piece Char)}
    (all : ∀ piece ∈ outer, isOuter piece = true) :
    ∀ c ∈ outer.flatMap (Piece.replaced []),
      c ∈ [' ', '-', Char.ofNat 0x2013, ':', '|', '\t'] := by
  intro c member
  obtain ⟨piece, inside, written⟩ := List.mem_flatMap.mp member
  cases piece with
  | kept d =>
      rw [List.mem_singleton.mp written]
      exact of_decide_eq_true (all _ inside)
  | found word => cases written

/-- Pieces without a URL are written as they were read. -/
theorem flatMap_replaced_kept {pieces : List (Piece Char)}
    (bare : ∀ word, Piece.found word ∉ pieces) :
    pieces.flatMap (Piece.replaced []) = pieces.flatMap Piece.source := by
  refine List.flatMap_congr fun piece member => ?_
  cases piece with
  | kept c => rfl
  | found word => exact absurd member (bare word)

/-- A line is its outer pieces at the front, the pieces between and the outer pieces at the
back. -/
theorem outer_pieces_split (pieces : List (Piece Char)) :
    pieces.takeWhile isOuter ++ (pieces.dropWhile isOuter).rdropWhile isOuter ++
      (pieces.dropWhile isOuter).rtakeWhile isOuter = pieces := by
  rw [List.append_assoc, List.rdropWhile_append_rtakeWhile, List.takeWhile_append_dropWhile]

/-- A line with its URLs at its ends is shortened to a part of it. -/
theorem infix_of_withoutUrls {line : List Char} (outside : urlsAtEnds line = true) :
    withoutUrls line <:+: line := by
  have parts := outer_pieces_split (urlPattern.pieces line)
  have bare : ∀ word, Piece.found word ∉
      ((urlPattern.pieces line).dropWhile isOuter).rdropWhile isOuter :=
    fun word member => Bool.false_ne_true (List.all_eq_true.mp outside _ member)
  have shortened : withoutUrls line <:+:
      (((urlPattern.pieces line).dropWhile isOuter).rdropWhile isOuter).flatMap
        (Piece.replaced []) := by
    rw [withoutUrls, sub, ← parts, List.flatMap_append, List.flatMap_append, parts]
    exact infix_of_stripChars (separators_of_outer fun _ => List.mem_takeWhile_imp)
      (separators_of_outer fun _ => List.mem_rtakeWhile_imp)
  rw [flatMap_replaced_kept bare] at shortened
  refine shortened.trans ?_
  have whole : (urlPattern.pieces line).flatMap Piece.source = line := flatMap_source_pieces line
  rw [← parts, List.flatMap_append, List.flatMap_append] at whole
  conv_rhs => rw [← whole]
  exact List.infix_append _ _ _

/-! ## Names of links -/

/-- A link is named after its anchor or after a line of the text. -/
theorem nameOf_eq_some {lines : List (List Char)} {link : CapturedLink} {name : List Char}
    (named : nameOf lines link = some name) :
    (name = link.anchor ∧ sourceLine lines link = none) ∨
      ∃ line ∈ lines, name = withoutUrls line ∧ sourceLine lines link = some line := by
  rw [nameOf] at named
  rw [sourceLine]
  split at named
  · rename_i anchored
    rw [if_pos anchored]
    exact .inl ⟨(Option.some.inj named).symm, rfl⟩
  · rename_i bare
    rw [if_neg bare]
    right
    rw [Option.or_eq_some_iff] at named
    rcases named with own | ⟨nameless, earlier⟩
    · obtain ⟨found, looks⟩ := Option.filter_eq_some_iff.mp own
      obtain ⟨line, present, rfl⟩ := Option.map_eq_some_iff.mp found
      refine ⟨line, List.mem_of_getElem? present, rfl, ?_⟩
      exact Option.or_eq_some_iff.mpr (.inl (Option.filter_eq_some_iff.mpr ⟨present, looks⟩))
    · rw [List.find?_map] at earlier
      obtain ⟨line, found, rfl⟩ := Option.map_eq_some_iff.mp earlier
      have member := List.mem_of_mem_take (List.mem_reverse.mp (List.mem_of_find?_eq_some found))
      rw [Option.filter_map, Option.map_eq_none_iff, Function.comp_def] at nameless
      rw [Function.comp_def] at found
      refine ⟨line, member, rfl, ?_⟩
      rw [Option.or_eq_some_iff]
      exact .inr ⟨nameless, found⟩

/-- The entries without a model are those of the links that are named first. -/
theorem entriesDeterministic_eq (doc : ParsedDocument) :
    entriesDeterministic unicode doc =
      (Dictionary.firsts (namedLinks unicode doc)).map fun item =>
        { name := String.ofList item.2.2, url := some (String.ofList item.2.1.url) } := by
  have keyed : doc.links.filterMap (linkEntry unicode (splitLines doc.text)) =
      (namedLinks unicode doc).map fun item => (item.1, ({
        name := String.ofList item.2.2
        url := some (String.ofList item.2.1.url) } : CompanyFileEntry)) := by
    rw [namedLinks, List.map_filterMap]
    refine List.filterMap_congr fun link _ => ?_
    rw [linkEntry, Option.map_map]
    rfl
  rw [entriesDeterministic, keyed, firstEntries,
    Dictionary.firsts_map fun item : CapturedLink × List Char => ({
      name := String.ofList item.2
      url := some (String.ofList item.1.url) } : CompanyFileEntry), List.map_map]
  rfl

/-- The entries with a model are those of its output that are named first, stripped. -/
theorem entriesOfOutput_eq (doc : ParsedDocument) (entries : List CompanyFileEntry) :
    entriesOfOutput unicode doc entries =
      (Dictionary.firsts ((entries.filter fun entry => looksLikeName entry.name.toList).map
        fun entry => (nameFingerprint unicode entry.name, entry))).map fun item =>
          (keptEntry unicode doc item.2).2 := by
  have keyed (named : List CompanyFileEntry) : named.map (keptEntry unicode doc) =
      (named.map fun entry => (nameFingerprint unicode entry.name, entry)).map fun item =>
        (item.1, (keptEntry unicode doc item.2).2) := by
    rw [List.map_map]
    rfl
  rw [entriesOfOutput, keyed, firstEntries, Dictionary.firsts_map fun entry =>
    (keptEntry unicode doc entry).2, List.map_map]
  rfl

/-- The model is used when it names something. -/
theorem extractEntries_eq (doc : ParsedDocument) (llm : Option CompanyFileModel) :
    (extractEntries unicode doc llm).1 =
      if namedEntries llm doc = [] then entriesDeterministic unicode doc
      else (Dictionary.firsts ((namedEntries llm doc).map fun entry =>
        (nameFingerprint unicode entry.name, entry))).map fun item =>
          (keptEntry unicode doc item.2).2 := by
  rw [extractEntries]
  cases llm with
  | none => rfl
  | some model =>
      rw [Option.bind_some, entriesViaLlm]
      rw [namedEntries]
      generalize model doc.task = result
      obtain ⟨status, output⟩ := result
      cases status with
      | succeeded =>
          cases output with
          | missing => rfl
          | invalid => rfl
          | valid entries =>
              simp only [ne_eq, not_true_eq_false, if_false]
              have none : entriesOfOutput unicode doc entries = [] ↔
                  entries.filter (fun entry => looksLikeName entry.name.toList) = [] := by
                rw [entriesOfOutput_eq, List.map_eq_nil_iff, Dictionary.firsts_eq_nil,
                  List.map_eq_nil_iff]
              by_cases named : entries.filter (fun entry => looksLikeName entry.name.toList) = []
              · rw [if_pos named, none.mpr named]
                rfl
              · have used := decide_eq_true (mt none.mp named)
                rw [if_neg named, Option.filter_some, if_pos used]
                exact entriesOfOutput_eq doc entries
      | _ => rfl

/-! ## The result -/

/-- The URLs of entries are those of the document. -/
theorem linked_extractEntries (doc : ParsedDocument) (llm : Option CompanyFileModel) :
    ∀ entry ∈ (extractEntries unicode doc llm).1, ∀ url, entry.url = some url →
      url.toList ∈ doc.allowedUrls := by
  intro entry member url linked
  rw [extractEntries_eq] at member
  split at member
  · rw [entriesDeterministic_eq] at member
    obtain ⟨item, kept, rfl⟩ := List.mem_map.mp member
    obtain ⟨before, after, split, -⟩ := Dictionary.mem_firsts.mp kept
    have inside : item ∈ namedLinks unicode doc := by simp [split]
    obtain ⟨link, captured, found⟩ := List.mem_filterMap.mp inside
    obtain ⟨name, -, rfl⟩ := Option.map_eq_some_iff.mp found
    rw [← Option.some.inj linked, String.toList_ofList]
    exact List.mem_append_left _ (List.mem_map_of_mem captured)
  · obtain ⟨item, -, rfl⟩ := List.mem_map.mp member
    exact of_decide_eq_true (Option.filter_eq_some_iff.mp linked).2

/-- A link that is named after its anchor, or after a line with its URLs at its ends, has a name
of the document. -/
theorem writes_nameOf {doc : ParsedDocument} {link : CapturedLink} {name : List Char}
    (captured : link ∈ doc.links) (named : nameOf (splitLines doc.text) link = some name) :
    doc.Writes name ↔ ∀ line, sourceLine (splitLines doc.text) link = some line →
      urlsAtEnds line = true ∨ doc.Writes (withoutUrls line) := by
  rcases nameOf_eq_some named with ⟨rfl, anchored⟩ | ⟨line, member, rfl, source⟩
  · refine iff_of_true (.inr (List.mem_map_of_mem captured)) fun line source => ?_
    cases anchored.symm.trans source
  · rw [source]
    constructor
    · intro written other same
      rw [← Option.some.inj same]
      exact .inr written
    · intro kept
      rcases kept line rfl with outside | written
      · exact .inl ((infix_of_withoutUrls outside).trans (infix_of_mem_splitLines member))
      · exact written

/-- **Names from the document.** The entries of a file come from the document exactly if its
names are read and not made up. -/
theorem entries_come_from_the_document (doc : ParsedDocument) (llm : Option CompanyFileModel) :
    ComeFrom unicode doc (extractEntries unicode doc llm).1 ↔ ReadsNames unicode doc llm := by
  have names : ComeFrom unicode doc (extractEntries unicode doc llm).1 ↔
      ∀ entry ∈ (extractEntries unicode doc llm).1, doc.Writes entry.name.toList :=
    ⟨ComeFrom.named, fun named =>
      ⟨named, linked_extractEntries doc llm, extractEntries_nodup doc llm⟩⟩
  rw [names, extractEntries_eq, ReadsNames]
  split
  · rw [entriesDeterministic_eq, List.forall_mem_map]
    refine forall₂_congr fun item kept => ?_
    obtain ⟨before, after, split, -⟩ := Dictionary.mem_firsts.mp kept
    have inside : item ∈ namedLinks unicode doc := by simp [split]
    obtain ⟨link, captured, found⟩ := List.mem_filterMap.mp inside
    obtain ⟨name, named, rfl⟩ := Option.map_eq_some_iff.mp found
    rw [String.toList_ofList]
    exact writes_nameOf captured named
  · rw [List.forall_mem_map]
    refine forall₂_congr fun item _ => ?_
    rw [keptEntry, String.toList_ofList]

/-- A document whose only line has a URL between two words. -/
def urlBetweenWords : ParsedDocument :=
  parseCompanyDocument (.pdf [{
    text := some "Alpha https://a.co Tower".toList
    annotations := [] }])

/-- The words around a URL are joined into a name that is not written, and the model's name is
taken as it is. -/
theorem names_are_made_up :
    ¬ComeFrom TextTables.ascii.toUnicodeTables urlBetweenWords
        (extractEntries TextTables.ascii.toUnicodeTables urlBetweenWords none).1 ∧
      ¬ComeFrom TextTables.ascii.toUnicodeTables urlBetweenWords
        (extractEntries TextTables.ascii.toUnicodeTables urlBetweenWords
          (some fun _ => ⟨.succeeded, .valid [{ name := "Omega House" }]⟩)).1 := by
  constructor
  · intro come
    have written := come.named { name := "Alpha  Tower", url := some "https://a.co" } (by decide)
    exact absurd written (by decide)
  · intro come
    have written := come.named { name := "Omega House" } (by decide)
    exact absurd written (by decide)

end RentalAgent.Portfolio
