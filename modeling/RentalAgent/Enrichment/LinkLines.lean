import RentalAgent.Enrichment.Portfolio

/-! # The lines of links

A captured link carries the number of a line, from which its name is read. A docx file counts
the paragraphs as they are collected, and the text of the paragraphs is split again at every
line boundary, also at those inside a paragraph; a blank paragraph at the end is dropped with
its link. An annotation of a pdf file gets the number 0 on every page. The links stand on their
lines exactly if no boundary comes before one of them that was not counted
(`links_stay_aligned`), and then each link is paired with the name on its own line.
-/

namespace RentalAgent.Portfolio

open Lines

/-! ## Where links stand -/

/-- A link that is read before the text is searched, with the number of the paragraph or page
that it stands in and what stands before it there. -/
structure ReadLink where
  link : CapturedLink
  part : Nat
  before : List Char

/-- What stands before a child in the line of a paragraph, of which blanks at the start are
stripped. -/
def lineBefore (paragraph : Xml) (index : Nat) : List Char :=
  let indent := (paragraph.children.flatMap nodeText).takeWhile isSpace
  let before := (paragraph.children.take index).flatMap nodeText
  (paragraphLine paragraph).take (before.length - indent.length)

/-- The hyperlinks of a paragraph. -/
def paragraphLinks (targets : List (String × String)) (paragraph : Xml) (number : Nat) :
    List ReadLink :=
  paragraph.children.zipIdx.filterMap fun (child, index) =>
    (hyperlink targets number child).map fun link => ⟨link, number, lineBefore paragraph index⟩

/-- The links of the annotations of a page. -/
def pageLinks (page : PdfPage) (number : Nat) : List ReadLink :=
  page.annotations.filterMap fun mark =>
    mark.link.map fun link => ⟨link, number, (page.text.getD []).take mark.place⟩

namespace CompanyFile

/-- The paragraphs or pages whose texts newlines join. -/
def parts : CompanyFile → List (List Char)
  | .docx content => content.lines
  | .pdf pages => pages.map fun page => page.text.getD []

/-- The links that are read before the text is searched. -/
def readLinks : CompanyFile → List ReadLink
  | .docx content => content.paragraphs.zipIdx.flatMap fun (paragraph, number) =>
      paragraphLinks (externalTargets content.relationships) paragraph number
  | .pdf pages => pages.zipIdx.flatMap fun (page, number) => pageLinks page number

end CompanyFile

/-- Where a link stands: at a place of the text, in a paragraph that was dropped, or written out
in a line of the text. -/
inductive Position
  | place (offset : Nat)
  | dropped
  | written

/-- A link and where it stands. -/
structure LocatedLink where
  link : CapturedLink
  position : Position

/-- What stands before a link in the joined text of the parts. -/
def ReadLink.textBefore (parts : List (List Char)) (read : ReadLink) : List Char :=
  (parts.take read.part).flatMap (· ++ ['\n']) ++ read.before

/-- Where a link that was read stands. -/
def ReadLink.located (parts : List (List Char)) (read : ReadLink) : LocatedLink where
  link := read.link
  position :=
    if read.part < parts.length then .place (read.textBefore parts).length else .dropped

/-- The links of a company file and where they stand. -/
def locatedLinks (file : CompanyFile) : List LocatedLink :=
  file.readLinks.map (ReadLink.located file.parts) ++
    ((parseCompanyDocument file).links.drop file.readLinks.length).map (⟨·, .written⟩)

namespace LocatedLink

/-- A link carries the number of the line of the text that it stands on. -/
def OnItsLine (text : List Char) (located : LocatedLink) : Prop :=
  match located.position with
  | .place offset =>
      located.link.line = lineNumber text offset ∧ located.link.line < (splitLines text).length
  | .dropped => False
  | .written =>
      ∃ line, (splitLines text)[located.link.line]? = some line ∧ located.link.url <:+: line

/-- The line that a link stands on. -/
def ownLine (text : List Char) (located : LocatedLink) : Option (List Char) :=
  match located.position with
  | .place offset => (splitLines text)[lineNumber text offset]?
  | .dropped => none
  | .written => (splitLines text)[located.link.line]?

/-- The name on the line that a link stands on: its anchor, or the line without URLs. -/
def ownName (text : List Char) (located : LocatedLink) : Option (List Char) :=
  if looksLikeName located.link.anchor then some located.link.anchor
  else ((located.ownLine text).map withoutUrls).filter (looksLikeName ·)

/-- The entry of the line that a link stands on. -/
def ownEntry (text : List Char) (located : LocatedLink) : Option CompanyFileEntry :=
  (located.ownName text).map fun name =>
    { name := String.ofList name, url := some (String.ofList located.link.url) }

end LocatedLink

variable (unicode : UnicodeTables)

/-- The links stay aligned with their lines: each carries the number of its line, and when
every line with a link has a name and the names are distinct, the entries are those of the
lines. -/
structure LinksStayAligned (file : CompanyFile) : Prop where
  onItsLine : ∀ located ∈ locatedLinks file,
    located.OnItsLine (parseCompanyDocument file).text
  entryPerLine : ∀ entries,
    (locatedLinks file).map (LocatedLink.ownEntry (parseCompanyDocument file).text) =
      entries.map some →
    (entries.map fun entry => nameFingerprint unicode entry.name).Nodup →
    entriesDeterministic unicode (parseCompanyDocument file) = entries

/-- No boundary of a line comes before a link of a docx file but the newlines that join the
paragraphs, and none is in a blank paragraph at the end; no boundary of a line comes before an
annotation of a pdf file, and there is text. -/
def CompanyFile.CountsEveryLine (file : CompanyFile) : Prop :=
  match file with
  | .docx content => ∀ read ∈ file.readLinks, read.part < content.lines.length ∧
      (∀ line ∈ content.lines.take read.part, OneLine line) ∧ OneLine read.before
  | .pdf pages => ∀ read ∈ file.readLinks, read.part = 0 ∧ OneLine read.before ∧
      pages.map (fun page => page.text.getD []) ≠ [[]]

variable {unicode}

/-! ## URLs of the text -/

/-- What every step of a fold adds at the end, the whole fold adds at the end. -/
theorem foldl_extends {α : Type} {add : List CapturedLink → α → List CapturedLink}
    {Good : CapturedLink → Prop} {items : List α}
    (step : ∀ item ∈ items, ∀ links, ∃ more,
      add links item = links ++ more ∧ ∀ link ∈ more, Good link)
    (links : List CapturedLink) :
    ∃ more, items.foldl add links = links ++ more ∧ ∀ link ∈ more, Good link := by
  induction items generalizing links with
  | nil => exact ⟨[], (List.append_nil links).symm, by simp⟩
  | cons item items following =>
      obtain ⟨here, added, good⟩ := step item List.mem_cons_self links
      obtain ⟨later, more, others⟩ :=
        following (fun other member => step other (List.mem_cons_of_mem _ member))
          (add links item)
      refine ⟨here ++ later, by rw [List.foldl_cons, more, added, List.append_assoc], ?_⟩
      intro link member
      exact (List.mem_append.mp member).elim (good link) (others link)

/-- A URL of the text is written in the line whose number it carries. -/
theorem addPlainLinks_extends (lines : List (List Char)) (links : List CapturedLink) :
    ∃ more, addPlainLinks lines links = links ++ more ∧
      ∀ link ∈ more, ∃ line, lines[link.line]? = some line ∧ link.url <:+: line := by
  refine foldl_extends (fun (line, number) member links => foldl_extends ?_ links) links
  intro found inside links
  have present : lines[number]? = some line := List.mem_zipIdx_iff_getElem?.mp member
  rw [addPlainLink]
  split
  · exact ⟨[], (List.append_nil links).symm, by simp⟩
  · refine ⟨_, rfl, fun link added => ?_⟩
    rw [List.mem_singleton.mp added]
    exact ⟨line, present,
      (List.rdropWhile_prefix _ found).isInfix.trans (Pattern.infix_of_mem_findAll inside)⟩

/-! ## Links that are read -/

/-- The links of a paragraph are those of its hyperlinks. -/
theorem map_link_paragraphLinks (targets : List (String × String)) (paragraph : Xml)
    (number : Nat) : (paragraphLinks targets paragraph number).map ReadLink.link =
      paragraph.children.filterMap (hyperlink targets number) := by
  conv_rhs => rw [← List.zipIdx_map_fst 0 paragraph.children, List.filterMap_map]
  rw [paragraphLinks, List.map_filterMap]
  refine List.filterMap_congr fun item _ => ?_
  rw [Option.map_map]
  exact Option.map_id'

/-- The links of a page are those of its annotations. -/
theorem map_link_pageLinks (page : PdfPage) (number : Nat) :
    (pageLinks page number).map ReadLink.link =
      page.annotations.filterMap PdfAnnotation.link := by
  rw [pageLinks, List.map_filterMap]
  refine List.filterMap_congr fun mark _ => ?_
  rw [Option.map_map]
  exact Option.map_id'

/-- The links with their places are the links of the file. -/
theorem map_link_readLinks (file : CompanyFile) :
    file.readLinks.map ReadLink.link = file.read.links := by
  cases file with
  | docx content =>
      rw [CompanyFile.readLinks, List.map_flatMap]
      simp only [map_link_paragraphLinks]
      rfl
  | pdf pages =>
      rw [CompanyFile.readLinks, List.map_flatMap]
      simp only [map_link_pageLinks]
      conv_rhs =>
        rw [CompanyFile.read, parsePdf, ← List.zipIdx_map_fst 0 pages, List.flatMap_map]

theorem text_eq_joinLines (file : CompanyFile) :
    (parseCompanyDocument file).text = joinLines file.parts := by
  cases file with
  | docx content => rfl
  | pdf pages => rfl

/-- The located links are those of the parsed document. -/
theorem map_link_locatedLinks (file : CompanyFile) :
    (locatedLinks file).map LocatedLink.link = (parseCompanyDocument file).links := by
  obtain ⟨more, added, -⟩ :=
    addPlainLinks_extends (splitLines file.read.text) file.read.links
  have links : (parseCompanyDocument file).links = file.readLinks.map ReadLink.link ++ more := by
    rw [map_link_readLinks]
    exact added
  rw [locatedLinks, links, List.map_append, List.map_map, List.map_map]
  have rest : (file.readLinks.map ReadLink.link ++ more).drop file.readLinks.length = more := by
    rw [← List.length_map ReadLink.link, List.drop_left]
  rw [rest]
  congr 1
  exact List.map_id' more

/-! ## Counting lines -/

/-- What stands before a link that was read is the start of its part. -/
theorem before_starts {file : CompanyFile} {read : ReadLink} (member : read ∈ file.readLinks)
    {part : List Char} (present : file.parts[read.part]? = some part) :
    read.before <+: part := by
  cases file with
  | docx content =>
      obtain ⟨⟨paragraph, number⟩, counted, inside⟩ := List.mem_flatMap.mp member
      obtain ⟨⟨child, index⟩, -, captured⟩ := List.mem_filterMap.mp inside
      obtain ⟨link, -, rfl⟩ := Option.map_eq_some_iff.mp captured
      have kept : content.lines <+: content.paragraphs.map paragraphLine :=
        List.rdropWhile_prefix _ _
      have own : (content.paragraphs.map paragraphLine)[number]? =
          some (paragraphLine paragraph) := by
        rw [List.getElem?_map, List.mem_zipIdx_iff_getElem?.mp counted]
        rfl
      obtain ⟨within, rfl⟩ := List.getElem?_eq_some_iff.mp present
      rw [List.prefix_iff_getElem?.mp kept number within] at own
      change _ <+: content.lines[number]
      rw [Option.some.inj own]
      exact List.take_prefix _ _
  | pdf pages =>
      obtain ⟨⟨page, number⟩, counted, inside⟩ := List.mem_flatMap.mp member
      obtain ⟨mark, -, captured⟩ := List.mem_filterMap.mp inside
      obtain ⟨link, -, rfl⟩ := Option.map_eq_some_iff.mp captured
      have own : (pages.map fun page => page.text.getD [])[number]? =
          some (page.text.getD []) := by
        rw [List.getElem?_map, List.mem_zipIdx_iff_getElem?.mp counted]
        rfl
      have same : part = page.text.getD [] := Option.some.inj (present.symm.trans own)
      rw [same]
      exact List.take_prefix _ _

/-- The number of the line that a link was read on. -/
theorem lineNumber_located {file : CompanyFile} {read : ReadLink}
    (member : read ∈ file.readLinks) (within : read.part < file.parts.length) :
    lineNumber (joinLines file.parts) (read.textBefore file.parts).length =
      countBreaks (read.textBefore file.parts) := by
  have present := List.getElem?_eq_getElem within
  have starts := prefix_of_joinLines_drop present (before_starts member present)
  rw [lineNumber, ReadLink.textBefore, ← List.prefix_iff_eq_take.mp starts]

/-- A link stands on its line when its number counts the line breaks before it in the joined
text. -/
theorem onItsLine_of_read {file : CompanyFile} {read : ReadLink}
    (member : read ∈ file.readLinks) :
    (read.located file.parts).OnItsLine (joinLines file.parts) ↔
      read.part < file.parts.length ∧
        read.link.line = countBreaks (read.textBefore file.parts) ∧
        read.link.line < (splitLines (joinLines file.parts)).length := by
  by_cases within : read.part < file.parts.length
  · have placed : (read.located file.parts).position =
        .place (read.textBefore file.parts).length := if_pos within
    rw [LocatedLink.OnItsLine, placed, and_iff_right within]
    change read.link.line = lineNumber _ _ ∧ _ ↔ _
    rw [lineNumber_located member within]
    rfl
  · have lost : (read.located file.parts).position = .dropped := if_neg within
    rw [LocatedLink.OnItsLine, lost]
    exact iff_of_false id fun counted => within counted.1

/-- A line of a paragraph does not end in the middle of a boundary. -/
theorem getLast?_paragraphLine (paragraph : Xml) :
    (paragraphLine paragraph).getLast? ≠ some '\r' := by
  intro ending
  have present : paragraphLine paragraph ≠ [] := by
    intro empty
    rw [empty] at ending
    cases ending
  have last : ¬isSpace ((paragraphLine paragraph).getLast present) = true :=
    List.rdropWhile_last_not isSpace _ present
  rw [List.getLast?_eq_some_getLast present] at ending
  rw [Option.some.inj ending] at last
  exact last rfl

/-- The boundaries before a hyperlink are those that its paragraph has been counted for, unless
there are more. -/
theorem counted_docx {content : DocxContent} {read : ReadLink}
    (within : read.part < content.lines.length) :
    read.part = countBreaks (read.textBefore content.lines) ↔
      (∀ line ∈ content.lines.take read.part, OneLine line) ∧ OneLine read.before := by
  have ends : ∀ line ∈ content.lines.take read.part, line.getLast? ≠ some '\r' := by
    intro line member
    have kept := (List.rdropWhile_prefix _ _).subset (List.mem_of_mem_take member)
    obtain ⟨paragraph, -, rfl⟩ := List.mem_map.mp kept
    exact getLast?_paragraphLine paragraph
  have zero : ((content.lines.take read.part).map countBreaks).sum = 0 ↔
      ∀ line ∈ content.lines.take read.part, OneLine line := by
    rw [List.sum_eq_zero_iff_forall_eq_nat]
    simp only [List.forall_mem_map, countBreaks_eq_zero]
  rw [ReadLink.textBefore, countBreaks_lines ends, List.length_take_of_le within.le, ← zero,
    ← countBreaks_eq_zero]
  omega

/-- A counted line of a docx file is a line of its text. -/
theorem within_docx {content : DocxContent} {number : Nat}
    (within : number < content.lines.length)
    (plain : ∀ line ∈ content.lines.take number, OneLine line) :
    number < (splitLines (joinLines content.lines)).length := by
  have rest : content.lines.drop number ≠ [] := by
    rw [Ne, List.drop_eq_nil_iff]
    omega
  have filled : joinLines (content.lines.drop number) ≠ [] := by
    rw [Ne, joinLines_eq_nil]
    rintro (none | blank)
    · exact rest none
    · have present : content.lines ≠ [] := List.ne_nil_of_length_pos (by omega)
      have last := List.rdropWhile_last_not (fun line : List Char => decide (line = [])) _ present
      apply last
      have same : content.lines.getLast present = [] := by
        rw [← List.getLast_drop rest]
        simp only [blank, List.getLast_singleton]
      exact decide_eq_true same
  have more := List.length_pos_of_ne_nil (splitLines_ne_nil filled)
  have split : splitLines (joinLines content.lines) =
      content.lines.take number ++ splitLines (joinLines (content.lines.drop number)) := by
    conv_lhs => rw [← List.take_append_drop number content.lines, joinLines_append rest]
    exact splitLines_lines plain _
  rw [split, List.length_append, List.length_take_of_le within.le]
  omega

/-- Which hyperlinks of a docx file carry the number of their line. -/
theorem onItsLine_docx {content : DocxContent} {read : ReadLink}
    (member : read ∈ (CompanyFile.docx content).readLinks) (counted : read.link.line = read.part) :
    (read.located content.lines).OnItsLine (joinLines content.lines) ↔
      read.part < content.lines.length ∧
        (∀ line ∈ content.lines.take read.part, OneLine line) ∧ OneLine read.before := by
  refine (onItsLine_of_read member).trans (and_congr_right fun within => ?_)
  rw [counted]
  constructor
  · rintro ⟨same, -⟩
    exact (counted_docx within).mp same
  · intro plain
    exact ⟨(counted_docx within).mpr plain, within_docx within plain.1⟩

/-- Which annotations of a pdf file stand on its first line. -/
theorem onItsLine_pdf {pages : List PdfPage} {read : ReadLink}
    (member : read ∈ (CompanyFile.pdf pages).readLinks) (first : read.link.line = 0)
    (within : read.part < pages.length) :
    (read.located (CompanyFile.pdf pages).parts).OnItsLine
        (joinLines (CompanyFile.pdf pages).parts) ↔
      read.part = 0 ∧ OneLine read.before ∧
        pages.map (fun page => page.text.getD []) ≠ [[]] := by
  have inside : read.part < (CompanyFile.pdf pages).parts.length := by
    rwa [CompanyFile.parts, List.length_map]
  have some : (CompanyFile.pdf pages).parts ≠ [] := List.ne_nil_of_length_pos (by omega)
  have lines : 0 < (splitLines (joinLines (CompanyFile.pdf pages).parts)).length ↔
      (CompanyFile.pdf pages).parts ≠ [[]] := by
    refine List.length_pos_iff.trans ?_
    have empty : joinLines (CompanyFile.pdf pages).parts = [] ↔
        (CompanyFile.pdf pages).parts = [[]] := joinLines_eq_nil.trans (or_iff_right some)
    rw [Ne, Ne, ← empty]
    exact ⟨fun nonempty blank => nonempty (by rw [blank]; rfl), splitLines_ne_nil⟩
  have before : 0 = countBreaks (read.textBefore (CompanyFile.pdf pages).parts) ↔
      read.part = 0 ∧ OneLine read.before := by
    rw [eq_comm, countBreaks_eq_zero, ReadLink.textBefore]
    constructor
    · intro plain
      refine ⟨?_, fun c present => plain c (List.mem_append_right _ present)⟩
      by_contra later
      obtain ⟨part, parts, taken⟩ : ∃ part parts,
          (CompanyFile.pdf pages).parts.take read.part = part :: parts := by
        apply List.exists_cons_of_ne_nil
        rw [Ne, List.take_eq_nil_iff]
        exact not_or.mpr ⟨later, some⟩
      have newline := plain '\n' (by rw [taken]; simp)
      cases isLineBreak_newline.symm.trans newline
    · rintro ⟨start, plain⟩
      rwa [start]
  rw [onItsLine_of_read member, and_iff_right inside, first, before, lines, and_assoc]
  rfl

/-- A hyperlink carries the number of its paragraph. -/
theorem line_eq_part {content : DocxContent} {read : ReadLink}
    (member : read ∈ (CompanyFile.docx content).readLinks) : read.link.line = read.part := by
  obtain ⟨⟨paragraph, number⟩, -, inside⟩ := List.mem_flatMap.mp member
  obtain ⟨⟨child, index⟩, -, captured⟩ := List.mem_filterMap.mp inside
  obtain ⟨link, known, rfl⟩ := Option.map_eq_some_iff.mp captured
  rw [hyperlink] at known
  split at known
  · obtain ⟨target, -, rfl⟩ := Option.map_eq_some_iff.mp known
    rfl
  · cases known

/-- An annotation carries the number 0 on whatever page it is. -/
theorem line_eq_zero {pages : List PdfPage} {read : ReadLink}
    (member : read ∈ (CompanyFile.pdf pages).readLinks) :
    read.link.line = 0 ∧ read.part < pages.length := by
  obtain ⟨⟨page, number⟩, counted, inside⟩ := List.mem_flatMap.mp member
  obtain ⟨mark, -, captured⟩ := List.mem_filterMap.mp inside
  obtain ⟨link, known, rfl⟩ := Option.map_eq_some_iff.mp captured
  obtain ⟨uri, -, rfl⟩ := Option.map_eq_some_iff.mp known
  exact ⟨rfl, (List.getElem?_eq_some_iff.mp (List.mem_zipIdx_iff_getElem?.mp counted)).1⟩

/-- The links of a file stand on their lines exactly if every line before them was counted. -/
theorem onItsLine_iff (file : CompanyFile) :
    (∀ located ∈ locatedLinks file, located.OnItsLine (parseCompanyDocument file).text) ↔
      file.CountsEveryLine := by
  obtain ⟨more, added, good⟩ :=
    addPlainLinks_extends (splitLines file.read.text) file.read.links
  have rest : (parseCompanyDocument file).links.drop file.readLinks.length = more := by
    have links : (parseCompanyDocument file).links = file.readLinks.map ReadLink.link ++ more := by
      rw [map_link_readLinks]
      exact added
    rw [links, ← List.length_map ReadLink.link, List.drop_left]
  have written : ∀ located ∈ more.map (LocatedLink.mk · .written),
      located.OnItsLine (parseCompanyDocument file).text := by
    intro located member
    obtain ⟨link, inside, rfl⟩ := List.mem_map.mp member
    exact good link inside
  rw [locatedLinks, rest, List.forall_mem_append, and_iff_left written, List.forall_mem_map,
    text_eq_joinLines]
  cases file with
  | docx content =>
      exact forall₂_congr fun read member => onItsLine_docx member (line_eq_part member)
  | pdf pages =>
      refine forall₂_congr fun read member => ?_
      obtain ⟨first, within⟩ := line_eq_zero member
      exact onItsLine_pdf member first within

/-! ## Entries -/

/-- A link that carries the number of its line is named after its line. -/
theorem linkEntry_of_onItsLine {text : List Char} {located : LocatedLink}
    (aligned : located.OnItsLine text) {entry : CompanyFileEntry}
    (own : located.ownEntry text = some entry) :
    linkEntry unicode (splitLines text) located.link =
      some (nameFingerprint unicode entry.name, entry) := by
  obtain ⟨name, named, rfl⟩ := Option.map_eq_some_iff.mp own
  have line : located.ownLine text = (splitLines text)[located.link.line]? := by
    obtain ⟨link, position⟩ := located
    cases position with
    | place offset =>
        rw [LocatedLink.ownLine]
        change _ = (splitLines text)[link.line]?
        rw [aligned.1]
    | dropped => exact aligned.elim
    | written => rfl
  rw [linkEntry, Option.map_eq_some_iff]
  refine ⟨name, ?_, rfl⟩
  rw [LocatedLink.ownName, line] at named
  rw [nameOf]
  split at named
  · rename_i anchored
    rw [if_pos anchored]
    exact named
  · rename_i bare
    rw [if_neg bare, named]
    rfl

/-- Links on their lines make entries of their own lines. -/
theorem entries_of_onItsLine {text : List Char} {located : List LocatedLink}
    (aligned : ∀ link ∈ located, link.OnItsLine text) {entries : List CompanyFileEntry}
    (own : located.map (LocatedLink.ownEntry text) = entries.map some) :
    (located.map LocatedLink.link).filterMap (linkEntry unicode (splitLines text)) =
      entries.map fun entry => (nameFingerprint unicode entry.name, entry) := by
  induction located generalizing entries with
  | nil =>
      rw [List.map_nil, eq_comm, List.map_eq_nil_iff] at own
      rw [own]
      rfl
  | cons link located following =>
      cases entries with
      | nil => cases own
      | cons entry entries =>
          obtain ⟨first, others⟩ := List.cons.inj own
          rw [List.map_cons, List.filterMap_cons,
            linkEntry_of_onItsLine (aligned link List.mem_cons_self) first, List.map_cons,
            following (fun other member => aligned other (List.mem_cons_of_mem _ member)) others]

/-- **Links and lines.** The links of a company file stay aligned with their lines exactly if
every line before them was counted. -/
theorem links_stay_aligned (file : CompanyFile) :
    LinksStayAligned unicode file ↔ file.CountsEveryLine := by
  rw [← onItsLine_iff]
  refine ⟨LinksStayAligned.onItsLine, fun aligned => ⟨aligned, fun entries own distinct => ?_⟩⟩
  rw [entriesDeterministic, ← map_link_locatedLinks, entries_of_onItsLine aligned own,
    firstEntries, Dictionary.firsts_eq_self, List.map_map]
  · exact List.map_id' entries
  · rwa [List.map_map]

/-- The annotations of two lines of a page. -/
def twoAnnotations : CompanyFile :=
  .pdf [{
    text := some "Alpha\nBeta".toList
    annotations := [⟨some "https://a.co".toList, 0⟩, ⟨some "https://b.co".toList, 6⟩] }]

/-- Both annotations are taken to stand on the first line, so that only the first of the two
buildings is found. -/
theorem annotations_share_the_first_line :
    ¬LinksStayAligned TextTables.ascii.toUnicodeTables twoAnnotations ∧
      entriesDeterministic TextTables.ascii.toUnicodeTables (parseCompanyDocument twoAnnotations) =
        [{ name := "Alpha", url := some "https://a.co" }] := by
  refine ⟨fun aligned => ?_, by decide⟩
  have second : (⟨⟨[], "https://b.co".toList, 0⟩, .place 6⟩ : LocatedLink) ∈
      locatedLinks twoAnnotations := by
    exact List.mem_cons_of_mem _ List.mem_cons_self
  have line := (aligned.onItsLine _ second).1
  exact absurd line (by decide)

end RentalAgent.Portfolio
