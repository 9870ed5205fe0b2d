import RentalAgent.Acquisition.ParseSnippet
import RentalAgent.Enrichment.PageText
import RentalAgent.Foundation.Lines
import RentalAgent.Foundation.Upsert

/-! # Reading a company file

A company file, docx or pdf, is read into its text and its links. A link is kept with the
number of the line that it is taken to stand on. A model pairs names with links, and where it
does not, the line of a link gives the name.
-/

namespace RentalAgent

open Lines

/-! ## Text -/

/-- `text.strip(characters)`. -/
def stripChars (characters : List Char) (text : List Char) : List Char :=
  (text.dropWhile (· ∈ characters)).rdropWhile (· ∈ characters)

/-! ## XML -/

/-- An element of `ElementTree`: its tag, its attributes, its text and its children. -/
inductive Xml
  | element (tag : String) (attributes : List (String × String)) (text : List Char)
      (children : List Xml)

namespace Xml

def tag : Xml → String
  | element tag _ _ _ => tag

def text : Xml → List Char
  | element _ _ text _ => text

def children : Xml → List Xml
  | element _ _ _ children => children

/-- `element.get`. -/
def get (key : String) : Xml → Option String
  | element _ attributes _ _ => attributes.lookup key

mutual

/-- The element and all that are in it, in document order. -/
def descendants : Xml → List Xml
  | element tag attributes text children =>
      element tag attributes text children :: descendantsOfAll children

/-- The elements of a list and all that are in them. -/
def descendantsOfAll : List Xml → List Xml
  | [] => []
  | first :: rest => first.descendants ++ descendantsOfAll rest

end

/-- `element.iter(tag)`. -/
def iter (tag : String) (root : Xml) : List Xml := root.descendants.filter (·.tag = tag)

end Xml

namespace Portfolio

open Pattern Snippet

/-! ## Documents -/

/-- `_URL_RE`. -/
def urlPattern : Pattern Char :=
  inSequence [word "http", opt (word "s"), word "://",
    plus (letter fun c => !(isSpace c) && c ∉ ['<', '>', '"', Char.ofNat 39, ')', ']'])]

/-- An anchor text, which may be empty, a URL and the number of a line. -/
structure CapturedLink where
  anchor : List Char
  url : List Char
  line : Nat
  deriving DecidableEq

/-- `ParsedDocument`. -/
structure ParsedDocument where
  text : List Char
  links : List CapturedLink
  deriving DecidableEq

/-- A tag of the namespace `_W`. -/
def wordTag (name : String) : String :=
  "\x7bhttp://schemas.openxmlformats.org/wordprocessingml/2006/main\x7d" ++ name

/-- An attribute of the namespace `_R`. -/
def relationTag (name : String) : String :=
  "\x7bhttp://schemas.openxmlformats.org/officeDocument/2006/relationships\x7d" ++ name

/-- The parts of a docx file that are read: the relationships, when there are any, and the
document. -/
structure DocxContent where
  relationships : Option Xml
  document : Xml

/-- `rels`: the external targets by their ids, the last of an id first. -/
def externalTargets (relationships : Option Xml) : List (String × String) :=
  (relationships.elim [] Xml.children).reverse.filterMap fun rel =>
    match truthy (rel.get "Id"), truthy (rel.get "Target") with
    | some id, some target =>
        if rel.get "TargetMode" = some "External" then some (id, target) else none
    | _, _ => none

/-- The text nodes of an element. -/
def nodeText (node : Xml) : List Char := (node.iter (wordTag "t")).flatMap Xml.text

/-- The link of a child of a paragraph. -/
def hyperlink (targets : List (String × String)) (line : Nat) (child : Xml) :
    Option CapturedLink :=
  if child.tag = wordTag "hyperlink" then
    (truthy (targets.lookup ((child.get (relationTag "id")).getD ""))).map fun target =>
      ⟨strip (nodeText child), target.toList, line⟩
  else none

/-- The text of a paragraph. -/
def paragraphLine (paragraph : Xml) : List Char := strip (paragraph.children.flatMap nodeText)

/-- The paragraphs of a docx file. -/
def DocxContent.paragraphs (content : DocxContent) : List Xml :=
  content.document.iter (wordTag "p")

/-- The lines of a docx file, without blank ones at the end. -/
def DocxContent.lines (content : DocxContent) : List (List Char) :=
  (content.paragraphs.map paragraphLine).rdropWhile (· = [])

/-- `_parse_docx`. -/
def parseDocx (content : DocxContent) : ParsedDocument where
  text := joinLines content.lines
  links := content.paragraphs.zipIdx.flatMap fun (paragraph, line) =>
    paragraph.children.filterMap (hyperlink (externalTargets content.relationships) line)

/-- An annotation of a page: its `/URI`, unless there is none or it is broken, and how many
characters of the page's text stand before its rectangle, which is not read. -/
structure PdfAnnotation where
  uri : Option (List Char)
  place : Nat
  deriving DecidableEq

/-- A page of a pdf file: its text, unless it cannot be extracted, and its annotations. -/
structure PdfPage where
  text : Option (List Char)
  annotations : List PdfAnnotation
  deriving DecidableEq

/-- The link of an annotation. -/
def PdfAnnotation.link (mark : PdfAnnotation) : Option CapturedLink :=
  (mark.uri.filter (· ≠ [])).map fun uri => ⟨[], uri, 0⟩

/-- `_parse_pdf`. -/
def parsePdf (pages : List PdfPage) : ParsedDocument where
  text := joinLines (pages.map fun page => page.text.getD [])
  links := pages.flatMap fun page => page.annotations.filterMap PdfAnnotation.link

/-- A URL of a line as a link, unless a link has it. -/
def addPlainLink (line : Nat) (links : List CapturedLink) (found : List Char) :
    List CapturedLink :=
  let url := found.rdropWhile (· ∈ ['.', ',', ';'])
  if url ∈ links.map CapturedLink.url then links else links ++ [⟨[], url, line⟩]

/-- The URLs of the lines as links. -/
def addPlainLinks (lines : List (List Char)) (links : List CapturedLink) : List CapturedLink :=
  lines.zipIdx.foldl (fun links (line, index) =>
    (urlPattern.findAll line).foldl (addPlainLink index) links) links

/-- The part of `parse_company_document` after the file was read. -/
def withPlainLinks (doc : ParsedDocument) : ParsedDocument :=
  { doc with links := addPlainLinks (splitLines doc.text) doc.links }

/-- A company file by its suffix. -/
inductive CompanyFile
  | docx (content : DocxContent)
  | pdf (pages : List PdfPage)

/-- The file as it is read, its links without the URLs of its text. -/
def CompanyFile.read : CompanyFile → ParsedDocument
  | .docx content => parseDocx content
  | .pdf pages => parsePdf pages

/-- `parse_company_document`. -/
def parseCompanyDocument (file : CompanyFile) : ParsedDocument := withPlainLinks file.read

/-! ## Entries -/

/-- `CompanyFileEntry`. -/
structure CompanyFileEntry where
  name : String
  url : Option String := none
  address : Option String := none
  deriving DecidableEq

/-- `re.fullmatch` finds a URL. -/
def isUrl (text : List Char) : Bool := (urlPattern.lengths [] text).contains text.length

/-- `_looks_like_name`. -/
def looksLikeName (text : List Char) : Bool :=
  let cleaned := strip text
  !isUrl cleaned && 3 ≤ cleaned.length

/-- A line without its URLs. -/
def withoutUrls (line : List Char) : List Char :=
  stripChars [' ', '-', Char.ofNat 0x2013, ':', '|', '\t'] (urlPattern.sub [] line)

/-- The name that a link is given: its anchor, else what its line says, else what the nearest
line before says. -/
def nameOf (lines : List (List Char)) (link : CapturedLink) : Option (List Char) :=
  if looksLikeName link.anchor then some link.anchor
  else
    ((lines[link.line]?.map withoutUrls).filter (looksLikeName ·)).or
      (((lines.take link.line).reverse.map withoutUrls).find? (looksLikeName ·))

variable (unicode : UnicodeTables)

/-- `name_fingerprint`. -/
def nameFingerprint (raw : String) : String :=
  String.ofList (collapseSpaces false (unicode.lower (strip raw.toList)))

/-- The values of the dictionary that keeps the first entry of each key. -/
def firstEntries (keyed : List (String × CompanyFileEntry)) : List CompanyFileEntry :=
  (Dictionary.firsts keyed).map Prod.snd

/-- The entry of a link, under the fingerprint of its name. -/
def linkEntry (lines : List (List Char)) (link : CapturedLink) :
    Option (String × CompanyFileEntry) :=
  (nameOf lines link).map fun name =>
    (nameFingerprint unicode (String.ofList name),
      { name := String.ofList name, url := some (String.ofList link.url) })

/-- `entries_deterministic`. -/
def entriesDeterministic (doc : ParsedDocument) : List CompanyFileEntry :=
  firstEntries (doc.links.filterMap (linkEntry unicode (splitLines doc.text)))

/-- What the model is given. -/
structure CompanyFileTask where
  documentText : List Char
  hyperlinks : List (List Char × List Char)

/-- The output of the model: none, one that does not validate, or entries. -/
inductive CompanyFileOutput
  | missing
  | invalid
  | valid (entries : List CompanyFileEntry)
  deriving DecidableEq

/-- `LlmTaskResult`. -/
structure CompanyFileResult where
  status : ModelExecutionStatus
  output : CompanyFileOutput

/-- The model of a call. -/
abbrev CompanyFileModel := CompanyFileTask → CompanyFileResult

/-- `MAX_DOC_CHARS`. -/
def maxDocChars : Nat := 20000

/-- The task of a document. -/
def ParsedDocument.task (doc : ParsedDocument) : CompanyFileTask where
  documentText := doc.text.take maxDocChars
  hyperlinks := doc.links.map fun link => (link.anchor, link.url)

/-- `allowed_urls`. -/
def ParsedDocument.allowedUrls (doc : ParsedDocument) : List (List Char) :=
  doc.links.map CapturedLink.url ++ urlPattern.findAll doc.text

/-- An entry of the model as it is kept, under the fingerprint of its name: it has its URL only
if the document has it. -/
def keptEntry (doc : ParsedDocument) (entry : CompanyFileEntry) : String × CompanyFileEntry :=
  (nameFingerprint unicode entry.name,
    { name := String.ofList (strip entry.name.toList)
      url := entry.url.filter fun url => url.toList ∈ doc.allowedUrls
      address := entry.address })

/-- The entries that a valid output is read into. -/
def entriesOfOutput (doc : ParsedDocument) (entries : List CompanyFileEntry) :
    List CompanyFileEntry :=
  firstEntries ((entries.filter fun entry => looksLikeName entry.name.toList).map
    (keptEntry unicode doc))

/-- `entries_via_llm`. -/
def entriesViaLlm (llm : CompanyFileModel) (doc : ParsedDocument) :
    Option (List CompanyFileEntry) :=
  let result := llm doc.task
  if result.status ≠ .succeeded then none
  else
    match result.output with
    | .valid entries => some (entriesOfOutput unicode doc entries)
    | _ => none

/-- How the entries were found. -/
inductive ExtractionMethod
  | llm | deterministic
  deriving DecidableEq

/-- `extract_entries`. -/
def extractEntries (doc : ParsedDocument) (llm : Option CompanyFileModel) :
    List CompanyFileEntry × ExtractionMethod :=
  match (llm.bind (entriesViaLlm unicode · doc)).filter (· ≠ []) with
  | some entries => (entries, .llm)
  | none => (entriesDeterministic unicode doc, .deterministic)

end Portfolio

end RentalAgent
