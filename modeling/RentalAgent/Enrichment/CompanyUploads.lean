import RentalAgent.Enrichment.CompanyCheck
import RentalAgent.Enrichment.FileEntries

/-! # Uploads of company files

An upload of a company file merges the entries that are read out of it into the company
properties, while the refresh job checks the properties. A check reads a row, asks the web for
minutes and then writes the columns that it changed, so uploads fall between the two.
-/

namespace RentalAgent

open Relational Portfolio Dialogue

/-! ## The upload -/

/-- `Path(path).name`. -/
def pathName (path : String) : List Char :=
  ((path.toList.splitOn '/').filter fun part => part ≠ [] && part ≠ ['.']).getLast?.getD []

/-- `Path(path).suffix`. -/
def pathSuffix (path : String) : List Char :=
  let name := pathName path
  let extension := name.rtakeWhile (· ≠ '.')
  if extension ≠ [] ∧ extension.length + 1 < name.length then '.' :: extension else []

/-- An uploaded file: its name, what the two readers make of its content unless they fail, and
the model, when a key is configured. -/
structure Upload where
  fileName : String
  asDocx : Option DocxContent
  asPdf : Option (List PdfPage)
  llm : Option CompanyFileModel
  committedAt : Timestamp

/-- `safe_name`. -/
def Upload.safeName (upload : Upload) : String := String.ofList (pathName upload.fileName)

variable (ids : IdSupply) (unicode : UnicodeTables)

/-- `parse_company_document`, for the files that an upload accepts. -/
def Upload.document (upload : Upload) : Option ParsedDocument :=
  let suffix := unicode.lower (pathSuffix upload.fileName)
  if suffix = ".docx".toList then
    upload.asDocx.map fun content => withPlainLinks (parseDocx content)
  else if suffix = ".pdf".toList then
    upload.asPdf.map fun pages => withPlainLinks (parsePdf pages)
  else none

/-- The entries of an upload. -/
def Upload.entries (upload : Upload) : List CompanyFileEntry :=
  (upload.document unicode).elim [] fun doc => (extractEntries unicode doc upload.llm).1

/-- What an upload makes of an entry: a row for a new property. -/
def newProperty (safeName : String) (committedAt : Timestamp) (drawn : Nat)
    (entry : CompanyFileEntry) : CompanyProperty where
  companyPropertyId := ids.uuid drawn
  name := entry.name
  nameFingerprint := Portfolio.nameFingerprint unicode entry.name
  sourceDocument := safeName
  originalUrl := entry.url
  addressText := entry.address
  createdAt := committedAt
  updatedAt := committedAt

/-- A row with another link: it is checked from this link on. -/
def relinked (url : String) (row : CompanyProperty) : CompanyProperty :=
  { row with
    originalUrl := some url
    resolvedUrl := none
    resolvedUrlKind := none
    linkStatus := .unchecked
    checkStatus := .pending }

/-- The link of an entry, if it is another one than the row has. -/
def changedLink (entry : CompanyFileEntry) (row : CompanyProperty) : Option String :=
  (truthy entry.url).filter fun url => some url ≠ row.originalUrl

/-- The columns of a row that an entry changes. -/
def assignEntry (safeName : String) (entry : CompanyFileEntry) (row : CompanyProperty) :
    CompanyProperty :=
  let row := { row with sourceDocument := safeName }
  let row := (changedLink entry row).elim row fun url => relinked url row
  if (truthy entry.address).isSome ∧ truthy row.addressText = none then
    { row with addressText := entry.address }
  else row

/-- A row after an entry of its name. -/
def updatedProperty (safeName : String) (committedAt : Timestamp) (entry : CompanyFileEntry)
    (row : CompanyProperty) : CompanyProperty :=
  CompanyEnvironment.commitRow committedAt row (assignEntry safeName entry row)

/-! ## The portfolio -/

/-- The company properties, how many identifiers were drawn for them, and the rows that checks
have read and not yet written. -/
structure CompanyPortfolio where
  rows : List CompanyProperty := []
  drawn : Nat := 0
  checked : List CompanyProperty := []

/-- One round of the loop over the entries. -/
def mergeEntry (safeName : String) (committedAt : Timestamp)
    (table : Table CompanyProperty) (entry : CompanyFileEntry) :
    Except ServiceError (Table CompanyProperty) := do
  let fingerprint := Portfolio.nameFingerprint unicode entry.name
  match ← scalarOneOrNone .multipleResultsFound
      (table.rows.filter fun row => row.nameFingerprint = fingerprint) with
  | none =>
      return ⟨table.rows ++ [newProperty ids unicode safeName committedAt table.drawn entry],
        table.drawn + 1⟩
  | some existing =>
      return { table with
        rows := updateWhere (fun row => row.companyPropertyId = existing.companyPropertyId)
          (updatedProperty safeName committedAt entry) table.rows }

/-- The transaction of an upload: it is rolled back when a query raises. -/
def CompanyPortfolio.upload (upload : Upload) (portfolio : CompanyPortfolio) : CompanyPortfolio :=
  match (upload.entries unicode).foldlM (mergeEntry ids unicode upload.safeName upload.committedAt)
      ⟨portfolio.rows, portfolio.drawn⟩ with
  | .ok table => { portfolio with rows := table.rows, drawn := table.drawn }
  | .error _ => portfolio

/-- The columns that a check changed of the row that it read, on the row as it is now. -/
def assignChecked (read changed row : CompanyProperty) : CompanyProperty :=
  let pick {Value : Type} [DecidableEq Value] (column : CompanyProperty → Value) : Value :=
    if column changed = column read then column row else column changed
  { row with
    resolvedUrl := pick CompanyProperty.resolvedUrl
    resolvedUrlKind := pick CompanyProperty.resolvedUrlKind
    linkStatus := pick CompanyProperty.linkStatus
    addressText := pick CompanyProperty.addressText
    locality := pick CompanyProperty.locality
    latitude := pick CompanyProperty.latitude
    longitude := pick CompanyProperty.longitude
    matchedBuildingId := pick CompanyProperty.matchedBuildingId
    availability := pick CompanyProperty.availability
    checkLog := pick CompanyProperty.checkLog
    checkStatus := pick CompanyProperty.checkStatus
    checkError := pick CompanyProperty.checkError
    lastCheckedAt := pick CompanyProperty.lastCheckedAt }

/-- The row as it is stored. -/
def checkedProperty (committedAt : Timestamp) (read changed row : CompanyProperty) :
    CompanyProperty :=
  { assignChecked read changed row with updatedAt := committedAt }

/-- A step of the portfolio. -/
inductive PortfolioAction
  | upload (upload : Upload)
  /-- A check reads a row. -/
  | read (companyPropertyId : Uuid)
  /-- A check that read a row ends, with the answers of the web. -/
  | check (position : Nat) (env : CompanyEnvironment) (now committedAt : Timestamp)
      (discardStale : Bool) (respond : List TavilyExchange → TavilyRequest → TavilyAnswer)

/-- The rows after the check of a row that was read, which ended so. -/
def writeCheck (committedAt : Timestamp) (read : CompanyProperty)
    (ending : Except ServiceError (CheckResult × CompanyProperty)) (rows : List CompanyProperty) :
    List CompanyProperty :=
  match ending with
  | .error _ => rows
  | .ok (_, changed) =>
      if changed = read then rows
      else updateWhere (fun row => row.companyPropertyId = read.companyPropertyId)
        (checkedProperty committedAt read changed) rows

/-- The step function. -/
def CompanyPortfolio.step (portfolio : CompanyPortfolio) : PortfolioAction → CompanyPortfolio
  | .upload upload => portfolio.upload ids unicode upload
  | .read id =>
      { portfolio with
        checked := portfolio.checked ++ (get (·.companyPropertyId) portfolio.rows id).toList }
  | .check position env now committedAt discardStale respond =>
      match portfolio.checked[position]? with
      | none => portfolio
      | some read =>
          { portfolio with
            rows := writeCheck committedAt read
              ((env.check now discardStale read).converse respond []).2 portfolio.rows
            checked := portfolio.checked.eraseIdx position }

end RentalAgent
