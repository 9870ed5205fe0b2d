import RentalAgent.Enrichment.CompanyUploads

/-! # Uploads merge into the portfolio

The entries of an upload have distinct fingerprints, so each of them meets one row at most and
the upload is a merge of keyed rows (`upload_rows`). An entry with another link starts the row
over from this link, and every other entry leaves what is known of a property alone; a second
upload of the same entries finds nothing to do (`uploads_merge`).
-/

namespace RentalAgent

open Relational Portfolio Transition

variable {ids : IdSupply} {unicode : UnicodeTables} {safeName : String}
  {committedAt : Timestamp} {entry : CompanyFileEntry} {row : CompanyProperty}

/-! ## What an entry changes -/

/-- The address of a row after an entry. -/
def filledAddress (entry : CompanyFileEntry) (row : CompanyProperty) : Option String :=
  if (truthy entry.address).isSome ∧ truthy row.addressText = none then entry.address
  else row.addressText

/-- What an entry makes of a row: the document, the link if it is another one, and an address
that was missing. -/
theorem assignEntry_cases (safeName : String) (entry : CompanyFileEntry) (row : CompanyProperty) :
    (changedLink entry row = none ∧ assignEntry safeName entry row =
      { row with sourceDocument := safeName, addressText := filledAddress entry row }) ∨
    ∃ url, changedLink entry row = some url ∧ assignEntry safeName entry row =
      { relinked url row with
        sourceDocument := safeName
        addressText := filledAddress entry row } := by
  have same : changedLink entry { row with sourceDocument := safeName } =
      changedLink entry row := rfl
  rw [assignEntry, same, filledAddress]
  cases changedLink entry row with
  | none =>
      refine .inl ⟨rfl, ?_⟩
      change (if (truthy entry.address).isSome = true ∧ truthy row.addressText = none then _
        else _) = _
      split <;> rfl
  | some url =>
      refine .inr ⟨url, rfl, ?_⟩
      change (if (truthy entry.address).isSome = true ∧ truthy row.addressText = none then _
        else _) = _
      split <;> rfl

/-- An address that the entry states is not missing afterwards. -/
theorem filledAddress_ne_none (stated : truthy entry.address ≠ none) :
    truthy (filledAddress entry row) ≠ none := by
  rw [filledAddress]
  split
  · exact stated
  · rename_i filled
    exact fun none => filled ⟨Option.isSome_iff_ne_none.mpr stated, none⟩

/-- The row that is stored is the changed one, but for the time. -/
theorem commitRow_eq (committedAt : Timestamp) (row changed : CompanyProperty) :
    ∃ time, CompanyEnvironment.commitRow committedAt row changed =
      { changed with updatedAt := time } := by
  rw [CompanyEnvironment.commitRow]
  split
  · rename_i same
    exact ⟨row.updatedAt, by rw [same]⟩
  · exact ⟨committedAt, rfl⟩

/-- A row has nothing to learn from an entry: it has its link, and an address if the entry
states one. -/
structure Settled (entry : CompanyFileEntry) (row : CompanyProperty) : Prop where
  link : changedLink entry row = none
  address : truthy entry.address ≠ none → truthy row.addressText ≠ none

/-- On a settled row an entry changes the document alone. -/
theorem Settled.assignEntry (settled : Settled entry row) (safeName : String) :
    assignEntry safeName entry row = { row with sourceDocument := safeName } := by
  have same : changedLink entry { row with sourceDocument := safeName } = none := settled.link
  rw [RentalAgent.assignEntry, same]
  refine if_neg fun fills => settled.address (fun none => ?_) fills.2
  rw [none] at fills
  exact Bool.false_ne_true fills.1

theorem Settled.of_time (settled : Settled entry row) (time : Timestamp) :
    Settled entry { row with updatedAt := time } := ⟨settled.link, settled.address⟩

/-- A new property has settled the entry it was made for. -/
theorem settled_newProperty (drawn : Nat) :
    Settled entry (newProperty ids unicode safeName committedAt drawn entry) where
  link := by
    refine Option.filter_eq_none_iff.mpr fun url stated => ?_
    rw [truthy, Option.filter_eq_some_iff] at stated
    have same : some url = entry.url := stated.1.symm
    simp [newProperty, ← same]
  address := id

/-- A row that took an entry has settled it. -/
theorem settled_assignEntry : Settled entry (assignEntry safeName entry row) where
  link := by
    refine Option.filter_eq_none_iff.mpr fun url stated => ?_
    rcases assignEntry_cases safeName entry row with ⟨none, written⟩ | ⟨other, found, written⟩
    · rw [written]
      exact Option.filter_eq_none_iff.mp none url stated
    · obtain rfl : url = other :=
        Option.some.inj (stated.symm.trans (Option.filter_eq_some_iff.mp found).1)
      rw [written]
      simp [relinked]
  address stated := by
    rcases assignEntry_cases safeName entry row with ⟨-, written⟩ | ⟨url, -, written⟩
    · rw [written]
      exact filledAddress_ne_none stated
    · rw [written]
      exact filledAddress_ne_none stated

/-- A row that was updated for an entry has nothing more to learn from it. -/
theorem settled_updatedProperty :
    Settled entry (updatedProperty safeName committedAt entry row) := by
  obtain ⟨time, written⟩ :=
    commitRow_eq committedAt row (assignEntry safeName entry row)
  rw [updatedProperty, written]
  exact settled_assignEntry.of_time time

theorem sourceDocument_updatedProperty :
    (updatedProperty safeName committedAt entry row).sourceDocument = safeName := by
  obtain ⟨time, written⟩ := commitRow_eq committedAt row (assignEntry safeName entry row)
  rcases assignEntry_cases safeName entry row with ⟨-, assigned⟩ | ⟨url, -, assigned⟩
  · rw [updatedProperty, written, assigned]
  · rw [updatedProperty, written, assigned]

/-- An entry that meets a settled row again changes the document and the time. -/
theorem Settled.updatedProperty (settled : Settled entry row) (safeName : String)
    (committedAt : Timestamp) : ∃ time, updatedProperty safeName committedAt entry row =
      { row with sourceDocument := safeName, updatedAt := time } := by
  obtain ⟨time, written⟩ :=
    commitRow_eq committedAt row (RentalAgent.assignEntry safeName entry row)
  exact ⟨time, by rw [RentalAgent.updatedProperty, written, settled.assignEntry]⟩

/-- An entry of the same document changes nothing of a settled row. -/
theorem Settled.updatedProperty_eq_self (settled : Settled entry row)
    (document : row.sourceDocument = safeName) :
    RentalAgent.updatedProperty safeName committedAt entry row = row := by
  have same : RentalAgent.assignEntry safeName entry row = row := by
    rw [settled.assignEntry, ← document]
  rw [RentalAgent.updatedProperty, CompanyEnvironment.commitRow, if_pos same]

/-! ## An upload as a merge -/

variable (ids unicode)

/-- How entries become company properties. -/
def entryMerging (safeName : String) (committedAt : Timestamp) :
    Merging CompanyProperty CompanyFileEntry String where
  rowKey := CompanyProperty.nameFingerprint
  entryKey entry := Portfolio.nameFingerprint unicode entry.name
  merge := updatedProperty safeName committedAt
  create := newProperty ids unicode safeName committedAt
  rowKey_merge entry row := by
    obtain ⟨time, written⟩ := commitRow_eq committedAt row (assignEntry safeName entry row)
    rcases assignEntry_cases safeName entry row with ⟨-, assigned⟩ | ⟨url, -, assigned⟩
    · rw [updatedProperty, written, assigned]
    · rw [updatedProperty, written, assigned]
      rfl
  rowKey_create _ _ := rfl

/-- No two rows have one fingerprint or one identifier, and every identifier was drawn. -/
structure IntactTable (table : Table CompanyProperty) : Prop where
  fingerprints : (table.rows.map CompanyProperty.nameFingerprint).Nodup
  identifiers : (table.rows.map CompanyProperty.companyPropertyId).Nodup
  drawn : ∀ row ∈ table.rows, ∃ k < table.drawn, row.companyPropertyId = ids.uuid k

variable {ids unicode}

/-- An update keeps the id of a property. -/
theorem companyPropertyId_updatedProperty :
    (updatedProperty safeName committedAt entry row).companyPropertyId = row.companyPropertyId := by
  obtain ⟨time, written⟩ := commitRow_eq committedAt row (assignEntry safeName entry row)
  rcases assignEntry_cases safeName entry row with ⟨-, assigned⟩ | ⟨url, -, assigned⟩
  · rw [updatedProperty, written, assigned]
  · rw [updatedProperty, written, assigned]
    rfl

/-- Merging an entry keeps the table intact. -/
theorem IntactTable.upsert {table : Table CompanyProperty} (intact : IntactTable ids table)
    (safeName : String) (committedAt : Timestamp) (entry : CompanyFileEntry) :
    IntactTable ids ((entryMerging ids unicode safeName committedAt).upsert table entry) := by
  rw [Merging.upsert]
  split
  · have keys : ∀ row ∈ table.rows, decide (row.nameFingerprint =
        Portfolio.nameFingerprint unicode entry.name) = true →
          (updatedProperty safeName committedAt entry row).nameFingerprint = row.nameFingerprint :=
      fun row _ _ => (entryMerging ids unicode safeName committedAt).rowKey_merge entry row
    refine ⟨?_, ?_, ?_⟩
    · exact (map_updateWhere CompanyProperty.nameFingerprint keys).symm ▸ intact.fingerprints
    · exact (map_updateWhere CompanyProperty.companyPropertyId
        fun row _ _ => companyPropertyId_updatedProperty).symm ▸ intact.identifiers
    · intro row member
      obtain ⟨old, inTable, rfl⟩ := mem_updateWhere.mp member
      obtain ⟨k, below, same⟩ := intact.drawn old inTable
      refine ⟨k, below, ?_⟩
      split
      · exact companyPropertyId_updatedProperty.trans same
      · exact same
  · rename_i fresh
    refine ⟨?_, ?_, ?_⟩
    · rw [List.map_append]
      exact List.nodup_append'.mpr ⟨intact.fingerprints, List.nodup_singleton _,
        List.disjoint_singleton.mpr fresh⟩
    · rw [List.map_append]
      refine List.nodup_append'.mpr ⟨intact.identifiers, List.nodup_singleton _,
        List.disjoint_singleton.mpr fun member => ?_⟩
      obtain ⟨row, inTable, same⟩ := List.mem_map.mp member
      obtain ⟨k, below, drawn⟩ := intact.drawn row inTable
      exact absurd (ids.distinct (drawn.symm.trans same)) below.ne
    · intro row member
      rcases List.mem_append.mp member with old | new
      · obtain ⟨k, below, same⟩ := intact.drawn row old
        exact ⟨k, below.trans (Nat.lt_succ_self _), same⟩
      · rw [List.mem_singleton.mp new]
        exact ⟨table.drawn, Nat.lt_succ_self _, rfl⟩

/-- One round of the loop is one merge. -/
theorem mergeEntry_eq {table : Table CompanyProperty} (intact : IntactTable ids table)
    (safeName : String) (committedAt : Timestamp) (entry : CompanyFileEntry) :
    mergeEntry ids unicode safeName committedAt table entry =
      .ok ((entryMerging ids unicode safeName committedAt).upsert table entry) := by
  have unique : PrimaryKey CompanyProperty.nameFingerprint table.rows :=
    primaryKey_iff_nodup.mpr intact.fingerprints
  have rowIds : PrimaryKey CompanyProperty.companyPropertyId table.rows :=
    primaryKey_iff_nodup.mpr intact.identifiers
  rw [mergeEntry, Merging.upsert]
  have query := unique.scalarOneOrNone_filter ServiceError.multipleResultsFound
    (Portfolio.nameFingerprint unicode entry.name)
  change (scalarOneOrNone ServiceError.multipleResultsFound (table.rows.filter fun row =>
    decide (row.nameFingerprint = Portfolio.nameFingerprint unicode entry.name)) >>= _) = _
  rw [query]
  cases found : get CompanyProperty.nameFingerprint table.rows
      (Portfolio.nameFingerprint unicode entry.name) with
  | none =>
      have fresh : (entryMerging ids unicode safeName committedAt).entryKey entry ∉
          table.rows.map (entryMerging ids unicode safeName committedAt).rowKey := by
        intro member
        obtain ⟨row, inTable, same⟩ := List.mem_map.mp member
        exact get_eq_none.mp found row inTable same
      rw [if_neg fresh]
      rfl
  | some existing =>
      have inTable := mem_of_get found
      have key := key_of_get found
      have known : (entryMerging ids unicode safeName committedAt).entryKey entry ∈
          table.rows.map (entryMerging ids unicode safeName committedAt).rowKey :=
        List.mem_map.mpr ⟨existing, inTable, key⟩
      have selects : ∀ row ∈ table.rows,
          (row.companyPropertyId = existing.companyPropertyId ↔
            row.nameFingerprint = Portfolio.nameFingerprint unicode entry.name) := by
        intro row member
        constructor
        · intro same
          rw [rowIds.eq_of_mem member inTable same, key]
        · intro same
          rw [unique.eq_of_mem member inTable (same.trans key.symm)]
      rw [if_pos known]
      refine congrArg (fun rows => Except.ok (Table.mk rows table.drawn))
        (List.map_congr_left fun row member => ?_)
      change (if decide (row.companyPropertyId = existing.companyPropertyId) then _ else row) =
        if decide (row.nameFingerprint = Portfolio.nameFingerprint unicode entry.name) then _
        else row
      rw [decide_eq_decide.mpr (selects row member)]
      rfl

/-- The loop over the entries is a merge of them all. -/
theorem foldlM_mergeEntry {table : Table CompanyProperty} (intact : IntactTable ids table)
    (safeName : String) (committedAt : Timestamp) (entries : List CompanyFileEntry) :
    entries.foldlM (mergeEntry ids unicode safeName committedAt) table =
        .ok ((entryMerging ids unicode safeName committedAt).upsertAll entries table) ∧
      IntactTable ids
        ((entryMerging ids unicode safeName committedAt).upsertAll entries table) := by
  induction entries generalizing table with
  | nil => exact ⟨rfl, intact⟩
  | cons entry entries following =>
      rw [List.foldlM_cons, mergeEntry_eq intact safeName committedAt entry]
      exact following (intact.upsert safeName committedAt entry)

/-! ## Runs -/

/-- The rows of a portfolio. -/
abbrev CompanyPortfolio.table (portfolio : CompanyPortfolio) : Table CompanyProperty :=
  ⟨portfolio.rows, portfolio.drawn⟩

variable {portfolio : CompanyPortfolio}

/-- The table after an upload. -/
theorem upload_table (unicode : UnicodeTables) (intact : IntactTable ids portfolio.table)
    (upload : Upload) :
    (portfolio.upload ids unicode upload).table =
      (entryMerging ids unicode upload.safeName upload.committedAt).upsertAll
        (upload.entries unicode) portfolio.table := by
  rw [CompanyPortfolio.upload, (foldlM_mergeEntry intact _ _ _).1]

/-- The rows after an upload. -/
theorem upload_rows (unicode : UnicodeTables) (intact : IntactTable ids portfolio.table)
    (upload : Upload) :
    (portfolio.upload ids unicode upload).rows =
      ((entryMerging ids unicode upload.safeName upload.committedAt).upsertAll
        (upload.entries unicode) portfolio.table).rows :=
  congrArg Table.rows (upload_table unicode intact upload)

/-- A check changes neither the fingerprint nor the identifier of a row. -/
theorem IntactTable.writeCheck {table : Table CompanyProperty} (intact : IntactTable ids table)
    (committedAt : Timestamp) (read : CompanyProperty)
    (ending : Except ServiceError (CheckResult × CompanyProperty)) :
    IntactTable ids { table with rows := writeCheck committedAt read ending table.rows } := by
  rcases ending with failure | ⟨result, changed⟩
  · exact intact
  · rw [RentalAgent.writeCheck]
    split
    · exact intact
    · have keeps {Value : Type} (column : CompanyProperty → Value)
          (untouched : ∀ row, column (checkedProperty committedAt read changed row) = column row) :
          (updateWhere (fun row => row.companyPropertyId = read.companyPropertyId)
            (checkedProperty committedAt read changed) table.rows).map column =
              table.rows.map column :=
        map_updateWhere column fun row _ _ => untouched row
      refine ⟨?_, ?_, fun row member => ?_⟩
      · rw [keeps CompanyProperty.nameFingerprint fun _ => rfl]
        exact intact.fingerprints
      · rw [keeps CompanyProperty.companyPropertyId fun _ => rfl]
        exact intact.identifiers
      · obtain ⟨old, inTable, rfl⟩ := mem_updateWhere.mp member
        obtain ⟨k, below, same⟩ := intact.drawn old inTable
        refine ⟨k, below, ?_⟩
        split
        · exact same
        · exact same

/-- What one step preserves. -/
theorem intact_step (intact : IntactTable ids portfolio.table) (action : PortfolioAction) :
    IntactTable ids (portfolio.step ids unicode action).table := by
  cases action with
  | upload upload =>
      change IntactTable ids (portfolio.upload ids unicode upload).table
      rw [upload_table unicode intact upload]
      exact (foldlM_mergeEntry intact _ _ _).2
  | read id => exact intact
  | check position env now committedAt discardStale respond =>
      rw [CompanyPortfolio.step]
      split
      · exact intact
      · rename_i read _
        generalize ((env.check now discardStale read).converse respond []).2 = ending
        exact intact.writeCheck committedAt read ending

/-- What a run preserves. -/
theorem intact_run (actions : List PortfolioAction) :
    IntactTable ids (run (CompanyPortfolio.step ids unicode) {} actions).table := by
  have preserved : Preserved (CompanyPortfolio.step ids unicode) (fun _ _ => True)
      fun portfolio => IntactTable ids portfolio.table :=
    fun portfolio action intact _ => intact_step intact action
  exact preserved.run ⟨List.nodup_nil, List.nodup_nil, fun row member => by cases member⟩
    (permitted_of_forall fun _ _ => trivial)

/-! ## What an upload does -/

variable (ids unicode)

/-- What an upload does to the rows: none is removed; a second upload of the same entries leaves
the rows as they are, but for the document when it has another name; an entry without a link or
with the link that the row has leaves what is known of the property alone; and one with another
link resets the repair and the check and nothing else. -/
structure Merges (portfolio : CompanyPortfolio) (upload : Upload) : Prop where
  kept : ∀ row ∈ portfolio.rows, ∃ after ∈ (portfolio.upload ids unicode upload).rows,
    after.companyPropertyId = row.companyPropertyId ∧ after.name = row.name ∧
      after.nameFingerprint = row.nameFingerprint
  again : ∀ second : Upload, second.entries unicode = upload.entries unicode →
    second.safeName = upload.safeName →
      ((portfolio.upload ids unicode upload).upload ids unicode second).rows =
        (portfolio.upload ids unicode upload).rows
  renamed : ∀ second : Upload, second.entries unicode = upload.entries unicode →
    ((portfolio.upload ids unicode upload).upload ids unicode second).rows.map
        (fun row => { row with sourceDocument := "", updatedAt := 0 }) =
      (portfolio.upload ids unicode upload).rows.map
        fun row => { row with sourceDocument := "", updatedAt := 0 }
  sameLink : ∀ entry ∈ upload.entries unicode, ∀ row ∈ portfolio.rows,
    row.nameFingerprint = Portfolio.nameFingerprint unicode entry.name →
      (truthy entry.url = none ∨ entry.url = row.originalUrl) →
        ∃ after ∈ (portfolio.upload ids unicode upload).rows,
          after = { row with
            sourceDocument := after.sourceDocument
            addressText := after.addressText
            updatedAt := after.updatedAt }
  otherLink : ∀ entry ∈ upload.entries unicode, ∀ row ∈ portfolio.rows,
    row.nameFingerprint = Portfolio.nameFingerprint unicode entry.name →
      ∀ url, truthy entry.url = some url → some url ≠ row.originalUrl →
        ∃ after ∈ (portfolio.upload ids unicode upload).rows,
          after = { row with
            originalUrl := some url
            resolvedUrl := none
            resolvedUrlKind := none
            linkStatus := .unchecked
            checkStatus := .pending
            sourceDocument := after.sourceDocument
            addressText := after.addressText
            updatedAt := after.updatedAt }

variable {ids unicode}

/-- The entries of an upload have different names. -/
theorem entries_nodup (upload : Upload) :
    ((upload.entries unicode).map fun entry =>
      Portfolio.nameFingerprint unicode entry.name).Nodup := by
  rw [Upload.entries]
  cases upload.document unicode with
  | none => exact List.nodup_nil
  | some doc => exact extractEntries_nodup doc upload.llm

/-- The columns that every step keeps. -/
theorem merged_keeps (entries : List CompanyFileEntry) (row : CompanyProperty) :
    ((entryMerging ids unicode safeName committedAt).merged entries row).companyPropertyId =
        row.companyPropertyId ∧
      ((entryMerging ids unicode safeName committedAt).merged entries row).name = row.name ∧
      ((entryMerging ids unicode safeName committedAt).merged entries row).nameFingerprint =
        row.nameFingerprint := by
  rw [Merging.merged]
  cases entries.find? fun entry =>
      (entryMerging ids unicode safeName committedAt).entryKey entry =
        (entryMerging ids unicode safeName committedAt).rowKey row with
  | none => exact ⟨rfl, rfl, rfl⟩
  | some entry =>
      change (updatedProperty safeName committedAt entry row).companyPropertyId = _ ∧
        (updatedProperty safeName committedAt entry row).name = _ ∧
        (updatedProperty safeName committedAt entry row).nameFingerprint = _
      obtain ⟨time, written⟩ := commitRow_eq committedAt row (assignEntry safeName entry row)
      rcases assignEntry_cases safeName entry row with ⟨-, assigned⟩ | ⟨url, -, assigned⟩
      · rw [updatedProperty, written, assigned]
        exact ⟨rfl, rfl, rfl⟩
      · rw [updatedProperty, written, assigned]
        exact ⟨rfl, rfl, rfl⟩

/-- A row that an entry is for, after the upload. -/
theorem mem_upload (intact : IntactTable ids portfolio.table) {upload : Upload}
    (member : entry ∈ upload.entries unicode) (inRows : row ∈ portfolio.rows)
    (same : row.nameFingerprint = Portfolio.nameFingerprint unicode entry.name) :
    updatedProperty upload.safeName upload.committedAt entry row ∈
      (portfolio.upload ids unicode upload).rows := by
  have distinct : ((upload.entries unicode).map
      (entryMerging ids unicode upload.safeName upload.committedAt).entryKey).Nodup :=
    entries_nodup upload
  have after := Merging.mem_upsertAll_of_mem distinct portfolio.table inRows
  rw [Merging.merged_eq distinct member same] at after
  rw [upload_rows unicode intact upload]
  exact after

/-- The rows after two uploads of the same entries, as far as a view of them does not see the
second meet a settled row. -/
theorem upload_upload {View : Type} (view : CompanyProperty → View)
    (intact : IntactTable ids portfolio.table) (upload second : Upload)
    (same : second.entries unicode = upload.entries unicode)
    (blind : ∀ entry row, Settled entry row → row.sourceDocument = upload.safeName →
      view (updatedProperty second.safeName second.committedAt entry row) = view row) :
    ((portfolio.upload ids unicode upload).upload ids unicode second).rows.map view =
      (portfolio.upload ids unicode upload).rows.map view := by
  have distinct : ((upload.entries unicode).map
      (entryMerging ids unicode upload.safeName upload.committedAt).entryKey).Nodup :=
    entries_nodup upload
  have intactAfter : IntactTable ids (portfolio.upload ids unicode upload).table :=
    intact_step intact (.upload upload)
  rw [upload_rows unicode intactAfter second, same, upload_table unicode intact upload,
    upload_rows unicode intact upload]
  exact Merging.upsertAll_again view
    (entryMerging ids unicode upload.safeName upload.committedAt)
    (entryMerging ids unicode second.safeName second.committedAt) rfl rfl distinct
    (fun entry row => blind entry _ settled_updatedProperty sourceDocument_updatedProperty)
    (fun drawn entry => blind entry _ (settled_newProperty drawn) rfl) portfolio.table

end RentalAgent
