import RentalAgent.Exports.CsvExport

/-! # What the export tells

What counts is not what `_write` was given but what a spreadsheet reads from the files. `_safe`
knows five characters, and a carriage return is not among them: a text from outside that begins
with one stays as it is (`inert_safe`). A number is tested for truth, so a rent of nothing and a
walk or a commute of no time are blank like an unknown one (`blank_whenTrue`). The minutes of a
walk are cut off where `transit_for_listing` rounds them (`minutes_whenTrue`). Nothing else goes
wrong: the export is inert and faithful exactly for tables in which none of the three occurs
(`csv_export_faithful_iff`).
-/

namespace RentalAgent

open Relational

/-! ## Reading the files -/

/-- The characters that a spreadsheet takes for the start of a formula or of a control. -/
def dangerous : List Char := ['=', '+', '-', '@', '\t', '\r']

/-- A cell that a spreadsheet shows as it is. -/
def Inert (cell : List Char) : Prop := ∀ c ∈ cell.head?, c ∉ dangerous

instance : DecidablePred Inert
  | [] => .isTrue nofun
  | c :: _ => decidable_of_iff (c ∉ dangerous) (by simp [Inert])

/-- The rows that a spreadsheet reads from a file. -/
def ExportedFile.readBack (texts : PythonTexts) (file : ExportedFile) : List (List (List Char)) :=
  Csv.read (file.written texts)

/-- The cell of a row in a column. -/
def column (header : List String) (name : String) (row : List (List Char)) : List Char :=
  row.getD (header.idxOf name) []

/-- The cells of a column are blank exactly where the stored value is null. -/
def BlankIfNull (texts : PythonTexts) (file : ExportedFile) (name : String)
    (stored : List (Option Nat)) : Prop :=
  List.Forall₂ (fun value row => column file.header name row = [] ↔ value = none) stored
    (file.readBack texts).tail

/-- The text of the minutes that a row reports. -/
def minutesText : Option Int → List Char
  | none => []
  | some minutes => (toString minutes).toList

/-- The exported minutes of every way are those that `transit_for_listing` reports for it. -/
def AgreesWithTransit (texts : PythonTexts) (position : Uuid → Nat) (tables : ExportTables)
    (rows : List TransitRow) : Prop :=
  List.Forall₂ (fun row cells => row.access.view row.stop ∈
      tables.walks.transitForListing position row.access.canonicalListingId ∧
    column TransitRow.header "walking_minutes" cells =
      minutesText (row.access.view row.stop).walkMin) rows ((transitFile rows).readBack texts).tail

/-- The export is faithful and inert. -/
structure FaithfulExport (texts : PythonTexts) (position : Uuid → Nat) (tables : ExportTables)
    (listingIds : Option (List Uuid)) : Prop where
  inert : ∀ file ∈ tables.exportListings position listingIds, ∀ row ∈ file.readBack texts,
    ∀ cell ∈ row, Inert cell
  rents : BlankIfNull texts (listingsFile (tables.listingRows listingIds)) "monthly_rent_dollars"
    ((tables.listingRows listingIds).map fun row => row.listing.monthlyRentMinor)
  walks : BlankIfNull texts
    (transitFile (tables.transitRows position (tables.exportedIds listingIds))) "walking_minutes"
    ((tables.transitRows position (tables.exportedIds listingIds)).map fun row =>
      row.access.walkingDurationS)
  shortest : BlankIfNull texts
    (commutesFile (tables.commuteRows (tables.exportedIds listingIds))) "duration_min_minutes"
    ((tables.commuteRows (tables.exportedIds listingIds)).map fun row => row.result.durationMinS)
  longest : BlankIfNull texts
    (commutesFile (tables.commuteRows (tables.exportedIds listingIds))) "duration_max_minutes"
    ((tables.commuteRows (tables.exportedIds listingIds)).map fun row => row.result.durationMaxS)
  minutes : AgreesWithTransit texts position tables
    (tables.transitRows position (tables.exportedIds listingIds))

/-! ## What is stored -/

/-- The texts in a cell that come from outside. -/
def Cell.texts : Cell → List String
  | .text value => [value]
  | _ => []

/-- The texts of a row that come from outside; of the pages of a commute only the first one
opens its cell. -/
def ListingRow.texts (row : ListingRow) : List String :=
  [row.address.formattedAddress, row.address.locality] ++ row.address.borough.toList ++
    [row.listing.currencyCode]

def SourceRow.texts (row : SourceRow) : List String := [row.source.sourceCode, row.link.sourceUrl]

def TransitRow.texts (row : TransitRow) : List String := [row.stop.stopName, row.stop.operatorCode]

def CommuteRow.texts (row : CommuteRow) : List String :=
  [row.destination.destinationCode, row.destination.displayName] ++
    (row.result.sources.map ResearchSource.url).head?.toList

/-- The stored texts that the export writes. -/
def ExportTables.exportedTexts (position : Uuid → Nat) (tables : ExportTables)
    (listingIds : Option (List Uuid)) : List String :=
  let ids := tables.exportedIds listingIds
  (tables.listingRows listingIds).flatMap ListingRow.texts ++
    (tables.sourceRows ids).flatMap SourceRow.texts ++
      (tables.transitRows position ids).flatMap TransitRow.texts ++
        (tables.commuteRows ids).flatMap CommuteRow.texts

/-- A duration whose whole minutes are its nearest minutes, where a half goes to the even
neighbour. -/
def MinutesWhole (seconds : Nat) : Prop :=
  seconds % 60 < 30 ∨ seconds % 60 = 30 ∧ seconds / 60 % 2 = 0

instance : DecidablePred MinutesWhole := fun _ => inferInstanceAs (Decidable (_ ∨ _ ∧ _))

/-- No exported text begins with a carriage return, no exported number is zero, and no walk is
nearer to the next minute. -/
structure PlainTables (position : Uuid → Nat) (tables : ExportTables)
    (listingIds : Option (List Uuid)) : Prop where
  texts : ∀ text ∈ tables.exportedTexts position listingIds, Opens (· = '\r') text = false
  rents : ∀ row ∈ tables.listingRows listingIds, row.listing.monthlyRentMinor ≠ some 0
  walks : ∀ row ∈ tables.transitRows position (tables.exportedIds listingIds),
    row.access.walkingDurationS ≠ some 0
  commutes : ∀ row ∈ tables.commuteRows (tables.exportedIds listingIds),
    row.result.durationMinS ≠ some 0 ∧ row.result.durationMaxS ≠ some 0
  minutes : ∀ row ∈ tables.transitRows position (tables.exportedIds listingIds),
    ∀ seconds ∈ row.access.walkingDurationS, MinutesWhole seconds

/-! ## Cells -/

section Cells

variable {texts : PythonTexts} {text : String}

theorem opens_iff {kind : Char → Bool} :
    Opens kind text = true ↔ ∃ c ∈ text.toList.head?, kind c = true := by
  rw [Opens, Option.any_eq_true]
  rfl

/-- A text that opens with a character of one kind opens with none of another. -/
theorem opens_apart {kind other : Char → Bool} (opens : Opens kind text = true)
    (apart : ∀ c, kind c = true → other c = false) : Opens other text = false := by
  obtain ⟨c, first, holds⟩ := opens_iff.mp opens
  refine Bool.eq_false_iff.mpr fun also => ?_
  obtain ⟨d, again, holdsToo⟩ := opens_iff.mp also
  rw [Option.mem_def] at first again
  rw [first, Option.some_inj] at again
  subst again
  rw [apart c holds] at holdsToo
  cases holdsToo

/-- `_safe` leaves the carriage return alone. -/
theorem inert_safe (cell : Cell) :
    Inert (safe texts cell) ↔ Opens (· = '\r') (cell.str texts) = false := by
  unfold safe
  split
  · rename_i formula
    refine iff_of_true (fun c member => ?_) (opens_apart formula fun c listed => ?_)
    · cases Option.mem_some_iff.mp member
      decide
    · have inside : c ∈ formulaPrefixes := by simpa using listed
      revert inside
      simp only [formulaPrefixes, List.mem_cons, List.not_mem_nil, or_false]
      rintro (rfl | rfl | rfl | rfl | rfl) <;> rfl
  · rename_i plain
    rw [Inert, ← Bool.not_eq_true, opens_iff]
    constructor
    · rintro inert ⟨c, first, return_⟩
      cases of_decide_eq_true return_
      exact inert _ first (by decide)
    · intro noReturn c first listed
      refine plain (opens_iff.mpr ⟨c, first, ?_⟩)
      have other : c ≠ '\r' := fun same => noReturn ⟨c, first, decide_eq_true same⟩
      simp only [dangerous, formulaPrefixes, List.mem_cons, List.not_mem_nil, or_false,
        List.contains_eq_mem, decide_eq_true_eq] at listed ⊢
      tauto

/-- A natural number opens with a digit. -/
theorem opens_toString (number : Nat) : Opens Char.isDigit (toString number) = true := by
  cases digits : Nat.toDigits 10 number with
  | nil => exact absurd digits Nat.toDigits_ne_nil
  | cons c rest =>
      have first : c ∈ Nat.toDigits 10 number := digits ▸ List.mem_cons_self
      have digit : c.isDigit = true := Nat.isDigit_of_mem_toDigits (by decide) (by decide) first
      rw [Opens, Nat.toString_eq_repr, Nat.toList_repr, digits]
      simpa using digit

/-- A text opens as its first part does, unless that part is empty. -/
theorem opens_append {kind : Char → Bool} {front back : String} :
    Opens kind (front ++ back) = if front = "" then Opens kind back else Opens kind front := by
  rw [Opens, String.toList_append]
  split
  · rename_i empty
    subst empty
    rfl
  · rename_i present
    rw [List.head?_append_of_ne_nil _ (fun empty => present (String.toList_eq_nil_iff.mp empty))]
    rfl

/-- An integer opens with a digit or with its sign. -/
theorem opens_toString_int (number : Int) :
    Opens (fun c => c.isDigit || c = '-') (toString number) = true := by
  cases number with
  | ofNat number =>
      obtain ⟨c, first, digit⟩ := opens_iff.mp (opens_toString number)
      exact opens_iff.mpr ⟨c, first, by rw [digit, Bool.true_or]⟩
  | negSucc number =>
      have sign : toString (Int.negSucc number) = "-" ++ Nat.repr (number + 1) := rfl
      rw [sign, opens_append, if_neg (by decide)]
      rfl

/-- A decimal opens with a digit or a minus sign. -/
theorem opens_decimalText (tenths : Int) :
    Opens (fun c => c.isDigit || c = '-') (Cell.decimalText tenths) = true := by
  obtain ⟨c, first, digit⟩ := opens_iff.mp (opens_toString (tenths.natAbs / 10))
  have opens : Opens (fun c => c.isDigit || c = '-') (toString (tenths.natAbs / 10)) = true :=
    opens_iff.mpr ⟨c, first, by rw [digit, Bool.true_or]⟩
  have present : ¬toString (tenths.natAbs / 10) = "" := by simp
  unfold Cell.decimalText
  split
  · rw [String.append_assoc, String.append_assoc, opens_append, if_neg (by decide)]
    rfl
  · rw [String.empty_append, String.append_assoc, opens_append, if_neg present, opens]

/-- Nothing but a text from outside opens with a carriage return. -/
theorem str_return (cell : Cell) : Opens (· = '\r') (cell.str texts) = false ↔
    ∀ text ∈ cell.texts, Opens (· = '\r') text = false := by
  have never : ∀ {text : String} {kind : Char → Bool}, Opens kind text = true →
      kind '\r' = false → Opens (· = '\r') text = false := by
    refine fun opens other => opens_apart opens fun c holds => decide_eq_false ?_
    rintro rfl
    rw [other] at holds
    cases holds
  cases cell with
  | text value => simp [Cell.texts, Cell.str]
  | null => exact iff_of_true rfl nofun
  | member value capital => exact iff_of_true (never capital rfl) nofun
  | uuid id => exact iff_of_true (never (texts.uuid_opens id) rfl) nofun
  | integer value => exact iff_of_true (never (opens_toString_int value) rfl) nofun
  | decimal tenths => exact iff_of_true (never (opens_decimalText tenths) rfl) nofun
  | dollars minor => exact iff_of_true (never (texts.dollars_opens minor) rfl) nofun
  | boolean value =>
      have capital : Opens Char.isUpper (if value then "True" else "False") = true := by
        cases value <;> decide
      exact iff_of_true (never capital rfl) nofun
  | isoformat moment => exact iff_of_true (never (texts.isoformat_opens moment) rfl) nofun
  | dict object => exact iff_of_true (never (texts.dict_opens object) rfl) nofun

theorem inert_cells (cells : List Cell) : (∀ cell ∈ cells.map (safe texts), Inert cell) ↔
    ∀ text ∈ cells.flatMap Cell.texts, Opens (· = '\r') text = false := by
  simp only [List.forall_mem_map, List.forall_mem_flatMap, inert_safe, str_return]

/-! ### Numbers -/

/-- A cell is written empty just when its text is. -/
theorem safe_eq_nil {cell : Cell} : safe texts cell = [] ↔ cell.str texts = "" := by
  unfold safe
  split
  · rename_i formula
    refine iff_of_false (List.cons_ne_nil _ _) fun empty => ?_
    rw [empty] at formula
    cases formula
  · exact String.toList_eq_nil_iff

/-- A number that is tested for truth is blank for zero as well. -/
theorem blank_whenTrue {cell : Nat → Cell} (present : ∀ number, (cell number).str texts ≠ "")
    (value : Option Nat) :
    (safe texts (.whenTrue cell value) = [] ↔ value = none) ↔ value ≠ some 0 := by
  rw [safe_eq_nil]
  rcases value with - | - | number
  · simp [Cell.whenTrue, Cell.str]
  · simp [Cell.whenTrue, Cell.str]
  · simp [Cell.whenTrue, present]

theorem opens_ne_empty {kind : Char → Bool} (opens : Opens kind text = true) : text ≠ "" := by
  rintro rfl
  cases opens

/-- A number without a sign is exported as it is. -/
theorem safe_natural (number : Nat) :
    safe texts (.integer number) = (toString number).toList := by
  have plain : Opens (formulaPrefixes.contains ·) (toString number) = false := by
    refine opens_apart (opens_toString number) fun c digit => Bool.eq_false_iff.mpr fun listed => ?_
    have noDigits : (formulaPrefixes.all fun c => !c.isDigit) = true := by decide
    have noDigit := List.all_eq_true.mp noDigits c (by simpa using listed)
    rw [digit] at noDigit
    cases noDigit
  exact if_neg (Bool.eq_false_iff.mp plain)

/-- The nearest minutes are the whole minutes. -/
theorem roundHalfEven_minutes (seconds : Nat) :
    roundHalfEven ((seconds : Rat) / 60) = (seconds / 60 : Nat) ↔ MinutesWhole seconds := by
  have floor : ((seconds : Rat) / 60).floor = ((seconds / 60 : Nat) : Int) := by
    have divided : ((seconds : Rat) / ((60 : Nat) : Rat)).floor = (seconds : Int) / (60 : Nat) :=
      Rat.floor_natCast_div_natCast seconds 60
    rw [Nat.cast_ofNat] at divided
    exact divided
  have rest : (seconds : Rat) / 60 - (((seconds / 60 : Nat) : Int) : Rat) =
      ((seconds % 60 : Nat) : Rat) / 60 := by
    have whole : ((60 * (seconds / 60) + seconds % 60 : Nat) : Rat) = seconds := by
      rw [Nat.div_add_mod]
    push_cast at whole
    rw [Int.cast_natCast]
    linarith
  rw [roundHalfEven]
  simp only [floor, rest, MinutesWhole]
  have less : ((seconds % 60 : Nat) : Rat) / 60 < 1 / 2 ↔ seconds % 60 < 30 := by
    rw [div_lt_div_iff₀ (by norm_num) (by norm_num)]
    norm_cast
    omega
  have more : 1 / 2 < ((seconds % 60 : Nat) : Rat) / 60 ↔ 30 < seconds % 60 := by
    rw [div_lt_div_iff₀ (by norm_num) (by norm_num)]
    norm_cast
    omega
  simp only [less, more]
  split_ifs <;> omega

/-- The text of an integer is that of a natural number only for that number. -/
theorem toString_eq_natural {number : Int} {natural : Nat} :
    (toString number).toList = (toString natural).toList ↔ number = natural := by
  constructor
  · intro same
    cases number with
    | ofNat number =>
        have shown : toString (Int.ofNat number) = Nat.repr number := rfl
        rw [shown, Nat.toString_eq_repr, Nat.toList_repr, Nat.toList_repr] at same
        have read := congrArg (fun digits => Nat.ofDigitChars 10 digits 0) same
        simp only [Nat.ofDigitChars_toDigits (b := 10) (by decide) (by decide)] at read
        exact congrArg Int.ofNat read
    | negSucc number =>
        have sign : toString (Int.negSucc number) = "-" ++ Nat.repr (number + 1) := rfl
        have digit : Opens Char.isDigit (toString (Int.negSucc number)) = true := by
          rw [Opens, same]
          exact opens_toString natural
        rw [sign, opens_append, if_neg (by decide)] at digit
        exact absurd digit (by decide)
  · rintro rfl
    rfl

/-- The minutes that are written are those that are reported unless the walk takes no time or
is nearer to the next minute. -/
theorem minutes_whenTrue (duration : Option Nat) :
    safe texts (.whenTrue (fun seconds => .integer (seconds / 60 : Nat)) duration) =
      minutesText (duration.map fun seconds : Nat => roundHalfEven ((seconds : Rat) / 60)) ↔
    duration ≠ some 0 ∧ ∀ seconds ∈ duration, MinutesWhole seconds := by
  rcases duration with - | - | seconds
  · exact iff_of_true rfl ⟨nofun, nofun⟩
  · refine iff_of_false (fun same => ?_) fun whole => whole.1 rfl
    have empty : (toString (roundHalfEven (((0 : Nat) : Rat) / 60))).toList = [] := same.symm
    have opens := opens_toString_int (roundHalfEven (((0 : Nat) : Rat) / 60))
    rw [Opens, empty] at opens
    cases opens
  · have present : (some (seconds + 1) : Option Nat) ≠ some 0 := by simp
    simp only [Cell.whenTrue, Option.map_some, minutesText, Option.mem_some_iff, forall_eq',
      Nat.add_one_ne_zero, if_false, safe_natural, present, ne_eq, not_false_eq_true, true_and]
    rw [eq_comm, toString_eq_natural, roundHalfEven_minutes]

/-! ### Files -/

theorem readBack_eq (file : ExportedFile) : file.readBack texts =
    file.header.map String.toList :: file.rows.map fun row => row.map (safe texts) :=
  Csv.read_write _

/-- What holds of each row of a file behind its header. -/
theorem forall₂_readBack {Row Value : Type} {relation : Value → List (List Char) → Prop}
    {fileName : String} {header : List String} {rows : List Row} (cells : Row → List Cell)
    (value : Row → Value) :
    List.Forall₂ relation (rows.map value)
      ((ExportedFile.mk fileName header (rows.map cells)).readBack texts).tail ↔
    ∀ row ∈ rows, relation (value row) ((cells row).map (safe texts)) := by
  rw [readBack_eq, List.tail_cons, List.map_map, List.forall₂_map_left_iff,
    List.forall₂_map_right_iff, List.forall₂_same]
  rfl

/-- A file is inert when its header and the texts from outside are. -/
theorem inert_file {Row : Type} {fileName : String} {header : List String} {rows : List Row}
    (cells : Row → List Cell) (inertHeader : ∀ name ∈ header, Inert name.toList) :
    (∀ row ∈ (ExportedFile.mk fileName header (rows.map cells)).readBack texts,
      ∀ cell ∈ row, Inert cell) ↔
    ∀ row ∈ rows, ∀ text ∈ (cells row).flatMap Cell.texts, Opens (· = '\r') text = false := by
  rw [readBack_eq, List.forall_mem_cons, List.forall_mem_map, List.map_map, List.forall_mem_map]
  refine (and_iff_right inertHeader).trans (forall₂_congr fun row _ => ?_)
  exact inert_cells (cells row)

end Cells

/-! ## The export as a whole -/

section Export

variable {texts : PythonTexts} {position : Uuid → Nat} {tables : ExportTables}
  {listingIds : Option (List Uuid)}

theorem texts_whenTrue {cell : Nat → Cell} (plain : ∀ number, (cell number).texts = [])
    (value : Option Nat) : (Cell.whenTrue cell value).texts = [] := by
  rcases value with - | - | number
  · rfl
  · rfl
  · exact plain (number + 1)

theorem texts_nullable {Value : Type} {cell : Value → Cell}
    (plain : ∀ value, (cell value).texts = []) (value : Option Value) :
    (Cell.nullable cell value).texts = [] := by
  cases value with
  | none => rfl
  | some value => exact plain value

theorem texts_nullable_text (value : Option String) :
    (Cell.nullable .text value).texts = value.toList := by
  cases value <;> rfl

theorem listing_texts (row : ListingRow) : row.cells.flatMap Cell.texts = row.texts := by
  simp only [ListingRow.cells, List.flatMap_cons, List.flatMap_nil, texts_nullable_text,
    texts_nullable (fun _ => rfl : ∀ tenths, (Cell.decimal tenths).texts = []),
    texts_whenTrue (fun _ => rfl : ∀ minor, (Cell.dollars minor).texts = [])]
  rfl

theorem source_texts (row : SourceRow) : row.cells.flatMap Cell.texts = row.texts := rfl

theorem transit_texts (row : TransitRow) : row.cells.flatMap Cell.texts = row.texts := by
  simp only [TransitRow.cells, List.flatMap_cons, List.flatMap_nil,
    texts_nullable (fun _ => rfl : ∀ meters : Nat, (Cell.integer meters).texts = []),
    texts_whenTrue (fun _ => rfl : ∀ seconds, (Cell.integer (seconds / 60 : Nat)).texts = [])]
  rfl

/-- The texts of a commute are its destination and the URLs of its sources. -/
theorem commute_texts (row : CommuteRow) : row.cells.flatMap Cell.texts =
    [row.destination.destinationCode, row.destination.displayName,
      " | ".intercalate (row.result.sources.map ResearchSource.url)] := by
  simp only [CommuteRow.cells, List.flatMap_cons, List.flatMap_nil,
    texts_nullable (fun _ => rfl : ∀ id, (Cell.uuid id).texts = []),
    texts_nullable (fun _ => rfl : ∀ transfers : Nat, (Cell.integer transfers).texts = []),
    texts_nullable (fun _ => rfl : ∀ moment, (Cell.isoformat moment).texts = []),
    texts_whenTrue (fun _ => rfl : ∀ seconds, (Cell.integer (seconds / 60 : Nat)).texts = [])]
  rfl

theorem event_texts (event : ListingEvent) : (eventCells event).flatMap Cell.texts = [] := by
  simp only [eventCells, List.flatMap_cons, List.flatMap_nil,
    texts_nullable (fun _ => rfl : ∀ object, (Cell.dict object).texts = [])]
  rfl

/-- Joined pages open as the first of them does. -/
theorem opens_intercalate (urls : List String) :
    Opens (· = '\r') (" | ".intercalate urls) = false ↔
      ∀ url ∈ urls.head?.toList, Opens (· = '\r') url = false := by
  rcases urls with - | ⟨first, - | ⟨next, more⟩⟩
  · exact iff_of_true (by decide) nofun
  · simp [String.intercalate_singleton]
  · rw [String.intercalate_cons_cons, String.append_assoc, opens_append]
    split
    · rename_i empty
      subst empty
      refine iff_of_true ?_ (by simp [Opens])
      rw [opens_append, if_neg (by decide)]
      decide
    · simp

/-- The five files are inert exactly when no text from outside opens with a carriage return. -/
theorem inert_export : (∀ file ∈ tables.exportListings position listingIds,
      ∀ row ∈ file.readBack texts, ∀ cell ∈ row, Inert cell) ↔
    ∀ text ∈ tables.exportedTexts position listingIds, Opens (· = '\r') text = false := by
  have commutes : ∀ row : CommuteRow, (∀ text ∈ row.cells.flatMap Cell.texts,
      Opens (· = '\r') text = false) ↔ ∀ text ∈ row.texts, Opens (· = '\r') text = false := by
    intro row
    rw [commute_texts, CommuteRow.texts]
    simp only [List.forall_mem_append, List.forall_mem_cons, List.not_mem_nil, false_implies,
      implies_true, and_true, opens_intercalate, and_assoc]
  unfold ExportTables.exportListings ExportTables.exportedTexts
  simp only [List.forall_mem_cons, List.not_mem_nil, false_implies, implies_true, and_true,
    List.forall_mem_append, List.forall_mem_flatMap]
  unfold listingsFile sourcesFile transitFile commutesFile historyFile
  rw [inert_file ListingRow.cells (by decide), inert_file SourceRow.cells (by decide),
    inert_file TransitRow.cells (by decide), inert_file CommuteRow.cells (by decide),
    inert_file eventCells (by decide)]
  simp only [listing_texts, source_texts, transit_texts, event_texts, commutes, List.not_mem_nil,
    false_implies, implies_true, and_true, and_assoc]

theorem dollars_ne_empty (minor : Nat) : (Cell.dollars minor).str texts ≠ "" :=
  opens_ne_empty (texts.dollars_opens minor)

theorem rents_iff : BlankIfNull texts (listingsFile (tables.listingRows listingIds))
      "monthly_rent_dollars"
      ((tables.listingRows listingIds).map fun row => row.listing.monthlyRentMinor) ↔
    ∀ row ∈ tables.listingRows listingIds, row.listing.monthlyRentMinor ≠ some 0 := by
  refine (forall₂_readBack ListingRow.cells _).trans (forall₂_congr fun row _ => ?_)
  exact blank_whenTrue dollars_ne_empty _

theorem minutes_ne_empty (seconds : Nat) :
    (Cell.integer (seconds / 60 : Nat)).str texts ≠ "" :=
  opens_ne_empty (opens_toString_int _)

theorem walks_iff (rows : List TransitRow) :
    BlankIfNull texts (transitFile rows) "walking_minutes"
      (rows.map fun row => row.access.walkingDurationS) ↔
    ∀ row ∈ rows, row.access.walkingDurationS ≠ some 0 := by
  refine (forall₂_readBack TransitRow.cells _).trans (forall₂_congr fun row _ => ?_)
  exact blank_whenTrue minutes_ne_empty _

theorem shortest_iff (rows : List CommuteRow) :
    BlankIfNull texts (commutesFile rows) "duration_min_minutes"
      (rows.map fun row => row.result.durationMinS) ↔
    ∀ row ∈ rows, row.result.durationMinS ≠ some 0 := by
  refine (forall₂_readBack CommuteRow.cells _).trans (forall₂_congr fun row _ => ?_)
  exact blank_whenTrue minutes_ne_empty _

theorem longest_iff (rows : List CommuteRow) :
    BlankIfNull texts (commutesFile rows) "duration_max_minutes"
      (rows.map fun row => row.result.durationMaxS) ↔
    ∀ row ∈ rows, row.result.durationMaxS ≠ some 0 := by
  refine (forall₂_readBack CommuteRow.cells _).trans (forall₂_congr fun row _ => ?_)
  exact blank_whenTrue minutes_ne_empty _

/-- What is exported of a way is reported of it. -/
theorem view_mem_transitForListing {ids : List Uuid} {row : TransitRow}
    (member : row ∈ tables.transitRows position ids) :
    row.access.view row.stop ∈
      tables.walks.transitForListing position row.access.canonicalListingId := by
  obtain ⟨access, sorted, found⟩ := List.mem_filterMap.mp member
  obtain ⟨stop, located, rfl⟩ := Option.map_eq_some_iff.mp found
  have stored := (List.mem_filter.mp ((List.mem_insertionSort _).mp sorted)).1
  refine List.mem_filterMap.mpr ⟨access, (List.mem_insertionSort _).mpr ?_, ?_⟩
  · exact List.mem_filter.mpr ⟨stored, decide_eq_true rfl⟩
  · exact congrArg (Option.map access.view) located

/-- The exported minutes agree with the transit table just when no primary walk takes no time at
all and every walk takes whole minutes. -/
theorem minutes_iff {ids : List Uuid} :
    AgreesWithTransit texts position tables (tables.transitRows position ids) ↔
    ∀ row ∈ tables.transitRows position ids, row.access.walkingDurationS ≠ some 0 ∧
      ∀ seconds ∈ row.access.walkingDurationS, MinutesWhole seconds := by
  unfold AgreesWithTransit transitFile
  rw [readBack_eq, List.tail_cons, List.map_map, List.forall₂_map_right_iff, List.forall₂_same]
  refine forall₂_congr fun row member => ?_
  refine (and_iff_right (view_mem_transitForListing member)).trans ?_
  have reported : (row.access.view row.stop).walkMin = row.access.walkingDurationS.map
      fun seconds : Nat => roundHalfEven ((seconds : Rat) / 60) := by
    change row.access.walkMin = _
    unfold RoutedAccess.walkMin
    cases row.access.walkingDurationS <;> rfl
  rw [reported]
  exact minutes_whenTrue row.access.walkingDurationS

/-- **Exported listings.** The export is inert and faithful exactly for tables whose exported
texts do not begin with a carriage return, whose exported numbers are not zero, and whose walks
are not nearer to the next minute. -/
theorem csv_export_faithful_iff (texts : PythonTexts) (position : Uuid → Nat)
    (tables : ExportTables) (listingIds : Option (List Uuid)) :
    FaithfulExport texts position tables listingIds ↔ PlainTables position tables listingIds := by
  constructor
  · rintro ⟨inert, rents, walks, shortest, longest, minutes⟩
    have agrees := minutes_iff.mp minutes
    exact ⟨inert_export.mp inert, rents_iff.mp rents, (walks_iff _).mp walks,
      fun row member => ⟨(shortest_iff _).mp shortest row member,
        (longest_iff _).mp longest row member⟩,
      fun row member => (agrees row member).2⟩
  · rintro ⟨plain, rents, walks, commutes, minutes⟩
    exact ⟨inert_export.mpr plain, rents_iff.mpr rents, (walks_iff _).mpr walks,
      (shortest_iff _).mpr fun row member => (commutes row member).1,
      (longest_iff _).mpr fun row member => (commutes row member).2,
      minutes_iff.mpr fun row member => ⟨walks row member, minutes row member⟩⟩

end Export

/-! ## A listing for nothing -/

/-- What Python writes of small identifiers, of the first moment and of no values. -/
def epochTexts : PythonTexts where
  uuid id := "00000000-0000-0000-0000-00000000000" ++ toString id
  isoformat _ := "1970-01-01T00:00:00+00:00"
  dict _ := "\x7b\x7d"
  dollars minor := toString (minor / 100) ++ ("." ++ toString (minor % 100 / 10) ++
    if minor % 10 = 0 then "" else toString (minor % 10))
  uuid_opens id := by
    rw [opens_append, if_neg (by decide)]
    decide
  isoformat_opens _ := by decide
  dict_opens _ := by decide
  dollars_opens minor := by
    have opens := opens_toString (minor / 100)
    rw [opens_append, if_neg (opens_ne_empty opens), opens]

/-- A listing at no rent, whose address begins with a carriage return, a minute and a half from
its station. -/
def freeListing : ExportTables where
  listings := [{
    toCanonicalListing := { Database.plainListing 1 .active with monthlyRentMinor := some 0 }
    bedroomCount := none
    bathroomCount := none
    currencyCode := "USD"
    enrichmentStatus := .notStarted }]
  buildings := [⟨0, 3⟩]
  addresses := [{
    addressId := 3, addressLine1 := none, locality := "New York", administrativeArea := "NY"
    formattedAddress := "\r=1+1", addressFingerprint := none, locationPrecision := .building
    boundaryStatus := .unresolved }]
  selections := []
  links := []
  sources := []
  access := [{ nearAccess with walkingDistanceM := some 120, walkingDurationS := some 90 }]
  stops := [nearStop]
  commutes := []
  destinations := []
  events := []

/-- The cell of the address opens with the carriage return, the rent is blank, and one minute is
exported where two are reported. -/
theorem export_loses_zero :
    (¬∀ file ∈ freeListing.exportListings id none, ∀ row ∈ file.readBack epochTexts,
      ∀ cell ∈ row, Inert cell) ∧
    ¬BlankIfNull epochTexts (listingsFile (freeListing.listingRows none)) "monthly_rent_dollars"
      ((freeListing.listingRows none).map fun row => row.listing.monthlyRentMinor) ∧
    ¬AgreesWithTransit epochTexts id freeListing
      (freeListing.transitRows id (freeListing.exportedIds none)) ∧
    ¬FaithfulExport epochTexts id freeListing none := by
  have blank : ¬∀ row ∈ freeListing.listingRows none, row.listing.monthlyRentMinor ≠ some 0 := by
    decide
  refine ⟨fun inert => ?_, fun null => blank (rents_iff.mp null), fun agrees => ?_,
    fun faithful => blank (rents_iff.mp faithful.rents)⟩
  · exact absurd (inert_export.mp inert) (by decide)
  · have half := ((minutes_iff.mp agrees) _ List.mem_cons_self).2 90 rfl
    exact absurd half (by decide)

end RentalAgent
