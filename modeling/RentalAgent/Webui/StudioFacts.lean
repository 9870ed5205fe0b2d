import Mathlib.Data.List.Infix
import RentalAgent.Canonical.Durability
import RentalAgent.Enrichment.ListingContent
import RentalAgent.Foundation.Spans

/-! # The laundry of a Studio post

The facts of a post name the machines of a home in two lines: the laundry line translates the
laundry type of the listing, and the amenity line translates the labels of the current
amenities fact, each by the first needle of a table that it contains. Neither asks for the
badge, as the label of the detail page does (`laundryLabel_advertises`). The lines stay behind
the badge exactly when the type is not the confirmed one and no label comes to the needles of
a washer or a dryer first (`studio_laundry_behind_badge_iff`): a dishwasher is a washer there,
and its own needle is never reached (`no_label_reads_dishwasher`).
-/

namespace RentalAgent

/-! ## The tables -/

/-- `LAUNDRY_ZH.get`. -/
def laundryZh : LaundryType → Option String
  | .inUnitWasherDryerConfirmed => some "室内洗烘（已确认）"
  | .inUnitWasherOnly => some "室内洗衣机"
  | .inUnitDryerOnly => some "室内烘干机"
  | .inUnitHookupOnly => some "洗烘接口"
  | .buildingSharedLaundry => some "楼内洗衣房"
  | .offsiteOrNearbyLaundry => some "附近有洗衣店"
  | .explicitlyNoLaundry => some "无洗衣设施"
  | .noLaundryStated | .conflicting | .unknown => none

/-- `_AMENITY_ZH`: a needle in lower case and its label. -/
def amenityZh : List (String × String) :=
  [("fitness", "健身房"), ("gym", "健身房"), ("doorman", "门卫"), ("concierge", "礼宾服务"),
    ("elevator", "电梯"), ("laundry", "洗衣房"), ("washer", "室内洗烘"), ("dryer", "室内洗烘"),
    ("dishwasher", "洗碗机"), ("roof", "屋顶露台"), ("terrace", "露台"), ("balcon", "阳台"),
    ("pool", "泳池"), ("parking", "车库停车"), ("garage", "车库停车"), ("bike", "自行车房"),
    ("storage", "储物间"), ("package", "快递室"), ("mail", "快递室"), ("super", "驻楼super"),
    ("pet", "可养宠物"), ("playground", "儿童游乐区"), ("lounge", "住户休息室"),
    ("media", "影音室"), ("theater", "影音室"), ("yoga", "瑜伽房"), ("sauna", "桑拿"),
    ("bbq", "烧烤区"), ("grill", "烧烤区"), ("garden", "花园"), ("courtyard", "庭院"),
    ("shuttle", "班车"), ("business center", "商务中心"), ("coworking", "共享办公区"),
    ("hardwood", "木地板"), ("stainless", "不锈钢厨电"), ("central air", "中央空调"),
    ("air condition", "空调"), ("heat", "暖气"), ("wifi", "WiFi"), ("valet", "代客泊车"),
    ("spa", "水疗"), ("tennis", "网球场"), ("basketball", "篮球场"),
    ("playroom", "儿童活动室"), ("game", "游戏室"), ("golf", "高尔夫模拟室"),
    ("dry clean", "干洗服务")]

/-- The first entry of a table whose needle a text in lower case contains. -/
def firstEntry (table : List (String × String)) (lowered : List Char) :
    Option (String × String) :=
  table.find? fun entry => occursIn entry.1.toList lowered

/-- One round of `_translate`: the label of the first entry, when it is new. -/
def addTranslation (unicode : UnicodeTables) (table : List (String × String))
    (seen : List String) (item : String) : List String :=
  match firstEntry table (unicode.lower item.toList) with
  | some (_, zh) => if zh ∈ seen then seen else seen ++ [zh]
  | none => seen

/-- `_translate`: the labels of the first entries, each once; an item without an entry is
dropped. -/
def translate (unicode : UnicodeTables) (items : List String) (table : List (String × String)) :
    List String :=
  items.foldl (addTranslation unicode table) []

/-- `amenities_zh`. -/
def amenitiesZh (unicode : UnicodeTables) (amenities : List String) : List String :=
  translate unicode amenities amenityZh

/-! ## The lines -/

/-- An entry of `fact_history`. -/
structure HistoryEntry where
  value : JsonScalar
  status : ValueStatus
  derivation : DerivationType
  confidence : Confidence
  evidence : Option String
  assertedAt : Timestamp
  current : Bool

namespace Database

/-- The assertions that the standing resolutions of a listing point to. -/
def currentIds (db : Database) (listingId : Uuid) : List (Option Uuid) :=
  (db.resolutions.filter fun row => row.entityId = listingId && row.supersededAt = none).map
    FactResolution.effectiveAssertionId

/-- `fact_history(...).get(fact_key, [])`: the assertions under a key, the latest first. -/
def factHistory (db : Database) (scan : Uuid → Nat) (listingId : Uuid) (factKey : String) :
    List HistoryEntry :=
  (((db.assertions.filter fun row => row.entityId = listingId).insertionSort
      fun first second => second.assertedAt < first.assertedAt ∨
        second.assertedAt = first.assertedAt ∧
          scan first.factAssertionId ≤ scan second.factAssertionId).filter
    fun row => row.factKey = factKey).map fun row =>
      { value := row.valueJson
        status := row.valueStatus
        derivation := row.derivationType
        confidence := row.confidence
        evidence := row.evidenceText
        assertedAt := row.assertedAt
        current := some row.factAssertionId ∈ db.currentIds listingId }

end Database

/-- The laundry line of `generate_post_action`. -/
def laundryLine (listing : CanonicalListing) : Option String :=
  (laundryZh listing.laundryType).map fun laundry => "洗衣设施: " ++ laundry

/-- The amenity line of `generate_post_action`, from the history of the amenities fact. -/
def amenityLine (unicode : UnicodeTables) (history : List HistoryEntry) : Option String :=
  match (history.find? (·.current)).map HistoryEntry.value with
  | some (.texts labels) =>
      match amenitiesZh unicode labels with
      | [] => none
      | translated => some ("楼内设施（房源页面明确列出）: " ++ "、".intercalate translated)
  | _ => none

/-- The two lines in which the facts of `generate_post_action` name what a home has. -/
def Database.facilityLines (db : Database) (env : Environment) (listing : CanonicalListing) :
    List String :=
  (laundryLine listing).toList ++
    (amenityLine env.unicode
      (db.factHistory env.scan listing.canonicalListingId "amenities")).toList

/-! ## The label of the detail page -/

/-- `LAUNDRY_LABELS`. -/
def laundryLabels : LaundryType → String
  | .inUnitWasherDryerConfirmed => "室内洗烘 (confirmed in-unit W/D)"
  | .inUnitWasherOnly => "In-unit washer only"
  | .inUnitDryerOnly => "In-unit dryer only"
  | .inUnitHookupOnly => "Hookups only"
  | .buildingSharedLaundry => "Building laundry"
  | .offsiteOrNearbyLaundry => "Laundry nearby/offsite"
  | .noLaundryStated => "No laundry stated"
  | .explicitlyNoLaundry => "Explicitly no laundry"
  | .conflicting => "Conflicting laundry evidence"
  | .unknown => "Laundry unknown"

/-- `laundry_label`: the confirmed type is only named behind the badge. -/
def laundryLabel (laundryType : LaundryType) (badgeEligible : Bool) : String :=
  if laundryType = .inUnitWasherDryerConfirmed ∧ badgeEligible = false then
    "In-unit W/D (pending validation)"
  else laundryLabels laundryType

/-! ## What a line advertises -/

/-- The text names a washer and a dryer in the home. -/
def Advertises (text : String) : Prop := "室内洗烘".toList <:+: text.toList

instance (text : String) : Decidable (Advertises text) :=
  inferInstanceAs (Decidable (List.IsInfix _ _))

/-- The needles that are looked for before a washer. -/
def needlesBeforeWasher : List String :=
  ["fitness", "gym", "doorman", "concierge", "elevator", "laundry"]

/-- A label with a washer or a dryer in it, and with no needle that is looked for before. -/
def ReadsAsMachines (unicode : UnicodeTables) (label : String) : Prop :=
  (occursIn "washer".toList (unicode.lower label.toList) = true ∨
      occursIn "dryer".toList (unicode.lower label.toList) = true) ∧
    ∀ needle ∈ needlesBeforeWasher, occursIn needle.toList (unicode.lower label.toList) = false

/-- The labels of the current assertion of a history, when it has a list of them. -/
def currentLabels (history : List HistoryEntry) : List String :=
  match (history.find? (·.current)).map HistoryEntry.value with
  | some (.texts labels) => labels
  | _ => []

variable {unicode : UnicodeTables} {table : List (String × String)} {labels : List String}
  {zh : String}

theorem mem_of_firstEntry {lowered : List Char} {entry : String × String}
    (found : firstEntry table lowered = some entry) :
    entry ∈ table ∧ occursIn entry.1.toList lowered = true := by
  unfold firstEntry at found
  exact ⟨List.mem_of_find?_eq_some found, (List.find?_eq_some_iff_append.mp found).1⟩

/-- A translation is added when the first entry that matches the label gives it. -/
theorem mem_addTranslation (seen : List String) (label : String) :
    zh ∈ addTranslation unicode table seen label ↔
      zh ∈ seen ∨ ∃ entry ∈ firstEntry table (unicode.lower label.toList), entry.2 = zh := by
  unfold addTranslation
  cases firstEntry table (unicode.lower label.toList) with
  | none => simp
  | some entry =>
      by_cases known : entry.2 ∈ seen
      · simp only [known, ↓reduceIte, Option.mem_some_iff, exists_eq_left']
        exact ⟨.inl, fun either => either.elim id fun same => same ▸ known⟩
      · simp [known, eq_comm]

/-- The labels are those of the first entries of the items. -/
theorem mem_translate : zh ∈ translate unicode labels table ↔
    ∃ label ∈ labels, ∃ entry ∈ firstEntry table (unicode.lower label.toList), entry.2 = zh := by
  have step : ∀ seen, zh ∈ labels.foldl (addTranslation unicode table) seen ↔ zh ∈ seen ∨
      ∃ label ∈ labels, ∃ entry ∈ firstEntry table (unicode.lower label.toList),
        entry.2 = zh := by
    induction labels with
    | nil => simp
    | cons label rest ih =>
        intro seen
        rw [List.foldl_cons, ih, mem_addTranslation, or_assoc, List.exists_mem_cons_iff]
  rw [translate, step []]
  exact or_iff_right List.not_mem_nil

/-! ## The amenity table -/

theorem amenityZh_split : amenityZh = amenityZh.take 6 ++
    ("washer", "室内洗烘") :: ("dryer", "室内洗烘") :: amenityZh.drop 8 := rfl

theorem needles_before : (amenityZh.take 6).map Prod.fst = needlesBeforeWasher := rfl

theorem quiet_before : ∀ entry ∈ amenityZh.take 6, ¬Advertises entry.2 := by decide +kernel

theorem quiet_behind : ∀ entry ∈ amenityZh.drop 8, ¬Advertises entry.2 := by decide +kernel

/-- The label that a text comes to advertises exactly when the text has a washer or a dryer
in it, and no needle that is looked for before. -/
theorem firstEntry_advertises (lowered : List Char) :
    (∃ entry ∈ firstEntry amenityZh lowered, Advertises entry.2) ↔
      (occursIn "washer".toList lowered = true ∨ occursIn "dryer".toList lowered = true) ∧
        ∀ needle ∈ needlesBeforeWasher, occursIn needle.toList lowered = false := by
  rw [firstEntry, amenityZh_split, List.find?_append, ← needles_before, List.forall_mem_map]
  cases early : (amenityZh.take 6).find? fun entry => occursIn entry.1.toList lowered with
  | some entry =>
      have member := List.mem_of_find?_eq_some early
      have found := List.find?_some early
      simp only [Option.some_or, Option.mem_some_iff, exists_eq_left']
      refine ⟨fun loud => absurd loud (quiet_before entry member), fun ⟨_, without⟩ => ?_⟩
      exact absurd found (Bool.eq_false_iff.mp (without entry member))
  | none =>
      have without : ∀ entry ∈ amenityZh.take 6, occursIn entry.1.toList lowered = false :=
        fun entry member => Bool.eq_false_iff.mpr (List.find?_eq_none.mp early entry member)
      have loud : Advertises "室内洗烘" := List.infix_rfl
      simp only [Option.none_or, List.find?_cons]
      by_cases washer : occursIn "washer".toList lowered = true
      · simp only [washer, Option.mem_some_iff, exists_eq_left', true_or, true_and]
        exact iff_of_true loud without
      · by_cases dryer : occursIn "dryer".toList lowered = true
        · simp only [washer, dryer, Option.mem_some_iff, exists_eq_left', or_true, true_and]
          exact iff_of_true loud without
        · simp only [washer, dryer, or_self, Bool.false_eq_true, false_and, iff_false]
          rintro ⟨entry, found, loud⟩
          exact quiet_behind entry (List.mem_of_find?_eq_some found) loud

/-- A text with a washer in it comes to the entry of the washer or to one before it. -/
theorem firstEntry_of_washer {lowered : List Char} {entry : String × String}
    (washer : occursIn "washer".toList lowered = true)
    (found : firstEntry amenityZh lowered = some entry) : entry ∈ amenityZh.take 7 := by
  have reached : ((amenityZh.take 7).find? fun entry => occursIn entry.1.toList lowered).isSome :=
    List.find?_isSome.mpr ⟨("washer", "室内洗烘"), by decide, washer⟩
  obtain ⟨first, early⟩ := Option.isSome_iff_exists.mp reached
  rw [firstEntry, ← List.take_append_drop 7 amenityZh, List.find?_append, early,
    Option.some_or] at found
  cases found
  exact List.mem_of_find?_eq_some early

/-- A dishwasher has a washer in it, so its own needle is never reached. -/
theorem no_label_reads_dishwasher (labels : List String) :
    "洗碗机" ∉ amenitiesZh unicode labels := by
  intro member
  obtain ⟨label, -, entry, found, dishes⟩ := mem_translate.mp member
  have own : ∀ entry ∈ amenityZh, entry.2 = "洗碗机" → entry.1 = "dishwasher" := by decide +kernel
  obtain ⟨listed, inside⟩ := mem_of_firstEntry found
  have part : "washer".toList <:+: "dishwasher".toList := by decide +kernel
  rw [own entry listed dishes, occursIn_iff] at inside
  have before := firstEntry_of_washer (occursIn_iff.mpr (part.trans inside)) found
  have others : ∀ entry ∈ amenityZh.take 7, entry.2 ≠ "洗碗机" := by decide +kernel
  exact others entry before dishes

/-! ## The lines -/

theorem advertises_laundryLine {listing : CanonicalListing} :
    (∃ line ∈ laundryLine listing, Advertises line) ↔
      listing.laundryType = .inUnitWasherDryerConfirmed := by
  unfold laundryLine
  cases listing.laundryType <;> decide +kernel

/-- Where the label of the detail page advertises, the listing has the badge. -/
theorem laundryLabel_advertises {laundryType : LaundryType} {badgeEligible : Bool} :
    Advertises (laundryLabel laundryType badgeEligible) → badgeEligible = true := by
  cases laundryType <;> cases badgeEligible <;> decide +kernel

/-- Amenities advertise machines just when some label reads as machines. -/
theorem advertises_amenitiesZh : (∃ zh ∈ amenitiesZh unicode labels, Advertises zh) ↔
    ∃ label ∈ labels, ReadsAsMachines unicode label := by
  have read : ∀ label, ReadsAsMachines unicode label ↔
      ∃ entry ∈ firstEntry amenityZh (unicode.lower label.toList), Advertises entry.2 :=
    fun label => (firstEntry_advertises _).symm
  simp only [amenitiesZh, mem_translate, read]
  constructor
  · rintro ⟨zh, ⟨label, member, entry, found, rfl⟩, loud⟩
    exact ⟨label, member, entry, found, loud⟩
  · rintro ⟨label, member, entry, found, loud⟩
    exact ⟨entry.2, ⟨label, member, entry, found, rfl⟩, loud⟩

/-- What is joined with commas advertises where a part of it does. -/
theorem advertises_joined (parts : List String) :
    Advertises ("楼内设施（房源页面明确列出）: " ++ "、".intercalate parts) ↔
      ∃ part ∈ parts, Advertises part := by
  have title : "楼内设施（房源页面明确列出）: ".toList =
      "楼内设施（房源页面明确列出）:".toList ++ [' '] := by decide +kernel
  have silent : ¬"室内洗烘".toList <:+: "楼内设施（房源页面明确列出）:".toList := by decide +kernel
  rw [Advertises, String.toList_append, title, List.append_assoc, List.singleton_append,
    Spans.infix_append_mark (by decide +kernel), or_iff_right silent, String.toList_intercalate]
  rw [show "、".toList = ['、'] from rfl,
    Spans.infix_intercalate_mark (by decide +kernel) (by decide +kernel)]
  simp only [List.mem_map, exists_exists_and_eq_and]
  rfl

/-- The line of amenities is made of the translated labels. -/
theorem amenityLine_eq (history : List HistoryEntry) : amenityLine unicode history =
    match amenitiesZh unicode (currentLabels history) with
    | [] => none
    | translated => some ("楼内设施（房源页面明确列出）: " ++ "、".intercalate translated) := by
  unfold amenityLine currentLabels
  cases (history.find? (·.current)).map HistoryEntry.value with
  | none => rfl
  | some value => cases value <;> rfl

/-- The amenity line advertises when one of the labels that are listed reads as machines. -/
theorem advertises_amenityLine {history : List HistoryEntry} :
    (∃ line ∈ amenityLine unicode history, Advertises line) ↔
      ∃ label ∈ currentLabels history, ReadsAsMachines unicode label := by
  rw [amenityLine_eq, ← advertises_amenitiesZh]
  cases amenitiesZh unicode (currentLabels history) with
  | nil => simp
  | cons zh rest =>
      rw [← advertises_joined]
      simp only [Option.mem_some_iff, exists_eq_left']

/-- The facility lines advertise machines just when the listing is confirmed or some label reads
as machines. -/
theorem advertises_facilityLines {env : Environment} {db : Database}
    {listing : CanonicalListing} :
    (∃ line ∈ db.facilityLines env listing, Advertises line) ↔
      listing.laundryType = .inUnitWasherDryerConfirmed ∨
        ∃ label ∈ currentLabels (db.factHistory env.scan listing.canonicalListingId "amenities"),
          ReadsAsMachines env.unicode label := by
  simp only [Database.facilityLines, List.mem_append, Option.mem_toList, or_and_right, exists_or]
  exact or_congr advertises_laundryLine advertises_amenityLine

/-- **The lines stay behind the badge.** The laundry line and the amenity line only advertise
machines in the home of a listing with the badge, exactly when it has the badge, or its type
is not the confirmed one and no label of its current amenities reads as machines. -/
theorem studio_laundry_behind_badge_iff (env : Environment) (db : Database)
    (listing : CanonicalListing) :
    ((∃ line ∈ db.facilityLines env listing, Advertises line) →
        listing.indoorLaundryBadgeEligible = true) ↔
      listing.indoorLaundryBadgeEligible = true ∨
        (listing.laundryType ≠ .inUnitWasherDryerConfirmed ∧
          ∀ label ∈ currentLabels
              (db.factHistory env.scan listing.canonicalListingId "amenities"),
            ¬ReadsAsMachines env.unicode label) := by
  rw [advertises_facilityLines, imp_iff_or_not, not_or]
  simp only [ne_eq, not_exists, not_and]

/-! ## A dishwasher that advertises a washer -/

/-- An active listing without a laundry type and without the badge. -/
def silentListing : CanonicalListing where
  canonicalListingId := 1
  buildingId := 2
  unitId := none
  layoutClass := .studio
  monthlyRentMinor := none
  availabilityStatus := .unknown
  lifecycleStatus := .active
  laundryType := .unknown
  indoorLaundryBadgeEligible := false
  descriptionCurrent := none
  firstSeenAt := 0
  lastSeenAt := 0
  lastMaterialChangeAt := 0
  inactiveAt := none
  canonicalResolutionStatus := .resolved

/-- Ascii texts, and rows scanned in one order. -/
def asciiStudio : Environment := ⟨countingIds, Database.asciiTables, fun _ => 0⟩

/-- The page of a listing without the badge lists a dishwasher, and the amenity line advertises
a washer and a dryer in the home. -/
theorem dishwasher_advertises_washer : ∃ db written,
    ({ Database.empty with listings := [silentListing] }).recordPageAmenities countingIds 0
        silentListing { amenities := ["Dishwasher"] } = .ok (db, written) ∧
      (∃ line ∈ db.facilityLines asciiStudio silentListing, Advertises line) ∧
      silentListing.indoorLaundryBadgeEligible = false :=
  ⟨_, _, rfl, by decide +kernel, rfl⟩

end RentalAgent
