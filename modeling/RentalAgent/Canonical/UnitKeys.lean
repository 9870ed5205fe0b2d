import Mathlib.Data.List.Induction
import RentalAgent.Canonical.Durability
import RentalAgent.Foundation.Letters

/-! # One key for each unit label

`unit_fingerprint` takes one designator off the start of a label and then deletes white space,
hyphens, dots and number signs, so the fingerprint is what the label keeps of its characters
without the letters of that designator (`unitFingerprint_eq`). A designator that stands behind
another one or behind a number sign is kept, and a fingerprint can begin with a designator
that the next call takes off. The fingerprint is a normal form exactly where neither happens,
and labels with different characters and without designators never share one
(`unit_fingerprint_normal_iff`).
-/

namespace RentalAgent

/-! ## Upper case -/

/-- `str.upper`: each character becomes capitals for itself, in the ascii range its own
capital, and white space stays. -/
structure UnicodeTables.Uppercases (unicode : UnicodeTables) : Prop where
  append : ∀ first second, unicode.upper (first ++ second) =
    unicode.upper first ++ unicode.upper second
  settled : ∀ text, ∀ c ∈ unicode.upper text, unicode.upper [c] = [c]
  ascii : ∀ c : Char, c.toNat < 128 → unicode.upper [c] = [c.toUpper]
  spaces : ∀ c, isSpace c = true → unicode.upper [c] = [c]

namespace UnicodeTables.Uppercases

variable {unicode : UnicodeTables} (capitals : unicode.Uppercases)

include capitals

theorem empty : unicode.upper [] = [] := by
  have twice := congrArg List.length (capitals.append [] [])
  rw [List.append_nil, List.length_append] at twice
  exact List.eq_nil_of_length_eq_zero (by omega)

/-- Characters that are their own capitals are a text that is. -/
theorem eq_self {text : List Char} (fixed : ∀ c ∈ text, unicode.upper [c] = [c]) :
    unicode.upper text = text := by
  induction text with
  | nil => exact capitals.empty
  | cons c rest ih =>
      obtain ⟨here, later⟩ := List.forall_mem_cons.mp fixed
      rw [← List.singleton_append, capitals.append, here, ih later]

/-- ASCII texts have the upper case of their letters. -/
theorem ascii_text {text : List Char} (ascii : ∀ c ∈ text, c.toNat < 128) :
    unicode.upper text = text.map Char.toUpper := by
  induction text with
  | nil => exact capitals.empty
  | cons c rest ih =>
      obtain ⟨here, later⟩ := List.forall_mem_cons.mp ascii
      rw [← List.singleton_append, capitals.append, capitals.ascii c here, ih later]
      rfl

end UnicodeTables.Uppercases

/-! ## The characters of a label -/

/-- The label without case, white space, hyphens, dots and number signs. -/
def unitKey (unicode : UnicodeTables) (raw : List Char) : List Char :=
  (unicode.upper raw).filter fun c => !isUnitPunctuation c

/-- The designator that a text in upper case starts with, if any. -/
def leadingDesignator (text : List Char) : List Char :=
  (unitDesignators.find? (·.isPrefixOf text)).getD []

/-- The designator that a label starts with, after white space and in any case. -/
def unitLead (unicode : UnicodeTables) (raw : List Char) : List Char :=
  leadingDesignator (strip (unicode.upper raw))

theorem designators_prefix_free : ∀ first ∈ unitDesignators, ∀ second ∈ unitDesignators,
    first <+: second → first = second := by decide

theorem designator_letters : ∀ designator ∈ unitDesignators, designator ≠ [] ∧
    designator.all (fun c => !isUnitPunctuation c) = true := by decide

variable {unicode : UnicodeTables} {text designator : List Char}

theorem leadingDesignator_starts (text : List Char) : leadingDesignator text <+: text := by
  unfold leadingDesignator
  cases found : unitDesignators.find? (·.isPrefixOf text) with
  | none => exact List.nil_prefix
  | some designator =>
      exact List.isPrefixOf_iff_prefix.mp (List.find?_eq_some_iff_append.mp found).1

/-- At most one designator starts a text. -/
theorem leadingDesignator_eq (listed : designator ∈ unitDesignators)
    (starts : designator <+: text) : leadingDesignator text = designator := by
  unfold leadingDesignator
  cases found : unitDesignators.find? (·.isPrefixOf text) with
  | none =>
      have none := List.find?_eq_none.mp found designator listed
      exact absurd (List.isPrefixOf_iff_prefix.mpr starts) none
  | some other =>
      have begins : other <+: text :=
        List.isPrefixOf_iff_prefix.mp (List.find?_eq_some_iff_append.mp found).1
      have member := List.mem_of_find?_eq_some found
      rcases List.prefix_or_prefix_of_prefix begins starts with shorter | longer
      · exact designators_prefix_free other member designator listed shorter
      · exact (designators_prefix_free designator listed other member longer).symm

/-- A label has no leading designator when it starts with none of them. -/
theorem leadingDesignator_eq_nil : leadingDesignator text = [] ↔
    ∀ designator ∈ unitDesignators, ¬designator <+: text := by
  constructor
  · intro empty designator listed starts
    rw [leadingDesignator_eq listed starts] at empty
    exact (designator_letters designator listed).1 empty
  · intro without
    unfold leadingDesignator
    rw [List.find?_eq_none.mpr fun designator listed starts =>
      without designator listed (List.isPrefixOf_iff_prefix.mp starts)]
    rfl

/-! ## The fingerprint of a label -/

/-- Dropping characters that are filtered out anyway changes nothing. -/
theorem filter_dropWhile {kept dropped : Char → Bool}
    (apart : ∀ c, dropped c = true → kept c = false) (text : List Char) :
    (text.dropWhile dropped).filter kept = text.filter kept := by
  induction text with
  | nil => rfl
  | cons c rest ih =>
      cases drops : dropped c with
      | true => rw [List.dropWhile_cons_of_pos drops, ih, List.filter_cons_of_neg (by
          simp [apart c drops])]
      | false => rw [List.dropWhile_cons_of_neg (by simp [drops])]

theorem unitPunctuation_of_space (c : Char) (space : isSpace c = true) :
    (!isUnitPunctuation c) = false := by simp [isUnitPunctuation, space]

theorem filter_strip (text : List Char) :
    (strip text).filter (fun c => !isUnitPunctuation c) =
      text.filter fun c => !isUnitPunctuation c := by
  rw [strip, List.rdropWhile, List.filter_reverse,
    filter_dropWhile unitPunctuation_of_space, ← List.filter_reverse, List.reverse_reverse,
    filter_dropWhile unitPunctuation_of_space]

/-- The letters of a designator are kept. -/
theorem filter_designator (listed : designator ∈ unitDesignators) :
    designator.filter (fun c => !isUnitPunctuation c) = designator :=
  List.filter_eq_self.mpr (List.all_eq_true.mp (designator_letters designator listed).2)

/-- Dropping the designator drops its letters from the key. -/
theorem filter_dropDesignator (text : List Char) :
    (dropDesignator text).filter (fun c => !isUnitPunctuation c) =
      (text.filter fun c => !isUnitPunctuation c).drop (leadingDesignator text).length := by
  unfold dropDesignator leadingDesignator
  cases found : unitDesignators.find? (·.isPrefixOf text) with
  | none => rfl
  | some designator =>
      obtain ⟨rest, rfl⟩ :=
        List.isPrefixOf_iff_prefix.mp (List.find?_eq_some_iff_append.mp found).1
      simp only [Option.getD_some, List.drop_left, List.filter_append,
        filter_designator (List.mem_of_find?_eq_some found)]
      rw [filter_dropWhile unitPunctuation_of_space]
      cases rest with
      | nil => rfl
      | cons c rest =>
          by_cases dot : c = '.'
          · subst dot
            rfl
          · simp [dot]

/-- The fingerprint is the characters of the label behind its designator. -/
theorem unitFingerprint_eq (unicode : UnicodeTables) (raw : String) :
    (unitFingerprint unicode raw).toList =
      (unitKey unicode raw.toList).drop (unitLead unicode raw.toList).length := by
  rw [unitFingerprint, String.toList_ofList, filter_dropDesignator, filter_strip]
  rfl

/-- The designator that a label starts with is the start of its characters. -/
theorem unitLead_prefix (unicode : UnicodeTables) (raw : List Char) :
    unitLead unicode raw <+: unitKey unicode raw := by
  have starts := (leadingDesignator_starts (strip (unicode.upper raw))).filter
    fun c => !isUnitPunctuation c
  rw [filter_strip] at starts
  have letters : (unitLead unicode raw).filter (fun c => !isUnitPunctuation c) =
      unitLead unicode raw := by
    unfold unitLead leadingDesignator
    cases found : unitDesignators.find? (·.isPrefixOf (strip (unicode.upper raw))) with
    | none => rfl
    | some designator => exact filter_designator (List.mem_of_find?_eq_some found)
  rwa [← letters]

/-- What stays of the characters is all of them when the label starts with no designator. -/
theorem drop_lead_inj {key lead : List Char} (starts : lead <+: key) :
    key.drop lead.length = key ↔ lead = [] := by
  constructor
  · intro same
    have length := congrArg List.length same
    rw [List.length_drop] at length
    have short := starts.length_le
    exact List.eq_nil_of_length_eq_zero (by omega)
  · rintro rfl
    rfl

/-! ## The fingerprint of a fingerprint -/

/-- A text without white space is as it is stripped. -/
theorem strip_of_no_space {text : List Char} (solid : ∀ c ∈ text, isSpace c = false) :
    strip text = text := by
  have starts : text.dropWhile isSpace = text := by
    cases text with
    | nil => rfl
    | cons c rest => exact List.dropWhile_cons_of_neg (by simp [solid c List.mem_cons_self])
  rw [strip, starts, List.rdropWhile_eq_self_iff]
  exact fun present => by simp [solid _ (List.getLast_mem present)]

/-- A text of kept capitals is its own characters. -/
theorem unitKey_of_kept (capitals : unicode.Uppercases) {raw : List Char}
    (kept : ∀ c ∈ text, c ∈ unitKey unicode raw) :
    unitKey unicode text = text ∧ unitLead unicode text = leadingDesignator text := by
  have same : unicode.upper text = text := capitals.eq_self fun c member =>
    capitals.settled raw c (List.mem_filter.mp (kept c member)).1
  have solid : ∀ c ∈ text, (!isUnitPunctuation c) = true := fun c member =>
    (List.mem_filter.mp (kept c member)).2
  refine ⟨by rw [unitKey, same, List.filter_eq_self.mpr solid], ?_⟩
  rw [unitLead, same, strip_of_no_space]
  intro c member
  cases space : isSpace c with
  | false => rfl
  | true =>
      have kept := solid c member
      rw [unitPunctuation_of_space c space] at kept
      cases kept

/-- The fingerprint of a fingerprint is the same exactly when no designator comes behind the
one that the label starts with. -/
theorem unitFingerprint_idem_iff (capitals : unicode.Uppercases) (raw : String) :
    unitFingerprint unicode (unitFingerprint unicode raw) = unitFingerprint unicode raw ↔
      ∀ designator ∈ unitDesignators,
        ¬unitLead unicode raw.toList ++ designator <+: unitKey unicode raw.toList := by
  obtain ⟨kept, whole⟩ := unitLead_prefix unicode raw.toList
  have read : (unitFingerprint unicode raw).toList = kept := by
    rw [unitFingerprint_eq, ← whole, List.drop_left]
  have members : ∀ c ∈ kept, c ∈ unitKey unicode raw.toList := fun c member =>
    whole ▸ List.mem_append_right _ member
  obtain ⟨key, lead⟩ := unitKey_of_kept capitals members
  rw [← String.toList_inj, unitFingerprint_eq, read, key, lead,
    drop_lead_inj (leadingDesignator_starts kept), leadingDesignator_eq_nil, ← whole]
  simp only [List.prefix_append_right_inj]

/-! ## Marks before a label -/

/-- A designator word, written in any case. -/
structure DesignatorWord where
  written : List Char
  listed : written.map Char.toUpper ∈ unitDesignators

/-- A designator word, with a dot or without, or a number sign. -/
inductive UnitMark
  | word (designator : DesignatorWord) (dotted : Bool)
  | sign

/-- A mark and the white space behind it. -/
structure MarkBefore where
  mark : UnitMark
  spaces : List Char
  blank : ∀ c ∈ spaces, isSpace c = true

/-- How a mark is written. -/
def UnitMark.chars : UnitMark → List Char
  | .word designator dotted => designator.written ++ if dotted then ['.'] else []
  | .sign => ['#']

/-- The designator of a mark. -/
def UnitMark.letters : UnitMark → List Char
  | .word designator _ => designator.written.map Char.toUpper
  | .sign => []

def MarkBefore.chars (before : MarkBefore) : List Char := before.mark.chars ++ before.spaces

/-- How a sequence of marks is written. -/
def marksChars (marks : List MarkBefore) : List Char := marks.flatMap MarkBefore.chars

/-- The designators of a sequence of marks. -/
def marksLetters (marks : List MarkBefore) : List Char := marks.flatMap (·.mark.letters)

/-- A character with an ascii capital is an ascii character. -/
theorem ascii_of_toUpper {c : Char} (capital : c.toUpper.toNat < 128) : c.toNat < 128 := by
  cases small : c.isLower with
  | true => exact Nat.lt_of_le_of_lt (Letters.isLower_iff.mp small).2 (by decide)
  | false => rwa [Letters.toUpper_of_not_isLower small] at capital

theorem designator_ascii : ∀ designator ∈ unitDesignators,
    designator.all (fun c => decide (c.toNat < 128)) = true := by decide

theorem upper_written (capitals : unicode.Uppercases) (word : DesignatorWord) :
    unicode.upper word.written = word.written.map Char.toUpper := by
  refine capitals.ascii_text fun c member => ascii_of_toUpper ?_
  have ascii := List.all_eq_true.mp (designator_ascii _ word.listed) c.toUpper
    (List.mem_map_of_mem member)
  simpa using ascii

theorem upper_spaces (capitals : unicode.Uppercases) {spaces : List Char}
    (blank : ∀ c ∈ spaces, isSpace c = true) : unicode.upper spaces = spaces :=
  capitals.eq_self fun c member => capitals.spaces c (blank c member)

/-- The upper case of a mark is its designator and characters that are deleted. -/
theorem upper_mark (capitals : unicode.Uppercases) (before : MarkBefore) :
    ∃ deleted, unicode.upper before.chars = before.mark.letters ++ deleted ∧
      deleted.filter (fun c => !isUnitPunctuation c) = [] := by
  obtain ⟨mark, spaces, blank⟩ := before
  have gone : spaces.filter (fun c => !isUnitPunctuation c) = [] :=
    List.filter_eq_nil_iff.mpr fun c member => by simp [unitPunctuation_of_space c (blank c member)]
  have dot : unicode.upper ['.'] = ['.'] := capitals.ascii '.' (by decide)
  have hash : unicode.upper ['#'] = ['#'] := capitals.ascii '#' (by decide)
  rw [MarkBefore.chars, capitals.append, upper_spaces capitals blank]
  cases mark with
  | word designator dotted =>
      rw [UnitMark.chars, capitals.append, upper_written capitals designator, List.append_assoc]
      refine ⟨_, rfl, ?_⟩
      cases dotted with
      | true =>
          change (unicode.upper ['.'] ++ spaces).filter _ = []
          rw [dot]
          exact (List.filter_cons_of_neg (by decide)).trans gone
      | false =>
          change (unicode.upper [] ++ spaces).filter _ = []
          rw [capitals.empty]
          exact gone
  | sign =>
      refine ⟨'#' :: spaces, by rw [UnitMark.chars, hash]; rfl, ?_⟩
      exact (List.filter_cons_of_neg (by decide)).trans gone

/-- A mark adds its designator to the characters. -/
theorem unitKey_mark (capitals : unicode.Uppercases) (before : MarkBefore) (label : List Char) :
    unitKey unicode (before.chars ++ label) = before.mark.letters ++ unitKey unicode label := by
  obtain ⟨deleted, upper, gone⟩ := upper_mark capitals before
  have letters : before.mark.letters.filter (fun c => !isUnitPunctuation c) =
      before.mark.letters := by
    cases before.mark with
    | word designator dotted => exact filter_designator designator.listed
    | sign => rfl
  rw [unitKey, capitals.append, upper, List.filter_append, List.filter_append, letters, gone,
    List.append_nil]
  rfl

/-- Marks before a label put their letters before its key. -/
theorem unitKey_marks (capitals : unicode.Uppercases) (marks : List MarkBefore)
    (label : List Char) : unitKey unicode (marksChars marks ++ label) =
      marksLetters marks ++ unitKey unicode label := by
  induction marks with
  | nil => rfl
  | cons before rest ih =>
      have split : marksChars (before :: rest) ++ label =
          before.chars ++ (marksChars rest ++ label) := by
        simp [marksChars]
      rw [split, unitKey_mark capitals, ih, ← List.append_assoc]
      rfl

/-- Stripping keeps a start without white space. -/
theorem prefix_strip {front text : List Char} (solid : ∀ c ∈ front, isSpace c = false)
    (starts : front <+: text) : front <+: strip text := by
  obtain ⟨rest, rfl⟩ := starts
  cases front with
  | nil => exact List.nil_prefix
  | cons c more =>
      have first : isSpace c = false := solid c List.mem_cons_self
      rw [strip, List.cons_append, List.dropWhile_cons_of_neg (by simp [first]),
        ← List.cons_append]
      induction rest using List.reverseRecOn with
      | nil =>
          have ends : (c :: more).rdropWhile isSpace = c :: more :=
            List.rdropWhile_eq_self_iff.mpr fun present => by
              simp [solid _ (List.getLast_mem present)]
          have whole : (c :: more ++ []).rdropWhile isSpace = c :: more := by
            rw [List.append_nil, ends]
          exact whole.symm ▸ List.prefix_rfl
      | append_singleton rest last ih =>
          rw [← List.append_assoc, List.rdropWhile_concat]
          split
          case isTrue => exact ih
          case isFalse => exact (List.prefix_append _ _).trans (List.prefix_append _ _)

/-- No designator has white space in it. -/
theorem not_space_of_designator (listed : designator ∈ unitDesignators) :
    ∀ c ∈ designator, isSpace c = false := by
  intro c member
  have letter := List.all_eq_true.mp (designator_letters designator listed).2 c member
  cases space : isSpace c with
  | false => rfl
  | true =>
      rw [unitPunctuation_of_space c space] at letter
      cases letter

/-- A label with marks starts with the designator of the first mark. -/
theorem unitLead_mark (capitals : unicode.Uppercases) (before : MarkBefore)
    (label : List Char) :
    unitLead unicode (before.chars ++ label) = before.mark.letters := by
  rw [unitLead, capitals.append, MarkBefore.chars, capitals.append, List.append_assoc]
  cases before.mark with
  | word designator dotted =>
      rw [UnitMark.chars, capitals.append, upper_written capitals designator, List.append_assoc]
      refine leadingDesignator_eq designator.listed ?_
      exact prefix_strip (not_space_of_designator designator.listed) (List.prefix_append _ _)
  | sign =>
      have hash : unicode.upper ['#'] = ['#'] := capitals.ascii '#' (by decide)
      rw [UnitMark.chars, hash]
      have signed :
          ['#'] <+: strip (['#'] ++ (unicode.upper before.spaces ++ unicode.upper label)) :=
        prefix_strip (List.forall_mem_singleton.mpr (by decide)) (List.prefix_append _ _)
      refine leadingDesignator_eq_nil.mpr fun designator listed starts => ?_
      -- a designator does not start with a number sign
      have apart : ∀ designator ∈ unitDesignators, ¬['#'] <+: designator ∧
          ¬designator <+: ['#'] := by decide
      rcases List.prefix_or_prefix_of_prefix signed starts with sign | word
      · exact (apart designator listed).1 sign
      · exact (apart designator listed).2 word

theorem letters_eq_nil {mark : UnitMark} : mark.letters = [] ↔ mark = .sign := by
  cases mark with
  | word designator dotted =>
      exact iff_of_false (designator_letters _ designator.listed).1 (by rintro ⟨⟩)
  | sign => exact iff_of_true rfl rfl

/-- Marks before a label do not change the fingerprint exactly when there are none, or only
the first is a word and the label starts with no designator. -/
theorem unitFingerprint_marks_iff (capitals : unicode.Uppercases) (marks : List MarkBefore)
    (label : List Char) :
    unitFingerprint unicode (String.ofList (marksChars marks ++ label)) =
        unitFingerprint unicode (String.ofList label) ↔
      marks = [] ∨ (∀ before ∈ marks.tail, before.mark = .sign) ∧
        unitLead unicode label = [] := by
  cases marks with
  | nil => simp [marksChars]
  | cons first rest =>
      have split : marksChars (first :: rest) ++ label =
          first.chars ++ (marksChars rest ++ label) := by
        simp [marksChars]
      rw [← String.toList_inj, unitFingerprint_eq, unitFingerprint_eq, String.toList_ofList,
        String.toList_ofList, split, unitLead_mark capitals, unitKey_mark capitals,
        unitKey_marks capitals, List.drop_left]
      have starts := unitLead_prefix unicode label
      have words : marksLetters rest = [] ↔ ∀ before ∈ rest, before.mark = .sign := by
        rw [marksLetters, List.flatMap_eq_nil_iff]
        exact forall₂_congr fun before _ => letters_eq_nil
      simp only [reduceCtorEq, false_or, List.tail_cons, ← words]
      constructor
      · intro same
        have length := congrArg List.length same
        rw [List.length_append, List.length_drop] at length
        have none : marksLetters rest = [] := List.eq_nil_of_length_eq_zero (by omega)
        rw [none, List.nil_append] at same
        exact ⟨none, (drop_lead_inj starts).mp same.symm⟩
      · rintro ⟨none, plain⟩
        rw [none, plain]
        rfl

/-! ## A normal form -/

/-- **Unit fingerprints as a normal form.** The fingerprint of a fingerprint is the same
exactly when no designator comes behind the one that the label starts with; marks before a
label do not change it exactly when only the first is a word and the label starts with no
designator; and labels that start with no designator and differ in their characters have
different fingerprints. -/
theorem unit_fingerprint_normal_iff (unicode : UnicodeTables) (capitals : unicode.Uppercases) :
    (∀ raw, unitFingerprint unicode (unitFingerprint unicode raw) = unitFingerprint unicode raw ↔
      ∀ designator ∈ unitDesignators,
        ¬unitLead unicode raw.toList ++ designator <+: unitKey unicode raw.toList) ∧
    (∀ marks label, unitFingerprint unicode (String.ofList (marksChars marks ++ label)) =
        unitFingerprint unicode (String.ofList label) ↔
      marks = [] ∨ (∀ before ∈ marks.tail, before.mark = .sign) ∧
        unitLead unicode label = []) ∧
    ∀ first second : String, unitLead unicode first.toList = [] →
      unitLead unicode second.toList = [] →
        unitKey unicode first.toList ≠ unitKey unicode second.toList →
          unitFingerprint unicode first ≠ unitFingerprint unicode second := by
  refine ⟨unitFingerprint_idem_iff capitals, unitFingerprint_marks_iff capitals, ?_⟩
  intro first second plain bare different same
  have read := congrArg String.toList same
  rw [unitFingerprint_eq, unitFingerprint_eq, plain, bare] at read
  exact different read

/-- The capitals of ascii texts are those of `str.upper`. -/
theorem ascii_uppercases : Database.asciiTables.Uppercases where
  append first second := List.map_append
  settled text c member := by
    obtain ⟨letter, -, rfl⟩ := List.mem_map.mp member
    exact congrArg (fun c => [c]) (Letters.toUpper_of_not_isLower Letters.isLower_toUpper)
  ascii c _ := rfl
  spaces c space := by
    refine congrArg (fun c => [c]) (Letters.toUpper_of_not_isLower ?_)
    refine Bool.eq_false_iff.mpr fun small => ?_
    have range := Letters.isLower_iff.mp small
    simp [isSpace] at space
    omega

/-- The fingerprint of an apartment is normal. -/
theorem unit_fingerprint_normal_apartment :
    Database.asciiTables.Uppercases ∧
      unitFingerprint Database.asciiTables (unitFingerprint Database.asciiTables "APT 4A") =
        unitFingerprint Database.asciiTables "APT 4A" :=
  ⟨ascii_uppercases,
    ((unit_fingerprint_normal_iff Database.asciiTables ascii_uppercases).1 "APT 4A").mpr
      (by decide)⟩

/-- A number sign before the designator keeps it, and the fingerprint begins with it. -/
theorem sign_keeps_designator :
    (¬∀ raw, unitFingerprint Database.asciiTables (unitFingerprint Database.asciiTables raw) =
      unitFingerprint Database.asciiTables raw) ∧
    ¬∀ marks label, unitFingerprint Database.asciiTables
        (String.ofList (marksChars marks ++ label)) =
      unitFingerprint Database.asciiTables (String.ofList label) := by
  constructor
  · intro settled
    exact absurd (settled "#APT 4A") (by decide)
  · intro settled
    exact absurd (settled [⟨.sign, [], List.forall_mem_nil _⟩] "APT 4A".toList) (by decide)

end RentalAgent
