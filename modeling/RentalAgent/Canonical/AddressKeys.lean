import RentalAgent.Canonical.UnitKeys
import RentalAgent.Enrichment.CompanyCheck
import RentalAgent.Foundation.Lowering
import RentalAgent.Foundation.Words

/-! # One key for each address

`address_fingerprint` lowers the address, makes spaces of its marks, abbreviates thirteen words
one after the other and collapses the spaces. No abbreviation is abbreviated again and every
one of them is a word, so the chain rewrites each word once (`foldl_replaceWord`), and the
fingerprint is the words of the address joined with spaces (`addressFingerprint_eq`). It is its
own fingerprint, and letters in another case, separators at the ends and abbreviations do not
count. The lower case of a capital sigma, however, depends on what stands around it, and a dot
is looked past while white space is not: a run of dots is not always as good as another run of
separators (`address_fingerprint_normal_iff`).
-/

namespace RentalAgent

open Relational Words Lowering Lowering.CaseTables

/-! ## Texts without repeated spaces -/

section Spaces

variable {c : Char} {text front back word : List Char}

/-- A character that is no white space. -/
def isSolid (c : Char) : Bool := !isSpace c

theorem splitWords_append_cons (space : isSpace c = true) :
    splitWords (front ++ c :: back) = splitWords front ++ splitWords back := by
  rw [splitWords, List.splitOnP_append_cons _ _ space, List.filter_append]
  rfl

theorem splitWords_solid (solid : IsWord isSolid word) :
    splitWords word = if word = [] then [] else [word] := by
  have one : word.splitOnP isSpace = [word] :=
    List.splitOnP_eq_singleton fun c member => by simpa [isSolid] using solid c member
  rw [splitWords, one]
  by_cases empty : word = [] <;> simp [empty]

/-- A text without white space has no word but itself. -/
theorem eq_of_mem_splitWords_solid (solid : IsWord isSolid text) (member : word ∈ splitWords text) :
    text ≠ [] ∧ word = text := by
  rw [splitWords_solid solid] at member
  split at member
  · cases member
  · rename_i present
    exact ⟨present, List.mem_singleton.mp member⟩

/-- A word that a text is split into is not empty and has no white space. -/
theorem mem_splitWords (member : word ∈ splitWords text) : word ≠ [] ∧ IsWord isSolid word := by
  induction text using word_induction isSolid with
  | whole whole solid =>
      obtain ⟨present, rfl⟩ := eq_of_mem_splitWords_solid solid member
      exact ⟨present, solid⟩
  | step first c rest solid space ih =>
      rw [splitWords_append_cons (by simpa [isSolid] using space), List.mem_append] at member
      rcases member with here | later
      · obtain ⟨present, rfl⟩ := eq_of_mem_splitWords_solid solid here
        exact ⟨present, solid⟩
      · exact ih later

/-- The letters of a word are letters of the text. -/
theorem subset_of_mem_splitWords (member : word ∈ splitWords text) : word ⊆ text := by
  induction text using word_induction isSolid with
  | whole whole solid =>
      obtain ⟨-, rfl⟩ := eq_of_mem_splitWords_solid solid member
      exact List.Subset.refl _
  | step first c rest solid space ih =>
      rw [splitWords_append_cons (by simpa [isSolid] using space), List.mem_append] at member
      rcases member with here | later
      · obtain ⟨-, rfl⟩ := eq_of_mem_splitWords_solid solid here
        exact List.subset_append_left _ _
      · exact fun d inside =>
          List.mem_append_right first (List.mem_cons_of_mem c (ih later inside))

/-- The words of texts that are joined with spaces are these texts. -/
theorem splitWords_intercalate {words : List (List Char)}
    (proper : ∀ word ∈ words, word ≠ [] ∧ IsWord isSolid word) :
    splitWords ([' '].intercalate words) = words := by
  induction words with
  | nil => rfl
  | cons word rest ih =>
      obtain ⟨⟨present, solid⟩, later⟩ := List.forall_mem_cons.mp proper
      have one : splitWords word = [word] := by rw [splitWords_solid solid, if_neg present]
      cases rest with
      | nil => rw [List.intercalate_singleton, one]
      | cons next more =>
          rw [List.intercalate_cons_cons, List.append_assoc, List.singleton_append,
            splitWords_append_cons (by decide), one, ih later]
          rfl

/-- Joined words have the letters of the words and spaces. -/
theorem mem_intercalate {words : List (List Char)} (member : c ∈ [' '].intercalate words) :
    c = ' ' ∨ ∃ word ∈ words, c ∈ word := by
  induction words with
  | nil => cases member
  | cons word rest ih =>
      cases rest with
      | nil =>
          rw [List.intercalate_singleton] at member
          exact .inr ⟨word, List.mem_cons_self, member⟩
      | cons next more =>
          rw [List.intercalate_cons_cons, List.mem_append, List.mem_append] at member
          rcases member with (inside | blank) | later
          · exact .inr ⟨word, List.mem_cons_self, inside⟩
          · exact .inl (List.mem_singleton.mp blank)
          · refine (ih later).imp_right fun ⟨part, listed, inside⟩ => ?_
            exact ⟨part, List.mem_cons_of_mem word listed, inside⟩

/-! ### Collapsing -/

/-- Collapsing spaces leaves a word without them as it is. -/
theorem collapseSpaces_solid (solid : IsWord isSolid word) (inSpace : Bool) (text : List Char) :
    collapseSpaces inSpace (word ++ text) =
      word ++ collapseSpaces (inSpace && word.isEmpty) text := by
  induction word generalizing inSpace with
  | nil => simp
  | cons c rest ih =>
      obtain ⟨here, later⟩ := List.forall_mem_cons.mp solid
      have solidHere : isSpace c = false := by simpa [isSolid] using here
      have rest := ih later false
      rw [Bool.false_and] at rest
      simp [collapseSpaces, solidHere, rest]

/-- Behind white space no white space comes. -/
theorem collapseSpaces_starts (text : List Char) :
    (collapseSpaces true text).dropWhile isSpace = collapseSpaces true text := by
  induction text with
  | nil => rfl
  | cons c rest ih =>
      rw [collapseSpaces]
      cases space : isSpace c with
      | true => simpa [space] using ih
      | false => simp [space]

/-- What is dropped at the end reaches into the front only when the back is dropped whole. -/
theorem rdropWhile_append (p : Char → Bool) (front back : List Char) :
    (front ++ back).rdropWhile p =
      if back.rdropWhile p = [] then front.rdropWhile p else front ++ back.rdropWhile p := by
  rw [List.rdropWhile, List.reverse_append, List.dropWhile_append]
  simp only [List.rdropWhile, List.reverse_eq_nil_iff, List.isEmpty_iff]
  split
  · rfl
  · rw [List.reverse_append, List.reverse_reverse]

theorem strip_solid (solid : IsWord isSolid word) : strip word = word :=
  strip_of_no_space fun c member => by simpa [isSolid] using solid c member

/-- Collapsed and stripped, a text is its words joined with spaces. -/
theorem strip_collapseSpaces (inSpace : Bool) (text : List Char) :
    strip (collapseSpaces inSpace text) = [' '].intercalate (splitWords text) := by
  induction text using word_induction isSolid generalizing inSpace with
  | whole word solid =>
      have same := collapseSpaces_solid solid inSpace []
      rw [List.append_nil] at same
      rw [same, collapseSpaces, List.append_nil, strip_solid solid, splitWords_solid solid]
      split
      · rename_i empty
        exact empty
      · exact (List.intercalate_singleton).symm
  | step word c rest solid other ih =>
      have space : isSpace c = true := by simpa [isSolid] using other
      rw [splitWords_append_cons space, splitWords_solid solid]
      cases word with
      | nil =>
          cases inSpace with
          | true => simpa [collapseSpaces, space] using ih true
          | false =>
              have pass : strip (' ' :: collapseSpaces true rest) =
                  strip (collapseSpaces true rest) := rfl
              simpa [collapseSpaces, space, pass] using ih true
      | cons first more =>
          have here : isSpace first = false := by simpa [isSolid] using solid first (by simp)
          have tail := ih true
          rw [strip, collapseSpaces_starts] at tail
          have shape : collapseSpaces inSpace (first :: more ++ c :: rest) =
              first :: more ++ ([' '] ++ collapseSpaces true rest) := by
            rw [collapseSpaces_solid solid]
            simp [collapseSpaces, space]
          have whole : (first :: more).rdropWhile isSpace = first :: more := by
            have same := strip_solid solid
            rwa [strip, List.dropWhile_cons_of_neg (by simp [here])] at same
          rw [shape, strip, List.cons_append, List.dropWhile_cons_of_neg (by simp [here]),
            ← List.cons_append, rdropWhile_append, rdropWhile_append, whole, tail]
          cases words : splitWords rest with
          | nil =>
              have blank : isSpace ' ' = true := by decide
              simp [List.rdropWhile_singleton, blank]
          | cons next later =>
              have proper : next ≠ [] := (mem_splitWords (words ▸ List.mem_cons_self)).1
              have present : [' '].intercalate (next :: later) ≠ [] := by
                cases later with
                | nil => simpa using proper
                | cons other others => simp [List.intercalate_cons_cons]
              simp [present, List.intercalate_cons_cons]

end Spaces

/-! ## The words of an address -/

/-- Dots, commas and number signs become spaces. -/
def spaced (text : List Char) : List Char :=
  text.map fun c => if c = '.' || c = ',' || c = '#' then ' ' else c

/-- The abbreviation of an entry in place of its word. -/
def abbreviateOne (entry : List Char × List Char) (word : List Char) : List Char :=
  if word = entry.1 then entry.2 else word

/-- A word is abbreviated by each entry in turn. -/
def abbreviateBy (table : List (List Char × List Char)) (word : List Char) : List Char :=
  table.foldl (fun word entry => abbreviateOne entry word) word

/-- A word with its abbreviation, when it has one. -/
def abbreviate (word : List Char) : List Char := abbreviateBy addressReplacements word

/-- The words of an address in lower case. -/
def addressWords (unicode : UnicodeTables) (lowered : List Char) : List (List Char) :=
  (splitWords (spaced lowered)).map (rewrite unicode.isWord abbreviate)

/-- White space, a dot, a comma or a number sign. -/
def isSeparator (c : Char) : Bool := isSpace c || c = '.' || c = ',' || c = '#'

/-- What the class of word characters says of ascii letters and of separators. -/
structure UnicodeTables.ReadsWords (unicode : UnicodeTables) : Prop where
  letters : ∀ c : Char, c.toNat < 128 → c.isAlpha = true → unicode.isWord c = true
  separators : ∀ c, isSeparator c = true → unicode.isWord c = false

section Abbreviating

variable {unicode : UnicodeTables} {c : Char} {text front back word : List Char}
  {table : List (List Char × List Char)}

theorem abbreviateBy_cons (entry : List Char × List Char) :
    abbreviateBy (entry :: table) word = abbreviateBy table (abbreviateOne entry word) := rfl

/-- Abbreviating a word gives a word. -/
theorem isWord_abbreviateOne {isWord : Char → Bool} {entry : List Char × List Char}
    (short : IsWord isWord entry.2) (proper : IsWord isWord word) :
    IsWord isWord (abbreviateOne entry word) := by
  unfold abbreviateOne
  split
  · exact short
  · exact proper

/-- A word that no entry is about stays. -/
theorem abbreviateBy_of_not_mem (other : ∀ entry ∈ table, word ≠ entry.1) :
    abbreviateBy table word = word := by
  induction table with
  | nil => rfl
  | cons entry rest ih =>
      obtain ⟨here, later⟩ := List.forall_mem_cons.mp other
      rw [abbreviateBy_cons, abbreviateOne, if_neg here, ih later]

/-- Abbreviating by entries of words makes words of words. -/
theorem isWord_abbreviateBy {isWord : Char → Bool}
    (entries : ∀ entry ∈ table, IsWord isWord entry.2) (proper : IsWord isWord word) :
    IsWord isWord (abbreviateBy table word) := by
  induction table generalizing word with
  | nil => exact proper
  | cons entry rest ih =>
      obtain ⟨here, later⟩ := List.forall_mem_cons.mp entries
      exact ih later (isWord_abbreviateOne here proper)

/-- The rewrites of the words, one after the other, are one rewriting. -/
theorem foldl_replaceWord (entries : ∀ entry ∈ table, entry.1 ≠ [] ∧
      IsWord unicode.isWord entry.1 ∧ IsWord unicode.isWord entry.2) (text : List Char) :
    table.foldl (fun text entry => replaceWord unicode entry.1 entry.2 text) text =
      rewrite unicode.isWord (abbreviateBy table) text := by
  induction table generalizing text with
  | nil => exact (rewrite_self (fun _ _ => rfl) text).symm
  | cons entry rest ih =>
      obtain ⟨⟨present, wordOne, wordTwo⟩, later⟩ := List.forall_mem_cons.mp entries
      have empty : abbreviateOne entry [] = [] := if_neg (Ne.symm present)
      have leaves : ∀ run, (∀ c ∈ run, unicode.isWord c = false) →
          abbreviateOne entry run = run := by
        refine fun run others => if_neg fun same => ?_
        cases head : entry.1 with
        | nil => exact present head
        | cons c more =>
            have member : c ∈ entry.1 := head ▸ List.mem_cons_self
            have apart := others c (same ▸ member)
            rw [wordOne c member] at apart
            cases apart
      have one : replaceWord unicode entry.1 entry.2 text =
          rewrite unicode.isWord (abbreviateOne entry) text :=
        flatten_map_splitBy empty leaves text
      rw [List.foldl_cons, one, ih later,
        rewrite_rewrite fun word proper => isWord_abbreviateOne wordTwo proper]
      rfl

/-! ### The listed words -/

/-- The entries are ascii words in lower case, and no abbreviation is abbreviated again. -/
theorem listed_words : ∀ entry ∈ addressReplacements, entry.1 ≠ [] ∧ entry.2 ≠ [] ∧
    (entry.1 ++ entry.2).all (fun c => decide (c.toNat < 128) && c.isAlpha && !c.isUpper) = true ∧
      abbreviate entry.1 = entry.2 ∧ abbreviate entry.2 = entry.2 := by decide

/-- A word is abbreviated by one replacement or kept. -/
theorem abbreviate_cases (word : List Char) : abbreviate word = word ∨
    ∃ entry ∈ addressReplacements, word = entry.1 ∧ abbreviate word = entry.2 := by
  by_cases listed : ∃ entry ∈ addressReplacements, word = entry.1
  · obtain ⟨entry, member, rfl⟩ := listed
    exact .inr ⟨entry, member, rfl, (listed_words entry member).2.2.2.1⟩
  · refine .inl (abbreviateBy_of_not_mem fun entry member same => ?_)
    exact listed ⟨entry, member, same⟩

theorem abbreviate_abbreviate (word : List Char) :
    abbreviate (abbreviate word) = abbreviate word := by
  rcases abbreviate_cases word with same | ⟨entry, member, -, short⟩
  · rw [same, same]
  · rw [short]
    exact (listed_words entry member).2.2.2.2

theorem abbreviate_ne_nil (word : List Char) (present : word ≠ []) : abbreviate word ≠ [] := by
  rcases abbreviate_cases word with same | ⟨entry, member, -, short⟩
  · exact same.symm ▸ present
  · exact short.symm ▸ (listed_words entry member).2.1

/-- The characters of listed words and of their abbreviations. -/
theorem listed_letter {entry : List Char × List Char} (member : entry ∈ addressReplacements)
    (inside : c ∈ entry.1 ++ entry.2) :
    c.toNat < 128 ∧ c.isAlpha = true ∧ c.isUpper = false := by
  have letter := List.all_eq_true.mp (listed_words entry member).2.2.1 c inside
  simpa [and_assoc] using letter

/-- The replacements are of words by words. -/
theorem isWord_listed (reads : unicode.ReadsWords) {entry : List Char × List Char}
    (member : entry ∈ addressReplacements) :
    IsWord unicode.isWord entry.1 ∧ IsWord unicode.isWord entry.2 := by
  have letters : IsWord unicode.isWord (entry.1 ++ entry.2) := fun c inside => by
    obtain ⟨ascii, alpha, -⟩ := listed_letter member inside
    exact reads.letters c ascii alpha
  exact ⟨fun c inside => letters c (List.mem_append_left _ inside),
    fun c inside => letters c (List.mem_append_right _ inside)⟩

theorem isWord_abbreviate (reads : unicode.ReadsWords) (word : List Char)
    (proper : IsWord unicode.isWord word) : IsWord unicode.isWord (abbreviate word) :=
  isWord_abbreviateBy (fun _ member => (isWord_listed reads member).2) proper

/-- A character of a rewritten text is one of the text or a small ascii letter. -/
theorem mem_rewrite_abbreviate (member : c ∈ rewrite unicode.isWord abbreviate text) :
    c ∈ text ∨ c.toNat < 128 ∧ c.isAlpha = true ∧ c.isUpper = false := by
  rcases mem_rewrite member with inside | ⟨word, -, within, inside⟩
  · exact .inl inside
  · rcases abbreviate_cases word with same | ⟨entry, listed, -, short⟩
    · exact .inl (within (same ▸ inside))
    · exact .inr (listed_letter listed (List.mem_append_right _ (short ▸ inside)))

/-! ### Words joined with spaces -/

/-- A letter of a word is solid. -/
theorem solid_of_isWord (reads : unicode.ReadsWords) (letter : unicode.isWord c = true) :
    isSolid c = true := by
  cases space : isSpace c with
  | false => simp [isSolid, space]
  | true =>
      rw [reads.separators c (by simp [isSeparator, space])] at letter
      cases letter

/-- Where there is no white space, abbreviating and splitting can be swapped. -/
theorem splitWords_rewrite_solid (reads : unicode.ReadsWords) (solid : IsWord isSolid word) :
    splitWords (rewrite unicode.isWord abbreviate word) =
      (splitWords word).map (rewrite unicode.isWord abbreviate) := by
  have stays : IsWord isSolid (rewrite unicode.isWord abbreviate word) := by
    intro c member
    rcases mem_rewrite member with inside | ⟨part, proper, -, inside⟩
    · exact solid c inside
    · exact solid_of_isWord reads (isWord_abbreviate reads part proper c inside)
  rw [splitWords_solid solid, splitWords_solid stays]
  by_cases empty : word = []
  · subst empty
    rfl
  · rw [if_neg empty, if_neg (rewrite_ne_nil abbreviate_ne_nil empty)]
    rfl

/-- Rewriting the words of a text rewrites what stands between its spaces. -/
theorem splitWords_rewrite (reads : unicode.ReadsWords) (text : List Char) :
    splitWords (rewrite unicode.isWord abbreviate text) =
      (splitWords text).map (rewrite unicode.isWord abbreviate) := by
  induction text using word_induction isSolid with
  | whole word solid => exact splitWords_rewrite_solid reads solid
  | step word c rest solid other ih =>
      have space : isSpace c = true := by simpa [isSolid] using other
      have apart : unicode.isWord c = false := reads.separators c (by simp [isSeparator, space])
      rw [rewrite_append_cons apart, splitWords_append_cons space, splitWords_append_cons space,
        splitWords_rewrite_solid reads solid, ih, List.map_append]

/-! ### Whole words -/

theorem isWord_spaced (reads : unicode.ReadsWords) (other : unicode.isWord c = false) :
    unicode.isWord (if c = '.' || c = ',' || c = '#' then ' ' else c) = false := by
  split
  · exact reads.separators ' ' (by decide)
  · exact other

/-- A text without marks is left alone when marks are spaced. -/
theorem spaced_eq_self (unmarked : ∀ c ∈ text, c ≠ '.' ∧ c ≠ ',' ∧ c ≠ '#') :
    spaced text = text := by
  induction text with
  | nil => rfl
  | cons c rest ih =>
      obtain ⟨⟨noDot, noComma, noSign⟩, later⟩ := List.forall_mem_cons.mp unmarked
      have first : spaced (c :: rest) =
          (if c = '.' || c = ',' || c = '#' then ' ' else c) :: spaced rest := rfl
      rw [first, ih later, if_neg (by simp [noDot, noComma, noSign])]

/-- No mark stands in a word. -/
theorem spaced_word (reads : unicode.ReadsWords) (proper : IsWord unicode.isWord word) :
    spaced word = word := by
  have solid : ∀ c ∈ word, isSeparator c = false := fun c member => by
    cases separator : isSeparator c with
    | false => rfl
    | true =>
        have letter := proper c member
        rw [reads.separators c separator] at letter
        cases letter
  refine spaced_eq_self fun c member => ?_
  have noMark := solid c member
  simp only [isSeparator, Bool.or_eq_false_iff, decide_eq_false_iff_not] at noMark
  exact ⟨noMark.1.1.2, noMark.1.2, noMark.2⟩

/-- A whole word of an address is abbreviated where it stands. -/
theorem addressWords_word (reads : unicode.ReadsWords) (proper : IsWord unicode.isWord word)
    (ends : EndsOpen unicode.isWord front) (starts : StartsOpen unicode.isWord back) :
    addressWords unicode (front ++ (word ++ back)) =
      splitWords (rewrite unicode.isWord abbreviate (spaced front) ++
        (abbreviate word ++ rewrite unicode.isWord abbreviate (spaced back))) := by
  have endsToo : EndsOpen unicode.isWord (spaced front) := by
    rw [EndsOpen, spaced, List.getLast?_map]
    rintro d member
    obtain ⟨c, last, rfl⟩ := Option.map_eq_some_iff.mp member
    exact isWord_spaced reads (ends c last)
  have startsToo : StartsOpen unicode.isWord (spaced back) := by
    rw [StartsOpen, spaced, List.head?_map]
    rintro d member
    obtain ⟨c, first, rfl⟩ := Option.map_eq_some_iff.mp member
    exact isWord_spaced reads (starts c first)
  have parts : spaced (front ++ (word ++ back)) = spaced front ++ (word ++ spaced back) := by
    rw [spaced, List.map_append, List.map_append]
    exact congrArg (fun word => spaced front ++ (word ++ spaced back)) (spaced_word reads proper)
  have empty : abbreviate [] = [] := by decide
  rw [addressWords, ← splitWords_rewrite reads, parts,
    rewrite_between empty proper endsToo startsToo]

/-! ### Runs of separators -/

/-- A separator parts the words of an address text. -/
theorem addressWords_append_cons (separator : isSeparator c = true) :
    addressWords unicode (front ++ c :: back) =
      addressWords unicode front ++ addressWords unicode back := by
  have space : isSpace (if c = '.' || c = ',' || c = '#' then ' ' else c) = true := by
    split
    · decide
    · rename_i other
      simp only [isSeparator, Bool.or_eq_true, decide_eq_true_eq] at separator other
      tauto
  rw [addressWords, spaced, List.map_append, List.map_cons, splitWords_append_cons space,
    List.map_append]
  rfl

/-- Separators at the front add no words. -/
theorem addressWords_run {run : List Char} (separators : ∀ c ∈ run, isSeparator c = true) :
    addressWords unicode (run ++ back) = addressWords unicode back := by
  induction run with
  | nil => rfl
  | cons c rest ih =>
      obtain ⟨here, later⟩ := List.forall_mem_cons.mp separators
      rw [List.cons_append, ← ih later]
      exact (addressWords_append_cons here : addressWords unicode ([] ++ c :: (rest ++ back)) = _)

/-- Between two parts of an address any run of separators is as good as another. -/
theorem addressWords_between {run : List Char} (present : run ≠ [])
    (separators : ∀ c ∈ run, isSeparator c = true) :
    addressWords unicode (front ++ (run ++ back)) =
      addressWords unicode front ++ addressWords unicode back := by
  cases run with
  | nil => exact absurd rfl present
  | cons c rest =>
      obtain ⟨here, later⟩ := List.forall_mem_cons.mp separators
      rw [List.cons_append, addressWords_append_cons here, addressWords_run later]

/-- Separators at the end add no word. -/
theorem addressWords_append_run {run : List Char}
    (separators : ∀ c ∈ run, isSeparator c = true) :
    addressWords unicode (front ++ run) = addressWords unicode front := by
  cases run with
  | nil => rw [List.append_nil]
  | cons c rest =>
      have whole : addressWords unicode (front ++ (c :: rest ++ [])) =
          addressWords unicode front ++ addressWords unicode [] :=
        addressWords_between (List.cons_ne_nil c rest) separators
      rw [List.append_nil] at whole
      exact whole.trans (List.append_nil _)

/-- White space around a text adds no word. -/
theorem addressWords_strip (text : List Char) :
    addressWords unicode (strip text) = addressWords unicode text := by
  have before : ∀ c ∈ text.takeWhile isSpace, isSeparator c = true := fun c member => by
    simp [isSeparator, List.mem_takeWhile_imp member]
  have behind : ∀ c ∈ (text.dropWhile isSpace).rtakeWhile isSpace, isSeparator c = true :=
    fun c member => by simp [isSeparator, List.mem_rtakeWhile_imp member]
  calc addressWords unicode (strip text)
      = addressWords unicode (strip text ++ (text.dropWhile isSpace).rtakeWhile isSpace) :=
        (addressWords_append_run behind).symm
    _ = addressWords unicode (text.dropWhile isSpace) := by
        rw [strip, List.rdropWhile_append_rtakeWhile]
    _ = addressWords unicode (text.takeWhile isSpace ++ text.dropWhile isSpace) :=
        (addressWords_run before).symm
    _ = addressWords unicode text := by rw [List.takeWhile_append_dropWhile]

/-- The fingerprint is the words of the address, joined with spaces. -/
theorem addressFingerprint_eq (reads : unicode.ReadsWords) (raw : String) :
    addressFingerprint unicode raw =
      String.ofList ([' '].intercalate (addressWords unicode (unicode.lower raw.toList))) := by
  rw [← addressWords_strip, addressWords, ← splitWords_rewrite reads]
  have entries : ∀ entry ∈ addressReplacements, entry.1 ≠ [] ∧
      IsWord unicode.isWord entry.1 ∧ IsWord unicode.isWord entry.2 := fun entry member =>
    ⟨(listed_words entry member).1, isWord_listed reads member⟩
  have rewrites := foldl_replaceWord entries (spaced (strip (unicode.lower raw.toList)))
  have collapsed :=
    congrArg (fun text => String.ofList (strip (collapseSpaces false text))) rewrites
  exact collapsed.trans (congrArg String.ofList (strip_collapseSpaces false _))

/-! ### The small sigmas of a fingerprint -/

/-- Joining words with spaces keeps the sigmas. -/
theorem sigmas_intercalate (words : List (List Char)) :
    sigmas ([' '].intercalate words) = sigmas words.flatten := by
  induction words with
  | nil => rfl
  | cons word rest ih =>
      cases rest with
      | nil => simp
      | cons next more =>
          have gone : sigmas [' '] = [] := rfl
          rw [List.intercalate_cons_cons, sigmas_append, sigmas_append, ih, gone,
            List.append_nil, ← sigmas_append]
          rfl

/-- No abbreviation has a sigma, so abbreviating keeps them. -/
theorem sigmas_rewrite (text : List Char) :
    sigmas (rewrite unicode.isWord abbreviate text) = sigmas text := by
  have plain : ∀ entry ∈ addressReplacements, sigmas entry.1 = [] ∧ sigmas entry.2 = [] := by
    decide
  have same : ∀ word, sigmas (abbreviate word) = sigmas word := fun word => by
    rcases abbreviate_cases word with same | ⟨entry, member, rfl, short⟩
    · rw [same]
    · rw [short, (plain entry member).1, (plain entry member).2]
  induction text using word_induction unicode.isWord with
  | whole word proper => rw [rewrite_word proper, same]
  | step word c rest proper other ih =>
      rw [rewrite_append_cons other, rewrite_word proper, sigmas_append, sigmas_append, same,
        sigmas_cons, ih, ← sigmas_cons]

/-- Splitting a text keeps its sigmas. -/
theorem sigmas_splitWords (text : List Char) : sigmas (splitWords text).flatten = sigmas text := by
  have solid_flatten : ∀ word, IsWord isSolid word → (splitWords word).flatten = word := by
    intro word solid
    rw [splitWords_solid solid]
    split
    · rename_i empty
      exact empty.symm
    · exact List.append_nil word
  induction text using word_induction isSolid with
  | whole word solid => rw [solid_flatten word solid]
  | step word c rest solid other ih =>
      have space : isSpace c = true := by simpa [isSolid] using other
      have gone : sigmas [c] = [] := by
        refine List.filter_eq_nil_iff.mpr fun d member => ?_
        cases List.mem_singleton.mp member
        intro small
        simp only [Bool.or_eq_true, decide_eq_true_eq] at small
        rcases small with rfl | rfl <;> exact absurd space (by decide)
      rw [splitWords_append_cons space, List.flatten_append, sigmas_append, sigmas_append, ih,
        solid_flatten word solid, sigmas_cons, gone, List.nil_append]

/-- A fingerprint has the small sigmas of the address in lower case. -/
theorem sigmas_addressWords (lowered : List Char) :
    sigmas ([' '].intercalate (addressWords unicode lowered)) = sigmas lowered := by
  have apart : ∀ words : List (List Char),
      sigmas (words.map (rewrite unicode.isWord abbreviate)).flatten = sigmas words.flatten := by
    intro words
    induction words with
    | nil => rfl
    | cons word rest ih =>
        rw [List.map_cons, List.flatten_cons, List.flatten_cons, sigmas_append, sigmas_append,
          sigmas_rewrite, ih]
  have kept : sigmas (spaced lowered) = sigmas lowered := by
    induction lowered with
    | nil => rfl
    | cons c rest ih =>
        have one : sigmas (spaced [c]) = sigmas [c] := by
          by_cases mark : c = '.' ∨ c = ',' ∨ c = '#'
          · rcases mark with rfl | rfl | rfl <;> rfl
          · simp only [not_or] at mark
            simp [spaced, mark]
        have split : spaced (c :: rest) = spaced [c] ++ spaced rest := rfl
        rw [split, sigmas_append, one, ih, ← sigmas_cons]
  rw [sigmas_intercalate, addressWords, apart, sigmas_splitWords, kept]

end Abbreviating

/-! ## Lower case -/

/-- `str.lower` and `\w`: a final sigma is told by what stands around it, lower case stays, in
the ascii range it is the small letter, separators stay and are not cased, a dot alone of them
is looked past, and a character outside of words becomes such characters. -/
structure UnicodeTables.Lowercases (unicode : UnicodeTables) (tables : CaseTables) : Prop where
  lower : unicode.lower = tables.lower
  reads : unicode.ReadsWords
  settled : ∀ c, ∀ d ∈ tables.lowerChar c, tables.lowerChar d = [d] ∧ d ≠ 'Σ'
  small_sigmas : tables.lowerChar 'σ' = ['σ'] ∧ tables.lowerChar 'ς' = ['ς']
  ascii : ∀ c : Char, c.toNat < 128 → tables.lowerChar c = [c.toLower]
  letters : ∀ c : Char, c.toNat < 128 → c.isAlpha = true →
    tables.cased c = true ∧ tables.ignorable c = false
  separators : ∀ c, isSeparator c = true → tables.lowerChar c = [c] ∧ tables.cased c = false ∧
    (tables.ignorable c = true ↔ c = '.')
  others : ∀ c, unicode.isWord c = false → tables.lowerChar c ≠ [] ∧
    ∀ d ∈ tables.lowerChar c, unicode.isWord d = false
  sigma_word : unicode.isWord 'Σ' = true

section Lower

variable {unicode : UnicodeTables} {tables : CaseTables} {before after : Bool} {c d : Char}
  {text other front back run word : List Char}

/-- Lower case stays. -/
theorem lowerIn_eq_self (small : ∀ c ∈ text, tables.lowerChar c = [c] ∧ c ≠ 'Σ') :
    tables.lowerIn before after text = text := by
  induction text generalizing before with
  | nil => rfl
  | cons c rest ih =>
      obtain ⟨⟨same, notSigma⟩, later⟩ := List.forall_mem_cons.mp small
      rw [CaseTables.lowerIn, lowerAt_of_ne notSigma, same, ih later]
      rfl

/-- A text in lower case consists of characters that stay. -/
theorem mem_lowerIn (lowers : unicode.Lowercases tables)
    (member : d ∈ tables.lowerIn before after text) : tables.lowerChar d = [d] ∧ d ≠ 'Σ' := by
  induction text generalizing before with
  | nil => cases member
  | cons c rest ih =>
      rw [CaseTables.lowerIn, List.mem_append] at member
      rcases member with here | later
      · by_cases sigma : c = 'Σ'
        · subst sigma
          rw [lowerAt_sigma, List.mem_singleton] at here
          subst here
          split
          · exact ⟨lowers.small_sigmas.2, by decide⟩
          · exact ⟨lowers.small_sigmas.1, by decide⟩
        · rw [lowerAt_of_ne sigma] at here
          exact lowers.settled c d here
      · exact ih later

/-! ### The case of letters -/

/-- The same character, or an ascii letter in another case. -/
def SameLetter (c d : Char) : Prop :=
  c = d ∨ (c.toNat < 128 ∧ c.isAlpha = true) ∧ (d.toNat < 128 ∧ d.isAlpha = true) ∧
    c.toLower = d.toLower

/-- Texts with the same letters are lowered alike, whatever stands around them. -/
theorem lowerIn_sameLetters (lowers : unicode.Lowercases tables)
    (same : List.Forall₂ SameLetter text other) :
    tables.lowerIn before after text = tables.lowerIn before after other := by
  have seen : ∀ {c d}, SameLetter c d → ∀ seen, tables.past seen c = tables.past seen d := by
    rintro c d (rfl | ⟨⟨ascii, alpha⟩, ⟨asciiToo, alphaToo⟩, -⟩) seen
    · rfl
    · obtain ⟨cased, solid⟩ := lowers.letters c ascii alpha
      obtain ⟨casedToo, solidToo⟩ := lowers.letters d asciiToo alphaToo
      simp [past, cased, solid, casedToo, solidToo]
  have ahead : ∀ {text other}, List.Forall₂ SameLetter text other →
      tables.followed after text = tables.followed after other := by
    intro text other same
    induction same with
    | nil => rfl
    | cons here later ih => rw [followed_cons, followed_cons, ih, seen here]
  induction same generalizing before with
  | nil => rfl
  | @cons c d rest others here later ih =>
      have first : ∀ behind, tables.lowerAt before behind c = tables.lowerAt before behind d := by
        intro behind
        rcases here with rfl | ⟨⟨ascii, -⟩, ⟨asciiToo, -⟩, lower⟩
        · rfl
        · rw [lowerAt_of_ne, lowerAt_of_ne, lowers.ascii c ascii, lowers.ascii d asciiToo, lower]
          · rintro rfl
            exact absurd asciiToo (by decide)
          · rintro rfl
            exact absurd ascii (by decide)
      rw [CaseTables.lowerIn, CaseTables.lowerIn, ahead later, first, seen here, ih]

/-! ### Separators -/

/-- A run of separators consists of dots only. -/
def AllDots (run : List Char) : Prop := ∀ c ∈ run, c = '.'

theorem lowerIn_separators (lowers : unicode.Lowercases tables)
    (separators : ∀ c ∈ run, isSeparator c = true) :
    tables.lowerIn before after run = run := by
  refine lowerIn_eq_self fun c member => ⟨(lowers.separators c (separators c member)).1, ?_⟩
  rintro rfl
  exact absurd (separators _ member) (by decide)

/-- Past dots is seen what was seen, and past other separators nothing. -/
theorem past_separators (lowers : unicode.Lowercases tables)
    (separators : ∀ c ∈ run, isSeparator c = true) :
    (AllDots run ∧ ∀ seen, tables.followed seen run = seen ∧ tables.preceded seen run = seen) ∨
    ¬AllDots run ∧
      ∀ seen, tables.followed seen run = false ∧ tables.preceded seen run = false := by
  induction run with
  | nil => exact .inl ⟨by simp [AllDots], fun _ => ⟨rfl, rfl⟩⟩
  | cons c rest ih =>
      obtain ⟨here, later⟩ := List.forall_mem_cons.mp separators
      obtain ⟨-, uncased, dotted⟩ := lowers.separators c here
      have first : ∀ seen, tables.preceded seen (c :: rest) =
          tables.preceded (tables.past seen c) rest := fun _ => rfl
      by_cases dot : c = '.'
      · have passes : ∀ seen, tables.past seen c = seen := fun seen => if_pos (dotted.mpr dot)
        rcases ih later with ⟨dots, same⟩ | ⟨mixed, stops⟩
        · refine .inl ⟨List.forall_mem_cons.mpr ⟨dot, dots⟩, fun seen => ?_⟩
          rw [followed_cons, first, passes, passes]
          exact same seen
        · refine .inr ⟨fun dots => mixed (List.forall_mem_cons.mp dots).2, fun seen => ?_⟩
          rw [followed_cons, first, passes, passes]
          exact stops seen
      · have stops : ∀ seen, tables.past seen c = false := fun seen => by
          rw [past, if_neg (fun ignored => dot (dotted.mp ignored)), uncased]
        refine .inr ⟨fun dots => dot (List.forall_mem_cons.mp dots).1, fun seen => ?_⟩
        rw [followed_cons, first, stops, stops]
        refine ⟨rfl, ?_⟩
        rcases ih later with ⟨-, same⟩ | ⟨-, none⟩
        · exact (same false).2
        · exact (none false).2

/-! ### Whole words -/

/-- Lowering a text keeps its end open. -/
theorem endsOpen_lowerIn (lowers : unicode.Lowercases tables)
    (ends : EndsOpen unicode.isWord text) :
    EndsOpen unicode.isWord (tables.lowerIn before after text) := by
  rcases List.eq_nil_or_concat text with rfl | ⟨rest, c, rfl⟩
  · exact ends
  · have other : unicode.isWord c = false := ends c (by simp)
    have notSigma : c ≠ 'Σ' := by
      rintro rfl
      rw [lowers.sigma_word] at other
      cases other
    obtain ⟨present, others⟩ := lowers.others c other
    have last : tables.lowerIn before after (rest.concat c) =
        tables.lowerIn before (tables.past after c) rest ++ tables.lowerChar c := by
      rw [List.concat_eq_append, lowerIn_append, CaseTables.lowerIn, lowerAt_of_ne notSigma]
      exact congrArg (_ ++ ·) (List.append_nil _)
    rw [last, EndsOpen, List.getLast?_append_of_ne_nil _ present]
    exact fun d member => others d (List.mem_of_getLast? member)

/-- Lowering a text keeps its start open. -/
theorem startsOpen_lowerIn (lowers : unicode.Lowercases tables)
    (starts : StartsOpen unicode.isWord text) :
    StartsOpen unicode.isWord (tables.lowerIn before after text) := by
  cases text with
  | nil => exact starts
  | cons c rest =>
      have other : unicode.isWord c = false := starts c rfl
      have notSigma : c ≠ 'Σ' := by
        rintro rfl
        rw [lowers.sigma_word] at other
        cases other
      obtain ⟨present, others⟩ := lowers.others c other
      rw [CaseTables.lowerIn, lowerAt_of_ne notSigma, StartsOpen,
        List.head?_append_of_ne_nil _ present]
      exact fun d member => others d (List.mem_of_mem_head? member)

/-- A listed word or abbreviation stays in lower case and is seen from both sides. -/
theorem listed_lowered (lowers : unicode.Lowercases tables)
    (letters : ∀ c ∈ word, c.toNat < 128 ∧ c.isAlpha = true ∧ c.isUpper = false)
    (present : word ≠ []) (before after : Bool) :
    tables.lowerIn before after word = word ∧ tables.followed after word = true ∧
      tables.preceded before word = true := by
  have seen : ∀ c ∈ word, ∀ behind, tables.past behind c = true := fun c member behind => by
    obtain ⟨ascii, alpha, -⟩ := letters c member
    obtain ⟨cased, solid⟩ := lowers.letters c ascii alpha
    simp [past, cased, solid]
  refine ⟨lowerIn_eq_self fun c member => ?_, ?_, ?_⟩
  · obtain ⟨ascii, -, small⟩ := letters c member
    refine ⟨?_, ?_⟩
    · rw [lowers.ascii c ascii, Letters.toLower_of_not_isUpper small]
    · rintro rfl
      exact absurd ascii (by decide)
  · cases word with
    | nil => exact absurd rfl present
    | cons c rest => exact seen c List.mem_cons_self _
  · rcases List.eq_nil_or_concat word with rfl | ⟨rest, c, rfl⟩
    · exact absurd rfl present
    · rw [List.concat_eq_append, preceded_append]
      exact seen c (by simp) _

end Lower

/-! ## The laws of the fingerprint -/

section Laws

variable {unicode : UnicodeTables} {tables : CaseTables} {front back run word : List Char}

/-- The fingerprint tells the words of the address in lower case, no more. -/
theorem addressFingerprint_congr (lowers : unicode.Lowercases tables) {first second : List Char}
    (same : addressWords unicode (tables.lower first) =
      addressWords unicode (tables.lower second)) :
    addressFingerprint unicode (.ofList first) = addressFingerprint unicode (.ofList second) := by
  rw [addressFingerprint_eq lowers.reads, addressFingerprint_eq lowers.reads, lowers.lower,
    String.toList_ofList, String.toList_ofList, same]

/-- The words of an address in lower case keep their lower case and have no marks. -/
theorem mem_addressWords (lowers : unicode.Lowercases tables) {text : List Char} {c : Char}
    (member : word ∈ addressWords unicode (tables.lower text)) (inside : c ∈ word) :
    (tables.lowerChar c = [c] ∧ c ≠ 'Σ') ∧ c ≠ '.' ∧ c ≠ ',' ∧ c ≠ '#' := by
  obtain ⟨part, split, rfl⟩ := List.mem_map.mp member
  rcases mem_rewrite_abbreviate inside with stays | ⟨ascii, alpha, small⟩
  · obtain ⟨d, lowered, same⟩ := List.mem_map.mp (subset_of_mem_splitWords split stays)
    have solid := (mem_splitWords split).2 c stays
    split at same
    · subst same
      exact absurd solid (by decide)
    · rename_i noMark
      subst same
      simp only [Bool.or_eq_true, decide_eq_true_eq, not_or] at noMark
      exact ⟨mem_lowerIn lowers lowered, noMark.1.1, noMark.1.2, noMark.2⟩
  · refine ⟨⟨?_, ?_⟩, ?_, ?_, ?_⟩
    · rw [lowers.ascii c ascii, Letters.toLower_of_not_isUpper small]
    all_goals
      rintro rfl
      first
        | exact absurd ascii (by decide)
        | exact absurd alpha (by decide)

/-- A fingerprint is its own fingerprint. -/
theorem addressFingerprint_idempotent (lowers : unicode.Lowercases tables) (raw : String) :
    addressFingerprint unicode (addressFingerprint unicode raw) =
      addressFingerprint unicode raw := by
  have whole := addressFingerprint_eq lowers.reads raw
  rw [lowers.lower] at whole
  have characters : ∀ c ∈ [' '].intercalate (addressWords unicode (tables.lower raw.toList)),
      (tables.lowerChar c = [c] ∧ c ≠ 'Σ') ∧ c ≠ '.' ∧ c ≠ ',' ∧ c ≠ '#' := by
    intro c member
    rcases mem_intercalate member with rfl | ⟨word, listed, inside⟩
    · exact ⟨⟨(lowers.separators ' ' (by decide)).1, by decide⟩, by decide⟩
    · exact mem_addressWords lowers listed inside
  have lowered : tables.lower ([' '].intercalate (addressWords unicode
      (tables.lower raw.toList))) =
        [' '].intercalate (addressWords unicode (tables.lower raw.toList)) :=
    lowerIn_eq_self fun c member => (characters c member).1
  have unmarked : spaced ([' '].intercalate (addressWords unicode (tables.lower raw.toList))) =
      [' '].intercalate (addressWords unicode (tables.lower raw.toList)) :=
    spaced_eq_self fun c member => (characters c member).2
  have proper : ∀ word ∈ addressWords unicode (tables.lower raw.toList),
      word ≠ [] ∧ IsWord isSolid word := by
    intro word member
    rw [addressWords, ← splitWords_rewrite lowers.reads] at member
    exact mem_splitWords member
  have again : (addressWords unicode (tables.lower raw.toList)).map
      (rewrite unicode.isWord abbreviate) = addressWords unicode (tables.lower raw.toList) := by
    rw [addressWords, List.map_map]
    refine List.map_congr_left fun word _ => ?_
    rw [Function.comp_apply, rewrite_rewrite (isWord_abbreviate lowers.reads)]
    exact congrArg (fun change => rewrite unicode.isWord change word)
      (funext abbreviate_abbreviate)
  rw [addressFingerprint_eq lowers.reads, lowers.lower, whole, String.toList_ofList, lowered,
    addressWords, unmarked, splitWords_intercalate proper, again]

/-- A listed word between others is as good as its abbreviation. -/
theorem addressFingerprint_abbreviate (lowers : unicode.Lowercases tables)
    {entry : List Char × List Char} (listed : entry ∈ addressReplacements)
    (ends : EndsOpen unicode.isWord front) (starts : StartsOpen unicode.isWord back) :
    addressFingerprint unicode (.ofList (front ++ (entry.1 ++ back))) =
      addressFingerprint unicode (.ofList (front ++ (entry.2 ++ back))) := by
  refine addressFingerprint_congr lowers ?_
  obtain ⟨presentOne, presentTwo, -, short, stays⟩ := listed_words entry listed
  obtain ⟨properOne, properTwo⟩ := isWord_listed lowers.reads listed
  have lowered : ∀ word, word ≠ [] → (∀ c ∈ word, c ∈ entry.1 ++ entry.2) →
      tables.lower (front ++ (word ++ back)) =
        tables.lowerIn false true front ++ (word ++ tables.lowerIn true false back) := by
    intro word present inside
    have letters : ∀ c ∈ word, c.toNat < 128 ∧ c.isAlpha = true ∧ c.isUpper = false :=
      fun c member => listed_letter listed (inside c member)
    obtain ⟨same, seenBefore, seenBehind⟩ := listed_lowered lowers letters present
      (tables.preceded false front) (tables.followed false back)
    rw [CaseTables.lower, lowerIn_append, lowerIn_append, followed_append, same, seenBefore,
      seenBehind]
  have endsToo : EndsOpen unicode.isWord (tables.lowerIn false true front) :=
    endsOpen_lowerIn lowers ends
  have startsToo : StartsOpen unicode.isWord (tables.lowerIn true false back) :=
    startsOpen_lowerIn lowers starts
  rw [lowered entry.1 presentOne fun c => List.mem_append_left _,
    lowered entry.2 presentTwo fun c => List.mem_append_right _,
    addressWords_word lowers.reads properOne endsToo startsToo,
    addressWords_word lowers.reads properTwo endsToo startsToo, short, stays]

/-- At the ends runs of separators do not count. -/
theorem addressFingerprint_ends (lowers : unicode.Lowercases tables)
    (separators : ∀ c ∈ run, isSeparator c = true) (text : List Char) :
    addressFingerprint unicode (.ofList (run ++ text)) =
      addressFingerprint unicode (.ofList text) ∧
    addressFingerprint unicode (.ofList (text ++ run)) =
      addressFingerprint unicode (.ofList text) := by
  have unseen : tables.followed false run = false ∧ tables.preceded false run = false := by
    rcases past_separators lowers separators with ⟨-, same⟩ | ⟨-, stops⟩
    · exact same false
    · exact stops false
  refine ⟨addressFingerprint_congr lowers ?_, addressFingerprint_congr lowers ?_⟩
  · rw [CaseTables.lower, lowerIn_append, lowerIn_separators lowers separators, unseen.2,
      addressWords_run separators]
    rfl
  · rw [CaseTables.lower, lowerIn_append, lowerIn_separators lowers separators, unseen.1,
      addressWords_append_run separators]
    rfl

/-! ### Runs between words -/

/-- A sigma at the run is followed, or preceded, by a cased character behind the run. -/
def SigmaMeets (tables : CaseTables) (front back : List Char) : Prop :=
  (tables.followed false back = true ∧ tables.closes false front = true) ∨
    (tables.preceded false front = true ∧ tables.opens false back = true)

/-- What a text becomes on both sides of a run. -/
theorem addressWords_lower_run (lowers : unicode.Lowercases tables) (present : run ≠ [])
    (separators : ∀ c ∈ run, isSeparator c = true) (front back : List Char) :
    addressWords unicode (tables.lower (front ++ (run ++ back))) =
      addressWords unicode (tables.lowerIn false
        (tables.followed (tables.followed false back) run) front) ++
      addressWords unicode (tables.lowerIn
        (tables.preceded (tables.preceded false front) run) false back) := by
  rw [CaseTables.lower, lowerIn_append, lowerIn_append, followed_append,
    lowerIn_separators lowers separators, addressWords_between present separators]

/-- Dots and another run give one fingerprint unless a sigma meets a character past the run. -/
theorem addressFingerprint_dots_iff (lowers : unicode.Lowercases tables)
    {dots mixed : List Char} (presentDots : dots ≠ []) (presentMixed : mixed ≠ [])
    (separatorsDots : ∀ c ∈ dots, isSeparator c = true)
    (separatorsMixed : ∀ c ∈ mixed, isSeparator c = true) (allDots : AllDots dots)
    (notDots : ¬AllDots mixed) :
    addressFingerprint unicode (.ofList (front ++ (dots ++ back))) =
      addressFingerprint unicode (.ofList (front ++ (mixed ++ back))) ↔
    ¬SigmaMeets tables front back := by
  have through : ∀ seen, tables.followed seen dots = seen ∧ tables.preceded seen dots = seen :=
    ((past_separators lowers separatorsDots).resolve_right fun other => other.1 allDots).2
  have stopped : ∀ seen, tables.followed seen mixed = false ∧
      tables.preceded seen mixed = false :=
    ((past_separators lowers separatorsMixed).resolve_left fun other => notDots other.1).2
  have loweredDots : tables.lower (front ++ (dots ++ back)) =
      tables.lowerIn false (tables.followed false back) front ++
        (dots ++ tables.lowerIn (tables.preceded false front) false back) := by
    rw [CaseTables.lower, lowerIn_append, lowerIn_append, followed_append,
      lowerIn_separators lowers separatorsDots, (through _).1, (through _).2]
  have loweredMixed : tables.lower (front ++ (mixed ++ back)) =
      tables.lowerIn false false front ++ (mixed ++ tables.lowerIn false false back) := by
    rw [CaseTables.lower, lowerIn_append, lowerIn_append, followed_append,
      lowerIn_separators lowers separatorsMixed, (stopped _).1, (stopped _).2]
  constructor
  · intro same meets
    have noSigmas : ∀ {run : List Char}, (∀ c ∈ run, isSeparator c = true) → sigmas run = [] := by
      refine fun separators => List.filter_eq_nil_iff.mpr fun c member sigma => ?_
      simp only [Bool.or_eq_true, decide_eq_true_eq] at sigma
      rcases sigma with rfl | rfl <;> exact absurd (separators _ member) (by decide)
    have told := congrArg (fun key : String => sigmas key.toList) same
    simp only [addressFingerprint_eq lowers.reads, lowers.lower, String.toList_ofList,
      sigmas_addressWords, loweredDots, loweredMixed, sigmas_append, noSigmas separatorsDots,
      noSigmas separatorsMixed, List.nil_append] at told
    obtain ⟨before, behind⟩ := List.append_inj told (length_sigmas _ _ _ _)
    rcases meets with closing | opening
    · exact lowerIn_behind_iff.mp (lowerIn_of_sigmas before) closing
    · exact lowerIn_ahead_iff.mp (lowerIn_of_sigmas behind) opening
  · intro apart
    rw [SigmaMeets, not_or] at apart
    refine addressFingerprint_congr lowers ?_
    rw [loweredDots, loweredMixed, lowerIn_behind_iff.mpr apart.1, lowerIn_ahead_iff.mpr apart.2,
      addressWords_between presentDots separatorsDots,
      addressWords_between presentMixed separatorsMixed]

/-- Which runs of separators a fingerprint tells apart. -/
theorem addressFingerprint_run_iff (lowers : unicode.Lowercases tables) {other : List Char}
    (present : run ≠ []) (presentToo : other ≠ [])
    (separators : ∀ c ∈ run, isSeparator c = true)
    (separatorsToo : ∀ c ∈ other, isSeparator c = true) :
    addressFingerprint unicode (.ofList (front ++ (run ++ back))) =
      addressFingerprint unicode (.ofList (front ++ (other ++ back))) ↔
    (AllDots run ↔ AllDots other) ∨ ¬SigmaMeets tables front back := by
  by_cases dots : AllDots run <;> by_cases dotsToo : AllDots other
  · refine iff_of_true (addressFingerprint_congr lowers ?_) (.inl (iff_of_true dots dotsToo))
    have through := (past_separators lowers separators).resolve_right fun mixed => mixed.1 dots
    have throughToo :=
      (past_separators lowers separatorsToo).resolve_right fun mixed => mixed.1 dotsToo
    rw [addressWords_lower_run lowers present separators,
      addressWords_lower_run lowers presentToo separatorsToo, (through.2 _).1, (through.2 _).2,
      (throughToo.2 _).1, (throughToo.2 _).2]
  · rw [addressFingerprint_dots_iff lowers present presentToo separators separatorsToo dots dotsToo]
    simp [dots, dotsToo]
  · rw [eq_comm, addressFingerprint_dots_iff lowers presentToo present separatorsToo separators
      dotsToo dots]
    simp [dots, dotsToo]
  · refine iff_of_true (addressFingerprint_congr lowers ?_) (.inl (iff_of_false dots dotsToo))
    have stopped := (past_separators lowers separators).resolve_left fun all => dots all.1
    have stoppedToo :=
      (past_separators lowers separatorsToo).resolve_left fun all => dotsToo all.1
    rw [addressWords_lower_run lowers present separators,
      addressWords_lower_run lowers presentToo separatorsToo, (stopped.2 _).1, (stopped.2 _).2,
      (stoppedToo.2 _).1, (stoppedToo.2 _).2]

/-- The case of ascii letters does not count. -/
theorem addressFingerprint_sameLetters (lowers : unicode.Lowercases tables)
    {text other : List Char} (same : List.Forall₂ SameLetter text other) :
    addressFingerprint unicode (.ofList text) = addressFingerprint unicode (.ofList other) :=
  addressFingerprint_congr lowers (congrArg _ (lowerIn_sameLetters lowers same))

/-- A listed word in any case between others is as good as its abbreviation. -/
theorem addressFingerprint_word (lowers : unicode.Lowercases tables)
    {entry : List Char × List Char} (listed : entry ∈ addressReplacements)
    (same : List.Forall₂ SameLetter word entry.1)
    (ends : EndsOpen unicode.isWord front) (starts : StartsOpen unicode.isWord back) :
    addressFingerprint unicode (.ofList (front ++ (word ++ back))) =
      addressFingerprint unicode (.ofList (front ++ (entry.2 ++ back))) := by
  have kept : ∀ text : List Char, List.Forall₂ SameLetter text text := fun text =>
    List.forall₂_same.mpr fun _ _ => .inl rfl
  rw [← addressFingerprint_abbreviate lowers listed ends starts]
  exact addressFingerprint_sameLetters lowers
    (List.rel_append (kept front) (List.rel_append same (kept back)))

end Laws

/-! ## Looking for an address -/

/-- The address is stored under the fingerprint of the text. -/
def StoredUnder (unicode : UnicodeTables) (raw : String) (address : Address) : Prop :=
  address.addressFingerprint = some (addressFingerprint unicode raw)

theorem storedUnder_iff {unicode : UnicodeTables} {raw stored : String} {address : Address}
    (under : StoredUnder unicode stored address) : StoredUnder unicode raw address ↔
      addressFingerprint unicode raw = addressFingerprint unicode stored := by
  unfold StoredUnder at under ⊢
  rw [under, Option.some_inj, eq_comm]

/-- Normalization takes the stored address under the fingerprint, or stores one under it. -/
theorem resolveAddress_found {env : Environment} {row : SourceObservation}
    {observation : ParsedSourceObservation} {db next : Database} {address : Address} {raw : String}
    (present : truthy observation.identity.rawAddressText = some raw)
    (resolved : db.resolveAddress env row observation = .ok (next, address)) :
    StoredUnder env.unicode raw address ∧
      (next = db ↔ ∃ stored ∈ db.addresses, StoredUnder env.unicode raw stored) := by
  unfold Database.resolveAddress at resolved
  rw [present] at resolved
  obtain ⟨found, selected, wrote⟩ := bind_eq_ok.mp resolved
  cases found with
  | some stored =>
      cases wrote
      have only := scalarOneOrNone_eq_some.mp selected
      obtain ⟨member, under⟩ := List.mem_filter.mp (only ▸ List.mem_singleton_self address)
      have under : address.addressFingerprint = some (addressFingerprint env.unicode raw) :=
        of_decide_eq_true under
      exact ⟨under, iff_of_true rfl ⟨address, member, under⟩⟩
  | none =>
      cases wrote
      have empty := List.filter_eq_nil_iff.mp (scalarOneOrNone_eq_none.mp selected)
      refine ⟨rfl, iff_of_false (fun same => ?_) ?_⟩
      · have drawn : db.drawn + 1 = db.drawn := congrArg Database.drawn same
        omega
      · rintro ⟨stored, member, under⟩
        exact empty stored member (decide_eq_true under)

/-- The building is at an address that is stored under the fingerprint of the text. -/
def CompanyEnvironment.StandsAt (env : CompanyEnvironment) (raw : String) (building : Building) :
    Prop :=
  ∃ address ∈ env.addresses, address.addressId = building.addressId ∧
    StoredUnder env.unicode raw address

/-- The company check takes a building at an address under the fingerprint, when one is. -/
theorem matchBuilding_found {env : CompanyEnvironment} {prop : CompanyProperty}
    {raw : String} (present : truthy prop.addressText = some raw)
    (unmatched : prop.matchedBuildingId = none) :
    (∀ id, (prop.matchBuilding env).matchedBuildingId = some id →
      ∃ building ∈ env.buildings, building.buildingId = id ∧ env.StandsAt raw building) ∧
    ((prop.matchBuilding env).matchedBuildingId = none ↔
      ∀ building ∈ env.buildings, ¬env.StandsAt raw building) := by
  have stands : ∀ building : Building, (env.addresses.any fun row =>
      row.addressId = building.addressId &&
        row.addressFingerprint = some (addressFingerprint env.unicode raw)) = true ↔
      env.StandsAt raw building := fun building => by
    simp [CompanyEnvironment.StandsAt, StoredUnder]
  unfold CompanyProperty.matchBuilding
  rw [present]
  dsimp only
  split
  · rename_i none
    have empty := List.head?_eq_none_iff.mp none
    have lengths := congrArg List.length empty
    rw [List.length_insertionSort] at lengths
    have missing := List.filter_eq_nil_iff.mp (List.eq_nil_of_length_eq_zero lengths)
    refine ⟨fun id matched => ?_, iff_of_true unmatched fun building member at_ => ?_⟩
    · rw [unmatched] at matched
      cases matched
    · exact missing building member ((stands building).mpr at_)
  · rename_i building first
    have member := (List.mem_insertionSort _).mp (List.mem_of_mem_head? first)
    obtain ⟨listed, here⟩ := List.mem_filter.mp member
    have here := (stands building).mp here
    refine ⟨fun id matched => ?_, iff_of_false nofun fun missing => missing building listed here⟩
    exact ⟨building, listed, Option.some_inj.mp matched, here⟩

/-- Normalization and the company check look for the fingerprint of a text, and only for it. -/
structure FindsByKey (unicode : UnicodeTables) : Prop where
  normalization : ∀ (env : Environment) (row : SourceObservation)
    (observation : ParsedSourceObservation) (db next : Database) (address : Address) (raw : String),
    env.unicode = unicode → truthy observation.identity.rawAddressText = some raw →
      db.resolveAddress env row observation = .ok (next, address) →
        StoredUnder unicode raw address ∧
          (next = db ↔ ∃ stored ∈ db.addresses, StoredUnder unicode raw stored)
  company : ∀ (env : CompanyEnvironment) (prop : CompanyProperty) (raw : String),
    env.unicode = unicode → truthy prop.addressText = some raw → prop.matchedBuildingId = none →
      (∀ id, (prop.matchBuilding env).matchedBuildingId = some id →
        ∃ building ∈ env.buildings, building.buildingId = id ∧ env.StandsAt raw building) ∧
      ((prop.matchBuilding env).matchedBuildingId = none ↔
        ∀ building ∈ env.buildings, ¬env.StandsAt raw building)
  related : ∀ (raw stored : String) (address : Address), StoredUnder unicode stored address →
    (StoredUnder unicode raw address ↔
      addressFingerprint unicode raw = addressFingerprint unicode stored)

/-- Normalization and the check of a property find a known address by its key. -/
theorem finds_by_key (unicode : UnicodeTables) : FindsByKey unicode where
  normalization env row observation db next address raw same present resolved := by
    subst same
    exact resolveAddress_found present resolved
  company env prop raw same present unmatched := by
    subst same
    exact matchBuilding_found present unmatched
  related _ _ _ under := storedUnder_iff under

/-- **The key of an address.** A fingerprint is its own fingerprint, the case of ascii letters,
separators at the ends and the listed words in place of their abbreviations do not count, and
both searches are for it. A run of separators is as good as another just when both or neither
consist of dots, or no sigma next to the run has its word end or begin there. -/
theorem address_fingerprint_normal_iff (unicode : UnicodeTables) (tables : CaseTables)
    (lowers : unicode.Lowercases tables) :
    (∀ raw, addressFingerprint unicode (addressFingerprint unicode raw) =
      addressFingerprint unicode raw) ∧
    (∀ text other, List.Forall₂ SameLetter text other →
      addressFingerprint unicode (.ofList text) = addressFingerprint unicode (.ofList other)) ∧
    (∀ run, (∀ c ∈ run, isSeparator c = true) → ∀ text,
      addressFingerprint unicode (.ofList (run ++ text)) =
        addressFingerprint unicode (.ofList text) ∧
      addressFingerprint unicode (.ofList (text ++ run)) =
        addressFingerprint unicode (.ofList text)) ∧
    (∀ entry ∈ addressReplacements, ∀ word, List.Forall₂ SameLetter word entry.1 →
      ∀ front back, EndsOpen unicode.isWord front → StartsOpen unicode.isWord back →
        addressFingerprint unicode (.ofList (front ++ (word ++ back))) =
          addressFingerprint unicode (.ofList (front ++ (entry.2 ++ back)))) ∧
    FindsByKey unicode ∧
    ∀ front run other back, run ≠ [] → other ≠ [] → (∀ c ∈ run, isSeparator c = true) →
      (∀ c ∈ other, isSeparator c = true) →
        (addressFingerprint unicode (.ofList (front ++ (run ++ back))) =
            addressFingerprint unicode (.ofList (front ++ (other ++ back))) ↔
          (AllDots run ↔ AllDots other) ∨ ¬SigmaMeets tables front back) := by
  refine ⟨addressFingerprint_idempotent lowers,
    fun text other same => addressFingerprint_sameLetters lowers same,
    fun run separators text => addressFingerprint_ends lowers separators text,
    fun entry listed word same front back ends starts =>
      addressFingerprint_word lowers listed same ends starts, finds_by_key unicode, ?_⟩
  intro front run other back present presentToo separators separatorsToo
  exact addressFingerprint_run_iff lowers present presentToo separators separatorsToo

/-! ## Ascii and sigmas -/

/-- The sigmas. -/
def isSigma (c : Char) : Bool := c = 'Σ' || c = 'σ' || c = 'ς'

/-- The lower case of ascii texts with sigmas. -/
def sigmaCase : CaseTables where
  lowerChar c := if c = 'Σ' then ['σ'] else [c.toLower]
  cased c := c.isAlpha || isSigma c
  ignorable c := c = '.' || c = Char.ofNat 39 || c = ':' || c = '^' || c = Char.ofNat 96
  sigma_solid := by decide

/-- Ascii texts with sigmas. -/
def sigmaTables : UnicodeTables where
  lower := sigmaCase.lower
  upper := List.map Char.toUpper
  isAlnum c := c.isAlphanum || isSigma c

theorem isSigma_toNat {c : Char} (sigma : isSigma c = true) : 900 < c.toNat ∧ c.toNat < 1000 := by
  simp only [isSigma, Bool.or_eq_true, decide_eq_true_eq] at sigma
  rcases sigma with (rfl | rfl) | rfl <;> decide

/-- A separator is neither alphanumeric nor a sigma. -/
theorem separator_apart {c : Char} (separator : isSeparator c = true) :
    c.isAlphanum = false ∧ isSigma c = false := by
  simp only [isSeparator, isSpace, Bool.or_eq_true, Bool.and_eq_true, decide_eq_true_eq]
    at separator
  rcases separator with ((space | rfl) | rfl) | rfl
  · refine ⟨Bool.eq_false_iff.mpr fun letter => ?_, Bool.eq_false_iff.mpr fun sigma => ?_⟩
    · rcases Letters.isAlphanum_iff.mp letter with alpha | digit
      · rcases Letters.isAlpha_iff.mp alpha with upper | lower
        · have range := Letters.isUpper_iff.mp upper
          omega
        · have range := Letters.isLower_iff.mp lower
          omega
      · have range : 48 ≤ c.toNat ∧ c.toNat ≤ 57 := Char.isDigit_iff_toNat.mp digit
        omega
    · have range := isSigma_toNat sigma
      omega
  all_goals decide

/-- What becomes another letter in lower case is a capital letter or sigma. -/
theorem sigmaCase_lowerChar {c : Char} (small : c.isUpper = false) (notSigma : c ≠ 'Σ') :
    sigmaCase.lowerChar c = [c] := by
  refine (if_neg notSigma).trans ?_
  rw [Letters.toLower_of_not_isUpper small]

/-- The case table with sigmas lowers a Latin capital to one small letter. -/
theorem sigmaCase_capital {c : Char} (large : c.isUpper = true) :
    sigmaCase.lowerChar c = [c.toLower] ∧ c.toLower.isUpper = false ∧ c.toLower ≠ 'Σ' := by
  have bound := Letters.isUpper_iff.mp large
  have value := Letters.toNat_toLower large
  refine ⟨if_neg ?_, Letters.isUpper_toLower, fun sigma => ?_⟩
  · rintro rfl
    exact absurd large (by decide)
  · have greek : 'Σ'.toNat = 931 := by decide
    rw [sigma, greek] at value
    omega

/-- The tables with sigmas lower texts as the case table does. -/
theorem sigma_lowercases : sigmaTables.Lowercases sigmaCase where
  lower := rfl
  reads := by
    refine ⟨fun c _ alpha => ?_, fun c separator => ?_⟩
    · have letter : c.isAlphanum = true := Letters.isAlphanum_iff.mpr (.inl alpha)
      simp [UnicodeTables.isWord, sigmaTables, letter]
    · obtain ⟨noLetter, noSigma⟩ := separator_apart separator
      have noLine : c ≠ '_' := by
        rintro rfl
        exact absurd separator (by decide)
      simp [UnicodeTables.isWord, sigmaTables, noLetter, noSigma, noLine]
  settled c d member := by
    by_cases sigma : c = 'Σ'
    · subst sigma
      cases List.mem_singleton.mp member
      decide
    · cases large : c.isUpper with
      | true =>
          obtain ⟨lower, small, notSigma⟩ := sigmaCase_capital large
          rw [lower, List.mem_singleton] at member
          subst member
          exact ⟨sigmaCase_lowerChar small notSigma, notSigma⟩
      | false =>
          rw [sigmaCase_lowerChar large sigma, List.mem_singleton] at member
          subst member
          exact ⟨sigmaCase_lowerChar large sigma, sigma⟩
  small_sigmas := by decide
  ascii c ascii := by
    refine if_neg ?_
    rintro rfl
    exact absurd ascii (by decide)
  letters c ascii alpha := by
    refine ⟨by simp [sigmaCase, alpha], Bool.eq_false_iff.mpr fun ignored => ?_⟩
    simp only [sigmaCase, Bool.or_eq_true, decide_eq_true_eq] at ignored
    rcases ignored with (((rfl | rfl) | rfl) | rfl) | rfl <;> exact absurd alpha (by decide)
  separators c separator := by
    obtain ⟨noLetter, noSigma⟩ := separator_apart separator
    have noAlpha : c.isAlpha = false := (Bool.or_eq_false_iff.mp noLetter).1
    have small : c.isUpper = false := (Bool.or_eq_false_iff.mp noAlpha).1
    have notSigma : c ≠ 'Σ' := by
      rintro rfl
      exact absurd noSigma (by decide)
    refine ⟨sigmaCase_lowerChar small notSigma, by simp [sigmaCase, noAlpha, noSigma], ?_⟩
    constructor
    · intro ignored
      simp only [sigmaCase, Bool.or_eq_true, decide_eq_true_eq] at ignored
      rcases ignored with (((dot | rfl) | rfl) | rfl) | rfl
      · exact dot
      all_goals exact absurd separator (by decide)
    · rintro rfl
      decide
  others c other := by
    simp only [UnicodeTables.isWord, sigmaTables, Bool.or_eq_false_iff] at other
    have small : c.isUpper = false := by
      refine Bool.eq_false_iff.mpr fun large => ?_
      have letter := Letters.isAlphanum_iff.mpr (.inl (Letters.isAlpha_iff.mpr (.inl large)))
      exact Bool.false_ne_true (other.1.1.symm.trans letter)
    have notSigma : c ≠ 'Σ' := by
      rintro rfl
      exact absurd other.1.2 (by decide)
    rw [sigmaCase_lowerChar small notSigma]
    refine ⟨List.cons_ne_nil c [], fun d member => ?_⟩
    cases List.mem_singleton.mp member
    simp [UnicodeTables.isWord, sigmaTables, other]
  sigma_word := by decide

theorem address_fingerprint_normal_street :
    sigmaTables.Lowercases sigmaCase ∧
      addressFingerprint sigmaTables (addressFingerprint sigmaTables "12 East Main Street") =
        addressFingerprint sigmaTables "12 East Main Street" :=
  ⟨sigma_lowercases,
    (address_fingerprint_normal_iff sigmaTables sigmaCase sigma_lowercases).1 _⟩

/-- Between a sigma and a letter a dot gives another fingerprint than a space. -/
theorem dot_keeps_sigma : ¬∀ front run other back : List Char, run ≠ [] → other ≠ [] →
    (∀ c ∈ run, isSeparator c = true) → (∀ c ∈ other, isSeparator c = true) →
      addressFingerprint sigmaTables (.ofList (front ++ (run ++ back))) =
        addressFingerprint sigmaTables (.ofList (front ++ (other ++ back))) := by
  intro same
  have dot : ∀ c ∈ ['.'], isSeparator c = true := List.forall_mem_singleton.mpr (by decide)
  have space : ∀ c ∈ [' '], isSeparator c = true := List.forall_mem_singleton.mpr (by decide)
  exact absurd (same ['A', 'Σ'] ['.'] [' '] ['A'] (by decide) (by decide) dot space) (by decide)

end RentalAgent
