import Mathlib.Data.List.SplitBy
import Mathlib.Data.List.TakeWhile

/-! # Words of a text

The words of a text are its longest runs of word characters. Rewriting every word leaves what
stands between them (`rewrite_append_cons`), so two rewritings in a row that turn words into
words are one (`rewrite_rewrite`), and a word between other characters is rewritten for itself
(`rewrite_between`). Words follow each other in a text just where the first stands whole and the
others are behind it (`infix_map_wordsOf_iff`). Splitting a text by the class of its characters
and rewriting the runs is the same (`flatten_map_splitBy`).
-/

namespace Words

variable {Letter : Type*} {isWord : Letter → Bool} {change : List Letter → List Letter}
  {word text front back : List Letter} {c : Letter}

/-- Each word of the text is changed; `word` is what was read of the present one. -/
def rewriteFrom (isWord : Letter → Bool) (change : List Letter → List Letter)
    (word : List Letter) : List Letter → List Letter
  | [] => change word
  | c :: rest =>
      if isWord c then rewriteFrom isWord change (word ++ [c]) rest
      else change word ++ c :: rewriteFrom isWord change [] rest

/-- Each word of the text is changed. -/
def rewrite (isWord : Letter → Bool) (change : List Letter → List Letter) (text : List Letter) :
    List Letter := rewriteFrom isWord change [] text

/-- A word: no other characters in it; it may be empty. -/
def IsWord (isWord : Letter → Bool) (word : List Letter) : Prop := ∀ c ∈ word, isWord c = true

/-- A text is a word, or begins with a word, another character and a text. -/
theorem word_induction (isWord : Letter → Bool) {motive : List Letter → Prop}
    (whole : ∀ word, IsWord isWord word → motive word)
    (step : ∀ word c rest, IsWord isWord word → isWord c = false → motive rest →
      motive (word ++ c :: rest)) (text : List Letter) : motive text := by
  have general : ∀ text word, IsWord isWord word → motive (word ++ text) := by
    intro text
    induction text with
    | nil => intro word isWord; exact (List.append_nil word).symm ▸ whole word isWord
    | cons c rest ih =>
        intro word proper
        cases letter : isWord c with
        | true =>
            rw [← List.singleton_append, ← List.append_assoc]
            exact ih (word ++ [c]) fun d member => by
              rcases List.mem_append.mp member with inside | last
              · exact proper d inside
              · exact List.mem_singleton.mp last ▸ letter
        | false => exact step word c rest proper letter (ih [] (by simp [IsWord]))
  exact general text [] (by simp [IsWord])

/-! ## Rewriting -/

/-- A word is changed together with what was read of it. -/
theorem rewriteFrom_word (proper : IsWord isWord text) :
    rewriteFrom isWord change word text = change (word ++ text) := by
  induction text generalizing word with
  | nil => rw [List.append_nil]; rfl
  | cons c rest ih =>
      obtain ⟨here, later⟩ := List.forall_mem_cons.mp proper
      rw [rewriteFrom, if_pos here, ih later, List.append_assoc]
      rfl

/-- Rewriting goes through a character outside words part by part. -/
theorem rewriteFrom_append_cons (other : isWord c = false) :
    rewriteFrom isWord change word (front ++ c :: back) =
      rewriteFrom isWord change word front ++ c :: rewrite isWord change back := by
  induction front generalizing word with
  | nil => simp [rewriteFrom, rewrite, other]
  | cons d rest ih =>
      rw [List.cons_append, rewriteFrom, rewriteFrom]
      split
      · exact ih
      · rw [ih, List.append_assoc]
        rfl

theorem rewrite_word (proper : IsWord isWord text) : rewrite isWord change text = change text :=
  rewriteFrom_word proper

/-- A character that is in no word stays where it is. -/
theorem rewrite_append_cons (other : isWord c = false) :
    rewrite isWord change (front ++ c :: back) =
      rewrite isWord change front ++ c :: rewrite isWord change back :=
  rewriteFrom_append_cons other

/-- Rewriting that changes no word changes nothing. -/
theorem rewrite_self (same : ∀ word, IsWord isWord word → change word = word)
    (text : List Letter) : rewrite isWord change text = text := by
  induction text using word_induction isWord with
  | whole word proper => rw [rewrite_word proper, same word proper]
  | step word c rest proper other ih =>
      rw [rewrite_append_cons other, rewrite_word proper, same word proper, ih]

/-- Two rewritings in a row are one. -/
theorem rewrite_rewrite {again : List Letter → List Letter}
    (keeps : ∀ word, IsWord isWord word → IsWord isWord (change word)) (text : List Letter) :
    rewrite isWord again (rewrite isWord change text) =
      rewrite isWord (fun word => again (change word)) text := by
  induction text using word_induction isWord with
  | whole word proper =>
      rw [rewrite_word proper, rewrite_word (keeps word proper), rewrite_word proper]
  | step word c rest proper other ih =>
      rw [rewrite_append_cons other, rewrite_append_cons other, rewrite_append_cons other,
        rewrite_word proper, rewrite_word (keeps word proper), rewrite_word proper, ih]

/-- A rewritten text consists of characters of the text and of changed words of it. -/
theorem mem_rewrite (member : c ∈ rewrite isWord change text) :
    c ∈ text ∨ ∃ word, IsWord isWord word ∧ word ⊆ text ∧ c ∈ change word := by
  induction text using word_induction isWord with
  | whole word proper =>
      rw [rewrite_word proper] at member
      exact .inr ⟨word, proper, List.Subset.refl word, member⟩
  | step word d rest proper other ih =>
      rw [rewrite_append_cons other, rewrite_word proper, List.mem_append, List.mem_cons] at member
      rcases member with inside | rfl | later
      · exact .inr ⟨word, proper, List.subset_append_left _ _, inside⟩
      · exact .inl (List.mem_append_right _ List.mem_cons_self)
      · have wider : rest ⊆ word ++ d :: rest := fun e inRest =>
          List.mem_append_right _ (List.mem_cons_of_mem _ inRest)
        rcases ih later with inRest | ⟨part, isPart, within, inside⟩
        · exact .inl (wider inRest)
        · exact .inr ⟨part, isPart, List.Subset.trans within wider, inside⟩

/-- A text that is not empty is not empty after words were changed into words. -/
theorem rewrite_ne_nil (keeps : ∀ word, word ≠ [] → change word ≠ []) (present : text ≠ []) :
    rewrite isWord change text ≠ [] := by
  induction text using word_induction isWord with
  | whole word proper =>
      rw [rewrite_word proper]
      exact keeps word present
  | step word d rest proper other ih =>
      rw [rewrite_append_cons other]
      simp

/-- A text is at an edge of words: empty, or the character there is in no word. -/
def EndsOpen (isWord : Letter → Bool) (text : List Letter) : Prop :=
  ∀ c ∈ text.getLast?, isWord c = false

def StartsOpen (isWord : Letter → Bool) (text : List Letter) : Prop :=
  ∀ c ∈ text.head?, isWord c = false

/-- A whole word between other characters is changed for itself. -/
theorem rewrite_between (empty : change [] = []) (proper : IsWord isWord word)
    (ends : EndsOpen isWord front) (starts : StartsOpen isWord back) :
    rewrite isWord change (front ++ (word ++ back)) =
      rewrite isWord change front ++ (change word ++ rewrite isWord change back) := by
  have nothing : rewrite isWord change [] = [] := empty
  have behind : rewrite isWord change (word ++ back) =
      change word ++ rewrite isWord change back := by
    cases back with
    | nil => rw [List.append_nil, rewrite_word proper, nothing, List.append_nil]
    | cons c rest =>
        have other : isWord c = false := starts c rfl
        have first : rewrite isWord change ([] ++ c :: rest) =
            rewrite isWord change [] ++ c :: rewrite isWord change rest := rewrite_append_cons other
        rw [nothing] at first
        rw [rewrite_append_cons other, rewrite_word proper]
        exact congrArg (change word ++ ·) first.symm
  rcases List.eq_nil_or_concat front with rfl | ⟨rest, c, rfl⟩
  · rw [List.nil_append, nothing, List.nil_append, behind]
  · have other : isWord c = false := ends c (by simp)
    have last : rewrite isWord change (rest ++ [c]) = rewrite isWord change rest ++ [c] := by
      rw [rewrite_append_cons other, nothing]
    rw [List.concat_eq_append, List.append_assoc, List.singleton_append,
      rewrite_append_cons other, behind, last, List.append_assoc]
    rfl

/-! ## The words of a text -/

/-- The words of a text, from left to right. -/
def wordsOf (isWord : Letter → Bool) (text : List Letter) : List (List Letter) :=
  (text.splitOnP fun c => !isWord c).filter (· ≠ [])

/-- What ends open behind a character outside words ends open with more before it. -/
theorem endsOpen_append_cons (other : isWord c = false) (ends : EndsOpen isWord back) :
    EndsOpen isWord (front ++ c :: back) := by
  intro d last
  rw [List.getLast?_append_of_ne_nil _ (List.cons_ne_nil c back)] at last
  cases back with
  | nil =>
      cases last
      exact other
  | cons e rest => exact ends d (by rwa [List.getLast?_cons_cons] at last)

theorem wordsOf_append_cons (other : isWord c = false) :
    wordsOf isWord (front ++ c :: back) = wordsOf isWord front ++ wordsOf isWord back := by
  rw [wordsOf, List.splitOnP_append_cons _ _ (by rw [other, Bool.not_false]), List.filter_append]
  rfl

theorem wordsOf_nil : wordsOf isWord [] = [] := by simp [wordsOf]

/-- A word is the only word of its text. -/
theorem wordsOf_word (proper : IsWord isWord word) (present : word ≠ []) :
    wordsOf isWord word = [word] := by
  have one : word.splitOnP (fun c => !isWord c) = [word] :=
    List.splitOnP_eq_singleton fun c member => by simp [proper c member]
  rw [wordsOf, one]
  simp [present]

/-- No word reaches over an edge. -/
theorem wordsOf_append (ends : EndsOpen isWord front) :
    wordsOf isWord (front ++ back) = wordsOf isWord front ++ wordsOf isWord back := by
  rcases List.eq_nil_or_concat front with rfl | ⟨rest, c, rfl⟩
  · rw [wordsOf_nil]
    rfl
  · have other : isWord c = false := ends c (by simp)
    rw [List.concat_eq_append, List.append_assoc, List.singleton_append,
      wordsOf_append_cons other, wordsOf_append_cons other, wordsOf_nil, List.append_nil]

/-- No word reaches back over an edge. -/
theorem wordsOf_append_of_startsOpen (starts : StartsOpen isWord back) :
    wordsOf isWord (front ++ back) = wordsOf isWord front ++ wordsOf isWord back := by
  cases back with
  | nil => rw [List.append_nil, wordsOf_nil, List.append_nil]
  | cons c rest =>
      have other : isWord c = false := starts c rfl
      have first : wordsOf isWord ([] ++ c :: rest) = wordsOf isWord [] ++ wordsOf isWord rest :=
        wordsOf_append_cons other
      rw [wordsOf_nil] at first
      rw [wordsOf_append_cons other]
      exact congrArg (wordsOf isWord front ++ ·) first.symm

/-- There are no words where no character is in a word. -/
theorem wordsOf_gap {gap : List Letter} (outside : ∀ c ∈ gap, isWord c = false) :
    wordsOf isWord gap = [] := by
  induction gap with
  | nil => exact wordsOf_nil
  | cons c rest ih =>
      obtain ⟨other, others⟩ := List.forall_mem_cons.mp outside
      have first : wordsOf isWord ([] ++ c :: rest) = wordsOf isWord [] ++ wordsOf isWord rest :=
        wordsOf_append_cons other
      rw [wordsOf_nil, ih others] at first
      exact first

/-- Characters outside words between two texts keep their words apart. -/
theorem wordsOf_append_gap {gap : List Letter} (some : gap ≠ [])
    (outside : ∀ c ∈ gap, isWord c = false) :
    wordsOf isWord (front ++ (gap ++ back)) = wordsOf isWord front ++ wordsOf isWord back := by
  have starts : StartsOpen isWord (gap ++ back) := by
    intro c head
    rw [List.head?_append_of_ne_nil gap some] at head
    exact outside c (List.mem_of_mem_head? head)
  rw [wordsOf_append_of_startsOpen starts, wordsOf_append fun c last =>
    outside c (List.mem_of_mem_getLast? last), wordsOf_gap outside, List.nil_append]

/-- A whole word of the text is one of its words. -/
theorem wordsOf_between (proper : IsWord isWord word) (present : word ≠ [])
    (ends : EndsOpen isWord front) (starts : StartsOpen isWord back) :
    wordsOf isWord (front ++ (word ++ back)) =
      wordsOf isWord front ++ word :: wordsOf isWord back := by
  rw [wordsOf_append ends, wordsOf_append_of_startsOpen starts, wordsOf_word proper present]
  rfl

/-- Each of the words stands whole in the text, between the words before and those after it. -/
theorem exists_place_of_wordsOf {earlier later : List (List Letter)}
    (split : wordsOf isWord text = earlier ++ word :: later) :
    ∃ before after, text = before ++ (word ++ after) ∧ IsWord isWord word ∧ word ≠ [] ∧
      EndsOpen isWord before ∧ StartsOpen isWord after ∧ wordsOf isWord after = later := by
  induction text using word_induction isWord generalizing earlier with
  | whole whole proper =>
      by_cases empty : whole = []
      · rw [empty, wordsOf_nil] at split
        simp at split
      · rw [wordsOf_word proper empty] at split
        obtain ⟨rfl, rfl, rfl⟩ : earlier = [] ∧ whole = word ∧ later = [] := by
          cases earlier <;> simp_all
        exact ⟨[], [], by simp, proper, empty, nofun, nofun, wordsOf_nil⟩
  | step whole c rest proper other ih =>
      rw [wordsOf_append_cons other] at split
      have inRest {front : List (List Letter)}
          (found : wordsOf isWord rest = front ++ word :: later) :
          ∃ before after, whole ++ c :: rest = before ++ (word ++ after) ∧ IsWord isWord word ∧
            word ≠ [] ∧ EndsOpen isWord before ∧ StartsOpen isWord after ∧
              wordsOf isWord after = later := by
        obtain ⟨before, after, rfl, isWord, present, ends, starts, same⟩ := ih found
        exact ⟨whole ++ c :: before, after, by simp, isWord, present,
          endsOpen_append_cons other ends, starts, same⟩
      by_cases empty : whole = []
      · rw [empty, wordsOf_nil] at split
        exact inRest split
      · rw [wordsOf_word proper empty] at split
        cases earlier with
        | nil =>
            obtain ⟨rfl, same⟩ := List.cons.inj split
            exact ⟨[], c :: rest, rfl, proper, empty, nofun, by rintro d ⟨⟩; exact other,
              same ▸ by
                have first : wordsOf isWord ([] ++ c :: rest) = _ := wordsOf_append_cons other
                rwa [wordsOf_nil] at first⟩
        | cons first front => exact inRest (List.cons.inj split).2

/-- **Places of words.** Words follow each other in a text, up to a change of each, just where
the first of them stands whole and the others begin what is behind it. -/
theorem infix_map_wordsOf_iff {Form : Type*} {form : List Letter → Form} {first : Form}
    {rest : List Form} : first :: rest <:+: (wordsOf isWord text).map form ↔
      ∃ before word after, text = before ++ (word ++ after) ∧ IsWord isWord word ∧ word ≠ [] ∧
        EndsOpen isWord before ∧ StartsOpen isWord after ∧ form word = first ∧
          rest <+: (wordsOf isWord after).map form := by
  constructor
  · rintro ⟨front, back, split⟩
    rw [List.append_assoc, List.cons_append] at split
    obtain ⟨earlier, found, words, -, tail⟩ := List.map_eq_append_iff.mp split.symm
    obtain ⟨word, later, rfl, same, follows⟩ := List.map_eq_cons_iff.mp tail
    obtain ⟨before, after, placed, proper, present, ends, starts, rfl⟩ :=
      exists_place_of_wordsOf words
    exact ⟨before, word, after, placed, proper, present, ends, starts, same,
      ⟨back, follows.symm⟩⟩
  · rintro ⟨before, word, after, rfl, proper, present, ends, starts, rfl, back, follows⟩
    rw [wordsOf_between proper present ends starts, List.map_append, List.map_cons, ← follows]
    exact ⟨(wordsOf isWord before).map form, back, by simp⟩

/-! ## Runs of one class -/

/-- The characters of a run are of one class. -/
def SameClass (isWord : Letter → Bool) (first second : Letter) : Bool :=
  isWord first = isWord second

/-- A run of characters of one class is a chain of equal classes. -/
theorem isChain_of_class {run : List Letter} {kind : Bool}
    (same : ∀ c ∈ run, isWord c = kind) :
    run.IsChain fun first second => SameClass isWord first second := by
  induction run with
  | nil => exact List.isChain_nil
  | cons c rest ih =>
      obtain ⟨here, later⟩ := List.forall_mem_cons.mp same
      cases rest with
      | nil => exact List.isChain_singleton _
      | cons d more =>
          refine List.isChain_cons_cons.mpr ⟨?_, ih later⟩
          simp [SameClass, here, later d List.mem_cons_self]

/-- A run that ends where the class changes is one of the runs. -/
theorem flatten_map_run {run rest : List Letter} {kind : Bool} (empty : change [] = [])
    (same : ∀ c ∈ run, isWord c = kind) (ends : ∀ c ∈ rest.head?, isWord c ≠ kind) :
    (((run ++ rest).splitBy (SameClass isWord)).map change).flatten =
      change run ++ ((rest.splitBy (SameClass isWord)).map change).flatten := by
  rcases List.eq_nil_or_concat run with rfl | ⟨front, last, rfl⟩
  · rw [empty]; rfl
  · have present : front.concat last ≠ [] := by simp
    have apart : ∀ x ∈ (front.concat last).getLast?, ∀ y ∈ rest.head?,
        SameClass isWord x y = false := by
      intro x lastMem y headMem
      have kindOf := same x (List.mem_of_getLast? lastMem)
      simp [SameClass, kindOf, Ne.symm (ends y headMem)]
    rw [List.splitBy_append apart, List.splitBy_of_isChain present (isChain_of_class same)]
    rfl

/-- Where the runs between words are left alone, a character of them can be taken off. -/
theorem flatten_map_cons (empty : change [] = []) (other : isWord c = false)
    (leaves : ∀ run, (∀ c ∈ run, isWord c = false) → change run = run) (rest : List Letter) :
    (((c :: rest).splitBy (SameClass isWord)).map change).flatten =
      c :: ((rest.splitBy (SameClass isWord)).map change).flatten := by
  have gap : ∀ d ∈ rest.takeWhile fun d => !isWord d, isWord d = false := fun d member => by
    simpa using List.mem_takeWhile_imp member
  have edge : ∀ d ∈ (rest.dropWhile fun d => !isWord d).head?, isWord d ≠ false := by
    intro d member
    have present : (rest.dropWhile fun d => !isWord d) ≠ [] := by
      rintro none
      rw [none] at member
      cases member
    have letter := List.head_dropWhile_not (fun d => !isWord d) present
    rw [List.head?_eq_some_head present] at member
    cases member
    simpa using letter
  have whole := List.takeWhile_append_dropWhile (p := fun d => !isWord d) (l := rest)
  have longer : ∀ d ∈ c :: rest.takeWhile (fun d => !isWord d), isWord d = false :=
    List.forall_mem_cons.mpr ⟨other, gap⟩
  have one := flatten_map_run empty longer edge
  have two := flatten_map_run empty gap edge
  rw [List.cons_append, whole, leaves _ longer] at one
  rw [whole, leaves _ gap] at two
  rw [one, two]
  rfl

/-- **Splitting by class.** Changing the runs that are words is rewriting. -/
theorem flatten_map_splitBy (empty : change [] = [])
    (leaves : ∀ run, (∀ c ∈ run, isWord c = false) → change run = run) (text : List Letter) :
    ((text.splitBy (SameClass isWord)).map change).flatten = rewrite isWord change text := by
  induction text using word_induction isWord with
  | whole word proper =>
      have one := flatten_map_run empty proper
        (by simp : ∀ c ∈ ([] : List Letter).head?, isWord c ≠ true)
      rw [List.append_nil] at one
      rw [one, rewrite_word proper]
      exact List.append_nil _
  | step word c rest proper other ih =>
      have ends : ∀ d ∈ (c :: rest).head?, isWord d ≠ true := by
        rintro d ⟨⟩
        simp [other]
      rw [flatten_map_run empty proper ends, flatten_map_cons empty other leaves, ih,
        rewrite_append_cons other, rewrite_word proper]

end Words
