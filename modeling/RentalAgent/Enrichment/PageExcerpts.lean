import Mathlib.Data.List.Infix
import Mathlib.Data.List.Sort
import RentalAgent.Canonical.Durability
import RentalAgent.Enrichment.PageText
import RentalAgent.Foundation.Spans

/-! # What an excerpt shows of a long page

The excerpt of a long page is its head and windows around the keywords, joined with a
separator and cut at the cap. After each hit the search goes on 2000 characters later, while
the window it records ends 1400 characters after the hit, so that a price in between is not
searched and not shown. Windows that fit the budget can still be cut, since the separators do
not count. Apart from these two the excerpt shows every keyword with what stands around it
(`relevant_excerpt_keeps_iff`).
-/

namespace RentalAgent

open Spans (InSpans Separated coveredBelow begunBelow readings joinedReadings)

/-! ## Places and windows -/

/-- The window that belongs to a place of a text. -/
def windowAt (length place : Nat) : Span := (place - 600, min length (place + 1400))

/-- The place of a text where a keyword stands, in any case. -/
def StandsAt (unicode : UnicodeTables) (keyword text : List Char) (place : Nat) : Prop :=
  keyword.isPrefixOf ((unicode.lower text).drop (unicode.lower (text.take place)).length) = true

instance (unicode : UnicodeTables) (keyword text : List Char) (place : Nat) :
    Decidable (StandsAt unicode keyword text place) := inferInstanceAs (Decidable (_ = true))

/-- The places where a keyword stands. -/
def occurrences (unicode : UnicodeTables) (keyword text : List Char) : List Nat :=
  (List.range text.length).filter fun place => StandsAt unicode keyword text place

/-- The windows that the search records for the keywords. -/
def recordedSpans (unicode : UnicodeTables) (text : List Char) : List Span :=
  excerptKeywords.flatMap fun keyword =>
    keywordSpans keyword (unicode.lower text) text.length 20 0

/-- The separator between the pieces of an excerpt. -/
def pieceSeparator : List Char := "\n—n".toList

/-- The windows of the pieces that are taken. -/
def keptSpans (cap : Nat) : Nat → List Span → List Span
  | _, [] => []
  | total, span :: rest =>
      if cap ≤ total then []
      else
        let stop := min span.2 (span.1 + (cap - total))
        (span.1, stop) :: keptSpans cap (total + (stop - span.1)) rest

/-- The places of the text that an excerpt shows, with the separators in between. -/
def excerptPlaces (unicode : UnicodeTables) (text : List Char) (cap : Nat) : List (Nat ⊕ Char) :=
  match recordedSpans unicode text with
  | [] => readings Char (0, cap)
  | spans =>
      let head := min 1500 text.length
      (joinedReadings pieceSeparator ((0, head) :: keptSpans cap head (mergeSpans spans))).take cap

/-- The character of a place, or the one of a separator. -/
def letterAt (text : List Char) : Nat ⊕ Char → Char :=
  Sum.elim (fun place => text.getD place ' ') id

/-- The head and the merged windows fit into the cap. -/
def WindowsFit (unicode : UnicodeTables) (text : List Char) (cap : Nat) : Prop :=
  min 1500 text.length + coveredBelow (InSpans (recordedSpans unicode text)) text.length ≤ cap

instance (unicode : UnicodeTables) (text : List Char) (cap : Nat) :
    Decidable (WindowsFit unicode text cap) := inferInstanceAs (Decidable (_ ≤ _))

/-- The first twenty occurrences of each keyword. -/
def searchedPlaces (unicode : UnicodeTables) (text : List Char) : List Nat :=
  excerptKeywords.flatMap fun keyword => (occurrences unicode keyword text).take 20

/-- What an excerpt promises: it is no longer than the cap, and where the windows fit it shows
each occurrence with what stands around it as one stretch. -/
structure KeepsOccurrences (unicode : UnicodeTables) (text : List Char) (cap : Nat) : Prop where
  short : (relevantExcerpt unicode text cap).length ≤ cap
  whole : WindowsFit unicode text cap → ∀ place ∈ searchedPlaces unicode text,
    readings Char (windowAt text.length place) <:+: excerptPlaces unicode text cap

/-- The window of an occurrence is shown: it lies in the head, or the recorded windows cover
it, and the cut comes after it when the separators before it count. -/
def ShowsWindow (unicode : UnicodeTables) (text : List Char) (cap : Nat) (window : Span) : Prop :=
  window.2 ≤ 1500 ∨
    (∀ place, window.1 ≤ place → place < window.2 → InSpans (recordedSpans unicode text) place) ∧
      min 1500 text.length + coveredBelow (InSpans (recordedSpans unicode text)) window.2 +
        pieceSeparator.length * begunBelow (InSpans (recordedSpans unicode text)) window.2 ≤ cap

/-! ## The recorded windows -/

/-- A window of a text of a length: it ends in the text, and one that is empty ends with it. -/
def WellPlaced (length : Nat) (span : Span) : Prop :=
  span.2 ≤ length ∧ (span.1 < span.2 ∨ span.2 = length)

theorem windowAt_wellPlaced (length place : Nat) : WellPlaced length (windowAt length place) := by
  refine ⟨Nat.min_le_left _ _, ?_⟩
  change place - 600 < min length (place + 1400) ∨ min length (place + 1400) = length
  omega

/-- The spans around a keyword lie in the text. -/
theorem keywordSpans_wellPlaced (keyword lowered : List Char) (length rounds start : Nat) :
    ∀ span ∈ keywordSpans keyword lowered length rounds start, WellPlaced length span := by
  induction rounds generalizing start with
  | zero => simp [keywordSpans]
  | succ rounds ih =>
      rw [keywordSpans]
      cases findFrom keyword lowered start with
      | none => simp
      | some index =>
          intro span member
          rcases List.mem_cons.mp member with rfl | later
          · exact windowAt_wellPlaced length index
          · exact ih _ span later

theorem recordedSpans_wellPlaced (unicode : UnicodeTables) (text : List Char) :
    ∀ span ∈ recordedSpans unicode text, WellPlaced text.length span := by
  intro span member
  obtain ⟨keyword, -, inside⟩ := List.mem_flatMap.mp member
  exact keywordSpans_wellPlaced _ _ _ _ _ span inside

/-- A keyword that stands in the text is found from the start. -/
theorem findFrom_ne_none {keyword lowered : List Char} {offset : Nat}
    (stands : keyword.isPrefixOf (lowered.drop offset) = true) :
    findFrom keyword lowered 0 ≠ none := by
  rw [findFrom, ne_eq, Option.map_eq_none_iff, List.drop_zero, List.findIdx?_eq_none_iff]
  intro absent
  have suffix : lowered.drop offset ∈ lowered.tails :=
    (List.mem_tails _ _).mpr (List.drop_suffix _ _)
  exact Bool.false_ne_true ((absent _ suffix).symm.trans stands)

/-- Where nothing is recorded no keyword stands. -/
theorem searchedPlaces_of_recordedSpans_nil {unicode : UnicodeTables} {text : List Char}
    (unrecorded : recordedSpans unicode text = []) : searchedPlaces unicode text = [] := by
  refine List.flatMap_eq_nil_iff.mpr fun keyword member => ?_
  have silent := List.flatMap_eq_nil_iff.mp unrecorded keyword member
  have absent : occurrences unicode keyword text = [] := by
    refine List.filter_eq_nil_iff.mpr fun place _ stands => ?_
    have found := findFrom_ne_none (of_decide_eq_true stands)
    rw [keywordSpans] at silent
    cases same : findFrom keyword (unicode.lower text) 0 with
    | none => exact found same
    | some index => simp [same] at silent
  rw [absent, List.take_nil]

theorem mem_searchedPlaces_lt {unicode : UnicodeTables} {text : List Char} {place : Nat}
    (member : place ∈ searchedPlaces unicode text) : place < text.length := by
  obtain ⟨keyword, -, taken⟩ := List.mem_flatMap.mp member
  exact List.mem_range.mp (List.mem_of_mem_filter (List.mem_of_mem_take taken))

/-! ## Merging -/

section Merging

variable {length : Nat} {merged spans : List Span} {span : Span}

/-- Merged windows, the last one first: they are separated, and all start by the next one. -/
structure MergedUpTo (merged : List Span) (next : Nat) : Prop where
  apart : merged.Pairwise fun later earlier => earlier.2 < later.1
  starts : ∀ last ∈ merged.head?, last.1 ≤ next

theorem mergedUpTo_nil (next : Nat) : MergedUpTo [] next := ⟨List.Pairwise.nil, by simp⟩

/-- A round of merging keeps the windows separated. -/
theorem MergedUpTo.absorb (before : MergedUpTo merged span.1) :
    MergedUpTo (absorbSpan merged span) span.1 := by
  cases merged with
  | nil => exact ⟨List.pairwise_singleton _ _, by simp [absorbSpan]⟩
  | cons last earlier =>
      have starts : last.1 ≤ span.1 := before.starts last rfl
      obtain ⟨behind, rest⟩ := List.pairwise_cons.mp before.apart
      rw [absorbSpan]
      split
      · exact ⟨List.pairwise_cons.mpr ⟨behind, rest⟩, by simpa using starts⟩
      · next gap =>
          refine ⟨List.pairwise_cons.mpr ⟨fun other member => ?_, before.apart⟩, by simp⟩
          rcases List.mem_cons.mp member with rfl | deeper
          · exact Nat.lt_of_not_le gap
          · exact (behind other deeper).trans_le starts

/-- A round of merging covers what was covered and the new window. -/
theorem inSpans_absorb (before : MergedUpTo merged span.1) (place : Nat) :
    InSpans (absorbSpan merged span) place ↔ InSpans (span :: merged) place := by
  cases merged with
  | nil => rfl
  | cons last earlier =>
      have starts : last.1 ≤ span.1 := before.starts last rfl
      rw [absorbSpan]
      split
      · next touching =>
          simp only [Spans.inSpans_cons, ← or_assoc]
          refine or_congr_left ?_
          omega
      · rfl

/-- Absorbing a span keeps the spans in the text. -/
theorem wellPlaced_absorb (here : WellPlaced length span)
    (placed : ∀ other ∈ merged, WellPlaced length other) :
    ∀ other ∈ absorbSpan merged span, WellPlaced length other := by
  cases merged with
  | nil => simpa [absorbSpan] using here
  | cons last earlier =>
      obtain ⟨lastPlaced, rest⟩ := List.forall_mem_cons.mp placed
      rw [absorbSpan]
      split
      · refine List.forall_mem_cons.mpr ⟨?_, rest⟩
        simp only [WellPlaced] at *
        omega
      · exact List.forall_mem_cons.mpr ⟨here, placed⟩

/-- All rounds of merging over windows in order. -/
theorem foldl_absorb (sorted : spans.Pairwise fun first second => first.1 ≤ second.1)
    (before : ∀ next ∈ spans.head?, MergedUpTo merged next.1)
    (apart : merged.Pairwise fun later earlier => earlier.2 < later.1) :
    (spans.foldl absorbSpan merged).Pairwise (fun later earlier => earlier.2 < later.1) ∧
      ∀ place, InSpans (spans.foldl absorbSpan merged) place ↔
        InSpans merged place ∨ InSpans spans place := by
  induction spans generalizing merged with
  | nil => exact ⟨apart, by simp⟩
  | cons span spans ih =>
      obtain ⟨ahead, rest⟩ := List.pairwise_cons.mp sorted
      have here : MergedUpTo merged span.1 := before span rfl
      have absorbed := here.absorb
      obtain ⟨separated, covers⟩ := ih rest (fun next first => ⟨absorbed.apart, fun last member =>
        (absorbed.starts last member).trans (ahead next (List.mem_of_mem_head? first))⟩)
        absorbed.apart
      refine ⟨separated, fun place => (covers place).trans ?_⟩
      rw [inSpans_absorb here, Spans.inSpans_cons, Spans.inSpans_cons]
      tauto

/-- Absorbing spans of a text leaves spans of the text. -/
theorem foldl_absorb_wellPlaced (here : ∀ span ∈ spans, WellPlaced length span)
    (placed : ∀ other ∈ merged, WellPlaced length other) :
    ∀ other ∈ spans.foldl absorbSpan merged, WellPlaced length other := by
  induction spans generalizing merged with
  | nil => exact placed
  | cons span spans ih =>
      obtain ⟨first, rest⟩ := List.forall_mem_cons.mp here
      exact ih rest (wellPlaced_absorb first placed)

/-- The order of Python's lists of two numbers. -/
theorem sorted_starts (spans : List Span) : (spans.insertionSort fun first second =>
    first.1 < second.1 ∨ first.1 = second.1 ∧ first.2 ≤ second.2).Pairwise
      fun first second => first.1 ≤ second.1 := by
  have total : Std.Total fun first second : Span =>
      first.1 < second.1 ∨ first.1 = second.1 ∧ first.2 ≤ second.2 := ⟨fun _ _ => by omega⟩
  have trans : IsTrans Span fun first second =>
      first.1 < second.1 ∨ first.1 = second.1 ∧ first.2 ≤ second.2 := ⟨fun _ _ _ => by omega⟩
  exact (List.pairwise_insertionSort _ spans).imp fun ordered => by omega

theorem mergeSpans_separated (spans : List Span) : Separated (mergeSpans spans) := by
  rw [Separated, mergeSpans, List.pairwise_reverse]
  exact (foldl_absorb (sorted_starts spans) (fun next _ => mergedUpTo_nil next.1)
    List.Pairwise.nil).1

theorem inSpans_mergeSpans (spans : List Span) (place : Nat) :
    InSpans (mergeSpans spans) place ↔ InSpans spans place := by
  have covers := (foldl_absorb (sorted_starts spans) (fun next _ => mergedUpTo_nil next.1)
    List.Pairwise.nil).2 place
  simpa [InSpans, mergeSpans, List.mem_insertionSort] using covers

theorem mergeSpans_wellPlaced (placed : ∀ span ∈ spans, WellPlaced length span) :
    ∀ span ∈ mergeSpans spans, WellPlaced length span := by
  intro span member
  refine foldl_absorb_wellPlaced (fun other inside => ?_) (by simp) span
    (List.mem_reverse.mp member)
  exact placed other ((List.mem_insertionSort _).mp inside)

end Merging

/-! ## What is taken -/

section Taken

variable {text : List Char} {cap total : Nat} {spans : List Span}

/-- The characters of the places in a window are the slice of the text. -/
theorem map_readings (text : List Char) {start stop : Nat} (within : stop ≤ text.length) :
    (readings Char (start, stop)).map (letterAt text) = slice text start stop := by
  refine List.ext_getElem (by simp [slice, within]) fun index here _ => ?_
  have below : start + index < text.length := by
    simp at here
    omega
  simp [readings, slice, letterAt, below]

/-- The pieces are the letters of the spans that are kept. -/
theorem takePieces_eq (placed : ∀ span ∈ spans, WellPlaced text.length span) :
    takePieces text cap total spans =
      (keptSpans cap total spans).map fun span => (readings Char span).map (letterAt text) := by
  induction spans generalizing total with
  | nil => rfl
  | cons span rest ih =>
      obtain ⟨here, later⟩ := List.forall_mem_cons.mp placed
      have within : min span.2 (span.1 + (cap - total)) ≤ text.length :=
        (Nat.min_le_left _ _).trans here.1
      rw [takePieces, keptSpans]
      split
      · rfl
      · have size : (slice text span.1 (min span.2 (span.1 + (cap - total)))).length =
            min span.2 (span.1 + (cap - total)) - span.1 := by
          rw [slice, List.length_drop, List.length_take, Nat.min_eq_left within]
        simp only [size, List.map_cons, map_readings text within, ih later]

/-- Joined pieces are read span by span, with the separator between them. -/
theorem map_joinedReadings (text : List Char) (spans : List Span) :
    (joinedReadings pieceSeparator spans).map (letterAt text) =
      pieceSeparator.intercalate
        (spans.map fun span => (readings Char span).map (letterAt text)) := by
  have marks : (pieceSeparator.map Sum.inr).map (letterAt text) = pieceSeparator := by
    simp [letterAt, Function.comp_def]
  induction spans with
  | nil => rfl
  | cons span spans ih =>
      cases spans with
      | nil => simp [joinedReadings, List.intercalate]
      | cons next spans =>
          rw [Spans.joinedReadings_cons, List.map_append, List.map_append, marks, ih]
          simp [List.intercalate]

/-- The excerpt of a long text is the text of its places. -/
theorem relevantExcerpt_eq (unicode : UnicodeTables) (long : cap < text.length) :
    relevantExcerpt unicode text cap = (excerptPlaces unicode text cap).map (letterAt text) := by
  rw [relevantExcerpt, if_neg (Nat.not_le_of_lt long), excerptPlaces]
  have placed := mergeSpans_wellPlaced (recordedSpans_wellPlaced unicode text)
  change (match recordedSpans unicode text with
    | [] => text.take cap
    | spans => (pieceSeparator.intercalate (text.take 1500 :: takePieces text cap
        (text.take 1500).length (mergeSpans spans))).take cap) = _
  generalize recordedSpans unicode text = recorded at placed
  cases recorded with
  | nil => simpa [slice] using (@map_readings text 0 cap long.le).symm
  | cons span rest =>
      have head : text.take 1500 =
          (readings Char (0, min 1500 text.length)).map (letterAt text) := by
        rw [map_readings text (Nat.min_le_right _ _), slice, List.drop_zero, List.take_eq_take_iff]
        omega
      simp only [List.map_take, map_joinedReadings, List.map_cons, ← head, List.length_take]
      rw [takePieces_eq placed]

/-- Windows that fit are all kept, but for empty ones at the end. -/
theorem keptSpans_of_fit
    (fits : total + (spans.map fun span => span.2 - span.1).sum ≤ cap) :
    ∃ dropped, spans = keptSpans cap total spans ++ dropped ∧
      ∀ span ∈ dropped, span.2 ≤ span.1 := by
  induction spans generalizing total with
  | nil => exact ⟨[], rfl, by simp⟩
  | cons span rest ih =>
      rw [List.map_cons, List.sum_cons] at fits
      rw [keptSpans]
      split
      · refine ⟨span :: rest, rfl, fun other member => ?_⟩
        have none : ((span :: rest).map fun span => span.2 - span.1).sum = 0 := by
          rw [List.map_cons, List.sum_cons]
          omega
        exact Nat.sub_eq_zero_iff_le.mp
          (List.sum_eq_zero_iff_forall_eq_nat.mp none _ (List.mem_map_of_mem member))
      · have stop : min span.2 (span.1 + (cap - total)) = span.2 := by omega
        obtain ⟨dropped, same, empty⟩ := @ih (total + (span.2 - span.1)) (by omega)
        exact ⟨dropped, by simp only [stop, List.cons_append, ← same], empty⟩

end Taken

/-! ## What the excerpt keeps -/

section Kept

variable {length head cap start stop : Nat} {merged : List Span}

/-- The lengths of the windows are the places they cover. -/
theorem sum_of_separated (separated : Separated merged)
    (placed : ∀ span ∈ merged, WellPlaced length span) :
    (merged.map fun span => span.2 - span.1).sum = coveredBelow (InSpans merged) length := by
  rw [Spans.coveredBelow_eq separated]
  refine congrArg List.sum (List.map_congr_left fun span member => ?_)
  have := placed span member
  simp only [WellPlaced] at this
  omega

/-- A stretch lies in a kept window before the cut exactly when the windows cover it and the
places and separators before its end fit. -/
theorem kept_window_iff (separated : Separated merged)
    (placed : ∀ span ∈ merged, WellPlaced length span)
    (fits : head + coveredBelow (InSpans merged) length ≤ cap) (present : start < stop)
    (within : stop ≤ length) (gap : Nat) :
    (∃ front span back, keptSpans cap head merged = front ++ span :: back ∧
      span.1 ≤ start ∧ stop ≤ span.2 ∧
      (((0, head) :: front).map fun earlier : Span => earlier.2 - earlier.1).sum +
        gap * ((0, head) :: front).length + (stop - span.1) ≤ cap) ↔
      (∀ place, start ≤ place → place < stop → InSpans merged place) ∧
        head + coveredBelow (InSpans merged) stop +
          gap * begunBelow (InSpans merged) stop ≤ cap := by
  rw [← sum_of_separated separated placed] at fits
  obtain ⟨dropped, whole, empty⟩ := keptSpans_of_fit fits
  have counted : ∀ front span back, keptSpans cap head merged = front ++ span :: back →
      span.1 ≤ start → stop ≤ span.2 →
      coveredBelow (InSpans merged) stop =
          (front.map fun earlier => earlier.2 - earlier.1).sum + (stop - span.1) ∧
        begunBelow (InSpans merged) stop = front.length + 1 := by
    intro front span back kept starts ends
    have same : merged = front ++ span :: (back ++ dropped) := by
      rw [whole, kept, List.append_assoc, List.cons_append]
    clear whole
    subst same
    obtain ⟨ahead, -⟩ := Spans.around_split separated ends
    have proper : ∀ other ∈ front ++ span :: (back ++ dropped), other.1 < stop →
        other.1 < other.2 := by
      intro other member begun
      have := placed other member
      simp only [WellPlaced] at this
      omega
    have sorted : ∀ earlier ∈ front, earlier.1 < stop := by
      intro earlier member
      have := ahead earlier member
      have := placed earlier (List.mem_append_left _ member)
      simp only [WellPlaced] at this
      omega
    exact ⟨Spans.coveredBelow_of_split separated (starts.trans_lt present) ends,
      Spans.begunBelow_of_split separated proper (starts.trans_lt present) ends sorted⟩
  constructor
  · rintro ⟨front, span, back, kept, starts, ends, room⟩
    obtain ⟨covered, begun⟩ := counted front span back kept starts ends
    have member : span ∈ merged := by
      rw [whole, kept]
      simp
    refine ⟨fun place low high => ⟨span, member, starts.trans low, high.trans_le ends⟩, ?_⟩
    rw [covered, begun]
    simp only [List.map_cons, List.sum_cons, List.length_cons] at room
    omega
  · rintro ⟨covered, room⟩
    obtain ⟨span, member, starts, ends⟩ := Spans.exists_span_of_covered separated present covered
    rw [whole] at member
    have inKept : span ∈ keptSpans cap head merged := by
      refine (List.mem_append.mp member).resolve_right fun inDropped => ?_
      have := empty span inDropped
      omega
    obtain ⟨front, back, kept⟩ := List.append_of_mem inKept
    obtain ⟨below, begun⟩ := counted front span back kept starts ends
    refine ⟨front, span, back, kept, starts, ends, ?_⟩
    rw [below, begun] at room
    simp only [List.map_cons, List.sum_cons, List.length_cons]
    omega

/-- A stretch that does not go on behind the text lies in the head exactly when it ends
there. -/
theorem head_window_iff (fits : min 1500 length ≤ cap) (within : stop ≤ length) (gap : Nat) :
    (0 ≤ start ∧ stop ≤ min 1500 length ∧
      (([] : List Span).map fun earlier => earlier.2 - earlier.1).sum +
        gap * ([] : List Span).length + (stop - 0) ≤ cap) ↔ stop ≤ 1500 := by
  simp only [List.map_nil, List.sum_nil, List.length_nil]
  omega

end Kept

section Excerpts

variable {unicode : UnicodeTables} {text : List Char} {cap : Nat}

theorem coveredBelow_mergeSpans (spans : List Span) (bound : Nat) :
    coveredBelow (InSpans (mergeSpans spans)) bound = coveredBelow (InSpans spans) bound :=
  List.countP_congr fun place _ => by simp only [inSpans_mergeSpans]

theorem begunBelow_mergeSpans (spans : List Span) (bound : Nat) :
    begunBelow (InSpans (mergeSpans spans)) bound = begunBelow (InSpans spans) bound :=
  List.countP_congr fun place _ => by simp only [inSpans_mergeSpans]

/-- The window of a place of the text is shown as one stretch exactly when it lies in the
head or is covered before the cut. -/
theorem window_infix_iff (fits : WindowsFit unicode text cap) {place : Nat}
    (member : place ∈ searchedPlaces unicode text) :
    readings Char (windowAt text.length place) <:+: excerptPlaces unicode text cap ↔
      ShowsWindow unicode text cap (windowAt text.length place) := by
  have below := mem_searchedPlaces_lt member
  have recorded : recordedSpans unicode text ≠ [] := fun none => by
    rw [searchedPlaces_of_recordedSpans_nil none] at member
    cases member
  have places : excerptPlaces unicode text cap = (joinedReadings pieceSeparator
      ((0, min 1500 text.length) :: keptSpans cap (min 1500 text.length)
        (mergeSpans (recordedSpans unicode text)))).take cap := by
    rw [excerptPlaces]
    cases same : recordedSpans unicode text with
    | nil => exact absurd same recorded
    | cons span rest => rfl
  have present : place - 600 < min text.length (place + 1400) := by omega
  have within : min text.length (place + 1400) ≤ text.length := Nat.min_le_left _ _
  have room : min 1500 text.length +
      coveredBelow (InSpans (mergeSpans (recordedSpans unicode text))) text.length ≤ cap := by
    rw [coveredBelow_mergeSpans]
    exact fits
  have merged := kept_window_iff (mergeSpans_separated (recordedSpans unicode text))
    (mergeSpans_wellPlaced (recordedSpans_wellPlaced unicode text)) room present within
    pieceSeparator.length
  simp only [coveredBelow_mergeSpans, begunBelow_mergeSpans, inSpans_mergeSpans] at merged
  rw [places]
  unfold windowAt
  refine (Spans.readings_infix_iff (by decide) present cap).trans ?_
  exact Spans.exists_split_cons.trans ((or_congr_right merged).trans (or_congr_left
    (head_window_iff ((Nat.le_add_right _ _).trans room) within _)))

/-- **The excerpt keeps its promise where the search and the cut let it.** The excerpt of a
long text is never longer than the cap. Where the windows fit the budget, it shows every one of
the first twenty occurrences of each keyword with what stands around it exactly when each of
these windows lies in the head, or is covered by the windows of the hits and ends before the
cut when the separators count. -/
theorem relevant_excerpt_keeps_iff (unicode : UnicodeTables) (text : List Char) (cap : Nat)
    (long : cap < text.length) :
    KeepsOccurrences unicode text cap ↔
      (WindowsFit unicode text cap → ∀ place ∈ searchedPlaces unicode text,
        ShowsWindow unicode text cap (windowAt text.length place)) := by
  constructor
  · intro kept fits place member
    exact (window_infix_iff fits member).mp (kept.whole fits place member)
  · intro shows
    refine ⟨?_, fun fits place member =>
      (window_infix_iff fits member).mpr (shows fits place member)⟩
    rw [relevantExcerpt_eq unicode long, List.length_map, excerptPlaces]
    split
    · simp
    · exact List.length_take_le _ _

end Excerpts

/-! ## Prices between two searches -/

section Pages

variable {text : List Char}

/-- The letters of a page of prices. -/
def priceLetters : List Char := "$x0123456789".toList

/-- Every other keyword has a letter that no price has. -/
theorem excerptKeywords_eq : ∃ others, excerptKeywords = ['$'] :: others ∧
    ∀ keyword ∈ others, ∃ c ∈ keyword, c ∉ priceLetters := by
  refine ⟨excerptKeywords.tail, rfl, fun keyword member => ?_⟩
  have foreign : (excerptKeywords.tail.all fun keyword =>
      keyword.any fun c => !priceLetters.contains c) = true := by decide +kernel
  obtain ⟨c, inside, absent⟩ := List.any_eq_true.mp (List.all_eq_true.mp foreign keyword member)
  exact ⟨c, inside, by simpa using absent⟩

theorem lower_price (plain : ∀ c ∈ text, c ∈ priceLetters) :
    Database.asciiTables.lower text = text := by
  have fixed : (priceLetters.all fun c => c.toLower = c) = true := by decide +kernel
  refine (List.map_congr_left fun c member => ?_).trans (List.map_id text)
  exact of_decide_eq_true (List.all_eq_true.mp fixed c (plain c member))

/-- A keyword with a letter that the text lacks stands nowhere in it. -/
theorem not_stands {keyword lowered : List Char} {c : Char} (inside : c ∈ keyword)
    (absent : c ∉ lowered) (offset : Nat) :
    keyword.isPrefixOf (lowered.drop offset) = false := by
  refine Bool.eq_false_iff.mpr fun stands => absent ?_
  exact (List.drop_subset _ _) ((List.isPrefixOf_iff_prefix.mp stands).subset inside)

/-- A keyword with a character that the rest of the text lacks is not found there. -/
theorem findFrom_eq_none {keyword lowered : List Char} {c : Char} {start : Nat}
    (inside : c ∈ keyword) (absent : c ∉ lowered.drop start) :
    findFrom keyword lowered start = none := by
  rw [findFrom, Option.map_eq_none_iff, List.findIdx?_eq_none_iff]
  intro tail member
  refine Bool.eq_false_iff.mpr fun stands => absent ?_
  exact ((List.mem_tails _ _).mp member).subset
    ((List.isPrefixOf_iff_prefix.mp stands).subset inside)

/-- On a text of price letters only dollar signs record spans. -/
theorem recordedSpans_price (plain : ∀ c ∈ text, c ∈ priceLetters) :
    recordedSpans Database.asciiTables text = keywordSpans ['$'] text text.length 20 0 := by
  obtain ⟨others, same, foreign⟩ := excerptKeywords_eq
  have silent : others.flatMap (fun keyword =>
      keywordSpans keyword text text.length 20 0) = [] := by
    refine List.flatMap_eq_nil_iff.mpr fun keyword member => ?_
    obtain ⟨c, inside, absent⟩ := foreign keyword member
    rw [keywordSpans, findFrom_eq_none inside fun written =>
      absent (plain c (List.drop_subset _ _ written))]
  rw [recordedSpans, lower_price plain, same, List.flatMap_cons, silent, List.append_nil]

/-- On such a text a dollar sign stands where one is written. -/
theorem stands_dollar_iff (plain : ∀ c ∈ text, c ∈ priceLetters) {place : Nat}
    (below : place < text.length) :
    StandsAt Database.asciiTables ['$'] text place ↔ text[place]? = some '$' := by
  have size : (Database.asciiTables.lower (text.take place)).length = place := by
    rw [lower_price fun c member => plain c (List.mem_of_mem_take member), List.length_take,
      Nat.min_eq_left below.le]
  rw [StandsAt, lower_price plain, size, List.drop_eq_getElem_cons below,
    List.getElem?_eq_getElem below]
  simp only [List.isPrefixOf, Bool.and_true, beq_iff_eq, Option.some.injEq]
  exact eq_comm

/-- The places of a character are as many as its occurrences. -/
theorem countP_range_getElem? (text : List Char) (c : Char) :
    (List.range text.length).countP (fun place => text[place]? = some c) = text.count c := by
  induction text with
  | nil => rfl
  | cons first rest ih =>
      rw [List.length_cons, List.range_succ_eq_map, List.countP_cons, List.countP_map,
        List.count_cons, ← ih]
      simp [Function.comp_def]

theorem length_occurrences (plain : ∀ c ∈ text, c ∈ priceLetters) :
    (occurrences Database.asciiTables ['$'] text).length = text.count '$' := by
  rw [occurrences, ← List.countP_eq_length_filter, ← countP_range_getElem?]
  exact List.countP_congr fun place member => by
    simp only [decide_eq_true_eq, stands_dollar_iff plain (List.mem_range.mp member)]

/-- On a page of prices the search is for the dollar sign. -/
theorem mem_searchedPlaces_price (plain : ∀ c ∈ text, c ∈ priceLetters)
    (few : text.count '$' ≤ 20) {place : Nat} :
    place ∈ searchedPlaces Database.asciiTables text ↔ text[place]? = some '$' := by
  obtain ⟨others, same, foreign⟩ := excerptKeywords_eq
  have silent : others.flatMap (fun keyword =>
      (occurrences Database.asciiTables keyword text).take 20) = [] := by
    refine List.flatMap_eq_nil_iff.mpr fun keyword member => ?_
    obtain ⟨c, inside, absent⟩ := foreign keyword member
    have none : occurrences Database.asciiTables keyword text = [] := by
      refine List.filter_eq_nil_iff.mpr fun place _ stands => ?_
      have missing := not_stands inside fun written => absent (plain c written)
      rw [decide_eq_true_eq, StandsAt, lower_price plain, missing] at stands
      exact Bool.false_ne_true stands
    rw [none, List.take_nil]
  have all : (occurrences Database.asciiTables ['$'] text).take 20 =
      occurrences Database.asciiTables ['$'] text :=
    List.take_of_length_le ((length_occurrences plain).trans_le few)
  rw [searchedPlaces, same, List.flatMap_cons, silent, List.append_nil, all, occurrences,
    List.mem_filter, List.mem_range, decide_eq_true_eq]
  constructor
  · exact fun ⟨below, stands⟩ => (stands_dollar_iff plain below).mp stands
  · intro written
    have below : place < text.length := (List.getElem?_eq_some_iff.mp written).1
    exact ⟨below, (stands_dollar_iff plain below).mpr written⟩

end Pages

/-- Characters between prices. -/
def filler (count : Nat) : List Char := List.replicate count 'x'

@[simp] theorem length_filler (count : Nat) : (filler count).length = count :=
  List.length_replicate

@[simp] theorem mem_filler {count : Nat} {c : Char} : c ∈ filler count ↔ count ≠ 0 ∧ c = 'x' :=
  List.mem_replicate

@[simp] theorem count_filler (count : Nat) : (filler count).count '$' = 0 :=
  List.count_eq_zero.mpr fun member => absurd (mem_filler.mp member).2 (by decide)

/-- A page with one price, far from its head. -/
def quotedPage : List Char := filler 3000 ++ "$1450".toList ++ filler 12000

/-- A page with a price 1500 characters after its first. -/
def rentPage : List Char := "$1".toList ++ filler 1500 ++ "$3902".toList ++ filler 13000

theorem filler_plain (count : Nat) : ∀ c ∈ filler count, c ∈ priceLetters := by
  intro c member
  rw [(mem_filler.mp member).2]
  decide

theorem price_plain {price : List Char} (digits : (price.all priceLetters.contains) = true) :
    ∀ c ∈ price, c ∈ priceLetters := by
  simpa using digits

theorem quotedPage_plain : ∀ c ∈ quotedPage, c ∈ priceLetters :=
  List.forall_mem_append.mpr ⟨List.forall_mem_append.mpr
    ⟨filler_plain 3000, price_plain (by decide)⟩, filler_plain 12000⟩

theorem rentPage_plain : ∀ c ∈ rentPage, c ∈ priceLetters :=
  List.forall_mem_append.mpr ⟨List.forall_mem_append.mpr ⟨List.forall_mem_append.mpr
    ⟨price_plain (by decide), filler_plain 1500⟩, price_plain (by decide)⟩, filler_plain 13000⟩

theorem quotedPage_length : quotedPage.length = 15005 := by simp [quotedPage]
theorem rentPage_length : rentPage.length = 14507 := by simp [rentPage]

/-- The search stops at the first dollar sign. -/
theorem findFrom_dollar {front back : List Char} (absent : '$' ∉ front) :
    findFrom ['$'] (front ++ '$' :: back) 0 = some front.length := by
  have first : (front ++ '$' :: back).tails.findIdx? ['$'].isPrefixOf = some front.length := by
    induction front with
    | nil => rfl
    | cons letter front ih =>
        obtain ⟨here, later⟩ := not_or.mp (List.mem_cons.not.mp absent)
        rw [List.cons_append, List.tails_cons, List.findIdx?_cons, ih later]
        simp [List.isPrefixOf, here]
  rw [findFrom, List.drop_zero, first, Option.map_some, Nat.zero_add]

/-- Behind the last price it finds nothing. -/
theorem findFrom_filler {front : List Char} {start : Nat} (behind : front.length ≤ start)
    (count : Nat) : findFrom ['$'] (front ++ filler count) start = none := by
  refine findFrom_eq_none (List.mem_singleton.mpr rfl) fun member => ?_
  rw [List.drop_append, List.drop_eq_nil_of_le behind, List.nil_append] at member
  exact absurd (mem_filler.mp (List.drop_subset _ _ member)).2 (by decide)

/-- The one price of the page in the middle records one span. -/
theorem quotedPage_recorded :
    recordedSpans Database.asciiTables quotedPage = [(2400, 4400)] := by
  have here : findFrom ['$'] quotedPage 0 = some 3000 := by
    rw [quotedPage, List.append_assoc]
    exact (findFrom_dollar (by simp)).trans (by simp)
  have none : findFrom ['$'] quotedPage (3000 + 2000) = none := by
    rw [quotedPage]
    exact findFrom_filler (by simp) 12000
  rw [recordedSpans_price quotedPage_plain, keywordSpans, here]
  simp only
  rw [keywordSpans, none, quotedPage_length]
  rfl

/-- The price at the start records one span. -/
theorem rentPage_recorded :
    recordedSpans Database.asciiTables rentPage = [(0, 1400)] := by
  have here : findFrom ['$'] rentPage 0 = some 0 := @findFrom_dollar [] _ (by simp)
  have none : findFrom ['$'] rentPage (0 + 2000) = none := by
    rw [rentPage]
    exact findFrom_filler (by simp) 13000
  rw [recordedSpans_price rentPage_plain, keywordSpans, here]
  simp only
  rw [keywordSpans, none, rentPage_length]
  rfl

/-- The one dollar sign of the text is where the price was put. -/
theorem eq_of_price {before after place : Nat} {price : List Char} (single : '$' ∉ price)
    (written : (filler before ++ '$' :: (price ++ filler after))[place]? = some '$') :
    place = before := by
  rw [List.getElem?_append, length_filler] at written
  split at written
  · exact absurd (mem_filler.mp (List.mem_of_getElem? written)).2 (by decide)
  · next behind =>
      cases offset : place - before with
      | zero => omega
      | succ more =>
          rw [offset, List.getElem?_cons_succ] at written
          rcases List.mem_append.mp (List.mem_of_getElem? written) with inside | filled
          · exact absurd inside single
          · exact absurd (mem_filler.mp filled).2 (by decide)

theorem separated_singleton (span : Span) : Separated [span] := List.pairwise_singleton _ _

/-- A price far from the head is shown with its window. -/
theorem relevant_excerpt_keeps_quotedPage :
    KeepsOccurrences Database.asciiTables quotedPage maxPageChars := by
  have long : maxPageChars < quotedPage.length := by
    rw [quotedPage_length]
    decide
  refine (relevant_excerpt_keeps_iff Database.asciiTables quotedPage maxPageChars long).mpr
    fun _ place member => ?_
  have few : quotedPage.count '$' ≤ 20 := by simp [quotedPage]
  have written := (mem_searchedPlaces_price quotedPage_plain few).mp member
  rw [quotedPage, List.append_assoc] at written
  obtain rfl := eq_of_price (by decide) written
  refine .inr ?_
  rw [quotedPage_recorded, quotedPage_length, Spans.coveredBelow_eq (separated_singleton _),
    Spans.begunBelow_eq (separated_singleton _) (by decide)]
  exact ⟨fun place low high => ⟨_, List.mem_singleton.mpr rfl, low, high⟩, by decide⟩

theorem rentPage_places : excerptPlaces Database.asciiTables rentPage maxPageChars =
    (joinedReadings pieceSeparator [(0, 1500), (0, 1400)]).take maxPageChars := by
  rw [excerptPlaces, rentPage_recorded, rentPage_length]
  rfl

/-- The second price of a page is not searched, and its excerpt does not show it. -/
theorem price_between_searches_missed :
    WindowsFit Database.asciiTables rentPage maxPageChars ∧
      ¬KeepsOccurrences Database.asciiTables rentPage maxPageChars ∧
      '3' ∉ relevantExcerpt Database.asciiTables rentPage := by
  have fits : WindowsFit Database.asciiTables rentPage maxPageChars := by
    rw [WindowsFit, rentPage_recorded, rentPage_length,
      Spans.coveredBelow_eq (separated_singleton _)]
    decide
  have shown : ∀ reading ∈ excerptPlaces Database.asciiTables rentPage maxPageChars,
      (∃ place, reading = .inl place ∧ place < 1500) ∨
        ∃ mark ∈ pieceSeparator, reading = .inr mark := by
    intro reading read
    rw [rentPage_places] at read
    refine (Spans.eq_of_mem_joinedReadings (List.mem_of_mem_take read)).imp_left ?_
    rintro ⟨place, same, span, member, -, ends⟩
    refine ⟨place, same, ?_⟩
    rcases List.mem_cons.mp member with rfl | other
    · exact ends
    · obtain rfl := List.mem_singleton.mp other
      exact ends.trans (by decide)
  refine ⟨fits, fun kept => ?_, fun written => ?_⟩
  · have few : rentPage.count '$' ≤ 20 := by simp [rentPage]
    have price : rentPage[1502]? = some '$' := by simp [rentPage]
    have window := kept.whole fits 1502 ((mem_searchedPlaces_price rentPage_plain few).mpr price)
    rw [rentPage_length] at window
    have read : Sum.inl 1502 ∈ readings Char (windowAt 14507 1502) :=
      Spans.mem_readings.mpr (by decide)
    rcases shown _ (window.subset read) with ⟨place, same, early⟩ | ⟨mark, -, same⟩
    · cases same
      exact absurd early (by decide)
    · cases same
  · have long : maxPageChars < rentPage.length := by
      rw [rentPage_length]
      decide
    rw [relevantExcerpt_eq Database.asciiTables long] at written
    obtain ⟨reading, read, same⟩ := List.mem_map.mp written
    rcases shown reading read with ⟨place, rfl, early⟩ | ⟨mark, member, rfl⟩
    · have within : place < ("$1".toList ++ filler 1500).length := by
        simp
        omega
      have early : letterAt rentPage (.inl place) ∈ "$1".toList ++ filler 1500 := by
        change rentPage.getD place ' ' ∈ _
        rw [rentPage, List.append_assoc, List.getD_eq_getElem?_getD,
          List.getElem?_append_left within, List.getElem?_eq_getElem within]
        exact List.getElem_mem within
      rw [same] at early
      rcases List.mem_append.mp early with inPrice | filled
      · exact absurd inPrice (by decide)
      · exact absurd (mem_filler.mp filled).2 (by decide)
    · change mark = '3' at same
      subst same
      exact absurd member (by decide)

end RentalAgent
