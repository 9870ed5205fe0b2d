import Mathlib.Algebra.GroupWithZero.Nat
import Mathlib.Data.List.Basic
import Mathlib.Data.List.Nodup
import Mathlib.Data.List.Range

/-! # Spans of a line

A span is a start and an end of places on a line, the end not included. Spans that are
separated are the stretches of the places they cover: a stretch of covered places lies in one
of them (`exists_span_of_covered`), and how many places are covered up to a place in a span,
and how many stretches have begun by then, is counted span by span (`coveredBelow_of_split`,
`begunBelow_of_split`). Where the readings of spans are joined with a gap and cut, a stretch is
read as a whole exactly when it lies in one span before the cut (`readings_infix_iff`).
-/

namespace Spans

/-- A start and an end. -/
abbrev Span := Nat × Nat

/-- The place is in one of the spans. -/
def InSpans (spans : List Span) (place : Nat) : Prop :=
  ∃ span ∈ spans, span.1 ≤ place ∧ place < span.2

instance (spans : List Span) (place : Nat) : Decidable (InSpans spans place) :=
  inferInstanceAs (Decidable (∃ span ∈ spans, _))

/-- Each span ends before the next starts. -/
def Separated (spans : List Span) : Prop := spans.Pairwise fun first second => first.2 < second.1

/-- How many places below a bound are covered. -/
def coveredBelow (covered : Nat → Prop) [DecidablePred covered] (bound : Nat) : Nat :=
  (List.range bound).countP covered

/-- How many stretches of covered places begin below a bound. -/
def begunBelow (covered : Nat → Prop) [DecidablePred covered] (bound : Nat) : Nat :=
  (List.range bound).countP fun place => covered place ∧ (place = 0 ∨ ¬covered (place - 1))

variable {span : Span} {spans front back : List Span} {place start stop bound : Nat}

@[simp] theorem not_inSpans_nil : ¬InSpans [] place := by simp [InSpans]

theorem inSpans_cons : InSpans (span :: spans) place ↔
    (span.1 ≤ place ∧ place < span.2) ∨ InSpans spans place := by
  simp only [InSpans, List.mem_cons, exists_eq_or_imp]

theorem separated_cons : Separated (span :: spans) ↔
    (∀ later ∈ spans, span.2 < later.1) ∧ Separated spans := List.pairwise_cons

/-! ## Stretches -/

/-- One of two spans ends before the other starts. -/
theorem Separated.apart_of_mem (separated : Separated spans) {first second : Span}
    (firstMem : first ∈ spans) (secondMem : second ∈ spans) :
    first = second ∨ first.2 < second.1 ∨ second.2 < first.1 := by
  induction spans with
  | nil => cases firstMem
  | cons span spans ih =>
      obtain ⟨ahead, rest⟩ := separated_cons.mp separated
      rcases List.mem_cons.mp firstMem with rfl | firstLater
      · rcases List.mem_cons.mp secondMem with rfl | secondLater
        · exact .inl rfl
        · exact .inr (.inl (ahead second secondLater))
      · rcases List.mem_cons.mp secondMem with rfl | secondLater
        · exact .inr (.inr (ahead first firstLater))
        · exact ih rest firstLater secondLater

/-- Covered places in a row lie in one of the spans. -/
theorem exists_span_of_covered (separated : Separated spans) (present : start < stop)
    (covered : ∀ place, start ≤ place → place < stop → InSpans spans place) :
    ∃ span ∈ spans, span.1 ≤ start ∧ stop ≤ span.2 := by
  obtain ⟨span, member, starts, ends⟩ := covered start le_rfl present
  refine ⟨span, member, starts, Nat.le_of_not_lt fun short => ?_⟩
  -- the place behind the span is in no other one
  obtain ⟨other, inside, before, after⟩ := covered span.2 ends.le short
  rcases separated.apart_of_mem member inside with rfl | behind | ahead
  · exact Nat.lt_irrefl _ after
  · omega
  · omega

/-- The beginning of a stretch is the start of a span, and the start of a span that is not
empty begins a stretch. -/
theorem begins_iff (separated : Separated spans)
    (proper : ∀ span ∈ spans, span.1 = place → span.1 < span.2) :
    InSpans spans place ∧ (place = 0 ∨ ¬InSpans spans (place - 1)) ↔
      ∃ span ∈ spans, span.1 = place := by
  constructor
  · rintro ⟨⟨span, member, starts, ends⟩, first⟩
    refine ⟨span, member, Nat.le_antisymm starts (Nat.le_of_not_lt fun later => ?_)⟩
    rcases first with zero | uncovered
    · omega
    · exact uncovered ⟨span, member, by omega, by omega⟩
  · rintro ⟨span, member, rfl⟩
    refine ⟨⟨span, member, le_rfl, proper span member rfl⟩, ?_⟩
    rcases Nat.eq_zero_or_pos span.1 with zero | positive
    · exact .inl zero
    · refine .inr fun ⟨other, inside, starts, ends⟩ => ?_
      have := proper span member rfl
      rcases separated.apart_of_mem member inside with rfl | behind | ahead <;> omega

/-! ## Counting -/

/-- Two kinds of rows that never coincide are counted one after the other. -/
theorem countP_or {Row : Type*} {first second : Row → Prop} [DecidablePred first]
    [DecidablePred second] {rows : List Row}
    (apart : ∀ row ∈ rows, first row → ¬second row) :
    rows.countP (fun row => first row ∨ second row) =
      rows.countP (fun row => first row) + rows.countP fun row => second row := by
  induction rows with
  | nil => rfl
  | cons row rest ih =>
      obtain ⟨here, later⟩ := List.forall_mem_cons.mp apart
      simp only [List.countP_cons, ih later, decide_eq_true_eq]
      by_cases one : first row
      · simp [one, here one]
        omega
      · by_cases two : second row
        · simp [one, two]
          omega
        · simp [one, two]

/-- The places of a span below a bound are as many as the bounded ends leave. -/
theorem countP_range_span (start stop bound : Nat) :
    (List.range bound).countP (fun place => start ≤ place ∧ place < stop) =
      min bound stop - min bound start := by
  induction bound with
  | zero => simp
  | succ bound ih =>
      rw [List.range_succ, List.countP_append, ih, List.countP_singleton]
      simp only [decide_eq_true_eq]
      split <;> omega

/-- The covered places below a bound are counted span by span. -/
theorem coveredBelow_eq (separated : Separated spans) (bound : Nat) :
    coveredBelow (InSpans spans) bound =
      (spans.map fun span => min bound span.2 - min bound span.1).sum := by
  induction spans with
  | nil => simp [coveredBelow]
  | cons span spans ih =>
      obtain ⟨ahead, rest⟩ := separated_cons.mp separated
      have apart : ∀ place ∈ List.range bound, (span.1 ≤ place ∧ place < span.2) →
          ¬InSpans spans place := by
        rintro place - inside ⟨later, member, starts, -⟩
        have := ahead later member
        omega
      have counted := countP_or apart
      rw [countP_range_span] at counted
      rw [List.map_cons, List.sum_cons, ← ih rest, coveredBelow, coveredBelow, ← counted]
      exact List.countP_congr fun place _ => by simp only [inSpans_cons]

/-- The stretches that begin below a bound are the spans that do. -/
theorem begunBelow_eq (separated : Separated spans)
    (proper : ∀ span ∈ spans, span.1 < bound → span.1 < span.2) :
    begunBelow (InSpans spans) bound = spans.countP fun span => span.1 < bound := by
  have starts : begunBelow (InSpans spans) bound =
      (List.range bound).countP fun place => ∃ span ∈ spans, span.1 = place :=
    List.countP_congr fun place below => by
      simp only [decide_eq_true_eq]
      exact begins_iff separated fun span member same =>
        proper span member (same ▸ List.mem_range.mp below)
  rw [starts]
  clear starts
  induction spans with
  | nil => simp
  | cons span spans ih =>
      obtain ⟨ahead, rest⟩ := separated_cons.mp separated
      obtain ⟨here, others⟩ := List.forall_mem_cons.mp proper
      have apart : ∀ place ∈ List.range bound, (span.1 ≤ place ∧ place < span.1 + 1) →
          ¬∃ later ∈ spans, later.1 = place := by
        rintro place below inside ⟨later, member, rfl⟩
        have behind := ahead later member
        have within := here (inside.1.trans_lt (List.mem_range.mp below))
        omega
      have counted := countP_or apart
      rw [countP_range_span, ih rest others] at counted
      have split : ((List.range bound).countP fun place =>
          ∃ later ∈ span :: spans, later.1 = place) = (List.range bound).countP fun place =>
            (span.1 ≤ place ∧ place < span.1 + 1) ∨ ∃ later ∈ spans, later.1 = place := by
        refine List.countP_congr fun place _ => ?_
        simp only [List.mem_cons, exists_eq_or_imp, decide_eq_true_eq]
        exact or_congr_left ⟨fun same => by omega, fun inside => by omega⟩
      rw [split, counted, List.countP_cons]
      simp only [decide_eq_true_eq]
      split <;> omega

/-- The spans around one that a bound is in. -/
theorem around_split (separated : Separated (front ++ span :: back)) (ends : bound ≤ span.2) :
    (∀ earlier ∈ front, earlier.2 < span.1) ∧ ∀ later ∈ back, bound < later.1 := by
  obtain ⟨-, tail, ahead⟩ := List.pairwise_append.mp separated
  exact ⟨fun earlier member => ahead earlier member span List.mem_cons_self,
    fun later member => ends.trans_lt ((List.pairwise_cons.mp tail).1 later member)⟩

/-- The places covered up to a place in a span: those of the spans before it, and its own. -/
theorem coveredBelow_of_split (separated : Separated (front ++ span :: back))
    (starts : span.1 < bound) (ends : bound ≤ span.2) :
    coveredBelow (InSpans (front ++ span :: back)) bound =
      (front.map fun earlier => earlier.2 - earlier.1).sum + (bound - span.1) := by
  obtain ⟨before, behind⟩ := around_split separated ends
  have frontSum : front.map (fun earlier => min bound earlier.2 - min bound earlier.1) =
      front.map fun earlier => earlier.2 - earlier.1 :=
    List.map_congr_left fun earlier member => by
      have := before earlier member
      omega
  have backSum : back.map (fun later => min bound later.2 - min bound later.1) =
      back.map fun _ => 0 :=
    List.map_congr_left fun later member => by
      have := behind later member
      omega
  rw [coveredBelow_eq separated, List.map_append, List.sum_append, frontSum, List.map_cons,
    List.sum_cons, backSum, List.map_const', List.sum_replicate_nat]
  omega

/-- The stretches begun by a place in a span: the spans before it, and the span itself. -/
theorem begunBelow_of_split (separated : Separated (front ++ span :: back))
    (proper : ∀ other ∈ front ++ span :: back, other.1 < bound → other.1 < other.2)
    (starts : span.1 < bound) (ends : bound ≤ span.2)
    (sorted : ∀ earlier ∈ front, earlier.1 < bound) :
    begunBelow (InSpans (front ++ span :: back)) bound = front.length + 1 := by
  obtain ⟨-, behind⟩ := around_split separated ends
  have frontCount : front.countP (fun earlier => earlier.1 < bound) = front.length :=
    List.countP_eq_length.mpr fun earlier member => decide_eq_true (sorted earlier member)
  have backCount : back.countP (fun later => later.1 < bound) = 0 :=
    List.countP_eq_zero.mpr fun later member => by
      have := behind later member
      simp only [decide_eq_true_eq]
      omega
  rw [begunBelow_eq separated proper, List.countP_append, List.countP_cons, frontCount, backCount]
  simp [starts]

/-! ## Readings -/

section Readings

variable {Mark : Type*} {gap : List Mark} {first : Mark}

/-- The places of a span in order. -/
def readings (Mark : Type*) (span : Span) : List (Nat ⊕ Mark) :=
  (List.range' span.1 (span.2 - span.1)).map Sum.inl

/-- The readings of spans, joined with a gap of marks. -/
def joinedReadings (gap : List Mark) (spans : List Span) : List (Nat ⊕ Mark) :=
  (gap.map Sum.inr).intercalate (spans.map (readings Mark))

/-- A stretch without a mark lies before the mark or behind it. -/
theorem infix_append_mark {Letter : Type*} {run left right : List Letter} {mark : Letter}
    (avoids : mark ∉ run) : run <:+: left ++ mark :: right ↔ run <:+: left ∨ run <:+: right := by
  constructor
  · rintro ⟨front, back, same⟩
    rcases List.append_eq_append_iff.mp same with ⟨rest, rfl, -⟩ | ⟨rest, whole, tail⟩
    · exact .inl ⟨front, rest, rfl⟩
    · rcases List.append_eq_append_iff.mp whole with ⟨piece, rfl, rfl⟩ | ⟨piece, rfl, rfl⟩
      · cases rest with
        | nil => exact .inl ⟨front, [], by simp⟩
        | cons letter rest =>
            cases tail
            exact absurd (List.mem_append_right _ List.mem_cons_self) avoids
      · cases piece with
        | nil =>
            cases run with
            | nil => exact .inl (List.nil_infix)
            | cons letter run =>
                cases tail
                exact absurd List.mem_cons_self avoids
        | cons letter piece =>
            cases tail
            exact .inr ⟨piece, back, rfl⟩
  · rintro (inside | inside)
    · exact inside.trans (List.prefix_append _ _).isInfix
    · exact inside.trans ((List.suffix_cons _ _).trans (List.suffix_append _ _)).isInfix

/-- A stretch without the mark lies in one of the pieces that are joined with it. -/
theorem infix_intercalate_mark {Letter : Type*} {run : List Letter} {pieces : List (List Letter)}
    {mark : Letter} (avoids : mark ∉ run) (letters : run ≠ []) :
    run <:+: [mark].intercalate pieces ↔ ∃ piece ∈ pieces, run <:+: piece := by
  induction pieces with
  | nil => simpa using letters
  | cons piece rest ih =>
      cases rest with
      | nil => simp
      | cons next rest =>
          rw [List.intercalate_cons_cons, List.append_assoc, List.singleton_append,
            infix_append_mark avoids, ih]
          simp only [List.mem_cons, exists_eq_or_imp]

/-- The same where what is read is cut. -/
theorem infix_take_mark {Letter : Type*} {run left right : List Letter} {mark : Letter}
    (avoids : mark ∉ run) (cap : Nat) : run <:+: (left ++ mark :: right).take cap ↔
      run <:+: left.take cap ∨ run <:+: right.take (cap - (left.length + 1)) := by
  rcases Nat.lt_or_ge left.length cap with within | cut
  · obtain ⟨more, rfl⟩ := Nat.exists_eq_add_of_lt within
    rw [List.take_append, show left.length + more + 1 - left.length = more + 1 by omega,
      List.take_succ_cons, infix_append_mark avoids,
      show left.length + more + 1 - (left.length + 1) = more by omega]
  · rw [List.take_append_of_le_length cut, Nat.sub_eq_zero_of_le (by omega), List.take_zero]
    exact ⟨.inl, fun inside => inside.elim id fun none =>
      List.eq_nil_of_infix_nil none ▸ List.nil_infix⟩

/-- A stretch without marks lies before a gap of marks or behind it. -/
theorem infix_take_gap {Letter : Type*} {run left right gap : List Letter} (some : gap ≠ [])
    (avoids : ∀ mark ∈ gap, mark ∉ run) (cap : Nat) :
    run <:+: (left ++ (gap ++ right)).take cap ↔
      run <:+: left.take cap ∨ run <:+: right.take (cap - (left.length + gap.length)) := by
  induction gap generalizing left cap with
  | nil => exact absurd rfl some
  | cons mark gap ih =>
      obtain ⟨here, others⟩ := List.forall_mem_cons.mp avoids
      rw [List.cons_append, infix_take_mark here]
      cases gap with
      | nil => rfl
      | cons next gap =>
          have step := @ih [] (List.cons_ne_nil _ _) others (cap - (left.length + 1))
          rw [List.nil_append] at step
          rw [step, List.take_nil, Nat.sub_sub]
          simp only [List.length_cons, List.length_nil, Nat.zero_add]
          rw [show left.length + 1 + (gap.length + 1) = left.length + (gap.length + 1 + 1) by omega]
          refine or_congr_right ⟨fun inside => inside.elim (fun none => ?_) id, .inr⟩
          exact List.eq_nil_of_infix_nil none ▸ List.nil_infix

@[simp] theorem length_readings : (readings Mark span).length = span.2 - span.1 := by
  simp [readings]

@[simp] theorem mem_readings :
    Sum.inl place ∈ readings Mark span ↔ span.1 ≤ place ∧ place < span.2 := by
  simp only [readings, List.mem_map, Sum.inl.injEq, exists_eq_right, List.mem_range'_1]
  omega

@[simp] theorem mark_notMem_readings {mark : Mark} : Sum.inr mark ∉ readings Mark span := by
  simp [readings]

/-- Spans that meet are read as one. -/
theorem readings_append {middle : Nat} (low : start ≤ middle) (high : middle ≤ stop) :
    readings Mark (start, middle) ++ readings Mark (middle, stop) =
      readings Mark (start, stop) := by
  obtain ⟨left, rfl⟩ := Nat.exists_eq_add_of_le low
  obtain ⟨right, rfl⟩ := Nat.exists_eq_add_of_le high
  simp only [readings, ← List.map_append, Nat.add_sub_cancel_left]
  rw [List.range'_append_1, show start + left + right - start = left + right by omega]

/-- The first readings of a span are those of its front. -/
theorem take_readings (cap : Nat) :
    (readings Mark span).take cap = readings Mark (span.1, min span.2 (span.1 + cap)) := by
  rw [readings, readings, ← List.map_take]
  congr 1
  rcases Nat.le_total cap (span.2 - span.1) with cut | within
  · rw [List.take_range'_of_length_ge cut]
    congr 1
    omega
  · rw [List.take_range'_of_length_le within]
    congr 1
    omega

/-- A stretch is read in a cut span when it lies in the span before the cut. -/
theorem readings_infix_take (present : start < stop) (cap : Nat) :
    readings Mark (start, stop) <:+: (readings Mark span).take cap ↔
      span.1 ≤ start ∧ stop ≤ span.2 ∧ stop - span.1 ≤ cap := by
  rw [take_readings]
  constructor
  · intro inside
    have low := mem_readings.mp (inside.subset (mem_readings.mpr ⟨le_rfl, present⟩))
    have high := mem_readings.mp (inside.subset (mem_readings.mpr
      (⟨by omega, by omega⟩ : start ≤ stop - 1 ∧ stop - 1 < stop)))
    dsimp only at low high
    omega
  · rintro ⟨starts, ends, within⟩
    refine ⟨readings Mark (span.1, start), readings Mark (stop, min span.2 (span.1 + cap)), ?_⟩
    rw [readings_append starts present.le, readings_append (by omega) (by omega)]

theorem joinedReadings_cons (gap : List Mark) (span next : Span) (spans : List Span) :
    joinedReadings gap (span :: next :: spans) =
      readings Mark span ++ (gap.map Sum.inr ++ joinedReadings gap (next :: spans)) := by
  simp [joinedReadings, List.intercalate]

theorem eq_inl_of_mem_readings {reading : Nat ⊕ Mark} (read : reading ∈ readings Mark span) :
    ∃ place, reading = .inl place ∧ span.1 ≤ place ∧ place < span.2 := by
  cases reading with
  | inl place => exact ⟨place, rfl, mem_readings.mp read⟩
  | inr mark => exact absurd read mark_notMem_readings

/-- What is read are places of the spans and marks of the gap. -/
theorem eq_of_mem_joinedReadings {reading : Nat ⊕ Mark}
    (read : reading ∈ joinedReadings gap spans) :
    (∃ place, reading = .inl place ∧ InSpans spans place) ∨ ∃ mark ∈ gap, reading = .inr mark := by
  induction spans with
  | nil => simp [joinedReadings, List.intercalate] at read
  | cons span spans ih =>
      simp only [inSpans_cons]
      cases spans with
      | nil =>
          rw [joinedReadings, List.map_singleton, List.intercalate_singleton] at read
          obtain ⟨place, same, inside⟩ := eq_inl_of_mem_readings read
          exact .inl ⟨place, same, .inl inside⟩
      | cons next spans =>
          rw [joinedReadings_cons, List.mem_append, List.mem_append] at read
          rcases read with here | between | later
          · obtain ⟨place, same, inside⟩ := eq_inl_of_mem_readings here
            exact .inl ⟨place, same, .inl inside⟩
          · obtain ⟨mark, member, rfl⟩ := List.mem_map.mp between
            exact .inr ⟨mark, member, rfl⟩
          · exact (ih later).imp_left fun ⟨place, same, covered⟩ => ⟨place, same, .inr covered⟩

/-- A part of a list that is not empty is its first element, or a later one. -/
theorem exists_split_cons {Row : Type*} {row : Row} {rest : List Row}
    {holds : List Row → Row → Prop} :
    (∃ front chosen back, row :: rest = front ++ chosen :: back ∧ holds front chosen) ↔
      holds [] row ∨
        ∃ front chosen back, rest = front ++ chosen :: back ∧ holds (row :: front) chosen := by
  constructor
  · rintro ⟨front, chosen, back, same, holding⟩
    cases front with
    | nil =>
        cases same
        exact .inl holding
    | cons first front =>
        cases same
        exact .inr ⟨front, chosen, back, rfl, holding⟩
  · rintro (holding | ⟨front, chosen, back, rfl, holding⟩)
    · exact ⟨[], row, rest, rfl, holding⟩
    · exact ⟨row :: front, chosen, back, rfl, holding⟩

/-- **What is read as a whole.** A stretch stands in the joined readings of spans, cut at a
length, exactly when one span has it and the cut comes after it: the spans before it are read
in full, each with a gap behind it, and then the span as far as the stretch goes. -/
theorem readings_infix_iff (some : gap ≠ []) (present : start < stop) (cap : Nat) :
    readings Mark (start, stop) <:+: (joinedReadings gap spans).take cap ↔
      ∃ front span back, spans = front ++ span :: back ∧ span.1 ≤ start ∧ stop ≤ span.2 ∧
        (front.map fun earlier => earlier.2 - earlier.1).sum + gap.length * front.length +
          (stop - span.1) ≤ cap := by
  induction spans generalizing cap with
  | nil =>
      refine iff_of_false (fun inside => ?_) (by simp)
      have member := inside.subset (mem_readings.mpr ⟨le_rfl, present⟩)
      simp [joinedReadings, List.intercalate] at member
  | cons span spans ih =>
      refine Iff.trans ?_ exists_split_cons.symm
      cases spans with
      | nil =>
          have alone : joinedReadings gap [span] = readings Mark span := by
            simp [joinedReadings, List.intercalate]
          rw [alone, readings_infix_take present]
          simp
      | cons next spans =>
          have clear : ∀ mark ∈ gap.map Sum.inr, mark ∉ readings Mark (start, stop) := by
            simp
          rw [joinedReadings_cons, infix_take_gap (by simpa using some) clear,
            readings_infix_take present, ih]
          refine or_congr (by simp) (exists₃_congr fun front span back => ?_)
          refine and_congr_right fun _ => and_congr_right fun _ => and_congr_right fun _ => ?_
          simp only [length_readings, List.length_map, List.map_cons, List.sum_cons,
            List.length_cons, Nat.mul_succ]
          omega

end Readings

end Spans
