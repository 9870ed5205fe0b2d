import RentalAgent.Foundation.Pattern

/-! # Searching and substituting

`search` finds the first place where a pattern matches, `sub` replaces every match that a
scan from left to right meets. For a plain pattern that always takes something, what a scan
of a text does before its end does not depend on what follows, unless a match reaches over
the end (`sub_append`). Nothing in the result of a substitution is matched again, if the
replacement holds off matches at both of its ends (`not_accepts_of_infix_sub`).
-/

universe u

namespace Pattern

variable {α : Type u}

/-! ## Searching -/

/-- A match in a text, in the three parts that a group in the middle of the pattern makes. -/
structure Excerpt (α : Type u) where
  skipped : List α
  opening : List α
  group : List α
  closing : List α
  after : List α

/-- `group(0)`. -/
def Excerpt.word (capture : Excerpt α) : List α :=
  capture.opening ++ capture.group ++ capture.closing

/-- The ways through three patterns, with what each of them takes. -/
def ways (opening group closing : Pattern α) (before rest : List α) : List (Nat × Nat × Nat) :=
  (opening.lengths before rest).flatMap fun first =>
    let before := (rest.take first).reverse ++ before
    let rest := rest.drop first
    (group.lengths before rest).flatMap fun second =>
      (closing.lengths ((rest.take second).reverse ++ before) (rest.drop second)).map fun third =>
        (first, second, third)

/-- A way through as the parts it takes. -/
def Excerpt.of (before rest : List α) (way : Nat × Nat × Nat) : Excerpt α where
  skipped := before.reverse
  opening := rest.take way.1
  group := (rest.drop way.1).take way.2.1
  closing := ((rest.drop way.1).drop way.2.1).take way.2.2
  after := ((rest.drop way.1).drop way.2.1).drop way.2.2

/-- `re.match` with a group. -/
def captureAt (opening group closing : Pattern α) (before rest : List α) : Option (Excerpt α) :=
  (ways opening group closing before rest).head?.map (Excerpt.of before rest)

/-- `re.search` with a group, from a place on. -/
def captureFrom (opening group closing : Pattern α) (before : List α) :
    List α → Option (Excerpt α)
  | [] => captureAt opening group closing before []
  | c :: rest =>
      (captureAt opening group closing before (c :: rest)).or
        (captureFrom opening group closing (c :: before) rest)

/-- `re.search` with a group. -/
def capture (opening group closing : Pattern α) (text : List α) : Option (Excerpt α) :=
  captureFrom opening group closing [] text

/-- `re.search`, the whole match as the group. -/
def search (pattern : Pattern α) (text : List α) : Option (Excerpt α) :=
  capture empty pattern empty text

/-- `re.search` finds something. -/
def occurs (pattern : Pattern α) (text : List α) : Bool := (pattern.search text).isSome

/-- `re.match` finds something. -/
def matchesStart (pattern : Pattern α) (text : List α) : Bool :=
  (pattern.lengths [] text).head?.isSome

variable {pattern opening group closing : Pattern α} {before text rest tail word : List α}
  {found : Excerpt α}

/-- A match with a group begins here, and each of its three parts matches where it stands. -/
theorem captureAt_spec (captured : captureAt opening group closing before rest = some found) :
    found.skipped = before.reverse ∧ rest = found.word ++ found.after ∧
      opening.Matches before found.opening (found.group ++ found.closing ++ found.after) ∧
      group.Matches (found.opening.reverse ++ before) found.group
        (found.closing ++ found.after) ∧
      closing.Matches (found.group.reverse ++ (found.opening.reverse ++ before)) found.closing
        found.after := by
  obtain ⟨way, first, rfl⟩ := Option.map_eq_some_iff.mp captured
  obtain ⟨one, oneMem, more⟩ := List.mem_flatMap.mp (List.mem_of_head? first)
  obtain ⟨two, twoMem, more⟩ := List.mem_flatMap.mp more
  obtain ⟨three, threeMem, rfl⟩ := List.mem_map.mp more
  obtain ⟨left, after, rfl, rfl, leftMatch⟩ := matches_of_mem_lengths oneMem
  simp only [List.take_left, List.drop_left] at twoMem threeMem
  obtain ⟨middle, after, rfl, rfl, middleMatch⟩ := matches_of_mem_lengths twoMem
  simp only [List.take_left, List.drop_left] at threeMem
  obtain ⟨right, after, rfl, rfl, rightMatch⟩ := matches_of_mem_lengths threeMem
  simp only [Excerpt.of, Excerpt.word, List.take_left, List.drop_left, List.append_assoc]
  exact ⟨trivial, trivial, leftMatch, middleMatch, rightMatch⟩

/-- What a search finds is a part of the text, matched where it stands. -/
theorem captureFrom_spec (captured : captureFrom opening group closing before rest = some found) :
    found.skipped ++ found.word ++ found.after = before.reverse ++ rest ∧
      before.length ≤ found.skipped.length ∧
      opening.Matches found.skipped.reverse found.opening
        (found.group ++ found.closing ++ found.after) ∧
      group.Matches (found.opening.reverse ++ found.skipped.reverse) found.group
        (found.closing ++ found.after) ∧
      closing.Matches (found.group.reverse ++ (found.opening.reverse ++ found.skipped.reverse))
        found.closing found.after := by
  induction rest generalizing before with
  | nil =>
      obtain ⟨skipped, split, first, second, third⟩ := captureAt_spec captured
      refine ⟨by rw [split, skipped, List.append_assoc], by simp [skipped], ?_⟩
      rw [skipped, List.reverse_reverse]
      exact ⟨first, second, third⟩
  | cons c rest ih =>
      rw [captureFrom, Option.or_eq_some_iff] at captured
      rcases captured with here | ⟨-, later⟩
      · obtain ⟨skipped, split, first, second, third⟩ := captureAt_spec here
        refine ⟨by rw [split, skipped, List.append_assoc], by simp [skipped], ?_⟩
        rw [skipped, List.reverse_reverse]
        exact ⟨first, second, third⟩
      · obtain ⟨split, further, matched⟩ := ih later
        refine ⟨by rw [split]; simp, ?_, matched⟩
        rw [List.length_cons] at further
        omega

theorem matchesStart_iff : pattern.matchesStart text = true ↔
    ∃ word after, text = word ++ after ∧ pattern.Matches [] word after := by
  rw [matchesStart, Option.isSome_iff_ne_none, Ne, List.head?_eq_none_iff, lengths_eq_nil_iff]
  simp only [not_forall, not_not, exists_prop]

/-! ## Scanning -/

/-- A piece of a scanned text. -/
inductive Piece (α : Type u)
  | kept (c : α)
  | found (word : List α)

/-- The pieces of a text from a place on, where the first `skip` letters belong to the match
before. A way through that takes nothing is no match. -/
def piecesFrom (pattern : Pattern α) : List α → Nat → List α → List (Piece α)
  | _, _, [] => []
  | before, skip + 1, c :: rest => piecesFrom pattern (c :: before) skip rest
  | before, 0, c :: rest =>
      match (pattern.lengths before (c :: rest)).head? with
      | some (more + 1) =>
          .found ((c :: rest).take (more + 1)) :: piecesFrom pattern (c :: before) more rest
      | _ => .kept c :: piecesFrom pattern (c :: before) 0 rest

/-- The matches and the letters between them, from left to right. -/
def pieces (pattern : Pattern α) (text : List α) : List (Piece α) := piecesFrom pattern [] 0 text

/-- `re.findall`. -/
def findAll (pattern : Pattern α) (text : List α) : List (List α) :=
  (pattern.pieces text).filterMap fun
    | .kept _ => none
    | .found word => some word

/-- A piece with its match replaced. -/
def Piece.replaced (replacement : List α) : Piece α → List α
  | .kept c => [c]
  | .found _ => replacement

/-- `re.sub`. -/
def sub (pattern : Pattern α) (replacement text : List α) : List α :=
  (pattern.pieces text).flatMap (Piece.replaced replacement)

/-- A piece as it stands in the text. -/
def Piece.source : Piece α → List α
  | .kept c => [c]
  | .found word => word

/-- The pieces of a text, joined, are the text. -/
theorem flatMap_source_piecesFrom (before : List α) (skip : Nat) :
    (piecesFrom pattern before skip rest).flatMap Piece.source = rest.drop skip := by
  induction rest generalizing before skip with
  | nil => simp [piecesFrom]
  | cons c rest ih =>
      cases skip with
      | zero =>
          rw [piecesFrom]
          split
          · rw [List.flatMap_cons, ih, Piece.source, List.take_succ_cons, List.cons_append,
              List.take_append_drop, List.drop_zero]
          · rw [List.flatMap_cons, ih, Piece.source, List.drop_zero, List.drop_zero,
              List.singleton_append]
      | succ skip => rw [piecesFrom, ih, List.drop_succ_cons]

/-- The pieces of a text make up the text. -/
theorem flatMap_source_pieces (text : List α) :
    (pattern.pieces text).flatMap Piece.source = text := by
  rw [pieces, flatMap_source_piecesFrom, List.drop_zero]

/-- A word that a scan finds is a part of the text. -/
theorem infix_of_mem_findAll (found : word ∈ pattern.findAll text) : word <:+: text := by
  obtain ⟨piece, member, read⟩ := List.mem_filterMap.mp found
  have whole : (pattern.pieces text).flatMap Piece.source = text := flatMap_source_pieces text
  cases piece with
  | kept c => cases read
  | found other =>
      cases read
      obtain ⟨front, back, split⟩ := List.append_of_mem member
      rw [split, List.flatMap_append, List.flatMap_cons, ← List.append_assoc] at whole
      exact ⟨_, _, whole⟩

/-- Places inside a match are passed over. -/
private theorem piecesFrom_skip (before : List α) (skip : Nat) :
    piecesFrom pattern before skip rest =
    piecesFrom pattern ((rest.take skip).reverse ++ before) 0 (rest.drop skip) := by
  induction skip generalizing before rest with
  | zero => rfl
  | succ skip ih =>
      cases rest with
      | nil => simp [piecesFrom]
      | cons c rest =>
          rw [piecesFrom, ih, List.take_succ_cons, List.drop_succ_cons, List.reverse_cons,
            List.append_assoc, List.singleton_append]

section Plain

variable (plain : pattern.plain = true) (consuming : pattern.consumes = true)

include plain

theorem lengths_anywhere (before before' : List α) :
    pattern.lengths before text = pattern.lengths before' text := by
  rw [lengths_append plain before before text [], lengths_append plain before' before text []]

/-- Pieces do not depend on what was read before, for a pattern that looks at nothing before it. -/
private theorem piecesFrom_anywhere (before before' : List α) (skip : Nat) :
    piecesFrom pattern before skip rest = piecesFrom pattern before' skip rest := by
  induction rest generalizing before before' skip with
  | nil => simp only [piecesFrom]
  | cons c rest ih =>
      cases skip with
      | zero =>
          rw [piecesFrom, piecesFrom, lengths_anywhere plain before before']
          split
          · rw [ih]
          · rw [ih]
      | succ skip => rw [piecesFrom, piecesFrom, ih]

/-- Where no match begins, the letter is kept. -/
theorem pieces_kept {c : α} (none : pattern.lengths [] (c :: rest) = []) :
    pattern.pieces (c :: rest) = .kept c :: pattern.pieces rest := by
  rw [pieces, piecesFrom, none, pieces, piecesFrom_anywhere plain [c] []]
  rfl

/-- The first way through a longer text is the first way through the text, if it ends in
it. -/
theorem head?_lengths_of_append {taken : Nat}
    (first : (pattern.lengths [] (text ++ tail)).head? = some taken)
    (within : taken ≤ text.length) : (pattern.lengths [] text).head? = some taken := by
  rw [lengths_append plain [] [] text tail]
  obtain ⟨others, split⟩ := List.head?_eq_some_iff.mp first
  rw [split, List.filter_cons, if_pos (decide_eq_true within), List.head?_cons]

theorem lengths_eq_nil_of_append (none : pattern.lengths [] (text ++ tail) = []) :
    pattern.lengths [] text = [] := by
  rw [lengths_append plain [] [] text tail, none, List.filter_nil]

include consuming

/-- Where a match begins, the first way through is taken. -/
theorem pieces_found {taken : Nat} (first : (pattern.lengths [] text).head? = some taken) :
    pattern.pieces text = .found (text.take taken) :: pattern.pieces (text.drop taken) := by
  obtain ⟨word, after, rfl, rfl, matched⟩ := matches_of_mem_lengths (List.mem_of_head? first)
  cases word with
  | nil => exact absurd rfl (ne_nil_of_matches consuming matched)
  | cons c word =>
      rw [List.take_left, List.drop_left, pieces, List.cons_append, piecesFrom]
      rw [List.cons_append, List.length_cons] at first
      rw [first]
      change .found ((c :: (word ++ after)).take (word.length + 1)) ::
        piecesFrom pattern [c] word.length (word ++ after) = _
      rw [piecesFrom_skip, piecesFrom_anywhere plain _ [], List.drop_left, List.take_succ_cons,
        List.take_left, pieces]

/-- The first step of a scan: a match that reaches over the end of the text, or a piece that
any longer start of the text has too. -/
theorem pieces_step (tail : List α) (present : text ≠ []) :
    (∃ word after, text ++ tail = word ++ after ∧ text.length < word.length ∧
      pattern.Accepts word ∧ pattern.pieces (text ++ tail) = .found word :: pattern.pieces after) ∨
    ∃ piece consumed remaining, text = consumed ++ remaining ∧ consumed ≠ [] ∧
      ∀ part other, remaining ++ tail = part ++ other →
        pattern.pieces (consumed ++ part) = piece :: pattern.pieces part := by
  cases first : (pattern.lengths [] (text ++ tail)).head? with
  | none =>
      have none := List.head?_eq_none_iff.mp first
      cases text with
      | nil => exact absurd rfl present
      | cons c text =>
          refine .inr ⟨.kept c, [c], text, rfl, List.cons_ne_nil _ _, fun part other split => ?_⟩
          rw [List.cons_append, split, ← List.cons_append] at none
          exact pieces_kept plain (lengths_eq_nil_of_append plain none)
  | some taken =>
      obtain ⟨word, after, split, rfl, matched⟩ :=
        matches_of_mem_lengths (List.mem_of_head? first)
      have accepted : pattern.Accepts word := (matches_iff_accepts plain).mp matched
      by_cases within : word.length ≤ text.length
      · obtain ⟨remaining, rfl⟩ : word <+: text :=
          List.prefix_of_prefix_length_le ⟨after, split.symm⟩ ⟨tail, rfl⟩ within
        refine .inr ⟨.found word, word, remaining, rfl, ne_nil_of_matches consuming matched,
          fun part other parts => ?_⟩
        rw [List.append_assoc, parts, ← List.append_assoc] at first
        have firstIn := head?_lengths_of_append plain first (by simp)
        rw [pieces_found plain consuming firstIn, List.take_left, List.drop_left]
      · refine .inl ⟨word, after, split, Nat.lt_of_not_le within, accepted, ?_⟩
        rw [pieces_found plain consuming first, split, List.take_left, List.drop_left]

/-- A scan of a text goes on into what follows, unless a match reaches over its end. -/
theorem pieces_append (text tail : List α) :
    pattern.pieces (text ++ tail) = pattern.pieces text ++ pattern.pieces tail ∨
      ∃ left start word after, text = left ++ start ∧ start ≠ [] ∧
        pattern.pieces text = pattern.pieces left ++ pattern.pieces start ∧
        start ++ tail = word ++ after ∧ start.length < word.length ∧ pattern.Accepts word ∧
        pattern.pieces (text ++ tail) =
          pattern.pieces left ++ .found word :: pattern.pieces after := by
  induction length : text.length using Nat.strong_induction_on generalizing text with
  | _ size ih =>
      by_cases present : text = []
      · rw [present]
        exact .inl rfl
      rcases pieces_step plain consuming tail present with
        ⟨word, after, split, longer, accepted, reached⟩ |
        ⟨piece, consumed, remaining, rfl, taken, step⟩
      · exact .inr ⟨[], text, word, after, rfl, present, rfl, split, longer, accepted, reached⟩
      have shorter : remaining.length < size := by
        rw [← length, List.length_append]
        have := List.length_pos_iff.mpr taken
        omega
      have onward := step (remaining ++ tail) [] (List.append_nil _).symm
      have alone := step remaining tail rfl
      rcases ih _ shorter remaining rfl with parts |
        ⟨left, start, word, after, rfl, starts, parts, split, longer, accepted, reached⟩
      · left
        rw [List.append_assoc, onward, parts, alone, List.cons_append]
      · right
        have leftward := step left (start ++ tail) (List.append_assoc _ _ _)
        refine ⟨consumed ++ left, start, word, after, (List.append_assoc _ _ _).symm, starts, ?_,
          split, longer, accepted, ?_⟩
        · rw [alone, parts, leftward, List.cons_append]
        · rw [List.append_assoc, onward, reached, leftward, List.cons_append]

variable {replacement : List α}

/-- A substitution goes through a boundary part by part, unless a match lies across it. -/
theorem sub_append (text tail : List α) :
    pattern.sub replacement (text ++ tail) =
        pattern.sub replacement text ++ pattern.sub replacement tail ∨
      ∃ left start word after, text = left ++ start ∧ start ≠ [] ∧
        pattern.sub replacement text =
          pattern.sub replacement left ++ pattern.sub replacement start ∧
        start ++ tail = word ++ after ∧ start.length < word.length ∧ pattern.Accepts word ∧
        pattern.sub replacement (text ++ tail) = pattern.sub replacement left ++
          (replacement ++ pattern.sub replacement after) := by
  rcases pieces_append plain consuming text tail with parts |
    ⟨left, start, word, after, split, starts, parts, reach, longer, accepted, reached⟩
  · left
    rw [sub, sub, sub, parts, List.flatMap_append]
  · refine .inr ⟨left, start, word, after, split, starts, ?_, reach, longer, accepted, ?_⟩
    · rw [sub, sub, sub, parts, List.flatMap_append]
    · rw [sub, sub, sub, reached, List.flatMap_append, List.flatMap_cons]
      rfl

omit consuming in
theorem sub_kept {c : α} (none : pattern.lengths [] (c :: rest) = []) :
    pattern.sub replacement (c :: rest) = c :: pattern.sub replacement rest := by
  rw [sub, pieces_kept plain none, List.flatMap_cons]
  rfl

/-- Induction along a substitution: a letter is kept where no match begins, and a match gives
way to the replacement. -/
theorem sub_induction (motive : List α → List α → Prop) (nil : motive [] [])
    (kept : ∀ c rest, pattern.lengths [] (c :: rest) = [] →
      motive rest (pattern.sub replacement rest) →
      motive (c :: rest) (c :: pattern.sub replacement rest))
    (found : ∀ word after, pattern.Accepts word → motive after (pattern.sub replacement after) →
      motive (word ++ after) (replacement ++ pattern.sub replacement after)) (text : List α) :
    motive text (pattern.sub replacement text) := by
  induction length : text.length using Nat.strong_induction_on generalizing text with
  | _ size ih =>
      cases first : (pattern.lengths [] text).head? with
      | none =>
          cases text with
          | nil => exact nil
          | cons c rest =>
              have none := List.head?_eq_none_iff.mp first
              rw [sub_kept plain none]
              exact kept c rest none (ih _ (by rw [← length]; exact Nat.lt_succ_self _) rest rfl)
      | some taken =>
          obtain ⟨word, after, rfl, rfl, matched⟩ :=
            matches_of_mem_lengths (List.mem_of_head? first)
          have positive := List.length_pos_iff.mpr (ne_nil_of_matches consuming matched)
          have result : pattern.sub replacement (word ++ after) =
              replacement ++ pattern.sub replacement after := by
            rw [sub, pieces_found plain consuming first, List.drop_left, List.flatMap_cons]
            rfl
          rw [result]
          refine found word after ((matches_iff_accepts plain).mp matched) (ih _ ?_ after rfl)
          rw [← length, List.length_append]
          omega

/-- A letter outside the pattern parts a substitution in two. -/
theorem sub_append_cons {c : α} (unused : pattern.uses c = false) (text tail : List α) :
    pattern.sub replacement (text ++ c :: tail) =
      pattern.sub replacement text ++ c :: pattern.sub replacement tail := by
  have kept : pattern.sub replacement (c :: tail) = c :: pattern.sub replacement tail := by
    have none : pattern.lengths [] (c :: tail) = [] := by
      rw [lengths_eq_nil_iff]
      intro word after split matched
      cases word with
      | nil => exact ne_nil_of_matches consuming matched rfl
      | cons other word =>
          obtain ⟨rfl, -⟩ := List.cons.inj split
          exact Bool.false_ne_true (unused.symm.trans (uses_of_mem matched List.mem_cons_self))
    exact sub_kept plain none
  rcases sub_append plain consuming text (c :: tail) with parts |
    ⟨left, start, word, after, -, -, -, reach, longer, accepted, -⟩
  · rw [parts, kept]
  · refine absurd (uses_of_mem accepted (?_ : c ∈ word)) (by simp [unused])
    have starts : start <+: word :=
      List.prefix_of_prefix_length_le ⟨c :: tail, reach⟩ ⟨after, rfl⟩ longer.le
    obtain ⟨more, rfl⟩ := starts
    rw [List.append_assoc] at reach
    cases more with
    | nil => simp at longer
    | cons other more =>
        obtain ⟨rfl, -⟩ := List.cons.inj (List.append_cancel_left reach)
        simp

/-- A start of the result is a start of the text, when it lacks the letter that the
replacement begins with. -/
theorem prefix_of_prefix_sub {c : α} {core : List α} (opens : replacement = c :: core)
    (lacks : c ∉ word) (start : word <+: pattern.sub replacement text) : word <+: text := by
  refine sub_induction plain consuming
    (fun text result => ∀ word, word <+: result → c ∉ word → word <+: text) ?_ ?_ ?_ text word
    start lacks
  · exact fun _ start _ => start
  · intro other rest _ ih word start lacks
    rcases List.prefix_cons_iff.mp start with rfl | ⟨more, rfl, starts⟩
    · exact List.nil_prefix
    · exact List.cons_prefix_cons.mpr
        ⟨rfl, ih more starts fun member => lacks (List.mem_cons_of_mem _ member)⟩
  · intro found after _ _ word start lacks
    rw [opens, List.cons_append] at start
    rcases List.prefix_cons_iff.mp start with rfl | ⟨more, rfl, -⟩
    · exact List.nil_prefix
    · exact absurd List.mem_cons_self lacks

omit plain consuming in
/-- A part that lacks the last letter of a text lies on one side of it. -/
theorem infix_of_infix_append_cons {c : α} (lacks : c ∉ word)
    (part : word <:+: text ++ c :: tail) : word <:+: text ∨ word <:+: tail := by
  rcases List.infix_append_iff.mp part with inText | inTail | ⟨left, right, rfl, ends, starts⟩
  · exact .inl inText
  · rcases List.infix_cons_iff.mp inTail with starts | inTail
    · rcases List.prefix_cons_iff.mp starts with rfl | ⟨more, rfl, -⟩
      · exact .inl List.nil_infix
      · exact absurd List.mem_cons_self lacks
    · exact .inr inTail
  · rcases List.prefix_cons_iff.mp starts with rfl | ⟨more, rfl, -⟩
    · rw [List.append_nil]
      exact .inl ends.isInfix
    · exact absurd (List.mem_append_right _ List.mem_cons_self) lacks

/-- The result of a substitution has nothing that the pattern matches, where the replacement
begins and ends with letters outside the pattern and has nothing in it that it matches. -/
theorem not_accepts_of_infix_sub {first last : α} {core middle : List α}
    (opens : replacement = first :: core) (firstUnused : pattern.uses first = false)
    (closes : replacement = middle ++ [last]) (lastUnused : pattern.uses last = false)
    (inert : ∀ word, word <:+: middle → ¬ pattern.Accepts word)
    (part : word <:+: pattern.sub replacement text) : ¬ pattern.Accepts word := by
  intro accepted
  have used (c : α) (member : c ∈ word) : pattern.uses c = true := uses_of_mem accepted member
  have present : word ≠ [] := ne_nil_of_matches consuming accepted
  revert part
  refine sub_induction plain consuming (fun _ result => ¬ word <:+: result) ?_ ?_ ?_ text
  · intro part
    exact present (List.infix_nil.mp part)
  · intro c rest none ih part
    rcases List.infix_cons_iff.mp part with start | part
    · rw [← sub_kept plain none] at start
      have lacks : first ∉ word := fun member => by simp [used first member] at firstUnused
      obtain ⟨after, split⟩ := prefix_of_prefix_sub plain consuming opens lacks start
      exact lengths_eq_nil_iff.mp none word after split.symm
        ((matches_iff_accepts plain).mpr accepted)
    · exact ih part
  · intro found after _ ih part
    have split : replacement ++ pattern.sub replacement after =
        middle ++ last :: pattern.sub replacement after := by
      rw [closes, List.append_assoc, List.singleton_append]
    rw [split] at part
    have lacks : last ∉ word := fun member => by simp [used last member] at lastUnused
    exact (infix_of_infix_append_cons lacks part).elim (inert word · accepted) ih

/-- A part of the result that lacks both ends of the replacement is a part of the text or of
the replacement. -/
theorem infix_of_infix_sub {first last : α} {core middle : List α}
    (opens : replacement = first :: core) (firstLacks : first ∉ word)
    (closes : replacement = middle ++ [last]) (lastLacks : last ∉ word)
    (part : word <:+: pattern.sub replacement text) : word <:+: middle ∨ word <:+: text := by
  refine sub_induction plain consuming
    (fun text result => word <:+: result → word <:+: middle ∨ word <:+: text) ?_ ?_ ?_ text part
  · exact Or.inr
  · intro c rest none ih part
    rcases List.infix_cons_iff.mp part with start | part
    · rw [← sub_kept plain none] at start
      exact .inr (prefix_of_prefix_sub plain consuming opens firstLacks start).isInfix
    · exact (ih part).imp id List.infix_cons
  · intro found after _ ih part
    have split : replacement ++ pattern.sub replacement after =
        middle ++ last :: pattern.sub replacement after := by
      rw [closes, List.append_assoc, List.singleton_append]
    rw [split] at part
    exact (infix_of_infix_append_cons lastLacks part).elim .inl fun part =>
      (ih part).imp id (List.infix_append_of_infix_right)

end Plain

end Pattern
