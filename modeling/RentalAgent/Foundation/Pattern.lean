import Mathlib.Data.List.Basic
import Mathlib.Data.List.Infix

/-! # Regular expressions that backtrack

A pattern is tried at a place of a text, its branches in order and its repetitions as often
as possible first, and the first way through decides what it matches. `Pattern.lengths`
lists the ways through by what each takes, in that order. `Pattern.Matches` is the relation
behind it: which words a pattern matches between what stands before and after
(`mem_lengths_iff`). A pattern without assertions matches a word wherever it stands
(`matches_iff_accepts`), and a text that ends earlier loses the longer ways and no other
(`lengths_append`).
-/

universe u

/-- A pattern over letters. -/
inductive Pattern (α : Type u)
  | empty
  | letter (accepts : α → Bool)
  | seq (first second : Pattern α)
  | alt (first second : Pattern α)
  | star (body : Pattern α)
  | boundary (isWord : α → Bool)
  | atEnd (isBreak : α → Bool)

namespace Pattern

variable {α : Type u}

/-! ## Derived forms -/

/-- `p?`. -/
def opt (body : Pattern α) : Pattern α := alt body empty

/-- `p+`. -/
def plus (body : Pattern α) : Pattern α := seq body (star body)

/-- `p{count}`. -/
def times (body : Pattern α) : Nat → Pattern α
  | 0 => empty
  | count + 1 => seq body (times body count)

/-- `p{0,count}`. -/
def upTo (body : Pattern α) : Nat → Pattern α
  | 0 => empty
  | count + 1 => opt (seq body (upTo body count))

/-- `p{low,high}`. -/
def between (low high : Nat) (body : Pattern α) : Pattern α :=
  seq (times body low) (upTo body (high - low))

/-- One pattern after the other. -/
def inSequence (parts : List (Pattern α)) : Pattern α := parts.foldr seq empty

/-- The first of the patterns that leads on. -/
def oneOf (branches : List (Pattern α)) : Pattern α :=
  branches.foldr alt (letter fun _ => false)

/-- The letters of a word, each up to `same`. -/
def literal (same : α → α → Bool) (word : List α) : Pattern α :=
  inSequence (word.map fun expected => letter (same expected))

/-! ## Ways through -/

/-- Rounds that each take something, as many as possible first. -/
def rounds (body : List α → List α → List Nat) : Nat → List α → List α → List Nat
  | 0, _, _ => [0]
  | fuel + 1, before, rest =>
      ((body before rest).filter (0 < ·)).flatMap (fun taken =>
        (rounds body fuel ((rest.take taken).reverse ++ before) (rest.drop taken)).map
          (taken + ·)) ++ [0]

/-- How much each way through takes, the ways in the order they are tried. What stands
before the place is given with its last letter first. -/
def lengths : Pattern α → List α → List α → List Nat
  | .empty, _, _ => [0]
  | .letter accepts, _, rest => if rest.head?.any accepts then [1] else []
  | .seq first second, before, rest =>
      (first.lengths before rest).flatMap fun taken =>
        (second.lengths ((rest.take taken).reverse ++ before) (rest.drop taken)).map (taken + ·)
  | .alt first second, before, rest => first.lengths before rest ++ second.lengths before rest
  | .star body, before, rest => rounds body.lengths rest.length before rest
  | .boundary isWord, before, rest =>
      if before.head?.any isWord ≠ rest.head?.any isWord then [0] else []
  | .atEnd isBreak, _, rest =>
      if rest = [] ∨ (rest.length = 1 ∧ rest.all isBreak) then [0] else []

/-! ## The relation -/

/-- Rounds of a relation, each over a word that is not empty. -/
inductive Rounds (body : List α → List α → List α → Prop) : List α → List α → List α → Prop
  | done (before after : List α) : Rounds body before [] after
  | round {before word more after : List α} (taken : word ≠ [])
      (once : body before word (more ++ after))
      (again : Rounds body (word.reverse ++ before) more after) :
      Rounds body before (word ++ more) after

/-- The pattern matches the word between what stands before it, last letter first, and what
stands after it. -/
def Matches : Pattern α → List α → List α → List α → Prop
  | .empty, _, word, _ => word = []
  | .letter accepts, _, word, _ => ∃ c, word = [c] ∧ accepts c = true
  | .seq first second, before, word, after => ∃ left right, word = left ++ right ∧
      first.Matches before left (right ++ after) ∧
      second.Matches (left.reverse ++ before) right after
  | .alt first second, before, word, after =>
      first.Matches before word after ∨ second.Matches before word after
  | .star body, before, word, after => Rounds body.Matches before word after
  | .boundary isWord, before, word, after =>
      word = [] ∧ before.head?.any isWord ≠ after.head?.any isWord
  | .atEnd isBreak, _, word, after =>
      word = [] ∧ (after = [] ∨ (after.length = 1 ∧ after.all isBreak = true))

/-- The pattern matches the word as a text of its own. -/
def Accepts (pattern : Pattern α) (word : List α) : Prop := pattern.Matches [] word []

variable {pattern : Pattern α} {before word after rest text tail : List α} {taken : Nat}

/-! ## Ways through and the relation -/

/-- Every way through a repetition is a word of the repetition, when that is so for its body. -/
private theorem rounds_sound {body : List α → List α → List Nat}
    {relation : List α → List α → List α → Prop}
    (sound : ∀ {before rest taken}, taken ∈ body before rest → ∃ word after,
      rest = word ++ after ∧ word.length = taken ∧ relation before word after)
    (fuel : Nat) (member : taken ∈ rounds body fuel before rest) :
    ∃ word after, rest = word ++ after ∧ word.length = taken ∧
      Rounds relation before word after := by
  induction fuel generalizing before rest taken with
  | zero =>
      rw [rounds, List.mem_singleton] at member
      exact ⟨[], rest, rfl, member.symm, .done _ _⟩
  | succ fuel ih =>
      rw [rounds, List.mem_append, List.mem_flatMap, List.mem_singleton] at member
      rcases member with ⟨once, onceMem, more⟩ | rfl
      · obtain ⟨onceMem, positive⟩ := List.mem_filter.mp onceMem
        obtain ⟨again, againMem, rfl⟩ := List.mem_map.mp more
        obtain ⟨word, after, rfl, rfl, matched⟩ := sound onceMem
        rw [List.take_left, List.drop_left] at againMem
        obtain ⟨others, after, rfl, rfl, rounds⟩ := ih againMem
        refine ⟨word ++ others, after, by rw [List.append_assoc], List.length_append, ?_⟩
        exact .round (List.length_pos_iff.mp (of_decide_eq_true positive)) matched rounds
      · exact ⟨[], rest, rfl, rfl, .done _ _⟩

/-- A way through takes a word that the pattern matches. -/
theorem matches_of_mem_lengths (member : taken ∈ pattern.lengths before rest) :
    ∃ word after, rest = word ++ after ∧ word.length = taken ∧
      pattern.Matches before word after := by
  induction pattern generalizing before rest taken with
  | empty => exact ⟨[], rest, rfl, (List.mem_singleton.mp member).symm, rfl⟩
  | letter accepts =>
      rw [lengths] at member
      split at member
      · rename_i accepted
        cases rest with
        | nil => cases accepted
        | cons c rest =>
            exact ⟨[c], rest, rfl, (List.mem_singleton.mp member).symm, c, rfl, accepted⟩
      · cases member
  | seq first second ihFirst ihSecond =>
      rw [lengths, List.mem_flatMap] at member
      obtain ⟨once, onceMem, more⟩ := member
      obtain ⟨again, againMem, rfl⟩ := List.mem_map.mp more
      obtain ⟨left, after, rfl, rfl, leftMatch⟩ := ihFirst onceMem
      rw [List.take_left, List.drop_left] at againMem
      obtain ⟨right, after, rfl, rfl, rightMatch⟩ := ihSecond againMem
      exact ⟨left ++ right, after, by rw [List.append_assoc], List.length_append, left, right, rfl,
        leftMatch, rightMatch⟩
  | alt first second ihFirst ihSecond =>
      rcases List.mem_append.mp member with member | member
      · obtain ⟨word, after, split, length, matched⟩ := ihFirst member
        exact ⟨word, after, split, length, .inl matched⟩
      · obtain ⟨word, after, split, length, matched⟩ := ihSecond member
        exact ⟨word, after, split, length, .inr matched⟩
  | star body ih => exact rounds_sound ih _ member
  | boundary isWord =>
      rw [lengths] at member
      split at member
      · rename_i differ
        exact ⟨[], rest, rfl, (List.mem_singleton.mp member).symm, rfl, differ⟩
      · cases member
  | atEnd isBreak =>
      rw [lengths] at member
      split at member
      · rename_i ends
        exact ⟨[], rest, rfl, (List.mem_singleton.mp member).symm, rfl, ends⟩
      · cases member

/-- Every word of a repetition has its way through, when that is so for its body and the fuel is
as long as the word. -/
private theorem rounds_complete {body : List α → List α → List Nat}
    {relation : List α → List α → List α → Prop}
    (complete : ∀ before word after, relation before word after →
      word.length ∈ body before (word ++ after))
    (matched : Rounds relation before word after) (fuel : Nat) (enough : word.length ≤ fuel) :
    word.length ∈ rounds body fuel before (word ++ after) := by
  induction matched generalizing fuel with
  | done before after => cases fuel <;> simp [rounds]
  | @round before word more after taken once again ih =>
      have positive : 0 < word.length := List.length_pos_iff.mpr taken
      rw [List.length_append] at enough ⊢
      cases fuel with
      | zero => omega
      | succ fuel =>
          rw [rounds, List.mem_append, List.mem_flatMap]
          refine .inl ⟨word.length, List.mem_filter.mpr ⟨?_, decide_eq_true positive⟩, ?_⟩
          · rw [List.append_assoc]
            exact complete _ _ _ once
          · rw [List.append_assoc, List.take_left, List.drop_left]
            exact List.mem_map.mpr ⟨more.length, ih fuel (by omega), rfl⟩

/-- Every word that the pattern matches is a way through. -/
theorem mem_lengths_of_matches (matched : pattern.Matches before word after) :
    word.length ∈ pattern.lengths before (word ++ after) := by
  induction pattern generalizing before word after with
  | empty =>
      cases matched
      exact List.mem_singleton.mpr rfl
  | letter accepts =>
      obtain ⟨c, rfl, accepted⟩ := matched
      simp [lengths, accepted]
  | seq first second ihFirst ihSecond =>
      obtain ⟨left, right, rfl, leftMatch, rightMatch⟩ := matched
      rw [lengths, List.mem_flatMap, List.append_assoc, List.length_append]
      refine ⟨left.length, ihFirst leftMatch, ?_⟩
      rw [List.take_left, List.drop_left]
      exact List.mem_map.mpr ⟨right.length, ihSecond rightMatch, rfl⟩
  | alt first second ihFirst ihSecond =>
      rcases matched with matched | matched
      · exact List.mem_append_left _ (ihFirst matched)
      · exact List.mem_append_right _ (ihSecond matched)
  | star body ih =>
      exact rounds_complete (fun _ _ _ once => ih once) matched _
        (List.length_append ▸ Nat.le_add_right _ _)
  | boundary isWord =>
      obtain ⟨rfl, differ⟩ := matched
      simp only [List.nil_append, lengths, if_pos differ, List.length_nil, List.mem_singleton]
  | atEnd isBreak =>
      obtain ⟨rfl, ends⟩ := matched
      simp only [List.nil_append, lengths, if_pos ends, List.length_nil, List.mem_singleton]

/-- There is no way through a pattern just when it matches nothing here. -/
theorem lengths_eq_nil_iff : pattern.lengths before rest = [] ↔
    ∀ word after, rest = word ++ after → ¬ pattern.Matches before word after := by
  rw [List.eq_nil_iff_forall_not_mem]
  constructor
  · rintro none word after rfl matched
    exact none _ (mem_lengths_of_matches matched)
  · intro none taken member
    obtain ⟨word, after, split, -, matched⟩ := matches_of_mem_lengths member
    exact none word after split matched

/-! ## What derived forms match -/

/-- A letter repeated matches the words of that length whose letters it accepts. -/
theorem matches_times_letter {accepts : α → Bool} {count : Nat} :
    (times (letter accepts) count).Matches before word after ↔
      word.length = count ∧ ∀ c ∈ word, accepts c = true := by
  induction count generalizing before word with
  | zero =>
      rw [List.length_eq_zero_iff]
      exact ⟨fun empty => ⟨empty, fun c member => by rw [empty] at member; cases member⟩,
        fun short => short.1⟩
  | succ count ih =>
      constructor
      · rintro ⟨left, right, rfl, ⟨c, rfl, accepted⟩, more⟩
        obtain ⟨length, others⟩ := ih.mp more
        exact ⟨by simp [length], List.forall_mem_cons.mpr ⟨accepted, others⟩⟩
      · rintro ⟨length, accepted⟩
        cases word with
        | nil => cases length
        | cons c word =>
            obtain ⟨here, others⟩ := List.forall_mem_cons.mp accepted
            exact ⟨[c], word, rfl, ⟨c, rfl, here⟩, ih.mpr ⟨Nat.succ.inj length, others⟩⟩

/-- A literal matches itself alone. -/
theorem matches_literal_eq [DecidableEq α] {expected : List α} :
    (literal (fun expected c => decide (c = expected)) expected).Matches before word after ↔
      word = expected := by
  induction expected generalizing before word with
  | nil => exact Iff.rfl
  | cons c expected ih =>
      constructor
      · rintro ⟨left, right, rfl, ⟨other, rfl, same⟩, more⟩
        rw [of_decide_eq_true same, ih.mp more]
        rfl
      · rintro rfl
        exact ⟨[c], expected, rfl, ⟨c, rfl, decide_eq_true rfl⟩, ih.mpr rfl⟩

/-! ## Letters of a match -/

/-- The letters that a word the pattern matches can have. -/
def uses : Pattern α → α → Bool
  | .empty | .boundary _ | .atEnd _ => fun _ => false
  | .letter accepts => accepts
  | .seq first second | .alt first second => fun c => first.uses c || second.uses c
  | .star body => body.uses

/-- A pattern uses every letter of a word that it matches. -/
theorem uses_of_mem (matched : pattern.Matches before word after) {c : α} (member : c ∈ word) :
    pattern.uses c = true := by
  induction pattern generalizing before word after with
  | empty =>
      cases matched
      cases member
  | letter accepts =>
      obtain ⟨other, rfl, accepted⟩ := matched
      rw [List.mem_singleton.mp member]
      exact accepted
  | seq first second ihFirst ihSecond =>
      obtain ⟨left, right, rfl, leftMatch, rightMatch⟩ := matched
      rw [uses, Bool.or_eq_true]
      exact (List.mem_append.mp member).imp (ihFirst leftMatch) (ihSecond rightMatch)
  | alt first second ihFirst ihSecond =>
      rw [uses, Bool.or_eq_true]
      exact matched.imp (ihFirst · member) (ihSecond · member)
  | star body ih =>
      change Rounds body.Matches before word after at matched
      induction matched with
      | done => cases member
      | round _ once _ again => exact (List.mem_append.mp member).elim (ih once) again
  | boundary isWord =>
      cases matched.1
      cases member
  | atEnd isBreak =>
      cases matched.1
      cases member

/-- The pattern takes at least one letter. -/
def consumes : Pattern α → Bool
  | .empty | .boundary _ | .atEnd _ | .star _ => false
  | .letter _ => true
  | .seq first second => first.consumes || second.consumes
  | .alt first second => first.consumes && second.consumes

/-- A consuming pattern matches no empty word. -/
theorem ne_nil_of_matches (consuming : pattern.consumes = true)
    (matched : pattern.Matches before word after) : word ≠ [] := by
  induction pattern generalizing before word after with
  | empty | boundary | atEnd | star => cases consuming
  | letter accepts =>
      obtain ⟨c, rfl, -⟩ := matched
      exact List.cons_ne_nil _ _
  | seq first second ihFirst ihSecond =>
      obtain ⟨left, right, rfl, leftMatch, rightMatch⟩ := matched
      rcases Bool.or_eq_true _ _ ▸ consuming with consuming | consuming
      · exact List.append_ne_nil_of_left_ne_nil (ihFirst consuming leftMatch) _
      · exact List.append_ne_nil_of_right_ne_nil _ (ihSecond consuming rightMatch)
  | alt first second ihFirst ihSecond =>
      obtain ⟨firstConsumes, secondConsumes⟩ := Bool.and_eq_true _ _ ▸ consuming
      exact matched.elim (ihFirst firstConsumes) (ihSecond secondConsumes)

/-! ## Patterns without assertions -/

/-- The pattern has no boundary and no end in it. -/
def plain : Pattern α → Bool
  | .empty | .letter _ => true
  | .seq first second | .alt first second => first.plain && second.plain
  | .star body => body.plain
  | .boundary _ | .atEnd _ => false

/-- What a plain pattern matches does not depend on what stands around. -/
theorem Matches.anywhere (plain : pattern.plain = true)
    (matched : pattern.Matches before word after) (before' after' : List α) :
    pattern.Matches before' word after' := by
  induction pattern generalizing before word after before' after' with
  | empty | letter => exact matched
  | seq first second ihFirst ihSecond =>
      obtain ⟨firstPlain, secondPlain⟩ := Bool.and_eq_true _ _ ▸ plain
      obtain ⟨left, right, rfl, leftMatch, rightMatch⟩ := matched
      exact ⟨left, right, rfl, ihFirst firstPlain leftMatch _ _,
        ihSecond secondPlain rightMatch _ _⟩
  | alt first second ihFirst ihSecond =>
      obtain ⟨firstPlain, secondPlain⟩ := Bool.and_eq_true _ _ ▸ plain
      exact matched.imp (ihFirst firstPlain · _ _) (ihSecond secondPlain · _ _)
  | star body ih =>
      change Rounds body.Matches before word after at matched
      induction matched generalizing before' with
      | done => exact .done _ _
      | round taken once _ again => exact .round taken (ih plain once _ _) (again _)
  | boundary | atEnd => cases plain

theorem matches_iff_accepts (plain : pattern.plain = true) :
    pattern.Matches before word after ↔ pattern.Accepts word :=
  ⟨fun matched => matched.anywhere plain _ _, fun matched => matched.anywhere plain _ _⟩

/-- Ways through in two parts, cut at a limit: the first parts within it go on, each with
what the limit leaves it. -/
private theorem filter_ways (limit : Nat) {longer ways : Nat → List Nat} {firsts : List Nat}
    (cut : ∀ taken ∈ firsts, taken ≤ limit →
      ways taken = (longer taken).filter (· ≤ limit - taken)) :
    (firsts.filter (· ≤ limit)).flatMap (fun taken => (ways taken).map (taken + ·)) =
      (firsts.flatMap fun taken => (longer taken).map (taken + ·)).filter (· ≤ limit) := by
  induction firsts with
  | nil => rfl
  | cons taken firsts ih =>
      have rest := ih fun other member => cut other (List.mem_cons_of_mem _ member)
      rw [List.flatMap_cons, List.filter_append, ← rest, List.filter_map]
      by_cases within : taken ≤ limit
      · rw [List.filter_cons, if_pos (decide_eq_true within), List.flatMap_cons,
          cut taken List.mem_cons_self within]
        congr 2
        refine List.filter_congr fun more _ => ?_
        change decide (more ≤ limit - taken) = decide (taken + more ≤ limit)
        exact decide_eq_decide.mpr (by omega)
      · rw [List.filter_cons, if_neg (by simpa using within)]
        have gone : (longer taken).filter ((fun total => decide (total ≤ limit)) ∘ (taken + ·)) =
            [] := List.filter_eq_nil_iff.mpr fun more _ => by simp only [Function.comp]; simp; omega
        rw [gone, List.map_nil, List.nil_append]

/-- The rounds through the front of a text are those through the whole text that end in the
front. -/
private theorem rounds_append {body : List α → List α → List Nat}
    (cut : ∀ before before' text tail, body before text =
      (body before' (text ++ tail)).filter (· ≤ text.length)) (fuel fuel' : Nat)
    (before before' : List α) (enough : text.length ≤ fuel)
    (enough' : (text ++ tail).length ≤ fuel') : rounds body fuel before text =
      (rounds body fuel' before' (text ++ tail)).filter (· ≤ text.length) := by
  induction fuel generalizing text fuel' before before' with
  | zero =>
      cases List.eq_nil_of_length_eq_zero (Nat.le_zero.mp enough)
      cases fuel' with
      | zero => rfl
      | succ fuel' =>
          rw [rounds, rounds, List.filter_append]
          refine (List.append_left_eq_self.mpr (List.filter_eq_nil_iff.mpr ?_)).symm
          intro total member
          obtain ⟨taken, takenMem, more⟩ := List.mem_flatMap.mp member
          obtain ⟨again, -, rfl⟩ := List.mem_map.mp more
          have positive := of_decide_eq_true (List.mem_filter.mp takenMem).2
          simp only [List.length_nil, decide_eq_true_eq]
          omega
  | succ fuel ih =>
      cases fuel' with
      | zero =>
          rw [Nat.le_zero, List.length_eq_zero_iff, List.append_eq_nil_iff] at enough'
          obtain ⟨rfl, rfl⟩ := enough'
          have none : (body before []).filter (0 < ·) = [] := by
            rw [cut before before' [] [], List.filter_filter, List.filter_eq_nil_iff]
            intro taken _
            simp only [List.length_nil, Bool.and_eq_true, decide_eq_true_eq]
            omega
          change ((body before []).filter (0 < ·)).flatMap _ ++ [0] = [0]
          rw [none, List.flatMap_nil, List.nil_append]
      | succ fuel' =>
          rw [rounds, rounds, List.filter_append, cut before before' text tail, List.filter_comm]
          congr 1
          rw [← filter_ways]
          intro taken member within
          have positive := of_decide_eq_true (List.mem_filter.mp member).2
          rw [List.drop_append_of_le_length within, ← List.length_drop]
          refine ih fuel' _ _ ?_ ?_
          · rw [List.length_drop]
            omega
          · rw [← List.drop_append_of_le_length within, List.length_drop]
            omega

/-- A text that ends earlier loses the longer ways through a plain pattern. -/
theorem lengths_append (plain : pattern.plain = true) (before before' text tail : List α) :
    pattern.lengths before text =
      (pattern.lengths before' (text ++ tail)).filter (· ≤ text.length) := by
  induction pattern generalizing before before' text tail with
  | empty => rfl
  | letter accepts =>
      cases text with
      | nil =>
          have cut : ([1] : List Nat).filter (· ≤ 0) = [] := rfl
          simp only [lengths, List.nil_append, List.length_nil]
          rw [if_neg (by simp)]
          split
          · exact cut.symm
          · rfl
      | cons c text =>
          by_cases accepted : accepts c = true
          · simp [lengths, accepted]
          · simp [lengths, accepted]
  | seq first second ihFirst ihSecond =>
      obtain ⟨firstPlain, secondPlain⟩ := Bool.and_eq_true _ _ ▸ plain
      rw [lengths, lengths, ihFirst firstPlain before before' text tail, filter_ways]
      intro taken member within
      rw [List.drop_append_of_le_length within, ← List.length_drop]
      exact ihSecond secondPlain _ _ _ _
  | alt first second ihFirst ihSecond =>
      obtain ⟨firstPlain, secondPlain⟩ := Bool.and_eq_true _ _ ▸ plain
      rw [lengths, lengths, List.filter_append, ← ihFirst firstPlain, ← ihSecond secondPlain]
  | star body ih => exact rounds_append (ih plain) _ _ _ _ le_rfl le_rfl
  | boundary | atEnd => cases plain

end Pattern
