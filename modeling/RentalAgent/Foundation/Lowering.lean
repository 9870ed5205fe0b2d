import Mathlib.Data.List.Basic

/-! # Lower case with a final sigma

Every character becomes lower case for itself but the capital sigma: at the end of a word it
becomes the final one, and elsewhere the other. A word ends there when a cased character comes
before and none follows, where ignorable characters are looked past. A part of a text is
lowered for itself once it is known what comes before it and what follows (`lowerIn_append`),
and what follows matters only to a part that closes with a sigma (`lowerIn_after_iff`), what
comes before only to one that opens with it (`lowerIn_before_iff`).
-/

namespace Lowering

/-- The tables of the lower case; the sigma is looked past by none. -/
structure CaseTables where
  lowerChar : Char → List Char
  cased : Char → Bool
  ignorable : Char → Bool
  sigma_solid : ignorable 'Σ' = false

namespace CaseTables

variable (tables : CaseTables)

/-- Whether a cased character is seen past a character, when one is seen behind it. -/
def past (seen : Bool) (c : Char) : Bool := if tables.ignorable c then seen else tables.cased c

/-- Whether a cased character follows; `after` says so of what stands behind the text. -/
def followed (after : Bool) (text : List Char) : Bool :=
  text.foldr (fun c seen => tables.past seen c) after

/-- Whether a cased character comes before; `before` says so of what stands before the text. -/
def preceded (before : Bool) (text : List Char) : Bool := text.foldl tables.past before

/-- The lower case of a character between others. -/
def lowerAt (before after : Bool) (c : Char) : List Char :=
  if c = 'Σ' then [if before && !after then 'ς' else 'σ'] else tables.lowerChar c

/-- The lower case of a part of a text. -/
def lowerIn (before after : Bool) : List Char → List Char
  | [] => []
  | c :: rest =>
      tables.lowerAt before (tables.followed after rest) c ++
        lowerIn (tables.past before c) after rest

/-- The lower case of a text. -/
def lower (text : List Char) : List Char := tables.lowerIn false false text

/-- The part opens with a sigma behind which its word ends. -/
def opens (after : Bool) : List Char → Bool
  | [] => false
  | c :: rest =>
      if c = 'Σ' then !tables.followed after rest else tables.ignorable c && opens after rest

/-- The part closes with a sigma before which its word began. -/
def closes (before : Bool) : List Char → Bool
  | [] => false
  | c :: rest =>
      (decide (c = 'Σ') && before && rest.all tables.ignorable) ||
        closes (tables.past before c) rest

/-! ## Parts of a text -/

variable {tables} {before after : Bool} {front back text : List Char} {c : Char}

theorem followed_cons : tables.followed after (c :: text) =
    tables.past (tables.followed after text) c := rfl

theorem followed_append : tables.followed after (front ++ back) =
    tables.followed (tables.followed after back) front := List.foldr_append

theorem preceded_append : tables.preceded before (front ++ back) =
    tables.preceded (tables.preceded before front) back := List.foldl_append

/-- A part is lowered for itself between what comes before and what follows. -/
theorem lowerIn_append : tables.lowerIn before after (front ++ back) =
    tables.lowerIn before (tables.followed after back) front ++
      tables.lowerIn (tables.preceded before front) after back := by
  induction front generalizing before with
  | nil => rfl
  | cons c rest ih =>
      rw [List.cons_append, lowerIn, lowerIn, ih, followed_append, List.append_assoc]
      rfl

/-- Past characters that are all ignorable is seen what was seen, and past others a character
of the text. -/
theorem followed_eq (tables : CaseTables) (text : List Char) : (text.all tables.ignorable = true ∧
      ∀ after, tables.followed after text = after) ∨
    (text.all tables.ignorable = false ∧
      ∃ seen, ∀ after, tables.followed after text = seen) := by
  induction text with
  | nil => exact .inl ⟨rfl, fun _ => rfl⟩
  | cons c rest ih =>
      cases ignored : tables.ignorable c with
      | false =>
          refine .inr ⟨by simp [ignored], tables.cased c, fun after => ?_⟩
          simp [followed_cons, past, ignored]
      | true =>
          have pass : ∀ after, tables.followed after (c :: rest) = tables.followed after rest :=
            fun after => by simp [followed_cons, past, ignored]
          rcases ih with ⟨all, same⟩ | ⟨some, seen, same⟩
          · exact .inl ⟨by simp [ignored, all], fun after => (pass after).trans (same after)⟩
          · exact .inr ⟨by simp [ignored, some], seen, fun after => (pass after).trans (same after)⟩

/-! ## What a part depends on -/

theorem lowerAt_of_ne (other : c ≠ 'Σ') (before after : Bool) :
    tables.lowerAt before after c = tables.lowerChar c := if_neg other

theorem lowerAt_sigma (before after : Bool) :
    tables.lowerAt before after 'Σ' = [if before && !after then 'ς' else 'σ'] := rfl

/-- What comes before a part matters only when it opens with a sigma. -/
theorem lowerIn_before_iff : tables.lowerIn true after text = tables.lowerIn false after text ↔
    tables.opens after text = false := by
  induction text with
  | nil => exact iff_of_true rfl rfl
  | cons c rest ih =>
      rw [lowerIn, lowerIn, opens]
      by_cases sigma : c = 'Σ'
      · subst sigma
        simp only [past, tables.sigma_solid, Bool.false_eq_true, ↓reduceIte,
          List.append_cancel_right_eq, lowerAt_sigma]
        cases tables.followed after rest <;> decide
      · simp only [lowerAt_of_ne sigma, List.append_cancel_left_eq, sigma, ↓reduceIte]
        cases ignored : tables.ignorable c with
        | true => simpa [past, ignored] using ih
        | false => simp [past, ignored]

/-- What follows a part matters only when it closes with a sigma. -/
theorem lowerIn_after_iff : tables.lowerIn before true text = tables.lowerIn before false text ↔
    tables.closes before text = false := by
  induction text generalizing before with
  | nil => exact iff_of_true rfl rfl
  | cons c rest ih =>
      rw [lowerIn, lowerIn, closes]
      by_cases sigma : c = 'Σ'
      · subst sigma
        rw [lowerAt_sigma, lowerAt_sigma, List.singleton_append, List.singleton_append,
          List.cons.injEq, ih, Bool.or_eq_false_iff]
        refine and_congr_left fun _ => ?_
        rcases followed_eq tables rest with ⟨all, same⟩ | ⟨some, seen, same⟩
        · rw [same, same, all]
          cases before <;> decide
        · rw [same, same, some]
          simp
      · simp only [lowerAt_of_ne sigma, List.append_cancel_left_eq, sigma, decide_false,
          Bool.false_and, Bool.false_or]
        exact ih

theorem lowerIn_behind_iff : tables.lowerIn before after text = tables.lowerIn before false text ↔
    ¬(after = true ∧ tables.closes before text = true) := by
  cases after with
  | false => simp
  | true => rw [lowerIn_after_iff]; simp

theorem lowerIn_ahead_iff : tables.lowerIn before after text = tables.lowerIn false after text ↔
    ¬(before = true ∧ tables.opens after text = true) := by
  cases before with
  | false => simp
  | true => rw [lowerIn_before_iff]; simp

/-! ## Small sigmas -/

/-- The small sigmas of a text. -/
def sigmas (text : List Char) : List Char := text.filter fun c => c = 'σ' || c = 'ς'

theorem sigmas_append : sigmas (front ++ back) = sigmas front ++ sigmas back :=
  List.filter_append _ _

theorem sigmas_cons : sigmas (c :: text) = sigmas [c] ++ sigmas text :=
  List.filter_append [c] text

theorem sigmas_lowerAt (before after : Bool) :
    sigmas (tables.lowerAt before after 'Σ') = tables.lowerAt before after 'Σ' := by
  rw [lowerAt_sigma]
  cases before <;> cases after <;> decide

/-- A part has as many small sigmas whatever stands around it. -/
theorem length_sigmas (before after other behind : Bool) :
    (sigmas (tables.lowerIn before after text)).length =
      (sigmas (tables.lowerIn other behind text)).length := by
  induction text generalizing before other with
  | nil => rfl
  | cons c rest ih =>
      rw [lowerIn, lowerIn, sigmas_append, sigmas_append, List.length_append, List.length_append,
        ih (tables.past before c) (tables.past other c)]
      by_cases sigma : c = 'Σ'
      · subst sigma
        rw [sigmas_lowerAt, sigmas_lowerAt]
        rfl
      · rw [lowerAt_of_ne sigma, lowerAt_of_ne sigma]

/-- The small sigmas tell the lower cases of a part apart. -/
theorem lowerIn_of_sigmas {other behind : Bool}
    (same : sigmas (tables.lowerIn before after text) =
      sigmas (tables.lowerIn other behind text)) :
    tables.lowerIn before after text = tables.lowerIn other behind text := by
  induction text generalizing before other with
  | nil => rfl
  | cons c rest ih =>
      rw [lowerIn, lowerIn, sigmas_append, sigmas_append] at same
      rw [lowerIn, lowerIn]
      by_cases sigma : c = 'Σ'
      · subst sigma
        rw [sigmas_lowerAt, sigmas_lowerAt] at same
        obtain ⟨here, later⟩ := List.append_inj same rfl
        rw [here, ih later]
      · rw [lowerAt_of_ne sigma, lowerAt_of_ne sigma] at same ⊢
        rw [ih (List.append_cancel_left same)]

end CaseTables

end Lowering
