import Mathlib.Data.Char

/-! # Ascii letters and their cases by number

The ascii classes of characters are ranges of their numbers, so that a question about a class is
one of arithmetic. A letter of one case differs from the other by 32 (`toNat_toLower`,
`toNat_toUpper`), and every other character is its own lower and upper case.
-/

namespace Letters

variable {c : Char}

theorem isUpper_iff : c.isUpper = true ↔ 65 ≤ c.toNat ∧ c.toNat ≤ 90 :=
  decide_eq_true_iff.trans (and_congr UInt32.le_iff_toNat_le UInt32.le_iff_toNat_le)

theorem isLower_iff : c.isLower = true ↔ 97 ≤ c.toNat ∧ c.toNat ≤ 122 :=
  Bool.and_eq_true_iff.trans (and_congr (decide_eq_true_iff.trans UInt32.le_iff_toNat_le)
    (decide_eq_true_iff.trans UInt32.le_iff_toNat_le))

theorem isAlpha_iff : c.isAlpha = true ↔ c.isUpper = true ∨ c.isLower = true :=
  Bool.or_eq_true_iff

theorem isAlphanum_iff : c.isAlphanum = true ↔ c.isAlpha = true ∨ c.isDigit = true :=
  Bool.or_eq_true_iff

/-! ## Lower case -/

theorem toLower_of_not_isUpper (small : c.isUpper = false) : c.toLower = c :=
  dif_neg (of_decide_eq_false small)

/-- The small letter of a capital. -/
theorem toNat_toLower (large : c.isUpper = true) : c.toLower.toNat = c.toNat + 32 := by
  have range : c.val ≥ 'A'.val ∧ c.val ≤ 'Z'.val := of_decide_eq_true large
  have lowered : c.toLower = ⟨c.val + ('a'.val - 'A'.val), _⟩ := dif_pos range
  have sum : (c.val + ('a'.val - 'A'.val)).toNat = (c.val.toNat + 32) % 4294967296 :=
    UInt32.toNat_add _ _
  have value : c.toNat = c.val.toNat := rfl
  have bound := (isUpper_iff.mp large).2
  rw [lowered]
  change (c.val + ('a'.val - 'A'.val)).toNat = _
  omega

/-- No lower case is a capital. -/
theorem isUpper_toLower : c.toLower.isUpper = false := by
  cases large : c.isUpper with
  | true =>
      refine Bool.eq_false_iff.mpr fun again => ?_
      have bound := isUpper_iff.mp large
      have range := isUpper_iff.mp again
      rw [toNat_toLower large] at range
      omega
  | false => rw [toLower_of_not_isUpper large, large]

/-! ## Upper case -/

theorem toUpper_of_not_isLower (large : c.isLower = false) : c.toUpper = c := by
  refine dif_neg fun small => Bool.false_ne_true (large.symm.trans (isLower_iff.mpr ?_))
  exact ⟨UInt32.le_iff_toNat_le.mp small.1, UInt32.le_iff_toNat_le.mp small.2⟩

/-- The capital of a small letter. -/
theorem toNat_toUpper (small : c.isLower = true) : c.toUpper.toNat = c.toNat - 32 := by
  have bound := isLower_iff.mp small
  have range : 'a'.val ≤ c.val ∧ c.val ≤ 'z'.val :=
    ⟨UInt32.le_iff_toNat_le.mpr bound.1, UInt32.le_iff_toNat_le.mpr bound.2⟩
  have raised : c.toUpper = ⟨c.val + ('A'.val - 'a'.val), _⟩ := dif_pos range
  have sum : (c.val + ('A'.val - 'a'.val)).toNat = (c.val.toNat + 4294967264) % 4294967296 :=
    UInt32.toNat_add _ _
  have value : c.toNat = c.val.toNat := rfl
  rw [raised]
  change (c.val + ('A'.val - 'a'.val)).toNat = _
  omega

/-- No upper case is a small letter. -/
theorem isLower_toUpper : c.toUpper.isLower = false := by
  cases small : c.isLower with
  | true =>
      refine Bool.eq_false_iff.mpr fun again => ?_
      have bound := isLower_iff.mp small
      have range := isLower_iff.mp again
      rw [toNat_toUpper small] at range
      omega
  | false => rw [toUpper_of_not_isLower small, small]

end Letters
