import Mathlib.Data.Set.Function
import Mathlib.Data.List.Basic
import Mathlib.Data.List.Induction

/-! # Stores that keep the last write

A store that keeps what was last written at a key, beside a log of its writes. A log
whose records tell the writes at some keys apart determines the histories over these
keys (`eq_of_log`), and with them the store.
-/

namespace LastWrite

variable {Key Value : Type*}

/-- The writes are at these keys. -/
def Within (keys : Set Key) (writes : List (Key × Value)) : Prop :=
  ∀ write ∈ writes, write.1 ∈ keys

/-- A log that tells the writes at the keys apart tells the histories over them apart. -/
theorem eq_of_log {Record : Type*} {record : Key × Value → Record} {keys : Set Key}
    (apart : ∀ first second : Key × Value, first.1 ∈ keys → second.1 ∈ keys →
      record first = record second → first = second)
    {first second : List (Key × Value)} (firstWithin : Within keys first)
    (secondWithin : Within keys second) (logs : first.map record = second.map record) :
    first = second := by
  induction first generalizing second with
  | nil => exact (List.map_eq_nil_iff.mp logs.symm).symm
  | cons write rest ih =>
      obtain ⟨other, others, rfl, same, later⟩ := List.map_eq_cons_iff.mp logs.symm
      obtain ⟨inside, restWithin⟩ := List.forall_mem_cons.mp firstWithin
      obtain ⟨otherInside, othersWithin⟩ := List.forall_mem_cons.mp secondWithin
      rw [apart write other inside otherInside same.symm, ih restWithin othersWithin later.symm]

variable [DecidableEq Key]

/-- What was last written at the key. -/
def stored (writes : List (Key × Value)) (key : Key) : Option Value :=
  writes.reverse.lookup key

@[simp] theorem stored_nil (key : Key) : stored ([] : List (Key × Value)) key = none := rfl

/-- One more write decides its own key, and no other. -/
theorem stored_concat (writes : List (Key × Value)) (write : Key × Value) (key : Key) :
    stored (writes ++ [write]) key =
      if key = write.1 then some write.2 else stored writes key := by
  rw [stored, List.reverse_append, List.reverse_singleton, List.singleton_append,
    List.lookup_cons]
  by_cases same : key = write.1
  · rw [if_pos same, same, beq_self_eq_true]
  · rw [if_neg same, beq_false_of_ne same]
    rfl

theorem stored_append (first second : List (Key × Value)) (key : Key) :
    stored (first ++ second) key = (stored second key).or (stored first key) := by
  rw [stored, List.reverse_append, List.lookup_append]
  rfl

/-- Nothing is stored under a key that was never written. -/
theorem stored_eq_none {writes : List (Key × Value)} {key : Key} :
    stored writes key = none ↔ ∀ write ∈ writes, write.1 ≠ key := by
  rw [stored, List.lookup_eq_none_iff]
  refine ⟨fun other write member same => ?_, fun other write member => ?_⟩
  · have := other write (List.mem_reverse.mpr member)
    simp [same] at this
  · have := other write (List.mem_reverse.mp member)
    simpa using Ne.symm this

/-- Only the writes at a key matter to it. -/
theorem stored_filter (writes : List (Key × Value)) (key : Key) :
    stored (writes.filter fun write => write.1 = key) key = stored writes key := by
  induction writes using List.reverseRecOn with
  | nil => rfl
  | append_singleton writes write ih =>
      rw [List.filter_append, stored_append, stored_append, ih]
      by_cases same : write.1 = key
      · rw [List.filter_singleton, decide_eq_true same]
        rfl
      · have other : stored [write] key = none := stored_eq_none.mpr (by simpa using same)
        rw [List.filter_singleton, decide_eq_false same, other]
        rfl

end LastWrite
