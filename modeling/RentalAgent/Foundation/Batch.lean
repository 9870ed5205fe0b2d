import Mathlib.Algebra.BigOperators.Group.List.Lemmas
import Mathlib.Algebra.GroupWithZero.Nat
import RentalAgent.Foundation.Transition

/-! # Batches

A batch takes one item after the other and counts what becomes of each. An item may be passed
over, and it may abort the batch, which then leaves the items that are left alone. A batch is
the run of its steps over the items it took (`state_work`), and its counts are those of the
verdicts on these (`counts_work`).
-/

namespace Batch

open Transition

/-- What becomes of an item. -/
inductive Verdict (Label : Type*)
  | counted (label : Label)
  | passed
  | aborted (label : Label)
  deriving DecidableEq

variable {State Item Label : Type*}

namespace Verdict

/-- The label under which an item is counted. -/
def label : Verdict Label → Option Label
  | .counted label | .aborted label => some label
  | .passed => none

/-- The item ends the batch. -/
def aborts : Verdict Label → Bool
  | .aborted _ => true
  | .counted _ | .passed => false

@[simp] theorem label_counted (name : Label) : (counted name).label = some name := rfl

@[simp] theorem label_aborted (name : Label) : (aborted name).label = some name := rfl

@[simp] theorem label_passed : (passed : Verdict Label).label = none := rfl

@[simp] theorem aborts_counted (name : Label) : (counted name).aborts = false := rfl

@[simp] theorem aborts_aborted (name : Label) : (aborted name).aborts = true := rfl

@[simp] theorem aborts_passed : (passed : Verdict Label).aborts = false := rfl

end Verdict

variable (step : State → Item → State × Verdict Label)

/-- What a batch does to the state with one item. -/
def advance (state : State) (item : Item) : State := (step state item).1

/-- The batch, with what it has counted before. An abort is counted once. -/
def work [DecidableEq Label] (state : State) (counts : Label → Nat) :
    List Item → State × (Label → Nat)
  | [] => (state, counts)
  | item :: rest =>
      match step state item with
      | (next, .counted label) =>
          work next (Function.update counts label (counts label + 1)) rest
      | (next, .passed) => work next counts rest
      | (next, .aborted label) => (next, Function.update counts label 1)

/-- The items that the batch takes: all, or those up to the first that aborts it. -/
def taken (state : State) : List Item → List Item
  | [] => []
  | item :: rest =>
      item :: if (step state item).2.aborts then [] else taken (advance step state item) rest

/-- The verdicts on items that are taken one after the other. -/
def verdicts (state : State) (items : List Item) : List (Verdict Label) :=
  (moments (advance step) state items).map fun moment => (step moment.1 moment.2).2

variable {step} {state : State} {item : Item} {items rest : List Item}

theorem verdicts_cons : verdicts step state (item :: rest) =
    (step state item).2 :: verdicts step (advance step state item) rest := rfl

theorem length_verdicts : (verdicts step state items).length = items.length := by
  induction items generalizing state with
  | nil => rfl
  | cons item rest ih => rw [verdicts_cons, List.length_cons, ih, List.length_cons]

theorem verdicts_append (items rest : List Item) : verdicts step state (items ++ rest) =
    verdicts step state items ++ verdicts step (run (advance step) state items) rest := by
  rw [verdicts, moments_append, List.map_append]
  rfl

/-- Every item of a batch has its moment. -/
theorem exists_moment (member : item ∈ items) :
    ∃ moment ∈ moments (advance step) state items, moment.2 = item := by
  induction items generalizing state with
  | nil => cases member
  | cons first rest ih =>
      rcases List.mem_cons.mp member with rfl | later
      · exact ⟨_, List.mem_cons_self, rfl⟩
      · obtain ⟨moment, listed, same⟩ := ih later
        exact ⟨moment, List.mem_cons_of_mem _ listed, same⟩

/-- The items that are taken come first. -/
theorem taken_isPrefix : taken step state items <+: items := by
  induction items generalizing state with
  | nil => exact List.prefix_refl []
  | cons item rest ih =>
      rw [taken, List.prefix_cons_inj]
      split
      · exact List.nil_prefix
      · exact ih

/-- No item but the last one aborts the batch. -/
theorem aborts_of_mem_dropLast {verdict : Verdict Label}
    (earlier : verdict ∈ (verdicts step state (taken step state items)).dropLast) :
    verdict.aborts = false := by
  induction items generalizing state with
  | nil => simp [taken, verdicts] at earlier
  | cons item rest ih =>
      rw [taken, verdicts_cons] at earlier
      cases ends : (step state item).2.aborts with
      | true => simp [ends, verdicts] at earlier
      | false =>
          rw [ends, if_neg Bool.false_ne_true] at earlier
          generalize more : verdicts step (advance step state item)
            (taken step (advance step state item) rest) = later at earlier
          cases later with
          | nil => simp at earlier
          | cons second later =>
              rw [List.dropLast_cons_cons, List.mem_cons] at earlier
              rcases earlier with rfl | earlier
              · exact ends
              · exact ih (more ▸ earlier)

/-- An item that aborts the batch is the last one that it takes. -/
theorem eq_nil_of_aborts {before after : List Item}
    (split : taken step state items = before ++ item :: after)
    (aborts : (step (run (advance step) state before) item).2.aborts = true) : after = [] := by
  by_contra more
  obtain ⟨second, later, rfl⟩ := List.exists_cons_of_ne_nil more
  have quiet := @aborts_of_mem_dropLast _ _ _ step state items
    (step (run (advance step) state before) item).2
  rw [split, verdicts_append, verdicts_cons, verdicts_cons, List.dropLast_append_cons,
    List.dropLast_cons_cons] at quiet
  rw [quiet (List.mem_append_right _ List.mem_cons_self)] at aborts
  cases aborts

/-- Under a label that only aborts have, a batch counts the last item that it takes. -/
theorem countP_verdicts_of_abort [DecidableEq Label] {label : Label} {before : List Item}
    (only : ∀ state item, (step state item).2 ≠ .counted label)
    (split : taken step state items = before ++ [item]) :
    (verdicts step state (taken step state items)).countP
        (fun verdict => verdict.label = some label) =
      if (step (run (advance step) state before) item).2 = .aborted label then 1 else 0 := by
  have earlier : ∀ verdict ∈ verdicts step state before, verdict.label ≠ some label := by
    intro verdict member named
    have quiet := @aborts_of_mem_dropLast _ _ _ step state items verdict
    rw [split, verdicts_append, verdicts_cons] at quiet
    have calm := quiet (by
      rw [List.dropLast_append_cons]
      exact List.mem_append_left _ member)
    obtain ⟨moment, _, rfl⟩ := List.mem_map.mp member
    cases same : (step moment.1 moment.2).2 with
    | counted other =>
        rw [same, Verdict.label_counted] at named
        obtain rfl := Option.some.inj named
        exact only _ _ same
    | passed => simp [same] at named
    | aborted other => simp [same] at calm
  rw [split, verdicts_append, verdicts_cons, List.countP_append,
    List.countP_eq_zero.mpr (by simpa using earlier), Nat.zero_add]
  cases same : (step (run (advance step) state before) item).2 with
  | counted other =>
      have differs : other ≠ label := by
        rintro rfl
        exact only _ _ same
      simp [verdicts, differs]
  | passed => simp [verdicts]
  | aborted other => simp [verdicts, List.countP_cons]

/-- The batch takes all of its items, or the last one that it takes aborts it. -/
theorem taken_eq_or_aborts : taken step state items = items ∨
    ∃ before last, taken step state items = before ++ [last] ∧
      (step (run (advance step) state before) last).2.aborts = true := by
  induction items generalizing state with
  | nil => exact .inl rfl
  | cons item rest ih =>
      rw [taken]
      cases ends : (step state item).2.aborts with
      | true => exact .inr ⟨[], item, rfl, ends⟩
      | false =>
          rw [if_neg Bool.false_ne_true]
          rcases ih with all | ⟨before, last, split, aborts⟩
          · exact .inl (congrArg _ all)
          · exact .inr ⟨item :: before, last, congrArg _ split, aborts⟩

/-- When every verdict has one of the labels, their counts add up to the number of verdicts. -/
theorem sum_counts [DecidableEq Label] {labels : List Label} (distinct : labels.Nodup)
    {verdicts : List (Verdict Label)}
    (named : ∀ verdict ∈ verdicts, ∃ label ∈ labels, verdict.label = some label) :
    (labels.map fun label => verdicts.countP fun verdict => verdict.label = some label).sum =
      verdicts.length := by
  induction verdicts with
  | nil => simp
  | cons verdict rest ih =>
      obtain ⟨⟨own, listed, same⟩, later⟩ := List.forall_mem_cons.mp named
      simp only [List.countP_cons, List.sum_map_add, List.length_cons, ih later]
      rw [List.sum_map_eq_nsmul_single own _ (by intro other differs _; simp [same, differs.symm]),
        List.count_eq_one_of_mem distinct listed]
      simp [same]

/-- Counts under two labels add up to the count under either. -/
theorem countP_add [DecidableEq Label] {first second : Label} (differs : first ≠ second)
    (verdicts : List (Verdict Label)) :
    verdicts.countP (fun verdict => verdict.label = some first) +
      verdicts.countP (fun verdict => verdict.label = some second) =
        verdicts.countP fun verdict =>
          verdict.label = some first ∨ verdict.label = some second := by
  induction verdicts with
  | nil => rfl
  | cons verdict rest ih =>
      simp only [List.countP_cons, ← ih]
      by_cases one : verdict.label = some first
      · simp [one, differs]
        omega
      · by_cases two : verdict.label = some second
        · simp [two, differs.symm]
          omega
        · simp [one, two]

/-- Two labels whose counts take up the verdicts are the labels of all of them. -/
theorem label_of_countP_add [DecidableEq Label] {first second : Label} (differs : first ≠ second)
    {verdicts : List (Verdict Label)}
    (all : verdicts.length ≤ verdicts.countP (fun verdict => verdict.label = some first) +
      verdicts.countP fun verdict => verdict.label = some second) :
    ∀ verdict ∈ verdicts, verdict.label = some first ∨ verdict.label = some second := by
  rw [countP_add differs] at all
  have full := List.countP_eq_length.mp (le_antisymm List.countP_le_length all)
  exact fun verdict member => of_decide_eq_true (full verdict member)

/-- A batch whose steps are runs of a system is a run of the system. -/
theorem run_advance_eq {Action : Type*} {system : State → Action → State}
    {calls : Item → List Action}
    (each : ∀ state item, advance step state item = run system state (calls item))
    (state : State) (items : List Item) :
    run (advance step) state items = run system state (items.flatMap calls) := by
  induction items generalizing state with
  | nil => rfl
  | cons item rest ih => rw [run_cons, ih, each, List.flatMap_cons, run_append]

section Work

variable [DecidableEq Label] {counts : Label → Nat}

/-- A batch is the run of its steps over the items it takes. -/
theorem state_work : (work step state counts items).1 =
    run (advance step) state (taken step state items) := by
  induction items generalizing state counts with
  | nil => rfl
  | cons item rest ih =>
      rw [work, taken, run_cons, advance]
      split <;> rename_i same <;> rw [same]
      · exact ih
      · exact ih
      · rfl

/-- A batch whose steps change nothing and count all items alike. -/
theorem work_idle {label : Label}
    (idle : ∀ item ∈ items, step state item = (state, .counted label)) :
    work step state counts items =
      (state, Function.update counts label (counts label + items.length)) := by
  induction items generalizing counts with
  | nil => rw [work, List.length_nil, Nat.add_zero, Function.update_eq_self]
  | cons item rest ih =>
      obtain ⟨first, later⟩ := List.forall_mem_cons.mp idle
      rw [work, first]
      dsimp only
      rw [ih later, Function.update_idem, Function.update_self, List.length_cons]
      congr 2
      omega

/-- **Accounting.** When aborts have labels of their own, a batch counts the verdicts on the
items it takes. -/
theorem counts_work {aborts : Label → Prop}
    (apart : ∀ state item label, (step state item).2 = .counted label → ¬aborts label)
    (own : ∀ state item label, (step state item).2 = .aborted label → aborts label)
    (fresh : ∀ label, aborts label → counts label = 0) (label : Label) :
    (work step state counts items).2 label =
      counts label + (verdicts step state (taken step state items)).countP
        (fun verdict => verdict.label = some label) := by
  induction items generalizing state counts with
  | nil => rfl
  | cons item rest ih =>
      rw [work, taken, verdicts_cons]
      split <;> rename_i next other same
      · have kept : ∀ label, aborts label →
            Function.update counts other (counts other + 1) label = 0 := by
          intro label reserved
          have differs : label ≠ other := by
            rintro rfl
            exact apart state item label (by rw [same]) reserved
          rw [Function.update_of_ne differs, fresh label reserved]
        rw [ih kept, advance, same, List.countP_cons]
        by_cases named : label = other
        · subst named
          simp only [Verdict.aborts_counted, Verdict.label_counted, Function.update_self,
            Bool.false_eq_true, if_false, decide_true, if_true]
          omega
        · simp [named, Ne.symm named]
      · rw [ih fresh, advance, same, List.countP_cons]
        simp
      · have zero := fresh other (own state item other (by rw [same]))
        rw [same, List.countP_cons]
        by_cases named : label = other
        · subst named
          simp [verdicts, zero]
        · simp [verdicts, named, Ne.symm named]

end Work

end Batch
