import Mathlib.Data.List.Forall2
import RentalAgent.Foundation.Relational

/-! # Tables that only grow

A table grows when every row stays at its place, changed only in ways a relation allows,
and sound rows come after the old ones. When the relation is a preorder that keeps rows
sound (`Relational.Aging`), growth is a preorder too and keeps a table sound, so what
single statements do to a table holds of whole runs.
-/

namespace Relational

variable {Row Value : Type*}

/-- How rows of a table may change: not at all, step by step, and without losing
soundness. -/
class Aging (ages : Row → Row → Prop) (sound : Row → Prop) : Prop where
  still : ∀ row, ages row row
  chain : ∀ {first second third}, ages first second → ages second third → ages first third
  stays : ∀ {row later}, ages row later → sound row → sound later

/-- Every row of `rows` is still in `next`, at its place and changed only as `ages` allows;
the other rows of `next` come after them and are sound. -/
def Accrues (ages : Row → Row → Prop) (sound : Row → Prop) (rows next : List Row) : Prop :=
  ∃ kept added, List.Forall₂ ages rows kept ∧ next = kept ++ added ∧ ∀ row ∈ added, sound row

variable {ages other : Row → Row → Prop} {sound : Row → Prop} {rows middle next : List Row}

theorem Accrues.refl [aging : Aging ages sound] (rows : List Row) :
    Accrues ages sound rows rows :=
  ⟨rows, [], List.forall₂_same.mpr fun row _ => aging.still row, (List.append_nil rows).symm,
    by simp⟩

/-- The rows that come from a part of a table are a part of the later table. -/
theorem forall₂_append {first second : List Row} {later : List Row}
    (aged : List.Forall₂ ages (first ++ second) later) :
    ∃ front back, later = front ++ back ∧ List.Forall₂ ages first front ∧
      List.Forall₂ ages second back := by
  refine ⟨later.take first.length, later.drop first.length,
    (List.take_append_drop _ later).symm, ?_, ?_⟩
  · simpa using List.forall₂_take first.length aged
  · simpa using List.forall₂_drop first.length aged

/-- Rows that age twice, row by row, age once. -/
theorem forall₂_chain (aging : Aging ages sound) (first : List.Forall₂ ages rows middle)
    (second : List.Forall₂ ages middle next) : List.Forall₂ ages rows next := by
  induction first generalizing next with
  | nil =>
      cases second
      exact .nil
  | cons head _ ih =>
      cases second with
      | cons later rest => exact .cons (aging.chain head later) (ih rest)

/-- Sound rows age into sound rows. -/
theorem forall_mem_of_forall₂ (aging : Aging ages sound) (aged : List.Forall₂ ages rows next)
    (valid : ∀ row ∈ rows, sound row) : ∀ row ∈ next, sound row := by
  induction aged with
  | nil => exact valid
  | cons head _ ih =>
      obtain ⟨first, rest⟩ := List.forall_mem_cons.mp valid
      exact List.forall_mem_cons.mpr ⟨aging.stays head first, ih rest⟩

/-- Growth in two stages is growth. -/
theorem Accrues.trans [aging : Aging ages sound] (first : Accrues ages sound rows middle)
    (second : Accrues ages sound middle next) : Accrues ages sound rows next := by
  obtain ⟨kept, added, aged, rfl, addedSound⟩ := first
  obtain ⟨later, new, agedLater, rfl, newSound⟩ := second
  obtain ⟨front, back, rfl, agedFront, agedBack⟩ := forall₂_append agedLater
  refine ⟨front, back ++ new, forall₂_chain aging aged agedFront,
    List.append_assoc front back new, fun row member => ?_⟩
  rcases List.mem_append.mp member with old | fresh
  · exact forall_mem_of_forall₂ aging agedBack addedSound row old
  · exact newSound row fresh

/-- A table that grew from sound rows is sound. -/
theorem Accrues.forall_mem [aging : Aging ages sound]
    (accrues : Accrues ages sound rows next) (valid : ∀ row ∈ rows, sound row) :
    ∀ row ∈ next, sound row := by
  obtain ⟨kept, added, aged, rfl, addedSound⟩ := accrues
  exact List.forall_mem_append.mpr ⟨forall_mem_of_forall₂ aging aged valid, addedSound⟩

/-- Rows that were sound when they came are sound later, when soundness only widens. -/
theorem Accrues.mono {more : Row → Prop} (widens : ∀ row, sound row → more row)
    (accrues : Accrues ages sound rows next) : Accrues ages more rows next := by
  obtain ⟨kept, added, aged, same, addedSound⟩ := accrues
  exact ⟨kept, added, aged, same, fun row member => widens row (addedSound row member)⟩

/-- What two relations allow, row by row: growth decides which row a row has become. -/
theorem Accrues.and {more : Row → Prop} (first : Accrues ages sound rows next)
    (second : Accrues other more rows next) :
    Accrues (fun row later => ages row later ∧ other row later)
      (fun row => sound row ∧ more row) rows next := by
  obtain ⟨kept, added, aged, rfl, addedSound⟩ := first
  obtain ⟨same, rest, agedSame, split, restSound⟩ := second
  obtain ⟨rfl, rfl⟩ := List.append_inj split (aged.length_eq.symm.trans agedSame.length_eq)
  refine ⟨kept, added, List.forall₂_iff_get.mpr ⟨aged.length_eq, fun index bound inside => ?_⟩,
    rfl, fun row member => ⟨addedSound row member, restSound row member⟩⟩
  exact ⟨aged.get bound inside, agedSame.get bound inside⟩

/-- Inserting a sound row grows a table. -/
theorem accrues_insert [aging : Aging ages sound] (rows : List Row) {new : Row}
    (valid : sound new) : Accrues ages sound rows (rows ++ [new]) :=
  ⟨rows, [new], List.forall₂_same.mpr fun row _ => aging.still row, rfl,
    List.forall_mem_singleton.mpr valid⟩

/-- Rewriting rows in the ways allowed grows a table. -/
theorem accrues_map {change : Row → Row} (allowed : ∀ row ∈ rows, ages row (change row)) :
    Accrues ages sound rows (rows.map change) := by
  refine ⟨rows.map change, [], ?_, (List.append_nil _).symm, by simp⟩
  rw [List.forall₂_map_right_iff]
  exact List.forall₂_same.mpr allowed

/-- An update that rewrites the rows it selects in the ways allowed grows a table. -/
theorem accrues_updateWhere [aging : Aging ages sound] {condition : Row → Bool}
    {change : Row → Row}
    (allowed : ∀ row ∈ rows, condition row = true → ages row (change row)) :
    Accrues ages sound rows (updateWhere condition change rows) := by
  apply accrues_map
  intro row member
  by_cases selected : condition row = true
  · rw [if_pos selected]
    exact allowed row member selected
  · rw [if_neg selected]
    exact aging.still row

/-- No row is ever lost. -/
theorem Accrues.exists_of_mem (accrues : Accrues ages sound rows next) {row : Row}
    (member : row ∈ rows) : ∃ later ∈ next, ages row later := by
  obtain ⟨kept, added, aged, rfl, -⟩ := accrues
  obtain ⟨index, bound, rfl⟩ := List.getElem_of_mem member
  have inside : index < kept.length := aged.length_eq ▸ bound
  exact ⟨kept[index], List.mem_append_left _ (List.getElem_mem inside), aged.get bound inside⟩

/-- A column that no row ever changes keeps its values, and new ones come after them. -/
theorem Accrues.map_prefix (accrues : Accrues ages sound rows next) (column : Row → Value)
    (fixed : ∀ row later, ages row later → column later = column row) :
    rows.map column <+: next.map column := by
  obtain ⟨kept, added, aged, rfl, -⟩ := accrues
  have same : kept.map column = rows.map column := by
    induction aged with
    | nil => rfl
    | cons head _ ih => rw [List.map_cons, List.map_cons, fixed _ _ head, ih]
  rw [List.map_append, same]
  exact List.prefix_append _ _

/-! ## Rows that are never written -/

instance aging_eq (sound : Row → Prop) : Aging Eq sound where
  still _ := rfl
  chain earlier later := earlier.trans later
  stays same valid := same ▸ valid

/-- A table whose rows are never written is a part of every later one. -/
theorem Accrues.isPrefix (accrues : Accrues Eq sound rows next) : rows <+: next := by
  simpa using accrues.map_prefix id fun _ _ same => same.symm

/-! ## Rows that are closed once -/

/-- A row that is written while it is open, and never again. -/
def WrittenOnce (opened : Row → Prop) (writes : Row → Row → Prop) (row later : Row) : Prop :=
  later = row ∨ opened row ∧ writes row later

variable {opened : Row → Prop} {writes : Row → Row → Prop}

/-- Rows age by being closed when a write closes them and keeps them sound. -/
theorem aging_writtenOnce (closes : ∀ row later, writes row later → ¬ opened later)
    (keeps : ∀ row later, opened row → writes row later → sound row → sound later) :
    Aging (WrittenOnce opened writes) sound where
  still _ := .inl rfl
  chain := by
    intro first second third earlier later
    rcases later with rfl | ⟨reopened, wrote⟩
    · exact earlier
    · rcases earlier with rfl | ⟨-, closed⟩
      · exact .inr ⟨reopened, wrote⟩
      · exact (closes _ _ closed reopened).elim
  stays := by
    intro row later once valid
    rcases once with rfl | ⟨before, wrote⟩
    · exact valid
    · exact keeps row later before wrote valid

end Relational
