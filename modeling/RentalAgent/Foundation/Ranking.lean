import Mathlib.Data.List.Sort

/-! # The first rows of a query

A query with an order and a limit gives the first of the rows it selects. The order is a
total preorder on the rows, for instance by a measure and by where a scan meets a row. A
selected row is given when fewer rows than the limit come before it (`mem_firstRows_iff`). A
query without an order gives its rows as a scan meets them; every scan gives a row that is
wanted when there is one and the other rows do not fill the limit (`firstRows_wanted_iff`).
-/

namespace Ranking

variable {Row : Type*} (before : Row → Row → Prop) [DecidableRel before]

/-- `WHERE … ORDER BY`. -/
def ranked (selects : Row → Bool) (rows : List Row) : List Row :=
  (rows.filter selects).insertionSort before

/-- `WHERE … ORDER BY … LIMIT`. -/
def firstRows (selects : Row → Bool) (limit : Nat) (rows : List Row) : List Row :=
  (ranked before selects rows).take limit

/-- `WHERE … ORDER BY … LIMIT 1`. -/
def firstRow (selects : Row → Bool) (rows : List Row) : Option Row :=
  (ranked before selects rows).head?

variable {before} {selects : Row → Bool} {rows : List Row} {row other : Row} {limit : Nat}

theorem ranked_perm : (ranked before selects rows).Perm (rows.filter selects) :=
  List.perm_insertionSort before _

theorem mem_ranked : row ∈ ranked before selects rows ↔ row ∈ rows ∧ selects row = true := by
  rw [ranked, List.mem_insertionSort, List.mem_filter]

theorem mem_of_mem_firstRows (member : row ∈ firstRows before selects limit rows) :
    row ∈ rows ∧ selects row = true :=
  mem_ranked.mp (List.mem_of_mem_take member)

theorem length_firstRows :
    (firstRows before selects limit rows).length = min limit (rows.countP selects) := by
  rw [firstRows, ranked, List.length_take, List.length_insertionSort, List.countP_eq_length_filter]

/-- No more rows are selected than a query gives: all of them are there. -/
theorem mem_firstRows_of_le (few : rows.countP selects ≤ limit) (member : row ∈ rows)
    (selected : selects row = true) : row ∈ firstRows before selects limit rows := by
  rw [firstRows, List.take_of_length_le]
  · exact mem_ranked.mpr ⟨member, selected⟩
  · rwa [ranked, List.length_insertionSort, ← List.countP_eq_length_filter]

/-- A query that leaves a selected row out gives as many rows as it may. -/
theorem length_of_not_mem_firstRows (member : row ∈ rows) (selected : selects row = true)
    (left : row ∉ firstRows before selects limit rows) :
    (firstRows before selects limit rows).length = limit := by
  rw [length_firstRows]
  by_contra few
  exact left (mem_firstRows_of_le (by omega) member selected)

/-- A column that tells the rows apart tells those apart that a query gives. -/
theorem nodup_map_firstRows {Value : Type*} {column : Row → Value}
    (distinct : (rows.map column).Nodup) :
    ((firstRows before selects limit rows).map column).Nodup := by
  have kept : ((rows.filter selects).map column).Nodup :=
    distinct.sublist (List.filter_sublist.map column)
  have sorted : ((ranked before selects rows).map column).Nodup :=
    (ranked_perm.map column).nodup_iff.mpr kept
  exact sorted.sublist ((List.take_sublist _ _).map column)

theorem firstRow_mem (found : firstRow before selects rows = some row) :
    row ∈ rows ∧ selects row = true :=
  mem_ranked.mp (List.mem_of_head? found)

theorem firstRow_eq_none :
    firstRow before selects rows = none ↔ ∀ row ∈ rows, selects row = false := by
  rw [firstRow, List.head?_eq_none_iff, List.eq_nil_iff_forall_not_mem]
  simp only [mem_ranked, not_and, Bool.not_eq_true]

section Order

variable [Std.Total before] [IsTrans Row before]

theorem pairwise_ranked : (ranked before selects rows).Pairwise before :=
  List.pairwise_insertionSort before _

theorem pairwise_firstRows : (firstRows before selects limit rows).Pairwise before :=
  List.Pairwise.sublist (List.take_sublist _ _) pairwise_ranked

/-- The first row comes before every other row that is selected. -/
theorem before_of_firstRow (found : firstRow before selects rows = some row)
    (member : other ∈ rows) (selected : selects other = true) : before row other := by
  have listed : other ∈ ranked before selects rows := mem_ranked.mpr ⟨member, selected⟩
  obtain ⟨rest, split⟩ := List.head?_eq_some_iff.mp found
  have sorted : (ranked before selects rows).Pairwise before := pairwise_ranked
  rw [split] at listed sorted
  rcases List.mem_cons.mp listed with rfl | later
  · exact (Std.Total.total other other).elim id id
  · exact (List.pairwise_cons.mp sorted).1 other later

/-- A selected row that a query leaves out comes after every row that it gives. -/
theorem before_of_not_mem_firstRows (given : row ∈ firstRows before selects limit rows)
    (member : other ∈ rows) (selected : selects other = true)
    (left : other ∉ firstRows before selects limit rows) : before row other := by
  have listed : other ∈ ranked before selects rows := mem_ranked.mpr ⟨member, selected⟩
  rw [← List.take_append_drop limit (ranked before selects rows)] at listed
  rcases List.mem_append.mp listed with taken | dropped
  · exact (left taken).elim
  · have sorted : (ranked before selects rows).Pairwise before := pairwise_ranked
    rw [← List.take_append_drop limit (ranked before selects rows)] at sorted
    exact (List.pairwise_append.mp sorted).2.2 row given other dropped

end Order

section Measures

variable {Value : Type*} [LinearOrder Value] (measure : Row → Value) (place : Row → Nat)

/-- The order by a measure; rows of one measure stay at their places. -/
def ByMeasure (first second : Row) : Prop :=
  measure first < measure second ∨ measure first = measure second ∧ place first ≤ place second

instance : Std.Total (ByMeasure measure place) where
  total first second := by
    rcases lt_trichotomy (measure first) (measure second) with less | same | more
    · exact .inl (.inl less)
    · rcases Nat.le_total (place first) (place second) with ahead | behind
      · exact .inl (.inr ⟨same, ahead⟩)
      · exact .inr (.inr ⟨same.symm, behind⟩)
    · exact .inr (.inl more)

instance : IsTrans Row (ByMeasure measure place) where
  trans first second third := by
    rintro (less | ⟨same, ahead⟩) (further | ⟨agrees, next⟩)
    · exact .inl (less.trans further)
    · exact .inl (agrees ▸ less)
    · exact .inl (same ▸ further)
    · exact .inr ⟨same.trans agrees, ahead.trans next⟩

variable {measure place}

theorem ByMeasure.le {first second : Row} (ahead : ByMeasure measure place first second) :
    measure first ≤ measure second := by
  rcases ahead with less | ⟨same, _⟩
  · exact less.le
  · exact same.le

/-- Rows that come before each other are at one place. -/
theorem ByMeasure.place_eq {first second : Row} (ahead : ByMeasure measure place first second)
    (behind : ByMeasure measure place second first) : place first = place second := by
  have same := le_antisymm ahead.le behind.le
  rcases ahead with less | ⟨_, before⟩
  · exact (less.ne same).elim
  · rcases behind with more | ⟨_, after⟩
    · exact (more.ne same.symm).elim
    · exact Nat.le_antisymm before after

variable (measure place)

/-- The order by a measure, the greatest first; rows of one measure stay at their places. -/
def Latest (first second : Row) : Prop :=
  measure second < measure first ∨ measure second = measure first ∧ place first ≤ place second

variable {measure place}

instance Latest.decidable : DecidableRel (Latest measure place) := fun first second =>
  inferInstanceAs (Decidable (measure second < measure first ∨
    measure second = measure first ∧ place first ≤ place second))

/-- A row whose measure is greater than that of every other row is the first one. -/
theorem head?_insertionSort_latest (member : row ∈ rows)
    (greatest : ∀ other ∈ rows, other = row ∨ measure other < measure row) :
    (rows.insertionSort (Latest measure place)).head? = some row := by
  have sorted : (rows.insertionSort (Latest measure place)).Pairwise (Latest measure place) := by
    have total : Std.Total (Latest measure place) := by
      refine ⟨fun first second => ?_⟩
      rcases lt_trichotomy (measure first) (measure second) with less | same | more
      · exact .inr (.inl less)
      · rcases Nat.le_total (place first) (place second) with ahead | behind
        · exact .inl (.inr ⟨same.symm, ahead⟩)
        · exact .inr (.inr ⟨same, behind⟩)
      · exact .inl (.inl more)
    have trans : IsTrans Row (Latest measure place) := by
      refine ⟨fun first second third => ?_⟩
      rintro (more | ⟨same, ahead⟩) (further | ⟨agrees, next⟩)
      · exact .inl (further.trans more)
      · exact .inl (agrees ▸ more)
      · exact .inl (same ▸ further)
      · exact .inr ⟨agrees.trans same, ahead.trans next⟩
    exact List.pairwise_insertionSort _ _
  have listed : row ∈ rows.insertionSort (Latest measure place) :=
    (List.mem_insertionSort _).mpr member
  cases order : rows.insertionSort (Latest measure place) with
  | nil =>
      rw [order] at listed
      cases listed
  | cons first rest =>
      have given : first ∈ rows :=
        (List.mem_insertionSort _).mp (order ▸ List.mem_cons_self)
      rcases greatest first given with rfl | less
      · rfl
      · rw [order] at listed sorted
        rcases List.mem_cons.mp listed with rfl | later
        · rfl
        · rcases (List.pairwise_cons.mp sorted).1 row later with more | ⟨same, -⟩
          · exact absurd less more.not_gt
          · exact absurd same less.ne'

end Measures

section Places

variable [Std.Total before] [IsTrans Row before] [DecidableEq Row]

/-- How many of the selected rows come before a row. -/
def ahead (before : Row → Row → Prop) [DecidableRel before] (selects : Row → Bool)
    (rows : List Row) (row : Row) : Nat :=
  rows.countP fun other => selects other && decide (before other row ∧ other ≠ row)

/-- The rows that come before a row of the ranking are those that stand before it. -/
theorem ahead_eq_length (antisymm : ∀ first ∈ rows, ∀ second ∈ rows,
      before first second → before second first → first = second)
    (unique : rows.Nodup) {front back : List Row}
    (split : ranked before selects rows = front ++ row :: back) :
    ahead before selects rows row = front.length := by
  have sorted : (ranked before selects rows).Pairwise before := pairwise_ranked
  have distinct : (ranked before selects rows).Nodup :=
    ranked_perm.nodup_iff.mpr (unique.filter _)
  have within : ∀ {other}, other ∈ front ++ row :: back → other ∈ rows := fun member =>
    (mem_ranked.mp (split ▸ member)).1
  have counted : ahead before selects rows row =
      (ranked before selects rows).countP fun other => decide (before other row ∧ other ≠ row) := by
    rw [ranked_perm.countP_eq, List.countP_filter, ahead]
    exact List.countP_congr fun other _ => by rw [Bool.and_comm]
  rw [split] at sorted distinct
  obtain ⟨_, tail, frontBefore⟩ := List.pairwise_append.mp sorted
  obtain ⟨_, distinctTail, apart⟩ := List.nodup_append.mp distinct
  rw [counted, split, List.countP_append, List.countP_cons,
    List.countP_eq_length.mpr, List.countP_eq_zero.mpr]
  · simp
  · intro other member
    have behind := (List.pairwise_cons.mp tail).1 other member
    simp only [decide_eq_true_eq, not_and, not_not]
    exact fun front => antisymm other (within (by simp [member])) row (within (by simp))
      front behind
  · intro other member
    exact decide_eq_true ⟨frontBefore other member row List.mem_cons_self,
      apart other member row List.mem_cons_self⟩

/-- **Places.** A query gives the selected rows that fewer than `limit` others come
before. -/
theorem mem_firstRows_iff (antisymm : ∀ first ∈ rows, ∀ second ∈ rows,
      before first second → before second first → first = second) (unique : rows.Nodup) :
    row ∈ firstRows before selects limit rows ↔
      (row ∈ rows ∧ selects row = true) ∧ ahead before selects rows row < limit := by
  constructor
  · intro given
    refine ⟨mem_of_mem_firstRows given, ?_⟩
    obtain ⟨front, back, taken⟩ := List.append_of_mem given
    have split : ranked before selects rows =
        front ++ row :: (back ++ (ranked before selects rows).drop limit) := by
      conv => lhs; rw [← List.take_append_drop limit (ranked before selects rows)]
      rw [← firstRows, taken, List.append_assoc, List.cons_append]
    rw [ahead_eq_length antisymm unique split]
    have length := congrArg List.length taken
    simp only [length_firstRows, List.length_append, List.length_cons] at length
    omega
  · rintro ⟨selected, few⟩
    have listed : row ∈ ranked before selects rows := mem_ranked.mpr selected
    obtain ⟨front, back, split⟩ := List.append_of_mem listed
    rw [ahead_eq_length antisymm unique split] at few
    obtain ⟨more, rfl⟩ := Nat.exists_eq_add_of_lt few
    rw [firstRows, split, Nat.add_assoc, List.take_length_add_append, List.take_succ_cons]
    exact List.mem_append_right _ List.mem_cons_self

end Places

section Scans

variable {wanted : Row → Bool}

/-- Rows that are not wanted and are fewer than the limit leave room for one that is. -/
theorem exists_wanted_firstRows
    (few : rows.countP (fun row => selects row && !wanted row) < limit)
    (present : ∃ row ∈ rows, selects row = true ∧ wanted row = true) :
    ∃ row ∈ firstRows before selects limit rows, wanted row = true := by
  by_contra missing
  have unwanted : ∀ row ∈ firstRows before selects limit rows, (!wanted row) = true :=
    fun row member => by simpa using fun chosen => missing ⟨row, member, chosen⟩
  have counted : (firstRows before selects limit rows).length ≤
      rows.countP fun row => selects row && !wanted row := by
    calc (firstRows before selects limit rows).length
        = (firstRows before selects limit rows).countP (fun row => !wanted row) :=
          (List.countP_eq_length.mpr unwanted).symm
      _ ≤ (ranked before selects rows).countP (fun row => !wanted row) :=
          (List.take_sublist _ _).countP_le
      _ = rows.countP fun row => selects row && !wanted row := by
          rw [ranked_perm.countP_eq, List.countP_filter]
          exact List.countP_congr fun row _ => by rw [Bool.and_comm]
  rw [length_firstRows] at counted
  -- a result that is not full has every row that is selected
  have whole : rows.countP selects ≤ limit := by omega
  obtain ⟨row, member, selected, chosen⟩ := present
  exact missing ⟨row, mem_firstRows_of_le whole member selected, chosen⟩

/-- In a sorted list with enough zeros, the first entries are zeros. -/
theorem zero_of_mem_take {position : Row → Nat}
    (sorted : rows.Pairwise fun first second => position first ≤ position second)
    (enough : limit ≤ rows.countP fun row => position row = 0) :
    ∀ row ∈ rows.take limit, position row = 0 := by
  induction rows generalizing limit with
  | nil => simp
  | cons first rest ih =>
      cases limit with
      | zero => simp
      | succ limit =>
          obtain ⟨least, others⟩ := List.pairwise_cons.mp sorted
          by_cases zero : position first = 0
          · rw [List.countP_cons_of_pos (by simpa using zero)] at enough
            rw [List.take_succ_cons]
            exact List.forall_mem_cons.mpr ⟨zero, ih others (by omega)⟩
          · have positive : (first :: rest).countP (fun row => position row = 0) = 0 := by
              refine List.countP_eq_zero.mpr fun row member => ?_
              rcases List.mem_cons.mp member with rfl | member
              · simpa using zero
              · have behind := least row member
                simp only [decide_eq_true_eq]
                omega
            omega

/-- The scan that meets first the keys of the rows that are not wanted. -/
def unwantedFirst {Key : Type*} [DecidableEq Key] (key : Row → Key) (wanted : Row → Bool)
    (rows : List Row) (value : Key) : Nat :=
  if rows.any fun row => key row = value && !wanted row then 0 else 1

/-- The scan meets a row first just when it is not wanted. -/
theorem unwantedFirst_eq_zero {Key : Type*} [DecidableEq Key] {key : Row → Key}
    (keyed : ∀ first ∈ rows, ∀ second ∈ rows, key first = key second → first = second)
    (member : row ∈ rows) : unwantedFirst key wanted rows (key row) = 0 ↔ wanted row = false := by
  have met : (rows.any fun other => key other = key row && !wanted other) = true ↔
      wanted row = false := by
    simp only [List.any_eq_true, Bool.and_eq_true, decide_eq_true_eq, Bool.not_eq_true']
    refine ⟨fun ⟨other, inside, same, unwanted⟩ => ?_,
      fun unwanted => ⟨row, member, rfl, unwanted⟩⟩
    exact keyed other inside row member same ▸ unwanted
  rw [← met, unwantedFirst]
  split <;> simp_all

/-- When the rows that are not wanted fill the limit, the scan that meets them first gives no
other. -/
theorem unwanted_of_mem_firstRows {Key : Type*} [DecidableEq Key] {key : Row → Key}
    (keyed : ∀ first ∈ rows, ∀ second ∈ rows, key first = key second → first = second)
    (many : limit ≤ rows.countP fun row => selects row && !wanted row) :
    ∀ row ∈ firstRows (fun first second => unwantedFirst key wanted rows (key first) ≤
      unwantedFirst key wanted rows (key second)) selects limit rows, wanted row = false := by
  have : Std.Total fun first second => unwantedFirst key wanted rows (key first) ≤
      unwantedFirst key wanted rows (key second) := ⟨fun _ _ => Nat.le_total _ _⟩
  have : IsTrans Row fun first second => unwantedFirst key wanted rows (key first) ≤
      unwantedFirst key wanted rows (key second) := ⟨fun _ _ _ => Nat.le_trans⟩
  intro row member
  refine (unwantedFirst_eq_zero keyed (mem_of_mem_firstRows member).1).mp ?_
  refine zero_of_mem_take pairwise_ranked ?_ row member
  rw [ranked_perm.countP_eq, List.countP_filter]
  refine many.trans (Nat.le_of_eq (List.countP_congr fun other inside => ?_))
  simp only [Bool.and_eq_true, decide_eq_true_eq, Bool.not_eq_true',
    unwantedFirst_eq_zero keyed inside]
  exact and_comm

/-- **Scans.** Every scan gives a row that is wanted exactly when there is one and the rows
that are not wanted do not fill the limit. -/
theorem firstRows_wanted_iff {Key : Type*} [DecidableEq Key] {key : Row → Key}
    (keyed : ∀ first ∈ rows, ∀ second ∈ rows, key first = key second → first = second) :
    (∀ scan : Key → Nat,
      ∃ row ∈ firstRows (fun first second => scan (key first) ≤ scan (key second)) selects limit
        rows, wanted row = true) ↔
    (∃ row ∈ rows, selects row = true ∧ wanted row = true) ∧
      rows.countP (fun row => selects row && !wanted row) < limit := by
  constructor
  · intro every
    obtain ⟨row, member, chosen⟩ := every fun _ => 0
    obtain ⟨inside, selected⟩ := mem_of_mem_firstRows member
    refine ⟨⟨row, inside, selected, chosen⟩, Nat.lt_of_not_le fun many => ?_⟩
    obtain ⟨row, member, chosen⟩ := every (unwantedFirst key wanted rows)
    have unwanted := unwanted_of_mem_firstRows keyed many row member
    exact Bool.false_ne_true (unwanted.symm.trans chosen)
  · exact fun both scan => exists_wanted_firstRows both.2 both.1

end Scans

end Ranking
