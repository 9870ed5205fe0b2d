import Mathlib.Data.List.Basic
import Mathlib.Data.List.Nodup
import RentalAgent.Foundation.Forest

/-! # Reversible absorption of records

A ledger has nodes, items owned by nodes, and absorptions. Absorbing a node into
another marks it, hands its items over and records which ones; releasing an
absorption clears the mark and hands the recorded items back. `Ledger.Valid` is
kept by every step, whatever the order of releases: open absorptions form a
forest, the absorbed nodes are exactly their sources, and no absorbed node owns an
item. That a sequence of absorptions and releases restores the owners needs that
each release finds the recorded items where its absorption put them
(`Ledger.Trail`).
-/

namespace Absorption

open Forest Relation

variable {Node Item Key : Type*}

/-- One absorption of `source` into `target` with the items it moved. -/
structure Entry (Node Item Key : Type*) where
  key : Key
  source : Node
  target : Node
  moved : List Item
  reversed : Bool

/-- Nodes with their mark, items with their owner, and the absorptions so far. -/
@[ext]
structure Ledger (Node Item Key : Type*) where
  nodes : List (Node × Bool)
  owners : List (Item × Node)
  absorptions : List (Entry Node Item Key)

namespace Ledger

variable [DecidableEq Node] [DecidableEq Item] [DecidableEq Key]

def enter (node : Node) (ledger : Ledger Node Item Key) : Ledger Node Item Key :=
  { ledger with nodes := ledger.nodes ++ [(node, false)] }

def attach (item : Item) (node : Node) (ledger : Ledger Node Item Key) : Ledger Node Item Key :=
  { ledger with owners := ledger.owners ++ [(item, node)] }

/-- The items a node owns. -/
def itemsOf (ledger : Ledger Node Item Key) (node : Node) : List Item :=
  (ledger.owners.filter fun entry => entry.2 = node).map Prod.fst

def mark (node : Node) (flag : Bool) (nodes : List (Node × Bool)) : List (Node × Bool) :=
  nodes.map fun entry => if entry.1 = node then (entry.1, flag) else entry

def absorb (key : Key) (source target : Node) (ledger : Ledger Node Item Key) :
    Ledger Node Item Key where
  nodes := mark source true ledger.nodes
  owners := ledger.owners.map fun entry => if entry.2 = source then (entry.1, target) else entry
  absorptions := ledger.absorptions ++ [⟨key, source, target, ledger.itemsOf source, false⟩]

def release (absorption : Entry Node Item Key) (ledger : Ledger Node Item Key) :
    Ledger Node Item Key where
  nodes := mark absorption.source false ledger.nodes
  owners := ledger.owners.map fun entry =>
    if entry.1 ∈ absorption.moved then (entry.1, absorption.source) else entry
  absorptions := ledger.absorptions.map fun entry =>
    if entry.key = absorption.key then { entry with reversed := true } else entry

/-- The absorptions that were not released. -/
def outstanding (ledger : Ledger Node Item Key) : List (Entry Node Item Key) :=
  ledger.absorptions.filter fun entry => !entry.reversed

/-- The replacement of an absorbed node. -/
def edge (ledger : Ledger Node Item Key) (first second : Node) : Prop :=
  ∃ entry ∈ ledger.outstanding, entry.source = first ∧ entry.target = second

/-- Growth of a ledger: new nodes and items are new, and only unmarked nodes
receive items. -/
inductive Growth (ledger : Ledger Node Item Key) : Ledger Node Item Key → Prop
  | enter (node : Node) (fresh : node ∉ ledger.nodes.map Prod.fst) :
      Growth ledger (ledger.enter node)
  | attach (item : Item) (node : Node) (fresh : item ∉ ledger.owners.map Prod.fst)
      (standing : (node, false) ∈ ledger.nodes) : Growth ledger (ledger.attach item node)

/-- The steps of a ledger: it grows, an unmarked node is absorbed into another
unmarked node, or an absorption is released. -/
inductive Step (ledger : Ledger Node Item Key) : Ledger Node Item Key → Prop
  | grow {next : Ledger Node Item Key} (growth : ledger.Growth next) : Step ledger next
  | absorb (key : Key) (source target : Node)
      (fresh : key ∉ ledger.absorptions.map Entry.key) (apart : source ≠ target)
      (sourceStanding : (source, false) ∈ ledger.nodes)
      (targetStanding : (target, false) ∈ ledger.nodes) :
      Step ledger (ledger.absorb key source target)
  | release (absorption : Entry Node Item Key) (opened : absorption ∈ ledger.outstanding) :
      Step ledger (ledger.release absorption)

/-- The invariant of a ledger. -/
structure Valid (ledger : Ledger Node Item Key) : Prop where
  nodeIds : (ledger.nodes.map Prod.fst).Nodup
  itemIds : (ledger.owners.map Prod.fst).Nodup
  keys : (ledger.absorptions.map Entry.key).Nodup
  sources : (ledger.outstanding.map Entry.source).Nodup
  absorbed : ∀ node, (node, true) ∈ ledger.nodes ↔ ∃ entry ∈ ledger.outstanding, entry.source = node
  targets : ∀ entry ∈ ledger.outstanding, entry.target ∈ ledger.nodes.map Prod.fst
  forest : IsForest ledger.edge
  owned : ∀ entry ∈ ledger.owners, (entry.2, false) ∈ ledger.nodes

variable {ledger : Ledger Node Item Key} {node : Node} {flag : Bool} {nodes : List (Node × Bool)}

/-! ## Marks -/

@[simp] theorem map_fst_mark : (mark node flag nodes).map Prod.fst = nodes.map Prod.fst := by
  rw [mark, List.map_map]
  apply List.map_congr_left
  intro entry _
  by_cases same : entry.1 = node <;> simp [same]

theorem mem_mark_self {old : Bool} (member : (node, old) ∈ nodes) :
    (node, flag) ∈ mark node flag nodes :=
  List.mem_map.mpr ⟨(node, old), member, by simp⟩

/-- Marking a node leaves the marks of the others alone. -/
theorem mem_mark_of_ne {other : Node} {old : Bool} (apart : other ≠ node) :
    (other, old) ∈ mark node flag nodes ↔ (other, old) ∈ nodes := by
  rw [mark, List.mem_map]
  constructor
  · rintro ⟨entry, member, same⟩
    by_cases atNode : entry.1 = node
    · rw [if_pos atNode] at same
      exact (apart ((congrArg Prod.fst same).symm.trans atNode)).elim
    · rwa [if_neg atNode, ← same] at *
  · intro member
    exact ⟨(other, old), member, by simp [apart]⟩

/-- A node that was marked has the new mark only. -/
theorem eq_of_mem_mark_self {old : Bool} (member : (node, old) ∈ mark node flag nodes) :
    old = flag := by
  obtain ⟨entry, _, same⟩ := List.mem_map.mp member
  by_cases atNode : entry.1 = node
  · rw [if_pos atNode] at same
    exact (congrArg Prod.snd same).symm
  · rw [if_neg atNode] at same
    exact (atNode (congrArg Prod.fst same)).elim

/-! ## Outstanding absorptions -/

omit [DecidableEq Item] [DecidableEq Key] in
theorem outstanding_absorb (key : Key) (source target : Node) :
    (ledger.absorb key source target).outstanding =
      ledger.outstanding ++ [⟨key, source, target, ledger.itemsOf source, false⟩] := by
  simp [outstanding, absorb]

omit [DecidableEq Node] [DecidableEq Item] in
/-- Releasing takes the entry with its key away. -/
theorem filter_reversed_map (absorption : Entry Node Item Key)
    (entries : List (Entry Node Item Key)) :
    ((entries.map fun entry =>
        if entry.key = absorption.key then { entry with reversed := true } else entry).filter
      fun entry => !entry.reversed) =
      (entries.filter fun entry => !entry.reversed).filter
        fun entry => entry.key ≠ absorption.key := by
  induction entries with
  | nil => rfl
  | cons entry rest ih =>
      rw [List.map_cons]
      by_cases same : entry.key = absorption.key
      · rw [if_pos same, List.filter_cons_of_neg (by simp), ih]
        cases reversed : entry.reversed <;> simp [reversed, same]
      · rw [if_neg same, List.filter_cons, ih]
        cases reversed : entry.reversed <;> simp [reversed, same]

theorem outstanding_release (absorption : Entry Node Item Key) :
    (ledger.release absorption).outstanding =
      ledger.outstanding.filter fun entry => entry.key ≠ absorption.key :=
  filter_reversed_map absorption ledger.absorptions

omit [DecidableEq Item] [DecidableEq Key] in
/-- An absorption links its source to its target. -/
theorem edge_absorb (key : Key) (source target : Node) :
    (ledger.absorb key source target).edge = link ledger.edge source target := by
  funext first second
  rw [edge, outstanding_absorb, link, eq_iff_iff]
  constructor
  · rintro ⟨entry, member, rfl, rfl⟩
    rcases List.mem_append.mp member with old | new
    · exact .inl ⟨entry, old, rfl, rfl⟩
    · cases List.mem_singleton.mp new
      exact .inr ⟨rfl, rfl⟩
  · rintro (⟨entry, member, rfl, rfl⟩ | ⟨rfl, rfl⟩)
    · exact ⟨entry, List.mem_append_left _ member, rfl, rfl⟩
    · exact ⟨_, List.mem_append_right _ (List.mem_singleton.mpr rfl), rfl, rfl⟩

omit [DecidableEq Item] [DecidableEq Key] in
/-- Absorbing hands items over and keeps them. -/
@[simp] theorem items_absorb (key : Key) (source target : Node) :
    (ledger.absorb key source target).owners.map Prod.fst = ledger.owners.map Prod.fst := by
  rw [absorb, List.map_map]
  apply List.map_congr_left
  intro entry _
  by_cases owned : entry.2 = source <;> simp [owned]

/-- Releasing hands items back and keeps them. -/
@[simp] theorem items_release (absorption : Entry Node Item Key) :
    (ledger.release absorption).owners.map Prod.fst = ledger.owners.map Prod.fst := by
  rw [release, List.map_map]
  apply List.map_congr_left
  intro entry _
  by_cases moved : entry.1 ∈ absorption.moved <;> simp [moved]

@[simp] theorem keys_release (absorption : Entry Node Item Key) :
    (ledger.release absorption).absorptions.map Entry.key = ledger.absorptions.map Entry.key := by
  rw [release, List.map_map]
  apply List.map_congr_left
  intro entry _
  by_cases same : entry.key = absorption.key <;> simp [same]

namespace Valid

variable (valid : ledger.Valid)

include valid

omit [DecidableEq Node] [DecidableEq Item] [DecidableEq Key] in
theorem flag_unique {first second : Bool} (firstMem : (node, first) ∈ ledger.nodes)
    (secondMem : (node, second) ∈ ledger.nodes) : first = second :=
  congrArg Prod.snd (List.inj_on_of_nodup_map valid.nodeIds firstMem secondMem rfl)

omit [DecidableEq Node] [DecidableEq Item] [DecidableEq Key] in
/-- Outstanding absorptions are told apart by their keys and by their sources. -/
theorem key_ne_iff {first second : Entry Node Item Key} (firstMem : first ∈ ledger.outstanding)
    (secondMem : second ∈ ledger.outstanding) :
    first.key ≠ second.key ↔ first.source ≠ second.source := by
  constructor
  · intro apart same
    exact apart
      (congrArg Entry.key (List.inj_on_of_nodup_map valid.sources firstMem secondMem same))
  · intro apart same
    exact apart (congrArg Entry.source (List.inj_on_of_nodup_map valid.keys
      (List.mem_of_mem_filter firstMem) (List.mem_of_mem_filter secondMem) same))

omit [DecidableEq Node] [DecidableEq Item] [DecidableEq Key] in
/-- A standing node has no replacement. -/
theorem sink_of_standing (standing : (node, false) ∈ ledger.nodes) : Sink ledger.edge node := by
  rintro next ⟨entry, member, rfl, _⟩
  have marked := (valid.absorbed entry.source).mpr ⟨entry, member, rfl⟩
  exact Bool.false_ne_true (valid.flag_unique standing marked)

/-- A release cuts the link of its source. -/
theorem edge_release {absorption : Entry Node Item Key} (opened : absorption ∈ ledger.outstanding) :
    (ledger.release absorption).edge = cut ledger.edge absorption.source := by
  funext first second
  rw [edge, outstanding_release, cut, eq_iff_iff]
  constructor
  · rintro ⟨entry, member, rfl, rfl⟩
    obtain ⟨outstanding, apart⟩ := List.mem_filter.mp member
    exact ⟨⟨entry, outstanding, rfl, rfl⟩,
      (valid.key_ne_iff outstanding opened).mp (by simpa using apart)⟩
  · rintro ⟨⟨entry, member, rfl, rfl⟩, apart⟩
    exact ⟨entry, List.mem_filter.mpr
      ⟨member, by simpa using (valid.key_ne_iff member opened).mpr apart⟩, rfl, rfl⟩

omit [DecidableEq Node] [DecidableEq Item] [DecidableEq Key] in
/-- A new node keeps the ledger valid. -/
theorem enter (fresh : node ∉ ledger.nodes.map Prod.fst) : (ledger.enter node).Valid where
  nodeIds := by
    change ((ledger.nodes ++ [(node, false)]).map Prod.fst).Nodup
    rw [List.map_append, List.map_singleton, ← List.concat_eq_append]
    exact valid.nodeIds.concat fresh
  itemIds := valid.itemIds
  keys := valid.keys
  sources := valid.sources
  absorbed := by
    intro other
    rw [Ledger.enter, List.mem_append]
    simp only [List.mem_singleton, Prod.mk.injEq, Bool.true_eq_false, and_false, or_false]
    exact valid.absorbed other
  targets := by
    intro entry member
    change entry.target ∈ (ledger.nodes ++ _).map Prod.fst
    rw [List.map_append]
    exact List.mem_append_left _ (valid.targets entry member)
  forest := valid.forest
  owned := fun entry member => List.mem_append_left _ (valid.owned entry member)

omit [DecidableEq Node] [DecidableEq Item] [DecidableEq Key] in
/-- A new item on an unmarked node keeps the ledger valid. -/
theorem attach {item : Item} (fresh : item ∉ ledger.owners.map Prod.fst)
    (standing : (node, false) ∈ ledger.nodes) : (ledger.attach item node).Valid where
  nodeIds := valid.nodeIds
  itemIds := by
    change ((ledger.owners ++ [(item, node)]).map Prod.fst).Nodup
    rw [List.map_append, List.map_singleton, ← List.concat_eq_append]
    exact valid.itemIds.concat fresh
  keys := valid.keys
  sources := valid.sources
  absorbed := valid.absorbed
  targets := valid.targets
  forest := valid.forest
  owned := by
    intro entry member
    rcases List.mem_append.mp member with old | new
    · exact valid.owned entry old
    · cases List.mem_singleton.mp new
      exact standing

omit [DecidableEq Item] [DecidableEq Key] in
/-- An absorption of one unmarked node into another keeps the ledger valid. -/
theorem absorb {key : Key} {source target : Node}
    (fresh : key ∉ ledger.absorptions.map Entry.key) (apart : source ≠ target)
    (sourceStanding : (source, false) ∈ ledger.nodes)
    (targetStanding : (target, false) ∈ ledger.nodes) :
    (ledger.absorb key source target).Valid := by
  have unabsorbed : ∀ entry ∈ ledger.outstanding, entry.source ≠ source := by
    rintro entry member rfl
    exact valid.sink_of_standing sourceStanding _ ⟨entry, member, rfl, rfl⟩
  refine ⟨?_, ?_, ?_, ?_, ?_, ?_, ?_, ?_⟩
  · rw [Ledger.absorb, map_fst_mark]
    exact valid.nodeIds
  · rw [items_absorb]
    exact valid.itemIds
  · change ((ledger.absorptions ++ [_]).map Entry.key).Nodup
    rw [List.map_append, List.map_singleton, ← List.concat_eq_append]
    exact valid.keys.concat fresh
  · rw [outstanding_absorb, List.map_append, List.map_singleton, ← List.concat_eq_append]
    refine valid.sources.concat fun member => ?_
    obtain ⟨entry, entryMem, same⟩ := List.mem_map.mp member
    exact unabsorbed entry entryMem same
  · intro other
    rw [outstanding_absorb]
    by_cases same : other = source
    · subst same
      refine ⟨fun _ => ⟨_, List.mem_append_right _ (List.mem_singleton.mpr rfl), rfl⟩, fun _ => ?_⟩
      exact mem_mark_self sourceStanding
    · rw [Ledger.absorb, mem_mark_of_ne same, valid.absorbed other]
      constructor
      · rintro ⟨entry, member, rfl⟩
        exact ⟨entry, List.mem_append_left _ member, rfl⟩
      · rintro ⟨entry, member, rfl⟩
        rcases List.mem_append.mp member with old | new
        · exact ⟨entry, old, rfl⟩
        · cases List.mem_singleton.mp new
          exact (same rfl).elim
  · intro entry member
    rw [outstanding_absorb] at member
    rw [Ledger.absorb, map_fst_mark]
    rcases List.mem_append.mp member with old | new
    · exact valid.targets entry old
    · cases List.mem_singleton.mp new
      exact List.mem_map.mpr ⟨(target, false), targetStanding, rfl⟩
  · rw [edge_absorb]
    exact valid.forest.link (valid.sink_of_standing sourceStanding)
      (valid.sink_of_standing targetStanding) apart
  · intro entry member
    obtain ⟨old, oldMem, rfl⟩ := List.mem_map.mp member
    by_cases moved : old.2 = source
    · rw [if_pos moved]
      exact (mem_mark_of_ne apart.symm).mpr targetStanding
    · rw [if_neg moved]
      exact (mem_mark_of_ne moved).mpr (valid.owned old oldMem)

/-- A release of an outstanding absorption keeps the ledger valid. -/
theorem release {absorption : Entry Node Item Key} (opened : absorption ∈ ledger.outstanding) :
    (ledger.release absorption).Valid := by
  have marked : (absorption.source, true) ∈ ledger.nodes :=
    (valid.absorbed _).mpr ⟨absorption, opened, rfl⟩
  refine ⟨?_, ?_, ?_, ?_, ?_, ?_, ?_, ?_⟩
  · rw [Ledger.release, map_fst_mark]
    exact valid.nodeIds
  · rw [items_release]
    exact valid.itemIds
  · rw [keys_release]
    exact valid.keys
  · rw [outstanding_release]
    exact valid.sources.sublist (List.filter_sublist.map _)
  · intro other
    rw [outstanding_release]
    by_cases same : other = absorption.source
    · subst same
      constructor
      · intro member
        exact (Bool.false_ne_true (eq_of_mem_mark_self member).symm).elim
      · rintro ⟨entry, member, same⟩
        obtain ⟨outstanding, apart⟩ := List.mem_filter.mp member
        exact ((valid.key_ne_iff outstanding opened).mp (by simpa using apart) same).elim
    · rw [Ledger.release, mem_mark_of_ne same, valid.absorbed other]
      constructor
      · rintro ⟨entry, member, rfl⟩
        exact ⟨entry, List.mem_filter.mpr
          ⟨member, by simpa using (valid.key_ne_iff member opened).mpr same⟩, rfl⟩
      · rintro ⟨entry, member, rfl⟩
        exact ⟨entry, List.mem_of_mem_filter member, rfl⟩
  · intro entry member
    rw [outstanding_release] at member
    rw [Ledger.release, map_fst_mark]
    exact valid.targets entry (List.mem_of_mem_filter member)
  · rw [valid.edge_release opened]
    exact valid.forest.cut absorption.source
  · intro entry member
    obtain ⟨old, oldMem, rfl⟩ := List.mem_map.mp member
    by_cases moved : old.1 ∈ absorption.moved
    · rw [if_pos moved]
      exact mem_mark_self marked
    · rw [if_neg moved]
      have standing := valid.owned old oldMem
      have apart : old.2 ≠ absorption.source := by
        intro same
        exact Bool.false_ne_true (valid.flag_unique (same ▸ standing) marked)
      exact (mem_mark_of_ne apart).mpr standing

omit [DecidableEq Node] [DecidableEq Item] [DecidableEq Key] in
/-- Every node is replaced, in the end, by one that stands. -/
theorem survivor {flag : Bool} (member : (node, flag) ∈ ledger.nodes) :
    ∃ root, (root, false) ∈ ledger.nodes ∧ EndsAt ledger.edge node root := by
  obtain ⟨root, path, sink⟩ := valid.forest.grounded node
  refine ⟨root, ?_, path, sink⟩
  have present : root ∈ ledger.nodes.map Prod.fst := by
    rcases path.cases_tail with rfl | ⟨_, _, entry, opened, _, rfl⟩
    · exact List.mem_map_of_mem member
    · exact valid.targets entry opened
  obtain ⟨⟨same, mark⟩, inside, rfl⟩ := List.mem_map.mp present
  cases mark with
  | false => exact inside
  | true =>
      obtain ⟨entry, opened, atRoot⟩ := (valid.absorbed same).mp inside
      exact (sink _ ⟨entry, opened, atRoot, rfl⟩).elim

end Valid

/-- **Step rule.** Every step keeps the invariant. -/
theorem Valid.step (valid : ledger.Valid) {next : Ledger Node Item Key}
    (step : ledger.Step next) : next.Valid := by
  cases step with
  | grow growth =>
      cases growth with
      | enter node fresh => exact valid.enter fresh
      | attach item node fresh standing => exact valid.attach fresh standing
  | absorb key source target fresh apart sourceStanding targetStanding =>
      exact valid.absorb fresh apart sourceStanding targetStanding
  | release absorption opened => exact valid.release opened

theorem Valid.steps (valid : ledger.Valid) {next : Ledger Node Item Key}
    (steps : ReflTransGen Step ledger next) : next.Valid := by
  induction steps with
  | refl => exact valid
  | tail _ step ih => exact ih.step step

omit [DecidableEq Node] [DecidableEq Item] [DecidableEq Key] in
/-- A ledger that only grows keeps its absorptions and its nodes. -/
theorem keeps_of_growth {next : Ledger Node Item Key} (steps : ReflTransGen Growth ledger next) :
    next.absorptions = ledger.absorptions ∧ ∀ entry ∈ ledger.nodes, entry ∈ next.nodes := by
  induction steps with
  | refl => exact ⟨rfl, fun _ member => member⟩
  | tail _ growth ih =>
      cases growth with
      | enter _ _ => exact ⟨ih.1, fun entry member => List.mem_append_left _ (ih.2 entry member)⟩
      | attach _ _ _ _ => exact ih

/-! ## Trails

A trail relates a ledger to an earlier one: the absorptions made since then and
still outstanding explain, item by item, how the item came from its owner then to
its owner now. -/

/-- The entries lead from the first node to the last one. -/
def Leads : Node → List (Entry Node Item Key) → Node → Prop
  | first, [], last => first = last
  | first, entry :: rest, last => entry.source = first ∧ Leads entry.target rest last

omit [DecidableEq Node] [DecidableEq Item] [DecidableEq Key] in
/-- A way ends with its last entry. -/
theorem leads_concat {first last : Node} {entries : List (Entry Node Item Key)}
    {entry : Entry Node Item Key} :
    Leads first (entries ++ [entry]) last ↔
      Leads first entries entry.source ∧ entry.target = last := by
  induction entries generalizing first with
  | nil => simp [Leads, eq_comm]
  | cons head rest ih => simp only [List.cons_append, Leads, ih, and_assoc]

omit [DecidableEq Node] [DecidableEq Item] [DecidableEq Key] in
/-- An entry that still has the item at its target is the last one, when later
entries never return to an earlier source. -/
theorem Leads.last_of_target {first last : Node} {before after : List (Entry Node Item Key)}
    {entry : Entry Node Item Key} (leads : Leads first (before ++ entry :: after) last)
    (apart : (before ++ entry :: after).Pairwise fun earlier later =>
      later.target ≠ earlier.source)
    (loopless : ∀ other ∈ after, other.source ≠ other.target) (atTarget : last = entry.target) :
    after = [] := by
  rcases List.eq_nil_or_concat after with rfl | ⟨init, final, rfl⟩
  · rfl
  · rw [List.concat_eq_append] at *
    have split : before ++ entry :: (init ++ [final]) = (before ++ entry :: init) ++ [final] := by
      simp
    rw [split] at leads apart
    obtain ⟨prior, ends⟩ := leads_concat.mp leads
    have back : final.target = entry.target := ends.trans atTarget
    cases init with
    | nil =>
        have source : final.source = entry.target := (leads_concat.mp prior).2.symm
        exact (loopless final (by simp) (source.trans back.symm)).elim
    | cons next rest =>
        have onward : next.source = entry.target := by
          have drop : ∀ {start : Node} (entries : List (Entry Node Item Key)),
              Leads start (entries ++ entry :: next :: rest) final.source →
                next.source = entry.target := by
            intro start entries
            induction entries generalizing start with
            | nil => exact fun leads => leads.2.1
            | cons _ _ ih => exact fun leads => ih leads.2
          exact drop before prior
        have returns := (List.pairwise_append.mp apart).2.2 next (by simp) final (by simp)
        exact (returns (back.trans onward.symm)).elim

/-- The absorptions made since a ledger that are still outstanding. -/
def since (start ledger : Ledger Node Item Key) : List (Entry Node Item Key) :=
  (ledger.absorptions.drop start.absorptions.length).filter fun entry => !entry.reversed

/-- The absorptions made since `start` and still outstanding lead every item from
its owner in `start` to its owner in `ledger`. -/
structure Trail (start ledger : Ledger Node Item Key) : Prop where
  earlier : start.absorptions.map Entry.key <+: ledger.absorptions.map Entry.key
  keys : (ledger.absorptions.map Entry.key).Nodup
  items : (ledger.owners.map Prod.fst).Nodup
  same : ledger.owners.map Prod.fst = start.owners.map Prod.fst
  absorbed : ∀ entry ∈ start.since ledger, (entry.source, false) ∉ ledger.nodes
  loopless : ∀ entry ∈ start.since ledger, entry.source ≠ entry.target
  sources : ((start.since ledger).map Entry.source).Nodup
  apart : (start.since ledger).Pairwise fun earlier later => later.target ≠ earlier.source
  leads : ∀ item first last, (item, first) ∈ start.owners → (item, last) ∈ ledger.owners →
    Leads first ((start.since ledger).filter fun entry => item ∈ entry.moved) last

variable {start : Ledger Node Item Key}

omit [DecidableEq Node] [DecidableEq Item] [DecidableEq Key] in
theorem since_self : start.since start = [] := by simp [since]

omit [DecidableEq Node] [DecidableEq Key] in
/-- At the start nothing was absorbed, and every item is where it was. -/
theorem Trail.refl (keys : (start.absorptions.map Entry.key).Nodup)
    (items : (start.owners.map Prod.fst).Nodup) : Trail start start where
  earlier := List.prefix_refl _
  keys := keys
  items := items
  same := rfl
  absorbed := by simp [since_self]
  loopless := by simp [since_self]
  sources := by simp [since_self]
  apart := by simp [since_self]
  leads := by
    intro item first last firstMem lastMem
    rw [since_self]
    exact congrArg Prod.snd (List.inj_on_of_nodup_map items firstMem lastMem rfl)

omit [DecidableEq Node] [DecidableEq Key] in
theorem Trail.made (trail : Trail start ledger) :
    start.absorptions.length ≤ ledger.absorptions.length := by
  simpa using trail.earlier.length_le

omit [DecidableEq Node] [DecidableEq Key] in
theorem Trail.keys_start (trail : Trail start ledger) :
    start.absorptions.map Entry.key =
      (ledger.absorptions.take start.absorptions.length).map Entry.key := by
  rw [List.map_take]
  simpa using List.prefix_iff_eq_take.mp trail.earlier

omit [DecidableEq Node] [DecidableEq Key] in
/-- An outstanding absorption with a new key was made since. -/
theorem Trail.mem_since (trail : Trail start ledger) {entry : Entry Node Item Key}
    (opened : entry ∈ ledger.outstanding) (new : entry.key ∉ start.absorptions.map Entry.key) :
    entry ∈ start.since ledger := by
  obtain ⟨member, standing⟩ := List.mem_filter.mp opened
  rw [← List.take_append_drop start.absorptions.length ledger.absorptions] at member
  rcases List.mem_append.mp member with old | made
  · rw [trail.keys_start] at new
    exact (new (List.mem_map_of_mem old)).elim
  · exact List.mem_filter.mpr ⟨made, standing⟩

omit [DecidableEq Node] [DecidableEq Key] in
/-- When every outstanding absorption has an old key, none was made since. -/
theorem Trail.since_eq_nil (trail : Trail start ledger)
    (old : ∀ entry ∈ ledger.outstanding, entry.key ∈ start.absorptions.map Entry.key) :
    start.since ledger = [] := by
  refine List.filter_eq_nil_iff.mpr fun entry made standing => ?_
  have opened : entry ∈ ledger.outstanding :=
    List.mem_filter.mpr ⟨List.mem_of_mem_drop made, standing⟩
  have before := old entry opened
  rw [trail.keys_start] at before
  have keys := trail.keys
  rw [← List.take_append_drop start.absorptions.length ledger.absorptions, List.map_append] at keys
  exact (List.nodup_append.mp keys).2.2 _ before _ (List.mem_map_of_mem made) rfl

omit [DecidableEq Node] [DecidableEq Key] in
theorem Trail.owner_unique (trail : Trail start ledger) {item : Item} {first second : Node}
    (firstMem : (item, first) ∈ ledger.owners) (secondMem : (item, second) ∈ ledger.owners) :
    first = second :=
  congrArg Prod.snd (List.inj_on_of_nodup_map trail.items firstMem secondMem rfl)

omit [DecidableEq Item] [DecidableEq Key] in
/-- The items of a node are the ones it owns. -/
theorem mem_itemsOf {item : Item} : item ∈ ledger.itemsOf node ↔ (item, node) ∈ ledger.owners := by
  rw [itemsOf, List.mem_map]
  constructor
  · rintro ⟨⟨_, _⟩, member, rfl⟩
    obtain ⟨inside, owner⟩ := List.mem_filter.mp member
    cases of_decide_eq_true owner
    exact inside
  · intro member
    exact ⟨(item, node), List.mem_filter.mpr ⟨member, by simp⟩, rfl⟩

omit [DecidableEq Key] in
/-- An absorption is one more since `start`. -/
theorem Trail.since_absorb (trail : Trail start ledger) (key : Key) (source target : Node) :
    start.since (ledger.absorb key source target) =
      start.since ledger ++ [⟨key, source, target, ledger.itemsOf source, false⟩] := by
  rw [since, Ledger.absorb, List.drop_append_of_le_length trail.made, List.filter_append]
  rfl

omit [DecidableEq Key] in
/-- An absorption extends the trail of the items it moves. -/
theorem Trail.absorb (trail : Trail start ledger) {key : Key} {source target : Node}
    (fresh : key ∉ ledger.absorptions.map Entry.key) (apart : source ≠ target)
    (sourceStanding : (source, false) ∈ ledger.nodes)
    (targetStanding : (target, false) ∈ ledger.nodes) :
    Trail start (ledger.absorb key source target) := by
  have standing : ∀ entry ∈ start.since ledger, entry.source ≠ source ∧ entry.source ≠ target := by
    intro entry member
    exact ⟨fun same => trail.absorbed entry member (same ▸ sourceStanding),
      fun same => trail.absorbed entry member (same ▸ targetStanding)⟩
  refine ⟨?_, ?_, by rw [items_absorb]; exact trail.items, (items_absorb ..).trans trail.same, ?_,
    ?_, ?_, ?_, ?_⟩
  · rw [Ledger.absorb, List.map_append]
    exact trail.earlier.trans (List.prefix_append _ _)
  · change ((ledger.absorptions ++ [_]).map Entry.key).Nodup
    rw [List.map_append, List.map_singleton, ← List.concat_eq_append]
    exact trail.keys.concat fresh
  · intro entry member
    rw [trail.since_absorb] at member
    rcases List.mem_append.mp member with old | new
    · rw [Ledger.absorb, mem_mark_of_ne (standing entry old).1]
      exact trail.absorbed entry old
    · cases List.mem_singleton.mp new
      exact fun marked => Bool.false_ne_true (eq_of_mem_mark_self marked)
  · intro entry member
    rw [trail.since_absorb] at member
    rcases List.mem_append.mp member with old | new
    · exact trail.loopless entry old
    · cases List.mem_singleton.mp new
      exact apart
  · rw [trail.since_absorb, List.map_append, List.map_singleton, ← List.concat_eq_append]
    refine trail.sources.concat fun member => ?_
    obtain ⟨entry, entryMem, same⟩ := List.mem_map.mp member
    exact (standing entry entryMem).1 same
  · rw [trail.since_absorb, List.pairwise_append]
    refine ⟨trail.apart, List.pairwise_singleton _ _, ?_⟩
    intro entry member last lastMem
    cases List.mem_singleton.mp lastMem
    exact (standing entry member).2.symm
  · intro item first last firstMem lastMem
    obtain ⟨⟨_, owner⟩, oldMem, moved⟩ := List.mem_map.mp lastMem
    rw [trail.since_absorb, List.filter_append]
    by_cases owned : owner = source
    · subst owned
      rw [if_pos rfl, Prod.mk.injEq] at moved
      obtain ⟨rfl, rfl⟩ := moved
      rw [List.filter_cons_of_pos (by simpa using mem_itemsOf.mpr oldMem), List.filter_nil,
        leads_concat]
      exact ⟨trail.leads _ first _ firstMem oldMem, rfl⟩
    · rw [if_neg owned, Prod.mk.injEq] at moved
      obtain ⟨rfl, rfl⟩ := moved
      have unmoved := fun inside => owned (trail.owner_unique oldMem (mem_itemsOf.mp inside))
      rw [List.filter_cons_of_neg (by simpa using unmoved), List.filter_nil, List.append_nil]
      exact trail.leads _ first _ firstMem oldMem

/-- The absorptions since `start` that a release leaves are those of other keys. -/
theorem since_release (absorption : Entry Node Item Key) :
    start.since (ledger.release absorption) =
      (start.since ledger).filter fun entry => entry.key ≠ absorption.key := by
  rw [since, Ledger.release, ← List.map_drop]
  exact filter_reversed_map absorption _

omit [DecidableEq Node] [DecidableEq Key] in
/-- Different entries of a trail have different keys. -/
theorem Trail.key_ne (trail : Trail start ledger) {entry absorption : Entry Node Item Key}
    (made : absorption ∈ start.since ledger) (member : entry ∈ start.since ledger)
    (different : entry ≠ absorption) : entry.key ≠ absorption.key := by
  have recorded : ∀ entry ∈ start.since ledger, entry ∈ ledger.absorptions :=
    fun entry member => List.mem_of_mem_drop (List.mem_of_mem_filter member)
  intro same
  exact different (List.inj_on_of_nodup_map trail.keys (recorded entry member)
    (recorded absorption made) same)

omit [DecidableEq Node] in
/-- The entry that is released is the last one of the trail of an item it hands back. -/
theorem Trail.leads_handed (trail : Trail start ledger) {absorption : Entry Node Item Key}
    (made : absorption ∈ start.since ledger) {item : Item} {first : Node}
    (firstMem : (item, first) ∈ start.owners)
    (lastMem : (item, absorption.target) ∈ ledger.owners) (handed : item ∈ absorption.moved) :
    Leads first (((start.since ledger).filter fun entry => item ∈ entry.moved).filter
      fun entry => entry.key ≠ absorption.key) absorption.source := by
  have leads := trail.leads item first _ firstMem lastMem
  have carried : absorption ∈ (start.since ledger).filter fun entry => item ∈ entry.moved :=
    List.mem_filter.mpr ⟨made, by simpa using handed⟩
  obtain ⟨before, after, split⟩ := List.append_of_mem carried
  have inside : ∀ entry ∈ before ++ absorption :: after, entry ∈ start.since ledger :=
    fun entry member => List.mem_of_mem_filter (split ▸ member)
  have order : (before ++ absorption :: after).Pairwise fun earlier later =>
      later.target ≠ earlier.source := split ▸ trail.apart.filter _
  rw [split] at leads ⊢
  have ends : after = [] := leads.last_of_target order
    (fun other member => trail.loopless other (inside other (by simp [member]))) rfl
  subst ends
  have once : (before ++ [absorption]).Nodup := split ▸ trail.sources.of_map.filter _
  have kept : (before ++ [absorption]).filter (fun entry => entry.key ≠ absorption.key) =
      before := by
    rw [List.filter_append, List.filter_cons_of_neg (by simp), List.filter_nil,
      List.append_nil, List.filter_eq_self]
    intro entry member
    have different : entry ≠ absorption := fun same =>
      (List.nodup_append.mp once).2.2 entry member absorption (by simp) same
    simpa using trail.key_ne made (inside entry (by simp [member])) different
  rw [kept]
  exact (leads_concat.mp leads).1

omit [DecidableEq Node] in
/-- The trail of an item that is not handed back stays as it is. -/
theorem Trail.filter_unhanded (trail : Trail start ledger) {absorption : Entry Node Item Key}
    (made : absorption ∈ start.since ledger) {item : Item} (unhanded : item ∉ absorption.moved) :
    (((start.since ledger).filter fun entry => item ∈ entry.moved).filter
        fun entry => entry.key ≠ absorption.key) =
      (start.since ledger).filter fun entry => item ∈ entry.moved := by
  rw [List.filter_eq_self]
  intro entry member
  obtain ⟨inside, moves⟩ := List.mem_filter.mp member
  have different : entry ≠ absorption := by
    rintro rfl
    exact unhanded (by simpa using moves)
  simpa using trail.key_ne made inside different

/-- A release that finds all its items at its target shortens their trails. -/
theorem Trail.release (trail : Trail start ledger) {absorption : Entry Node Item Key}
    (made : absorption ∈ start.since ledger)
    (inPlace : ∀ item node, (item, node) ∈ ledger.owners → item ∈ absorption.moved →
      node = absorption.target) : Trail start (ledger.release absorption) := by
  have subset : ∀ entry ∈ start.since (ledger.release absorption), entry ∈ start.since ledger ∧
      entry.key ≠ absorption.key := by
    intro entry member
    rw [since_release] at member
    obtain ⟨old, different⟩ := List.mem_filter.mp member
    exact ⟨old, by simpa using different⟩
  refine ⟨?_, by rw [keys_release]; exact trail.keys, by rw [items_release]; exact trail.items,
    (items_release _).trans trail.same, ?_, ?_, ?_, ?_, ?_⟩
  · rw [keys_release]
    exact trail.earlier
  · intro entry member
    obtain ⟨old, different⟩ := subset entry member
    rw [Ledger.release, mem_mark_of_ne]
    · exact trail.absorbed entry old
    · intro same
      exact different (congrArg Entry.key (List.inj_on_of_nodup_map trail.sources old made same))
  · exact fun entry member => trail.loopless entry (subset entry member).1
  · rw [since_release]
    exact trail.sources.sublist (List.filter_sublist.map _)
  · rw [since_release]
    exact trail.apart.filter _
  · intro item first last firstMem lastMem
    obtain ⟨⟨old, owner⟩, oldMem, moved⟩ := List.mem_map.mp lastMem
    rw [since_release, List.filter_comm]
    by_cases handed : old ∈ absorption.moved
    · rw [if_pos handed, Prod.mk.injEq] at moved
      obtain ⟨rfl, rfl⟩ := moved
      obtain rfl := inPlace old owner oldMem handed
      exact trail.leads_handed made firstMem oldMem handed
    · rw [if_neg handed, Prod.mk.injEq] at moved
      obtain ⟨rfl, rfl⟩ := moved
      rw [trail.filter_unhanded made handed]
      exact trail.leads old first owner firstMem oldMem

omit [DecidableEq Node] [DecidableEq Key] in
/-- **Restoration.** When nothing made since `start` is outstanding, every item is
back with its owner. -/
theorem Trail.restored (trail : Trail start ledger)
    (settled : ∀ entry ∈ ledger.outstanding, entry.key ∈ start.absorptions.map Entry.key)
    {item : Item} {first : Node} (member : (item, first) ∈ start.owners) :
    (item, first) ∈ ledger.owners := by
  have present : item ∈ ledger.owners.map Prod.fst :=
    trail.same ▸ List.mem_map_of_mem member
  obtain ⟨⟨same, last⟩, lastMem, rfl⟩ := List.mem_map.mp present
  have leads := trail.leads same first last member lastMem
  rw [trail.since_eq_nil settled] at leads
  have back : first = last := leads
  exact back ▸ lastMem

end Ledger

end Absorption
