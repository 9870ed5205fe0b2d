import Mathlib.Logic.Relation

/-! # Forests of redirections

A redirection relation sends a node to the node that replaces it. It is a forest
when every node has at most one replacement and following replacements from any
node ends at a sink; then no path returns to its start, and the sink is unique.
Linking one sink to another and cutting the edge of a node keep a forest.
-/

namespace Forest

open Relation

variable {Node : Type*}

/-- A node without a replacement. -/
def Sink (edge : Node → Node → Prop) (node : Node) : Prop := ∀ next, ¬ edge node next

/-- Following replacements from `node` ends at `root`. -/
def EndsAt (edge : Node → Node → Prop) (node root : Node) : Prop :=
  ReflTransGen edge node root ∧ Sink edge root

/-- A functional relation whose paths end. -/
structure IsForest (edge : Node → Node → Prop) : Prop where
  functional : ∀ node first second, edge node first → edge node second → first = second
  grounded : ∀ node, ∃ root, EndsAt edge node root

/-- `edge` with one more edge. -/
def link (edge : Node → Node → Prop) (source target : Node) (first second : Node) : Prop :=
  edge first second ∨ first = source ∧ second = target

/-- `edge` without the edge of `source`. -/
def cut (edge : Node → Node → Prop) (source : Node) (first second : Node) : Prop :=
  edge first second ∧ first ≠ source

variable {edge : Node → Node → Prop}

theorem Sink.endsAt {node : Node} (sink : Sink edge node) : EndsAt edge node node :=
  ⟨.refl, sink⟩

theorem EndsAt.head {node next root : Node} (step : edge node next) (ends : EndsAt edge next root) :
    EndsAt edge node root :=
  ⟨.head step ends.1, ends.2⟩

/-- A relation without edges is a forest. -/
theorem isForest_of_no_edge (none : ∀ first second, ¬ edge first second) : IsForest edge where
  functional := fun node first _ step => (none node first step).elim
  grounded := fun node => ⟨node, Sink.endsAt (none node)⟩

/-- A path that returns to its start never ends, so a forest has none. -/
theorem IsForest.acyclic (forest : IsForest edge) (node : Node) : ¬ TransGen edge node node := by
  obtain ⟨root, path, sink⟩ := forest.grounded node
  induction path using ReflTransGen.head_induction_on with
  | refl =>
      intro cycle
      obtain ⟨next, step, _⟩ := TransGen.head'_iff.mp cycle
      exact sink next step
  | @head start next step _ ih =>
      intro cycle
      obtain ⟨other, otherStep, back⟩ := TransGen.head'_iff.mp cycle
      cases forest.functional start next other step otherStep
      exact ih (.tail' back step)

/-- Linking a sink to another sink keeps a forest. -/
theorem IsForest.link (forest : IsForest edge) {source target : Node}
    (sourceSink : Sink edge source) (targetSink : Sink edge target) (apart : source ≠ target) :
    IsForest (Forest.link edge source target) := by
  have targetStays : Sink (Forest.link edge source target) target := by
    rintro next (step | ⟨same, _⟩)
    · exact targetSink next step
    · exact apart same.symm
  refine ⟨?_, fun node => ?_⟩
  · rintro node first second (firstStep | ⟨rfl, rfl⟩) (secondStep | ⟨atSource, rfl⟩)
    · exact forest.functional node first second firstStep secondStep
    · exact (sourceSink first (atSource ▸ firstStep)).elim
    · exact (sourceSink second secondStep).elim
    · rfl
  · obtain ⟨root, path, sink⟩ := forest.grounded node
    induction path using ReflTransGen.head_induction_on with
    | refl =>
        by_cases atSource : root = source
        · exact ⟨target, .head (.inr ⟨atSource, rfl⟩) targetStays.endsAt⟩
        · refine ⟨root, Sink.endsAt ?_⟩
          rintro next (step | ⟨same, _⟩)
          · exact sink next step
          · exact atSource same
    | head step _ ih =>
        obtain ⟨last, ends⟩ := ih
        exact ⟨last, .head (.inl step) ends⟩

/-- Cutting the edge of a node keeps a forest. -/
theorem IsForest.cut (forest : IsForest edge) (source : Node) :
    IsForest (Forest.cut edge source) := by
  refine ⟨fun node first second firstStep secondStep =>
    forest.functional node first second firstStep.1 secondStep.1, fun node => ?_⟩
  obtain ⟨root, path, sink⟩ := forest.grounded node
  induction path using ReflTransGen.head_induction_on with
  | refl => exact ⟨root, Sink.endsAt fun next step => sink next step.1⟩
  | @head start next step _ ih =>
      by_cases atSource : start = source
      · exact ⟨start, Sink.endsAt fun _ other => other.2 atSource⟩
      · obtain ⟨last, ends⟩ := ih
        exact ⟨last, .head ⟨step, atSource⟩ ends⟩

end Forest
