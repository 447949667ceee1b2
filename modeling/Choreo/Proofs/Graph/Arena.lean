import Mathlib.Data.List.Nodup
import Choreo.Graph.Cycle

/-!
# Arenas of nodes

The nodes of a graph refer to one another by their places. An arena is a list of nodes in which no
unit has two nodes and in which the dependents of a node are exactly the nodes that have it among
their prerequisites; all places that are mentioned are then inside the list. Every edit of a graph
keeps this, and an order of start that the graph remembers is the one that its nodes have.
-/

namespace Choreo

theorem nodup_eraseDups (places : List Nat) : places.eraseDups.Nodup := by
  cases places with
  | nil => simp
  | cons place rest =>
    rw [List.eraseDups_cons]
    exact List.nodup_cons.2 ⟨by simp, nodup_eraseDups _⟩
termination_by places.length
decreasing_by
  have size := List.length_filter_le (fun b => !b == place) rest
  simp only [List.length_cons]
  omega

/-- The nodes that the node at a place waits for. -/
def Graph.prerequisites (nodes : List Node) (node : Nat) : List Nat :=
  (nodes[node]?.map Node.prerequisites).getD []

/-- Nodes whose mentions of one another agree. -/
structure Arena (nodes : List Node) : Prop where
  units_nodup : (nodes.map Node.unit).Nodup
  dependents_nodup : ∀ place, (Graph.dependents nodes place).Nodup
  mem_dependents : ∀ i j, j ∈ Graph.dependents nodes i ↔ i ∈ Graph.prerequisites nodes j

namespace Graph

theorem prerequisites_nodup (nodes : List Node) (node : Nat) :
    (prerequisites nodes node).Nodup := by
  rw [prerequisites]
  cases nodes[node]? with
  | none => simp
  | some found => exact nodup_eraseDups _

theorem mem_prerequisites {nodes : List Node} {i j : Nat} :
    i ∈ prerequisites nodes j ↔
      ∃ node, nodes[j]? = some node ∧ ∃ d ∈ node.dependencies, d.node = i := by
  rw [prerequisites]
  cases nodes[j]? <;> simp [Node.prerequisites]

theorem mem_dependents_getElem {nodes : List Node} {i j : Nat} :
    j ∈ dependents nodes i ↔ ∃ node, nodes[i]? = some node ∧ j ∈ node.dependents := by
  rw [dependents]
  cases nodes[i]? <;> simp

theorem mem_dependencies {graph : Graph} {place : Nat} {d : Dependency} :
    d ∈ graph.dependencies place ↔
      ∃ node, graph.nodes[place]? = some node ∧ d ∈ node.dependencies := by
  rw [dependencies]
  cases graph.nodes[place]? <;> simp

theorem unit?_eq_some {graph : Graph} {place : Nat} {unit : UnitId} :
    graph.unit? place = some unit ↔
      ∃ node, graph.nodes[place]? = some node ∧ node.unit = unit := by
  simp [unit?]

theorem unit?_eq_getElem (graph : Graph) (place : Nat) :
    graph.unit? place = (graph.nodes.map Node.unit)[place]? := by
  simp [unit?]

end Graph

namespace Arena

variable {nodes : List Node}

theorem nil : Arena [] := ⟨.nil, by simp [Graph.dependents], by
  simp [Graph.dependents, Graph.prerequisites]⟩

theorem lt_of_prerequisite (arena : Arena nodes) {i j : Nat} (h : i ∈ Graph.prerequisites nodes j) :
    i < nodes.length ∧ j < nodes.length := by
  have waits := Graph.mem_prerequisites.1 h
  have follows := Graph.mem_dependents_getElem.1 ((arena.mem_dependents i j).2 h)
  obtain ⟨waiting, hj, -⟩ := waits
  obtain ⟨awaited, hi, -⟩ := follows
  exact ⟨(List.getElem?_eq_some_iff.1 hi).1, (List.getElem?_eq_some_iff.1 hj).1⟩

theorem lt_of_dependency (arena : Arena nodes) {place : Nat} {node : Node} {d : Dependency}
    (hnode : nodes[place]? = some node) (hd : d ∈ node.dependencies) : d.node < nodes.length :=
  (arena.lt_of_prerequisite (Graph.mem_prerequisites.2 ⟨node, hnode, d, hd, rfl⟩)).1

/-- Both ends of a dependency are nodes. -/
theorem inside_of_declared {graph : Graph} (arena : Arena graph.nodes) {dependent : Nat}
    {d : Dependency} (declared : d ∈ graph.dependencies dependent) :
    dependent < graph.nodes.length ∧ d.node < graph.nodes.length := by
  obtain ⟨node, here, member⟩ := Graph.mem_dependencies.1 declared
  exact ⟨(List.getElem?_eq_some_iff.1 here).1, arena.lt_of_dependency here member⟩

theorem append_isolated (arena : Arena nodes) {unit : UnitId} (h : unit ∉ nodes.map Node.unit) :
    Arena (nodes ++ [Node.isolated unit]) := by
  have frame : ∀ place, Graph.dependents (nodes ++ [Node.isolated unit]) place =
      Graph.dependents nodes place := by
    intro place
    rcases Nat.lt_trichotomy place nodes.length with lt | rfl | gt
    · simp [Graph.dependents, List.getElem?_append_left lt]
    · simp [Graph.dependents, Node.isolated]
    · have beyond : (nodes ++ [Node.isolated unit])[place]? = none := by simp; omega
      have outside : nodes[place]? = none := by simp; omega
      simp [Graph.dependents, beyond, outside]
  have frame' : ∀ place, Graph.prerequisites (nodes ++ [Node.isolated unit]) place =
      Graph.prerequisites nodes place := by
    intro place
    rcases Nat.lt_trichotomy place nodes.length with lt | rfl | gt
    · simp [Graph.prerequisites, List.getElem?_append_left lt]
    · simp [Graph.prerequisites, Node.isolated, Node.prerequisites]
    · have beyond : (nodes ++ [Node.isolated unit])[place]? = none := by simp; omega
      have outside : nodes[place]? = none := by simp; omega
      simp [Graph.prerequisites, beyond, outside]
  refine ⟨?_, fun place => ?_, fun i j => ?_⟩
  · rw [List.map_append]
    refine List.nodup_append.2 ⟨arena.units_nodup, by simp, fun a ha b hb => ?_⟩
    simp only [List.map_cons, List.map_nil, List.mem_singleton, Node.isolated] at hb
    rintro rfl
    exact h (hb ▸ ha)
  · rw [frame]; exact arena.dependents_nodup place
  · rw [frame, frame']; exact arena.mem_dependents i j

end Arena

namespace Node

/-- The node at `place` once the node at `dependent` has to wait for one thing more. -/
def relinked (dependent : Nat) (dependency : Dependency) (place : Nat) (node : Node) : Node :=
  let waiting := if place = dependent then node.addDependency dependency else node
  if place = dependency.node then waiting.addDependent dependent else waiting

theorem unit_addDependent (dependent : Nat) (node : Node) :
    (node.addDependent dependent).unit = node.unit := by
  rw [addDependent]; split <;> rfl

theorem dependencies_addDependent (dependent : Nat) (node : Node) :
    (node.addDependent dependent).dependencies = node.dependencies := by
  rw [addDependent]; split <;> rfl

theorem mem_dependents_addDependent {dependent other : Nat} {node : Node} :
    other ∈ (node.addDependent dependent).dependents ↔ other ∈ node.dependents ∨
      other = dependent := by
  rw [addDependent]
  split
  · rename_i present
    exact ⟨.inl, fun h => h.elim id fun same => same ▸ present⟩
  · simp

theorem nodup_dependents_addDependent {node : Node} (dependent : Nat) (h : node.dependents.Nodup) :
    (node.addDependent dependent).dependents.Nodup := by
  rw [addDependent]
  split
  · exact h
  · rename_i absent
    refine List.nodup_append.2 ⟨h, by simp, fun a ha b hb same => ?_⟩
    rw [List.mem_singleton] at hb
    exact absent (hb ▸ same ▸ ha)

variable (dependent : Nat) (dependency : Dependency) (place : Nat) (node : Node)

@[simp] theorem unit_relinked : (node.relinked dependent dependency place).unit = node.unit := by
  unfold relinked
  simp only
  split <;> split <;> simp [unit_addDependent, addDependency]

theorem dependencies_relinked : (node.relinked dependent dependency place).dependencies =
    if place = dependent then node.dependencies ++ [dependency] else node.dependencies := by
  unfold relinked
  simp only
  split <;> split <;> simp [dependencies_addDependent, addDependency]

theorem mem_dependents_relinked {other : Nat} :
    other ∈ (node.relinked dependent dependency place).dependents ↔
      other ∈ node.dependents ∨ place = dependency.node ∧ other = dependent := by
  unfold relinked
  simp only
  split <;> split <;> simp_all [mem_dependents_addDependent, addDependency]

theorem nodup_dependents_relinked (h : node.dependents.Nodup) :
    (node.relinked dependent dependency place).dependents.Nodup := by
  have waiting :
      (if place = dependent then node.addDependency dependency else node).dependents.Nodup := by
    split <;> exact h
  unfold relinked
  simp only
  split
  · exact nodup_dependents_addDependent dependent waiting
  · exact waiting

end Node

namespace Graph

/-- The nodes when one of them has to wait for one thing more. -/
def linked (nodes : List Node) (dependent : Nat) (dependency : Dependency) : List Node :=
  (nodes.modify dependent (Node.addDependency dependency)).modify dependency.node
    (Node.addDependent dependent)

theorem getElem?_linked (nodes : List Node) (dependent : Nat) (dependency : Dependency)
    (place : Nat) :
    (linked nodes dependent dependency)[place]? =
      nodes[place]?.map (Node.relinked dependent dependency place) := by
  rw [linked]
  simp only [List.getElem?_modify, Option.map_eq_map, Option.map_map]
  congr 1
  funext node
  simp [Node.relinked, eq_comm (a := place)]

theorem units_linked (nodes : List Node) (dependent : Nat) (dependency : Dependency) :
    (linked nodes dependent dependency).map Node.unit = nodes.map Node.unit := by
  apply List.ext_getElem?
  intro place
  rw [List.getElem?_map, List.getElem?_map, getElem?_linked, Option.map_map]
  congr 1
  funext node
  simp

end Graph

namespace Arena

variable {nodes : List Node}

/-- A node may be made to wait for another one. -/
theorem linked (arena : Arena nodes) {dependent : Nat} {dependency : Dependency}
    (hd : dependent < nodes.length) (hp : dependency.node < nodes.length) :
    Arena (Graph.linked nodes dependent dependency) := by
  have follows : ∀ i j, j ∈ Graph.dependents (Graph.linked nodes dependent dependency) i ↔
      j ∈ Graph.dependents nodes i ∨ i = dependency.node ∧ j = dependent := by
    intro i j
    rw [Graph.dependents, Graph.dependents, Graph.getElem?_linked]
    cases hi : nodes[i]? with
    | none =>
      have beyond := List.getElem?_eq_none_iff.1 hi
      simp only [Option.map_none, Option.getD_none, List.not_mem_nil, false_or, false_iff]
      omega
    | some node => simp [Node.mem_dependents_relinked]
  have waits : ∀ i j, i ∈ Graph.prerequisites (Graph.linked nodes dependent dependency) j ↔
      i ∈ Graph.prerequisites nodes j ∨ i = dependency.node ∧ j = dependent := by
    intro i j
    rw [Graph.prerequisites, Graph.prerequisites, Graph.getElem?_linked]
    cases hj : nodes[j]? with
    | none =>
      have beyond := List.getElem?_eq_none_iff.1 hj
      simp only [Option.map_none, Option.getD_none, List.not_mem_nil, false_or, false_iff]
      omega
    | some node =>
      by_cases own : j = dependent
      · simp [Node.prerequisites, Node.dependencies_relinked, own, eq_comm]
      · simp [Node.prerequisites, Node.dependencies_relinked, own]
  refine ⟨?_, fun place => ?_, fun i j => ?_⟩
  · rw [Graph.units_linked]; exact arena.units_nodup
  · have before := arena.dependents_nodup place
    rw [Graph.dependents, Graph.getElem?_linked]
    cases h : nodes[place]? with
    | none => simp
    | some node =>
      rw [Graph.dependents, h] at before
      exact Node.nodup_dependents_relinked _ _ _ _ before
  · rw [follows, waits, arena.mem_dependents]

end Arena

end Choreo
