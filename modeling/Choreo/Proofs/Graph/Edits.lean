import Choreo.Proofs.Graph.Waves

/-!
# Edits of a graph

Units may be given nodes, nodes may be made to wait for one another, and the order of start may be
forgotten or asked for, in any order and at any time. A graph stays sound under all of this: its
nodes are an arena, and the order that it remembers is the order of its nodes. Nodes keep their
places.
-/

namespace Choreo

/-- One change of a graph. Places that the graph did not give out are left alone. -/
inductive Edit where
  | place (unit : UnitId)
  | depend (dependent : Nat) (dependency : Dependency)
  | touch
  | sort
  deriving DecidableEq

namespace Graph

/-- The graph after a change. -/
def edit (graph : Graph) : Edit → Graph
  | .place unit => (graph.place unit).2
  | .depend dependent dependency =>
    if dependent < graph.nodes.length ∧ dependency.node < graph.nodes.length then
      graph.addDependency dependent dependency
    else graph
  | .touch => graph.touch
  | .sort => graph.sorted.2

/-- The nodes are an arena, and a remembered order is theirs. -/
structure Sound (graph : Graph) : Prop where
  arena : Arena graph.nodes
  cached : ∀ order, graph.order = some order → waveOrder graph.nodes = .ok order

theorem sound_empty : empty.Sound := ⟨Arena.nil, by simp [empty]⟩

theorem nodeFor?_eq_none {graph : Graph} {unit : UnitId} :
    graph.nodeFor? unit = none ↔ unit ∉ graph.nodes.map Node.unit := by
  simp [nodeFor?]

theorem nodeFor?_eq_some {graph : Graph} (arena : Arena graph.nodes) {unit : UnitId} {place : Nat} :
    graph.nodeFor? unit = some place ↔ graph.unit? place = some unit := by
  have distinct := arena.units_nodup
  rw [unit?_eq_some, nodeFor?, List.findIdx?_eq_some_iff_getElem]
  constructor
  · rintro ⟨inside, same, -⟩
    exact ⟨_, List.getElem?_eq_getElem inside, eq_of_beq same⟩
  · rintro ⟨node, hnode, rfl⟩
    obtain ⟨inside, rfl⟩ := List.getElem?_eq_some_iff.1 hnode
    refine ⟨inside, by simp, fun j earlier => ?_⟩
    have other := List.pairwise_iff_getElem.1 distinct j place (by simp; omega) (by simpa) earlier
    simpa using other

/-- Where a unit's node is depends on the units of the nodes alone. -/
theorem nodeFor?_congr {g h : Graph} (same : g.nodes.map Node.unit = h.nodes.map Node.unit)
    (unit : UnitId) :
    g.nodeFor? unit = h.nodeFor? unit := by
  have named : ∀ graph : Graph, graph.nodeFor? unit =
      (graph.nodes.map Node.unit).findIdx? (· == unit) := by
    intro graph
    rw [List.findIdx?_map]
    rfl
  rw [named, named, same]

theorem unit?_inj {graph : Graph} (arena : Arena graph.nodes) {unit : UnitId} {i j : Nat}
    (hi : graph.unit? i = some unit) (hj : graph.unit? j = some unit) : i = j := by
  have found := (nodeFor?_eq_some arena).2 hi
  rw [(nodeFor?_eq_some arena).2 hj] at found
  exact (Option.some.inj found).symm

@[simp] theorem nodes_sorted (graph : Graph) : graph.sorted.2.nodes = graph.nodes := by
  rw [sorted]
  split
  · rfl
  · split <;> rfl

/-- The order that is worked out or remembered is that of the nodes. -/
theorem Sound.sorted_ok {graph : Graph} (sound : graph.Sound) {order : List Nat}
    (h : graph.sorted.1 = .ok order) : waveOrder graph.nodes = .ok order := by
  rw [sorted] at h
  split at h
  · rename_i known
    cases h
    exact sound.cached _ known
  · split at h
    · rename_i found
      cases h
      exact found
    · cases h

theorem Sound.ordering {graph : Graph} (sound : graph.Sound) {order : List Nat}
    (h : graph.sorted.1 = .ok order) : Ordering graph.nodes order :=
  ordering_of_waveOrder sound.arena (sound.sorted_ok h)

theorem Sound.sorted {graph : Graph} (sound : graph.Sound) : graph.sorted.2.Sound := by
  refine ⟨by simpa using sound.arena, fun order known => ?_⟩
  rw [nodes_sorted]
  rw [Graph.sorted] at known
  split at known
  · exact sound.cached _ known
  · split at known
    · rename_i found
      cases known
      exact found
    · rename_i stale _ _ _
      rw [stale] at known
      cases known

theorem Sound.place {graph : Graph} (sound : graph.Sound) (unit : UnitId) :
    (graph.place unit).2.Sound := by
  rw [Graph.place]
  split
  · exact sound
  · rename_i absent
    exact ⟨sound.arena.append_isolated (nodeFor?_eq_none.1 absent), by simp⟩

theorem Sound.addDependency {graph : Graph} (sound : graph.Sound)
    {dependent : Nat} {dependency : Dependency}
    (hd : dependent < graph.nodes.length) (hp : dependency.node < graph.nodes.length) :
    (graph.addDependency dependent dependency).Sound :=
  ⟨sound.arena.linked hd hp, by simp [Graph.addDependency]⟩

theorem dependencies_addDependency {graph : Graph} {dependent : Nat} (d : Dependency)
    (h : dependent < graph.nodes.length) (node : Nat) :
    (graph.addDependency dependent d).dependencies node =
      if node = dependent then graph.dependencies node ++ [d] else graph.dependencies node := by
  have linked : (graph.addDependency dependent d).nodes[node]? =
      graph.nodes[node]?.map (Node.relinked dependent d node) :=
        getElem?_linked graph.nodes dependent d node
  rw [dependencies, linked, dependencies]
  by_cases here : node = dependent
  · subst here
    simp [h, Node.dependencies_relinked]
  · cases graph.nodes[node]? <;> simp [here, Node.dependencies_relinked]

theorem Sound.touch {graph : Graph} (sound : graph.Sound) : graph.touch.Sound :=
  ⟨sound.arena, by simp⟩

theorem Sound.edit {graph : Graph} (sound : graph.Sound) (change : Edit) :
    (graph.edit change).Sound := by
  cases change with
  | place unit => exact sound.place unit
  | depend dependent dependency =>
    simp only [Graph.edit]
    split
    · rename_i inside
      exact sound.addDependency inside.1 inside.2
    · exact sound
  | touch => exact sound.touch
  | sort => exact sound.sorted

theorem Sound.edits {graph : Graph} (sound : graph.Sound) (changes : List Edit) :
    (changes.foldl Graph.edit graph).Sound := by
  induction changes generalizing graph with
  | nil => exact sound
  | cons change rest ih => exact ih (sound.edit change)

theorem units_edit (graph : Graph) (change : Edit) :
    graph.nodes.map Node.unit <+: (graph.edit change).nodes.map Node.unit := by
  cases change with
  | place unit =>
    simp only [Graph.edit, Graph.place]
    split
    · exact List.prefix_rfl
    · simp
  | depend dependent dependency =>
    simp only [Graph.edit]
    split
    · have same := units_linked graph.nodes dependent dependency
      exact same ▸ List.prefix_rfl
    · exact List.prefix_rfl
  | touch => exact List.prefix_rfl
  | sort => simp [Graph.edit]

theorem dependencies_edit (graph : Graph) (change : Edit) (node : Nat) :
    graph.dependencies node <+: (graph.edit change).dependencies node := by
  cases change with
  | place unit =>
    simp only [Graph.edit, Graph.place]
    split
    · exact List.prefix_rfl
    · simp only [dependencies]
      rcases Nat.lt_or_ge node graph.nodes.length with inside | outside
      · simp only [List.getElem?_append_left inside]
        exact List.prefix_rfl
      · simp [List.getElem?_eq_none outside]
  | depend dependent dependency =>
    simp only [Graph.edit]
    split
    · rename_i inside
      rw [dependencies_addDependency dependency inside.1]
      split
      · exact List.prefix_append ..
      · exact List.prefix_rfl
    · exact List.prefix_rfl
  | touch => exact List.prefix_rfl
  | sort => simp [Graph.edit, dependencies]

/-- The nodes have the same units as before and wait for all that they waited for before. -/
structure Extends (base grown : Graph) : Prop where
  units : base.nodes.map Node.unit <+: grown.nodes.map Node.unit
  dependencies : ∀ node, base.dependencies node <+: grown.dependencies node

theorem Extends.refl (graph : Graph) : graph.Extends graph :=
  ⟨List.prefix_rfl, fun _ => List.prefix_rfl⟩

theorem Extends.trans {first second third : Graph} (h : first.Extends second)
    (h' : second.Extends third) : first.Extends third :=
  ⟨h.units.trans h'.units, fun node => (h.dependencies node).trans (h'.dependencies node)⟩

theorem extends_edit (graph : Graph) (change : Edit) : graph.Extends (graph.edit change) :=
  ⟨graph.units_edit change, graph.dependencies_edit change⟩

/-- A graph that is edited step by step extends what it was. -/
theorem extends_edits (graph : Graph) (changes : List Edit) :
    graph.Extends (changes.foldl edit graph) := by
  induction changes generalizing graph with
  | nil => exact .refl _
  | cons change rest ih => exact (graph.extends_edit change).trans (ih _)

theorem Extends.unit? {base grown : Graph} (h : base.Extends grown) {node : Nat} {unit : UnitId}
    (named : base.unit? node = some unit) : grown.unit? node = some unit := by
  rw [unit?_eq_getElem] at named ⊢
  obtain ⟨added, same⟩ := h.units
  rw [← same, List.getElem?_append_left (List.getElem?_eq_some_iff.1 named).1, named]

end Graph

end Choreo
