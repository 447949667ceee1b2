import Choreo.Proofs.Graph.Components
import Choreo.Proofs.Graph.Repeats
import Choreo.Proofs.Run.Operations

/-!
# The remembered order

The order that a graph remembers is forgotten with every edit and kept by everything else, so it is
never the order of other nodes than those that are there. What a graph answers when it is asked for
its order thus depends on its nodes and edges alone, and not on its history: a graph that was just
made with the same units and the same edges, entered in any order, gives the same answer.
-/

namespace Choreo

namespace Graph

/-- Two graphs with nodes of the same units, in the same order of creation, and with the same
edges. -/
structure SameEdges (g h : Graph) : Prop where
  units : g.nodes.map Node.unit = h.nodes.map Node.unit
  dependencies : ∀ node d, d ∈ g.dependencies node ↔ d ∈ h.dependencies node

namespace SameEdges

variable {g h : Graph}

theorem length (same : g.SameEdges h) : g.nodes.length = h.nodes.length := by
  simpa using congrArg List.length same.units

theorem unitsAt (same : g.SameEdges h) (places : List Nat) : g.units places = h.units places := by
  refine List.filterMap_congr fun node _ => ?_
  rw [unit?_eq_getElem, unit?_eq_getElem, same.units]

theorem waits (same : g.SameEdges h) : Waits g.nodes = Waits h.nodes := by
  funext p node
  simp only [waits_iff, same.dependencies]

theorem acyclic_iff (same : g.SameEdges h) : Acyclic g.nodes ↔ Acyclic h.nodes := by
  rw [Acyclic, Acyclic, same.waits]

theorem chain_iff (same : g.SameEdges h) (length node : Nat) :
    Chain g.nodes length node ↔ Chain h.nodes length node := by
  induction length generalizing node with
  | zero => rfl
  | succ length ih =>
    have edge : ∀ p, p ∈ prerequisites g.nodes node ↔ p ∈ prerequisites h.nodes node := fun p =>
      Iff.of_eq (congrFun (congrFun same.waits p) node)
    simp only [Chain, edge, ih]

theorem depth (same : g.SameEdges h) (node : Nat) : depth g.nodes node = depth h.nodes node := by
  simp only [Graph.depth, same.chain_iff, same.length]

theorem earlier_iff (same : g.SameEdges h) (a b : Nat) :
    Earlier g.nodes a b ↔ Earlier h.nodes a b := by
  rw [Earlier, Earlier, same.depth, same.depth]

/-- An order of start is sorted by depth and creation, and there is only one such list of all
nodes. -/
theorem order_eq (same : g.SameEdges h) (arena : Arena g.nodes) (arena' : Arena h.nodes)
    {order order' : List Nat} (found : waveOrder g.nodes = .ok order)
    (found' : waveOrder h.nodes = .ok order') : order = order' := by
  have ordering := ordering_of_waveOrder arena found
  have ordering' := ordering_of_waveOrder arena' found'
  have perm : order.Perm order' := by
    rw [List.perm_ext_iff_of_nodup ordering.nodup ordering'.nodup]
    intro node
    rw [ordering.mem_iff, ordering'.mem_iff, same.length]
  have sorted := (earlier_waveOrder arena found).imp fun {a b} => (same.earlier_iff a b).1
  refine perm.eq_of_pairwise (fun a b _ _ before after => ?_) sorted
    (earlier_waveOrder arena' found')
  rw [Earlier] at before after
  omega

theorem circle_eq (same : g.SameEdges h) (arena : Arena g.nodes) (arena' : Arena h.nodes) :
    circle g.nodes = circle h.nodes := by
  have ascending : ∀ nodes, (circle nodes).Pairwise (· < ·) :=
    fun _ => List.pairwise_lt_range.filter _
  refine (ascending _).eq_of_mem_iff (ascending _) fun node => ?_
  rw [mem_circle arena, mem_circle arena', same.waits]

theorem fst_sorted (same : g.SameEdges h) (sound : g.Sound) (sound' : h.Sound) :
    g.sorted.1 = h.sorted.1 := by
  by_cases acyclic : Acyclic g.nodes
  · obtain ⟨order, answer, found⟩ := sound.sorted_of_acyclic acyclic
    obtain ⟨order', answer', found'⟩ := sound'.sorted_of_acyclic (same.acyclic_iff.1 acyclic)
    rw [answer, answer', same.order_eq sound.arena sound'.arena found found']
  · rw [sound.sorted_of_circle acyclic, sound'.sorted_of_circle (mt same.acyclic_iff.2 acyclic),
      same.circle_eq sound.arena sound'.arena, same.unitsAt]

end SameEdges

/-- All edges, each with the node that waits. -/
def edges (graph : Graph) : List (Nat × Dependency) :=
  (List.range graph.nodes.length).flatMap fun node => (graph.dependencies node).map fun d =>
    (node, d)

/-- How a graph is made from nothing: first its nodes, then its edges. -/
def making (graph : Graph) : List Edit :=
  (graph.nodes.map Node.unit).map .place ++ graph.edges.map fun edge => .depend edge.1 edge.2

/-- The graph with the same nodes and edges that was just made, and was never asked for its
order. -/
def remade (graph : Graph) : Graph := graph.making.foldl edit empty

theorem mem_edges {graph : Graph} {node : Nat} {d : Dependency} :
    (node, d) ∈ graph.edges ↔ d ∈ graph.dependencies node := by
  simp only [edges, List.mem_flatMap, List.mem_range, List.mem_map, Prod.mk.injEq]
  constructor
  · rintro ⟨_, -, _, listed, rfl, rfl⟩
    exact listed
  · intro listed
    obtain ⟨_, found, -⟩ := mem_dependencies.1 listed
    exact ⟨node, (List.getElem?_eq_some_iff.1 found).1, d, listed, rfl, rfl⟩

theorem nodes_placed {graph : Graph} {units : List UnitId}
    (distinct : (graph.nodes.map Node.unit ++ units).Nodup) :
    ((units.map Edit.place).foldl edit graph).nodes = graph.nodes ++ units.map Node.isolated := by
  induction units generalizing graph with
  | nil => simp
  | cons unit units ih =>
    have absent : unit ∉ graph.nodes.map Node.unit := fun member =>
      (List.nodup_append.1 distinct).2.2 unit member unit List.mem_cons_self rfl
    have placed : (graph.edit (.place unit)).nodes = graph.nodes ++ [Node.isolated unit] := by
      rw [edit, place, nodeFor?_eq_none.2 absent]
    rw [List.map_cons, List.foldl_cons, ih, placed]
    · simp
    · rw [placed]
      simpa [Node.isolated] using distinct

theorem linked_all {graph : Graph} {edges : List (Nat × Dependency)}
    (inside : ∀ edge ∈ edges, edge.1 < graph.nodes.length ∧ edge.2.node < graph.nodes.length) :
    let grown := (edges.map fun edge => Edit.depend edge.1 edge.2).foldl edit graph
    grown.nodes.map Node.unit = graph.nodes.map Node.unit ∧
      ∀ node d, d ∈ grown.dependencies node ↔ d ∈ graph.dependencies node ∨ (node, d) ∈ edges := by
  induction edges generalizing graph with
  | nil => simp
  | cons edge edges ih =>
    have here := inside edge List.mem_cons_self
    have one : graph.edit (.depend edge.1 edge.2) = graph.addDependency edge.1 edge.2 := if_pos here
    have named : (graph.addDependency edge.1 edge.2).nodes.map Node.unit =
        graph.nodes.map Node.unit :=
      units_linked ..
    have size : (graph.addDependency edge.1 edge.2).nodes.length = graph.nodes.length := by
      simpa using congrArg List.length named
    rw [List.map_cons, List.foldl_cons, one]
    have inside' : ∀ other ∈ edges, other.1 < (graph.addDependency edge.1 edge.2).nodes.length ∧
        other.2.node < (graph.addDependency edge.1 edge.2).nodes.length := fun other member =>
      size ▸ inside other (List.mem_cons_of_mem _ member)
    obtain ⟨units, members⟩ := ih inside'
    refine ⟨units.trans named, fun node d => ?_⟩
    rw [members, dependencies_addDependency edge.2 here.1, List.mem_cons, ← or_assoc]
    refine or_congr_left ?_
    obtain ⟨dependent, dependency⟩ := edge
    split
    · rename_i same
      simp [same]
    · rename_i other
      simp [other]

theorem Sound.sameEdges_remade {graph : Graph} (sound : graph.Sound) :
    graph.remade.SameEdges graph := by
  let bare := ((graph.nodes.map Node.unit).map Edit.place).foldl Graph.edit empty
  have nodes : bare.nodes = (graph.nodes.map Node.unit).map Node.isolated := by
    have distinct : (empty.nodes.map Node.unit ++ graph.nodes.map Node.unit).Nodup := by
      simpa [empty] using sound.arena.units_nodup
    rw [nodes_placed distinct]
    rfl
  have size : bare.nodes.length = graph.nodes.length := by rw [nodes]; simp
  have none : ∀ node, bare.dependencies node = [] := by
    intro node
    rw [dependencies, nodes]
    cases found : graph.nodes[node]? <;> simp [found, Node.isolated]
  have inside : ∀ edge ∈ graph.edges, edge.1 < bare.nodes.length ∧
      edge.2.node < bare.nodes.length :=
    fun edge member => size ▸ sound.arena.inside_of_declared (mem_edges.1 member)
  have made : graph.remade =
      (graph.edges.map fun edge => Edit.depend edge.1 edge.2).foldl Graph.edit bare := by
    rw [remade, making, List.foldl_append]
  obtain ⟨units, members⟩ := linked_all inside
  rw [made]
  refine ⟨units.trans ?_, fun node d => ?_⟩
  · rw [nodes]
    simp [Function.comp_def, Node.isolated]
  · rw [members, none, mem_edges]
    simp

theorem order_edit {graph : Graph} {change : Edit} (edits : change ≠ .sort)
    (unknown : graph.order = none) :
    (graph.edit change).order = none := by
  cases change with
  | place unit =>
    rw [edit, place]
    split
    · exact unknown
    · rfl
  | depend dependent dependency =>
    rw [edit]
    split
    · rfl
    · exact unknown
  | touch => rfl
  | sort => exact absurd rfl edits

theorem order_edits {graph : Graph} {changes : List Edit}
    (edits : ∀ change ∈ changes, change ≠ .sort) (unknown : graph.order = none) :
    (changes.foldl edit graph).order = none := by
  induction changes generalizing graph with
  | nil => exact unknown
  | cons change rest ih =>
    exact ih (fun other member => edits other (List.mem_cons_of_mem _ member))
      (order_edit (edits change List.mem_cons_self) unknown)

theorem order_remade (graph : Graph) : graph.remade.order = none := by
  refine order_edits (fun change member => ?_) rfl
  rw [making, List.mem_append, List.mem_map, List.mem_map] at member
  rcases member with ⟨unit, -, rfl⟩ | ⟨edge, -, rfl⟩ <;> simp

/-- An order that was asked for is remembered, and only a graph that is refused stays stale. -/
theorem stale_sorted (graph : Graph) : graph.sorted.2.stale ↔
    ∃ cycle, graph.sorted.1 = .error cycle := by
  rw [sorted]
  split
  · rename_i known
    simp [stale, known]
  · rename_i unknown
    split <;> simp [stale, unknown]

end Graph

namespace Conductor

/-- Whatever was done to a conductor, a graph that is not stale remembers the order of its nodes; it
answers as every graph does that has the same units and edges, however that one was made, and so as
the one that is just made from them; and a graph that is refused stays stale. -/
theorem remembered_order (history : List Operation) :
    let graph := (fresh.run history).2.graph
    (graph.stale = false → ∃ order, graph.order = some order ∧
      Graph.waveOrder graph.nodes = .ok order) ∧
    (∀ changes : List Edit, (changes.foldl Graph.edit .empty).SameEdges graph →
      graph.sorted.1 = (changes.foldl Graph.edit .empty).sorted.1) ∧
    (graph.remade.SameEdges graph ∧ graph.remade.stale ∧ graph.sorted.1 = graph.remade.sorted.1) ∧
    (graph.sorted.2.stale ↔ ∃ cycle, graph.sorted.1 = .error cycle) := by
  intro graph
  have sound : graph.Sound := Reachable.sound ⟨history, rfl⟩
  have answers : ∀ changes : List Edit, (changes.foldl Graph.edit .empty).SameEdges graph →
      graph.sorted.1 = (changes.foldl Graph.edit .empty).sorted.1 := fun changes same =>
    (same.fst_sorted (Graph.sound_empty.edits changes) sound).symm
  have remade := sound.sameEdges_remade
  refine ⟨fun kept => ?_, answers, ⟨remade, ?_, answers _ remade⟩, graph.stale_sorted⟩
  · rw [Graph.stale, Option.isNone_eq_false_iff, Option.isSome_iff_exists] at kept
    obtain ⟨order, known⟩ := kept
    exact ⟨order, known, sound.cached order known⟩
  · rw [Graph.stale, Graph.order_remade, Option.isNone_none]

/-- Two units wait for the end of one another, where the second edge comes in while the order of the
first one is remembered. With the edges entered the other way round the answer is the same. -/
theorem remembered_order_circle :
    let history : List Operation := [.edit (.place ⟨0, 0⟩), .edit (.place ⟨0, 1⟩),
      .edit (.depend 1 ⟨0, .onEnd⟩), .begin, .edit (.depend 0 ⟨1, .onEnd⟩), .edit .sort]
    let changes : List Edit := [.place ⟨0, 0⟩, .place ⟨0, 1⟩, .depend 0 ⟨1, .onEnd⟩, .sort,
      .depend 1 ⟨0, .onEnd⟩]
    (fresh.run history).2.graph.sorted.1 = (changes.foldl Graph.edit .empty).sorted.1 ∧
      (changes.foldl Graph.edit .empty).sorted.1 = .error ⟨[⟨0, 0⟩, ⟨0, 1⟩]⟩ := by
  intro history changes
  have nodes : (changes.foldl Graph.edit .empty).nodes = (fresh.run history).2.graph.nodes := by
    decide +kernel
  refine ⟨(remembered_order history).2.1 changes ⟨by rw [nodes], fun node d => ?_⟩,
    by decide +kernel⟩
  rw [Graph.mem_dependencies, Graph.mem_dependencies, nodes]

end Conductor

end Choreo
