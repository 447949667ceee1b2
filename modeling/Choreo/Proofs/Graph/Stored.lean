import Mathlib.Logic.Function.Basic
import Choreo.Proofs.Graph.WaveSort

/-!
# Graphs with an index

Beside its nodes a graph may keep an index, which tells the place of each unit's node and is written
when a node is made, and the order of start that was worked out last, which stays there when the
graph is edited and the order is out of date. Here units are found by the index alone, and the node
at a place is looked up with a check: where there is none, there is no answer. Nevertheless every
edit has one. The index tells what a search through the nodes would find, the order has places of
nodes only, and all that is looked up is there.
-/

namespace Choreo

namespace Graph

/-- The nodes at these places, if there is one at each of them. -/
def look? (nodes : List Node) (places : List Nat) : Option (List Node) :=
  places.mapM fun place => nodes[place]?

/-- The order of start, where each node that has its turn is asked who waits for it. -/
def waveOrder? (nodes : List Node) : Option (Except (List Nat) (List Nat)) := do
  let result ← turns? (dependents nodes) (counts nodes)
  let _ ← look? nodes result.1
  return if result.1.length = nodes.length then .ok result.1 else .error result.2

/-- The nodes that are reported, where each node of the remainder is asked for what it waits. -/
def cycleMembers? (nodes : List Node) (remainder : List Nat) : Option (List Nat) := do
  let _ ← look? nodes remainder
  return cycleMembers nodes remainder

variable {nodes : List Node}

theorem look?_eq {places : List Nat} (inside : ∀ place ∈ places, place < nodes.length) :
    look? nodes places = some (places.filterMap fun place => nodes[place]?) := by
  induction places with
  | nil => rfl
  | cons place places ih =>
    obtain ⟨here, rest⟩ := List.forall_mem_cons.1 inside
    have found := ih rest
    rw [look?] at found ⊢
    rw [List.mapM_cons, found, List.getElem?_eq_getElem here,
      List.filterMap_cons_some (List.getElem?_eq_getElem here)]
    rfl

theorem look?_units {graph : Graph} {places : List Nat}
    (inside : ∀ place ∈ places, place < graph.nodes.length) :
    (look? graph.nodes places).map (List.map Node.unit) = some (graph.units places) := by
  rw [look?_eq inside, Option.map_some, List.map_filterMap]
  rfl

theorem waveOrder?_eq (arena : Arena nodes) : waveOrder? nodes = some (waveOrder nodes) := by
  have turned := turns_counts arena
  rw [waveOrder?, turns?_eq arena, Option.bind_eq_bind, Option.bind_some, look?_eq turned.inside]
  rfl

theorem inside_of_remainder (arena : Arena nodes) {remainder : List Nat}
    (h : waveOrder nodes = .error remainder) {node : Nat} (member : node ∈ remainder) :
    node < nodes.length := by
  rw [← remainder_of_waveOrder h] at member
  exact ((mem_remainder arena).1 member).1

theorem cycleMembers_subset (nodes : List Node) (remainder : List Nat) :
    cycleMembers nodes remainder ⊆ remainder := by
  simp only [cycleMembers]
  split
  · exact List.Subset.refl _
  · exact fun node member => List.mem_of_mem_filter member

theorem cycleMembers?_eq (arena : Arena nodes) {remainder : List Nat}
    (h : waveOrder nodes = .error remainder) :
    cycleMembers? nodes remainder = some (cycleMembers nodes remainder) := by
  rw [cycleMembers?, look?_eq fun node => inside_of_remainder arena h]
  rfl

end Graph

/-- A graph with the places of its units and the order of start that was worked out last. -/
structure Stored where
  graph : Graph
  index : UnitId → Option Nat
  last : List Nat

namespace Stored

def empty : Stored := ⟨.empty, fun _ => none, []⟩

/-- The place of a unit's node by the index. A node that has to be made is entered there. -/
def place (unit : UnitId) (stored : Stored) : Nat × Stored :=
  match stored.index unit with
  | some node => (node, stored)
  | none =>
    let node := stored.graph.nodes.length
    (node, { stored with
      graph := ⟨stored.graph.nodes ++ [Node.isolated unit], none⟩
      index := Function.update stored.index unit (some node) })

/-- Lets a node wait for one thing more, where both nodes are looked up. -/
def depend? (dependent : Nat) (dependency : Dependency) (stored : Stored) : Option Stored := do
  let _ ← Graph.look? stored.graph.nodes [dependent, dependency.node]
  return { stored with graph := stored.graph.addDependency dependent dependency }

/-- The order of start, which is worked out if the last one is out of date. -/
def sort? (stored : Stored) : Option (Except Cycle (List Nat) × Stored) :=
  if stored.graph.stale then do
    match ← Graph.waveOrder? stored.graph.nodes with
    | .ok order =>
      return (.ok order,
        { stored with graph := { stored.graph with order := some order }, last := order })
    | .error remainder =>
      let members ← Graph.cycleMembers? stored.graph.nodes remainder
      let found ← Graph.look? stored.graph.nodes members
      return (.error ⟨found.map Node.unit⟩, { stored with last := [] })
  else some (.ok stored.last, stored)

/-- The graph after a change. Places that it did not give out are left alone. -/
def edit? (change : Edit) (stored : Stored) : Option Stored :=
  match change with
  | .place unit => some (stored.place unit).2
  | .depend dependent dependency =>
    if dependent < stored.graph.nodes.length ∧ dependency.node < stored.graph.nodes.length then
      stored.depend? dependent dependency
    else some stored
  | .touch => some { stored with graph := stored.graph.touch }
  | .sort => stored.sort?.map Prod.snd

/-- The index tells where the nodes are, and the order is remembered unless it is out of date. -/
structure Sound (stored : Stored) : Prop where
  graph : stored.graph.Sound
  index : ∀ unit, stored.index unit = stored.graph.nodeFor? unit
  current : ∀ order, stored.graph.order = some order → stored.last = order
  inside : ∀ node ∈ stored.last, node < stored.graph.nodes.length

theorem sound_empty : empty.Sound :=
  ⟨Graph.sound_empty, fun _ => rfl, by simp [empty, Graph.empty], by simp [empty]⟩

variable {stored : Stored}

theorem Sound.index_eq_some (sound : stored.Sound) {unit : UnitId} {node : Nat} :
    stored.index unit = some node ↔ stored.graph.unit? node = some unit := by
  rw [sound.index, Graph.nodeFor?_eq_some sound.graph.arena]

theorem Sound.place (sound : stored.Sound) (unit : UnitId) :
    (stored.place unit).1 = (stored.graph.place unit).1 ∧
      (stored.place unit).2.graph = (stored.graph.place unit).2 ∧ (stored.place unit).2.Sound ∧
      (stored.place unit).2.index unit = some (stored.place unit).1 := by
  have grown := sound.graph.place unit
  rw [Stored.place, sound.index unit]
  rw [Graph.place] at grown ⊢
  cases found : stored.graph.nodeFor? unit with
  | some node => exact ⟨rfl, rfl, sound, (sound.index unit).trans found⟩
  | none =>
    rw [found] at grown
    refine ⟨rfl, rfl, ⟨grown, fun other => ?_, by simp, fun node member => ?_⟩,
      Function.update_self ..⟩
    · dsimp only
      rw [Graph.nodeFor?, List.findIdx?_append]
      by_cases same : other = unit
      · subst same
        rw [Graph.nodeFor?] at found
        simp [found, Node.isolated]
      · rw [Function.update_of_ne same, sound.index, Graph.nodeFor?]
        simp [Node.isolated, Ne.symm same]
    · have before := sound.inside node member
      simp only [List.length_append]
      omega

theorem Sound.sort (sound : stored.Sound) : ∃ last,
    let sorted : Stored := { stored with graph := stored.graph.sorted.2, last }
    stored.sort? = some (stored.graph.sorted.1, sorted) ∧ sorted.Sound := by
  have arena := sound.graph.arena
  have grown := sound.graph.sorted
  have same : ∀ unit, stored.index unit = stored.graph.sorted.2.nodeFor? unit := fun unit =>
    (sound.index unit).trans (Graph.nodeFor?_congr (by rw [Graph.nodes_sorted]) unit)
  rw [sort?, Graph.stale]
  cases known : stored.graph.order with
  | some order =>
    have answer : stored.graph.sorted = (.ok order, stored.graph) := by rw [Graph.sorted, known]
    refine ⟨stored.last, ?_, grown, same, ?_, ?_⟩
    · rw [answer]
      exact congrArg (fun last => some (Except.ok last, stored)) (sound.current order known)
    · rw [answer]
      exact sound.current
    · rw [answer]
      exact sound.inside
  | none =>
    cases found : Graph.waveOrder stored.graph.nodes with
    | ok order =>
      have answer : stored.graph.sorted =
          (.ok order, { stored.graph with order := some order }) := by
        rw [Graph.sorted, known, found]
      have ordering := Graph.ordering_of_waveOrder arena found
      refine ⟨order, ?_, grown, same, ?_, ?_⟩
      · simp only [Option.isNone_none, ↓reduceIte, Graph.waveOrder?_eq arena, found, answer]
        rfl
      · rw [answer]
        exact fun other => Option.some.inj
      · rw [answer]
        exact fun node => (ordering.mem_iff node).1
    | error remainder =>
      have members : ∀ node ∈ Graph.cycleMembers stored.graph.nodes remainder,
          node < stored.graph.nodes.length :=
        fun node member =>
          Graph.inside_of_remainder arena found (Graph.cycleMembers_subset _ _ member)
      have answer : stored.graph.sorted =
          (.error ⟨stored.graph.units (Graph.cycleMembers stored.graph.nodes remainder)⟩,
            stored.graph) := by
        rw [Graph.sorted, known, found]
      have units := Graph.look?_units members
      obtain ⟨named, looked, same'⟩ := Option.map_eq_some_iff.1 units
      refine ⟨[], ?_, grown, same, ?_, by simp⟩
      · simp only [Option.isNone_none, ↓reduceIte, Graph.waveOrder?_eq arena,
          found, Graph.cycleMembers?_eq arena found, looked, same', answer, Option.bind_eq_bind,
          Option.bind_some]
        rfl
      · rw [answer, known]
        simp

theorem Sound.edit (sound : stored.Sound) (change : Edit) : ∃ grown : Stored,
    stored.edit? change = some grown ∧ grown.graph = stored.graph.edit change ∧ grown.Sound := by
  cases change with
  | place unit =>
    obtain ⟨-, same, kept, -⟩ := sound.place unit
    exact ⟨_, rfl, same, kept⟩
  | depend dependent dependency =>
    rw [edit?, Graph.edit]
    split
    · next inside =>
      have looked : ∀ node ∈ [dependent, dependency.node], node < stored.graph.nodes.length := by
        simpa using inside
      have linked : (stored.graph.addDependency dependent dependency).nodes.map Node.unit =
          stored.graph.nodes.map Node.unit := Graph.units_linked ..
      refine ⟨_, by rw [depend?, Graph.look?_eq looked]; rfl, rfl, sound.graph.addDependency
        inside.1 inside.2, fun unit => ?_, by simp [Graph.addDependency], ?_⟩
      · exact (sound.index unit).trans (Graph.nodeFor?_congr linked.symm unit)
      · have size : (stored.graph.addDependency dependent dependency).nodes.length =
            stored.graph.nodes.length := by
          simpa using congrArg List.length linked
        rw [size]
        exact sound.inside
    · exact ⟨stored, rfl, rfl, sound⟩
  | touch => exact ⟨_, rfl, rfl, sound.graph.touch, sound.index, by simp, sound.inside⟩
  | sort =>
    obtain ⟨last, answer, kept⟩ := sound.sort
    exact ⟨_, by rw [edit?, answer]; rfl, rfl, kept⟩

end Stored

end Choreo
