import Choreo.Proofs.Graph.Edits
import Choreo.Run.Conductor

/-!
# Dependencies that are declared again

A dependency that is declared again is entered at the end of what its node depends on. The node has
the same prerequisites in the same order as before, and the prerequisite knows of the node already.
So the waves find the same counts and the same dependents, and the graph has the same order of
start, or names the same units on cycles.
-/

namespace Choreo

theorem eraseDups_concat_of_mem {places : List Nat} {place : Nat} (h : place ∈ places) :
    (places ++ [place]).eraseDups = places.eraseDups := by
  rw [List.eraseDups_append]
  simp [List.removeAll, h]

namespace Graph

/-- Two graphs that differ in nothing but how often dependencies are declared. -/
structure Echoes (g h : Graph) : Prop where
  units : g.nodes.map Node.unit = h.nodes.map Node.unit
  prerequisites : g.nodes.map Node.prerequisites = h.nodes.map Node.prerequisites
  dependents : g.nodes.map Node.dependents = h.nodes.map Node.dependents
  dependencies : ∀ node d, d ∈ g.dependencies node ↔ d ∈ h.dependencies node

namespace Echoes

variable {g h : Graph}

theorem of_nodes (nodes : g.nodes = h.nodes) : g.Echoes h := by
  refine ⟨by rw [nodes], by rw [nodes], by rw [nodes], fun node d => ?_⟩
  rw [mem_dependencies, mem_dependencies, nodes]

theorem trans {f : Graph} (one : f.Echoes g) (two : g.Echoes h) : f.Echoes h :=
  ⟨one.units.trans two.units, one.prerequisites.trans two.prerequisites,
    one.dependents.trans two.dependents,
    fun node d => (one.dependencies node d).trans (two.dependencies node d)⟩

theorem length (echoes : g.Echoes h) : g.nodes.length = h.nodes.length := by
  simpa using congrArg List.length echoes.units

theorem unit? (echoes : g.Echoes h) (node : Nat) : g.unit? node = h.unit? node := by
  rw [unit?_eq_getElem, unit?_eq_getElem, echoes.units]

theorem unitsAt (echoes : g.Echoes h) (places : List Nat) : g.units places = h.units places :=
  List.filterMap_congr fun node _ => echoes.unit? node

theorem nodeFor? (echoes : g.Echoes h) (unit : UnitId) : g.nodeFor? unit = h.nodeFor? unit :=
  nodeFor?_congr echoes.units unit

theorem waveOrder (echoes : g.Echoes h) : Graph.waveOrder g.nodes = Graph.waveOrder h.nodes := by
  have counts : Graph.counts g.nodes = Graph.counts h.nodes := by
    have same := congrArg (List.map List.length) echoes.prerequisites
    rw [List.map_map, List.map_map] at same
    exact same
  have dependents : Graph.dependents g.nodes = Graph.dependents h.nodes := by
    funext node
    have same := congrArg (·[node]?.getD []) echoes.dependents
    simpa [Graph.dependents] using same
  simp only [Graph.waveOrder, counts, dependents, echoes.length]

theorem cycleMembers (echoes : g.Echoes h) (remainder : List Nat) :
    Graph.cycleMembers g.nodes remainder = Graph.cycleMembers h.nodes remainder := by
  have same : awaited g.nodes = awaited h.nodes := congrArg Reach.ofNext echoes.prerequisites
  rw [Graph.cycleMembers, Graph.cycleMembers, same]

theorem filter_eq_nil_iff (echoes : g.Echoes h) (live : Dependency → Bool) (node : Nat) :
    (g.dependencies node).filter live = [] ↔ (h.dependencies node).filter live = [] := by
  simp only [List.filter_eq_nil_iff, echoes.dependencies]

/-- The same nodes wait for nothing. -/
theorem roots (echoes : g.Echoes h) (order : List Nat) :
    Conductor.roots g.nodes order = Conductor.roots h.nodes order := by
  refine List.filter_congr fun node _ => Bool.eq_iff_iff.2 ?_
  have none := echoes.filter_eq_nil_iff (fun _ => true) node
  have size := echoes.length
  rw [List.filter_true, List.filter_true, Graph.dependencies, Graph.dependencies] at none
  cases hg : g.nodes[node]? <;> cases hh : h.nodes[node]?
  · simp
  · rw [List.getElem?_eq_none_iff] at hg
    have inside := (List.getElem?_eq_some_iff.1 hh).1
    omega
  · rw [List.getElem?_eq_none_iff] at hh
    have inside := (List.getElem?_eq_some_iff.1 hg).1
    omega
  · simpa [hg, hh, Node.isRoot] using none

end Echoes

/-- What a graph answers when it is asked for its order, whether it remembers it or not. -/
theorem Sound.fst_sorted {graph : Graph} (sound : graph.Sound) :
    graph.sorted.1 = match waveOrder graph.nodes with
      | .ok order => .ok order
      | .error remainder => .error ⟨graph.units (cycleMembers graph.nodes remainder)⟩ := by
  rw [Graph.sorted]
  split
  · rename_i known
    rw [sound.cached _ known]
  · cases waveOrder graph.nodes <;> rfl

theorem Echoes.sorted {g h : Graph} (echoes : g.Echoes h) (sound : g.Sound) (sound' : h.Sound) :
    g.sorted.1 = h.sorted.1 := by
  rw [sound.fst_sorted, sound'.fst_sorted, echoes.waveOrder]
  split
  · rfl
  · rw [echoes.cycleMembers, echoes.unitsAt]

section Again

variable {graph : Graph} {dependent : Nat} {d : Dependency}

/-- A dependency that is declared once more. -/
theorem Sound.echoes_addDependency (sound : graph.Sound)
    (declared : d ∈ graph.dependencies dependent) :
    graph.Echoes (graph.addDependency dependent d) := by
  have inside := sound.arena.inside_of_declared declared
  have linked : (graph.addDependency dependent d).nodes = linked graph.nodes dependent d := rfl
  have field : ∀ {α : Type} (f : Node → α), (∀ place node, graph.nodes[place]? = some node →
      f (node.relinked dependent d place) = f node) →
      graph.nodes.map f = (graph.addDependency dependent d).nodes.map f := by
    intro α f same
    apply List.ext_getElem?
    intro place
    rw [linked, List.getElem?_map, List.getElem?_map, getElem?_linked]
    cases found : graph.nodes[place]? with
    | none => rfl
    | some node => simp [same place node found]
  refine ⟨field _ fun place node _ => by simp, field _ fun place node found => ?_,
    field _ fun place node found => ?_, fun node other => ?_⟩
  · rw [Node.prerequisites, Node.dependencies_relinked]
    split
    · rename_i same
      subst same
      have member : d ∈ node.dependencies := by simpa [Graph.dependencies, found] using declared
      rw [List.map_append, List.map_singleton,
        eraseDups_concat_of_mem (List.mem_map_of_mem member), Node.prerequisites]
    · rfl
  · have known : place = d.node → dependent ∈ node.dependents := by
      rintro rfl
      obtain ⟨waiting, there, member⟩ := mem_dependencies.1 declared
      have waits := mem_prerequisites.2 ⟨waiting, there, d, member, rfl⟩
      simpa [Graph.dependents, found] using (sound.arena.mem_dependents d.node dependent).2 waits
    have kept : (if place = dependent then node.addDependency d else node).dependents =
        node.dependents := by
      split <;> rfl
    unfold Node.relinked
    simp only
    split
    · rename_i same
      rw [Node.addDependent, if_pos (kept ▸ known same), kept]
    · exact kept
  · rw [dependencies_addDependency d inside.1]
    split
    · rename_i same
      subst same
      rw [List.mem_append, List.mem_singleton]
      exact ⟨.inl, fun h => h.elim id fun same => same ▸ declared⟩
    · rfl

/-- Dependencies are declared again, one after the other. -/
theorem Sound.echoes_repeats (sound : graph.Sound) {repeats : List (Nat × Dependency)}
    (declared : ∀ edge ∈ repeats, edge.2 ∈ graph.dependencies edge.1) :
    let again := repeats.foldl (fun graph edge => graph.addDependency edge.1 edge.2) graph
    again.Sound ∧ graph.Echoes again := by
  induction repeats generalizing graph with
  | nil => exact ⟨sound, .of_nodes rfl⟩
  | cons edge rest ih =>
    have first := declared edge (List.mem_cons_self ..)
    have echoes := sound.echoes_addDependency first
    have inside := sound.arena.inside_of_declared first
    obtain ⟨sound', more⟩ := ih (sound.addDependency inside.1 inside.2) fun other member =>
      (echoes.dependencies _ _).1 (declared other (List.mem_cons_of_mem _ member))
    exact ⟨sound', echoes.trans more⟩

end Again

end Graph

end Choreo
