import Choreo.Proofs.Graph.Edits
import Choreo.Sequence

/-!
# Building a sequence

As long as a sequence is only built, its nodes are its units in the order in which they came in, and
what its nodes wait for is what was asked for link by link.
-/

namespace Choreo

variable {U : Type}

/-- A sequence that was built of these units and links, each link a node and what it waits for. -/
structure Wired (units : List U) (links : List (Nat × Dependency))
    (sequence : Sequence U) : Prop where
  fresh : sequence.conductor = { Conductor.fresh with graph := sequence.graph }
  sound : sequence.graph.Sound
  owner : sequence.registry.owner = 0
  slots : sequence.registry.slots.toList.map Slot.unit = units
  nodes : sequence.graph.nodes.map Node.unit = (List.range units.length).map (UnitId.mk 0)
  links : ∀ node d, d ∈ sequence.graph.dependencies node ↔ (node, d) ∈ links
  queue : sequence.queue = []

namespace Wired

variable {units : List U} {links : List (Nat × Dependency)} {sequence : Sequence U}

theorem empty : Wired ([] : List U) [] (.empty 0) := by
  refine ⟨rfl, Graph.sound_empty, rfl, rfl, rfl, fun node d => ?_, rfl⟩
  simp [Sequence.graph, Sequence.empty, Conductor.fresh, Graph.empty, Graph.dependencies]

theorem congr {others : List (Nat × Dependency)} (wired : Wired units links sequence)
    (same : ∀ link, link ∈ links ↔ link ∈ others) : Wired units others sequence :=
  ⟨wired.fresh, wired.sound, wired.owner, wired.slots, wired.nodes,
    fun node d => (wired.links node d).trans (same _), wired.queue⟩

theorem size (wired : Wired units links sequence) :
    sequence.registry.slots.size = units.length := by
  rw [← wired.slots]
  simp

theorem length (wired : Wired units links sequence) :
    sequence.graph.nodes.length = units.length := by
  have same := congrArg List.length wired.nodes
  simpa using same

theorem get? (wired : Wired units links sequence) (node : Nat) :
    sequence.registry.get? ⟨0, node⟩ = units[node]? := by
  rw [Registry.get?, Registry.slot?, if_pos wired.owner.symm, ← wired.slots, List.getElem?_map,
    Array.getElem?_toList]

theorem unit? (wired : Wired units links sequence) {node : Nat} (inside : node < units.length) :
    sequence.graph.unit? node = some ⟨0, node⟩ := by
  rw [Graph.unit?_eq_getElem, wired.nodes]
  simp [inside]

theorem withGraph (wired : Wired units links sequence) {graph : Graph} (sound : graph.Sound)
    (nodes : graph.nodes.map Node.unit = sequence.graph.nodes.map Node.unit)
    {others : List (Nat × Dependency)}
    (now : ∀ node d, d ∈ graph.dependencies node ↔ (node, d) ∈ others) :
    Wired units others (sequence.withGraph graph) := by
  refine ⟨?_, sound, wired.owner, wired.slots, nodes.trans wired.nodes, now, wired.queue⟩
  simp only [Sequence.withGraph, Sequence.graph]
  rw [wired.fresh]

theorem touch (wired : Wired units links sequence) :
    Wired units links (sequence.withGraph sequence.graph.touch) :=
  wired.withGraph wired.sound.touch rfl wired.links

theorem resolve (wired : Wired units links sequence) {node : Nat} (inside : node < units.length) :
    sequence.resolve ⟨0, node⟩ = some (node, sequence) := by
  have known : sequence.registry.contains ⟨0, node⟩ = true := by
    simp [Registry.contains, Registry.slot?, wired.owner, wired.size, inside]
  have found := (Graph.nodeFor?_eq_some wired.sound.arena).2 (wired.unit? inside)
  rw [Sequence.resolve, if_pos known]
  simp only [Graph.place, found]
  rfl

theorem play (wired : Wired units links sequence) {node : Nat} (inside : node < units.length) :
    sequence.play (some ⟨0, node⟩) =
      (⟨some node, none⟩, sequence.withGraph sequence.graph.touch) := by
  simp only [Sequence.play, Option.bind_some, wired.resolve inside]

theorem require (wired : Wired units links sequence) {dependent : Nat} {d : Dependency}
    (hd : dependent < units.length) (hp : d.node < units.length) :
    Wired units (links ++ [(dependent, d)]) (sequence.require dependent d) := by
  rw [← wired.length] at hd hp
  refine wired.withGraph (wired.sound.addDependency hd hp)
    (Graph.units_linked sequence.graph.nodes dependent d) fun node other => ?_
  rw [Graph.dependencies_addDependency d hd, List.mem_append, ← wired.links, List.mem_singleton,
    Prod.mk.injEq]
  by_cases here : node = dependent <;> simp [here]

theorem enter (wired : Wired units links sequence) (slot : Slot U) :
    (sequence.graph.place ⟨0, units.length⟩).1 = units.length ∧
      Wired (units ++ [slot.unit]) links
        ({ sequence with registry := { sequence.registry with
            slots := sequence.registry.slots.push slot } }.withGraph
          (sequence.graph.place ⟨0, units.length⟩).2) := by
  have absent : sequence.graph.nodeFor? ⟨0, units.length⟩ = none := by
    rw [Graph.nodeFor?_eq_none, wired.nodes]
    simp
  have placed : sequence.graph.place ⟨0, units.length⟩ = (units.length,
      ⟨sequence.graph.nodes ++ [Node.isolated ⟨0, units.length⟩], none⟩) := by
    simp only [Graph.place, absent, wired.length]
  have sound := wired.sound.place ⟨0, units.length⟩
  rw [placed] at sound ⊢
  refine ⟨rfl, ?_, sound, wired.owner, ?_, ?_, fun node d => ?_, wired.queue⟩
  · simp only [Sequence.withGraph, Sequence.graph]
    rw [wired.fresh]
  · simp [Sequence.withGraph, wired.slots]
  · simp only [Sequence.withGraph, Sequence.graph, List.map_append, List.length_append,
      List.length_singleton, List.range_succ]
    rw [← wired.nodes]
    rfl
  · rw [← wired.links]
    simp only [Sequence.withGraph, Sequence.graph, Graph.dependencies, List.getElem?_append]
    split
    · rfl
    · rename_i outside
      rw [List.getElem?_eq_none (Nat.le_of_not_lt outside)]
      cases node - sequence.conductor.graph.nodes.length with
      | zero => rfl
      | succ beyond => rfl

end Wired

/-- What a link between units of the sequence asks for, the anchor being at this node. -/
inductive Link.Asks (anchor : Nat) : Link → Nat × Dependency → Prop where
  | together (other : Nat) : Asks anchor (.together ⟨0, other⟩) (other, ⟨anchor, .onStart⟩)
  | before (other : Nat) : Asks anchor (.before ⟨0, other⟩) (other, ⟨anchor, .onEnd⟩)
  | after (other : Nat) : Asks anchor (.after ⟨0, other⟩) (anchor, ⟨other, .onEnd⟩)

namespace Wired

variable {units : List U} {links : List (Nat × Dependency)} {sequence : Sequence U}
  {timer : Span → U} {anchor : Nat}

/-- A link is between nodes that are there. -/
def Inside (units : List U) (edge : Nat × Dependency) : Prop :=
  edge.1 < units.length ∧ edge.2.node < units.length

theorem relate (wired : Wired units links sequence) {link : Link} {edge : Nat × Dependency}
    (asks : link.Asks anchor edge) (inside : Inside units edge) (delay : Option UnitId) :
    ∃ next, Sequence.relate timer link ⟨some anchor, delay⟩ sequence =
      (⟨some anchor, delay⟩, next) ∧
      Wired units (links ++ [edge]) next := by
  refine ⟨sequence.require edge.1 edge.2, ?_, wired.require inside.1 inside.2⟩
  cases asks with
  | together other => simp only [Sequence.relate, wired.resolve inside.1]
  | before other => simp only [Sequence.relate, wired.resolve inside.1]
  | after other => simp only [Sequence.relate, wired.resolve inside.2]

theorem relateAll (wired : Wired units links sequence) {asked : List Link}
    {edges : List (Nat × Dependency)} (asks : List.Forall₂ (Link.Asks anchor) asked edges)
    (inside : ∀ edge ∈ edges, Inside units edge) (delay : Option UnitId) :
    Wired units (links ++ edges)
      (Sequence.relateAll timer asked ⟨some anchor, delay⟩ sequence).2 := by
  induction asks generalizing links sequence with
  | nil => simpa [Sequence.relateAll] using wired
  | @cons link edge asked edges first _ ih =>
    obtain ⟨next, related, wired⟩ : ∃ next,
        Sequence.relate timer link ⟨some anchor, delay⟩ sequence = (⟨some anchor, delay⟩, next) ∧
          Wired units (links ++ [edge]) next :=
      wired.relate first (inside edge (List.mem_cons_self ..)) delay
    have rest := ih wired fun other member => inside other (List.mem_cons_of_mem _ member)
    rw [List.append_assoc, List.singleton_append] at rest
    simpa only [Sequence.relateAll, List.foldl_cons, related] using rest

/-- Playing a unit in relation to others adds the links that are asked for. -/
theorem playWith (wired : Wired units links sequence) {asked : List Link}
    {edges : List (Nat × Dependency)} (here : anchor < units.length)
    (asks : List.Forall₂ (Link.Asks anchor) asked edges)
    (inside : ∀ edge ∈ edges, Inside units edge) :
    Wired units (links ++ edges) (sequence.playWith timer (some ⟨0, anchor⟩) asked) := by
  simp only [Sequence.playWith, wired.play here]
  exact wired.touch.relateAll asks inside _

theorem add (wired : Wired units links sequence) (label : Option String) (unit : U) :
    let added := sequence.add label unit
    added.1 = ⟨0, units.length⟩ ∧
      Wired (units ++ [unit]) links (added.2.play (some added.1)).2 := by
  have next : sequence.registry.nextId = ⟨0, units.length⟩ := by
    rw [Registry.nextId, wired.owner, wired.size]
  have known : (sequence.registry.insert label unit).2.contains ⟨0, units.length⟩ = true := by
    simp [Registry.insert, Registry.contains, Registry.slot?, wired.owner, ← wired.size]
  obtain ⟨place, entered⟩ := wired.enter ⟨label.getD sequence.registry.nextId.shown, false, unit⟩
  have named : (sequence.registry.insert label unit).1 = ⟨0, units.length⟩ := next
  refine ⟨next, ?_⟩
  simp only [Sequence.add, Sequence.play, named, Option.bind_some, Sequence.resolve, if_pos known]
  exact entered.touch

/-- A delay is a new unit that comes last, and the anchor waits for its end. -/
theorem playAfterDelay (wired : Wired units links sequence) (here : anchor < units.length)
    (delay : Span) : Wired (units ++ [timer delay]) (links ++ [(anchor, ⟨units.length, .onEnd⟩)])
      (sequence.playWith timer (some ⟨0, anchor⟩) [.afterDelay delay]) := by
  have next : ∀ label unit,
      ((sequence.withGraph sequence.graph.touch).registry.insertSynthetic label
        unit).1 = ⟨0, units.length⟩ := by
    intro label unit
    rw [Registry.insertSynthetic, Registry.nextId, wired.touch.owner, wired.touch.size]
  obtain ⟨place, entered⟩ :=
    wired.touch.enter ⟨"delay(" ++ delay.detail ++ ")", true, timer delay⟩
  have hd : anchor < (units ++ [timer delay]).length := by
    rw [List.length_append]
    omega
  have hp : units.length < (units ++ [timer delay]).length := by simp
  simp only [Sequence.playWith, wired.play here, Sequence.relateAll, List.foldl_cons,
    List.foldl_nil, Sequence.relate, next, place]
  exact entered.require (d := ⟨units.length, .onEnd⟩) hd hp

end Wired

end Choreo
