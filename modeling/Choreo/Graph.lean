import Choreo.Lifecycle

/-!
# Dependency graphs

A graph has one node for each unit that takes part in a run, in the order in which the units came
in; a node keeps its place for good. A node lists what it depends on, as declared and with
repetitions, and which nodes depend on it, each once. The graph remembers the order in which its
nodes start, from the time when that order was worked out until the graph is edited.
-/

namespace Choreo

/-- What a node waits for: a prerequisite node, and its start or its end. -/
structure Dependency where
  node : Nat
  rule : Rule
  deriving DecidableEq

/-- One unit of a graph with the edges that meet in it. -/
structure Node where
  unit : UnitId
  dependencies : List Dependency
  dependents : List Nat
  deriving DecidableEq

namespace Node

def isolated (unit : UnitId) : Node := ⟨unit, [], []⟩

/-- The nodes that this one waits for, each once, in the order of their first mention. -/
def prerequisites (node : Node) : List Nat := (node.dependencies.map Dependency.node).eraseDups

def isRoot (node : Node) : Bool := node.dependencies.isEmpty

def addDependency (dependency : Dependency) (node : Node) : Node :=
  { node with dependencies := node.dependencies ++ [dependency] }

/-- The node with one more dependent, unless it has it already. -/
def addDependent (dependent : Nat) (node : Node) : Node :=
  if dependent ∈ node.dependents then node
  else { node with dependents := node.dependents ++ [dependent] }

end Node

/-- The nodes in order of creation, and their order of start if it is known. -/
structure Graph where
  nodes : List Node
  order : Option (List Nat)

namespace Graph

def empty : Graph := ⟨[], none⟩

instance : Inhabited Graph := ⟨empty⟩

def stale (graph : Graph) : Bool := graph.order.isNone

def touch (graph : Graph) : Graph := { graph with order := none }

def nodeFor? (graph : Graph) (unit : UnitId) : Option Nat :=
  graph.nodes.findIdx? fun node => node.unit == unit

/-- The place of a unit's node, which is made at the end if there is none yet. -/
def place (unit : UnitId) (graph : Graph) : Nat × Graph :=
  match graph.nodeFor? unit with
  | some node => (node, graph)
  | none => (graph.nodes.length, ⟨graph.nodes ++ [Node.isolated unit], none⟩)

def addDependency (dependent : Nat) (dependency : Dependency) (graph : Graph) : Graph :=
  ⟨(graph.nodes.modify dependent (Node.addDependency dependency)).modify dependency.node
    (Node.addDependent dependent), none⟩

def unit? (graph : Graph) (node : Nat) : Option UnitId := graph.nodes[node]?.map Node.unit

def dependencies (graph : Graph) (node : Nat) : List Dependency :=
  (graph.nodes[node]?.map Node.dependencies).getD []

def units (graph : Graph) (places : List Nat) : List UnitId := places.filterMap graph.unit?

@[simp] theorem nodes_touch (graph : Graph) : graph.touch.nodes = graph.nodes := rfl

@[simp] theorem order_touch (graph : Graph) : graph.touch.order = none := rfl

end Graph

end Choreo
