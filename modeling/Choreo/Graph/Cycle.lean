import Choreo.Graph.Order
import Choreo.Graph.Reach

/-!
# Cycles

A graph whose nodes wait for one another in a circle has no order of start. The nodes that remain
then include everything downstream of a circle; what is reported are those that lie on one.
-/

namespace Choreo

structure Cycle where
  units : List UnitId
  deriving DecidableEq

namespace Graph

def awaited (nodes : List Node) : Reach := .ofNext (nodes.map Node.prerequisites)

/-- The nodes of the remainder that lie on a cycle, or all of it if none does. -/
def cycleMembers (nodes : List Node) (remainder : List Nat) : List Nat :=
  let members := remainder.filter (awaited nodes).onCycle
  if members.isEmpty then remainder else members

/-- The order of start, worked out if it is not known, and the graph that remembers it. -/
def sorted (graph : Graph) : Except Cycle (List Nat) × Graph :=
  match graph.order with
  | some order => (.ok order, graph)
  | none =>
    match waveOrder graph.nodes with
    | .ok order => (.ok order, { graph with order := some order })
    | .error remainder => (.error ⟨graph.units (cycleMembers graph.nodes remainder)⟩, graph)

end Graph

end Choreo
