import Choreo.Graph
import Choreo.Graph.Wave

/-!
# The order of start

Nodes start in waves. The first wave is the nodes without prerequisites; each further wave is the
nodes whose last prerequisite was in the wave before. Inside a wave the order of creation decides.
If some nodes never get their turn there is no order, and these nodes are what remains.
-/

namespace Choreo

namespace Graph

def dependents (nodes : List Node) (node : Nat) : List Nat :=
  (nodes[node]?.map Node.dependents).getD []

def counts (nodes : List Node) : List Nat := nodes.map fun node => node.prerequisites.length

/-- The order of start, or the nodes that remain without a turn. -/
def waveOrder (nodes : List Node) : Except (List Nat) (List Nat) :=
  let result := turns (dependents nodes) (counts nodes)
  if result.1.length = nodes.length then .ok result.1 else .error result.2

end Graph

end Choreo
