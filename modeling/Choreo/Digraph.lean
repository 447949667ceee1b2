import Choreo.Graph.Reach

/-!
# Directed graphs

The vertices are the numbers below the size; the edges are pairs of them in the order in which they
were drawn. An edge that was drawn more than once counts where it was drawn first.
-/

namespace Choreo

structure Digraph where
  size : Nat
  edges : List (Nat × Nat)

namespace Digraph

def vertices (graph : Digraph) : List Nat := List.range graph.size

/-- Where the edges from a vertex lead, each once, in the order of the edges. -/
def successors (graph : Digraph) (v : Nat) : List Nat :=
  ((graph.edges.filter fun edge => edge.1 == v).map Prod.snd).eraseDups

def predecessors (graph : Digraph) (v : Nat) : List Nat :=
  ((graph.edges.filter fun edge => edge.2 == v).map Prod.fst).eraseDups

def reach (graph : Digraph) : Reach := .ofNext (graph.vertices.map graph.successors)

/-- The vertices from which `v` can be reached and that can be reached from `v`, in their order. -/
def component (graph : Digraph) (reach : Reach) (v : Nat) : List Nat :=
  graph.vertices.filter fun u => reach.leads u v && reach.leads v u

end Digraph

end Choreo
