import Choreo.Digraph

/-!
# Which cycle is found

Of several cycles in a graph one is found first by a depth-first search. The search takes the
vertices in their order, and from each it looks at the successors, the last of them first; a vertex
that is its own successor ends the search there. A vertex is finished when all that can be reached
from it has been looked at. In the reverse order of finishing an edge that leads back shows a cycle:
the first vertex that is reached by such edges decides, and of these the one drawn last.
-/

namespace Choreo

namespace Digraph

/-- Goes on with a search: the vertices not seen yet, those still to look at, and the finished ones,
last first. A vertex that is its own successor ends the search. -/
def explore (graph : Digraph) (unseen stack finished : List Nat) : Except Nat (List Nat) :=
  match stack with
  | [] => .ok finished
  | v :: rest =>
    if _h : v ∈ unseen then
      if v ∈ graph.successors v then .error v
      else
        let left := unseen.erase v
        explore graph left (((graph.successors v).filter (· ∈ left)).reverse ++ stack) finished
    else explore graph unseen rest (if v ∈ finished then finished else v :: finished)
termination_by (unseen.length, stack.length)
decreasing_by
  · refine .left _ _ ?_
    have size := List.length_erase_of_mem _h
    have pos := List.length_pos_of_mem _h
    omega
  · exact .right _ (Nat.lt_succ_self _)

/-- The source of an edge that leads back in this order, those before it being `earlier`. -/
def backward? (graph : Digraph) (earlier : List Nat) : List Nat → Option Nat
  | [] => none
  | v :: rest =>
    match ((graph.predecessors v).filter (· ∉ v :: earlier)).getLast? with
    | some u => some u
    | none => backward? graph (v :: earlier) rest

def searched? (graph : Digraph) : Option Nat :=
  match graph.explore graph.vertices graph.vertices [] with
  | .error v => some v
  | .ok order => graph.backward? [] order

/-- The vertices of the cycle that is found, with all that lie on cycles with them; nothing if there
is no cycle. -/
def foundCycle? (graph : Digraph) : Option (List Nat) :=
  graph.searched?.map (graph.component graph.reach)

end Digraph

end Choreo
