import Mathlib.Data.Fintype.Basic
import Mathlib.Order.WellFounded
import Mathlib.Order.Preorder.Finite
import Choreo.Proofs.Graph.Closure
import Choreo.Proofs.Graph.Edits

/-!
# Graphs with a cycle

A node that waits for itself by way of others never has its turn, so a graph has an order of start
if and only if there is no such node. When there is none, what remains are the nodes that never have
their turn, and what is reported are exactly those that wait for themselves.
-/

namespace Choreo

namespace Graph

/-- One node waits for another one. -/
def Waits (nodes : List Node) (p node : Nat) : Prop := p ∈ prerequisites nodes node

theorem waits_iff {graph : Graph} {p node : Nat} :
    Waits graph.nodes p node ↔ ∃ d ∈ graph.dependencies node, d.node = p := by
  rw [Waits, mem_prerequisites, dependencies]
  cases graph.nodes[node]? <;> simp

/-- No node waits for itself, at once or by way of others. -/
def Acyclic (nodes : List Node) : Prop := ∀ node, ¬ Relation.TransGen (Waits nodes) node node

variable {nodes : List Node}

/-- At the end of the waves the counts are those of prerequisites that never had their turn. -/
theorem counts_waves (arena : Arena nodes) {past wave counts : List Nat}
    (stage : Stage nodes past wave) (h : counts = countsAfter nodes past) :
    (waves (dependents nodes) wave counts).2 =
      countsAfter nodes (past ++ (waves (dependents nodes) wave counts).1) := by
  induction wave, counts using waves.induct (dependents nodes) generalizing past with
  | case1 wave counts turn =>
    rename_i last
    subst h
    rw [waves, dif_pos last]
    exact countsAfter_wave arena stage
  | case2 wave counts turn more =>
    rename_i ih
    subst h
    rw [waves, dif_neg more]
    have next := stage_next arena stage (List.mergeSort_perm turn.2 fun a b => decide (a ≤ b))
    have rest := ih next (countsAfter_wave arena stage)
    rw [List.append_assoc] at rest
    exact rest

theorem mem_remainder (arena : Arena nodes) {node : Nat} :
    node ∈ (turns (dependents nodes) (counts nodes)).2 ↔
      node < nodes.length ∧ node ∉ (turns (dependents nodes) (counts nodes)).1 := by
  have turned := turns_counts arena
  have left : (turns (dependents nodes) (counts nodes)).2 = placesWhere (0 < ·)
      (countsAfter nodes (turns (dependents nodes) (counts nodes)).1) := by
    have ends := counts_waves arena (stage_first nodes) (counts_eq nodes)
    rw [List.nil_append] at ends
    exact congrArg (placesWhere (0 < ·)) ends
  generalize (turns (dependents nodes) (counts nodes)).1 = order at left turned ⊢
  rw [left, placesWhere, List.mem_filter, List.mem_range, getElem?_countsAfter, countsAfter,
    List.length_map, List.length_range]
  refine and_congr_right fun inside => ?_
  rw [if_pos inside, Option.getD_some, decide_eq_true_eq, List.countP_pos_iff]
  constructor
  · rintro ⟨p, waits, late⟩ member
    rcases turned.after node member p waits with before | ⟨before, -⟩
    · cases before
    · exact absurd before (by simpa using late)
  · intro absent
    by_contra all
    refine absent ((turned.complete node inside fun p waits => .inr ?_).resolve_left (by simp))
    by_contra late
    exact all ⟨p, waits, by simpa using late⟩

/-- What is reached along the prerequisites of a node that has its turn has an earlier one. -/
theorem idxOf_lt_of_waits {order : List Nat} (turned : Turns nodes [] order) {p node : Nat}
    (waits : Relation.TransGen (Waits nodes) p node) (member : node ∈ order) :
    p ∈ order ∧ order.idxOf p < order.idxOf node := by
  induction waits using Relation.TransGen.head_induction_on with
  | single step => exact (turned.after node member _ step).resolve_left (by simp)
  | head step _ ih =>
    obtain ⟨listed, earlier⟩ := ih
    obtain ⟨before, less⟩ := (turned.after _ listed _ step).resolve_left (by simp)
    exact ⟨before, less.trans earlier⟩

theorem not_mem_turns_of_cycle (arena : Arena nodes) {node : Nat}
    (cycle : Relation.TransGen (Waits nodes) node node) :
    node ∉ (turns (dependents nodes) (counts nodes)).1 := fun member =>
  absurd (idxOf_lt_of_waits (turns_counts arena) cycle member).2 (Nat.lt_irrefl _)

theorem lt_length_of_cycle (arena : Arena nodes) {node : Nat}
    (cycle : Relation.TransGen (Waits nodes) node node) : node < nodes.length := by
  obtain ⟨_, -, last⟩ := Relation.TransGen.tail'_iff.1 cycle
  exact (arena.lt_of_prerequisite last).2

theorem Acyclic.wellFounded (arena : Arena nodes) (acyclic : Acyclic nodes) :
    WellFounded (Waits nodes) := by
  have inner : WellFounded fun p node : Fin nodes.length =>
      Relation.TransGen (Waits nodes) p node :=
    @Finite.wellFounded_of_trans_of_irrefl _ _ _ ⟨fun _ _ _ => .trans⟩ ⟨fun node => acyclic node⟩
  have inside : ∀ node : Fin nodes.length, Acc (Waits nodes) node := by
    intro node
    induction node using inner.induction with
    | _ node ih =>
      refine .intro _ fun p waits => ?_
      exact ih ⟨p, (arena.lt_of_prerequisite waits).1⟩ (.single waits)
  refine ⟨fun node => .intro _ fun p waits => ?_⟩
  exact inside ⟨p, (arena.lt_of_prerequisite waits).1⟩

theorem waveOrder_isOk_iff (arena : Arena nodes) :
    (∃ order, waveOrder nodes = .ok order) ↔ Acyclic nodes := by
  constructor
  · rintro ⟨order, found⟩ node cycle
    have ordering := ordering_of_waveOrder arena found
    have member := (ordering.mem_iff node).2 (lt_length_of_cycle arena cycle)
    unfold waveOrder at found
    simp only at found
    split at found
    · cases found
      exact not_mem_turns_of_cycle arena cycle member
    · cases found
  · exact fun acyclic => waveOrder_isOk arena (acyclic.wellFounded arena)

theorem onCycle_awaited {node : Nat} : (awaited nodes).onCycle node = true ↔
    Relation.TransGen (Waits nodes) node node := by
  have same : Reach.Step (nodes.map Node.prerequisites) = Function.swap (Waits nodes) := by
    funext u v
    simp [Reach.Step, Waits, prerequisites, Function.swap]
  rw [Reach.onCycle, awaited, Reach.leads_ofNext, same, Relation.transGen_swap]

/-- With a cycle there is no order, and what is reported are the nodes that wait for themselves. -/
theorem mem_cycleMembers (arena : Arena nodes) (cyclic : ¬ Acyclic nodes) :
    ∃ remainder, waveOrder nodes = .error remainder ∧ ∀ node,
      node ∈ cycleMembers nodes remainder ↔ Relation.TransGen (Waits nodes) node node := by
  have refused : waveOrder nodes = .error (turns (dependents nodes) (counts nodes)).2 := by
    have none := mt (waveOrder_isOk_iff arena).1 cyclic
    unfold waveOrder at none ⊢
    simp only at none ⊢
    split
    · rename_i full
      exact absurd ⟨_, if_pos full⟩ none
    · rfl
  refine ⟨_, refused, fun node => ?_⟩
  have members : ∀ node, node ∈ (turns (dependents nodes) (counts nodes)).2.filter
      (awaited nodes).onCycle ↔ Relation.TransGen (Waits nodes) node node := by
    intro node
    rw [List.mem_filter, onCycle_awaited, mem_remainder arena]
    exact ⟨And.right, fun cycle =>
      ⟨⟨lt_length_of_cycle arena cycle, not_mem_turns_of_cycle arena cycle⟩, cycle⟩⟩
  have some : ((turns (dependents nodes) (counts nodes)).2.filter
      (awaited nodes).onCycle).isEmpty = false := by
    simp only [Acyclic, not_forall, not_not] at cyclic
    obtain ⟨other, cycle⟩ := cyclic
    rw [List.isEmpty_eq_false_iff]
    exact List.ne_nil_of_mem ((members other).2 cycle)
  simp only [cycleMembers, some, Bool.false_eq_true, ↓reduceIte]
  exact members node

variable {graph : Graph}

theorem Sound.sorted_of_acyclic (sound : graph.Sound) (acyclic : Acyclic graph.nodes) :
    ∃ order, graph.sorted.1 = .ok order ∧ waveOrder graph.nodes = .ok order := by
  obtain ⟨order, found⟩ := (waveOrder_isOk_iff sound.arena).2 acyclic
  refine ⟨order, ?_, found⟩
  rw [Graph.sorted]
  split
  · rename_i known
    have same := (sound.cached _ known).symm.trans found
    rw [Except.ok.inj same]
  · rw [found]

theorem Sound.sorted_of_cyclic (sound : graph.Sound) (cyclic : ¬ Acyclic graph.nodes) :
    ∃ cycle, graph.sorted.1 = .error cycle ∧ ∀ unit, unit ∈ cycle.units ↔
      ∃ node, Relation.TransGen (Waits graph.nodes) node node ∧ graph.unit? node = some unit := by
  obtain ⟨remainder, refused, members⟩ := mem_cycleMembers sound.arena cyclic
  have unknown : graph.order = none := by
    cases known : graph.order with
    | none => rfl
    | some order =>
      rw [sound.cached order known] at refused
      cases refused
  refine ⟨⟨graph.units (cycleMembers graph.nodes remainder)⟩, ?_, fun unit => ?_⟩
  · simp only [Graph.sorted, unknown, refused]
  · simp only [units, List.mem_filterMap, members]

end Graph

end Choreo
