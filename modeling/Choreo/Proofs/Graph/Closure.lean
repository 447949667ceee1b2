import Mathlib.Data.List.Basic
import Mathlib.Logic.Relation
import Choreo.Digraph

/-!
# Walks and their closure

Letting walks pass one vertex after the other gives all walks: once a vertex may be passed, whoever
reaches it also reaches all that it reaches, and this stays so when further vertices may be passed.
A graph in which no vertex lies on a cycle has a well-founded order of its edges.
-/

namespace Choreo

namespace Reach

/-- Where one step leads. -/
def Step (next : List (List Nat)) (u v : Nat) : Prop := v ∈ next[u]?.getD []

/-- Whoever reaches the vertex also reaches all that it reaches. -/
def Passes (reach : Reach) (v : Nat) : Prop :=
  ∀ u w, reach.leads u v = true → reach.leads v w = true → reach.leads u w = true

theorem leads_through_of_leads {reach : Reach} {u w : Nat} (v : Nat) (h : reach.leads u w = true) :
    (reach.through v).leads u w = true := by
  rw [leads_through, h, Bool.true_or]

theorem passes_through (reach : Reach) (v : Nat) : (reach.through v).Passes v := by
  intro u w
  simp only [leads_through, Bool.or_eq_true, Bool.and_eq_true]
  rintro (huv | ⟨huv, -⟩) (hvw | ⟨-, hvw⟩) <;> exact .inr ⟨huv, hvw⟩

theorem Passes.through {reach : Reach} {x : Nat} (h : reach.Passes x) (v : Nat) :
    (reach.through v).Passes x := by
  intro u w
  simp only [leads_through, Bool.or_eq_true, Bool.and_eq_true]
  rintro (hux | ⟨huv, hvx⟩) (hxw | ⟨hxv, hvw⟩)
  · exact .inl (h u w hux hxw)
  · exact .inr ⟨h u v hux hxv, hvw⟩
  · exact .inr ⟨huv, h v w hvx hxw⟩
  · exact .inr ⟨huv, hvw⟩

theorem size_through (reach : Reach) (v : Nat) : (reach.through v).rows.size = reach.rows.size := by
  simp [through]

theorem foldl_through (vertices : List Nat) (reach : Reach) :
    (∀ u w, reach.leads u w = true → (vertices.foldl through reach).leads u w = true) ∧
      (∀ v, v ∈ vertices ∨ reach.Passes v → (vertices.foldl through reach).Passes v) := by
  induction vertices generalizing reach with
  | nil => exact ⟨fun _ _ h => h, fun v h => h.resolve_left (List.not_mem_nil)⟩
  | cons first vertices ih =>
    obtain ⟨mono, passes⟩ := ih (reach.through first)
    refine ⟨fun u w h => mono u w (leads_through_of_leads first h), fun v h => passes v ?_⟩
    rcases h with member | before
    · rcases List.mem_cons.1 member with rfl | later
      · exact .inr (passes_through reach v)
      · exact .inl later
    · exact .inr (before.through first)

theorem size_foldl_through (vertices : List Nat) (reach : Reach) :
    (vertices.foldl through reach).rows.size = reach.rows.size := by
  induction vertices generalizing reach with
  | nil => rfl
  | cons first vertices ih => rw [List.foldl_cons, ih, size_through]

theorem passes_closure (reach : Reach) (v : Nat) : reach.closure.Passes v := by
  by_cases inside : v < reach.rows.size
  · exact (foldl_through _ reach).2 v (.inl (List.mem_range.2 inside))
  · intro u w _ onward
    have none : reach.closure.rows[v]? = none := by
      rw [Array.getElem?_eq_none_iff, closure, size_foldl_through]
      omega
    simp [leads, none] at onward

/-- Everything that is reached is reached by a walk. -/
def Sound (step : Nat → Nat → Prop) (reach : Reach) : Prop :=
  ∀ u w, reach.leads u w = true → Relation.TransGen step u w

theorem Sound.through {step : Nat → Nat → Prop} {reach : Reach} (h : Sound step reach) (v : Nat) :
    Sound step (reach.through v) := by
  intro u w
  simp only [leads_through, Bool.or_eq_true, Bool.and_eq_true]
  rintro (huw | ⟨huv, hvw⟩)
  · exact h u w huw
  · exact (h u v huv).trans (h v w hvw)

theorem Sound.foldl {step : Nat → Nat → Prop} {reach : Reach} (h : Sound step reach)
    (vertices : List Nat) : Sound step (vertices.foldl Reach.through reach) := by
  induction vertices generalizing reach with
  | nil => exact h
  | cons first vertices ih => exact ih (h.through first)

/-- The closure tells where walks of one step or more lead. -/
theorem leads_ofNext {next : List (List Nat)} {u w : Nat} :
    (ofNext next).leads u w = true ↔ Relation.TransGen (Step next) u w := by
  constructor
  · have single : Sound (Step next) (single next) :=
      fun u w h => .single (leads_single.1 h)
    exact single.foldl _ u w
  · intro walk
    have first : ∀ {u v}, Step next u v → (ofNext next).leads u v = true := fun step =>
      (foldl_through _ _).1 _ _ (leads_single.2 step)
    induction walk with
    | single step => exact first step
    | tail _ step ih => exact passes_closure _ _ _ _ ih (first step)

end Reach

namespace Digraph

variable {graph : Digraph}

def Edge (graph : Digraph) (u v : Nat) : Prop := (u, v) ∈ graph.edges

theorem mem_successors {u v : Nat} : v ∈ graph.successors u ↔ graph.Edge u v := by
  simp [successors, Edge]

def Bounded (graph : Digraph) : Prop := ∀ edge ∈ graph.edges, edge.1 < graph.size

theorem step_iff (bounded : graph.Bounded) {u v : Nat} :
    Reach.Step (graph.vertices.map graph.successors) u v ↔ graph.Edge u v := by
  rw [Reach.Step, vertices]
  by_cases inside : u < graph.size
  · simp [inside, mem_successors]
  · have none : ¬ graph.Edge u v := fun edge => inside (bounded _ edge)
    simp [inside, none]

theorem leads_reach (bounded : graph.Bounded) {u w : Nat} :
    graph.reach.leads u w = true ↔ Relation.TransGen graph.Edge u w := by
  have same : Reach.Step (graph.vertices.map graph.successors) = graph.Edge := by
    funext u v
    exact propext (step_iff bounded)
  rw [reach, Reach.leads_ofNext, same]

theorem onCycle_lt {v : Nat} (h : graph.reach.onCycle v = true) : v < graph.size := by
  by_contra outside
  have none : graph.reach.rows[v]? = none := by
    rw [Array.getElem?_eq_none_iff, reach, Reach.ofNext, Reach.closure, Reach.size_foldl_through]
    simpa [Reach.single, vertices] using outside
  simp [Reach.onCycle, Reach.leads, none] at h

theorem acyclic_of_onCycle (bounded : graph.Bounded)
    (h : ∀ v < graph.size, graph.reach.onCycle v = false) (v : Nat) :
    ¬ Relation.TransGen graph.Edge v v := by
  intro cycle
  have through : graph.reach.onCycle v = true := (leads_reach bounded).2 cycle
  rw [h v (onCycle_lt through)] at through
  cases through

/-- How many vertices there are from which one can come to a vertex. -/
def rank (graph : Digraph) (v : Nat) : Nat :=
  (graph.vertices.filter fun u => graph.reach.leads u v).length

/-- Without a cycle every edge leads to a vertex of a higher rank. -/
theorem rank_lt (bounded : graph.Bounded) (acyclic : ∀ v, ¬ Relation.TransGen graph.Edge v v)
    {u v : Nat} (edge : graph.Edge u v) : graph.rank u < graph.rank v := by
  have inside : u ∈ graph.vertices := List.mem_range.2 (bounded _ edge)
  have weaker : ∀ w, graph.reach.leads w u = true → graph.reach.leads w v = true := by
    intro w h
    rw [leads_reach bounded] at h ⊢
    exact h.tail edge
  have sub := List.monotone_filter_right graph.vertices weaker
  by_contra wide
  have same := sub.eq_of_length_le (Nat.not_lt.1 wide)
  have comes : u ∈ graph.vertices.filter fun w => graph.reach.leads w v :=
    List.mem_filter.2 ⟨inside, (leads_reach bounded).2 (.single edge)⟩
  rw [← same] at comes
  exact acyclic u ((leads_reach bounded).1 (List.mem_filter.1 comes).2)

end Digraph

end Choreo
