import Choreo.Proofs.Run.Bracket
import Choreo.Proofs.Run.Hearing

/-!
# What is pending is declared

Besides the operations there is one thing more that may be done to a conductor: an entry may be
taken off a pending list by itself. Whatever is done, and in whatever order, a node has nothing on
its pending list and is subscribed to nothing that the graph does not declare for it, however much
the graph has grown since the run began. So all places that a run mentions are places of nodes.
-/

namespace Choreo

namespace Waiting

/-- Nothing is pending and nobody is subscribed that was not before. -/
structure Shrinks (before after : Waiting) : Prop where
  pending : ∀ node, after.pendingOf node ⊆ before.pendingOf node
  subscriptions : after.subscriptions ⊆ before.subscriptions

theorem Shrinks.refl (waiting : Waiting) : waiting.Shrinks waiting :=
  ⟨fun _ => List.Subset.refl _, List.Subset.refl _⟩

theorem Shrinks.reset {before after : Waiting} (shrinks : before.Shrinks after) :
    before.Shrinks after.reset :=
  ⟨shrinks.pending, List.nil_subset _⟩

theorem shrinks_hear (event : Lifecycle) (node : Nat) (waiting : Waiting) :
    waiting.Shrinks (waiting.hear event node).2 := by
  have noted := noted_hear event node waiting
  refine ⟨fun other => ?_, ?_⟩
  · rw [noted.pendingOf]
    exact (waiting.drop_sublist ..).subset
  · rw [noted.subscriptions]
    exact fun subscription member => List.mem_of_mem_filter member

theorem shrinks_consume (event : Dependency) (node : Nat) (waiting : Waiting) :
    waiting.Shrinks (waiting.consume event node) := by
  refine ⟨fun other => ?_, List.Subset.refl _⟩
  rw [pendingOf_consume]
  split
  · next same => exact same ▸ List.erase_subset
  · exact List.Subset.refl _

end Waiting

/-- One thing that can be done to a conductor, or to one of its pending lists apart from it. -/
inductive Handling where
  | operate (operation : Operation)
  | remove (event : Dependency) (node : Nat)
  deriving DecidableEq

namespace Conductor

/-- Does one thing. An entry that is not there is not removed. -/
def handle (handling : Handling) (conductor : Conductor) : Decision × Conductor :=
  match handling with
  | .operate operation => conductor.operate operation
  | .remove event node => (.nothing,
      if event ∈ conductor.waiting.pendingOf node then
        { conductor with waiting := conductor.waiting.consume event node }
      else conductor)

/-- Does these things one after the other; the list is what was decided at each of them. -/
def handleAll : List Handling → Conductor → List Decision × Conductor
  | [], conductor => ([], conductor)
  | handling :: rest, conductor =>
    let done := conductor.handle handling
    let more := handleAll rest done.2
    (done.1 :: more.1, more.2)

/-- What is pending and what is subscribed to is declared. -/
structure Declared (conductor : Conductor) : Prop where
  pending : ∀ node, conductor.waiting.pendingOf node ⊆ conductor.graph.dependencies node
  subscribed : ∀ subscription ∈ conductor.waiting.subscriptions,
    subscription.event ∈ conductor.graph.dependencies subscription.dependent

theorem declared_fresh : fresh.Declared :=
  ⟨fun _ => List.nil_subset _, fun _ member => nomatch member⟩

theorem Declared.shrink {before after : Conductor} (declared : before.Declared)
    (grown : before.graph.Extends after.graph) (shrinks : before.waiting.Shrinks after.waiting) :
    after.Declared := by
  have more : ∀ node, before.graph.dependencies node ⊆ after.graph.dependencies node := fun node =>
    (grown.dependencies node).subset
  exact ⟨fun node d member => more node (declared.pending node (shrinks.pending node member)),
    fun subscription member => more _
    (declared.subscribed subscription (shrinks.subscriptions member))⟩

theorem declared_launch (order : List Nat) (conductor : Conductor) :
    (conductor.launch order).Declared := by
  refine ⟨fun node d member => ?_, fun subscription member => ?_⟩
  · simpa [launch, Waiting.pendingOf, Graph.dependencies] using member
  · obtain ⟨node, -, declared⟩ := List.mem_flatMap.1 member
    obtain ⟨event, listed, rfl⟩ := List.mem_map.1 declared
    exact listed

theorem extends_operate (operation : Operation) (conductor : Conductor) :
    conductor.graph.Extends (conductor.operate operation).2.graph := by
  obtain ⟨changes, same⟩ := graph_operate conductor operation
  rw [same]
  exact Graph.extends_edits ..

theorem waiting_leave (unit : UnitId) (begun : List Command × Conductor) :
    (leave unit begun).2.waiting = begun.2.waiting ∨
      (leave unit begun).2.waiting = begun.2.waiting.reset := by
  simp only [leave]
  split
  · exact .inr rfl
  · exact .inl rfl

theorem shrinks_step (report : Report) (conductor : Conductor) :
    conductor.waiting.Shrinks (conductor.step report).2.waiting := by
  by_cases idle : conductor.phase = .idle
  · rw [step_of_idle report idle]
    exact .refl _
  cases found : conductor.graph.nodeFor? report.unit with
  | none =>
    rw [step_of_absent found]
    exact .refl _
  | some node =>
    have heard : ∀ event, conductor.waiting.Shrinks (conductor.absorb event node).2.waiting := by
      intro event
      rw [absorb, subscriptions_startReady]
      exact Waiting.shrinks_hear ..
    rw [step_eq idle found]
    split
    · rcases waiting_leave report.unit (conductor.absorb .ended node) with same | closed
      · rw [same]
        exact heard .ended
      · rw [closed]
        exact (heard .ended).reset
    · exact heard report.event

theorem Declared.operate {conductor : Conductor} (declared : conductor.Declared)
    (operation : Operation) :
    (conductor.operate operation).2.Declared := by
  have grown := extends_operate operation conductor
  cases operation with
  | begin =>
    rw [operate_begin] at grown ⊢
    rcases begin_cases conductor with ⟨-, same⟩ | ⟨cycle, -, -, refused⟩ |
      ⟨order, opened, -, -, rfl, ⟨-, begun⟩ | ⟨-, begun⟩⟩
    · rw [same]
      exact declared
    · rw [refused] at grown ⊢
      exact declared.shrink grown (.refl _)
    · rw [begun]
      exact (declared_launch ..).shrink (.refl _) (Waiting.Shrinks.refl _).reset
    · rw [begun]
      exact declared_launch ..
  | step report => exact declared.shrink grown (shrinks_step ..)
  | cancel =>
    refine declared.shrink grown ?_
    simp only [Conductor.operate, cancelRun]
    split <;> exact .refl _
  | finish =>
    refine declared.shrink grown ?_
    simp only [Conductor.operate, endRun]
    split <;> exact .refl _
  | settle =>
    refine declared.shrink grown ?_
    simp only [Conductor.operate, settle]
    split
    · exact (Waiting.Shrinks.refl _).reset
    · exact (Waiting.Shrinks.refl _).reset
    · exact .refl _
    · exact .refl _
  | edit change => exact declared.shrink grown (.refl _)
  | refill =>
    refine ⟨fun node d member => ?_, declared.subscribed⟩
    simpa [Conductor.operate, Waiting.refill, Waiting.pendingOf, Graph.dependencies] using member

theorem Declared.handle {conductor : Conductor} (declared : conductor.Declared)
    (handling : Handling) :
    (conductor.handle handling).2.Declared := by
  cases handling with
  | operate operation => exact declared.operate operation
  | remove event node =>
    simp only [Conductor.handle]
    split
    · exact declared.shrink (.refl _) (Waiting.shrinks_consume ..)
    · exact declared

theorem extends_handle (handling : Handling) (conductor : Conductor) :
    conductor.graph.Extends (conductor.handle handling).2.graph := by
  cases handling with
  | operate operation => exact extends_operate operation conductor
  | remove event node =>
    simp only [handle]
    split <;> exact .refl _

theorem extends_handleAll (handlings : List Handling) (conductor : Conductor) :
    conductor.graph.Extends (conductor.handleAll handlings).2.graph := by
  induction handlings generalizing conductor with
  | nil => exact .refl _
  | cons handling rest ih => exact (extends_handle handling conductor).trans (ih _)

section Inside

variable {conductor : Conductor} (sound : conductor.graph.Sound) (declared : conductor.Declared)

include sound declared

/-- What is waited for is a node. -/
theorem Declared.pending_lt {node : Nat} {d : Dependency}
    (held : d ∈ conductor.waiting.pendingOf node) :
    d.node < conductor.graph.nodes.length :=
  (sound.arena.inside_of_declared (declared.pending node held)).2

/-- Who is subscribed is a node, and so is what it is subscribed to. -/
theorem Declared.subscribed_lt {subscription : Subscription}
    (listed : subscription ∈ conductor.waiting.subscriptions) :
    subscription.event.node < conductor.graph.nodes.length ∧
      subscription.dependent < conductor.graph.nodes.length :=
  (sound.arena.inside_of_declared (declared.subscribed subscription listed)).symm

end Inside

end Conductor

end Choreo
