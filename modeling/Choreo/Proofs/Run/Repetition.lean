import Choreo.Proofs.Graph.Repeats
import Choreo.Proofs.Run.Grafted
import Choreo.Proofs.Run.StartRule

/-!
# Runs of a graph that repeats itself

A dependency that is declared more than once is pending and subscribed to more than once, and all of
its entries are used up by the same event. So a run does not notice: next to the run of a graph in
which each dependency is declared once it makes the same calls at the same time, and the same nodes
wait for the same things, however often each of these is entered.
-/

namespace Choreo

namespace Conductor

/-- Two conductors whose graphs and pending lists differ in nothing but repetitions. While a run
goes on the same dependencies are open for both. -/
structure Peers (c d : Conductor) : Prop where
  sound : c.graph.Sound
  sound' : d.graph.Sound
  graphs : c.graph.Echoes d.graph
  phase : c.phase = d.phase
  playing : c.playing = d.playing
  blocked : ∀ node, c.waiting.isBlocked node = d.waiting.isBlocked node
  pending : ∀ node event, event ∈ c.waiting.pendingOf node ↔ event ∈ d.waiting.pendingOf node
  mirrors : c.phase ≠ .idle → ∃ order live, Graph.Ordering c.graph.nodes order ∧
    Graph.Ordering d.graph.nodes order ∧ Waiting.Mirrors c.graph order live c.waiting ∧
    Waiting.Mirrors d.graph order live d.waiting

theorem mirrors_launch (conductor : Conductor) (order : List Nat) :
    Waiting.Mirrors conductor.graph order (fun _ => true) (conductor.launch order).waiting := by
  refine ⟨fun node => ?_, ?_⟩
  · rw [List.filter_true, Waiting.pendingOf, Graph.dependencies, launch, List.getElem?_map]
  · rw [List.filter_true]
    rfl

namespace Peers

variable {c d : Conductor}

theorem mem_pendingOf (graphs : c.graph.Echoes d.graph)
    {order : List Nat} {live : Dependency → Bool} {left right : Waiting}
    (mirrors : Waiting.Mirrors c.graph order live left)
    (mirrors' : Waiting.Mirrors d.graph order live right) (node : Nat) (event : Dependency) :
    event ∈ left.pendingOf node ↔ event ∈ right.pendingOf node := by
  rw [mirrors.pendingOf, mirrors'.pendingOf, List.mem_filter, List.mem_filter, graphs.dependencies]

theorem close (peers : c.Peers d) : c.close.Peers d.close :=
  ⟨peers.sound, peers.sound', peers.graphs, rfl, peers.playing, fun _ => rfl, peers.pending,
    fun active => absurd rfl active⟩

/-- Both hear the same of an event: the same nodes are ready, in the same order. -/
theorem absorb (peers : c.Peers d) (active : c.phase ≠ .idle) (event : Lifecycle) (node : Nat) :
    (c.absorb event node).1 = (d.absorb event node).1 ∧
      (c.absorb event node).2.Peers (d.absorb event node).2 := by
  obtain ⟨order, live, ordering, ordering', mirrors, mirrors'⟩ := peers.mirrors active
  have heard := mirrors.hear ordering event node
  have heard' := mirrors'.hear ordering' event node
  have ready : (c.waiting.hear event node).1 = (d.waiting.hear event node).1 := by
    rw [heard.ready, heard'.ready]
    refine List.filter_congr fun other _ => ?_
    simp only [ne_eq, peers.graphs.filter_eq_nil_iff, peers.blocked]
  have blocked : ∀ other, (c.waiting.hear event node).2.isBlocked other =
      (d.waiting.hear event node).2.isBlocked other := by
    intro other
    rw [Bool.eq_iff_iff, heard.blocked, heard'.blocked, peers.blocked]
    simp only [peers.graphs.dependencies]
  have pending := mem_pendingOf peers.graphs heard.mirrors heard'.mirrors
  by_cases running : c.phase = .running
  · rw [absorb_of_running _ _ _ running, absorb_of_running _ _ _ (peers.phase ▸ running)]
    simp only [ready, peers.graphs.unitsAt, peers.playing, true_and]
    exact ⟨peers.sound, peers.sound', peers.graphs, peers.phase, rfl, blocked, pending,
      fun _ => ⟨order, _, ordering, ordering', heard.mirrors, heard'.mirrors⟩⟩
  · rw [absorb_of_not_running _ _ _ running, absorb_of_not_running _ _ _ (peers.phase ▸ running)]
    exact ⟨rfl, peers.sound, peers.sound', peers.graphs, peers.phase, peers.playing, blocked,
      pending, fun _ => ⟨order, _, ordering, ordering', heard.mirrors, heard'.mirrors⟩⟩

theorem leave (peers : c.Peers d) (unit : UnitId) (commands : List Command) :
    (Conductor.leave unit (commands, c)).1 = (Conductor.leave unit (commands, d)).1 ∧
      (Conductor.leave unit (commands, c)).2.Peers (Conductor.leave unit (commands, d)).2 := by
  have after : ({ c with playing := (d.playing.remove unit).2 } : Conductor).Peers
      { d with playing := (d.playing.remove unit).2 } :=
    ⟨peers.sound, peers.sound', peers.graphs, peers.phase, rfl, peers.blocked, peers.pending,
      peers.mirrors⟩
  simp only [Conductor.leave, peers.playing]
  split
  · exact ⟨rfl, after.close⟩
  · exact ⟨rfl, after⟩

theorem step (peers : c.Peers d) (report : Report) :
    (c.step report).1 = (d.step report).1 ∧ (c.step report).2.Peers (d.step report).2 := by
  by_cases idle : c.phase = .idle
  · rw [step_of_idle report idle, step_of_idle report (peers.phase ▸ idle)]
    exact ⟨rfl, peers⟩
  have same := peers.graphs.nodeFor? report.unit
  cases found : c.graph.nodeFor? report.unit with
  | none =>
    rw [step_of_absent found, step_of_absent (same ▸ found)]
    exact ⟨rfl, peers⟩
  | some node =>
    rw [step_eq idle found, step_eq (peers.phase ▸ idle) (same ▸ found)]
    split
    · obtain ⟨commands, after⟩ := peers.absorb idle .ended node
      have left := after.leave report.unit (c.absorb .ended node).1
      rw [show d.absorb .ended node = ((c.absorb .ended node).1, (d.absorb .ended node).2) from
        Prod.ext commands.symm rfl]
      exact left
    · obtain ⟨commands, after⟩ := peers.absorb idle report.event node
      exact ⟨by rw [commands], after⟩

theorem cancelRun (peers : c.Peers d) :
    c.cancelRun.1 = d.cancelRun.1 ∧ c.cancelRun.2.Peers d.cancelRun.2 := by
  by_cases running : c.phase = .running
  · have active : c.phase ≠ .idle := by simp [running]
    simp only [Conductor.cancelRun, running, ← peers.phase, peers.playing, ↓reduceIte, true_and]
    exact ⟨peers.sound, peers.sound', peers.graphs, rfl, rfl, peers.blocked, peers.pending,
      fun _ => peers.mirrors active⟩
  · simp only [Conductor.cancelRun, running, ← peers.phase, ↓reduceIte, true_and]
    exact peers

theorem endRun (peers : c.Peers d) : c.endRun.1 = d.endRun.1 ∧ c.endRun.2.Peers d.endRun.2 := by
  by_cases running : c.phase = .running
  · have active : c.phase ≠ .idle := by simp [running]
    simp only [Conductor.endRun, running, ← peers.phase, peers.playing, ↓reduceIte, true_and]
    exact ⟨peers.sound, peers.sound', peers.graphs, rfl, rfl, peers.blocked, peers.pending,
      fun _ => peers.mirrors active⟩
  · simp only [Conductor.endRun, running, ← peers.phase, ↓reduceIte, true_and]
    exact peers

theorem settle (peers : c.Peers d) : c.settle.1 = d.settle.1 ∧ c.settle.2.Peers d.settle.2 := by
  have closed : ({ c with playing := .none } : Conductor).close.Peers
      ({ d with playing := .none } : Conductor).close :=
    ⟨peers.sound, peers.sound', peers.graphs, rfl, rfl, fun _ => rfl, peers.pending,
      fun active => absurd rfl active⟩
  have same := peers.phase
  cases phase : c.phase with
  | idle | running =>
    simp only [Conductor.settle, ← same, phase, true_and]
    exact peers
  | canceling | ending =>
    simp only [Conductor.settle, ← same, phase, true_and]
    exact closed

/-- Both runs begin in the same way, with everything pending, or both are refused in the same
words. -/
theorem begin (peers : c.Peers d) : c.begin.1 = d.begin.1 ∧ c.begin.2.Peers d.begin.2 := by
  by_cases idle : c.phase = .idle
  · have idle' : d.phase = .idle := peers.phase ▸ idle
    have same := peers.graphs.sorted peers.sound peers.sound'
    have graphs : c.graph.sorted.2.Echoes d.graph.sorted.2 :=
      .trans (.of_nodes (Graph.nodes_sorted _))
        (.trans peers.graphs (.of_nodes (Graph.nodes_sorted _).symm))
    cases sorted : c.graph.sorted.1 with
    | error cycle =>
      rw [begin_of_refused idle sorted, begin_of_refused idle' (same ▸ sorted)]
      exact ⟨rfl, peers.sound.sorted, peers.sound'.sorted, graphs, peers.phase, peers.playing,
        peers.blocked, peers.pending, fun active => absurd idle active⟩
    | ok order =>
      have sorted' := same ▸ sorted
      let opened := { c with graph := c.graph.sorted.2 }.launch order
      let opened' := { d with graph := d.graph.sorted.2 }.launch order
      have playing : opened.playing = opened'.playing := by
        simp only [opened, opened', launch, graphs.roots, graphs.unitsAt]
      have ordering : Graph.Ordering c.graph.sorted.2.nodes order :=
        (Graph.nodes_sorted c.graph).symm ▸ peers.sound.ordering sorted
      have ordering' : Graph.Ordering d.graph.sorted.2.nodes order :=
        (Graph.nodes_sorted d.graph).symm ▸ peers.sound'.ordering sorted'
      have mirrors := mirrors_launch { c with graph := c.graph.sorted.2 } order
      have mirrors' := mirrors_launch { d with graph := d.graph.sorted.2 } order
      have after : opened.Peers opened' :=
        ⟨peers.sound.sorted, peers.sound'.sorted, graphs, rfl, playing, fun _ => rfl,
          mem_pendingOf graphs mirrors mirrors',
          fun _ => ⟨order, _, ordering, ordering', mirrors, mirrors'⟩⟩
      rcases begin_of_sorted idle sorted with ⟨none, begun⟩ | ⟨some, begun⟩ <;>
        rcases begin_of_sorted idle' sorted' with ⟨none', begun'⟩ | ⟨some', begun'⟩
      · rw [begun, begun']
        exact ⟨rfl, after.close⟩
      · exact absurd (playing ▸ none) some'
      · exact absurd (playing ▸ none') some
      · rw [begun, begun']
        exact ⟨by simp only [opened, opened'] at playing; rw [playing], after⟩
  · rw [Conductor.begin, Conductor.begin, if_pos idle, if_pos (peers.phase ▸ idle)]
    exact ⟨rfl, peers⟩

theorem operate (peers : c.Peers d) {operation : Operation}
    (allowed : operation = .begin ∨ operation.steers = true) :
    (c.operate operation).1 = (d.operate operation).1 ∧
      (c.operate operation).2.Peers (d.operate operation).2 := by
  cases operation with
  | begin =>
    obtain ⟨decided, next⟩ := peers.begin
    rw [operate_begin_eq, operate_begin_eq, decided]
    exact ⟨rfl, next⟩
  | step report => exact peers.step report
  | cancel => exact peers.cancelRun
  | finish => exact peers.endRun
  | settle => exact peers.settle
  | edit | refill => simp [Operation.steers] at allowed

theorem run (peers : c.Peers d) {operations : List Operation}
    (allowed : ∀ operation ∈ operations, operation = .begin ∨ operation.steers = true) :
    (c.run operations).1 = (d.run operations).1 ∧
      (c.run operations).2.Peers (d.run operations).2 := by
  induction operations generalizing c d with
  | nil => exact ⟨rfl, peers⟩
  | cons operation rest ih =>
    obtain ⟨decided, next⟩ := peers.operate (allowed operation (List.mem_cons_self ..))
    obtain ⟨more, last⟩ := ih next fun other member => allowed other (List.mem_cons_of_mem _ member)
    exact ⟨List.cons_eq_cons.2 ⟨decided, more⟩, last⟩

end Peers

/-- To declare again what is declared already, any number of times, changes nothing that can be
noticed: neither the order of start or the cycle that is reported instead, nor what is decided in a
run at any time, nor what plays, in which phase, nor who is blocked and what everyone waits for. -/
theorem repeats_unnoticed {conductor : Conductor} (reached : conductor.Reachable)
    (idle : conductor.phase = .idle) (repeats : List (Nat × Dependency))
    (declared : ∀ edge ∈ repeats, edge.2 ∈ conductor.graph.dependencies edge.1) :
    let graph := repeats.foldl (fun graph edge => graph.addDependency edge.1 edge.2) conductor.graph
    graph.sorted.1 = conductor.graph.sorted.1 ∧
      { conductor with graph }.begin.1 = conductor.begin.1 ∧
    ∀ operations : List Operation,
      (∀ operation ∈ operations, operation = .begin ∨ operation.steers = true) →
      let once := conductor.run (.begin :: operations)
      let again := { conductor with graph }.run (.begin :: operations)
      again.1 = once.1 ∧ again.2.phase = once.2.phase ∧ again.2.playing = once.2.playing ∧
        ∀ node, again.2.waiting.isBlocked node = once.2.waiting.isBlocked node ∧
          ∀ event, event ∈ again.2.waiting.pendingOf node ↔
            event ∈ once.2.waiting.pendingOf node := by
  intro graph
  obtain ⟨sound, graphs⟩ := reached.sound.echoes_repeats declared
  have peers : conductor.Peers { conductor with graph } :=
    ⟨reached.sound, sound, graphs, rfl, rfl, fun _ => rfl, fun _ _ => .rfl,
      fun active => absurd idle active⟩
  refine ⟨(graphs.sorted reached.sound sound).symm, peers.begin.1.symm,
    fun operations allowed => ?_⟩
  have begun : ∀ operation ∈ Operation.begin :: operations, operation = .begin ∨
      operation.steers = true :=
    fun operation member => (List.mem_cons.1 member).elim .inl (allowed operation)
  obtain ⟨decided, after⟩ := peers.run begun
  exact ⟨decided.symm, after.phase.symm, after.playing.symm, fun node =>
    ⟨(after.blocked node).symm, fun event => (after.pending node event).symm⟩⟩

/-- The second unit waits for the end of the first one, once or three times over: when that is
reported it is told to start, and this once. -/
theorem repeats_unnoticed_pair :
    let edge : Nat × Dependency := (1, ⟨0, .onEnd⟩)
    let graph := [edge, edge].foldl (fun graph edge => graph.addDependency edge.1 edge.2) pair.graph
    let again : Conductor := { pair with graph }
    let operations : List Operation := [.step ⟨⟨0, 0⟩, .started⟩, .step ⟨⟨0, 0⟩, .ended⟩]
    again.graph.dependencies 1 = [⟨0, .onEnd⟩, ⟨0, .onEnd⟩, ⟨0, .onEnd⟩] ∧
      (again.run (.begin :: operations)).1 = [⟨[.call .start ⟨0, 0⟩, .announce .started], false⟩,
        .nothing, ⟨[.call .start ⟨0, 1⟩], false⟩] := by
  intro edge graph again operations
  have unnoticed := (repeats_unnoticed reachable_pair rfl [edge, edge] (by decide +kernel)).2.2
    operations (by decide +kernel)
  refine ⟨by decide +kernel, unnoticed.1.trans ?_⟩
  decide +kernel

end Conductor

end Choreo
