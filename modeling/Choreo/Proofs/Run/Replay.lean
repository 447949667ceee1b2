import Choreo.Proofs.Graph.Cycles
import Choreo.Proofs.Run.Bracket

/-!
# A run does not know what went before

What a conductor remembers beyond its nodes, its phase, what plays and what waits is whether the
order of start was worked out already and how many runs there have been. Neither is ever looked at:
the order is that of the nodes, whether it is remembered or not, and runs are counted and nothing
else. A run that begins makes everything else anew, so of two idle conductors with the same nodes
each does in the next run what the other one does.
-/

namespace Choreo

theorem Graph.Sound.sorted_eq {g h : Graph} (sound : g.Sound) (sound' : h.Sound)
    (nodes : g.nodes = h.nodes) : g.sorted.1 = h.sorted.1 := by
  by_cases acyclic : Graph.Acyclic g.nodes
  · obtain ⟨order, sorted, found⟩ := sound.sorted_of_acyclic acyclic
    obtain ⟨order', sorted', found'⟩ := sound'.sorted_of_acyclic (nodes ▸ acyclic)
    rw [nodes, found'] at found
    rw [sorted, sorted', Except.ok.inj found]
  · -- with a cycle neither of them can remember an order
    have unknown : ∀ graph : Graph, graph.Sound → graph.nodes = h.nodes → graph.order = none := by
      intro graph sound same
      cases known : graph.order with
      | none => rfl
      | some order =>
        exact absurd ((Graph.waveOrder_isOk_iff sound.arena).1 ⟨order, sound.cached order known⟩)
          (by rwa [same, ← nodes])
    have order := (unknown g sound nodes).trans (unknown h sound' rfl).symm
    obtain ⟨nodes', order'⟩ := g
    simp only at nodes order
    rw [nodes, order]

namespace Conductor

/-- Nothing that is ever looked at tells one conductor from the other. -/
structure Alike (c d : Conductor) : Prop where
  nodes : c.graph.nodes = d.graph.nodes
  waiting : c.waiting = d.waiting
  playing : c.playing = d.playing
  phase : c.phase = d.phase

/-- The conductor with another memory of its order of start and another count of its runs. -/
def disguise (order : Option (List Nat)) (runs : Nat) (c : Conductor) : Conductor :=
  { c with graph := { c.graph with order }, runs }

theorem alike_disguise (order : Option (List Nat)) (runs : Nat) (c : Conductor) :
    c.Alike (c.disguise order runs) := ⟨rfl, rfl, rfl, rfl⟩

theorem Alike.eq_disguise {c d : Conductor} (alike : c.Alike d) :
    d = c.disguise d.graph.order d.runs := by
  obtain ⟨⟨nodes, order⟩, waiting, playing, phase, runs⟩ := c
  obtain ⟨⟨nodes', order'⟩, waiting', playing', phase', runs'⟩ := d
  obtain ⟨same, same', same'', same'''⟩ := alike
  simp only at same same' same'' same'''
  subst same same' same'' same'''
  rfl

variable (order : Option (List Nat)) (runs : Nat) (c : Conductor)

theorem startReady_disguise (ready : List Nat) : (c.disguise order runs).startReady ready =
    ((c.startReady ready).1, (c.startReady ready).2.disguise order runs) := by
  by_cases running : c.phase = .running
  · simp only [startReady, disguise, running, ↓reduceIte]
    rfl
  · simp only [startReady, disguise, running, ↓reduceIte]

theorem absorb_disguise (event : Lifecycle) (node : Nat) :
    (c.disguise order runs).absorb event node =
    ((c.absorb event node).1, (c.absorb event node).2.disguise order runs) :=
  startReady_disguise order runs { c with waiting := (c.waiting.hear event node).2 } _

theorem leave_disguise (unit : UnitId) (commands : List Command) :
    leave unit (commands, c.disguise order runs) =
      ((leave unit (commands, c)).1, (leave unit (commands, c)).2.disguise order runs) := by
  have playing : (c.disguise order runs).playing = c.playing := rfl
  simp only [leave, playing]
  split <;> rfl

/-- A report is answered in the same way, whatever is remembered. -/
theorem step_disguise (report : Report) : (c.disguise order runs).step report =
    ((c.step report).1, (c.step report).2.disguise order runs) := by
  by_cases idle : c.phase = .idle
  · rw [step_of_idle report idle, step_of_idle report (by exact idle)]
  cases found : c.graph.nodeFor? report.unit with
  | none => rw [step_of_absent found, step_of_absent (by exact found)]
  | some node =>
    rw [step_eq idle found, step_eq (by exact idle) (by exact found), absorb_disguise,
      absorb_disguise, leave_disguise]
    split <;> rfl

theorem cancelRun_disguise : (c.disguise order runs).cancelRun =
    (c.cancelRun.1, c.cancelRun.2.disguise order runs) := by
  have phase : (c.disguise order runs).phase = c.phase := rfl
  simp only [cancelRun, phase]
  split <;> rfl

theorem endRun_disguise : (c.disguise order runs).endRun =
    (c.endRun.1, c.endRun.2.disguise order runs) := by
  have phase : (c.disguise order runs).phase = c.phase := rfl
  simp only [endRun, phase]
  split <;> rfl

theorem settle_disguise : (c.disguise order runs).settle =
    (c.settle.1, c.settle.2.disguise order runs) := by
  have phase : (c.disguise order runs).phase = c.phase := rfl
  simp only [settle, phase]
  split <;> rfl

theorem nodes_edit_disguise (change : Edit) :
    ((c.disguise order runs).graph.edit change).nodes = (c.graph.edit change).nodes := by
  cases change with
  | place unit =>
    have same : (c.disguise order runs).graph.nodeFor? unit = c.graph.nodeFor? unit := rfl
    simp only [Graph.edit, Graph.place, same]
    split <;> rfl
  | depend dependent dependency =>
    by_cases inside : dependent < c.graph.nodes.length ∧ dependency.node < c.graph.nodes.length
    · simp only [Graph.edit, disguise, inside, and_self, ↓reduceIte]
      rfl
    · simp only [Graph.edit, disguise, inside, ↓reduceIte]
  | touch => rfl
  | sort => simp only [Graph.edit, Graph.nodes_sorted, disguise]

variable {c} {d : Conductor}

/-- Without a cycle every run begins. -/
theorem begin_of_acyclic (sound : c.graph.Sound) (acyclic : Graph.Acyclic c.graph.nodes) :
    ∃ decision next, c.begin = (.ok decision, next) := by
  obtain ⟨order, sorted, -⟩ := sound.sorted_of_acyclic acyclic
  by_cases idle : c.phase = .idle
  · rcases begin_of_sorted idle sorted with ⟨-, begun⟩ | ⟨-, begun⟩ <;> exact ⟨_, _, begun⟩
  · exact ⟨_, _, by rw [begin, if_pos idle]⟩

theorem launch_disguise (c d : Conductor) {g h : Graph} (nodes : g.nodes = h.nodes)
    (start : List Nat) :
    { c with graph := g }.launch start =
      ({ d with graph := h }.launch start).disguise g.order (c.runs + 1) := by
  obtain ⟨nodes', order⟩ := g
  obtain rfl : nodes' = h.nodes := nodes
  rfl

/-- Idle conductors with the same nodes begin their runs in the same way, and have forgotten what
went before when these are under way. -/
theorem begin_alike_of_sorted (nodes : c.graph.nodes = d.graph.nodes)
    (idle : c.phase = .idle) (idle' : d.phase = .idle) {start : List Nat}
    (sorted : c.graph.sorted.1 = .ok start) (sorted' : d.graph.sorted.1 = .ok start) :
    c.begin.1 = d.begin.1 ∧ c.begin.2.Alike d.begin.2 := by
  have same : c.graph.sorted.2.nodes = d.graph.sorted.2.nodes := by
    rw [Graph.nodes_sorted, Graph.nodes_sorted, nodes]
  have opened := launch_disguise c d same start
  rcases begin_of_sorted idle sorted with ⟨none, begun⟩ | ⟨some, begun⟩ <;>
    rcases begin_of_sorted idle' sorted' with ⟨none', begun'⟩ | ⟨some', begun'⟩
  · rw [begun, begun', opened]
    exact ⟨rfl, rfl, rfl, rfl, rfl⟩
  · rw [opened] at none
    exact absurd none some'
  · rw [opened] at some
    exact absurd none' some
  · rw [begun, begun', opened]
    exact ⟨rfl, rfl, rfl, rfl, rfl⟩

theorem Alike.begin (alike : c.Alike d) (sound : c.graph.Sound) (sound' : d.graph.Sound) :
    c.begin.1 = d.begin.1 ∧ c.begin.2.Alike d.begin.2 := by
  by_cases idle : c.phase = .idle
  · have idle' : d.phase = .idle := alike.phase ▸ idle
    have same := sound.sorted_eq sound' alike.nodes
    cases sorted : c.graph.sorted.1 with
    | ok start => exact begin_alike_of_sorted alike.nodes idle idle' sorted (same ▸ sorted)
    | error cycle =>
      rw [begin_of_refused idle sorted, begin_of_refused idle' (same ▸ sorted)]
      refine ⟨rfl, ?_, alike.waiting, alike.playing, alike.phase⟩
      simp only [Graph.nodes_sorted, alike.nodes]
  · rw [Conductor.begin, Conductor.begin, if_pos idle, if_pos (alike.phase ▸ idle)]
    exact ⟨rfl, alike⟩

/-- Conductors that are alike decide alike and stay alike. -/
theorem Alike.operate (alike : c.Alike d) (sound : c.graph.Sound) (sound' : d.graph.Sound)
    (operation : Operation) : (c.operate operation).1 = (d.operate operation).1 ∧
      (c.operate operation).2.Alike (d.operate operation).2 := by
  have same := alike.eq_disguise
  cases operation with
  | begin =>
    obtain ⟨decided, next⟩ := alike.begin sound sound'
    rw [operate_begin_eq, operate_begin_eq, decided]
    exact ⟨rfl, next⟩
  | step report =>
    rw [same, Conductor.operate, Conductor.operate, step_disguise]
    exact ⟨rfl, alike_disguise _ _ _⟩
  | cancel =>
    rw [same, Conductor.operate, Conductor.operate, cancelRun_disguise]
    exact ⟨rfl, alike_disguise _ _ _⟩
  | finish =>
    rw [same, Conductor.operate, Conductor.operate, endRun_disguise]
    exact ⟨rfl, alike_disguise _ _ _⟩
  | settle =>
    rw [same, Conductor.operate, Conductor.operate, settle_disguise]
    exact ⟨rfl, alike_disguise _ _ _⟩
  | edit change =>
    rw [same]
    exact ⟨rfl, (nodes_edit_disguise _ _ c change).symm, rfl, rfl, rfl⟩
  | refill =>
    rw [same]
    exact ⟨rfl, alike_disguise _ _ _⟩

theorem Alike.run (alike : c.Alike d) (sound : c.graph.Sound) (sound' : d.graph.Sound)
    (operations : List Operation) : (c.run operations).1 = (d.run operations).1 ∧
      (c.run operations).2.Alike (d.run operations).2 := by
  induction operations generalizing c d with
  | nil => exact ⟨rfl, alike⟩
  | cons operation rest ih =>
    obtain ⟨decided, next⟩ := alike.operate sound sound' operation
    obtain ⟨more, last⟩ := ih next (sound_operate c operation sound)
      (sound_operate d operation sound')
    exact ⟨List.cons_eq_cons.2 ⟨decided, more⟩, last⟩

theorem begin_alike (sound : c.graph.Sound) (sound' : d.graph.Sound)
    (nodes : c.graph.nodes = d.graph.nodes) (acyclic : Graph.Acyclic c.graph.nodes)
    (idle : c.phase = .idle) (idle' : d.phase = .idle) :
    c.begin.1 = d.begin.1 ∧ c.begin.2.Alike d.begin.2 := by
  obtain ⟨start, sorted, -⟩ := sound.sorted_of_acyclic acyclic
  exact begin_alike_of_sorted nodes idle idle' sorted (sound.sorted_eq sound' nodes ▸ sorted)

/-- Whatever went before, a run of an idle conductor and all that follows it depend on nothing but
the nodes of its graph. -/
theorem run_begin_alike (sound : c.graph.Sound) (sound' : d.graph.Sound)
    (nodes : c.graph.nodes = d.graph.nodes) (acyclic : Graph.Acyclic c.graph.nodes)
    (idle : c.phase = .idle) (idle' : d.phase = .idle) (operations : List Operation) :
    (c.run (.begin :: operations)).1 = (d.run (.begin :: operations)).1 ∧
      (c.run (.begin :: operations)).2.Alike (d.run (.begin :: operations)).2 := by
  obtain ⟨decided, begun⟩ := begin_alike sound sound' nodes acyclic idle idle'
  have now : (c.operate .begin).1 = (d.operate .begin).1 ∧
      (c.operate .begin).2.Alike (d.operate .begin).2 := by
    rw [operate_begin_eq, operate_begin_eq, decided]
    exact ⟨rfl, begun⟩
  obtain ⟨more, last⟩ := now.2.run (sound_operate c .begin sound)
    (sound_operate d .begin sound') operations
  exact ⟨List.cons_eq_cons.2 ⟨now.1, more⟩, last⟩

end Conductor

end Choreo
