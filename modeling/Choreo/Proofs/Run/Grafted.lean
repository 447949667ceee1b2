import Choreo.Proofs.Run.Replay
import Choreo.Proofs.Run.Wired

/-!
# Runs whose graph is edited

A run looks at its graph only to find the node of a unit that reports and the units of nodes that
become ready. Both are the same in a graph that has grown meanwhile, as far as they concern nodes of
the run; of nodes that came in later nobody in the run waits to hear. So a run goes on as if nothing
had been edited. What was edited shows when the next run begins, which is that of a conductor that
never did anything else.
-/

namespace Choreo

/-- What may be done to a run once it has begun. -/
def Operation.steers : Operation → Bool
  | .step _ | .cancel | .finish | .settle => true
  | .begin | .edit _ | .refill => false

theorem Graph.nodes_edit_congr {g h : Graph} (nodes : g.nodes = h.nodes) (change : Edit) :
    (g.edit change).nodes = (h.edit change).nodes := by
  have other := Conductor.nodes_edit_disguise h.order 0 { Conductor.fresh with graph := g } change
  obtain ⟨nodes', order⟩ := g
  obtain rfl : nodes' = h.nodes := nodes
  exact other.symm

namespace Conductor

theorem Wired.inside {c : Conductor} (wired : c.Wired) (arena : Arena c.graph.nodes)
    {subscription : Subscription} (member : subscription ∈ c.waiting.subscriptions) :
    subscription.event.node < c.graph.nodes.length ∧
      subscription.dependent < c.graph.nodes.length := by
  have declared : subscription.event ∈ c.graph.dependencies subscription.dependent :=
    List.count_pos_iff.1 ((List.count_pos_iff.2 member).trans_le (wired.declared _ _))
  exact (arena.inside_of_declared declared).symm

section Regraph

variable {c : Conductor} {graph : Graph} (wired : c.Wired) (sound : c.graph.Sound)
  (grown : c.graph.Extends graph) (sound' : graph.Sound)

include wired sound grown in
theorem starting_regraph (event : Lifecycle) (node : Nat) :
    { c with graph }.starting event node = c.starting event node := by
  simp only [starting]
  split
  · apply List.filterMap_congr
    intro place ready
    obtain ⟨⟨subscription, member, rfl⟩, -⟩ := wired.ready event node ready
    obtain ⟨unit, named⟩ := Graph.unit?_of_lt (wired.inside sound.arena member).2
    rw [named, grown.unit? named]
  · rfl

include wired sound grown sound' in
theorem step_regraph_of_new {report : Report}
    {node : Nat} (active : c.phase ≠ .idle) (absent : c.graph.nodeFor? report.unit = none)
    (found : graph.nodeFor? report.unit = some node) :
    { c with graph }.step report = (.nothing, { c with graph }) := by
  have outside : c.graph.nodes.length ≤ node := by
    by_contra inside
    obtain ⟨unit, named⟩ := Graph.unit?_of_lt (Nat.lt_of_not_le inside)
    have same := (grown.unit? named).symm.trans ((Graph.nodeFor?_eq_some sound'.arena).1 found)
    rw [Option.some.inj same] at named
    rw [(Graph.nodeFor?_eq_some sound.arena).2 named] at absent
    cases absent
  have unheard : c.waiting.hear report.event node = ([], c.waiting) := by
    refine Waiting.hear_of_unheard fun subscription member here => ?_
    have inside := (wired.inside sound.arena member).1
    omega
  have nobody : { c with graph }.starting report.event node = [] := by
    simp only [starting, unheard]
    split <;> rfl
  have gone : report.unit ∉ c.playing.units := by
    intro plays
    obtain ⟨place, here⟩ := (wired.playing _ plays).found sound.arena
    rw [absent] at here
    cases here
  have several : ¬ (report.event = .ended ∧ c.playing.units = [report.unit]) := by
    rintro ⟨-, only⟩
    exact gone (by simp [only])
  have stay : report.without c.playing.units = c.playing.units := by
    rw [Report.without, List.erase_of_not_mem gone, ite_self]
  have step := (wired.regraph grown).step_eq sound'.arena active found
  simp only [nobody, List.append_nil] at step
  rw [step, if_neg several, stay, unheard]
  rfl

include wired sound grown sound' in
theorem step_regraph (report : Report) :
    { c with graph }.step report = ((c.step report).1, { (c.step report).2 with graph }) := by
  by_cases idle : c.phase = .idle
  · rw [step_of_idle report idle, step_of_idle report (by exact idle)]
  cases found : c.graph.nodeFor? report.unit with
  | none =>
    rw [step_of_absent found]
    cases later : graph.nodeFor? report.unit with
    | none => rw [step_of_absent (by exact later)]
    | some node => exact step_regraph_of_new wired sound grown sound' idle found later
  | some node =>
    have found' : graph.nodeFor? report.unit = some node := by
      rw [Graph.nodeFor?_eq_some sound.arena] at found
      exact (Graph.nodeFor?_eq_some sound'.arena).2 (grown.unit? found)
    rw [wired.step_eq sound.arena idle found,
      (wired.regraph grown).step_eq sound'.arena idle found', starting_regraph wired sound grown]
    split <;> rfl

include wired sound grown sound' in
/-- Whatever is done to a run, it goes on as if the graph had not grown. -/
theorem operate_regraph {operation : Operation} (steers : operation.steers = true) :
    { c with graph }.operate operation =
      ((c.operate operation).1, { (c.operate operation).2 with graph }) := by
  cases operation with
  | step report => exact step_regraph wired sound grown sound' report
  | cancel =>
    simp only [operate, cancelRun]
    split <;> rfl
  | finish =>
    simp only [operate, endRun]
    split <;> rfl
  | settle =>
    simp only [operate, settle]
    split <;> rfl
  | begin | edit change | refill => cases steers

end Regraph

theorem graph_steered {operation : Operation} (steers : operation.steers = true) (c : Conductor) :
    (c.operate operation).2.graph = c.graph := by
  cases operation with
  | step report => exact graph_step c report
  | cancel => exact graph_cancelRun c
  | finish => exact graph_endRun c
  | settle => exact graph_settle c
  | begin | edit change | refill => cases steers

theorem run_regraph {c : Conductor} (wired : c.Wired) (sound : c.graph.Sound) {graph : Graph}
    (grown : c.graph.Extends graph) (sound' : graph.Sound) {history : List Operation}
    (steers : ∀ operation ∈ history, operation.steers = true) :
    { c with graph }.run history = ((c.run history).1, { (c.run history).2 with graph }) := by
  induction history generalizing c with
  | nil => rfl
  | cons operation rest ih =>
    have first := steers operation (List.mem_cons_self ..)
    have same := graph_steered first c
    rw [run, operate_regraph wired sound grown sound' first]
    simp only
    rw [ih (wired.operate sound operation) (sound_operate c operation sound) (same ▸ grown)
      fun other member => steers other (List.mem_cons_of_mem _ member)]
    rfl

theorem run_edits (c : Conductor) (changes : List Edit) :
    c.run (changes.map .edit) =
      (changes.map fun _ => .nothing, { c with graph := changes.foldl Graph.edit c.graph }) := by
  induction changes generalizing c with
  | nil => rfl
  | cons change rest ih =>
    rw [List.map_cons, run, operate, ih]
    rfl

/-! ### The next run -/

theorem operate_of_idle {c : Conductor} (idle : c.phase = .idle) {operation : Operation}
    (steers : operation.steers = true) : c.operate operation = (.nothing, c) := by
  cases operation with
  | step report => exact step_of_idle report idle
  | cancel => simp [operate, cancelRun, idle]
  | finish => simp [operate, endRun, idle]
  | settle => simp [operate, settle, idle]
  | begin | edit change | refill => cases steers

/-- Idle conductors of the same nodes. What was left pending by the runs before may differ. -/
structure Level (c d : Conductor) : Prop where
  nodes : c.graph.nodes = d.graph.nodes
  idle : c.phase = .idle
  idle' : d.phase = .idle
  playing : c.playing = d.playing
  subscriptions : c.waiting.subscriptions = d.waiting.subscriptions
  blocked : c.waiting.blocked = d.waiting.blocked

/-- Idle conductors decide alike whatever their runs before were, and stay so until a run begins. -/
theorem Level.operate {c d : Conductor} (level : c.Level d) (sound : c.graph.Sound)
    (sound' : d.graph.Sound) (operation : Operation) :
    (c.operate operation).1 = (d.operate operation).1 ∧
      ((c.operate operation).2.Alike (d.operate operation).2 ∨
        (c.operate operation).2.Level (d.operate operation).2) := by
  obtain ⟨nodes, idle, idle', playing, subscriptions, blocked⟩ := level
  cases operation with
  | begin =>
    rw [operate_begin_eq, operate_begin_eq]
    have same := sound.sorted_eq sound' nodes
    cases sorted : c.graph.sorted.1 with
    | ok start =>
      obtain ⟨decided, next⟩ := begin_alike_of_sorted nodes idle idle' sorted (same ▸ sorted)
      exact ⟨by rw [decided], .inl next⟩
    | error cycle =>
      rw [begin_of_refused idle sorted, begin_of_refused idle' (same ▸ sorted)]
      refine ⟨rfl, .inr ⟨?_, idle, idle', playing, subscriptions, blocked⟩⟩
      simp only [Graph.nodes_sorted, nodes]
  | edit change =>
    exact ⟨rfl,
      .inr ⟨Graph.nodes_edit_congr nodes change, idle, idle', playing, subscriptions, blocked⟩⟩
  | refill => exact ⟨rfl, .inr ⟨nodes, idle, idle', playing, subscriptions, blocked⟩⟩
  | step | cancel | finish | settle =>
    rw [operate_of_idle idle rfl, operate_of_idle idle' rfl]
    exact ⟨rfl, .inr ⟨nodes, idle, idle', playing, subscriptions, blocked⟩⟩

theorem Level.run {c d : Conductor} (level : c.Level d)
    (sound : c.graph.Sound) (sound' : d.graph.Sound) (operations : List Operation) :
    (c.run operations).1 = (d.run operations).1 ∧
      ((c.run operations).2.Alike (d.run operations).2 ∨
        (c.run operations).2.Level (d.run operations).2) := by
  induction operations generalizing c d with
  | nil => exact ⟨rfl, .inr level⟩
  | cons operation rest ih =>
    obtain ⟨decided, alike | level⟩ := level.operate sound sound' operation
    · obtain ⟨more, last⟩ := alike.run (sound_operate c operation sound)
        (sound_operate d operation sound') rest
      exact ⟨List.cons_eq_cons.2 ⟨decided, more⟩, .inl last⟩
    · obtain ⟨more, last⟩ := ih level (sound_operate c operation sound)
        (sound_operate d operation sound')
      exact ⟨List.cons_eq_cons.2 ⟨decided, more⟩, last⟩

/-- The conductor of a graph that has never begun a run. -/
def onceFresh (graph : Graph) : Conductor := { fresh with graph }

theorem Coherent.level_fresh {c : Conductor} (coherent : c.Coherent) (idle : c.phase = .idle) :
    c.Level (onceFresh c.graph) := by
  obtain ⟨nobody, none, unblocked⟩ := coherent.idle idle
  exact ⟨rfl, idle, rfl, congrArg Playing.mk nobody, none, unblocked⟩

/-- A run is refused exactly when the nodes wait for one another in a circle. -/
theorem begin_refused_iff {c : Conductor} (sound : c.graph.Sound) (idle : c.phase = .idle) :
    (∃ cycle, c.begin.1 = .error cycle) ↔ ¬ Graph.Acyclic c.graph.nodes := by
  constructor
  · rintro ⟨cycle, refused⟩ acyclic
    obtain ⟨decision, next, begun⟩ := begin_of_acyclic sound acyclic
    rw [begun] at refused
    cases refused
  · intro cyclic
    obtain ⟨cycle, refused, -⟩ := sound.sorted_of_cyclic cyclic
    exact ⟨cycle, by rw [begin_of_refused idle refused]⟩

theorem begin_eq_of_nodes {c d : Conductor} (sound : c.graph.Sound) (sound' : d.graph.Sound)
    (nodes : c.graph.nodes = d.graph.nodes) (idle : c.phase = .idle) (idle' : d.phase = .idle) :
    c.begin.1 = d.begin.1 := by
  have same := sound.sorted_eq sound' nodes
  cases sorted : c.graph.sorted.1 with
  | ok start => exact (begin_alike_of_sorted nodes idle idle' sorted (same ▸ sorted)).1
  | error cycle => rw [begin_of_refused idle sorted, begin_of_refused idle' (same ▸ sorted)]

end Conductor

end Choreo
