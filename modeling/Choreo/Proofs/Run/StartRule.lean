import Choreo.Proofs.Run.History

/-!
# When a node starts

The nodes that wait for nothing start when the run begins. Every other node starts with the first
report after which everything it waits for was met, and never again, whatever is reported in
whatever order. What is pending and what is blocked can be told from the reports at any time.
-/

namespace Choreo

/-- Operations that a run only takes notice of: reports and edits. -/
def Operation.passive : Operation → Bool
  | .step _ | .edit _ => true
  | _ => false

/-- What was reported in the course of a history. -/
def heard (history : List Operation) : List Report :=
  history.filterMap fun
    | .step report => some report
    | _ => none

theorem heard_steps (reports : List Report) : heard (reports.map .step) = reports := by
  simp [heard, List.filterMap_map]

theorem passive_steps (reports : List Report) :
    ∀ operation ∈ reports.map Operation.step, operation.passive = true := by
  simp [Operation.passive]

namespace Conductor

theorem running_of_passive {operation : Operation} (passive : operation.passive = true)
    {conductor : Conductor} (h : (conductor.operate operation).2.phase = .running) :
    conductor.phase = .running := by
  cases operation with
  | step report =>
    by_cases idle : conductor.phase = .idle
    · rw [operate, step_of_idle report idle] at h
      exact h
    cases found : conductor.graph.nodeFor? report.unit with
    | none =>
      rw [operate, step_of_absent found] at h
      exact h
    | some node =>
      rw [operate, step_eq idle found] at h
      split at h
      · rw [leave_of_running h] at h
        simpa using h
      · simpa using h
  | edit change => exact h
  | begin | cancel | finish | settle | refill => cases passive

theorem roots_eq (graph : Graph) {order : List Nat} (ordering : Graph.Ordering graph.nodes order) :
    roots graph.nodes order = order.filter (graph.ready []) := by
  apply List.filter_congr
  intro node member
  have inside := (ordering.mem_iff node).1 member
  apply Bool.eq_iff_iff.2
  rw [Graph.ready_nil]
  simp [Graph.dependencies, inside, Node.isRoot]

/-- A run starts with what waits for nothing, and nothing is known of it yet. -/
theorem tracks_begin {conductor opened : Conductor} {decision : Decision}
    (sound : conductor.graph.Sound) (idle : conductor.phase = .idle)
    (begun : conductor.begin = (.ok decision, opened)) (running : opened.phase = .running) :
    ∃ order, Graph.Ordering opened.graph.nodes order ∧ Tracks opened.graph order [] opened ∧
      decision.started = opened.graph.units (order.filter (opened.graph.ready [])) ∧
      opened.playing.units = opened.graph.units (order.filter (opened.graph.ready [])) := by
  rcases begin_cases conductor with ⟨active, -⟩ | ⟨cycle, -, -, refused⟩ |
    ⟨order, start, -, sorted, rfl, ⟨-, same⟩ | ⟨-, same⟩⟩
  · exact absurd idle active
  · rw [begun] at refused
    cases refused
  · rw [begun] at same
    cases same
    cases running
  · rw [begun] at same
    obtain ⟨result, rfl⟩ := Prod.mk.inj same
    have ordering : Graph.Ordering conductor.graph.sorted.2.nodes order := by
      simpa using sound.ordering sorted
    have first := roots_eq conductor.graph.sorted.2 ordering
    refine ⟨order, ordering, ⟨rfl, sound.sorted, List.prefix_rfl, ?_, ?_, ?_⟩, ?_, ?_⟩
    · constructor
      · intro node
        have all :
            (launch order { conductor with graph := conductor.graph.sorted.2 }).waiting.pendingOf
            node = conductor.graph.sorted.2.dependencies node := by
          simp [launch, Waiting.pendingOf, Graph.dependencies]
        rw [all]
        exact (List.filter_eq_self.2 fun d _ => Graph.live_nil _ d).symm
      · exact (List.filter_eq_self.2 fun subscription _ =>
          Graph.live_nil conductor.graph.sorted.2 subscription.event).symm
    · intro node
      have none : ∀ d, conductor.graph.sorted.2.dead [] d = false := fun d => rfl
      simp [launch, Waiting.isBlocked, none]
    · intro unit plays
      simp only [launch, first] at plays
      obtain ⟨node, member, named⟩ := List.mem_filterMap.1 plays
      exact ⟨node, named, (List.mem_filter.1 member).2⟩
    · obtain rfl := Except.ok.inj result
      rw [started_announcing]
      simp only [launch, first]
    · simp only [launch, first]

theorem running_of_run {history : List Operation} {conductor : Conductor}
    (passive : ∀ operation ∈ history, operation.passive = true)
    (running : (conductor.run history).2.phase = .running) : conductor.phase = .running := by
  induction history generalizing conductor with
  | nil => exact running
  | cons operation rest ih =>
    have next := ih (fun op member => passive op (List.mem_cons_of_mem _ member)) running
    exact running_of_passive (passive operation (List.mem_cons_self ..)) next

variable {base : Graph} {order : List Nat} {opened : Conductor}

/-- As long as a run goes on, it is known what it does next. -/
theorem Tracks.run (tracks : Tracks base order [] opened) (arena : Arena base.nodes)
    (ordering : Graph.Ordering base.nodes order) {history : List Operation}
    (passive : ∀ operation ∈ history, operation.passive = true)
    (running : (opened.run history).2.phase = .running) :
    Tracks base order (heard history) (opened.run history).2 := by
  induction history using List.reverseRecOn with
  | nil => exact tracks
  | append_singleton history operation ih =>
    have last := passive operation (by simp)
    rw [run_concat] at running ⊢
    have earlier := ih (fun op member => passive op (List.mem_append_left _ member))
      (running_of_passive last running)
    cases operation with
    | step report =>
      have more : heard (history ++ [.step report]) = heard history ++ [report] := by simp [heard]
      rw [more]
      exact earlier.step arena ordering running
    | edit change =>
      have same : heard (history ++ [.edit change]) = heard history := by simp [heard]
      rw [same]
      exact earlier.edit change
    | begin | cancel | finish | settle | refill => cases last

theorem mem_units (arena : Arena base.nodes) (ordering : Graph.Ordering base.nodes order)
    (starting : Nat → Bool) {node : Nat} {unit : UnitId} (named : base.unit? node = some unit) :
    unit ∈ base.units (order.filter starting) ↔ starting node = true := by
  constructor
  · intro starts
    obtain ⟨other, listed, same⟩ := List.mem_filterMap.1 starts
    rw [Graph.unit?_inj arena named same]
    exact (List.mem_filter.1 listed).2
  · intro now
    obtain ⟨found, hfound, -⟩ := Graph.unit?_eq_some.1 named
    have inside := (ordering.mem_iff node).2 (List.getElem?_eq_some_iff.1 hfound).1
    exact List.mem_filterMap.2 ⟨node, List.mem_filter.2 ⟨inside, now⟩, named⟩

theorem count_units (arena : Arena base.nodes) (ordering : Graph.Ordering base.nodes order)
    (starting : Nat → Bool) {node : Nat} {unit : UnitId} (named : base.unit? node = some unit) :
    (base.units (order.filter starting)).count unit = if starting node then 1 else 0 := by
  rw [(nodup_units arena (ordering.nodup.filter _)).count,
    if_congr (mem_units arena ordering starting named) rfl rfl]

/-- How often a unit was told to start by these decisions. -/
def startsOf (unit : UnitId) (decisions : List Decision) : Nat :=
  (decisions.flatMap Decision.started).count unit

theorem startsOf_append (unit : UnitId) (first second : List Decision) :
    startsOf unit (first ++ second) = startsOf unit first + startsOf unit second := by
  simp [startsOf]

theorem ready_append {node : Nat} {reports : List Report} (h : base.ready reports node = true)
    (more : List Report) : base.ready (reports ++ more) node = true := by
  induction more using List.reverseRecOn with
  | nil => simpa using h
  | append_singleton more report ih =>
    rw [← List.append_assoc]
    exact ready_mono base report ih

theorem ready_of_nil {node : Nat} (reports : List Report) (h : base.ready [] node = true) :
    base.ready reports node = true := ready_append h reports

theorem startsOf_begin (arena : Arena base.nodes) (ordering : Graph.Ordering base.nodes order)
    {decision : Decision} (starts : decision.started = base.units (order.filter (base.ready [])))
    {node : Nat} {unit : UnitId} (named : base.unit? node = some unit) :
    startsOf unit [decision] = if base.ready [] node then 1 else 0 := by
  simp only [startsOf, List.flatMap_cons, List.flatMap_nil, List.append_nil, starts]
  exact count_units arena ordering _ named

/-- What was ready before a report was started before it, what it makes ready starts with it. -/
theorem Tracks.startsOf_step {reports : List Report} {conductor : Conductor}
    (tracks : Tracks base order reports conductor) (arena : Arena base.nodes)
    (ordering : Graph.Ordering base.nodes order) {node : Nat} {unit : UnitId}
    (named : base.unit? node = some unit) {earlier : List Decision}
    (before : startsOf unit earlier =
      if base.ready reports node && !base.ready [] node then 1 else 0) (report : Report) :
    startsOf unit (earlier ++ [(conductor.step report).1]) =
      if base.ready (reports ++ [report]) node && !base.ready [] node then 1 else 0 := by
  have now : startsOf unit [(conductor.step report).1] =
      if base.ready (reports ++ [report]) node && !base.ready reports node then 1 else 0 := by
    simp only [startsOf, List.flatMap_cons, List.flatMap_nil, List.append_nil]
    rw [tracks.started_step arena ordering]
    exact count_units arena ordering _ named
  rw [startsOf_append, before, now]
  cases first : base.ready [] node with
  | true =>
    have ready := ready_of_nil reports first
    simp [ready]
  | false =>
    cases ready : base.ready reports node with
    | true => simp [ready_mono base report ready]
    | false => simp

theorem Tracks.startsOf_run (tracks : Tracks base order [] opened) (arena : Arena base.nodes)
    (ordering : Graph.Ordering base.nodes order) {history : List Operation}
    (passive : ∀ operation ∈ history, operation.passive = true)
    (running : (opened.run history).2.phase = .running) {node : Nat} {unit : UnitId}
    (named : base.unit? node = some unit) :
    startsOf unit (opened.run history).1 =
      if base.ready (heard history) node && !base.ready [] node then 1 else 0 := by
  induction history using List.reverseRecOn with
  | nil => cases h : base.ready [] node <;> simp [heard, Conductor.run, startsOf, h]
  | append_singleton history operation ih =>
    have before : ∀ op ∈ history, op.passive = true := fun op member =>
      passive op (List.mem_append_left _ member)
    have last := passive operation (by simp)
    rw [run_concat] at running ⊢
    have went := running_of_passive last running
    have started := ih before went
    cases operation with
    | step report =>
      have more : heard (history ++ [.step report]) = heard history ++ [report] := by simp [heard]
      rw [more]
      exact (tracks.run arena ordering before went).startsOf_step arena ordering named
        started report
    | edit change =>
      have same : heard (history ++ [.edit change]) = heard history := by simp [heard]
      have nothing : startsOf unit [((opened.run history).2.operate (.edit change)).1] = 0 := by
        simp [operate, startsOf, Decision.nothing, Decision.started]
      rw [same, startsOf_append, nothing, started, Nat.add_zero]
    | begin | cancel | finish | settle | refill => cases last

theorem startsOf_whole {reports : List Report}
    {node : Nat} {unit : UnitId} {decision : Decision} {later : List Decision}
    (begins : startsOf unit [decision] = if base.ready [] node then 1 else 0)
    (counted : startsOf unit later =
      if base.ready reports node && !base.ready [] node then 1 else 0) :
    startsOf unit (decision :: later) = if base.ready reports node then 1 else 0 := by
  rw [← List.singleton_append, startsOf_append, begins, counted]
  cases first : base.ready [] node with
  | true => simp [ready_of_nil reports first]
  | false => simp

/-- In a run that goes on, whatever was reported, a node is blocked if a dependency of it is dead,
and pending is what is neither met nor dead; with the next report the nodes start that wait for
something and are ready now for the first time, and none of them more than once in the run. -/
theorem start_rule {conductor opened : Conductor} {decision : Decision}
    (reached : conductor.Reachable) (idle : conductor.phase = .idle)
    (begun : conductor.begin = (.ok decision, opened)) (earlier : List Report)
    (running : (opened.run (earlier.map .step)).2.phase = .running) :
    let graph := opened.graph
    let now := (opened.run (earlier.map .step)).2
    (∀ (node : Nat) (unit : UnitId), graph.unit? node = some unit → ∀ report : Report,
      let later := (opened.run ((earlier ++ [report]).map .step)).1
      (unit ∈ (now.step report).1.started ↔ graph.dependencies node ≠ [] ∧
        graph.ready (earlier ++ [report]) node = true ∧
        ∀ past, past <+: earlier → graph.ready past node = false) ∧
      startsOf unit (decision :: later) ≤ 1 ∧
      (graph.dependencies node = [] → startsOf unit later = 0)) ∧
    (∀ node, now.waiting.isBlocked node = true ↔
      ∃ d ∈ graph.dependencies node, graph.dead earlier d = true) ∧
    ∀ node, now.waiting.pendingOf node =
      (graph.dependencies node).filter fun d => !graph.met earlier d && !graph.dead earlier d := by
  intro graph now
  have opens := running_of_run (passive_steps earlier) running
  obtain ⟨order, ordering, first, starts, -⟩ := tracks_begin reached.sound idle begun opens
  have arena : Arena graph.nodes := first.sound.arena
  have tracks := first.run arena ordering (passive_steps earlier) running
  rw [heard_steps] at tracks
  refine ⟨fun node unit named report => ?_, tracks.blocked, tracks.mirrors.pendingOf⟩
  have counted : startsOf unit (opened.run ((earlier ++ [report]).map .step)).1 =
      if graph.ready (earlier ++ [report]) node && !graph.ready [] node then 1 else 0 := by
    have before := first.startsOf_run arena ordering (passive_steps earlier) running named
    rw [heard_steps] at before
    rw [List.map_append, List.map_singleton, run_concat]
    exact tracks.startsOf_step arena ordering named before report
  have begins := startsOf_begin arena ordering starts named
  intro later
  refine ⟨?_, ?_, fun root => ?_⟩
  · rw [tracks.started_step arena ordering, upcoming, mem_units arena ordering _ named,
      Bool.and_eq_true, Bool.not_eq_true']
    constructor
    · rintro ⟨ready, before⟩
      refine ⟨fun root => ?_, ready, fun past => ?_⟩
      · rw [ready_of_nil earlier ((Graph.ready_nil graph node).2 root)] at before
        cases before
      · rintro ⟨more, rfl⟩
        rw [← Bool.not_eq_true] at before ⊢
        exact fun already => before (ready_append already more)
    · rintro ⟨-, ready, before⟩
      exact ⟨ready, before earlier List.prefix_rfl⟩
  · rw [startsOf_whole begins counted]
    split <;> omega
  · refine counted.trans ?_
    simp [(Graph.ready_nil graph node).2 root]

def pair : Conductor :=
  (fresh.run [.edit (.place ⟨0, 0⟩), .edit (.place ⟨0, 1⟩), .edit (.depend 1 ⟨0, .onEnd⟩)]).2

theorem begin_pair : pair.begin =
    (.ok ⟨[.call .start ⟨0, 0⟩, .announce .started], false⟩, pair.begin.2) :=
  Prod.ext (by decide +kernel) rfl

theorem reachable_pair : pair.Reachable := ⟨_, rfl⟩

theorem start_rule_pair :
    let now := (pair.begin.2.run [.step ⟨⟨0, 0⟩, .started⟩]).2
    now.phase = .running ∧ ⟨0, 1⟩ ∈ (now.step ⟨⟨0, 0⟩, .ended⟩).1.started := by
  have running : (pair.begin.2.run [.step ⟨⟨0, 0⟩, .started⟩]).2.phase = .running := by
    decide +kernel
  have rule := start_rule reachable_pair rfl begin_pair [⟨⟨0, 0⟩, .started⟩] running
  refine ⟨running, (rule.1 1 ⟨0, 1⟩ (by decide +kernel) ⟨⟨0, 0⟩, .ended⟩).1.2 ?_⟩
  refine ⟨by decide +kernel, by decide +kernel, fun past earlier => ?_⟩
  rcases List.prefix_cons_iff.1 earlier with rfl | ⟨rest, rfl, none⟩
  · decide +kernel
  · rw [List.prefix_nil.1 none]
    decide +kernel

end Conductor

end Choreo
