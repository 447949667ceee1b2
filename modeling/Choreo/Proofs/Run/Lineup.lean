import Choreo.Proofs.Run.Wired

/-!
# Who starts first

The subscriptions of a run are entered node by node in the order of start, and all that happens to
them later is that some are used up. So those that one event uses up name their nodes in this order,
a node that waits for the event several times at several places in a row. A node becomes ready with
the last of its entries, thus at most once, and what one step starts is part of the order of start.
-/

namespace Choreo

theorem sublist_of_repeated {times : Nat → Nat} {places order : List Nat} (distinct : places.Nodup)
    (within : places.Sublist (order.flatMap fun place => List.replicate (times place) place)) :
    places.Sublist order := by
  induction order generalizing places with
  | nil => exact within
  | cons place order ih =>
    rw [List.flatMap_cons] at within
    obtain ⟨here, later, rfl, repeated, rest⟩ := List.sublist_append_iff.1 within
    obtain ⟨distinct, distinct', -⟩ := List.nodup_append.1 distinct
    obtain ⟨count, -, rfl⟩ := List.sublist_replicate_iff.1 repeated
    have once : (List.replicate count place).Sublist [place] :=
      List.replicate_sublist_replicate place |>.2 (List.nodup_replicate.1 distinct)
    exact once.append (ih distinct' rest)

namespace Waiting

theorem release_sublist (event : Dependency) (nodes : List Nat) (waiting : Waiting) :
    (release event nodes waiting).1.Sublist nodes := by
  induction nodes generalizing waiting with
  | nil => exact .refl _
  | cons node nodes ih =>
    rw [release]
    split
    · simp only
      split
      · exact (ih _).cons_cons node
      · exact (ih _).cons node
    · exact (ih _).cons node

theorem subscribers_sublist {base : Graph} {order : List Nat} {waiting : Waiting}
    (wired : waiting.subscriptions.Sublist (Conductor.wiring base order)) (event : Dependency) :
    (waiting.subscribers event).Sublist (order.flatMap fun node =>
      List.replicate ((base.dependencies node).count event) node) := by
  have all : ((Conductor.wiring base order).filter fun s => s.event == event).map
      Subscription.dependent =
      order.flatMap fun node => List.replicate ((base.dependencies node).count event) node := by
    simp only [Conductor.wiring, List.filter_flatMap, List.map_flatMap]
    congr 1
    funext node
    rw [List.count_eq_length_filter, List.filter_map, List.map_map]
    simp only [List.map_const', Function.comp_def]
  rw [← all]
  exact (wired.filter _).map _

theorem hear_sublist {base : Graph} {order : List Nat} {waiting : Waiting}
    (wired : waiting.subscriptions.Sublist (Conductor.wiring base order)) (event : Lifecycle)
    (node : Nat) :
    (waiting.hear event node).1.Sublist order := by
  have distinct := (noted_hear event node waiting).distinct
  cases event with
  | started | ended =>
    exact sublist_of_repeated distinct ((release_sublist _ _ _).trans (subscribers_sublist wired _))
  | canceled | repeated => exact List.nil_sublist _

end Waiting

namespace Conductor

/-- A run began with this graph and this order: its nodes have kept their places since, and what is
left of the wiring stands in this order. -/
structure LinedUp (base : Graph) (order : List Nat) (conductor : Conductor) : Prop where
  ordering : Graph.Ordering base.nodes order
  extended : base.Extends conductor.graph
  wired : conductor.waiting.subscriptions.Sublist (wiring base order)

namespace LinedUp

variable {base : Graph} {order : List Nat} {conductor : Conductor}

theorem units (lined : LinedUp base order conductor) :
    conductor.graph.units order = base.units order := by
  refine List.filterMap_congr fun node member => ?_
  obtain ⟨unit, here⟩ := Graph.unit?_of_lt ((lined.ordering.mem_iff node).1 member)
  rw [here, lined.extended.unit? here]

theorem starting (lined : LinedUp base order conductor) (event : Lifecycle) (node : Nat) :
    (conductor.starting event node).Sublist (base.units order) := by
  rw [Conductor.starting]
  split
  · rw [← lined.units]
    exact (Waiting.hear_sublist lined.wired event node).filterMap _
  · exact List.nil_sublist _

theorem step (lined : LinedUp base order conductor) (reached : conductor.Reachable)
    (report : Report) :
    LinedUp base order (conductor.step report).2 ∧
      (conductor.step report).1.started.Sublist (base.units order) := by
  by_cases idle : conductor.phase = .idle
  · rw [step_of_idle report idle]
    exact ⟨lined, List.nil_sublist _⟩
  cases found : conductor.graph.nodeFor? report.unit with
  | none =>
    rw [step_of_absent found]
    exact ⟨lined, List.nil_sublist _⟩
  | some node =>
    rw [reached.wired.step_eq reached.sound.arena idle found]
    split
    · rw [started_announcing]
      exact ⟨⟨lined.ordering, lined.extended, List.nil_sublist _⟩, lined.starting report.event node⟩
    · rw [started_calls]
      refine ⟨⟨lined.ordering, lined.extended, ?_⟩, lined.starting report.event node⟩
      exact (subscriptions_hear_sublist report.event node conductor.waiting).trans lined.wired

end LinedUp

theorem runs_leave (unit : UnitId) (begun : List Command × Conductor) :
    (leave unit begun).2.runs = begun.2.runs := by
  simp only [leave]
  split <;> rfl

theorem runs_step (report : Report) (conductor : Conductor) :
    (conductor.step report).2.runs = conductor.runs := by
  by_cases idle : conductor.phase = .idle
  · rw [step_of_idle report idle]
  cases found : conductor.graph.nodeFor? report.unit with
  | none => rw [step_of_absent found]
  | some node =>
    rw [step_eq idle found]
    split
    · rw [runs_leave, runs_absorb]
    · rw [runs_absorb]

theorem runs_operate_le (operation : Operation) (conductor : Conductor) :
    conductor.runs ≤ (conductor.operate operation).2.runs := by
  cases operation with
  | begin =>
    rw [operate_begin]
    rcases begin_cases conductor with ⟨-, begun⟩ | ⟨cycle, -, -, begun⟩ |
      ⟨order, opened, -, -, rfl, ⟨-, begun⟩ | ⟨-, begun⟩⟩
    all_goals rw [begun]
    · exact Nat.le_succ _
    · exact Nat.le_succ _
  | step report => exact Nat.le_of_eq (runs_step report conductor).symm
  | cancel | finish | settle =>
    simp only [Conductor.operate, cancelRun, endRun, settle]
    split <;> exact Nat.le_refl _
  | edit change | refill => exact Nat.le_refl _

theorem runs_run_le (history : List Operation) (conductor : Conductor) :
    conductor.runs ≤ (conductor.run history).2.runs :=
  run_induction (P := fun c => conductor.runs ≤ c.runs)
    (fun operation c earlier => earlier.trans (runs_operate_le operation c)) (Nat.le_refl _) history

/-- Unless it begins another run, whatever is done keeps the order, and what it starts is part of
that. -/
theorem LinedUp.operate {base : Graph} {order : List Nat} {conductor : Conductor}
    (lined : LinedUp base order conductor) (reached : conductor.Reachable) {operation : Operation}
    (same : (conductor.operate operation).2.runs = conductor.runs) :
    LinedUp base order (conductor.operate operation).2 ∧
      (conductor.operate operation).1.started.Sublist (base.units order) := by
  cases operation with
  | begin =>
    rw [operate_begin_eq] at same ⊢
    rcases begin_cases conductor with ⟨-, begun⟩ | ⟨cycle, -, -, begun⟩ |
      ⟨order, opened, -, -, rfl, ⟨-, begun⟩ | ⟨-, begun⟩⟩
    all_goals rw [begun] at same ⊢
    · exact ⟨lined, List.nil_sublist _⟩
    · exact ⟨⟨lined.ordering, lined.extended.trans (Graph.extends_edit _ .sort), lined.wired⟩,
        List.nil_sublist _⟩
    · exact absurd same (Nat.succ_ne_self _)
    · exact absurd same (Nat.succ_ne_self _)
  | step report => exact lined.step reached report
  | cancel =>
    rw [Conductor.operate, started_cancelRun, cancelRun]
    split
    · exact ⟨⟨lined.ordering, lined.extended, lined.wired⟩, List.nil_sublist _⟩
    · exact ⟨lined, List.nil_sublist _⟩
  | finish =>
    rw [Conductor.operate, started_endRun, endRun]
    split
    · exact ⟨⟨lined.ordering, lined.extended, lined.wired⟩, List.nil_sublist _⟩
    · exact ⟨lined, List.nil_sublist _⟩
  | settle =>
    simp only [Conductor.operate, settle]
    split
    · exact ⟨⟨lined.ordering, lined.extended, List.nil_sublist _⟩, List.nil_sublist _⟩
    · exact ⟨⟨lined.ordering, lined.extended, List.nil_sublist _⟩, List.nil_sublist _⟩
    · exact ⟨lined, List.nil_sublist _⟩
    · exact ⟨lined, List.nil_sublist _⟩
  | edit change =>
    have extended := lined.extended.trans (Graph.extends_edit _ change)
    exact ⟨⟨lined.ordering, extended, lined.wired⟩, List.nil_sublist _⟩
  | refill => exact ⟨⟨lined.ordering, lined.extended, lined.wired⟩, List.nil_sublist _⟩

/-- A run that begins is lined up by the order that the graph gives, and starts with a part of
that. -/
theorem linedUp_begin {conductor opened : Conductor} {decision : Decision}
    (sound : conductor.graph.Sound) (idle : conductor.phase = .idle)
    (begun : conductor.begin = (.ok decision, opened)) :
    ∃ order, conductor.graph.sorted.1 = .ok order ∧ LinedUp opened.graph order opened ∧
      decision.started.Sublist (opened.graph.units order) := by
  rcases begin_cases conductor with ⟨active, -⟩ | ⟨cycle, -, -, refused⟩ |
    ⟨order, start, -, sorted, rfl, either⟩
  · exact absurd idle active
  · rw [begun] at refused
    cases refused
  · have ordering : Graph.Ordering conductor.graph.sorted.2.nodes order := by
      simpa using sound.ordering sorted
    rcases either with ⟨none, same⟩ | ⟨-, same⟩
    · obtain ⟨result, rfl⟩ := Prod.mk.inj (begun.symm.trans same)
      obtain rfl := Except.ok.inj result
      exact ⟨order, sorted, ⟨ordering, .refl _, List.nil_sublist _⟩, List.nil_sublist _⟩
    · obtain ⟨result, rfl⟩ := Prod.mk.inj (begun.symm.trans same)
      obtain rfl := Except.ok.inj result
      refine ⟨order, sorted, ⟨ordering, .refl _, .refl _⟩, ?_⟩
      rw [started_announcing]
      exact List.filter_sublist.filterMap _

theorem LinedUp.run {base : Graph} {order : List Nat}
    {opened : Conductor} (lined : LinedUp base order opened) (reached : opened.Reachable)
    {history : List Operation} (same : (opened.run history).2.runs = opened.runs) :
    LinedUp base order (opened.run history).2 := by
  induction history using List.reverseRecOn with
  | nil => exact lined
  | append_singleton history operation ih =>
    rw [run_concat] at same ⊢
    have before := runs_run_le history opened
    have now := runs_operate_le operation (opened.run history).2
    have kept : (opened.run history).2.runs = opened.runs := by
      simp only at same
      omega
    exact ((ih kept).operate (reached.run history) (same.trans kept.symm)).1

/-- Units of a line that stand one after the other in strictly increasing places of it. -/
structure InLine (line units : List UnitId) : Prop where
  subset : ∀ unit ∈ units, unit ∈ line
  nodup : units.Nodup
  increasing : units.Pairwise fun first second => line.idxOf first < line.idxOf second

theorem inLine_of_sublist {line units : List UnitId} (distinct : line.Nodup)
    (part : units.Sublist line) : InLine line units := by
  refine ⟨fun unit member => part.subset member, part.nodup distinct, ?_⟩
  refine List.Pairwise.sublist part
    (List.pairwise_iff_getElem.2 fun i j inside inside' before => ?_)
  rwa [distinct.idxOf_getElem, distinct.idxOf_getElem]

theorem idxOf_units {graph : Graph} (arena : Arena graph.nodes)
    {places : List Nat} (inside : ∀ place ∈ places, place < graph.nodes.length) {node : Nat}
    {unit : UnitId} (named : graph.unit? node = some unit) :
    (graph.units places).idxOf unit = places.idxOf node := by
  induction places with
  | nil => rfl
  | cons place places ih =>
    obtain ⟨other, here⟩ := Graph.unit?_of_lt (inside place List.mem_cons_self)
    have later := ih fun place member => inside place (List.mem_cons_of_mem _ member)
    have listed : graph.units (place :: places) = other :: graph.units places :=
      List.filterMap_cons_some here
    rw [listed, List.idxOf_cons, List.idxOf_cons, later]
    have same : (other == unit) = (place == node) := by
      apply Bool.eq_iff_iff.2
      rw [beq_iff_eq, beq_iff_eq]
      constructor
      · rintro rfl
        exact Graph.unit?_inj arena here named
      · rintro rfl
        exact Option.some.inj (here.symm.trans named)
    rw [same]

/-- When a run begins, the graph has an order of start, and the units that start with the run stand
in it one after the other, each once. The same goes for the units that any later step starts before
another run begins, whatever was done and reported since and however their dependencies were
declared, even if the graph is edited meanwhile. -/
theorem starts_in_order {conductor opened : Conductor} {decision : Decision}
    (reached : conductor.Reachable) (idle : conductor.phase = .idle)
    (begun : conductor.begin = (.ok decision, opened)) :
    ∃ order, conductor.graph.sorted.1 = .ok order ∧
      let line := opened.graph.units order
      (line.Nodup ∧ ∀ node unit, opened.graph.unit? node = some unit →
        line.idxOf unit = order.idxOf node) ∧
      InLine line decision.started ∧
      ∀ (since : List Operation) (operation : Operation),
        let done := (opened.run since).2.operate operation
        done.2.runs = opened.runs → InLine line done.1.started := by
  obtain ⟨order, sorted, lined, first⟩ := linedUp_begin reached.sound idle begun
  have began : opened.Reachable := by
    have next := reached.run [.begin]
    rwa [Conductor.run, operate_begin, begun] at next
  have arena := began.sound.arena
  have distinct := nodup_units arena lined.ordering.nodup
  refine ⟨order, sorted, ⟨distinct, fun node unit named => ?_⟩, inLine_of_sublist distinct first,
    fun since operation => ?_⟩
  · exact idxOf_units arena (fun place member => (lined.ordering.mem_iff place).1 member) named
  · intro done same
    have before := runs_run_le since opened
    have now := runs_operate_le operation (opened.run since).2
    have kept : (opened.run since).2.runs = opened.runs := by
      simp only [done] at same
      omega
    have now := (lined.run began kept).operate (began.run since) (same.trans kept.symm)
    exact inLine_of_sublist distinct now.2

/-- Two units wait for the first one: the last unit for its end, twice, and for its start between,
which is declared before all that the other one waits for. -/
def hub : Conductor :=
  (fresh.run [.edit (.place ⟨0, 0⟩), .edit (.place ⟨0, 1⟩), .edit (.place ⟨0, 2⟩),
    .edit (.depend 2 ⟨0, .onEnd⟩), .edit (.depend 2 ⟨0, .onStart⟩), .edit (.depend 2 ⟨0, .onEnd⟩),
    .edit (.depend 1 ⟨0, .onEnd⟩)]).2

/-- With the end of the first unit the other two start in the order of start. -/
theorem starts_in_order_hub :
    ((hub.begin.2.run [.step ⟨⟨0, 0⟩, .started⟩]).2.operate (.step ⟨⟨0, 0⟩, .ended⟩)).1.started =
        [⟨0, 1⟩, ⟨0, 2⟩] ∧
      InLine [⟨0, 0⟩, ⟨0, 1⟩, ⟨0, 2⟩] [⟨0, 1⟩, ⟨0, 2⟩] := by
  have reached : hub.Reachable := ⟨_, rfl⟩
  have begun : hub.begin = (.ok ⟨[.call .start ⟨0, 0⟩, .announce .started], false⟩, hub.begin.2) :=
    Prod.ext (by cbv) rfl
  obtain ⟨order, sorted, -, -, later⟩ := starts_in_order reached (by cbv) begun
  have known : hub.graph.sorted.1 = .ok [0, 1, 2] := by cbv
  obtain rfl := Except.ok.inj (known.symm.trans sorted)
  have line : hub.begin.2.graph.units [0, 1, 2] = [⟨0, 0⟩, ⟨0, 1⟩, ⟨0, 2⟩] := by cbv
  have started : ((hub.begin.2.run [.step ⟨⟨0, 0⟩, .started⟩]).2.operate
      (.step ⟨⟨0, 0⟩, .ended⟩)).1.started = [⟨0, 1⟩, ⟨0, 2⟩] := by cbv
  have inLine := later [.step ⟨⟨0, 0⟩, .started⟩] (.step ⟨⟨0, 0⟩, .ended⟩) (by cbv)
  rw [line, started] at inLine
  exact ⟨started, inLine⟩

end Conductor

end Choreo
