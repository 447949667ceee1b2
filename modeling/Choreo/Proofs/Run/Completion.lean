import Choreo.Proofs.Run.StartRule

/-!
# No run closes early

A run closes when nothing plays any more. If units report only after they were told to start, and
their end only after their start or a cancellation, then everything that ever started has ended by
then, so a node that was never started had a dependency that could not be met any more.
-/

namespace Choreo

namespace Conductor

/-- What a unit may report after a history: it was told to start before, and when it ends it was
started or canceled before. -/
structure Permitted (decisions : List Decision) (earlier : List Report)
    (report : Report) : Prop where
  started : 0 < startsOf report.unit decisions
  ended : report.event = .ended → ∃ before ∈ earlier, before.unit = report.unit ∧
    (before.event = .started ∨ before.event = .canceled)

variable {base : Graph} {order : List Nat} {reports : List Report} {conductor opened : Conductor}

theorem closed_leave {unit : UnitId} {begun : List Command × Conductor}
    (h : (leave unit begun).1.closed = true) : (leave unit begun).2.playing.units = [] := by
  rw [playing_leave]
  simp only [leave] at h
  split at h
  · rename_i last
    simpa [Playing.remove, Playing.isEmpty] using (Bool.and_eq_true_iff.1 last).2
  · cases h

theorem closed_step {report : Report} (h : (conductor.step report).1.closed = true) :
    (conductor.step report).2.playing.units = [] := by
  by_cases idle : conductor.phase = .idle
  · rw [step_of_idle report idle] at h
    cases h
  cases found : conductor.graph.nodeFor? report.unit with
  | none =>
    rw [step_of_absent found] at h
    cases h
  | some node =>
    rw [step_eq idle found] at h ⊢
    split at h
    · rename_i ended
      rw [if_pos ended]
      exact closed_leave h
    · cases h

/-- All that is ready plays or has ended. -/
def Manned (base : Graph) (reports : List Report) (conductor : Conductor) : Prop :=
  ∀ node unit, base.unit? node = some unit → base.ready reports node = true →
    unit ∈ conductor.playing.units ∨ .ended ∈ base.told reports node

theorem told_mono (base : Graph) {node : Nat} {event : Lifecycle} (report : Report)
    (h : event ∈ base.told reports node) : event ∈ base.told (reports ++ [report]) node := by
  rw [Graph.told_concat]
  exact List.mem_append_left _ h

theorem Manned.step (manned : Manned base reports conductor)
    (tracks : Tracks base order reports conductor) (arena : Arena base.nodes)
    (ordering : Graph.Ordering base.nodes order) (report : Report) :
    Manned base (reports ++ [report]) (conductor.step report).2 := by
  intro node unit named ready
  cases found : conductor.graph.nodeFor? report.unit with
  | none =>
    have met : base.met (reports ++ [report]) = base.met reports := by
      funext d
      simp [Graph.met_concat, tracks.unnamed found]
    have before : base.ready reports node = true := by
      rw [Graph.ready, met] at ready
      exact ready
    rw [step_of_absent found]
    exact (manned node unit named before).imp_right (told_mono base report)
  | some place =>
    have present : unit ∈ conductor.playing.units ++
        base.units (upcoming base order reports report) ∨
        .ended ∈ base.told reports node := by
      by_cases before : base.ready reports node = true
      · exact (manned node unit named before).imp_left (List.mem_append_left _)
      · refine .inl (List.mem_append_right _ ((mem_units arena ordering _ named).2 ?_))
        simpa [ready] using before
    rw [tracks.playing_step arena ordering found]
    split
    · rename_i ended
      by_cases same : unit = report.unit
      · refine .inr ?_
        rw [Graph.told_concat, named, same, if_pos rfl, ended]
        simp
      · rcases present with plays | before
        · exact .inl ((List.mem_erase_of_ne same).2 plays)
        · exact .inr (told_mono base report before)
    · exact present.imp_right (told_mono base report)

theorem Tracks.manned_run (tracks : Tracks base order [] opened) (arena : Arena base.nodes)
    (ordering : Graph.Ordering base.nodes order) (first : Manned base [] opened)
    {history : List Operation} (passive : ∀ operation ∈ history, operation.passive = true)
    (running : (opened.run history).2.phase = .running) :
    Manned base (heard history) (opened.run history).2 := by
  induction history using List.reverseRecOn with
  | nil => exact first
  | append_singleton history operation ih =>
    have before : ∀ op ∈ history, op.passive = true := fun op member =>
      passive op (List.mem_append_left _ member)
    have last := passive operation (by simp)
    rw [run_concat] at running ⊢
    have went := running_of_passive last running
    cases operation with
    | step report =>
      have more : heard (history ++ [.step report]) = heard history ++ [report] := by simp [heard]
      rw [more]
      exact (ih before went).step (tracks.run arena ordering before went) arena ordering report
    | edit change =>
      have same : heard (history ++ [.edit change]) = heard history := by simp [heard]
      rw [same]
      exact ih before went
    | begin | cancel | finish | settle | refill => cases last

/-- What holds of the reports when nothing plays any more: they came from nodes that were ready, an
end had something before it, and everything that was ready has ended. -/
structure Drained (base : Graph) (reports : List Report) : Prop where
  started : ∀ report ∈ reports, ∀ node, base.unit? node = some report.unit →
    base.ready reports node = true
  opened : ∀ node, .ended ∈ base.told reports node →
    .started ∈ base.told reports node ∨ .canceled ∈ base.told reports node
  ended : ∀ node, node < base.nodes.length → base.ready reports node = true →
    .ended ∈ base.told reports node

theorem mem_told {node : Nat} {event : Lifecycle} : event ∈ base.told reports node ↔
    ∃ report ∈ reports, base.unit? node = some report.unit ∧ report.event = event := by
  simp [Graph.told, and_assoc]

theorem met_or_dead (base : Graph) {reports : List Report} {d : Dependency}
    (h : d.rule.awaited ∈ base.told reports d.node ∨ .canceled ∈ base.told reports d.node) :
    base.met reports d = true ∨ base.dead reports d = true :=
  (precedes_or (Graph.awaited_ne_canceled d.rule) _).2 h

/-- In the end a node is ready unless a dependency of it is dead or on a node that is not. -/
theorem Drained.ready_iff (drained : Drained base reports) (arena : Arena base.nodes) (node : Nat) :
    base.ready reports node = true ↔ ∀ d ∈ base.dependencies node,
      base.dead reports d = false ∧ base.ready reports d.node = true := by
  constructor
  · intro ready d declared
    have met := List.all_eq_true.1 ready d declared
    refine ⟨Graph.not_dead_of_met base reports met, ?_⟩
    obtain ⟨report, member, named, -⟩ := mem_told.1 (mem_of_precedes met)
    exact drained.started report member d.node named
  · intro all
    apply List.all_eq_true.2
    intro d declared
    obtain ⟨alive, ready⟩ := all d declared
    obtain ⟨holder, hholder, member⟩ := Graph.mem_dependencies.1 declared
    have ended := drained.ended d.node (arena.lt_of_dependency hholder member) ready
    have heard : d.rule.awaited ∈ base.told reports d.node ∨
        .canceled ∈ base.told reports d.node := by
      cases d.rule with
      | onStart => exact drained.opened d.node ended
      | onEnd => exact .inl ended
    rcases met_or_dead base heard with met | dead
    · exact met
    · rw [alive] at dead
      cases dead

/-- If nothing was canceled everything is ready in the end, by induction along the order of
start. -/
theorem Drained.all_ready (drained : Drained base reports) (arena : Arena base.nodes)
    (ordering : Graph.Ordering base.nodes order)
    (none : ∀ report ∈ reports, report.event ≠ .canceled) (node : Nat) :
    base.ready reports node = true := by
  induction place : order.idxOf node using Nat.strongRecOn generalizing node with
  | ind place ih =>
    rw [drained.ready_iff arena]
    intro d declared
    obtain ⟨holder, hholder, member⟩ := Graph.mem_dependencies.1 declared
    have waits := Graph.mem_prerequisites.2 ⟨holder, hholder, d, member, rfl⟩
    have earlier := ordering.before node d.node waits
    refine ⟨?_, ih _ (place ▸ earlier) d.node rfl⟩
    rw [← Bool.not_eq_true]
    intro dead
    obtain ⟨report, hreport, -, canceled⟩ := mem_told.1 (mem_of_precedes dead)
    exact none report hreport canceled

theorem heard_split {history : List Operation} {report : Report} (h : report ∈ heard history) :
    ∃ earlier, earlier ++ [.step report] <+: history := by
  obtain ⟨operation, member, found⟩ := List.mem_filterMap.1 h
  obtain ⟨earlier, later, rfl⟩ := List.append_of_mem member
  cases operation with
  | step other =>
    cases found
    exact ⟨earlier, later, by simp⟩
  | begin | cancel | finish | settle | edit | refill => cases found

theorem startsOf_mono (opened : Conductor) (unit : UnitId)
    (decision : Decision) {earlier history : List Operation} (h : earlier <+: history) :
    startsOf unit (decision :: (opened.run earlier).1) ≤
      startsOf unit (decision :: (opened.run history).1) := by
  obtain ⟨later, rfl⟩ := h
  rw [run_append, ← List.cons_append, startsOf_append]
  omega

theorem drained_of_permitted {decision : Decision} {history : List Operation} {last : Report}
    (permitted : ∀ earlier report, earlier ++ [.step report] <+: history ++ [.step last] →
      Permitted (decision :: (opened.run earlier).1) (heard earlier) report)
    (whole : ∀ node unit, base.unit? node = some unit →
      startsOf unit (decision :: (opened.run (history ++ [.step last])).1) =
        if base.ready (heard history ++ [last]) node then 1 else 0)
    (ended : ∀ node unit, base.unit? node = some unit →
      base.ready (heard history ++ [last]) node = true →
      .ended ∈ base.told (heard history ++ [last]) node) :
    Drained base (heard history ++ [last]) := by
  have all : heard history ++ [last] = heard (history ++ [.step last]) := by simp [heard]
  constructor
  · intro report member node named
    rw [all] at member
    obtain ⟨earlier, part⟩ := heard_split member
    have once := (permitted earlier report part).started
    have less := startsOf_mono opened report.unit decision
      ((List.prefix_append earlier _).trans part)
    have counted := whole node report.unit named
    by_contra unready
    rw [if_neg unready] at counted
    omega
  · intro node member
    obtain ⟨report, hreport, named, ends⟩ := mem_told.1 member
    rw [all] at hreport ⊢
    obtain ⟨earlier, part⟩ := heard_split hreport
    obtain ⟨before, hbefore, same, kind⟩ := (permitted earlier report part).ended ends
    have inside : before ∈ heard (history ++ [.step last]) :=
      ((List.prefix_append earlier _).trans part).filterMap _ |>.subset hbefore
    rw [← same] at named
    exact kind.imp (fun starts => mem_told.2 ⟨before, inside, named, starts⟩)
      fun cancels => mem_told.2 ⟨before, inside, named, cancels⟩
  · intro node inside ready
    obtain ⟨unit, named⟩ := Graph.unit?_of_lt inside
    exact ended node unit named ready

/-- When a run closes by itself, a node was left out exactly if a dependency of it was dead or on a
node left out; without a cancellation every node was started once. -/
theorem closed_complete {decision : Decision} (reached : conductor.Reachable)
    (idle : conductor.phase = .idle) (begun : conductor.begin = (.ok decision, opened))
    {history : List Operation} (passive : ∀ operation ∈ history, operation.passive = true)
    {last : Report}
    (permitted : ∀ earlier report, earlier ++ [.step report] <+: history ++ [.step last] →
      Permitted (decision :: (opened.run earlier).1) (heard earlier) report)
    (running : (opened.run history).2.phase = .running)
    (closed : ((opened.run history).2.step last).1.closed = true) :
    let graph := opened.graph
    let reports := heard history ++ [last]
    let decisions := decision :: (opened.run (history ++ [.step last])).1
    (∀ node unit, graph.unit? node = some unit → (startsOf unit decisions = 0 ↔
      ∃ d ∈ graph.dependencies node, graph.dead reports d = true ∨
        ∃ prerequisite, graph.unit? d.node = some prerequisite ∧
          startsOf prerequisite decisions = 0)) ∧
    ((∀ report ∈ reports, report.event ≠ .canceled) →
      ∀ node unit, graph.unit? node = some unit → startsOf unit decisions = 1) := by
  intro graph reports decisions
  have opens := running_of_run passive running
  obtain ⟨order, ordering, first, starts, plays⟩ := tracks_begin reached.sound idle begun opens
  have arena : Arena graph.nodes := first.sound.arena
  have tracks := first.run arena ordering passive running
  have whole : ∀ node unit, graph.unit? node = some unit →
      startsOf unit decisions = if graph.ready reports node then 1 else 0 := by
    intro node unit named
    have before := first.startsOf_run arena ordering passive running named
    refine startsOf_whole (startsOf_begin arena ordering starts named) ?_
    rw [run_concat]
    exact tracks.startsOf_step arena ordering named before last
  have never : ∀ node unit, graph.unit? node = some unit →
      (startsOf unit decisions = 0 ↔ ¬ graph.ready reports node = true) := by
    intro node unit named
    rw [whole node unit named]
    split <;> simp_all
  have drained : Drained graph reports :=
    drained_of_permitted permitted whole fun node unit named ready => by
      have beginning : Manned graph [] opened := by
        intro node unit named ready
        rw [plays, mem_units arena ordering _ named]
        exact .inl ready
      have manned := (first.manned_run arena ordering beginning passive running).step tracks arena
        ordering last
      simpa [closed_step closed] using manned node unit named ready
  constructor
  · intro node unit named
    rw [never node unit named, drained.ready_iff arena]
    constructor
    · intro fails
      by_contra none
      refine fails fun d declared => ⟨?_, ?_⟩
      · rw [← Bool.not_eq_true]
        exact fun dead => none ⟨d, declared, .inl dead⟩
      · by_contra unready
        obtain ⟨holder, hholder, member⟩ := Graph.mem_dependencies.1 declared
        obtain ⟨prerequisite, known⟩ := Graph.unit?_of_lt (arena.lt_of_dependency hholder member)
        exact none ⟨d, declared, .inr ⟨prerequisite, known, (never _ _ known).2 unready⟩⟩
    · rintro ⟨d, declared, dead | ⟨prerequisite, known, unstarted⟩⟩ all
      · rw [(all d declared).1] at dead
        cases dead
      · exact (never _ _ known).1 unstarted (all d declared).2
  · intro none node unit named
    rw [whole node unit named, drained.all_ready arena ordering none, if_pos rfl]

theorem closed_complete_pair :
    let history := [Operation.step ⟨⟨0, 0⟩, .canceled⟩]
    let closing := Operation.step ⟨⟨0, 0⟩, .ended⟩
    let decisions := (pair.begin.2.run (history ++ [closing])).1
    (pair.begin.2.run history).2.phase = .running ∧
      startsOf ⟨0, 1⟩ (⟨[.call .start ⟨0, 0⟩, .announce .started], false⟩ :: decisions) = 0 := by
  intro history closing decisions
  have running : (pair.begin.2.run history).2.phase = .running := by decide +kernel
  have permitted : ∀ earlier report, earlier ++ [.step report] <+: history ++ [closing] →
      Permitted (⟨[.call .start ⟨0, 0⟩, .announce .started], false⟩ :: (pair.begin.2.run earlier).1)
        (heard earlier) report := by
    intro earlier report part
    rcases earlier with _ | ⟨first, _ | ⟨second, rest⟩⟩
    · obtain rfl := Operation.step.inj (List.cons_prefix_cons.1 part).1
      exact ⟨by decide +kernel, by decide⟩
    · obtain ⟨rfl, others⟩ := List.cons_prefix_cons.1 part
      obtain rfl := Operation.step.inj (List.cons_prefix_cons.1 others).1
      exact ⟨by decide +kernel, fun _ => ⟨⟨⟨0, 0⟩, .canceled⟩, by decide, rfl, .inr rfl⟩⟩
    · have less := part.length_le
      simp [history] at less
  have complete := closed_complete reachable_pair rfl begin_pair (by decide) permitted running
    (by decide +kernel)
  exact ⟨running, (complete.1 1 ⟨0, 1⟩ (by decide +kernel)).2
    ⟨⟨0, .onEnd⟩, by decide +kernel, .inl (by decide +kernel)⟩⟩

end Conductor

end Choreo
