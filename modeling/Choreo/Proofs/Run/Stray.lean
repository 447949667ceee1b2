import Choreo.Proofs.Run.Completion
import Choreo.Proofs.Run.Wired

/-!
# Reports of units that do not play

A unit that does not play can still be reported of, before it starts or after its end. What it
reports is passed over just as long as nobody waits for it: a report that settles a dependency of
the run releases those that wait for it, whether or not its unit plays, but takes nobody away and
never closes the run. If only units that play are reported of, then nothing starts before all that
it waits for.
-/

namespace Choreo

namespace Conductor

variable {conductor opened : Conductor} {report : Report}

/-- Somebody still waits for what the report settles. -/
def Awaits (conductor : Conductor) (report : Report) : Prop :=
  ∃ node, conductor.graph.nodeFor? report.unit = some node ∧
    ∃ subscription ∈ conductor.waiting.subscriptions, subscription.event ∈ report.event.settles node

theorem Awaits.of_found {node : Nat} (awaits : conductor.Awaits report)
    (found : conductor.graph.nodeFor? report.unit = some node) :
    ∃ subscription ∈ conductor.waiting.subscriptions,
      subscription.event ∈ report.event.settles node := by
  obtain ⟨place, here, settled⟩ := awaits
  rw [found] at here
  obtain rfl := Option.some.inj here
  exact settled

theorem without_of_stray {units : List UnitId} (stray : report.unit ∉ units) (more : List UnitId) :
    report.without (units ++ more) = units ++ report.without more := by
  rw [Report.without, Report.without]
  split
  · exact List.erase_append_right _ stray
  · rfl

theorem step_of_stray (reached : conductor.Reachable) (running : conductor.phase = .running)
    (stray : report.unit ∉ conductor.playing.units) {node : Nat}
    (found : conductor.graph.nodeFor? report.unit = some node) :
    conductor.step report =
      (⟨(conductor.starting report.event node).map (Command.call .start), false⟩, { conductor with
        waiting := (conductor.waiting.hear report.event node).2
        playing := ⟨conductor.playing.units ++
          report.without (conductor.starting report.event node)⟩ }) := by
  have active : conductor.phase ≠ .idle := by simp [running]
  have others : conductor.playing.units ++ conductor.starting report.event node ≠
      [report.unit] := by
    intro only
    obtain ⟨other, plays⟩ := List.exists_mem_of_ne_nil _ (reached.coherent.running running)
    have member : other ∈ [report.unit] := only ▸ List.mem_append_left _ plays
    exact stray (List.mem_singleton.1 member ▸ plays)
  rw [reached.wired.step_eq reached.sound.arena active found, if_neg fun last => others last.2,
    without_of_stray stray]

theorem step_of_unawaited (reached : conductor.Reachable) (running : conductor.phase = .running)
    (stray : report.unit ∉ conductor.playing.units) (unawaited : ¬ conductor.Awaits report) :
    conductor.step report = (.nothing, conductor) := by
  cases found : conductor.graph.nodeFor? report.unit with
  | none => exact step_of_absent found
  | some node =>
    have unheard : conductor.waiting.hear report.event node = ([], conductor.waiting) :=
      Waiting.hear_of_unsettled fun subscription member settled =>
        unawaited ⟨node, found, subscription, member, settled⟩
    have nobody : conductor.starting report.event node = [] := by
      simp [starting, unheard, Graph.units]
    have none : report.without [] = [] := by simp [Report.without]
    rw [step_of_stray reached running stray found, nobody, unheard, none, List.append_nil]
    rfl

theorem step_ne_of_awaits (reached : conductor.Reachable) (running : conductor.phase = .running)
    (stray : report.unit ∉ conductor.playing.units) (awaits : conductor.Awaits report) :
    (conductor.step report).2.waiting.subscriptions ≠ conductor.waiting.subscriptions := by
  obtain ⟨node, found, subscription, member, settled⟩ := awaits
  rw [step_of_stray reached running stray found]
  intro same
  simp only [(Waiting.noted_hear report.event node conductor.waiting).subscriptions] at same
  have stays := of_decide_eq_true (List.filter_eq_self.1 same subscription member)
  exact stays settled

/-! ### Starts and their prerequisites -/

/-- While the run goes on after these reports, each of them came from a unit that played at its
time. -/
def Attended (opened : Conductor) (reports : List Report) : Prop :=
  ∀ past report, past ++ [report] <+: reports →
    report.unit ∈ (opened.run (past.map .step)).2.playing.units

variable {base : Graph} {order : List Nat} {reports : List Report} {decision : Decision}

theorem Tracks.started_of_playing (tracks : Tracks base order [] opened) (arena : Arena base.nodes)
    (ordering : Graph.Ordering base.nodes order)
    (starts : decision.started = base.units (order.filter (base.ready [])))
    (running : (opened.run (reports.map .step)).2.phase = .running) {unit : UnitId}
    (plays : unit ∈ (opened.run (reports.map .step)).2.playing.units) :
    0 < startsOf unit (decision :: (opened.run (reports.map .step)).1) := by
  have later := tracks.run arena ordering (passive_steps reports) running
  rw [heard_steps] at later
  obtain ⟨node, named, ready⟩ := later.playing unit plays
  have counted := tracks.startsOf_run arena ordering (passive_steps reports) running named
  rw [heard_steps] at counted
  rw [startsOf_whole (startsOf_begin arena ordering starts named) counted, if_pos ready]
  exact Nat.one_pos

theorem running_of_earlier {past : List Report} (earlier : past <+: reports)
    (running : (opened.run (reports.map .step)).2.phase = .running) :
    (opened.run (past.map .step)).2.phase = .running := by
  obtain ⟨rest, rfl⟩ := earlier
  rw [List.map_append, run_append] at running
  exact running_of_run (passive_steps rest) running

/-- If only units that play are reported of, what a report starts waits for nothing that was not
started before it. -/
theorem Tracks.prerequisites_started (tracks : Tracks base order [] opened)
    (arena : Arena base.nodes) (ordering : Graph.Ordering base.nodes order)
    (starts : decision.started = base.units (order.filter (base.ready [])))
    (running : (opened.run (reports.map .step)).2.phase = .running)
    (attended : opened.Attended (reports ++ [report]))
    {node : Nat} {unit prerequisite : UnitId} (named : base.unit? node = some unit)
    (started : unit ∈ ((opened.run (reports.map .step)).2.step report).1.started) {d : Dependency}
    (declared : d ∈ base.dependencies node) (known : base.unit? d.node = some prerequisite) :
    0 < startsOf prerequisite (decision :: (opened.run (reports.map .step)).1) := by
  have later := tracks.run arena ordering (passive_steps reports) running
  rw [heard_steps] at later
  rw [later.started_step arena ordering, upcoming, mem_units arena ordering _ named,
    Bool.and_eq_true] at started
  have met := List.all_eq_true.1 started.1 d declared
  obtain ⟨cause, member, here, -⟩ := mem_told.1 (mem_of_precedes met)
  obtain rfl : prerequisite = cause.unit := Option.some.inj (known.symm.trans here)
  obtain ⟨past, rest, split⟩ := List.append_of_mem member
  have part : past ++ [cause] <+: reports ++ [report] := ⟨rest, by simp [split]⟩
  have earlier : past <+: reports := by
    have shorter : past.length ≤ reports.length := by
      have size := part.length_le
      simp only [List.length_append, List.length_singleton] at size
      omega
    exact List.prefix_of_prefix_length_le ((List.prefix_append _ _).trans part)
      (List.prefix_append _ _) shorter
  have before := tracks.started_of_playing arena ordering starts
    (running_of_earlier earlier running)
    (attended past cause part)
  exact before.trans_le (startsOf_mono opened cause.unit decision (earlier.map _))

/-- What a unit reports that does not play is ignored exactly if nobody waits for it. If somebody
does, others may start early; but nobody stops playing, nothing is announced and the run goes on. As
long as all reports of a run come from units that play, nothing starts in it before everything that
it waits for. -/
theorem stray_report (reached : conductor.Reachable) :
    (conductor.phase = .running → ∀ report : Report, report.unit ∉ conductor.playing.units →
      (conductor.step report = (.nothing, conductor) ↔ ¬ conductor.Awaits report) ∧
      (conductor.step report).2.phase = .running ∧
      conductor.playing.units <+: (conductor.step report).2.playing.units ∧
      ∃ starts : List UnitId, (conductor.step report).1 = ⟨starts.map (.call .start), false⟩) ∧
    ∀ (decision : Decision) (opened : Conductor), conductor.phase = .idle →
      conductor.begin = (.ok decision, opened) → ∀ (earlier : List Report) (report : Report),
      (opened.run (earlier.map .step)).2.phase = .running → opened.Attended (earlier ++ [report]) →
      ∀ (node : Nat) (unit : UnitId), opened.graph.unit? node = some unit →
        unit ∈ ((opened.run (earlier.map .step)).2.step report).1.started →
        ∀ d ∈ opened.graph.dependencies node, ∀ prerequisite,
          opened.graph.unit? d.node = some prerequisite →
          0 < startsOf prerequisite (decision :: (opened.run (earlier.map .step)).1) := by
  refine ⟨fun running report stray => ?_, ?_⟩
  · have ignored : conductor.step report = (.nothing, conductor) ↔ ¬ conductor.Awaits report := by
      refine ⟨fun same awaits => ?_, step_of_unawaited reached running stray⟩
      exact step_ne_of_awaits reached running stray awaits (by rw [same])
    refine ⟨ignored, ?_⟩
    cases found : conductor.graph.nodeFor? report.unit with
    | none =>
      rw [step_of_absent found]
      exact ⟨running, List.prefix_rfl, [], rfl⟩
    | some node =>
      rw [step_of_stray reached running stray found]
      exact ⟨running, List.prefix_append _ _, _, rfl⟩
  · intro decision opened idle begun earlier report running attended node unit named started d
      declared prerequisite known
    have opens := running_of_run (passive_steps earlier) running
    obtain ⟨order, ordering, first, starts, -⟩ := tracks_begin reached.sound idle begun opens
    exact first.prerequisites_started first.sound.arena ordering starts running attended
      named started declared known

/-- Three units of which each waits for the end of the one before it. -/
def chain : Conductor :=
  (fresh.run [.edit (.place ⟨0, 0⟩), .edit (.place ⟨0, 1⟩), .edit (.place ⟨0, 2⟩),
    .edit (.depend 1 ⟨0, .onEnd⟩), .edit (.depend 2 ⟨1, .onEnd⟩), .begin]).2

theorem attended_pair :
    pair.begin.2.Attended [⟨⟨0, 0⟩, .started⟩, ⟨⟨0, 0⟩, .ended⟩] := by
  intro past report part
  rcases past with _ | ⟨first, _ | ⟨second, rest⟩⟩
  · rw [(List.cons_prefix_cons.1 part).1]
    decide +kernel
  · obtain ⟨rfl, others⟩ := List.cons_prefix_cons.1 part
    rw [(List.cons_prefix_cons.1 others).1]
    decide +kernel
  · have less := part.length_le
    simp at less

/-- Nobody waits for the third unit of a chain, so nothing comes of its end, which is reported
before it starts; and the second unit of a pair starts after the first one if only units that play
report. -/
theorem stray_report_chain :
    (chain.phase = .running ∧ ⟨0, 2⟩ ∉ chain.playing.units ∧
      chain.step ⟨⟨0, 2⟩, .ended⟩ = (.nothing, chain)) ∧
    let now := (pair.begin.2.run [.step ⟨⟨0, 0⟩, .started⟩])
    ⟨0, 1⟩ ∈ (now.2.step ⟨⟨0, 0⟩, .ended⟩).1.started ∧
      0 < startsOf ⟨0, 0⟩ (⟨[.call .start ⟨0, 0⟩, .announce .started], false⟩ :: now.1) := by
  refine ⟨?_, ?_⟩
  · have reached : chain.Reachable := ⟨_, rfl⟩
    have running : chain.phase = .running := by decide +kernel
    have stray : (⟨0, 2⟩ : UnitId) ∉ chain.playing.units := by decide +kernel
    refine ⟨running, stray, ((stray_report reached).1 running ⟨⟨0, 2⟩, .ended⟩ stray).1.2 ?_⟩
    intro awaits
    have found : chain.graph.nodeFor? ⟨0, 2⟩ = some 2 := by decide +kernel
    obtain ⟨subscription, member, settled⟩ := awaits.of_found found
    have subscribed : chain.waiting.subscriptions = [⟨⟨0, .onEnd⟩, 1⟩, ⟨⟨1, .onEnd⟩, 2⟩] := by
      decide +kernel
    rw [subscribed] at member
    revert subscription
    decide
  · have starts : (⟨0, 1⟩ : UnitId) ∈
        ((pair.begin.2.run [.step ⟨⟨0, 0⟩, .started⟩]).2.step ⟨⟨0, 0⟩, .ended⟩).1.started := by
      decide +kernel
    exact ⟨starts, (stray_report reachable_pair).2 _ _ rfl begin_pair [⟨⟨0, 0⟩, .started⟩]
      ⟨⟨0, 0⟩, .ended⟩ (by decide +kernel) attended_pair 1 ⟨0, 1⟩ (by decide +kernel) starts
      ⟨0, .onEnd⟩ (by decide +kernel) ⟨0, 0⟩ (by decide +kernel)⟩

/-- The second unit was not started, but its end is reported: the third one is told to start. -/
theorem stray_end_of_chain :
    chain.Reachable ∧ chain.phase = .running ∧ chain.playing.units = [⟨0, 0⟩] ∧
      (chain.step ⟨⟨0, 1⟩, .ended⟩).1.started = [⟨0, 2⟩] ∧
      (chain.step ⟨⟨0, 1⟩, .ended⟩).2.playing.units = [⟨0, 0⟩, ⟨0, 2⟩] ∧
      (chain.step ⟨⟨0, 1⟩, .ended⟩).2.waiting ≠ chain.waiting :=
  ⟨⟨_, rfl⟩, by decide +kernel, by decide +kernel, by decide +kernel, by decide +kernel,
    by decide +kernel⟩

end Conductor

end Choreo
