import Choreo.Proofs.Sequence.Balance

/-!
# Sequences at rest

Between two calls a sequence of dutiful units has nothing left to look at, it is idle or running,
and what plays is what runs. Within a call this is broken and restored: as long as the run goes on
the balance of ends holds; when the run is wound down every unit is told to stop, so none runs, and
what they report is looked at and leads to nothing.
-/

namespace Choreo

variable {U : Type} {b : Behaviour U} {fit : U → Prop} {terms : Terms U}

/-- A cue that keeps to the rules: units are idle when they come in, and nobody reports from outside
on behalf of a unit. -/
def Cue.Proper (b : Behaviour U) (fit : U → Prop) : Cue U → Prop
  | .add _ unit => fit unit ∧ b.running unit = false
  | .report _ => False
  | _ => True

/-- A cue that keeps to the terms: units that count are idle when they come in, nobody reports from
outside on behalf of a unit, and the stage remains one of its kind. -/
def Cue.Honest (b : Behaviour U) (terms : Terms U) : Cue U → Prop
  | .add _ unit => terms.fit unit ∧ (terms.counts unit → b.running unit = false)
  | .report _ => False
  | .meanwhile change => ∀ stage, terms.stages stage → terms.stages (change stage)
  | _ => True

theorem Cue.Proper.honest {cue : Cue U} (proper : cue.Proper b fit) : cue.Honest b (.all fit) := by
  cases cue with
  | add => exact ⟨proper.1, fun _ => proper.2⟩
  | report => exact proper
  | meanwhile => exact fun _ _ => trivial
  | _ => trivial

namespace Conductor

/-- What a decision to wind a run down amounts to: everything that plays is told to stop. -/
def WindsDown (conductor : Conductor) (decided : Decision × Conductor) : Prop :=
  conductor.phase ≠ .running ∧ decided = (.nothing, conductor) ∨
  conductor.phase = .running ∧ ∃ act tail, act ≠ .start ∧
    decided.1.commands = conductor.playing.units.map (Command.call act) ++ tail ∧ Idly tail ∧
    decided.2.phase ≠ .running ∧ decided.2.graph = conductor.graph ∧ decided.2.Coherent ∧
    ∀ id ∈ decided.2.playing.units, id ∈ conductor.playing.units

theorem windsDown_endRun {conductor : Conductor} (coherent : conductor.Coherent) :
    conductor.WindsDown conductor.endRun := by
  by_cases running : conductor.phase = .running
  · refine .inr ⟨running, .finish, [], by simp, ?_, by simp [Idly], ?_, ?_,
      (finish_spec coherent).1, ?_⟩
    all_goals simp [endRun, running]
  · exact .inl ⟨running, by simp [endRun, running]⟩

theorem windsDown_cancelRun {conductor : Conductor} (coherent : conductor.Coherent) :
    conductor.WindsDown conductor.cancelRun := by
  by_cases running : conductor.phase = .running
  · have some : conductor.playing.units.isEmpty = false := by simpa using coherent.running running
    refine .inr ⟨running, .cancel, [.announce .canceled], by simp, ?_, by simp [Idly], ?_, ?_,
      (cancel_spec coherent).1, ?_⟩
    all_goals simp [cancelRun, running, Playing.drain, some, Playing.none]
  · exact .inl ⟨running, by simp [cancelRun, running]⟩

theorem units_subset (graph : Graph) (places : List Nat) :
    ∀ id ∈ graph.units places, id ∈ graph.nodes.map Node.unit := by
  intro id member
  obtain ⟨place, -, here⟩ := List.mem_filterMap.1 member
  obtain ⟨node, there, rfl⟩ := Graph.unit?_eq_some.1 here
  exact List.mem_map_of_mem (List.mem_of_getElem? there)

/-- A run that begins tells everything that plays from the outset to start. -/
theorem begin_fresh {conductor after : Conductor} {decision : Decision}
    (idle : conductor.phase = .idle) (begun : conductor.begin = (.ok decision, after)) :
    ∃ tail, decision.commands = after.playing.units.map (Command.call .start) ++ tail ∧ Idly tail ∧
      after.graph = conductor.graph.sorted.2 ∧ (after.phase = .idle ∨ after.phase = .running) ∧
      ∀ id ∈ after.playing.units, id ∈ conductor.graph.nodes.map Node.unit := by
  rcases begin_cases conductor with ⟨active, -⟩ | ⟨cycle, -, -, same⟩ |
    ⟨order, opened, -, -, rfl, ⟨none, same⟩ | ⟨some, same⟩⟩
  · exact absurd idle active
  · cases begun.symm.trans same
  · cases begun.symm.trans same
    refine ⟨[.announce .started, .announce .ended], ?_, by simp [Idly], rfl, .inl rfl, ?_⟩
    · simp [close, none]
    · simp [close, none]
  · cases begun.symm.trans same
    refine ⟨[.announce .started], rfl, by simp [Idly], rfl, .inr rfl, fun id plays => ?_⟩
    have member := units_subset _ _ id plays
    rwa [Graph.nodes_sorted] at member

theorem settle_winding {conductor : Conductor} (winding : conductor.phase ≠ .running) :
    conductor.settle.2.phase = .idle ∧ Idly conductor.settle.1.commands ∧
      conductor.settle.2.graph = conductor.graph := by
  cases phase : conductor.phase with
  | running => exact absurd phase winding
  | idle => simp [settle, phase, Decision.nothing, Idly]
  | canceling | ending => simp [settle, phase, close, Idly]

end Conductor

namespace Sequence

variable {sequence : Sequence U}

/-- The run goes on, or there is none, and the ends that are owed are those of what plays. -/
structure Accounted (b : Behaviour U) (terms : Terms U) (sequence : Sequence U) : Prop where
  sane : sequence.Sane terms.fit
  calm : sequence.conductor.phase = .idle ∨ sequence.conductor.phase = .running
  balanced : sequence.Balanced b terms.counts sequence.conductor.playing.units

/-- The run is over or will be, and no unit that counts runs any more. -/
structure Winding (b : Behaviour U) (terms : Terms U) (sequence : Sequence U) : Prop where
  sane : sequence.Sane terms.fit
  winding : sequence.conductor.phase ≠ .running
  still : sequence.Still b terms.counts

/-- Nothing is left to look at, and of the units that count those play that run. -/
structure Resting (b : Behaviour U) (terms : Terms U) (sequence : Sequence U) : Prop
    extends Accounted b terms sequence where
  empty : sequence.queue = []

/-- Nothing is left to look at, and what plays is what runs. -/
abbrev AtRest (b : Behaviour U) (fit : U → Prop) (sequence : Sequence U) : Prop :=
  sequence.Resting b (.all fit)

/-- A sequence that is sane stays so with another conductor of the same graph. -/
theorem Sane.conduct (sane : sequence.Sane fit) {conductor : Conductor} (queue : List Report)
    (graph : conductor.graph = sequence.conductor.graph) (coherent : conductor.Coherent)
    (enrolled : ∀ id ∈ conductor.playing.units, id ∈ sequence.graph.nodes.map Node.unit) :
    ({ sequence with conductor, queue } : Sequence U).Sane fit := by
  refine ⟨⟨?_, fun unit member => ?_⟩, coherent, sane.fits, fun id plays => ?_⟩
  · rw [Sequence.graph, graph]
    exact sane.grounded.sound
  · exact sane.grounded.registered unit (by rwa [Sequence.graph, graph] at member)
  · rw [Sequence.graph, graph]
    exact enrolled id plays

theorem Resting.extend (honors : b.Honors terms)
    {after : Sequence U} (rest : sequence.Resting b terms) (grounded : after.Grounded)
    (extended : Extended b.timer sequence after) : after.Resting b terms := by
  have conductor := extended.conductor
  have phase : after.conductor.phase = sequence.conductor.phase := by rw [conductor]
  have playing : after.conductor.playing = sequence.conductor.playing := by rw [conductor]
  have old := rest.sane.coherent
  have coherent : after.conductor.Coherent := by
    rw [conductor]
    exact ⟨old.nodup, old.idle, old.running, old.canceling, old.ending⟩
  have empty : after.queue = [] := extended.queue.trans rest.empty
  refine ⟨⟨⟨grounded, coherent, fun id unit known => ?_, fun id plays => ?_⟩, phase ▸ rest.calm,
    fun id unit known counted => ?_⟩, empty⟩
  · rcases extended.made id unit known with before | ⟨-, delay, rfl⟩
    · exact rest.sane.fits id unit before
    · exact (honors.timer delay).1
  · rw [playing] at plays
    exact extended.units.subset (rest.sane.enrolled id plays)
  · rw [playing, empty]
    rcases extended.made id unit known with before | ⟨absent, delay, rfl⟩
    · have account := rest.balanced id unit before counted
      rwa [rest.empty] at account
    · -- a new timer neither runs nor plays
      have apart : id ∉ sequence.conductor.playing.units := fun plays => by
        obtain ⟨other, present⟩ := Registry.contains_iff.1 (rest.sane.contains plays)
        rw [absent] at present
        cases present
      rw [if_neg apart, (honors.timer delay).2 counted]
      rfl

theorem Resting.enter (rest : sequence.Resting b terms) {unit : U} (fits : terms.fit unit)
    (idle : terms.counts unit → b.running unit = false) (label : Option String) :
    (sequence.add label unit).2.Resting b terms := by
  have after : ∀ id, (sequence.add label unit).2.registry.get? id =
      if id = sequence.registry.nextId then some unit else sequence.registry.get? id := fun id =>
    sequence.registry.get?_push _ id
  refine ⟨⟨⟨rest.sane.grounded.engage _, rest.sane.coherent, fun id other known => ?_,
    rest.sane.enrolled⟩, rest.calm, fun id other known counted => ?_⟩, rest.empty⟩
  · rw [after] at known
    split at known
    · cases known
      exact fits
    · exact rest.sane.fits id other known
  · rw [after] at known
    split at known
    · rename_i last
      cases known
      have apart : id ∉ sequence.conductor.playing.units := fun plays => by
        obtain ⟨other, present⟩ := Registry.contains_iff.1 (rest.sane.contains plays)
        rw [last, Registry.get?_nextId] at present
        cases present
      have empty : (sequence.add label unit).2.queue = [] := rest.empty
      rw [if_neg (by exact apart), empty, idle counted]
      rfl
    · exact rest.balanced id other known counted

theorem Resting.sort (honors : b.Honors terms) (rest : sequence.Resting b terms) :
    (sequence.withGraph sequence.graph.sorted.2).Resting b terms :=
  rest.extend honors rest.sane.grounded.sort
    (extended_withGraph sequence .sort)

theorem Resting.running_iff (rest : sequence.Resting b terms) {id : UnitId} {unit : U}
    (known : sequence.registry.get? id = some unit) (counted : terms.counts unit) :
    b.running unit = true ↔ id ∈ sequence.conductor.playing.units := by
  have account := rest.balanced id unit known counted
  rw [rest.empty, List.count_nil, Nat.zero_add] at account
  by_cases plays : id ∈ sequence.conductor.playing.units
  · simpa [plays] using account
  · simpa [plays] using account

theorem AtRest.running_iff (rest : sequence.AtRest b fit) {id : UnitId} {unit : U}
    (known : sequence.registry.get? id = some unit) :
    b.running unit = true ↔ id ∈ sequence.conductor.playing.units :=
  Resting.running_iff rest known trivial

theorem Resting.still (rest : sequence.Resting b terms) (idle : sequence.conductor.phase = .idle) :
    sequence.Still b terms.counts := by
  intro id unit known counted
  have nobody := (rest.sane.coherent.idle idle).1
  have apart := mt (rest.running_iff known counted).1
  rw [nobody] at apart
  simpa using apart

theorem AtRest.still (rest : sequence.AtRest b fit) (idle : sequence.conductor.phase = .idle) :
    ∀ id unit, sequence.registry.get? id = some unit → b.running unit = false :=
  fun id unit known => Resting.still rest idle id unit known trivial

/-- With nothing in the queue and no unit running a sequence that is idle is at rest. -/
theorem Winding.resting (w : sequence.Winding b terms) (idle : sequence.conductor.phase = .idle)
    (empty : sequence.queue = []) : sequence.Resting b terms := by
  have nobody := (w.sane.coherent.idle idle).1
  refine ⟨⟨w.sane, .inl idle, fun id unit known counted => ?_⟩, empty⟩
  rw [empty, w.still id unit known counted, nobody]
  rfl

/-- When the queue begins with an end of a unit that counts, that unit plays. -/
theorem Accounted.ended_plays (accounted : sequence.Accounted b terms) {report : Report}
    {rest : List Report} (queue : sequence.queue = report :: rest) (ended : report.event = .ended)
    {unit : U} (known : sequence.registry.get? report.unit = some unit)
    (counted : terms.counts unit) :
    report.unit ∈ sequence.conductor.playing.units := by
  have account := accounted.balanced report.unit unit known counted
  have first : report = ⟨report.unit, .ended⟩ := by rw [← ended]
  by_contra absent
  rw [if_neg absent, queue, List.count_cons, ← first] at account
  simp at account

/-- The balance without the first report of the queue: if that is an end, it is not owed any
more. -/
theorem Accounted.balanced_rest (accounted : sequence.Accounted b terms) {report : Report}
    {rest : List Report} (queue : sequence.queue = report :: rest) :
    ({ sequence with queue := rest } : Sequence U).Balanced b terms.counts
      (report.without sequence.conductor.playing.units) := by
  intro id unit known counted
  have account := accounted.balanced id unit known counted
  have distinct := accounted.sane.coherent.nodup
  rw [queue, List.count_cons] at account
  by_cases first : report = ⟨id, .ended⟩
  · -- its own end was owed, and is not any more
    subst first
    have plays : id ∈ sequence.conductor.playing.units := by
      by_contra absent
      simp [absent] at account
    have gone : id ∉ Report.without ⟨id, .ended⟩ sequence.conductor.playing.units := fun member =>
      (distinct.mem_erase_iff.1 member).1 rfl
    rw [if_neg gone]
    simp only [plays, BEq.rfl, ↓reduceIte] at account
    simp only
    omega
  · have same : (report == (⟨id, .ended⟩ : Report)) = false := by simpa using first
    have stays : id ∈ report.without sequence.conductor.playing.units ↔
        id ∈ sequence.conductor.playing.units := by
      rw [Report.without]
      split
      · rename_i ended
        have apart : id ≠ report.unit := by
          rintro rfl
          exact first (by rw [← ended])
        exact List.mem_erase_of_ne apart
      · rfl
    simp only [stays]
    simpa [same] using account

/-- Of the units that count just those owe an end that do when what is started comes after what
plays. -/
theorem Accounted.mem_without (accounted : sequence.Accounted b terms)
    {report : Report} {rest : List Report} (queue : sequence.queue = report :: rest)
    (fresh : List UnitId) {id : UnitId} {unit : U} (known : sequence.registry.get? id = some unit)
    (counted : terms.counts unit) :
    id ∈ report.without (sequence.conductor.playing.units ++ fresh) ↔
      id ∈ report.without sequence.conductor.playing.units ++ fresh := by
  rw [Report.without, Report.without]
  split
  · rename_i ended
    by_cases own : id = report.unit
    · subst own
      rw [List.erase_append_left _ (accounted.ended_plays queue ended known counted)]
    · rw [List.mem_erase_of_ne own, List.mem_append, List.mem_append, List.mem_erase_of_ne own]
  · rfl

end Sequence

namespace Live

open Sequence

variable {live : Live U}

/-- The sequence is at rest, on a stage of the kind that it relies on. -/
structure Rests (b : Behaviour U) (terms : Terms U) (live : Live U) : Prop
    extends live.sequence.Resting b terms where
  stages : terms.stages live.stage

theorem accounted_heed (honors : b.Honors terms) (accounted : live.sequence.Accounted b terms)
    (stages : terms.stages live.stage) {report : Report} {rest : List Report}
    (queue : live.sequence.queue = report :: rest) :
    (live.heed b report rest).2.sequence.Accounted b terms ∧
      terms.stages (live.heed b report rest).2.stage := by
  have sane := accounted.sane
  have balance := accounted.balanced_rest queue
  rw [heed]
  rcases accounted.calm with idle | running
  · have unmoved : live.conductor.step report = (.nothing, live.conductor) :=
      Conductor.step_of_idle report idle
    have nobody := (sane.coherent.idle idle).1
    rw [nobody, Report.without, List.erase_nil, ite_self, ← nobody] at balance
    rw [unmoved]
    exact ⟨⟨sane.conduct rest rfl sane.coherent sane.enrolled, .inl idle, balance⟩, stages⟩
  · obtain ⟨fresh, tail, commands, idly, distinct, inside, plays, phase⟩ :=
      Conductor.step_fresh sane.coherent running sane.enrolled report
    have registered : ∀ id ∈ fresh, live.sequence.registry.contains id = true := fun id member =>
      sane.grounded.registered id (inside id member)
    have enrolled : ∀ id ∈ (live.conductor.step report).2.playing.units,
        id ∈ live.sequence.graph.nodes.map Node.unit := by
      intro id member
      rw [conductor, plays] at member
      exact (List.mem_append.1 (Report.mem_of_mem_without member)).elim (sane.enrolled id)
        (inside id)
    have fewer : (report.without live.sequence.conductor.playing.units).Sublist
        live.sequence.conductor.playing.units := by
      rw [Report.without]
      split
      · exact List.erase_sublist
      · exact .refl _
    have coherent := (Conductor.step_spec sane.coherent report).1
    have sane' := sane.conduct rest (Conductor.graph_step live.conductor report) coherent enrolled
    obtain ⟨good, balance', counted⟩ :=
      execute_starts ⟨_, live.stage⟩ honors idly sane' stages balance
      (distinct.sublist (fewer.append (.refl fresh))) registered
    rw [← commands] at good balance' counted
    have same := conductor_execute b (live.conductor.step report).1.commands
      ⟨{ live.sequence with conductor := (live.conductor.step report).2, queue := rest },
        live.stage⟩
    refine ⟨⟨good.1, ?_, ?_⟩, good.2⟩
    · rw [conductor] at same
      rw [same]
      exact phase
    · rw [conductor] at same
      rw [same]
      refine balance'.congr fun id unit known counts => ?_
      obtain ⟨old, before, counted⟩ := counted id unit known counts
      exact (iff_of_eq (congrArg (id ∈ ·) plays)).trans
        (accounted.mem_without queue fresh before counted)

theorem accounted_drain (honors : b.Honors terms) (accounted : live.sequence.Accounted b terms)
    (stages : terms.stages live.stage) : (live.drain b).2.Rests b terms := by
  induction live using Live.drain.induct b with
  | case1 live none =>
    rw [drain_of_nil b none]
    exact ⟨⟨accounted, none⟩, stages⟩
  | case2 live report rest queue done =>
    rename_i ih
    rw [drain_of_cons b queue]
    obtain ⟨looked, stages⟩ := accounted_heed honors accounted stages queue
    exact ih looked stages

theorem execute_stops (live : Live U) (honors : b.Honors terms) {act : Act} (stops : act ≠ .start)
    {units : List UnitId} {tail : List Command} (idly : Conductor.Idly tail)
    (sane : live.sequence.Sane terms.fit) (stages : terms.stages live.stage)
    (all : ∀ id unit, live.sequence.registry.get? id = some unit → terms.counts unit →
      b.running unit = true → id ∈ units) :
    let after := (execute b (units.map (Command.call act) ++ tail) live).2
    (after.sequence.Sane terms.fit ∧ terms.stages after.stage) ∧
      after.sequence.Still b terms.counts := by
  induction units generalizing live with
  | nil =>
    intro after
    have same : after = live := execute_of_idly idly live
    rw [same]
    exact ⟨⟨sane, stages⟩, fun id unit known counted => by simpa using all id unit known counted⟩
  | cons id units ih =>
    cases here : live.sequence.registry.get? id with
    | none =>
      have called : live.call b act id = live := by rw [call, here]
      have next := ih live sane stages fun other unit known counted running =>
        (List.mem_cons.1 (all other unit known counted running)).resolve_left fun same => by
          rw [same, here] at known
          cases known
      rw [← called] at next
      exact next
    | some old =>
      have called : live.call b act id = ⟨live.sequence.takeBack id (b.act act old live.stage).1
          (b.act act old live.stage).2.1, (b.act act old live.stage).2.2⟩ := by
        rw [call, here]
      obtain ⟨fits, stages'⟩ := honors.act act old live.stage (sane.fits id old here) stages
      have sane' : (live.call b act id).sequence.Sane terms.fit :=
        called ▸ sane.takeBack here _ fits
      refine ih (live.call b act id) sane' (called ▸ stages')
        fun other unit known counted running => ?_
      rw [called, Sequence.takeBack, Registry.get?_update here] at known
      split at known
      · cases known
        have before := honors.act_counts _ _ _ counted
        rw [honors.stop act old live.stage (sane.fits id old here) stages before stops] at running
        cases running
      · rename_i apart
        exact (List.mem_cons.1 (all other unit known counted running)).resolve_left apart

theorem winding_drain (w : live.sequence.Winding b terms) :
    (live.drain b).2.sequence.Winding b terms ∧ (live.drain b).2.stage = live.stage ∧
      (live.drain b).2.sequence.queue = [] := by
  induction live using Live.drain.induct b with
  | case1 live none =>
    rw [drain_of_nil b none]
    exact ⟨w, rfl, none⟩
  | case2 live report rest queue done =>
    rename_i ih
    rw [drain_of_cons b queue]
    obtain ⟨idly, phase, fewer⟩ := Conductor.step_winding w.winding report
    have looked : done.2 = ⟨{ live.sequence with
        conductor := (live.conductor.step report).2, queue := rest }, live.stage⟩ :=
      execute_of_idly idly _
    have wound := ih (by
      rw [looked]
      exact ⟨w.sane.conduct rest (Conductor.graph_step live.conductor report)
        (Conductor.step_spec w.sane.coherent report).1
        fun id plays => w.sane.enrolled id (fewer id plays), phase, w.still⟩)
    rwa [congrArg Live.stage looked] at wound

theorem settleRun_rests (w : live.sequence.Winding b terms) (stages : terms.stages live.stage)
    (empty : live.sequence.queue = []) : (live.settleRun b).2.Rests b terms := by
  have winding : live.conductor.phase ≠ .running := w.winding
  have coherent : live.conductor.Coherent := w.sane.coherent
  obtain ⟨idle, idly, graph⟩ := Conductor.settle_winding winding
  have nobody := ((Conductor.settle_spec coherent).1.idle idle).1
  have settled : (live.settleRun b).2 = live.withConductor live.conductor.settle.2 := by
    rw [settleRun, drive]
    simp only [execute_of_idly idly]
    rw [drain_of_nil b (by exact empty)]
  have closed : (live.withConductor live.conductor.settle.2).sequence.Winding b terms := by
    refine ⟨w.sane.conduct live.sequence.queue graph (Conductor.settle_spec coherent).1 ?_, ?_,
      w.still⟩
    · simp [nobody]
    · exact fun running => by cases idle.symm.trans running
  rw [settled]
  exact ⟨closed.resting idle empty, stages⟩

theorem windDown_rests (honors : b.Honors terms) (rest : live.Rests b terms)
    {decided : Decision × Conductor} (down : live.conductor.WindsDown decided) :
    (live.windDown b decided).2.Rests b terms := by
  rw [windDown]
  rcases down with ⟨calm, rfl⟩
    | ⟨running, act, tail, stops, commands, idly, phase, graph, coherent, fewer⟩
  · have same : (live.withConductor live.conductor).drive b .nothing = ([], live) :=
      drive_nothing (by exact rest.empty)
    rw [same]
    exact settleRun_rests ⟨rest.sane, calm, rest.still (rest.calm.resolve_right calm)⟩ rest.stages
      rest.empty
  · have sane : (live.withConductor decided.2).sequence.Sane terms.fit :=
      rest.sane.conduct live.sequence.queue graph coherent fun id plays =>
        rest.sane.enrolled id (fewer id plays)
    have stopped := execute_stops (live.withConductor decided.2) honors stops idly sane rest.stages
      fun id unit known counted runs => (rest.running_iff known counted).1 runs
    have same := conductor_execute b decided.1.commands (live.withConductor decided.2)
    obtain ⟨⟨sane', stages⟩, still⟩ := commands ▸ stopped
    have winding : (execute b decided.1.commands (live.withConductor decided.2)).2.sequence.Winding
        b terms :=
      ⟨sane', fun now => phase ((congrArg Conductor.phase same).symm.trans now), still⟩
    obtain ⟨wound, stage, empty⟩ := winding_drain winding
    exact settleRun_rests wound (stage ▸ stages) empty

theorem endRun_rests (honors : b.Honors terms) (rest : live.Rests b terms) :
    (live.endRun b).2.Rests b terms :=
  windDown_rests honors rest (Conductor.windsDown_endRun rest.sane.coherent)

theorem cancelRun_rests (honors : b.Honors terms) (rest : live.Rests b terms) :
    (live.cancelRun b).2.Rests b terms :=
  windDown_rests honors rest (Conductor.windsDown_cancelRun rest.sane.coherent)

/-- Whether it begins a run or is refused, a start leaves the sequence at rest. -/
theorem startRun_rests (honors : b.Honors terms) (rest : live.Rests b terms) :
    (live.startRun b).2.Rests b terms := by
  have coherent := (Conductor.begin_spec rest.sane.grounded.sound rest.sane.coherent).1
  rw [Conductor.operate_begin] at coherent
  rw [startRun]
  by_cases idle : live.conductor.phase = .idle
  · have sorted := rest.sort honors
    cases begun : live.conductor.begin with
    | mk result after =>
      have begun' : live.sequence.conductor.begin = (result, after) := begun
      rw [begun'] at coherent
      cases result with
      | error cycle =>
        have same : after = { live.conductor with graph := live.conductor.graph.sorted.2 } := by
          rcases Conductor.begin_cases live.conductor with ⟨active, -⟩ | ⟨cycle, -, -, same⟩ |
            ⟨order, opened, -, -, -, ⟨-, same⟩ | ⟨-, same⟩⟩
          · exact absurd idle active
          all_goals cases begun.symm.trans same
          rfl
        rw [same]
        exact ⟨sorted, rest.stages⟩
      | ok decision =>
        obtain ⟨tail, commands, idly, graph, phase, inside⟩ := Conductor.begin_fresh idle begun
        have sane : (live.withConductor after).sequence.Sane terms.fit := by
          refine sorted.sane.conduct live.sequence.queue graph coherent fun id plays => ?_
          exact (Graph.nodes_sorted live.sequence.graph).symm ▸ inside id plays
        have nobody : live.conductor.playing.units = [] := (rest.sane.coherent.idle idle).1
        have balanced : (live.withConductor after).sequence.Balanced b terms.counts [] :=
          nobody ▸ rest.balanced
        obtain ⟨good, balanced', -⟩ :=
          execute_starts (live.withConductor after) honors idly sane rest.stages
          balanced (by simpa using coherent.nodup) fun id plays =>
            rest.sane.grounded.registered id (inside id plays)
        have same := conductor_execute b decision.commands (live.withConductor after)
        rw [← commands] at good balanced'
        refine accounted_drain honors ⟨good.1, ?_, balanced'.congr fun id _ _ _ => ?_⟩ good.2
        · exact (congrArg Conductor.phase same).symm ▸ phase
        · exact iff_of_eq (congrArg (id ∈ ·.playing.units) same)
  · have active : live.conductor.begin = (.ok .nothing, live.conductor) := by
      rw [Conductor.begin, if_pos idle]
    have nothing : (live.withConductor live.conductor).drive b .nothing = ([], live) :=
      drive_nothing (by exact rest.empty)
    rw [active]
    simp only [nothing]
    exact rest

theorem accounted_tickUnit (honors : b.Honors terms) (delta : Span) (id : UnitId)
    (accounted : live.sequence.Accounted b terms) (stages : terms.stages live.stage)
    (done : (live.tickUnit b delta id).1 = .ok ()) :
    (live.tickUnit b delta id).2.sequence.Accounted b terms ∧
      terms.stages (live.tickUnit b delta id).2.stage := by
  cases here : live.sequence.registry.get? id with
  | none =>
    rw [tickUnit, here]
    exact ⟨accounted, stages⟩
  | some old =>
    have fits := accounted.sane.fits id old here
    have after := fun events => honors.tick delta old live.stage events fits stages
    have counts := honors.tick_counts delta old live.stage
    have owed := fun events => honors.settle delta old live.stage events fits stages
    rcases reply : b.tick delta old live.stage with ⟨overflow | events, next, stage⟩
    · rw [tickUnit, here] at done
      simp only [reply] at done
      cases done
    · rw [reply] at after counts owed
      obtain ⟨fits', stages'⟩ := after events rfl
      rw [tickUnit, here]
      simp only [reply]
      refine ⟨⟨accounted.sane.takeBack here events fits', accounted.calm,
        accounted.balanced.takeBack here (fun _ _ => Iff.rfl) fun counted => ?_⟩, stages'⟩
      rw [owed events (counts counted) rfl]
      exact accounted.balanced id old here (counts counted)

theorem accounted_tickUnits (honors : b.Honors terms) (delta : Span) (units : List UnitId)
    (accounted : live.sequence.Accounted b terms) (stages : terms.stages live.stage)
    (done : (live.tickUnits b delta units).1 = .ok ()) :
    (live.tickUnits b delta units).2.sequence.Accounted b terms ∧
      terms.stages (live.tickUnits b delta units).2.stage := by
  induction units generalizing live with
  | nil => exact ⟨accounted, stages⟩
  | cons id units ih =>
    have first := accounted_tickUnit honors delta id accounted stages
    rw [tickUnits] at done ⊢
    rcases reply : live.tickUnit b delta id with ⟨overflow | ⟨⟩, next⟩
    · rw [reply] at done
      cases done
    · rw [reply] at first done
      obtain ⟨accounted, stages⟩ := first rfl
      exact ih accounted stages done

theorem tickRun_rests (honors : b.Honors terms) (delta : Span) (rest : live.Rests b terms)
    (done : ∃ events, (live.tickRun b delta).1 = .ok events) :
    (live.tickRun b delta).2.Rests b terms := by
  have ticked := accounted_tickUnits honors delta live.conductor.playing.units rest.toAccounted
    rest.stages
  rw [tickRun] at done ⊢
  split at done
  · rename_i idle
    rw [if_pos idle]
    exact rest
  · rename_i active
    rw [if_neg active]
    rcases reply : live.tickUnits b delta live.conductor.playing.units with ⟨overflow | ⟨⟩, next⟩
    · obtain ⟨events, done⟩ := done
      rw [reply] at done
      cases done
    · rw [reply] at ticked
      obtain ⟨accounted, stages⟩ := ticked rfl
      exact accounted_drain honors accounted stages

theorem obey_rests (honors : b.Honors terms) (act : Act) (rest : live.Rests b terms) :
    (obey b act live).2.Rests b terms := by
  cases act with
  | start =>
    have started := startRun_rests honors rest
    rw [obey]
    revert started
    rcases live.startRun b with ⟨cycle | events, next⟩ <;> exact id
  | finish => exact endRun_rests honors rest
  | cancel => exact cancelRun_rests honors rest

theorem Rests.deliver (honors : b.Honors terms) (rest : live.Rests b terms)
    (events : List Lifecycle) :
    (live.deliver events).Rests b terms :=
  ⟨rest.toResting, honors.deliver _ events live.stage rest.stages⟩

/-- Whatever the listeners ask for, serving them leaves the sequence at rest. -/
theorem serve_rests (honors : b.Honors terms) (limit : Nat) (rest : live.Rests b terms) :
    (serve b limit live).2.Rests b terms := by
  induction limit generalizing live with
  | zero => exact rest
  | succ limit ih =>
    rw [serve]
    cases next : live.stage.nextRequest? live.sequence.number with
    | none => exact rest
    | some taken =>
      have first : ({ live with stage := taken.2 } : Live U).Rests b terms :=
        ⟨rest.toResting, honors.take next rest.stages⟩
      have obeyed := obey_rests honors taken.1 first
      exact ih (obeyed.deliver honors _)

theorem publish_rests (honors : b.Honors terms) (events : List Lifecycle)
    (rest : live.Rests b terms) :
    (live.publish b events).2.Rests b terms :=
  serve_rests honors _ (rest.deliver honors events)

theorem respond_rests (honors : b.Honors terms) (act : Act) (rest : live.Rests b terms) :
    (live.respond b act).2.Rests b terms := by
  have obeyed := obey_rests honors act rest
  rw [respond]
  split
  · exact obeyed
  · exact publish_rests honors _ obeyed

theorem tickAsUnit_rests (honors : b.Honors terms) (delta : Span) (rest : live.Rests b terms)
    (done : ∃ events, (live.tickAsUnit b delta).1 = .ok events) :
    (live.tickAsUnit b delta).2.Rests b terms := by
  have ticked := tickRun_rests honors delta rest
  rw [tickAsUnit] at done ⊢
  rcases reply : live.tickRun b delta with ⟨overflow | events, next⟩
  · obtain ⟨events, done⟩ := done
    rw [reply] at done
    cases done
  · rw [reply] at ticked
    exact publish_rests honors events (ticked ⟨events, rfl⟩)

theorem onCue_rests (honors : b.Honors terms) {cue : Cue U} (honest : cue.Honest b terms)
    (rest : live.Rests b terms) (returned : (live.onCue b cue).1.returns = true) :
    (live.onCue b cue).2.Rests b terms := by
  have grounded := rest.sane.grounded
  cases cue with
  | add label unit => exact ⟨rest.enter honest.1 honest.2 _, rest.stages⟩
  | play unit links =>
    obtain ⟨now, extended⟩ := grounded.playWith b.timer unit links
    exact ⟨rest.extend honors now extended, rest.stages⟩
  | together units =>
    obtain ⟨now, extended⟩ := grounded.playTogether b.timer units
    exact ⟨rest.extend honors now extended, rest.stages⟩
  | sequential units =>
    obtain ⟨now, extended⟩ := grounded.playSequentially b.timer units
    exact ⟨rest.extend honors now extended, rest.stages⟩
  | sort =>
    rw [onCue, revise, snd_sortedUnits]
    exact ⟨rest.sort honors, rest.stages⟩
  | start =>
    rw [onCue, snd_start]
    exact respond_rests honors .start rest
  | finish => exact respond_rests honors .finish rest
  | cancel => exact respond_rests honors .cancel rest
  | tick delta =>
    rw [onCue, tick_eq] at returned ⊢
    refine tickAsUnit_rests honors delta rest ?_
    rcases reply : (live.tickAsUnit b delta).1 with overflow | events
    · rw [reply] at returned
      cases returned
    · exact ⟨events, rfl⟩
  | report report => exact honest.elim
  | serve => exact publish_rests honors _ rest
  | meanwhile change => exact ⟨rest.toResting, honest live.stage rest.stages⟩

theorem rests_empty (number : Nat) {stage : Stage} (stages : terms.stages stage) :
    (⟨.empty number, stage⟩ : Live U).Rests b terms := by
  have none : ∀ id, (Sequence.empty number : Sequence U).registry.get? id = none := by
    simp [Sequence.empty, Registry.empty, Registry.get?, Registry.slot?]
  refine ⟨⟨⟨⟨grounded_empty number, Conductor.coherent_fresh, fun id unit known => ?_, ?_⟩,
    .inl rfl, fun id unit known => ?_⟩, rfl⟩, stages⟩
  · rw [none] at known
    cases known
  · simp [Sequence.empty, Conductor.fresh, Playing.none]
  · rw [none] at known
    cases known

/-- After any cues that keep to the terms and come back, a sequence is at rest. -/
theorem rehearse_rests (honors : b.Honors terms) {cues : List (Cue U)}
    (honest : ∀ cue ∈ cues, cue.Honest b terms) (rest : live.Rests b terms)
    (returned : ∀ outcome ∈ (live.rehearse b cues).1, outcome.returns = true) :
    (live.rehearse b cues).2.Rests b terms :=
  rehearse_induction b (fun _ _ honest rest => onCue_rests honors honest rest) rest honest returned

theorem atRest_empty (number : Nat) : (Sequence.empty number : Sequence U).AtRest b fit :=
  (rests_empty number (show (Terms.all fit).stages .bare from trivial)).toResting

/-- Every cue leaves a sequence at rest if units are idle when they come in and nothing is reported
from outside. -/
theorem onCue_atRest (dutiful : b.Dutiful fit) {cue : Cue U} (proper : cue.Proper b fit)
    (rest : live.sequence.AtRest b fit) (returned : (live.onCue b cue).1.returns = true) :
    (live.onCue b cue).2.sequence.AtRest b fit :=
  (onCue_rests dutiful.honors proper.honest ⟨rest, trivial⟩ returned).toResting

theorem rehearse_atRest (dutiful : b.Dutiful fit) {cues : List (Cue U)}
    (proper : ∀ cue ∈ cues, cue.Proper b fit) (rest : live.sequence.AtRest b fit)
    (returned : ∀ outcome ∈ (live.rehearse b cues).1, outcome.returns = true) :
    (live.rehearse b cues).2.sequence.AtRest b fit :=
  (rehearse_rests dutiful.honors (fun cue member => (proper cue member).honest) ⟨rest, trivial⟩
    returned).toResting

end Live

end Choreo
