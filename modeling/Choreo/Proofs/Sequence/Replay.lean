import Mathlib.Data.Option.Defs
import Choreo.Proofs.Sequence.Conducting
import Choreo.Proofs.Sequence.Edits
import Choreo.Proofs.Stage.Traffic

/-!
# Sequences that do the same

Two sequences have the same graph, conductors that are alike, units that answer alike, and nobody
sends requests to either of them. Then whatever is asked of both, the same happens between each of
them and its units, the same is announced, and they are alike afterwards, whoever listens to them.
-/

namespace Choreo

open Happening

variable {U : Type}

/-- Units that are alike answer alike, on whatever stages they are, and have no part in the
traffic. -/
structure Behaviour.Respects (b : Behaviour U) (same : U → U → Prop) : Prop where
  symm : ∀ u v, same u v → same v u
  act : ∀ act u v stage stage', same u v → (b.act act u stage).1 = (b.act act v stage').1 ∧
    same (b.act act u stage).2.1 (b.act act v stage').2.1
  tick : ∀ delta u v stage stage', same u v → (b.tick delta u stage).1 = (b.tick delta v stage').1 ∧
    same (b.tick delta u stage).2.1 (b.tick delta v stage').2.1
  act_channels : ∀ act u v stage, same u v → (b.act act u stage).2.2.channels = stage.channels
  tick_channels : ∀ delta u v stage, same u v → (b.tick delta u stage).2.2.channels = stage.channels

namespace Conductor

/-- Conductors that are alike, of the same graph without cycles. -/
structure Twins (c d : Conductor) : Prop where
  alike : c.Alike d
  sound : c.graph.Sound
  sound' : d.graph.Sound
  acyclic : Graph.Acyclic c.graph.nodes

namespace Twins

variable {c d : Conductor}

theorem operate (twins : c.Twins d) (operation : Operation) (performs : operation.performs = true) :
    (c.operate operation).1 = (d.operate operation).1 ∧
      (c.operate operation).2.Twins (d.operate operation).2 := by
  obtain ⟨decided, alike⟩ := twins.alike.operate twins.sound twins.sound' operation
  exact ⟨decided, alike, sound_operate c operation twins.sound,
    sound_operate d operation twins.sound', (nodes_operate performs c).symm ▸ twins.acyclic⟩

theorem begin (twins : c.Twins d) : ∃ decision next next', c.begin = (.ok decision, next) ∧
    d.begin = (.ok decision, next') ∧ next.Twins next' := by
  obtain ⟨decision, next, begun⟩ := begin_of_acyclic twins.sound twins.acyclic
  obtain ⟨decided, -⟩ := twins.alike.begin twins.sound twins.sound'
  have begun' : d.begin = (.ok decision, d.begin.2) := Prod.ext (by rw [← decided, begun]) rfl
  have after := (twins.operate .begin rfl).2
  rw [operate_begin, operate_begin, begun] at after
  exact ⟨decision, next, _, begun, begun', after⟩

end Twins

/-- Idle conductors of the same graph begin alike, whatever they remember of the runs before. -/
theorem twins_begin {c d : Conductor} (sound : c.graph.Sound) (sound' : d.graph.Sound)
    (nodes : c.graph.nodes = d.graph.nodes) (acyclic : Graph.Acyclic c.graph.nodes)
    (idle : c.phase = .idle) (idle' : d.phase = .idle) : ∃ decision next next',
      c.begin = (.ok decision, next) ∧ d.begin = (.ok decision, next') ∧ next.Twins next' := by
  obtain ⟨decision, next, begun⟩ := begin_of_acyclic sound acyclic
  obtain ⟨decided, alike⟩ := begin_alike sound sound' nodes acyclic idle idle'
  have begun' : d.begin = (.ok decision, d.begin.2) := Prod.ext (by rw [← decided, begun]) rfl
  have sound_begin := sound_operate c .begin sound
  have sound_begin' := sound_operate d .begin sound'
  have same : (c.operate .begin).2.graph.nodes = c.graph.nodes := nodes_operate rfl c
  rw [operate_begin, begun] at sound_begin same
  rw [operate_begin] at sound_begin'
  rw [begun] at alike
  exact ⟨decision, next, _, begun, begun', alike, sound_begin, sound_begin', same ▸ acyclic⟩

end Conductor

/-- The part of a story that is played between the sequence and its units. -/
def Happening.inward (story : List Happening) : List Happening := story.filter isInward

theorem Happening.inward_append (story more : List Happening) :
    inward (story ++ more) = inward story ++ inward more :=
  List.filter_append ..

theorem Happening.announcements_inward (story : List Happening) :
    announcements (inward story) = announcements story := by
  rw [announcements, inward, List.filterMap_filter, announcements]
  refine List.filterMap_congr fun happening _ => ?_
  cases happening <;> rfl

theorem Happening.announcements_congr {story other : List Happening}
    (same : inward story = inward other) :
    announcements story = announcements other := by
  rw [← announcements_inward, same, announcements_inward]

theorem Stage.inward_changes (number : Nat) (before after : Stage) :
    inward (changes number before after) = [] := by
  rw [inward, List.filter_eq_nil_iff]
  intro happening member
  rcases mem_changes member with ⟨id, rfl⟩ | ⟨id, ear, rfl⟩ | ⟨act, rfl⟩ <;> simp [isInward]

theorem Stage.inward_announceAllStory (number : Nat) (events : List Lifecycle) (stage : Stage) :
    inward (announceAllStory number events stage) = [] := by
  have told : ∀ event (audience : List (Nat × Listener)) (stage : Stage),
      inward (tellStory number event audience stage) = [] := by
    intro event audience
    induction audience with
    | nil => exact fun stage => rfl
    | cons entry rest ih =>
      intro stage
      have sent := inward_changes number stage (stage.notify event entry.2)
      rw [tellStory, inward, List.cons_append, List.filter_cons_of_neg (by simp [isInward]),
        ← inward, inward_append, sent, ih]
      rfl
  induction events generalizing stage with
  | nil => rfl
  | cons event events ih =>
    rw [announceAllStory, inward_append, ih, List.append_nil, announceStory, inward,
      List.filter_cons_of_neg (by simp [isInward])]
    exact told event _ _

namespace Live

/-- Nothing that matters tells one sequence of this number from the other, their conductors
apart. -/
structure Akin (same : U → U → Prop) (number : Nat) (x y : Live U) : Prop where
  own : x.sequence.number = number
  own' : y.sequence.number = number
  units : ∀ id, Option.Rel same (x.sequence.registry.get? id) (y.sequence.registry.get? id)
  queue : x.sequence.queue = y.sequence.queue
  silent : (x.stage.channel number).weight = 0
  silent' : (y.stage.channel number).weight = 0

/-- Nothing that matters tells one sequence of this number from the other. -/
structure Alike (same : U → U → Prop) (number : Nat) (x y : Live U) : Prop extends
    x.Akin same number y where
  conductor : x.conductor.Twins y.conductor

variable {b : Behaviour U} {same : U → U → Prop} {number : Nat} {x y : Live U}

theorem Akin.withConductor (akin : x.Akin same number y) {c d : Conductor} (twins : c.Twins d) :
    (x.withConductor c).Alike same number (y.withConductor d) :=
  ⟨⟨akin.own, akin.own', akin.units, akin.queue, akin.silent, akin.silent'⟩, twins⟩

/-- What two units that are alike answer is taken back alike. -/
theorem Alike.takeBack (alike : x.Alike same number y) {id : UnitId} {u v u' v' : U}
    {stage stage' : Stage} (known : x.sequence.registry.get? id = some u)
    (known' : y.sequence.registry.get? id = some v)
    (events : List Lifecycle) (after : same u' v') (channels : stage.channels = x.stage.channels)
    (channels' : stage'.channels = y.stage.channels) :
    Alike same number ⟨x.sequence.takeBack id events u', stage⟩
      ⟨y.sequence.takeBack id events v', stage'⟩ := by
  refine ⟨⟨alike.own, alike.own', fun other => ?_, ?_, ?_, ?_⟩, alike.conductor⟩
  · rw [Sequence.takeBack, Sequence.takeBack, Registry.get?_update known,
      Registry.get?_update known']
    split
    · exact .some after
    · exact alike.units other
  · rw [Sequence.takeBack, Sequence.takeBack, alike.queue]
  · have silent := alike.silent
    rwa [← Stage.channel_congr channels] at silent
  · have silent := alike.silent'
    rwa [← Stage.channel_congr channels'] at silent

/-- The unit of a name is there in both sequences or in neither. -/
theorem Alike.unit_cases (alike : x.Alike same number y) (id : UnitId) :
    x.sequence.registry.get? id = none ∧ y.sequence.registry.get? id = none ∨
      ∃ u v, x.sequence.registry.get? id = some u ∧ y.sequence.registry.get? id = some v ∧
        same u v := by
  have related := alike.units id
  cases here : x.sequence.registry.get? id <;> cases there : y.sequence.registry.get? id <;>
    rw [here, there] at related <;> cases related
  · exact .inl ⟨rfl, rfl⟩
  · rename_i u v both
    exact .inr ⟨u, v, rfl, rfl, both⟩

theorem call_alike (respects : b.Respects same) (alike : x.Alike same number y) (act : Act)
    (id : UnitId) :
    inward (x.callStory b act id) = inward (y.callStory b act id) ∧
      (x.call b act id).Alike same number (y.call b act id) := by
  rcases alike.unit_cases id with ⟨none, none'⟩ | ⟨u, v, known, known', both⟩
  · simp only [callStory, call, none, none']
    exact ⟨trivial, alike⟩
  · obtain ⟨reply, after⟩ := respects.act act u v x.stage y.stage both
    simp only [callStory, call, known, known']
    constructor
    · have first : ∀ reply, isInward (.asked id (some act) reply) = true := fun _ => rfl
      rw [inward, inward, List.filter_cons_of_pos (first _), List.filter_cons_of_pos (first _),
        ← inward, ← inward, Stage.inward_changes, Stage.inward_changes, reply]
    · rw [reply]
      exact alike.takeBack known known' _ after (respects.act_channels act u v x.stage both)
        (respects.act_channels act v u y.stage (respects.symm u v both))

theorem execute_alike (respects : b.Respects same) (alike : x.Alike same number y)
    (commands : List Command) :
    inward (executeStory b commands x) = inward (executeStory b commands y) ∧
      (execute b commands x).2.Alike same number (execute b commands y).2 := by
  induction commands generalizing x y with
  | nil => exact ⟨rfl, alike⟩
  | cons command commands ih =>
    cases command with
    | call act id =>
      obtain ⟨told, after⟩ := call_alike respects alike act id
      obtain ⟨more, last⟩ := ih after
      refine ⟨?_, last⟩
      rw [executeStory, executeStory, inward_append, inward_append, told, more]
    | announce event =>
      obtain ⟨more, last⟩ := ih alike
      exact ⟨congrArg (Happening.announced event :: ·) more, last⟩

theorem heed_alike (respects : b.Respects same) (alike : x.Alike same number y) (report : Report)
    (rest : List Report) : inward (x.heedStory b report rest) = inward (y.heedStory b report rest) ∧
      (x.heed b report rest).2.Alike same number (y.heed b report rest).2 := by
  obtain ⟨decided, after⟩ := alike.conductor.operate (.step report) rfl
  have looked : Alike same number
      ⟨{ x.sequence with conductor := (x.conductor.step report).2, queue := rest }, x.stage⟩
      ⟨{ y.sequence with conductor := (y.conductor.step report).2, queue := rest }, y.stage⟩ :=
    ⟨⟨alike.own, alike.own', alike.units, rfl, alike.silent, alike.silent'⟩, after⟩
  have same : (x.conductor.step report).1 = (y.conductor.step report).1 := decided
  rw [heedStory, heedStory, heed, heed, same]
  exact execute_alike respects looked _

theorem drain_alike (respects : b.Respects same) (alike : x.Alike same number y) :
    inward (x.drainStory b) = inward (y.drainStory b) ∧
      (x.drain b).2.Alike same number (y.drain b).2 := by
  induction x using Live.drain.induct b generalizing y with
  | case1 x none =>
    have none' : y.sequence.queue = [] := alike.queue ▸ none
    rw [drainStory_of_nil b x none, drainStory_of_nil b y none', drain_of_nil b none,
      drain_of_nil b none']
    exact ⟨rfl, alike⟩
  | case2 x report rest queue done =>
    rename_i ih
    have queue' : y.sequence.queue = report :: rest := alike.queue ▸ queue
    obtain ⟨told, after⟩ := heed_alike respects alike report rest
    obtain ⟨more, last⟩ := ih after
    rw [drainStory_of_cons b x queue, drainStory_of_cons b y queue', drain_of_cons b queue,
      drain_of_cons b queue', inward_append, inward_append, told, more]
    exact ⟨rfl, last⟩

theorem drive_alike (respects : b.Respects same) (alike : x.Alike same number y)
    (decision : Decision) :
    inward (x.driveStory b decision) = inward (y.driveStory b decision) ∧
      (x.drive b decision).2.Alike same number (y.drive b decision).2 := by
  obtain ⟨told, after⟩ := execute_alike respects alike decision.commands
  obtain ⟨more, last⟩ := drain_alike respects after
  rw [driveStory, driveStory, inward_append, inward_append, told, more]
  exact ⟨rfl, last⟩

theorem settleRun_alike (respects : b.Respects same) (alike : x.Alike same number y) :
    inward (x.settleRunStory b) = inward (y.settleRunStory b) ∧
      (x.settleRun b).2.Alike same number (y.settleRun b).2 := by
  obtain ⟨decided, after⟩ := alike.conductor.operate .settle rfl
  have decided : y.conductor.settle.1 = x.conductor.settle.1 := decided.symm
  simp only [settleRunStory, settleRun, decided]
  exact drive_alike respects (alike.withConductor after) _

/-- A run that is wound down on both sides for the same reason is wound down alike. -/
theorem windDown_alike (respects : b.Respects same) (alike : x.Alike same number y)
    {decided decided' : Decision × Conductor} (commands : decided.1 = decided'.1)
    (after : decided.2.Twins decided'.2) :
    inward (x.windDownStory b decided) = inward (y.windDownStory b decided') ∧
      (x.windDown b decided).2.Alike same number (y.windDown b decided').2 := by
  obtain ⟨told, wound⟩ := drive_alike respects (alike.withConductor after) decided.1
  obtain ⟨more, last⟩ := settleRun_alike respects wound
  simp only [windDownStory, windDown, inward_append, ← commands, told, more]
  exact ⟨trivial, last⟩

theorem startRun_alike (respects : b.Respects same) {decision : Decision}
    {next next' : Conductor} (begun : x.conductor.begin = (.ok decision, next))
    (begun' : y.conductor.begin = (.ok decision, next'))
    (after : (x.withConductor next).Alike same number (y.withConductor next')) :
    inward (x.obeyStory b .start) = inward (y.obeyStory b .start) ∧
      (obey b .start x).2.Alike same number (obey b .start y).2 := by
  simp only [obeyStory, startRunStory, obey, startRun, begun, begun']
  exact drive_alike respects after decision

theorem obey_alike (respects : b.Respects same) (alike : x.Alike same number y) (act : Act) :
    inward (x.obeyStory b act) = inward (y.obeyStory b act) ∧
      (obey b act x).2.Alike same number (obey b act y).2 := by
  cases act with
  | start =>
    obtain ⟨decision, next, next', begun, begun', after⟩ := alike.conductor.begin
    exact startRun_alike respects begun begun' (alike.withConductor after)
  | finish =>
    obtain ⟨decided, after⟩ := alike.conductor.operate .finish rfl
    exact windDown_alike respects alike decided after
  | cancel =>
    obtain ⟨decided, after⟩ := alike.conductor.operate .cancel rfl
    exact windDown_alike respects alike decided after

theorem tickUnit_alike (respects : b.Respects same) (alike : x.Alike same number y) (delta : Span)
    (id : UnitId) :
    (x.tickUnit b delta id).1 = (y.tickUnit b delta id).1 ∧
      inward (x.tickUnitStory b delta id) = inward (y.tickUnitStory b delta id) ∧
      (x.tickUnit b delta id).2.Alike same number (y.tickUnit b delta id).2 := by
  rcases alike.unit_cases id with ⟨none, none'⟩ | ⟨u, v, known, known', both⟩
  · simp only [tickUnitStory, tickUnit, none, none']
    exact ⟨trivial, trivial, alike⟩
  · obtain ⟨reply, after⟩ := respects.tick delta u v x.stage y.stage both
    have channels := respects.tick_channels delta u v x.stage both
    have channels' := respects.tick_channels delta v u y.stage (respects.symm u v both)
    have told : inward (x.tickUnitStory b delta id) = inward (y.tickUnitStory b delta id) := by
      have first : ∀ reply, isInward (.asked id none reply) = true := fun _ => rfl
      simp only [tickUnitStory, known, known']
      rw [inward, inward, List.filter_cons_of_pos (first _), List.filter_cons_of_pos (first _),
        ← inward, ← inward, Stage.inward_changes, Stage.inward_changes, reply]
    have ticked : (x.tickUnit b delta id).1 = (y.tickUnit b delta id).1 ∧
        (x.tickUnit b delta id).2.Alike same number (y.tickUnit b delta id).2 := by
      simp only [tickUnit, known, known']
      generalize b.tick delta u x.stage = answer at reply after channels
      generalize b.tick delta v y.stage = answer' at reply after channels'
      rcases answer with ⟨overflow | events, u', stage⟩ <;>
        rcases answer' with ⟨overflow' | events', v', stage'⟩ <;> cases reply
      · exact ⟨rfl, alike.takeBack known known' [] after channels channels'⟩
      · exact ⟨rfl, alike.takeBack known known' events after channels channels'⟩
    exact ⟨ticked.1, told, ticked.2⟩

theorem tickUnits_alike (respects : b.Respects same) (alike : x.Alike same number y) (delta : Span)
    (units : List UnitId) : (x.tickUnits b delta units).1 = (y.tickUnits b delta units).1 ∧
      inward (x.tickUnitsStory b delta units) = inward (y.tickUnitsStory b delta units) ∧
      (x.tickUnits b delta units).2.Alike same number (y.tickUnits b delta units).2 := by
  induction units generalizing x y with
  | nil => exact ⟨rfl, rfl, alike⟩
  | cons id units ih =>
    obtain ⟨result, told, after⟩ := tickUnit_alike respects alike delta id
    rw [tickUnits, tickUnits, tickUnitsStory, tickUnitsStory, inward_append, inward_append, told]
    generalize x.tickUnit b delta id = ticked at result after
    generalize y.tickUnit b delta id = ticked' at result after
    rcases ticked with ⟨overflow | ⟨⟩, x'⟩ <;> rcases ticked' with ⟨overflow' | ⟨⟩, y'⟩
      <;> cases result
    · exact ⟨rfl, rfl, after⟩
    · obtain ⟨result, more, last⟩ := ih after
      exact ⟨result, by simp only [more], last⟩

theorem tickRun_alike (respects : b.Respects same) (alike : x.Alike same number y) (delta : Span) :
    (x.tickRun b delta).1 = (y.tickRun b delta).1 ∧
      inward (x.tickRunStory b delta) = inward (y.tickRunStory b delta) ∧
      (x.tickRun b delta).2.Alike same number (y.tickRun b delta).2 := by
  have idle : y.sequence.isIdle = x.sequence.isIdle :=
    congrArg (· == Phase.idle) alike.conductor.alike.phase.symm
  have playing : y.conductor.playing = x.conductor.playing := alike.conductor.alike.playing.symm
  rw [tickRunStory, tickRunStory, tickRun, tickRun, idle, playing]
  split
  · exact ⟨rfl, rfl, alike⟩
  · obtain ⟨result, told, after⟩ := tickUnits_alike respects alike delta x.conductor.playing.units
    simp only [inward_append, told]
    generalize x.tickUnits b delta x.conductor.playing.units = ticked at result after
    generalize y.tickUnits b delta x.conductor.playing.units = ticked' at result after
    rcases ticked with ⟨overflow | ⟨⟩, x'⟩ <;> rcases ticked' with ⟨overflow' | ⟨⟩, y'⟩
      <;> cases result
    · exact ⟨rfl, rfl, after⟩
    · obtain ⟨more, last⟩ := drain_alike respects after
      have announced : (x'.drain b).1 = (y'.drain b).1 := by
        rw [← announcements_drainStory, ← announcements_drainStory, announcements_congr more]
      exact ⟨congrArg Except.ok announced, by simp only [more], last⟩

/-- Where nobody sends requests, delivering is all there is to it. -/
theorem publish_silent (own : x.sequence.number = number)
    (silent : (x.stage.channel number).weight = 0) (events : List Lifecycle) :
    x.publish b events = (events, x.deliver events) ∧
      inward (x.publishStory b events) = [] := by
  subst own
  have quiet : (x.deliver events).stage.nextRequest? (x.deliver events).sequence.number = none :=
    Stage.nextRequest?_eq_none.2 (Stage.requests_of_silent (Stage.silent_announceAll events silent))
  have served : ∀ limit, serve b limit (x.deliver events) = ([], x.deliver events) ∧
      serveStory b limit (x.deliver events) = [] := by
    intro limit
    cases limit with
    | zero => exact ⟨rfl, rfl⟩
    | succ limit =>
      simp only [serve, serveStory, quiet]
      exact ⟨trivial, trivial⟩
  simp only [publish, publishStory, served, inward_append, deliverStory,
    Stage.inward_announceAllStory]
  exact ⟨by rw [List.append_nil], rfl⟩

theorem publish_alike (alike : x.Alike same number y) {events events' : List Lifecycle}
    (h : events = events') :
    inward (x.publishStory b events) = inward (y.publishStory b events') ∧
      (x.publish b events).2.Alike same number (y.publish b events').2 := by
  subst h
  obtain ⟨delivered, nothing⟩ := publish_silent (b := b) alike.own alike.silent events
  obtain ⟨delivered', nothing'⟩ := publish_silent (b := b) alike.own' alike.silent' events
  rw [delivered, delivered', nothing, nothing']
  refine ⟨rfl, ⟨alike.own, alike.own', alike.units, alike.queue, ?_, ?_⟩, alike.conductor⟩
  · rw [deliver, alike.own]
    exact Stage.silent_announceAll events alike.silent
  · rw [deliver, alike.own']
    exact Stage.silent_announceAll events alike.silent'

end Live

/-- A cue that runs the sequence, or changes its stage so that still nobody sends requests to it. -/
def Cue.Silent (number : Nat) : Cue U → Prop
  | .start | .finish | .cancel | .tick _ | .report _ | .serve => True
  | .meanwhile change => ∀ stage : Stage, (stage.channel number).weight = 0 →
      ((change stage).channel number).weight = 0
  | _ => False

namespace Live

variable {b : Behaviour U} {same : U → U → Prop} {number : Nat} {x y : Live U}

theorem refuses_of_begun {live : Live U} {decision : Decision}
    {next : Conductor} (begun : live.conductor.begin = (.ok decision, next)) (act : Act) :
    live.refuses act = false := by
  cases act with
  | start => simp [refuses, begun]
  | finish | cancel => rfl

/-- What comes of a call on both sides is published alike. -/
theorem respond_alike_of_obey {act : Act}
    (begins : x.refuses act = false) (begins' : y.refuses act = false)
    (told : inward (x.obeyStory b act) = inward (y.obeyStory b act))
    (obeyed : (obey b act x).2.Alike same number (obey b act y).2) :
    inward (x.respondStory b act) = inward (y.respondStory b act) ∧
      (x.respond b act).2.Alike same number (y.respond b act).2 := by
  have announced : (obey b act x).1 = (obey b act y).1 := by
    rw [← announcements_obeyStory, ← announcements_obeyStory, announcements_congr told]
  obtain ⟨more, last⟩ := publish_alike (b := b) obeyed announced
  simp only [respondStory, respond, begins, begins', Bool.false_eq_true, ↓reduceIte, inward_append,
    told, more]
  exact ⟨trivial, last⟩

theorem respond_alike (respects : b.Respects same) (alike : x.Alike same number y) (act : Act) :
    inward (x.respondStory b act) = inward (y.respondStory b act) ∧
      (x.respond b act).2.Alike same number (y.respond b act).2 := by
  obtain ⟨decision, next, next', begun, begun', -⟩ := alike.conductor.begin
  obtain ⟨told, obeyed⟩ := obey_alike respects alike act
  exact respond_alike_of_obey (refuses_of_begun begun act) (refuses_of_begun begun' act) told obeyed

theorem onCue_start_of_begins {live : Live U} (begins : live.refuses .start = false) :
    (live.onCue b .start).1 = .done := by
  rcases live.start_cases b with ⟨cycle, next, -, refused, -⟩ | ⟨events, next, started, -, -⟩
  · rw [begins] at refused
    cases refused
  · simp only [onCue, start, started]
    rfl

theorem tick_alike (respects : b.Respects same) (alike : x.Alike same number y) (delta : Span) :
    (x.tick b delta).1 = (y.tick b delta).1 ∧
      inward (x.tickStory b delta) = inward (y.tickStory b delta) ∧
      (x.tick b delta).2.Alike same number (y.tick b delta).2 := by
  obtain ⟨result, told, after⟩ := tickRun_alike respects alike delta
  rw [tickStory, tickStory, tick, tick, inward_append, inward_append, told]
  generalize x.tickRun b delta = ticked at result after
  generalize y.tickRun b delta = ticked' at result after
  rcases ticked with ⟨overflow | events, x'⟩ <;> rcases ticked' with ⟨overflow' | events', y'⟩ <;>
    cases result
  · exact ⟨rfl, rfl, after⟩
  · obtain ⟨more, last⟩ := publish_alike (b := b) after (Eq.refl events)
    exact ⟨rfl, by simp only [more], last⟩

/-- What is asked of both has the same outcome and leads to the same on both sides. -/
theorem cue_alike (respects : b.Respects same) (alike : x.Alike same number y) {cue : Cue U}
    (silent : cue.Silent number) : (x.onCue b cue).1 = (y.onCue b cue).1 ∧
      inward (x.cueStory b cue) = inward (y.cueStory b cue) ∧
      (x.onCue b cue).2.Alike same number (y.onCue b cue).2 := by
  cases cue with
  | add | play | together | sequential | sort => exact silent.elim
  | start =>
    obtain ⟨decision, next, next', begun, begun', -⟩ := alike.conductor.begin
    refine ⟨?_, ?_⟩
    · rw [onCue_start_of_begins (refuses_of_begun begun .start),
        onCue_start_of_begins (refuses_of_begun begun' .start)]
    · simp only [cueStory, onCue, snd_start]
      exact respond_alike respects alike .start
  | finish => exact ⟨rfl, respond_alike respects alike .finish⟩
  | cancel => exact ⟨rfl, respond_alike respects alike .cancel⟩
  | tick delta =>
    obtain ⟨result, told, after⟩ := tick_alike respects alike delta
    exact ⟨congrArg Outcome.ofTick result, told, after⟩
  | report report =>
    have queued : Alike same number
        ⟨{ x.sequence with queue := x.sequence.queue ++ [report] }, x.stage⟩
        ⟨{ y.sequence with queue := y.sequence.queue ++ [report] }, y.stage⟩ :=
      ⟨⟨alike.own, alike.own', alike.units, by rw [alike.queue], alike.silent, alike.silent'⟩,
        alike.conductor⟩
    obtain ⟨told, drained⟩ := drain_alike respects queued
    have announced := announcements_congr told
    rw [announcements_drainStory, announcements_drainStory] at announced
    obtain ⟨more, last⟩ := publish_alike (b := b) drained announced
    refine ⟨rfl, ?_, last⟩
    rw [cueStory, cueStory, reportStory, reportStory, inward_append, inward_append, told, more]
  | serve => exact ⟨rfl, publish_alike alike rfl⟩
  | meanwhile change =>
    refine ⟨rfl, ?_, ⟨alike.own, alike.own', alike.units, alike.queue, silent _ alike.silent,
      silent _ alike.silent'⟩, alike.conductor⟩
    rw [cueStory, cueStory, Stage.inward_changes, Stage.inward_changes]

theorem inward_rehearseStory_cons (cue : Cue U) (rest : List (Cue U)) (live : Live U) :
    inward (live.rehearseStory b (cue :: rest)) =
      inward (live.cueStory b cue) ++ inward ((live.onCue b cue).2.rehearseStory b rest) := by
  rw [rehearseStory, inward, List.cons_append, List.filter_cons_of_neg (by simp [isInward]),
    ← inward, inward_append]

theorem rehearse_alike (respects : b.Respects same) (alike : x.Alike same number y)
    {cues : List (Cue U)} (silent : ∀ cue ∈ cues, cue.Silent number) :
    (x.rehearse b cues).1 = (y.rehearse b cues).1 ∧
      inward (x.rehearseStory b cues) = inward (y.rehearseStory b cues) ∧
      (x.rehearse b cues).2.Alike same number (y.rehearse b cues).2 := by
  induction cues generalizing x y with
  | nil => exact ⟨rfl, rfl, alike⟩
  | cons cue rest ih =>
    obtain ⟨outcome, told, after⟩ := cue_alike respects alike (silent cue (List.mem_cons_self ..))
    obtain ⟨outcomes, more, last⟩ := ih after fun other member =>
      silent other (List.mem_cons_of_mem _ member)
    refine ⟨List.cons_eq_cons.2 ⟨outcome, outcomes⟩, ?_, last⟩
    rw [inward_rehearseStory_cons, inward_rehearseStory_cons, told, more]

/-- Two sequences with the same graph and units that answer alike are started alike when both are
idle, and do the same from then on, whatever went before. -/
theorem rehearse_start_alike (respects : b.Respects same)
    (akin : x.Akin same number y) (sound : x.conductor.graph.Sound)
    (sound' : y.conductor.graph.Sound) (nodes : x.conductor.graph.nodes = y.conductor.graph.nodes)
    (acyclic : Graph.Acyclic x.conductor.graph.nodes)
    (idle : x.conductor.phase = .idle) (idle' : y.conductor.phase = .idle) {cues : List (Cue U)}
    (silent : ∀ cue ∈ cues, cue.Silent number) :
    (x.rehearse b (.start :: cues)).1 = (y.rehearse b (.start :: cues)).1 ∧
      inward (x.rehearseStory b (.start :: cues)) = inward (y.rehearseStory b (.start :: cues)) ∧
      (x.rehearse b (.start :: cues)).2.Alike same number (y.rehearse b (.start :: cues)).2 := by
  obtain ⟨decision, next, next', begun, begun', twins⟩ :=
    Conductor.twins_begin sound sound' nodes acyclic idle idle'
  have begins := refuses_of_begun begun .start
  have begins' := refuses_of_begun begun' .start
  obtain ⟨told, obeyed⟩ := startRun_alike respects begun begun' (akin.withConductor twins)
  obtain ⟨told, after⟩ := respond_alike_of_obey begins begins' told obeyed
  have now : (x.onCue b .start).1 = (y.onCue b .start).1 := by
    rw [onCue_start_of_begins begins, onCue_start_of_begins begins']
  rw [← snd_start, ← snd_start] at after
  have begun : (x.onCue b .start).2.Alike same number (y.onCue b .start).2 := after
  obtain ⟨outcomes, more, last⟩ := rehearse_alike respects begun silent
  refine ⟨List.cons_eq_cons.2 ⟨now, outcomes⟩, ?_, last⟩
  rw [inward_rehearseStory_cons, inward_rehearseStory_cons, more]
  exact congrArg (· ++ _) told

end Live

end Choreo
