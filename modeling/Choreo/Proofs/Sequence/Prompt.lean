import Choreo.Proofs.Run.Cascade
import Choreo.Proofs.Sequence.Refusal
import Choreo.Proofs.Sequence.Replay

/-!
# Sequences of prompt units

If all units of a sequence are over as soon as they start, a start of the sequence plays the whole
run: its conductor cascades, and the sequence does what the conductor decides. Between two calls
such a sequence is always idle, so it can be started again at any time, and does the same again.
-/

namespace Choreo

open Happening

variable {U : Type} {b : Behaviour U} {prompt : U → Prop}

/-- Units of this kind are over as soon as they start, and remain of this kind whatever they are
told. -/
structure Behaviour.Prompt (b : Behaviour U) (prompt : U → Prop) : Prop where
  start : ∀ unit stage, prompt unit → (b.act .start unit stage).1 = [.started, .ended]
  act : ∀ act unit stage, prompt unit → prompt (b.act act unit stage).2.1
  tick : ∀ delta unit stage, prompt unit → prompt (b.tick delta unit stage).2.1

/-- The unit of this name is of a kind. -/
def Registry.Kind (kind : U → Prop) (registry : Registry U) (id : UnitId) : Prop :=
  ∃ unit, registry.get? id = some unit ∧ kind unit

/-- A unit that is replaced by one of a kind is of the kind, and the others are what they were. -/
theorem Registry.Kind.update {registry : Registry U} {kind : U → Prop} {id other : UnitId}
    {old unit : U} (known : registry.get? id = some old) (is : registry.Kind kind other)
    (keeps : kind old → kind unit) :
    (registry.update id unit).Kind kind other := by
  obtain ⟨holder, here, fits⟩ := is
  rw [Kind, get?_update known]
  split
  · rename_i same
    subst same
    rw [known] at here
    cases here
    exact ⟨unit, rfl, keeps fits⟩
  · exact ⟨holder, here, fits⟩

theorem Registry.Kind.push {registry : Registry U} {kind : U → Prop} {id : UnitId}
    (is : registry.Kind kind id) (slot : Slot U) :
    ({ registry with slots := registry.slots.push slot } : Registry U).Kind kind id := by
  obtain ⟨holder, here, fits⟩ := is
  refine ⟨holder, ?_, fits⟩
  rw [get?_push, if_neg, here]
  rintro rfl
  rw [get?_nextId] at here
  cases here

theorem Behaviour.Prompt.throughout (prompts : b.Prompt prompt) :
    b.Throughout fun before after => ∀ id, before.1.Kind prompt id → after.1.Kind prompt id :=
  ⟨⟨fun _ _ is => is, fun one two id is => two id (one id is),
    fun act _ unit _ stage known _ is => is.update known (prompts.act act unit stage),
    fun delta _ unit _ stage known _ is => is.update known (prompts.tick delta unit stage)⟩,
    fun _ _ _ _ is => is, fun _ _ is => is⟩

namespace Happening

/-- These units are told to start, one after the other, and each is over at once. -/
def asks (units : List UnitId) : List Happening :=
  units.map fun unit => .asked unit (some .start) (.ok [.started, .ended])

theorem announcements_asks (units : List UnitId) : announcements (asks units) = [] :=
  List.filterMap_eq_nil_iff.2 fun happening member => by
    obtain ⟨unit, -, rfl⟩ := List.mem_map.1 member
    rfl

end Happening

/-- What happens between a sequence and its prompt units when a command is carried out. -/
def Command.story : Command → Happening
  | .call act unit => .asked unit (some act) (.ok [.started, .ended])
  | .announce event => .announced event

namespace Conductor

theorem Reachable.starts_of_called {conductor : Conductor}
    (reached : conductor.Reachable) {operation : Operation}
    (goes : operation = .begin ∨ ∃ report, operation = .step report) {act : Act} {unit : UnitId}
    (called : .call act unit ∈ (conductor.operate operation).1.commands) : act = .start := by
  have only : ∀ (units : List UnitId) (events : List Lifecycle),
      .call act unit ∈ units.map (Command.call .start) ++ events.map .announce → act = .start := by
    intro units events member
    rcases List.mem_append.1 member with calls | announces
    · obtain ⟨_, _, same⟩ := List.mem_map.1 calls
      exact (Command.call.inj same).1.symm
    · obtain ⟨_, _, same⟩ := List.mem_map.1 announces
      cases same
  rcases goes with rfl | ⟨report, rfl⟩
  · rcases begin_cases conductor with ⟨-, begun⟩ | ⟨cycle, -, -, begun⟩ |
      ⟨order, opened, -, -, -, ⟨-, begun⟩ | ⟨-, begun⟩⟩
    all_goals simp only [operate, begun, Decision.nothing, List.not_mem_nil] at called
    · simp at called
    · exact only _ [.started] called
  · by_cases idle : conductor.phase = .idle
    · rw [operate, step_of_idle report idle] at called
      cases called
    cases found : conductor.graph.nodeFor? report.unit with
    | none =>
      rw [operate, step_of_absent found] at called
      cases called
    | some node =>
      rw [operate, reached.wired.step_eq reached.sound.arena idle found] at called
      split at called
      · exact only _ [.ended] called
      · exact only _ [] (List.mem_append_left _ called)

end Conductor

/-! ### What happens between the sequence and its units -/

namespace Live

variable {live : Live U}

theorem execute_prompt (prompts : b.Prompt prompt) {commands : List Command} (calls : ∀ act id,
      .call act id ∈ commands → act = .start ∧ live.sequence.registry.Kind prompt id) :
    inward (executeStory b commands live) = commands.map Command.story ∧
      (execute b commands live).2.sequence.queue =
        live.sequence.queue ++ (Decision.mk commands false).started.flatMap Report.both := by
  induction commands generalizing live with
  | nil => exact ⟨rfl, (List.append_nil _).symm⟩
  | cons command commands ih =>
    have others := fun act id member => calls act id (List.mem_cons_of_mem _ member)
    cases command with
    | announce event =>
      obtain ⟨told, queue⟩ := ih others
      exact ⟨congrArg (Happening.announced event :: ·) told, queue⟩
    | call act id =>
      obtain ⟨rfl, unit, known, is⟩ := calls act id (List.mem_cons_self ..)
      have kept := setting_call prompts.throughout.toWithin live .start id
      have still : ∀ act other, .call act other ∈ commands → act = .start ∧
          (live.call b .start id).sequence.registry.Kind prompt other := fun act other member =>
        ⟨(others act other member).1, kept other (others act other member).2⟩
      obtain ⟨told, queue⟩ := ih still
      have reply := prompts.start unit live.stage is
      constructor
      · rw [executeStory, inward_append, told, callStory, known]
        simp only [reply]
        rw [inward, List.filter_cons_of_pos rfl, ← inward, Stage.inward_changes]
        rfl
      · rw [execute, queue, call, known]
        simp only [reply, Sequence.takeBack]
        exact List.append_assoc ..

/-- All units of the graph are prompt. -/
def AllPrompt (prompt : U → Prop) (live : Live U) : Prop :=
  ∀ id ∈ live.conductor.graph.nodes.map Node.unit, live.sequence.registry.Kind prompt id

theorem drain_prompt (prompts : b.Prompt prompt) (reached : live.Reached)
    (all : live.AllPrompt prompt) :
    ∃ commands, live.conductor.Cascades live.sequence.queue commands (live.drain b).2.conductor ∧
      inward (live.drainStory b) = commands.map Command.story := by
  induction live using Live.drain.induct b with
  | case1 live none =>
    rw [drain_of_nil b none, drainStory_of_nil b live none, none]
    exact ⟨[], .nil _, rfl⟩
  | case2 live report rest queue done =>
    rename_i ih
    let looked := live.conducted (live.conductor.step report).2 rest
    have nodes : (live.conductor.step report).2.graph.nodes = live.conductor.graph.nodes :=
      @Conductor.nodes_operate (.step report) rfl live.conductor
    have same : done.2.conductor = (live.conductor.step report).2 := conductor_execute b _ looked
    have calls : ∀ act id, .call act id ∈ (live.conductor.step report).1.commands →
        act = .start ∧ looked.sequence.registry.Kind prompt id := fun act id called =>
      ⟨reached.conductor.starts_of_called (.inr ⟨report, rfl⟩) called,
        all id (reached.conductor.called_mem (.step report) called)⟩
    obtain ⟨told, grown⟩ := execute_prompt prompts calls
    have kept := setting_execute prompts.throughout.toWithin looked
      (live.conductor.step report).1.commands
    obtain ⟨commands, cascade, story⟩ := ih (reached.execute (.step report) rfl rest _)
      fun id member =>
      kept id (all id (by rwa [same, nodes] at member))
    rw [same] at cascade
    rw [drain_of_cons b queue, drainStory_of_cons b live queue, queue, inward_append, story]
    refine ⟨_, .cons (grown ▸ cascade), ?_⟩
    rw [List.map_append, ← told]
    rfl

/-- A sequence with nothing to look at, no run and no cycle, all units of which are prompt. -/
structure Poised (prompt : U → Prop) (live : Live U) : Prop where
  reached : live.Reached
  idle : live.conductor.phase = .idle
  empty : live.sequence.queue = []
  acyclic : Graph.Acyclic live.conductor.graph.nodes
  all : live.AllPrompt prompt

namespace Poised

theorem cascades (poised : live.Poised prompt) (prompts : b.Prompt prompt) :
    ∃ decision opened commands,
    live.conductor.begin = (.ok decision, opened) ∧
      opened.Cascades (decision.started.flatMap Report.both) commands
        (obey b .start live).2.conductor ∧
      inward (live.obeyStory b .start) = (decision.commands ++ commands).map Command.story := by
  obtain ⟨decision, opened, begun⟩ :=
    Conductor.begin_of_acyclic poised.reached.conductor.sound poised.acyclic
  obtain ⟨-, started, story⟩ := startRun_of_begun b begun
  have operated : live.conductor.operate .begin = (decision, opened) := by
    rw [Conductor.operate, begun]
  have nodes : opened.graph.nodes = live.conductor.graph.nodes := by
    have same := @Conductor.nodes_operate .begin rfl live.conductor
    rwa [operated] at same
  let launched := live.withConductor opened
  have calls : ∀ act id, .call act id ∈ decision.commands →
      act = .start ∧ launched.sequence.registry.Kind prompt id := by
    intro act id called
    have decided : .call act id ∈ (live.conductor.operate .begin).1.commands := by rwa [operated]
    exact ⟨poised.reached.conductor.starts_of_called (.inl rfl) decided,
      poised.all id (poised.reached.conductor.called_mem .begin decided)⟩
  obtain ⟨told, grown⟩ := execute_prompt prompts calls
  have after : (execute b decision.commands launched).2.Reached := by
    have carried := poised.reached.execute (b := b) .begin rfl live.sequence.queue decision.commands
    rwa [operated] at carried
  have kept := setting_execute prompts.throughout.toWithin launched decision.commands
  have same : (execute b decision.commands launched).2.conductor = opened :=
    conductor_execute b _ launched
  obtain ⟨commands, cascade, more⟩ := drain_prompt prompts after fun id member =>
    kept id (poised.all id (by rwa [same, nodes] at member))
  rw [same, grown, show launched.sequence.queue = [] from poised.empty] at cascade
  refine ⟨decision, opened, commands, begun, ?_, ?_⟩
  · rw [obey, started]
    exact cascade
  · rw [obeyStory, story, driveStory, inward_append, told, more, List.map_append]

theorem run (poised : live.Poised prompt) (prompts : b.Prompt prompt) :
    (obey b .start live).2.conductor.phase = .idle ∧ ∃ first rest,
      Graph.Wavewise live.conductor.graph.nodes (first ++ rest) ∧
      inward (live.obeyStory b .start) = asks (live.conductor.graph.units first) ++
        .announced .started :: (asks (live.conductor.graph.units rest) ++ [.announced .ended]) := by
  obtain ⟨decision, opened, commands, begun, cascade, story⟩ := poised.cascades prompts
  obtain ⟨done, first, rest, wavewise, decided⟩ :=
    Conductor.cascade_complete poised.reached.conductor.sound
    poised.reached.conductor.coherent poised.acyclic poised.idle begun cascade
  refine ⟨done, first, rest, wavewise, ?_⟩
  rw [story, decided]
  simp only [List.map_append, List.map_map, List.map_cons, List.map_nil, asks]
  rfl

theorem same (poised : live.Poised prompt) (prompts : b.Prompt prompt)
    {other : Live U} (poised' : other.Poised prompt)
    (nodes : other.conductor.graph.nodes = live.conductor.graph.nodes) :
    inward (other.obeyStory b .start) = inward (live.obeyStory b .start) := by
  obtain ⟨decision, opened, commands, begun, cascade, story⟩ := poised.cascades prompts
  obtain ⟨decision', opened', commands', begun', cascade', story'⟩ := poised'.cascades prompts
  have sound := poised.reached.conductor.sound
  have sound' := poised'.reached.conductor.sound
  obtain ⟨decided, alike⟩ :=
    Conductor.begin_alike sound sound' nodes.symm poised.acyclic poised.idle poised'.idle
  have opens := Conductor.sound_operate live.conductor .begin sound
  have opens' := Conductor.sound_operate other.conductor .begin sound'
  rw [Conductor.operate_begin] at opens opens'
  rw [begun] at decided alike opens
  rw [begun'] at decided alike opens'
  obtain rfl := Except.ok.inj decided
  rw [story, story', cascade.commands_eq cascade' alike opens opens']

theorem keep (poised : live.Poised prompt) {next : Live U} (reached : next.Reached)
    (idle : next.conductor.phase = .idle) (empty : next.sequence.queue = [])
    (nodes : next.conductor.graph.nodes = live.conductor.graph.nodes)
    (kinds : ∀ id, live.sequence.registry.Kind prompt id → next.sequence.registry.Kind prompt id) :
    next.Poised prompt :=
  ⟨reached, idle, empty, nodes ▸ poised.acyclic,
    fun id member => kinds id (poised.all id (nodes ▸ member))⟩

theorem withStage (poised : live.Poised prompt) (stage : Stage) :
    ({ live with stage } : Live U).Poised prompt :=
  poised.keep (poised.reached.keep (fun _ => rfl) rfl poised.reached.conductor) poised.idle
    poised.empty rfl fun _ is => is

theorem obey (poised : live.Poised prompt) (prompts : b.Prompt prompt) (act : Act) :
    (obey b act live).2.Poised prompt := by
  have calm : live.Calm := ⟨.inl poised.idle, poised.empty⟩
  cases act with
  | start =>
    exact poised.keep ((moves_obey b live .start).reached poised.reached) (poised.run prompts).1
      (calm_obey b calm .start).empty (live.performs_obey b .start).nodes
      (setting_obey prompts.throughout.toWithin live .start)
  | finish => rwa [Live.obey, endRun_of_idle b calm poised.idle]
  | cancel => rwa [Live.obey, cancelRun_of_idle b calm poised.idle]

theorem serve (poised : live.Poised prompt) (prompts : b.Prompt prompt) (limit : Nat) :
    (serve b limit live).2.Poised prompt := by
  induction limit generalizing live with
  | zero => exact poised
  | succ limit ih =>
    rw [Live.serve]
    cases live.stage.nextRequest? live.sequence.number with
    | none => exact poised
    | some next => exact ih (((poised.withStage next.2).obey prompts next.1).withStage _)

theorem publish (poised : live.Poised prompt) (prompts : b.Prompt prompt)
    (events : List Lifecycle) :
    (live.publish b events).2.Poised prompt := (poised.withStage _).serve prompts _

theorem respond (poised : live.Poised prompt) (prompts : b.Prompt prompt) (act : Act) :
    (live.respond b act).2.Poised prompt := by
  have obeyed := poised.obey prompts act
  rw [Live.respond]
  split
  · exact obeyed
  · exact obeyed.publish prompts _

/-- Whatever is asked of it, if only its graph is left alone the sequence is poised afterwards. -/
theorem onCue (poised : live.Poised prompt) (prompts : b.Prompt prompt) {cue : Cue U}
    (performs : cue.performs = true) : (live.onCue b cue).2.Poised prompt := by
  cases cue with
  | play | together | sequential => cases performs
  | meanwhile change => exact poised.withStage _
  | start =>
    rw [Live.onCue, snd_start]
    exact poised.respond prompts .start
  | finish => exact poised.respond prompts .finish
  | cancel => exact poised.respond prompts .cancel
  | serve => exact poised.publish prompts []
  | tick delta =>
    rw [Live.onCue, tick_eq, tickAsUnit, tickRun_of_idle b delta poised.idle]
    exact poised.publish prompts []
  | report report =>
    let queued := live.conducted live.conductor (live.sequence.queue ++ [report])
    have settled := settles_drain b queued
    rw [show queued.conductor.phase = .idle from poised.idle] at settled
    have reached : queued.Reached := poised.reached.keep (fun _ => rfl) rfl poised.reached.conductor
    have looked : (queued.drain b).2.Poised prompt :=
      poised.keep ((moves_drain b queued).reached reached) settled.of_idle.2 (queue_drain b queued)
        (queued.performs_drain b).nodes (setting_drain prompts.throughout.toWithin queued)
    exact looked.publish prompts _
  | add label unit =>
    exact poised.keep (poised.reached.onCue (.add label unit)) poised.idle poised.empty rfl
      fun id is => is.push _
  | sort =>
    have same : (live.onCue b .sort).2 =
        live.revise fun sequence => sequence.withGraph sequence.graph.sorted.2 := by
      rw [Live.onCue, revise, Sequence.snd_sortedUnits]
      rfl
    rw [same]
    exact poised.keep (same ▸ poised.reached.onCue .sort) poised.idle poised.empty
      (Graph.nodes_sorted _) fun id is => is

theorem rehearse (poised : live.Poised prompt) (prompts : b.Prompt prompt) {cues : List (Cue U)}
    (performs : ∀ cue ∈ cues, cue.performs = true) : (live.rehearse b cues).2.Poised prompt := by
  induction cues generalizing live with
  | nil => exact poised
  | cons cue rest ih =>
    exact ih (poised.onCue prompts (performs cue (List.mem_cons_self ..)))
      fun other member => performs other (List.mem_cons_of_mem _ member)

theorem announced (poised : live.Poised prompt) (prompts : b.Prompt prompt) :
    (Live.obey b .start live).1 = [.started, .ended] := by
  obtain ⟨-, first, rest, -, story⟩ := poised.run prompts
  rw [← announcements_obeyStory, ← announcements_inward, story, announcements_append,
    announcements_asks]
  change .started :: announcements (asks _ ++ _) = _
  rw [announcements_append, announcements_asks]
  rfl

/-- If nobody requests anything the call comes back when the run is over, its start and its end are
delivered, and that is all that happens. -/
theorem respondStory (poised : live.Poised prompt) (prompts : b.Prompt prompt)
    (unasked : live.Unasked) (silent : requests (live.respondStory b .start) = []) :
    (live.start b).2.conductor.phase = .idle ∧ (live.start b).2.sequence.queue = [] ∧
      inward (live.respondStory b .start) = inward (live.obeyStory b .start) ∧
      deliveries (live.respondStory b .start) = [.started, .ended] := by
  obtain ⟨decision, opened, -, begun, -⟩ := poised.cascades prompts
  obtain ⟨accepted, started, -⟩ := startRun_of_begun b begun
  have after := poised.respond prompts .start
  rw [← snd_start] at after
  have told := poised.announced prompts
  rw [Live.respondStory, accepted] at silent ⊢
  obtain ⟨obeying, publishing⟩ := requests_append_eq_nil.1 silent
  obtain ⟨delivering, -⟩ := requests_append_eq_nil.1 publishing
  have waiting := (moves_obey b live .start).unasked unasked obeying
  have delivered : ((Live.obey b .start live).2.deliver (Live.obey b .start live).1).Unasked :=
    Stage.Unasked.announceAll waiting delivering
  have published : (Live.obey b .start live).2.publishStory b (Live.obey b .start live).1 =
      (Live.obey b .start live).2.deliverStory [.started, .ended] := by
    rw [publishStory, (delivered.serve _).2, List.append_nil, told]
  refine ⟨after.idle, after.empty, ?_, ?_⟩
  · rw [inward_append]
    simp only [published, Bool.false_eq_true, ↓reduceIte, deliverStory,
      Stage.inward_announceAllStory, List.append_nil]
  · rw [deliveries_append, obeyStory, deliveries_startRunStory]
    simp only [published, Bool.false_eq_true, ↓reduceIte, deliverStory,
      Stage.deliveries_announceAllStory, List.nil_append]

end Poised

end Live

end Choreo
