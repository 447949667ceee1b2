import Choreo.Proofs.Sequence.Prompt
import Choreo.World.Member

/-!
# Runs that are over at once

Puppets that end at once, and clips and delays without duration, are over as soon as they start. A
sequence of such members plays a whole run when it is told to start, wave by wave.
-/

namespace Choreo

open Happening

namespace Performer

/-- The performer is over as soon as it starts. -/
def Prompt : Performer → Prop
  | .clip c _ => c.running = false ∧ c.duration.isZero = true
  | .delay d => d.running = false ∧ d.duration.isZero = true
  | .puppet p => p.running = false ∧ p.mode.immediate = true
  | .scripted s => s.onStart = [.started, .ended]

variable {performer : Performer}

theorem Prompt.start (prompt : performer.Prompt) :
    (performer.act .start).1 = [.started, .ended] := by
  cases performer with
  | clip c track => simp [Performer.act, Clip.start, prompt.1, prompt.2]
  | delay d => simp [Performer.act, Delay.start, prompt.1, prompt.2]
  | puppet p => simp [Performer.act, Puppet.start, prompt.1, prompt.2]
  | scripted s => exact prompt

theorem Prompt.act (prompt : performer.Prompt) (act : Act) : (performer.act act).2.Prompt := by
  cases performer with
  | clip c track =>
    cases act
      <;> simp [Prompt, Performer.act, Clip.start, Clip.finish, Clip.cancel, prompt.1, prompt.2]
  | delay d =>
    cases act
      <;> simp [Prompt, Performer.act, Delay.start, Delay.finish, Delay.cancel, prompt.1, prompt.2]
  | puppet p =>
    cases act
      <;> simp [Prompt, Performer.act, Puppet.start, Puppet.finish, Puppet.cancel, Puppet.stop,
        prompt.1, prompt.2]
  | scripted s => cases act <;> exact prompt

theorem Prompt.tick (prompt : performer.Prompt) (delta : Span) :
    performer.tick delta = .ok ([], performer) := by
  cases performer with
  | clip c track => simp [Performer.tick, Clip.tick, prompt.1, Except.map]
  | delay d => simp [Performer.tick, Delay.tick, prompt.1, Except.map]
  | puppet p => simp [Performer.tick, Puppet.tick, prompt.1, Except.map]
  | scripted s => rfl

end Performer

namespace Member

/-- The member is a performer that is over as soon as it starts. -/
def Prompt : Member → Prop
  | .performer _ p => p.Prompt
  | .ensemble .. => False

theorem prompt (depth : Nat) : (behaviour depth).Prompt Prompt := by
  have same : ∀ watch p stage, (∀ act, (behaviour depth).act act (.performer watch p) stage =
      perform act watch p stage) ∧
      ∀ delta, (behaviour depth).tick delta (.performer watch p) stage =
        pass delta watch p stage := by
    intro watch p stage
    cases depth <;> exact ⟨fun _ => rfl, fun _ => rfl⟩
  constructor
  · rintro (⟨watch, p⟩ | _) stage is
    · rw [(same watch p stage).1]
      exact Performer.Prompt.start is
    · exact is.elim
  · rintro act (⟨watch, p⟩ | _) stage is
    · rw [(same watch p stage).1]
      exact Performer.Prompt.act is act
    · exact is.elim
  · rintro delta (⟨watch, p⟩ | _) stage is
    · rw [(same watch p stage).2]
      simpa only [pass, Performer.pass, Performer.Prompt.tick is delta] using is
    · exact is.elim

/-- Where no nodes wait for one another in a circle and all units are puppets that end at once, or
clips and delays without duration, one call for a start plays the whole run, if nobody requests
anything meanwhile. It comes back in order, and all units of the graph were told to start, each
once, and nothing else was asked of anybody: none before one whose longest chain of dependencies is
shorter, so each after all that it waits for. The start of the run and its end are delivered, and
the sequence is idle with nothing left to look at. Whatever is asked of it then, unless it is to
relate more units, the next start does the same. -/
theorem prompt_run (depth number : Nat) (stage : Stage) (cues : List (Cue Member)) :
    let b := behaviour depth
    let live := (Live.rehearse b cues ⟨.empty number, stage⟩).2
    let graph := live.conductor.graph
    let nodes := graph.nodes
    (∀ outcome ∈ (Live.rehearse b cues ⟨.empty number, stage⟩).1, outcome.returns = true) →
    live.conductor.phase = .idle → Graph.Acyclic nodes →
    (∀ unit ∈ nodes.map Node.unit, ∃ member, live.sequence.registry.get? unit = some member ∧
      member.Prompt) →
    live.Unasked → requests (live.respondStory b .start) = [] →
    ((live.start b).1 = .ok () ∧ (live.start b).2.conductor.phase = .idle ∧
      (live.start b).2.sequence.queue = [] ∧
      deliveries (live.respondStory b .start) = [.started, .ended]) ∧
    (∃ first rest : List Nat,
      inward (live.respondStory b .start) = asks (graph.units first) ++
        .announced .started :: (asks (graph.units rest) ++ [.announced .ended]) ∧
      (graph.units (first ++ rest)).Perm (nodes.map Node.unit) ∧ (nodes.map Node.unit).Nodup ∧
      Graph.Wavewise nodes (first ++ rest) ∧
      (∀ node < nodes.length, Graph.Height nodes node (Graph.depth nodes node)) ∧
      ∀ p node, Graph.Waits nodes p node → (first ++ rest).idxOf p < (first ++ rest).idxOf node) ∧
    ∀ more : List (Cue Member), (∀ cue ∈ more, cue.performs = true) →
      let later := (live.rehearse b more).2
      later.conductor.phase = .idle ∧ later.sequence.queue = [] ∧
        (later.Unasked → requests (later.respondStory b .start) = [] →
          (later.start b).1 = .ok () ∧
          deliveries (later.respondStory b .start) = [.started, .ended] ∧
          inward (later.respondStory b .start) = inward (live.respondStory b .start)) := by
  intro b live graph nodes returned idle acyclic all unasked silent
  obtain ⟨reached, calm⟩ : live.Reached ∧ live.Calm := Live.calm_of_returned returned
  have arena : Arena graph.nodes := reached.conductor.sound.arena
  have poised : live.Poised Prompt := ⟨reached, idle, calm.empty, acyclic, all⟩
  obtain ⟨past, empty, story, delivered⟩ := poised.respondStory (prompt depth) unasked silent
  refine ⟨⟨live.start_of_acyclic b reached.conductor.sound acyclic, past, empty, delivered⟩, ?_,
    fun more performs => ?_⟩
  · obtain ⟨-, first, rest, wavewise, played⟩ := poised.run (prompt depth)
    exact ⟨first, rest, story.trans played, wavewise.units arena, arena.units_nodup, wavewise,
      fun node inside => Graph.height_of_acyclic arena acyclic inside,
      fun p node waits => wavewise.before arena acyclic waits⟩
  · intro later
    have poised' : later.Poised Prompt := poised.rehearse (prompt depth) performs
    obtain ⟨events, performed⟩ := live.performs_rehearse b performs
    refine ⟨poised'.idle, poised'.empty, fun unasked' silent' => ?_⟩
    obtain ⟨-, -, story', delivered'⟩ := poised'.respondStory (prompt depth) unasked' silent'
    refine ⟨later.start_of_acyclic b poised'.reached.conductor.sound poised'.acyclic,
      delivered', ?_⟩
    rw [story', story]
    exact poised.same (prompt depth) poised' performed.nodes

/-- A puppet that ends at once, a clip without duration that waits for its start and its end, and a
delay without duration that waits for the end of either. -/
def trioCues : List (Cue Member) :=
  [.add none (.performer none (.puppet (.fresh .instant false))),
    .add none (.performer none (.clip (.fresh .zero 0) none)), .add none (timer .zero),
    .together [⟨0, 0⟩, ⟨0, 1⟩], .sequential [⟨0, 0⟩, ⟨0, 1⟩, ⟨0, 2⟩], .sequential [⟨0, 0⟩, ⟨0, 2⟩]]

def trio : Live Member := (Live.rehearse (behaviour 0) trioCues ⟨.empty 0, Stage.bare⟩).2

theorem allPrompt_trio : trio.AllPrompt Prompt := by
  have units : trio.conductor.graph.nodes.map Node.unit = [⟨0, 0⟩, ⟨0, 1⟩, ⟨0, 2⟩] := by cbv
  intro unit member
  rw [units] at member
  simp only [List.mem_cons, List.not_mem_nil, or_false] at member
  rcases member with rfl | rfl | rfl
  · exact ⟨.performer none (.puppet (.fresh .instant false)), by cbv, rfl, rfl⟩
  · exact ⟨.performer none (.clip (.fresh .zero 0) none), by cbv, rfl, rfl⟩
  · exact ⟨timer .zero, by cbv, rfl, rfl⟩

/-- The puppet starts first, which is announced; then the clip and then the delay, and after the run
and a cancellation that comes to nothing once more. -/
theorem prompt_run_trio :
    (trio.start (behaviour 0)).1 = .ok () ∧
      deliveries (trio.respondStory (behaviour 0) .start) = [.started, .ended] ∧
      inward ((trio.rehearse (behaviour 0) [.start, .cancel]).2.respondStory (behaviour 0) .start) =
        asks [⟨0, 0⟩] ++ .announced .started :: (asks [⟨0, 1⟩, ⟨0, 2⟩] ++ [.announced .ended]) := by
  have reached : trio.Reached := (Live.reached_empty 0 Stage.bare).rehearse trioCues
  have acyclic : Graph.Acyclic trio.conductor.graph.nodes :=
    (Graph.waveOrder_isOk_iff reached.conductor.sound.arena).1 ⟨[0, 1, 2], by cbv⟩
  obtain ⟨⟨returned, -, -, delivered⟩, -, again⟩ := prompt_run 0 0 Stage.bare trioCues
    (List.all_eq_true.1 (by cbv)) (by cbv) acyclic allPrompt_trio (by cbv) (by cbv)
  obtain ⟨-, -, same⟩ := again [.start, .cancel] (List.all_eq_true.1 (by cbv))
  have played : inward (trio.respondStory (behaviour 0) .start) =
      asks [⟨0, 0⟩] ++ .announced .started :: (asks [⟨0, 1⟩, ⟨0, 2⟩] ++ [.announced .ended]) := by
        cbv
  exact ⟨returned, delivered, (same (by cbv) (by cbv)).2.2.trans played⟩

end Member

end Choreo
