import Choreo.Proofs.Sequence.Moves
import Choreo.Proofs.Sequence.Outcomes
import Choreo.Proofs.Sequence.Reached

/-!
# Sequences keep their word

A sequence may be a unit of another one. Then it is told to start, to end, to cancel, and of the
time that goes by, and reports what it announces. As long as nobody sends it requests meanwhile,
what it reports is what a unit should report, whatever its own units do.
-/

namespace Choreo

variable {U : Type} {b : Behaviour U}

open Happening

theorem Happening.requests_append (story more : List Happening) :
    requests (story ++ more) = requests story ++ requests more :=
  List.filterMap_append

theorem Happening.requests_append_eq_nil {story more : List Happening} :
    requests (story ++ more) = [] ↔ requests story = [] ∧ requests more = [] := by
  rw [requests_append, List.append_eq_nil_iff]

namespace Stage

/-- Nothing is requested through a channel that is not served yet. -/
def Unasked (number : Nat) (stage : Stage) : Prop := (stage.channel number).requests = []

variable {number : Nat} {before after : Stage}

theorem Unasked.changes (unasked : before.Unasked number)
    (silent : requests (changes number before after) = []) :
    after.Unasked number := by
  have sent : ∀ acts : List Act, requests (acts.map .sent) = acts := by
    intro acts
    rw [requests, List.filterMap_map]
    exact List.filterMap_some
  obtain ⟨-, silent⟩ := requests_append_eq_nil.1 silent
  rwa [sent, unasked, List.length_nil, List.drop_zero] at silent

theorem Unasked.announceAll (unasked : before.Unasked number) {events : List Lifecycle}
    (silent : requests (announceAllStory number events before) = []) :
    (before.announceAll number events).Unasked number := by
  have told : ∀ event (audience : List (Nat × Listener)) {stage : Stage}, stage.Unasked number →
      requests (tellStory number event audience stage) = [] →
      ((audience.map Prod.snd).foldl (notify event) stage).Unasked number := by
    intro event audience
    induction audience with
    | nil => exact fun unasked _ => unasked
    | cons entry rest ih =>
      intro stage unasked silent
      obtain ⟨now, later⟩ := requests_append_eq_nil.1 silent
      exact ih (unasked.changes now) later
  induction events generalizing before with
  | nil => exact unasked
  | cons event events ih =>
    obtain ⟨now, later⟩ := requests_append_eq_nil.1 silent
    have hearing : (before.modify number (Channel.hear event)).Unasked number := by
      rw [Unasked, channel_modify]
      split <;> exact unasked
    exact ih (told event _ hearing now) later

end Stage

namespace Live

/-- Nothing is requested of the sequence that it has not served yet. -/
def Unasked (live : Live U) : Prop := live.stage.Unasked live.sequence.number

variable {live next : Live U}

theorem Unasked.call (unasked : live.Unasked) {act : Act} {id : UnitId}
    (silent : requests (live.callStory b act id) = []) : (live.call b act id).Unasked := by
  rw [callStory] at silent
  rw [Live.call]
  split
  · exact unasked
  · rename_i unit known
    rw [known] at silent
    exact Stage.Unasked.changes unasked silent

theorem Unasked.execute (unasked : live.Unasked)
    {commands : List Command} (silent : requests (executeStory b commands live) = []) :
    (execute b commands live).2.Unasked := by
  induction commands generalizing live with
  | nil => exact unasked
  | cons command commands ih =>
    cases command with
    | call act id =>
      obtain ⟨now, later⟩ := requests_append_eq_nil.1 silent
      exact ih (unasked.call now) later
    | announce event => exact ih unasked silent

/-- While nothing is requested nothing comes into the channel, and nothing is taken out of it. -/
theorem Move.unasked {story : List Happening} (move : Move b live story next)
    (unasked : live.Unasked) (silent : requests story = []) : next.Unasked := by
  cases move with
  | decide operation performs queue =>
    have conducted : (live.conducted (live.conductor.operate operation).2 queue).Unasked := unasked
    exact conducted.execute silent
  | refuse | enqueue => exact unasked
  | tick delta id =>
    rw [tickUnitStory] at silent
    rw [tickUnit]
    split
    · exact unasked
    · rename_i unit known
      rw [known] at silent
      have after : Stage.Unasked live.sequence.number (b.tick delta unit live.stage).2.2 :=
        Stage.Unasked.changes unasked silent
      split
      · rename_i answer
        rwa [answer] at after
      · rename_i answer
        rwa [answer] at after
  | deliver events => exact Stage.Unasked.announceAll unasked silent
  | take _ next =>
    have waiting := (Stage.nextRequest?_eq_some next).1
    rw [unasked] at waiting
    cases waiting

theorem Moves.unasked {story : List Happening} (moves : Moves b live story next)
    (unasked : live.Unasked) (silent : requests story = []) : next.Unasked := by
  induction moves with
  | nil => exact unasked
  | cons now later ih =>
    obtain ⟨first, rest⟩ := requests_append_eq_nil.1 silent
    exact ih (now.unasked unasked first) rest

theorem Unasked.serve (unasked : live.Unasked) (limit : Nat) :
    serve b limit live = ([], live) ∧ live.serveStory b limit = [] := by
  have nothing : live.stage.nextRequest? live.sequence.number = none := by
    rw [Stage.nextRequest?, unasked]
  cases limit with
  | zero => exact ⟨rfl, rfl⟩
  | succ limit =>
    rw [Live.serve, serveStory, nothing]
    exact ⟨rfl, rfl⟩

theorem Unasked.publish (unasked : live.Unasked) {events : List Lifecycle}
    (silent : requests (live.publishStory b events) = []) :
    live.publish b events = (events, live.deliver events) := by
  obtain ⟨delivering, -⟩ := requests_append_eq_nil.1 silent
  have delivered : (live.deliver events).Unasked := Stage.Unasked.announceAll unasked delivering
  rw [Live.publish, (delivered.serve _).1, List.append_nil]

theorem Unasked.publish_nil (unasked : live.Unasked) :
    live.publish b [] = ([], live) ∧ live.publishStory b [] = [] := by
  obtain ⟨served, story⟩ := unasked.serve (b := b) live.stage.weight
  exact ⟨by rw [Live.publish]; exact served, by rw [publishStory]; exact story⟩

/-- What a sequence reports when nothing is requested of it is what it announces on its own
account. -/
theorem Unasked.actAsUnit (unasked : live.Unasked) {act : Act} (accepted : live.refuses act = false)
    (silent : requests (live.respondStory b act) = []) : live.actAsUnit b act =
      ((obey b act live).1, (obey b act live).2.deliver (obey b act live).1) := by
  rw [respondStory, accepted] at silent
  obtain ⟨obeying, publishing⟩ := requests_append_eq_nil.1 silent
  have after := (moves_obey b live act).unasked unasked obeying
  have published := after.publish publishing
  rw [actAsUnit_eq, respond, accepted]
  exact published

theorem Unasked.actAsUnit_of_nothing (unasked : live.Unasked)
    {act : Act} (accepted : live.refuses act = false) (nothing : obey b act live = ([], live)) :
    live.actAsUnit b act = ([], live) := by
  rw [actAsUnit_eq, respond, accepted, nothing]
  exact unasked.publish_nil.1

theorem Unasked.tickAsUnit (unasked : live.Unasked) {delta : Span}
    (silent : requests (live.tickStory b delta) = []) : live.tickAsUnit b delta =
      match live.tickRun b delta with
      | (.error overflow, next) => (.error overflow, next)
      | (.ok events, next) => (.ok events, next.deliver events) := by
  rw [tickStory] at silent
  obtain ⟨ticking, publishing⟩ := requests_append_eq_nil.1 silent
  have after := (moves_tickRun b live delta).unasked unasked ticking
  rw [Live.tickAsUnit]
  rcases reply : live.tickRun b delta with ⟨overflow | events, next⟩
  · rfl
  · rw [reply] at after publishing
    simp only [after.publish publishing]

/-- Whatever a sequence has been asked, it is calm when all calls have come back. -/
theorem calm_of_returned {number : Nat} {stage : Stage} {cues : List (Cue U)}
    (returned : ∀ outcome ∈ (rehearse b cues ⟨.empty number, stage⟩).1, outcome.returns = true) :
    (rehearse b cues ⟨.empty number, stage⟩).2.Reached ∧
      (rehearse b cues ⟨.empty number, stage⟩).2.Calm := by
  have keeps : ∀ (cue : Cue U) (live : Live U), True → live.Reached ∧ live.Calm →
      (live.onCue b cue).1.returns = true → (live.onCue b cue).2.Reached ∧
        (live.onCue b cue).2.Calm :=
    fun cue _ _ both back => ⟨both.1.onCue cue, calm_onCue b both.2 both.1.grounded cue back⟩
  exact rehearse_induction b keeps ⟨reached_empty number stage, calm_empty number stage⟩
    (fun _ _ => trivial) returned

/-- Whatever its own units do, and whatever was asked of it before, a sequence of which nothing is
requested is idle or running between two calls, and is to others what a unit should be. A start
begins a run, which is reported, and is over at once or goes on; where nodes wait for one another in
a circle it is reported as canceled and over, and no unit hears of it; while a run goes on nothing
comes of it. A run that is ended or canceled is over when the call comes back, and is reported as
that. While time goes by the run goes on and nothing is reported, or it is over and its end is
reported, unless the time does not fit one of the units. And without a run there is nothing to end,
to cancel or to report. -/
theorem lawful_unit (b : Behaviour U) (number : Nat) (stage : Stage) (cues : List (Cue U)) :
    let first : Live U := ⟨.empty number, stage⟩
    let live := (first.rehearse b cues).2
    (∀ outcome ∈ (first.rehearse b cues).1, outcome.returns = true) → live.Unasked →
    (live.conductor.phase = .idle ∨ live.conductor.phase = .running) ∧
    (live.conductor.phase = .idle →
      (Graph.Acyclic live.conductor.graph.nodes → requests (live.respondStory b .start) = [] →
        let reply := live.actAsUnit b .start
        reply.1 = [.started] ∧ reply.2.conductor.phase = .running ∨
          reply.1 = [.started, .ended] ∧ reply.2.conductor.phase = .idle) ∧
      (¬ Graph.Acyclic live.conductor.graph.nodes → live.respondStory b .start = [.refused] ∧
        ∃ conductor, live.actAsUnit b .start = ([.canceled, .ended], live.withConductor conductor) ∧
          conductor.phase = .idle) ∧
      (∀ act, act ≠ .start → live.actAsUnit b act = ([], live)) ∧
      ∀ delta, live.tickAsUnit b delta = (.ok [], live)) ∧
    (live.conductor.phase = .running →
      (live.actAsUnit b .start = ([], live) ∧ live.respondStory b .start = []) ∧
      (requests (live.respondStory b .finish) = [] →
        let reply := live.actAsUnit b .finish
        reply.1 = [.ended] ∧ reply.2.conductor.phase = .idle) ∧
      (requests (live.respondStory b .cancel) = [] →
        let reply := live.actAsUnit b .cancel
        reply.1 = [.canceled, .ended] ∧ reply.2.conductor.phase = .idle) ∧
      ∀ delta, requests (live.tickStory b delta) = [] →
        match live.tickAsUnit b delta with
        | (.ok events, next) => events = [] ∧ next.conductor.phase = .running ∨
            events = [.ended] ∧ next.conductor.phase = .idle
        | (.error overflow, _) =>
          ∃ id, .asked id none (.error overflow) ∈ live.tickStory b delta) := by
  intro first live returned unasked
  obtain ⟨reached, calm⟩ : live.Reached ∧ live.Calm := calm_of_returned returned
  have circular : live.conductor.phase = .idle →
      (live.refuses .start = true ↔ ¬ Graph.Acyclic live.conductor.graph.nodes) := fun idle =>
    refuses_start_iff.trans (Conductor.begin_refused_iff reached.conductor.sound idle)
  refine ⟨calm.phase,
    fun idle => ⟨fun acyclic silent => ?_, fun cyclic => ?_, fun act stops => ?_, fun delta => ?_⟩,
    fun running => ⟨?_, fun silent => ?_, fun silent => ?_, fun delta silent => ?_⟩⟩
  · have accepted := mt (circular idle).1 (not_not.2 acyclic)
    rcases startRun_of_idle b idle with ⟨refused, -⟩ | ⟨accepted, events, next, started, -, outcome⟩
    · exact absurd refused accepted
    · rw [unasked.actAsUnit accepted silent, obey, started]
      exact outcome
  · have refused := (circular idle).2 cyclic
    rcases startRun_of_idle b idle with ⟨-, story, cycle, conductor, started, still⟩ | ⟨accepted, -⟩
    · refine ⟨?_, conductor, ?_, still⟩
      · rw [respondStory, obeyStory, story, refused]
        rfl
      · rw [actAsUnit_eq, respond, refused, obey, started]
        rfl
    · cases refused.symm.trans accepted
  · refine unasked.actAsUnit_of_nothing ?_ ?_
    · cases act <;> first | rfl | exact absurd rfl stops
    · cases act with
      | start => exact absurd rfl stops
      | finish => exact endRun_of_idle b calm idle
      | cancel => exact cancelRun_of_idle b calm idle
  · rw [Live.tickAsUnit, tickRun_of_idle b delta idle]
    simp only [unasked.publish_nil.1]
  · obtain ⟨accepted, started, story⟩ := startRun_of_active b calm.empty (by simp [running])
    refine ⟨unasked.actAsUnit_of_nothing accepted (by rw [obey, started]), ?_⟩
    rw [respondStory, accepted, obeyStory, story, obey, started]
    exact unasked.publish_nil.2
  · obtain ⟨told, -, past⟩ := endRun_of_running b running
    rw [unasked.actAsUnit rfl silent]
    exact ⟨told, past⟩
  · obtain ⟨told, -, past⟩ := cancelRun_of_running b reached.conductor.coherent running
    rw [unasked.actAsUnit rfl silent]
    exact ⟨told, past⟩
  · have passed := tickRun_of_running b delta running
    rw [unasked.tickAsUnit silent, tickStory]
    rcases reply : live.tickRun b delta with ⟨overflow | events, next⟩
    · rw [reply] at passed
      obtain ⟨id, member⟩ := passed
      exact ⟨id, List.mem_append_left _ member⟩
    · rw [reply] at passed
      obtain ⟨-, ⟨rfl, going⟩ | ⟨rfl, past, -⟩⟩ := passed
      · exact .inl ⟨rfl, going⟩
      · exact .inr ⟨rfl, past⟩

end Live

/-- Units that never report anything. -/
def mute : Behaviour Unit where
  act _ _ stage := ([], (), stage)
  tick _ _ stage := (.ok [], (), stage)
  running _ := false
  timer _ := ()

namespace Live

/-- Of two units that are mute the second waits for the first for ever, and still the sequence
reports its end when it is told to end, and when it is canceled that as well. -/
theorem lawful_unit_mute :
    let live :=
  (Live.rehearse mute [.add none (), .add none (), .sequential [⟨0, 0⟩, ⟨0, 1⟩], .start]
      ⟨.empty 0, Stage.bare⟩).2
    live.conductor.phase = .running ∧
      (live.actAsUnit mute .finish).1 = [.ended] ∧
        (live.actAsUnit mute .cancel).1 = [.canceled, .ended] := by
  have lawful := lawful_unit mute 0 Stage.bare
    [.add none (), .add none (), .sequential [⟨0, 0⟩, ⟨0, 1⟩], .start] (List.all_eq_true.1 (by cbv))
      (by cbv)
  have running :
      (Live.rehearse mute [.add none (), .add none (), .sequential [⟨0, 0⟩, ⟨0, 1⟩], .start]
        ⟨.empty 0, Stage.bare⟩).2.conductor.phase = .running := by cbv
  obtain ⟨-, ended, canceled, -⟩ := lawful.2.2 running
  exact ⟨running, (ended (by cbv)).1, (canceled (by cbv)).1⟩

end Live

end Choreo
