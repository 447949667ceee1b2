import Choreo.Proofs.Performer.Replay
import Choreo.Proofs.Sequence.Delivery

/-!
# Delivery among members

Sequences within sequences have channels of their own, and may send requests to each other. As long
as none of them has the number of the sequence that they play in, they take nothing out of its
channel. So what is announced in it is delivered and what is requested of it is served in order,
however deep its units are nested, and whatever listens to any of them: a witness does what its
reactions say, and there are reactions for whatever somebody may do at finitely many notifications
(`Listener.answers_script`).
-/

namespace Choreo

open Happening

namespace Member

/-- No sequence has this number, down to this depth of the member. -/
def Apart (number : Nat) : Nat → Member → Prop
  | depth + 1, .ensemble _ sequence =>
    sequence.number ≠ number ∧ sequence.registry.Fits (Apart number depth)
  | _, _ => True

theorem apart_performer (number depth : Nat) (watch : Option String) (p : Performer) :
    Apart number depth (.performer watch p) := by
  cases depth <;> trivial

theorem spares_logCall (number : Nat) (watch : Option String) (line : String → Line)
    (stage : Stage) :
    stage.Spares number (logCall watch line stage) :=
  .of_channels number (channels_logCall watch line stage)

theorem spares_logReport (number : Nat) (watch : Option String) (events : List Lifecycle)
    (stage : Stage) :
    stage.Spares number (logReport watch events stage) :=
  .of_channels number (channels_logReport watch events stage)

theorem apart_conduct {number depth : Nat}
    (discreet : (behaviour depth).Discreet (Apart number depth) number)
    (act : Act) (watch : Option String) {sequence : Sequence Member} (stage : Stage)
    (apart : Apart number (depth + 1) (.ensemble watch sequence)) :
    Apart number (depth + 1) (conduct (behaviour depth) act watch sequence stage).2.1 ∧
      stage.Spares number (conduct (behaviour depth) act watch sequence stage).2.2 := by
  let live : Live Member := ⟨sequence, logCall watch (Line.told · act) stage⟩
  obtain ⟨kept, spared⟩ := Live.setting_respond live discreet.throughout act apart.1 apart.2
  have called := (spares_logCall number watch (Line.told · act) stage).trans spared
  have answer : (live.actAsUnit (behaviour depth) act).2 =
      (live.respond (behaviour depth) act).2 := by
    rw [Live.actAsUnit_eq]
  rw [conduct, answer]
  exact ⟨⟨fun same => apart.1 (kept.owner.symm.trans same), kept.fits⟩,
    called.trans (spares_logReport number watch _ _)⟩

theorem apart_conductTick {number depth : Nat}
    (discreet : (behaviour depth).Discreet (Apart number depth) number) (delta : Span)
    (watch : Option String) {sequence : Sequence Member} (stage : Stage)
    (apart : Apart number (depth + 1) (.ensemble watch sequence)) :
    Apart number (depth + 1) (conductTick (behaviour depth) delta watch sequence stage).2.1 ∧
      stage.Spares number (conductTick (behaviour depth) delta watch sequence stage).2.2 := by
  let live : Live Member := ⟨sequence, logCall watch Line.ticked stage⟩
  obtain ⟨kept, spared⟩ := Live.setting_tickAsUnit live discreet.throughout delta apart.1 apart.2
  have called := (spares_logCall number watch Line.ticked stage).trans spared
  rw [conductTick]
  rcases reply : live.tickAsUnit (behaviour depth) delta with ⟨overflow | events, next⟩
  · rw [reply] at kept called
    exact ⟨⟨fun same => apart.1 (kept.owner.symm.trans same), kept.fits⟩, called⟩
  · rw [reply] at kept called
    exact ⟨⟨fun same => apart.1 (kept.owner.symm.trans same), kept.fits⟩,
      called.trans (spares_logReport number watch _ _)⟩

theorem discreet (number depth : Nat) : (behaviour depth).Discreet (Apart number depth) number := by
  have performer : ∀ depth act watch p (stage : Stage),
      Apart number depth ((behaviour depth).act act (.performer watch p) stage).2.1 ∧
        stage.Spares number ((behaviour depth).act act (.performer watch p) stage).2.2 := by
    intro depth act watch p stage
    rw [act_performer]
    exact ⟨apart_performer .., .of_channels number (channels_perform act watch p stage)⟩
  have passes : ∀ depth delta watch p (stage : Stage),
      Apart number depth ((behaviour depth).tick delta (.performer watch p) stage).2.1 ∧
        stage.Spares number ((behaviour depth).tick delta (.performer watch p) stage).2.2 := by
    intro depth delta watch p stage
    rw [tick_performer]
    exact ⟨apart_performer .., .of_channels number (channels_pass delta watch p stage)⟩
  induction depth with
  | zero =>
    refine ⟨fun delay => trivial, fun act unit stage apart => ?_,
      fun delta unit stage apart => ?_⟩ <;> cases unit
    · exact performer 0 act _ _ stage
    · exact ⟨apart, .refl number stage⟩
    · exact passes 0 delta _ _ stage
    · exact ⟨apart, .refl number stage⟩
  | succ depth ih =>
    refine ⟨fun delay => trivial, fun act unit stage apart => ?_,
      fun delta unit stage apart => ?_⟩ <;> cases unit
    · exact performer (depth + 1) act _ _ stage
    · exact apart_conduct ih act _ stage apart
    · exact passes (depth + 1) delta _ _ stage
    · exact apart_conductTick ih delta _ stage apart

/-- Whatever is asked of a sequence, in whatever order, and whatever its listeners do when they are
told of something: send requests, take themselves or others away, bring new ones in. All that is
announced is delivered, once, in the order in which it was announced, to those who listen when it
goes out, in the order in which they came; all that is requested is served, once, in the order in
which it was sent, and never while something is still to be delivered; a start that is refused
announces nothing, and what was requested after it is served all the same. What is announced is what
the conductor decides, and who is told of it says so in the journal or writes it down on the
recording. When a call that is not refused comes back nothing is left to be served. And what a
sequence reports as a unit of another one is what a listener was told who was there all the time. -/
theorem delivery_and_service (depth number : Nat) (stage : Stage) (history : List (Cue Member))
    (ordered : (stage.channel number).Ordered)
    (polite : ∀ cue ∈ history, cue.Polite (Apart number depth) number) :
    let b := behaviour depth
    let first : Live Member := ⟨.empty number, stage⟩
    let live := (first.rehearse b history).2
    let story := first.rehearseStory b history
    (∃ refused, (Ledger.ofStage number [] false stage).Leads story
      (Ledger.ofStage number [] refused live.stage)) ∧
    deliveries story = announcements story ∧
    services story ++ (live.stage.channel number).requests =
      (stage.channel number).requests ++ requests story ∧
    (∀ cue : Cue Member, cue.performs = true → live.conductor.Performs
      (announcements (live.cueStory b cue)) (live.onCue b cue).2.conductor) ∧
    (∀ events, live.stage.Attests (live.deliverStory events) (live.deliver events).stage) ∧
    (∀ cue : Cue Member, cue.calls = true → (live.onCue b cue).1 = .done →
      ((live.onCue b cue).2.stage.channel number).requests = []) ∧
    (∀ act, live.refuses act = false →
      let reply := live.actAsUnit b act
      let story := live.respondStory b act
      reply.1 = announcements story ∧ (reply.2.stage.channel number).requests = [] ∧
      ∀ id, (∀ happening ∈ story, happening.calls id = true) → toldTo id story = reply.1) ∧
    ∀ delta events, (live.tickAsUnit b delta).1 = .ok events →
      let story := live.tickStory b delta
      events = announcements story ∧
        ((live.tickAsUnit b delta).2.stage.channel number).requests = [] ∧
      ∀ id, (∀ happening ∈ story, happening.calls id = true) → toldTo id story = events := by
  intro b first live story
  have careful := discreet number depth
  have new : first.Ready (Apart number depth) number :=
    ⟨rfl, (Live.atRest_empty (b := b) number).sane.fits, ordered⟩
  obtain ⟨⟨refused, told⟩, ready⟩ :=
    Live.leads_rehearseStory careful new (Sequence.grounded_empty number) polite false
  have delivered : deliveries story = announcements story :=
    (List.append_nil _).symm.trans told.deliveries
  refine ⟨⟨refused, told⟩, delivered, told.services,
    fun cue performs => live.performs_cueStory b performs, fun events => ?_,
    fun cue calls returned => ?_, fun act begins => ?_, fun delta events ticked => ?_⟩
  · exact live.stage.attests_announceAll live.sequence.number events
  · obtain ⟨refused, -, served⟩ := Live.leads_cueStory careful ready (Cue.polite_of_calls calls)
    exact served calls returned
  · obtain ⟨refused, leads, served⟩ := Live.leads_respondStory careful ready act
    have reply : live.actAsUnit b act = ((live.respond b act).1, (live.respond b act).2) := by
      rw [Live.actAsUnit_eq, begins]
      rfl
    have announced : (live.actAsUnit b act).1 = announcements (live.respondStory b act) := by
      rw [reply, Live.announcements_respondStory]
    have after : (live.actAsUnit b act).2 = (live.respond b act).2 := by rw [reply]
    exact ⟨announced, after ▸ served begins, fun id present =>
      (Ledger.toldTo_eq_announcements present leads).trans announced.symm⟩
  · obtain ⟨refused, leads, served⟩ := Live.leads_tickStory careful ready delta
    have announced : events = announcements (live.tickStory b delta) := by
      rw [Live.announcements_tickStory, ticked]
      rfl
    rw [Live.tick_eq] at served
    exact ⟨announced, served ⟨(), by rw [ticked]; rfl⟩, fun id present =>
      (Ledger.toldTo_eq_announcements present leads).trans announced.symm⟩

/-- Two listeners of a sequence in which a clip is over at once. When the first of them hears of the
end it asks for another run, brings a third one in, and asks for that run to be canceled. -/
def overture : List (Cue Member) :=
  [.meanwhile (Stage.listen 0 "leader"
      [⟨.ended, 0, 1, [.send 0 .start, .add 0 "newcomer" [], .send 0 .cancel]⟩]),
    .meanwhile (Stage.listen 0 "guest" []),
    .add (some "clip") (.performer none (.clip (.fresh .zero 0) none)),
    .play (some ⟨0, 0⟩) []]

/-- When the sequence is started as a unit of another one, it reports both runs, and that is what
the guest is told, who stays all the time. -/
theorem delivery_and_service_overture :
    let live := (Live.rehearse (behaviour 0) overture ⟨.empty 0, Stage.bare.openChannel⟩).2
    let reply := (live.actAsUnit (behaviour 0) .start).1
    toldTo 1 (live.respondStory (behaviour 0) .start) = reply ∧
      reply = [.started, .ended, .started, .ended] := by
  have quiet : (Stage.bare.openChannel.channel 0).Ordered := by
    simp [Channel.Ordered, Stage.channel, Stage.bare, Stage.openChannel, Channel.quiet]
  have polite : ∀ cue ∈ overture, cue.Polite (Apart 0 0) 0 := by
    intro cue member
    simp only [overture, List.mem_cons, List.not_mem_nil, or_false] at member
    rcases member with rfl | rfl | rfl | rfl
    · exact fun stage => stage.grows_react 0 (.add 0 "leader" _)
    · exact fun stage => stage.grows_react 0 (.add 0 "guest" _)
    · exact apart_performer ..
    · trivial
  obtain ⟨-, -, -, -, -, -, asked, -⟩ :=
    delivery_and_service 0 0 Stage.bare.openChannel overture quiet polite
  have delivered := asked .start (by cbv)
  refine ⟨delivered.2.2 1 (List.all_eq_true.1 ?_), ?_⟩
  · cbv
  · cbv

end Member

end Choreo
