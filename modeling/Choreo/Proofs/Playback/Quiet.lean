import Choreo.Plan.Playback
import Choreo.Proofs.Sequence.Cues

/-!
# Quiet scenes

In a scene that was set up from a plan nobody but the recorder listens. So nobody sends a request,
what is announced is recorded and leads to nothing else, and only the steps of the clock move it.
-/

namespace Choreo

theorem Performer.now_note (track : Option String) (events : List Lifecycle)
    (recording : Recording) :
    (note track events recording).now = recording.now := by
  cases track <;> simp [note]

namespace Scene

/-- The channels of a scene, on which only the recorder listens. -/
def channels : List Channel := [⟨1, [(0, .recorder label)], []⟩]

/-- A scene with these channels whose clock shows this time. -/
structure Quiet (now : Span) (live : Scene) : Prop where
  owner : live.sequence.registry.owner = 0
  channels : live.stage.channels = Scene.channels
  clock : live.stage.recording.now = now

theorem announce_quiet (stage : Stage) (event : Lifecycle) (quiet : stage.channels = channels) :
    stage.announce 0 event = { stage with recording := stage.recording.record label event } := by
  obtain ⟨recording, journal, channels, names⟩ := stage
  cases quiet
  rfl

theorem announceAll_quiet (stage : Stage) (events : List Lifecycle)
    (quiet : stage.channels = channels) :
    stage.announceAll 0 events =
      { stage with recording := stage.recording.recordAll label events } := by
  induction events generalizing stage with
  | nil => rfl
  | cons event events ih =>
    have rest := ih { stage with recording := stage.recording.record label event } quiet
    rw [Stage.announceAll, List.foldl_cons, announce_quiet stage event quiet]
    exact rest

namespace Quiet

variable {now : Span} {live : Scene}

theorem deliver_eq (quiet : Quiet now live) (events : List Lifecycle) : live.deliver events =
    { live with stage := { live.stage with
      recording := live.stage.recording.recordAll label events } } := by
  have number : live.sequence.number = 0 := quiet.owner
  rw [Live.deliver, number, announceAll_quiet live.stage events quiet.channels]

theorem deliver (quiet : Quiet now live) (events : List Lifecycle) :
    Quiet now (live.deliver events) := by
  rw [quiet.deliver_eq events]
  exact ⟨quiet.owner, quiet.channels, by simpa using quiet.clock⟩

theorem publish (quiet : Quiet now live) (events : List Lifecycle) :
    live.publish Performer.behaviour events = (events, live.deliver events) := by
  have weight : (live.deliver events).stage.weight = 0 := by
    rw [Stage.weight, (quiet.deliver events).channels]
    rfl
  simp [Live.publish, weight, Live.serve]

theorem call (quiet : Quiet now live) (act : Act) (id : UnitId) :
    Quiet now (live.call Performer.behaviour act id) := by
  rw [Live.call]
  split
  · exact quiet
  · exact ⟨quiet.owner, quiet.channels, (Performer.now_note _ _ _).trans quiet.clock⟩

theorem execute (quiet : Quiet now live) (commands : List Command) :
    Quiet now (Live.execute Performer.behaviour commands live).2 := by
  induction commands generalizing live with
  | nil => exact quiet
  | cons command commands ih =>
    cases command with
    | call act unit => exact ih (quiet.call act unit)
    | announce event => exact ih quiet

theorem drain (quiet : Quiet now live) : Quiet now (live.drain Performer.behaviour).2 := by
  induction live using Live.drain.induct Performer.behaviour with
  | case1 live none =>
    rw [Live.drain_of_nil _ none]
    exact quiet
  | case2 live report rest queue done =>
    rename_i ih
    rw [Live.drain_of_cons _ queue]
    -- looking at a report concerns the conductor and the queue only
    have looked : Quiet now ⟨{ live.sequence with
        conductor := (live.conductor.step report).2, queue := rest }, live.stage⟩ :=
      ⟨quiet.owner, quiet.channels, quiet.clock⟩
    exact ih (looked.execute _)

theorem drive (quiet : Quiet now live) (conductor : Conductor) (decision : Decision) :
    Quiet now ((live.withConductor conductor).drive Performer.behaviour decision).2 := by
  have same : Quiet now (live.withConductor conductor) := ⟨quiet.owner, quiet.channels, quiet.clock⟩
  exact (same.execute decision.commands).drain

/-- A cancellation takes no time. -/
theorem cancel (quiet : Quiet now live) : Quiet now (live.cancel Performer.behaviour) := by
  have settled := (quiet.drive live.conductor.cancelRun.2 live.conductor.cancelRun.1).drive
  have wound : Quiet now (live.cancelRun Performer.behaviour).2 := settled _ _
  rw [Live.cancel, wound.publish]
  exact wound.deliver _

end Quiet

end Scene

end Choreo
