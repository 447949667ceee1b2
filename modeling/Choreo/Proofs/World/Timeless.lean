import Choreo.Proofs.Playback.Quiet
import Choreo.Proofs.Sequence.Setting
import Choreo.World.Member

/-!
# Units that leave the clock alone

A clock is moved from outside, between the calls on a sequence. Listeners that are told of an event
write it down at the time that the clock shows or do things that have no time, so as long as the
units leave the clock alone, so does a sequence of them; and so do members, however deep they are
nested.
-/

namespace Choreo

/-- Whatever a unit is told to do, and however much time goes by for it, it does not move the
clock. -/
structure Behaviour.Timeless {U : Type} (b : Behaviour U) : Prop where
  act : ∀ act unit stage, (b.act act unit stage).2.2.recording.now = stage.recording.now
  tick : ∀ delta unit stage, (b.tick delta unit stage).2.2.recording.now = stage.recording.now

open Happening

theorem Happening.now_write (story : List Happening) (recording : Recording) :
    (story.foldl write recording).now = recording.now := by
  refine List.foldlRecOn (motive := fun written => written.now = recording.now) story write rfl
    fun written same happening _ => ?_
  cases happening with
  | told id ear event =>
    cases ear with
    | recorder label => exact same
    | witness name => exact same
  | cued | asked | announced | called | left | joined | sent | served | refused => exact same

/-- Listeners that are told of events do not move the clock. -/
theorem Stage.now_announceAll (number : Nat) (events : List Lifecycle) (stage : Stage) :
    (stage.announceAll number events).recording.now = stage.recording.now := by
  rw [(stage.attests_announceAll number events).recording]
  exact now_write _ _

/-- Calls, deliveries and the serving of requests leave the clock alone if the units do. -/
theorem Behaviour.Timeless.throughout {U : Type} {b : Behaviour U} (timeless : b.Timeless) :
    b.Throughout fun before after => after.2.recording.now = before.2.recording.now := by
  refine ⟨⟨fun _ => rfl, fun one two => two.trans one, fun act _ unit _ stage _ => timeless.act
    act unit stage, fun delta _ unit _ stage _ => timeless.tick delta unit stage⟩,
    fun events registry stage => Stage.now_announceAll registry.owner events stage, fun next => ?_⟩
  rw [Stage.nextRequest?] at next
  split at next
  · cases next
  · cases next
    rfl

namespace Performer

theorem now_pass (delta : Span) (performer : Performer) (recording : Recording) :
    (performer.pass delta recording).2.2.now = recording.now := by
  rw [pass]
  split
  · rfl
  · exact now_note _ _ _

end Performer

namespace Member

theorem recording_logCall (watch : Option String) (line : String → Line) (stage : Stage) :
    (logCall watch line stage).recording = stage.recording := by
  cases watch <;> rfl

theorem recording_logReport (watch : Option String) (events : List Lifecycle) (stage : Stage) :
    (logReport watch events stage).recording = stage.recording := by
  cases watch with
  | none => rfl
  | some name => cases events <;> rfl

theorem now_perform (act : Act) (watch : Option String) (p : Performer) (stage : Stage) :
    (perform act watch p stage).2.2.recording.now = stage.recording.now := by
  rw [perform, recording_logReport]
  exact (Performer.now_note _ _ _).trans (congrArg Recording.now (recording_logCall ..))

theorem now_pass (delta : Span) (watch : Option String) (p : Performer) (stage : Stage) :
    (pass delta watch p stage).2.2.recording.now = stage.recording.now := by
  have passed := (p.now_pass delta (logCall watch Line.ticked stage).recording).trans
    (congrArg Recording.now (recording_logCall ..))
  rw [pass]
  simp only
  split
  · exact passed
  · rw [recording_logReport]
    exact passed

theorem now_conduct {inner : Behaviour Member} (timeless : inner.Timeless) (act : Act)
    (watch : Option String) (sequence : Sequence Member) (stage : Stage) :
    (conduct inner act watch sequence stage).2.2.recording.now = stage.recording.now := by
  have responded := Live.setting_respond ⟨sequence, logCall watch (Line.told · act) stage⟩
    timeless.throughout act
  rw [conduct, recording_logReport, Live.actAsUnit_eq]
  exact responded.trans (congrArg Recording.now (recording_logCall ..))

theorem now_conductTick {inner : Behaviour Member} (timeless : inner.Timeless) (delta : Span)
    (watch : Option String) (sequence : Sequence Member) (stage : Stage) :
    (conductTick inner delta watch sequence stage).2.2.recording.now = stage.recording.now := by
  have ticked := (Live.setting_tickAsUnit ⟨sequence, logCall watch Line.ticked stage⟩
    timeless.throughout delta).trans (congrArg Recording.now (recording_logCall ..))
  rw [conductTick]
  rcases reply : Live.tickAsUnit inner delta ⟨sequence, logCall watch Line.ticked stage⟩ with
    ⟨overflow | events, live⟩
  · rw [reply] at ticked
    exact ticked
  · rw [reply] at ticked
    rw [recording_logReport]
    exact ticked

/-- Members leave the clock alone, by induction on how deep they may be nested. -/
theorem timeless (depth : Nat) : (behaviour depth).Timeless := by
  induction depth with
  | zero =>
    refine ⟨fun act member stage => ?_, fun delta member stage => ?_⟩
    · cases member with
      | performer watch p => exact now_perform act watch p stage
      | ensemble watch sequence => rfl
    · cases member with
      | performer watch p => exact now_pass delta watch p stage
      | ensemble watch sequence => rfl
  | succ depth ih =>
    refine ⟨fun act member stage => ?_, fun delta member stage => ?_⟩
    · cases member with
      | performer watch p => exact now_perform act watch p stage
      | ensemble watch sequence => exact now_conduct ih act watch sequence stage
    · cases member with
      | performer watch p => exact now_pass delta watch p stage
      | ensemble watch sequence => exact now_conductTick ih delta watch sequence stage

end Member

end Choreo
