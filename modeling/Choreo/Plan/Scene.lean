import Choreo.Performer
import Choreo.Plan
import Choreo.Sequence.Live

/-!
# Scenes

A scene is a plan set up to be played: one clip for each clip of the plan, in the order of the
names and with its track under its name, related as the plan says. What happens to the scene as a
whole is recorded under a label of its own. References to clips that are not there are left out.
-/

namespace Choreo

def Performer.behaviour : Behaviour Performer where
  act := fun act performer stage =>
    let reply := performer.perform act stage.recording
    (reply.1, reply.2.1, { stage with recording := reply.2.2 })
  tick := fun delta performer stage =>
    let reply := performer.pass delta stage.recording
    (reply.1, reply.2.1, { stage with recording := reply.2.2 })
  running := Performer.running
  timer := fun delay => .delay (.fresh delay)

/-- A sequence of performers on its stage. -/
abbrev Scene := Live Performer

namespace Scene

/-- The label under which the scene as a whole is recorded. -/
def label : String := "sequence"

def cast (clips : List (String × ClipPlan Span)) (sequence : Sequence Performer) :
    Sequence Performer :=
  clips.foldl (fun s entry =>
    let added := s.add (some entry.1)
      (.clip (.fresh entry.2.duration entry.2.repeats) (some entry.1))
    (added.2.play (some added.1)).2) sequence

def unit? (timeline : Timeline) (name : String) : Option UnitId :=
  (timeline.clips.position? name).map (UnitId.mk 0)

def timer : Span → Performer := Performer.behaviour.timer

def relateClip (timeline : Timeline) (sequence : Sequence Performer)
    (entry : String × ClipPlan Span) : Sequence Performer :=
  match unit? timeline entry.1 with
  | none => sequence
  | some unit =>
    let paired := (entry.2.partners.filterMap (unit? timeline)).foldl
      (fun s other => s.playWith timer (some other) [.together unit]) sequence
    let followed := (entry.2.forerunners.filterMap (unit? timeline)).foldl
      (fun s other => s.playWith timer (some unit) [.after other]) paired
    match entry.2.delay with
    | some delay => followed.playWith timer (some unit) [.afterDelay delay]
    | none => followed

def relateGroup (timeline : Timeline) (sequence : Sequence Performer) (group : Group) :
    Sequence Performer :=
  let units := group.clips.filterMap (unit? timeline)
  match group.mode with
  | .together => sequence.playTogether timer units
  | .sequential => sequence.playSequentially timer units

/-- The clips of a plan, related as it says. -/
def sequenceOf (timeline : Timeline) : Sequence Performer :=
  let cast := cast timeline.clips.entries (.empty 0)
  let related := timeline.clips.entries.foldl (relateClip timeline) cast
  timeline.groups.foldl (relateGroup timeline) related

def ofTimeline (timeline : Timeline) : Scene where
  sequence := sequenceOf timeline
  stage := Stage.bare.openChannel.modify 0 (Channel.add (.recorder label))

def recording (scene : Scene) : Recording := scene.stage.recording

end Scene

end Choreo
