import Choreo.Performer.Clip
import Choreo.Performer.Delay
import Choreo.Performer.Puppet
import Choreo.Performer.Scripted
import Choreo.Recording

/-!
# Performers

The units that have no parts of their own: clips, delays, puppets and scripted units. A clip may
have a track, the label under which everything it reports is written down on the recording.
-/

namespace Choreo

/-- A unit without parts. -/
inductive Performer where
  | clip (clip : Clip) (track : Option String)
  | delay (delay : Delay)
  | puppet (puppet : Puppet)
  | scripted (unit : Scripted)

namespace Performer

def note (track : Option String) (events : List Lifecycle) (recording : Recording) : Recording :=
  match track with
  | some label => recording.recordAll label events
  | none => recording

/-- What the performer reports when it is told to do something, and what it has become. -/
def act (act : Act) : Performer → List Lifecycle × Performer
  | .clip c track =>
    let reply := match act with
      | .start => c.start
      | .finish => c.finish
      | .cancel => c.cancel
    (reply.1, .clip reply.2 track)
  | .delay d =>
    let reply := match act with
      | .start => d.start
      | .finish => d.finish
      | .cancel => d.cancel
    (reply.1, .delay reply.2)
  | .puppet p =>
    let reply := match act with
      | .start => p.start
      | .finish => p.finish
      | .cancel => p.cancel
    (reply.1, .puppet reply.2)
  | .scripted s =>
    let reply := s.act act
    (reply.1, .scripted reply.2)

def tick (delta : Span) : Performer → Except Overflow (List Lifecycle × Performer)
  | .clip c track => (c.tick delta).map fun reply => (reply.1, .clip reply.2 track)
  | .delay d => (d.tick delta).map fun reply => (reply.1, .delay reply.2)
  | .puppet p => (p.tick delta).map fun reply => (reply.1, .puppet reply.2)
  | .scripted s => .ok ([], .scripted s)

def running : Performer → Bool
  | .clip c _ => c.running
  | .delay d => d.running
  | .puppet p => p.running
  | .scripted s => s.running

def track : Performer → Option String
  | .clip _ track => track
  | _ => none

/-- A clip is given this track; other performers have none. -/
def onTrack (label : String) : Performer → Performer
  | .clip c _ => .clip c (some label)
  | p => p

/-- Tells the performer to do something and writes down what it reports. -/
def perform (act : Act) (performer : Performer) (recording : Recording) :
    List Lifecycle × Performer × Recording :=
  let reply := performer.act act
  (reply.1, reply.2, note performer.track reply.1 recording)

def pass (delta : Span) (performer : Performer) (recording : Recording) :
    Except Overflow (List Lifecycle) × Performer × Recording :=
  match performer.tick delta with
  | .error e => (.error e, performer, recording)
  | .ok (events, next) => (.ok events, next, note performer.track events recording)

end Performer

end Choreo
