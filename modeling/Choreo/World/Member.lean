import Choreo.Performer
import Choreo.Sequence.Live

/-!
# Members

A unit of a sequence is a performer or a whole sequence, whose announcements are what it reports. A
member may be watched: the journal then holds each call on it, before anything comes of the call,
and what it reports, after everything has.
-/

namespace Choreo

/-- A performer or a sequence, and the name under which it is watched. -/
inductive Member where
  | performer (watch : Option String) (performer : Performer)
  | ensemble (watch : Option String) (sequence : Sequence Member)

namespace Member

def running : Member → Bool
  | .performer _ p => p.running
  | .ensemble _ sequence => !sequence.isIdle

/-- Writes a call into the journal if the member is watched. -/
def logCall (watch : Option String) (line : String → Line) (stage : Stage) : Stage :=
  match watch with
  | some name => stage.log (line name)
  | none => stage

/-- Writes what was reported into the journal if the member is watched and reported anything. -/
def logReport (watch : Option String) (events : List Lifecycle) (stage : Stage) : Stage :=
  match watch with
  | some name => if events.isEmpty then stage else stage.log (.reported name events)
  | none => stage

def timer (delay : Span) : Member := .performer none (.delay (.fresh delay))

def perform (act : Act) (watch : Option String) (p : Performer) (stage : Stage) :
    List Lifecycle × Member × Stage :=
  let called := logCall watch (Line.told · act) stage
  let reply := p.perform act called.recording
  (reply.1, .performer watch reply.2.1,
    logReport watch reply.1 { called with recording := reply.2.2 })

def pass (delta : Span) (watch : Option String) (p : Performer) (stage : Stage) :
    Except Overflow (List Lifecycle) × Member × Stage :=
  let called := logCall watch Line.ticked stage
  let reply := p.pass delta called.recording
  let passed := { called with recording := reply.2.2 }
  (reply.1, .performer watch reply.2.1,
    match reply.1 with
    | .error _ => passed
    | .ok events => logReport watch events passed)

def conduct (inner : Behaviour Member) (act : Act) (watch : Option String)
    (sequence : Sequence Member) (stage : Stage) : List Lifecycle × Member × Stage :=
  let reply := Live.actAsUnit inner act ⟨sequence, logCall watch (Line.told · act) stage⟩
  (reply.1, .ensemble watch reply.2.sequence, logReport watch reply.1 reply.2.stage)

def conductTick (inner : Behaviour Member) (delta : Span)
    (watch : Option String) (sequence : Sequence Member) (stage : Stage) :
    Except Overflow (List Lifecycle) × Member × Stage :=
  match Live.tickAsUnit inner delta ⟨sequence, logCall watch Line.ticked stage⟩ with
  | (.error e, live) => (.error e, .ensemble watch live.sequence, live.stage)
  | (.ok events, live) =>
    (.ok events, .ensemble watch live.sequence, logReport watch events live.stage)

/-- How members answer in which sequences are nested at most so deep; what is nested deeper does
nothing. -/
def behaviour : Nat → Behaviour Member
  | 0 =>
    { act := fun act member stage =>
        match member with
        | .performer watch p => perform act watch p stage
        | .ensemble watch sequence => ([], .ensemble watch sequence, stage)
      tick := fun delta member stage =>
        match member with
        | .performer watch p => pass delta watch p stage
        | .ensemble watch sequence => (.ok [], .ensemble watch sequence, stage)
      running := running
      timer := timer }
  | depth + 1 =>
    { act := fun act member stage =>
        match member with
        | .performer watch p => perform act watch p stage
        | .ensemble watch sequence => conduct (behaviour depth) act watch sequence stage
      tick := fun delta member stage =>
        match member with
        | .performer watch p => pass delta watch p stage
        | .ensemble watch sequence => conductTick (behaviour depth) delta watch sequence stage
      running := running
      timer := timer }

end Member

end Choreo
