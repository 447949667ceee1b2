import Choreo.Lifecycle
import Choreo.Span

/-!
# Recordings

A recording is a clock together with everything that was written down while it ran: what happened,
under which label, and when. The clock moves forward only, and stays where it is when a step would
take it beyond the limit of spans.
-/

namespace Choreo

structure Moment where
  time : Span
  label : String
  event : Lifecycle
  deriving DecidableEq

/-- The line as text, times in whole milliseconds. -/
def Moment.render (moment : Moment) : String :=
  "t=" ++ toString moment.time.millis ++ "ms " ++ moment.label ++ " " ++ moment.event.word

/-- A clock and what was recorded while it ran, first things first. -/
structure Recording where
  now : Span
  moments : Array Moment

namespace Recording

def empty : Recording := ⟨.zero, #[]⟩

instance : Inhabited Recording := ⟨empty⟩

def advance (delta : Span) (recording : Recording) : Except Overflow Recording :=
  match recording.now.add delta with
  | .ok now => .ok { recording with now }
  | .error e => .error e

def record (label : String) (event : Lifecycle) (recording : Recording) : Recording :=
  { recording with moments := recording.moments.push ⟨recording.now, label, event⟩ }

def recordAll (label : String) (events : List Lifecycle) (recording : Recording) : Recording :=
  events.foldl (fun r event => r.record label event) recording

def first? (label : String) (event : Lifecycle) (recording : Recording) : Option Span :=
  (recording.moments.find? fun m => m.label == label && m.event == event).map Moment.time

def render (recording : Recording) : String :=
  recording.moments.foldl (fun out moment => out ++ moment.render ++ "\n") ""

@[simp] theorem now_record (label : String) (event : Lifecycle) (recording : Recording) :
    (recording.record label event).now = recording.now := rfl

@[simp] theorem moments_record (label : String) (event : Lifecycle) (recording : Recording) :
    (recording.record label event).moments.toList =
      recording.moments.toList ++ [⟨recording.now, label, event⟩] := by
  simp [record]

@[simp] theorem now_recordAll (label : String) (events : List Lifecycle) (recording : Recording) :
    (recording.recordAll label events).now = recording.now := by
  rw [recordAll]
  induction events generalizing recording with
  | nil => rfl
  | cons event rest ih => simpa using ih (recording.record label event)

@[simp] theorem moments_recordAll (label : String) (events : List Lifecycle)
    (recording : Recording) :
    (recording.recordAll label events).moments.toList =
      recording.moments.toList ++ events.map fun event => ⟨recording.now, label, event⟩ := by
  rw [recordAll]
  induction events generalizing recording with
  | nil => simp
  | cons event rest ih => simpa using ih (recording.record label event)

end Recording

end Choreo
