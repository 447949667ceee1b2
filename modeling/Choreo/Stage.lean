import Choreo.Recording
import Choreo.Stage.Journal
import Choreo.Stage.Listener

/-!
# The stage

What sequences share: the recording, the journal, and for each sequence a channel that stays open
even when the sequence is gone. A channel holds the listeners of its sequence, numbered from zero as
they come, and the requests that were sent to it and are not served yet. A notification reaches the
listeners that were there when it went out, in the order in which they came.
-/

namespace Choreo

/-- The listeners of one sequence and the requests sent to it. -/
structure Channel where
  nextId : Nat
  listeners : List (Nat × Listener)
  requests : List Act

namespace Channel

def quiet : Channel := ⟨0, [], []⟩

instance : Inhabited Channel := ⟨quiet⟩

def add (listener : Listener) (channel : Channel) : Channel :=
  { channel with
    nextId := channel.nextId + 1
    listeners := channel.listeners ++ [(channel.nextId, listener)] }

def has (id : Nat) (channel : Channel) : Bool := channel.listeners.any fun entry => entry.1 == id

def remove (id : Nat) (channel : Channel) : Channel :=
  { channel with listeners := channel.listeners.filter fun entry => entry.1 != id }

def send (act : Act) (channel : Channel) : Channel :=
  { channel with requests := channel.requests ++ [act] }

/-- The channel after its listeners have taken notice of an event. -/
def hear (event : Lifecycle) (channel : Channel) : Channel :=
  { channel with listeners := channel.listeners.map fun entry => (entry.1, entry.2.hear event) }

/-- How many requests can still be served from here or come from these listeners. -/
def weight (channel : Channel) : Nat :=
  channel.listeners.foldr (fun entry more => entry.2.weight + more) channel.requests.length

end Channel

/-- The recording, the journal, the channels by number, and the number of each name's listener. -/
structure Stage where
  recording : Recording
  journal : Array Line
  channels : List Channel
  names : List (String × Nat)

namespace Stage

def bare : Stage := ⟨.empty, #[], [], []⟩

instance : Inhabited Stage := ⟨bare⟩

/-- The channel of a number; a number that was not given out has a quiet one. -/
def channel (number : Nat) (stage : Stage) : Channel := stage.channels[number]?.getD .quiet

def modify (number : Nat) (change : Channel → Channel) (stage : Stage) : Stage :=
  { stage with channels := stage.channels.modify number change }

def openChannel (stage : Stage) : Stage := { stage with channels := stage.channels ++ [.quiet] }

def log (line : Line) (stage : Stage) : Stage := { stage with journal := stage.journal.push line }

def record (label : String) (event : Lifecycle) (stage : Stage) : Stage :=
  { stage with recording := stage.recording.record label event }

/-- The number of the listener that last came under this name. -/
def numberOf? (name : String) (stage : Stage) : Option Nat := stage.names.lookup name

def listen (number : Nat) (name : String) (reactions : List (Reaction Action)) (stage : Stage) :
    Stage :=
  { stage.modify number (Channel.add (.witness name reactions)) with
    names := (name, (stage.channel number).nextId) :: stage.names }

def send (number : Nat) (act : Act) (stage : Stage) :
    Stage := stage.modify number (Channel.send act)

/-- Takes the listener of this name's number away from a channel, which may be another's. -/
def dismiss (number : Nat) (name : String) (stage : Stage) : Stage :=
  match stage.numberOf? name with
  | some id =>
    (stage.modify number (Channel.remove id)).log (.removed name ((stage.channel number).has id))
  | none => stage

def react (stage : Stage) : Action → Stage
  | .send number act => stage.send number act
  | .remove number name => stage.dismiss number name
  | .add number name reactions => stage.listen number name reactions

def notify (event : Lifecycle) (stage : Stage) (listener : Listener) : Stage :=
  match listener with
  | .recorder label => stage.record label event
  | .witness name _ => (listener.answer event).foldl react (stage.log (.heard name event))

def announce (number : Nat) (event : Lifecycle) (stage : Stage) : Stage :=
  ((stage.channel number).listeners.map Prod.snd).foldl (notify event)
    (stage.modify number (Channel.hear event))

def announceAll (number : Nat) (events : List Lifecycle) (stage : Stage) : Stage :=
  events.foldl (fun s event => s.announce number event) stage

def nextRequest? (number : Nat) (stage : Stage) : Option (Act × Stage) :=
  match (stage.channel number).requests with
  | [] => none
  | act :: rest => some (act, stage.modify number fun channel => { channel with requests := rest })

/-- How many requests can still be served, whatever happens. -/
def weight (stage : Stage) : Nat :=
  stage.channels.foldr (fun channel more => channel.weight + more) 0

end Stage

end Choreo
