import Choreo.World.Member

/-!
# Worlds of sequences

Any number of sequences on one stage. Each has a number, which is also that of its channel, and may
become a unit of another one; it is then no longer there under its number, but its channel is. The
units of all sequences have handles, numbers in the order in which they were registered. What a
world is asked to do with a sequence that is not there it does not do, and there is no answer.
-/

namespace Choreo

/-- The stage, the sequences that are there by number, and the units by handle. -/
structure World where
  stage : Stage
  sequences : List (Option (Sequence Member))
  handles : List UnitId

/-- What came of playing a unit: the anchor, the last timer, and the handles of the new timers. -/
structure Played where
  anchor : Option UnitId
  lastDelay : Option UnitId
  delays : List Nat
  deriving DecidableEq

namespace World

def void : World := ⟨.bare, [], []⟩

instance : Inhabited World := ⟨void⟩

def create (world : World) : Nat × World :=
  (world.sequences.length,
    { world with
      stage := world.stage.openChannel
      sequences := world.sequences ++ [some (.empty world.sequences.length)] })

def fresh : World := void.create.2

def sequence? (number : Nat) (world : World) : Option (Sequence Member) :=
  (world.sequences[number]?).join

def unit? (handle : Nat) (world : World) : Option UnitId := world.handles[handle]?

def knows (number : Nat) (world : World) : Bool := number < world.sequences.length

/-- How members answer: sequences cannot be nested deeper than there are sequences. -/
def behaviour (world : World) : Behaviour Member := Member.behaviour world.sequences.length

def put (number : Nat) (live : Live Member) (world : World) : World :=
  { world with
    stage := live.stage
    sequences := world.sequences.set number (some live.sequence) }

def perform {α : Type} (number : Nat) (deed : Behaviour Member → Live Member → α × Live Member)
    (world : World) : Option (α × World) :=
  (world.sequence? number).map fun sequence =>
    let done := deed world.behaviour ⟨sequence, world.stage⟩
    (done.1, world.put number done.2)

def edit {α : Type} (number : Nat) (change : Sequence Member → α × Sequence Member)
    (world : World) :
    Option (α × World) :=
  world.perform number fun _ live =>
    let done := change live.sequence
    (done.1, { live with sequence := done.2 })

/-- Registers a member under its label; the answer is its handle and its name. -/
def enter (number : Nat) (label : Option String) (member : Member) (world : World) :
    Option ((Nat × UnitId) × World) :=
  (world.edit number (Sequence.add label member)).map fun (id, next) =>
    ((world.handles.length, id), { next with handles := world.handles ++ [id] })

def watchName (label : Option String) (world : World) : String :=
  label.getD ("@" ++ toString world.handles.length)

/-- Registers a performer, which is watched; a clip has its track under the same name. -/
def add (number : Nat) (label : Option String) (performer : Performer) (world : World) :
    Option ((Nat × UnitId) × World) :=
  let name := world.watchName label
  world.enter number label (.performer (some name) (performer.onTrack name))

def nest (number child : Nat) (label : Option String) (world : World) :
    Option ((Nat × UnitId) × World) :=
  if number = child then none
  else
    match world.sequence? child with
    | none => none
    | some sequence =>
      { world with sequences := world.sequences.set child none }.enter number label
        (.ensemble (some (world.watchName label)) sequence)

/-- Does away with a sequence; its channel remains. -/
def drop (number : Nat) (world : World) : Option World :=
  (world.sequence? number).map fun _ =>
    { world with sequences := world.sequences.set number none }

/-- Puts a unit into the graph and relates it to others. The timers made for it get handles. -/
def play (number : Nat) (unit : Option UnitId) (links : List Link) (world : World) :
    Option (Played × World) :=
  let played := world.edit number fun sequence =>
    let cursor := sequence.play unit
    let related := Sequence.relateAll Member.timer links cursor.1 cursor.2
    let before := sequence.registry.slots.size
    let made := related.2.registry.slots.size - before
    ((related.1.anchor.bind related.2.graph.unit?, related.1.lastDelay,
      (List.range made).map fun k => UnitId.mk sequence.registry.owner (before + k)), related.2)
  played.map fun ((anchor, lastDelay, timers), next) =>
    let first := world.handles.length
    (⟨anchor, lastDelay, (List.range timers.length).map (first + ·)⟩,
      { next with handles := world.handles ++ timers })

/-- Plays a unit as `play` does, but refuses one that is not of this sequence. -/
def tryPlay (number : Nat) (unit : UnitId) (links : List Link) (world : World) :
    Option (Except Refusal Played × World) :=
  (world.sequence? number).bind fun sequence =>
    if sequence.registry.contains unit then
      (world.play number (some unit) links).map fun (played, next) => (.ok played, next)
    else some (.error (.unregistered unit), world)

def playTogether (number : Nat) (units : List UnitId) (world : World) : Option World :=
  (world.edit number fun sequence => ((), sequence.playTogether Member.timer units)).map Prod.snd

def playSequentially (number : Nat) (units : List UnitId) (world : World) : Option World :=
  (world.edit number fun sequence => ((), sequence.playSequentially Member.timer units)).map
    Prod.snd

/-- Tells a sequence to do something; only a start can be refused. -/
def act (number : Nat) (act : Act) (world : World) : Option (Except Refusal Unit × World) :=
  world.perform number fun b live =>
    match act with
    | .start => live.start b
    | .finish => (.ok (), live.finish b)
    | .cancel => (.ok (), live.cancel b)

def tick (number : Nat) (delta : Span) (world : World) : Option (Except Overflow Unit × World) :=
  world.perform number fun b live => live.tick b delta

def report (number : Nat) (report : Report) (world : World) : Option World :=
  (world.perform number fun b live => ((), live.report b report)).map Prod.snd

def serveRequests (number : Nat) (world : World) : Option World :=
  (world.perform number fun b live => ((), live.serveRequests b)).map Prod.snd

/-- Does something with the stage on behalf of a sequence, there or not. -/
def onStage (number : Nat) (change : Stage → Stage) (world : World) : Option World :=
  if world.knows number then some { world with stage := change world.stage } else none

def listen (number : Nat) (name : String) (reactions : List (Reaction Action)) (world : World) :
    Option World :=
  world.onStage number (Stage.listen number name reactions)

/-- Takes the listener of this name's number away from a sequence; the answer is whether there was
one. -/
def unlisten (number : Nat) (name : String) (world : World) : Option (Bool × World) :=
  (world.stage.numberOf? name).bind fun id =>
    (world.onStage number fun stage => stage.modify number (Channel.remove id)).map fun next =>
      ((world.stage.channel number).has id, next)

def notify (number : Nat) (event : Lifecycle) (world : World) : Option World :=
  world.onStage number (Stage.announce number event)

def send (number : Nat) (act : Act) (world : World) : Option World :=
  world.onStage number (Stage.send number act)

def listenerCount (number : Nat) (world : World) : Nat :=
  (world.stage.channel number).listeners.length

def advance (delta : Span) (world : World) : Except Overflow World :=
  (world.stage.recording.advance delta).map fun recording =>
    { world with stage := { world.stage with recording } }

def takeJournal (world : World) : List Line × World :=
  (world.stage.journal.toList, { world with stage := { world.stage with journal := #[] } })

end World

end Choreo
