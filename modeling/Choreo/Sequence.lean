import Choreo.Registry
import Choreo.Run.Conductor
import Choreo.Span.Text
import Choreo.Text.Quoted

/-!
# Sequences

A sequence is a register of units, a conductor, and a queue of what units reported and the conductor
has not seen yet. Units are related through a cursor on one of them, the anchor: `with` starts
another unit together with the anchor, `before` starts it when the anchor ends, `after` starts the
anchor when the other ends, and a delay is a timer of the sequence's own that the anchor waits for.
Units of other sequences are never related to anything; a cursor on one of them does nothing.
-/

namespace Choreo

/-- The conductor, the register of units, and the reports that wait to be looked at. -/
structure Sequence (U : Type) where
  conductor : Conductor
  registry : Registry U
  queue : List Report

/-- A relation between the anchor of a cursor and another unit. -/
inductive Link where
  | together (other : UnitId)
  | before (other : UnitId)
  | after (other : UnitId)
  | afterDelay (delay : Span)
  deriving DecidableEq

/-- The node that relations refer to, and the last timer made for it. -/
structure Cursor where
  anchor : Option Nat
  lastDelay : Option UnitId
  deriving DecidableEq

inductive Refusal where
  | unknownLabel (label : String)
  | unregistered (unit : UnitId)
  | cyclic (labels : List String)
  deriving DecidableEq

def cycleText (names : List String) : String :=
  "Circular dependencies cannot exist in a sequencer: cycle among " ++ Text.quoteAll names

def Refusal.message : Refusal → String
  | .unknownLabel label => "Unit not found: " ++ label
  | .unregistered unit =>
    "Invalid constraint: " ++ unit.shown ++ " is not registered with this sequencer"
  | .cyclic labels => cycleText labels

namespace Sequence

variable {U : Type}

def empty (number : Nat) : Sequence U := ⟨.fresh, .empty number, []⟩

def number (sequence : Sequence U) : Nat := sequence.registry.owner

def graph (sequence : Sequence U) : Graph := sequence.conductor.graph

def withGraph (sequence : Sequence U) (graph : Graph) : Sequence U :=
  { sequence with conductor := { sequence.conductor with graph } }

def isIdle (sequence : Sequence U) : Bool := sequence.conductor.isIdle

theorem isIdle_iff {sequence : Sequence U} :
    sequence.isIdle = true ↔ sequence.conductor.phase = .idle := by
  simp [isIdle, Conductor.isIdle]

theorem isIdle_of_running {sequence : Sequence U} (running : sequence.conductor.phase = .running) :
    sequence.isIdle = false := by
  simp [isIdle, Conductor.isIdle, running]

/-- Registers a unit, which takes no part in runs until it is related to something. -/
def add (label : Option String) (unit : U) (sequence : Sequence U) : UnitId × Sequence U :=
  let entered := sequence.registry.insert label unit
  (entered.1, { sequence with registry := entered.2 })

def takeBack (id : UnitId) (events : List Lifecycle) (unit : U) (sequence : Sequence U) :
    Sequence U :=
  { sequence with
    registry := sequence.registry.update id unit
    queue := sequence.queue ++ events.map (Report.mk id) }

def resolve (unit : UnitId) (sequence : Sequence U) : Option (Nat × Sequence U) :=
  if sequence.registry.contains unit then
    let placed := sequence.graph.place unit
    some (placed.1, sequence.withGraph placed.2)
  else none

/-- Puts a unit into the graph; the cursor is on it, or on nothing if it is not of this sequence. -/
def play (unit : Option UnitId) (sequence : Sequence U) : Cursor × Sequence U :=
  match unit.bind fun id => sequence.resolve id with
  | some (node, placed) => (⟨some node, none⟩, placed.withGraph placed.graph.touch)
  | none => (⟨none, none⟩, sequence.withGraph sequence.graph.touch)

def require (dependent : Nat) (event : Dependency) (sequence : Sequence U) : Sequence U :=
  sequence.withGraph (sequence.graph.addDependency dependent event)

/-- Relates the anchor as the link says; `timer` makes a unit of a delay. -/
def relate (timer : Span → U) (link : Link) (cursor : Cursor) (sequence : Sequence U) :
    Cursor × Sequence U :=
  match cursor.anchor with
  | none => (cursor, sequence)
  | some anchor =>
    match link with
    | .together other =>
      match sequence.resolve other with
      | some (node, placed) => (cursor, placed.require node ⟨anchor, .onStart⟩)
      | none => (cursor, sequence)
    | .before other =>
      match sequence.resolve other with
      | some (node, placed) => (cursor, placed.require node ⟨anchor, .onEnd⟩)
      | none => (cursor, sequence)
    | .after other =>
      match sequence.resolve other with
      | some (node, placed) => (cursor, placed.require anchor ⟨node, .onEnd⟩)
      | none => (cursor, sequence)
    | .afterDelay delay =>
      let entered := sequence.registry.insertSynthetic ("delay(" ++ delay.detail ++ ")")
        (timer delay)
      let placed := sequence.graph.place entered.1
      let extended := { sequence with registry := entered.2 }.withGraph placed.2
      ({ cursor with lastDelay := some entered.1 }, extended.require anchor ⟨placed.1, .onEnd⟩)

def relateAll (timer : Span → U) (links : List Link) (cursor : Cursor) (sequence : Sequence U) :
    Cursor × Sequence U :=
  links.foldl (fun state link => relate timer link state.1 state.2) (cursor, sequence)

def playWith (timer : Span → U) (unit : Option UnitId) (links : List Link) (sequence : Sequence U) :
    Sequence U :=
  let cursor := sequence.play unit
  (relateAll timer links cursor.1 cursor.2).2

def playTogether (timer : Span → U) (units : List UnitId) (sequence : Sequence U) : Sequence U :=
  match units with
  | [] => sequence
  | first :: rest => sequence.playWith timer (some first) (rest.map Link.together)

/-- Starts each unit but the first when the one before it ends. -/
def playPairs (timer : Span → U) : List UnitId → Sequence U → Sequence U
  | first :: second :: rest, sequence =>
    playPairs timer (second :: rest) (sequence.playWith timer (some first) [.before second])
  | _, sequence => sequence

def playSequentially (timer : Span → U) (units : List UnitId) (sequence : Sequence U) :
    Sequence U :=
  match units with
  | [only] => (sequence.play (some only)).2
  | _ => playPairs timer units sequence

def refusalOf (cycle : Cycle) (sequence : Sequence U) : Refusal :=
  .cyclic (cycle.units.map sequence.registry.label)

def sortedUnits (sequence : Sequence U) : Except Refusal (List UnitId) × Sequence U :=
  let sorted := sequence.graph.sorted
  let after := sequence.withGraph sorted.2
  match sorted.1 with
  | .ok order => (.ok (sorted.2.units order), after)
  | .error cycle => (.error (sequence.refusalOf cycle), after)

/-- The unit of a label; timers of the sequence's own are not found. -/
def find (label : String) (sequence : Sequence U) : Except Refusal UnitId :=
  match sequence.registry.find? label with
  | some unit => .ok unit
  | none => .error (.unknownLabel label)

def edges (sequence : Sequence U) (dependencies : List Dependency) : List (UnitId × Rule) :=
  dependencies.filterMap fun d => (sequence.graph.unit? d.node).map fun unit => (unit, d.rule)

def dependenciesOf (unit : UnitId) (sequence : Sequence U) : List (UnitId × Rule) :=
  match sequence.graph.nodeFor? unit with
  | some node => sequence.edges (sequence.graph.dependencies node)
  | none => []

/-- What a unit still waits for in the present run, or did in the last one. -/
def pendingOf (unit : UnitId) (sequence : Sequence U) : List (UnitId × Rule) :=
  match sequence.graph.nodeFor? unit with
  | some node => sequence.edges (sequence.conductor.waiting.pendingOf node)
  | none => []

def isBlocked (unit : UnitId) (sequence : Sequence U) : Bool :=
  match sequence.graph.nodeFor? unit with
  | some node => sequence.conductor.waiting.isBlocked node
  | none => false

end Sequence

end Choreo
