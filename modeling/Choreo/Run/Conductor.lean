import Choreo.Graph.Cycle
import Choreo.Run.Playing
import Choreo.Run.Waiting

/-!
# Conducting a run

The conductor decides and never acts. Given what happened to a unit it answers with commands: which
units to start, end or cancel, and what to announce about the run as a whole. A run begins with the
nodes that wait for nothing; every other node starts once all that it waits for has happened. The
run is over when nothing plays any more. A run that is ended or canceled starts nothing more, and is
closed, whatever its units report, when it is settled.
-/

namespace Choreo

/-- Where a run stands. -/
inductive Phase where
  | idle | running | canceling | ending
  deriving DecidableEq

def Phase.word : Phase → String
  | .idle => "idle"
  | .running => "running"
  | .canceling => "canceling"
  | .ending => "ending"

structure Report where
  unit : UnitId
  event : Lifecycle
  deriving DecidableEq

/-- Something to be done: a call on a unit, or an announcement about the run. -/
inductive Command where
  | call (act : Act) (unit : UnitId)
  | announce (event : Lifecycle)
  deriving DecidableEq

/-- The answer to one input: what to do, in order, and whether the run is over with it. -/
structure Decision where
  commands : List Command
  closed : Bool
  deriving DecidableEq

namespace Decision

def nothing : Decision := ⟨[], false⟩

def started (decision : Decision) : List UnitId :=
  decision.commands.filterMap fun
    | .call .start unit => some unit
    | _ => none

def announced (decision : Decision) : List Lifecycle :=
  decision.commands.filterMap fun
    | .announce event => some event
    | _ => none

end Decision

/-- The graph, the state of the present run, and the number of runs begun so far. -/
structure Conductor where
  graph : Graph
  waiting : Waiting
  playing : Playing
  phase : Phase
  runs : Nat

namespace Conductor

def fresh : Conductor := ⟨.empty, .none, .none, .idle, 0⟩

instance : Inhabited Conductor := ⟨fresh⟩

def isIdle (conductor : Conductor) : Bool := conductor.phase == .idle

def close (conductor : Conductor) : Conductor :=
  { conductor with phase := .idle, waiting := conductor.waiting.reset }

def roots (nodes : List Node) (order : List Nat) : List Nat :=
  order.filter fun place => (nodes[place]?.map Node.isRoot).getD false

/-- One subscription for each dependency, in this order of the nodes. -/
def wiring (graph : Graph) (order : List Nat) : List Subscription :=
  order.flatMap fun place => (graph.dependencies place).map fun event => ⟨event, place⟩

def launch (order : List Nat) (conductor : Conductor) : Conductor :=
  { conductor with
    waiting := ⟨conductor.graph.nodes.map Node.dependencies, wiring conductor.graph order, []⟩
    playing := ⟨conductor.graph.units (roots conductor.graph.nodes order)⟩
    phase := .running
    runs := conductor.runs + 1 }

def begin (conductor : Conductor) : Except Cycle Decision × Conductor :=
  if conductor.phase ≠ .idle then (.ok .nothing, conductor)
  else
    match conductor.graph.sorted with
    | (.error cycle, graph) => (.error cycle, { conductor with graph })
    | (.ok order, graph) =>
      let opened := { conductor with graph }.launch order
      let starts := opened.playing.units.map (Command.call .start)
      if opened.playing.isEmpty then
        (.ok ⟨starts ++ [.announce .started, .announce .ended], true⟩, opened.close)
      else (.ok ⟨starts ++ [.announce .started], false⟩, opened)

def enrol : List UnitId → Playing → List Command × Playing
  | [], playing => ([], playing)
  | unit :: units, playing =>
    let entry := playing.insert unit
    let rest := enrol units entry.2
    (if entry.1 then .call .start unit :: rest.1 else rest.1, rest.2)

def startReady (ready : List Nat) (conductor : Conductor) : List Command × Conductor :=
  if conductor.phase = .running then
    let entry := enrol (conductor.graph.units ready) conductor.playing
    (entry.1, { conductor with playing := entry.2 })
  else ([], conductor)

def fulfil (event : Dependency) (conductor : Conductor) : List Command × Conductor :=
  let released := conductor.waiting.satisfy event
  { conductor with waiting := released.2 }.startReady released.1

/-- A unit ended: what waits for that starts before the unit leaves, so a run with work left to do
never looks finished. -/
def unitEnded (node : Nat) (unit : UnitId) (conductor : Conductor) : Decision × Conductor :=
  let begun := conductor.fulfil ⟨node, .onEnd⟩
  let left := begun.2.playing.remove unit
  let after := { begun.2 with playing := left.2 }
  if left.1 && left.2.isEmpty then (⟨begun.1 ++ [.announce .ended], true⟩, after.close)
  else (⟨begun.1, false⟩, after)

def step (report : Report) (conductor : Conductor) : Decision × Conductor :=
  if conductor.phase = .idle then (.nothing, conductor)
  else
    match conductor.graph.nodeFor? report.unit with
    | none => (.nothing, conductor)
    | some node =>
      match report.event with
      | .started =>
        let begun := conductor.fulfil ⟨node, .onStart⟩
        (⟨begun.1, false⟩, begun.2)
      | .ended => conductor.unitEnded node report.unit
      | .canceled =>
        (.nothing, { conductor with waiting := (conductor.waiting.abandon node).2 })
      | .repeated => (.nothing, conductor)

/-- Gives the run up: everything that plays is canceled and nothing counts as playing any more. -/
def cancelRun (conductor : Conductor) : Decision × Conductor :=
  if conductor.phase = .running then
    let drained := conductor.playing.drain
    let cancels := drained.1.map (Command.call .cancel)
    (⟨if drained.1.isEmpty then cancels else cancels ++ [.announce .canceled], false⟩,
      { conductor with phase := .canceling, playing := drained.2 })
  else (.nothing, conductor)

def endRun (conductor : Conductor) : Decision × Conductor :=
  if conductor.phase = .running then
    (⟨conductor.playing.units.map (Command.call .finish), false⟩,
      { conductor with phase := .ending })
  else (.nothing, conductor)

/-- Closes a run that was given up or cut short, whatever still plays. -/
def settle (conductor : Conductor) : Decision × Conductor :=
  match conductor.phase with
  | .canceling | .ending =>
    (⟨[.announce .ended], true⟩, { conductor with playing := .none }.close)
  | .idle | .running => (.nothing, conductor)

theorem subscriptions_startReady (ready : List Nat) (conductor : Conductor) :
    (conductor.startReady ready).2.waiting = conductor.waiting := by
  rw [startReady]; split <;> rfl

theorem startReady_nil (conductor : Conductor) : (conductor.startReady []).1 = [] := by
  rw [startReady]; split <;> rfl

/-- How much a run can still do by itself: its subscriptions. -/
def awaiting (conductor : Conductor) : Nat := conductor.waiting.subscriptions.length

theorem awaiting_fulfil_le (event : Dependency) (conductor : Conductor) :
    (conductor.fulfil event).2.awaiting ≤ conductor.awaiting := by
  simpa [fulfil, awaiting, subscriptions_startReady] using
    Waiting.length_satisfy_le event conductor.waiting

theorem awaiting_fulfil_lt {event : Dependency} {conductor : Conductor}
    (h : (conductor.fulfil event).1 ≠ []) :
    (conductor.fulfil event).2.awaiting < conductor.awaiting := by
  have ready : (conductor.waiting.satisfy event).1 ≠ [] := by
    intro none
    simp [fulfil, none, startReady_nil] at h
  simpa [fulfil, awaiting, subscriptions_startReady] using Waiting.length_satisfy_lt ready

/-- No report leads to more subscriptions, and one that leads to a call on a unit to fewer. -/
theorem awaiting_step (report : Report) (conductor : Conductor) :
    (conductor.step report).2.awaiting ≤ conductor.awaiting ∧
      ((∃ act unit, .call act unit ∈ (conductor.step report).1.commands) →
        (conductor.step report).2.awaiting < conductor.awaiting) := by
  rw [step]
  split
  · simp [Decision.nothing]
  split
  · simp [Decision.nothing]
  rename_i node _
  split
  · refine ⟨awaiting_fulfil_le _ _, fun ⟨act, unit, h⟩ => awaiting_fulfil_lt ?_⟩
    exact List.ne_nil_of_mem h
  · have le := awaiting_fulfil_le ⟨node, .onEnd⟩ conductor
    rw [unitEnded]
    simp only
    split
    · refine ⟨Nat.zero_le _, fun ⟨act, unit, h⟩ => ?_⟩
      have started : (conductor.fulfil ⟨node, .onEnd⟩).1 ≠ [] := by
        intro none
        simp [none] at h
      exact Nat.lt_of_le_of_lt (Nat.zero_le _) (awaiting_fulfil_lt started)
    · exact ⟨le, fun ⟨act, unit, h⟩ => awaiting_fulfil_lt (List.ne_nil_of_mem h)⟩
  · refine ⟨Waiting.length_abandon_le _ _, fun ⟨act, unit, h⟩ => ?_⟩
    simp [Decision.nothing] at h
  · simp [Decision.nothing]

end Conductor

end Choreo
