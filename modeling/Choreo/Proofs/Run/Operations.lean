import Choreo.Proofs.Graph.Edits
import Choreo.Run.Conductor

/-!
# What can be done to a conductor

Runs may be begun, canceled, ended and settled, reports may come in, and the graph may be edited, in
any order. A history is a list of such operations, and a conductor is reachable if some history
leads to it. A report does two things: what waits for it may start, and a unit that ended leaves.
-/

namespace Choreo

/-- One thing that can be done to a conductor. -/
inductive Operation where
  | begin
  | step (report : Report)
  | cancel
  | finish
  | settle
  | edit (change : Edit)
  | refill
  deriving DecidableEq

/-- What a waiting node hears of an event: the nodes that are ready now. -/
def Waiting.hear (event : Lifecycle) (node : Nat) (waiting : Waiting) : List Nat × Waiting :=
  match event with
  | .started => waiting.satisfy ⟨node, .onStart⟩
  | .ended => waiting.satisfy ⟨node, .onEnd⟩
  | .canceled => ([], (waiting.abandon node).2)
  | .repeated => ([], waiting)

/-- The units without the one whose end is reported. -/
def Report.without (report : Report) (units : List UnitId) : List UnitId :=
  if report.event = .ended then units.erase report.unit else units

theorem Report.mem_of_mem_without {report : Report} {units : List UnitId} {id : UnitId}
    (h : id ∈ report.without units) : id ∈ units := by
  rw [without] at h
  split at h
  · exact List.mem_of_mem_erase h
  · exact h

namespace Conductor

/-- Does one thing. Where there is nothing to decide the decision is to do nothing. -/
def operate (operation : Operation) (conductor : Conductor) : Decision × Conductor :=
  match operation with
  | .begin =>
    match conductor.begin with
    | (.ok decision, next) => (decision, next)
    | (.error _, next) => (.nothing, next)
  | .step report => conductor.step report
  | .cancel => conductor.cancelRun
  | .finish => conductor.endRun
  | .settle => conductor.settle
  | .edit change => (.nothing, { conductor with graph := conductor.graph.edit change })
  | .refill =>
    (.nothing, { conductor with waiting := conductor.waiting.refill conductor.graph.nodes })

theorem operate_begin_eq (conductor : Conductor) :
    conductor.operate .begin = (conductor.begin.1.toOption.getD .nothing, conductor.begin.2) := by
  rw [operate]
  rcases conductor.begin with ⟨cycle | decision, next⟩ <;> rfl

theorem operate_begin (conductor : Conductor) :
    (conductor.operate .begin).2 = conductor.begin.2 := by
  rw [operate_begin_eq]

/-- Does these things one after the other; the list is what was decided at each of them. -/
def run : List Operation → Conductor → List Decision × Conductor
  | [], conductor => ([], conductor)
  | operation :: rest, conductor =>
    let done := conductor.operate operation
    let more := run rest done.2
    (done.1 :: more.1, more.2)

/-- Some history leads to the conductor. -/
def Reachable (conductor : Conductor) : Prop := ∃ history, (fresh.run history).2 = conductor

theorem run_append (first second : List Operation) (conductor : Conductor) :
    conductor.run (first ++ second) =
      ((conductor.run first).1 ++ ((conductor.run first).2.run second).1,
        ((conductor.run first).2.run second).2) := by
  induction first generalizing conductor with
  | nil => rfl
  | cons operation rest ih => simp [run, ih]

/-- What is done to a reachable conductor leads to reachable ones. -/
theorem Reachable.run {conductor : Conductor} (reached : conductor.Reachable)
    (operations : List Operation) : (conductor.run operations).2.Reachable := by
  obtain ⟨history, rfl⟩ := reached
  exact ⟨history ++ operations, by rw [run_append]⟩

theorem run_concat (history : List Operation) (operation : Operation) (conductor : Conductor) :
    conductor.run (history ++ [operation]) =
      ((conductor.run history).1 ++ [((conductor.run history).2.operate operation).1],
        ((conductor.run history).2.operate operation).2) := by
  rw [run_append]; rfl

theorem run_induction {P : Conductor → Prop}
    (keeps : ∀ operation c, P c → P (c.operate operation).2) {conductor : Conductor}
    (h : P conductor) (history : List Operation) :
    P (conductor.run history).2 := by
  induction history generalizing conductor with
  | nil => exact h
  | cons operation rest ih => exact ih (keeps operation conductor h)

/-- Lets the waiting nodes know of an event and starts those that are ready. -/
def absorb (event : Lifecycle) (node : Nat) (conductor : Conductor) : List Command × Conductor :=
  let heard := conductor.waiting.hear event node
  { conductor with waiting := heard.2 }.startReady heard.1

/-- Lets a unit leave after these commands; the run is over if it was the last one. -/
def leave (unit : UnitId) (begun : List Command × Conductor) : Decision × Conductor :=
  let left := begun.2.playing.remove unit
  let after := { begun.2 with playing := left.2 }
  if left.1 && left.2.isEmpty then (⟨begun.1 ++ [.announce .ended], true⟩, after.close)
  else (⟨begun.1, false⟩, after)

theorem startReady_none (conductor : Conductor) : conductor.startReady [] = ([], conductor) := by
  rw [startReady]
  split <;> rfl

/-- A report is absorbed, and a unit that ended leaves. -/
theorem step_eq {conductor : Conductor} {report : Report} {node : Nat}
    (active : conductor.phase ≠ .idle) (found : conductor.graph.nodeFor? report.unit = some node) :
    conductor.step report =
      if report.event = .ended then leave report.unit (conductor.absorb .ended node)
      else (⟨(conductor.absorb report.event node).1, false⟩,
        (conductor.absorb report.event node).2) := by
  rw [step]
  rw [if_neg active, found]
  cases h : report.event <;>
    simp [absorb, Waiting.hear, startReady_none, fulfil, unitEnded, leave, Decision.nothing]

theorem step_of_absent {conductor : Conductor} {report : Report}
    (absent : conductor.graph.nodeFor? report.unit = none) :
    conductor.step report = (.nothing, conductor) := by
  rw [step]
  rw [absent]
  split <;> rfl

theorem step_of_idle {conductor : Conductor} (report : Report) (idle : conductor.phase = .idle) :
    conductor.step report = (.nothing, conductor) := by
  rw [step]
  rw [if_pos idle]

theorem graph_startReady (ready : List Nat) (conductor : Conductor) :
    (conductor.startReady ready).2.graph = conductor.graph := by
  rw [startReady]; split <;> rfl

theorem phase_startReady (ready : List Nat) (conductor : Conductor) :
    (conductor.startReady ready).2.phase = conductor.phase := by
  rw [startReady]; split <;> rfl

theorem runs_startReady (ready : List Nat) (conductor : Conductor) :
    (conductor.startReady ready).2.runs = conductor.runs := by
  rw [startReady]; split <;> rfl

variable (event : Lifecycle) (node : Nat) (conductor : Conductor)

@[simp] theorem graph_absorb : (conductor.absorb event node).2.graph = conductor.graph :=
  graph_startReady _ _

@[simp] theorem phase_absorb : (conductor.absorb event node).2.phase = conductor.phase :=
  phase_startReady _ _

@[simp] theorem runs_absorb : (conductor.absorb event node).2.runs = conductor.runs :=
  runs_startReady _ _

theorem absorb_of_running (running : conductor.phase = .running) :
    conductor.absorb event node =
      let heard := conductor.waiting.hear event node
      let entry := enrol (conductor.graph.units heard.1) conductor.playing
      (entry.1, { conductor with waiting := heard.2, playing := entry.2 }) := by
  simp [absorb, startReady, running]

theorem absorb_of_not_running (winding : conductor.phase ≠ .running) :
    conductor.absorb event node =
      ([], { conductor with waiting := (conductor.waiting.hear event node).2 }) := by
  simp [absorb, startReady, winding]

@[simp] theorem graph_leave (unit : UnitId) (begun : List Command × Conductor) :
    (leave unit begun).2.graph = begun.2.graph := by
  simp only [leave]
  split <;> rfl

@[simp] theorem graph_step (report : Report) :
    (conductor.step report).2.graph = conductor.graph := by
  by_cases idle : conductor.phase = .idle
  · rw [step_of_idle report idle]
  cases found : conductor.graph.nodeFor? report.unit with
  | none => rw [step_of_absent found]
  | some node =>
    rw [step_eq idle found]
    split <;> simp

@[simp] theorem graph_cancelRun : conductor.cancelRun.2.graph = conductor.graph := by
  rw [cancelRun]
  split <;> rfl

@[simp] theorem graph_endRun : conductor.endRun.2.graph = conductor.graph := by
  rw [endRun]
  split <;> rfl

@[simp] theorem graph_settle : conductor.settle.2.graph = conductor.graph := by
  rw [settle]
  split <;> rfl

theorem graph_begin : conductor.begin.2.graph = conductor.graph ∨
    conductor.begin.2.graph = conductor.graph.sorted.2 := by
  rw [begin]
  split
  · exact .inl rfl
  · split
    · rename_i refused
      exact .inr (by rw [refused])
    · rename_i order graph sorted
      have opened : ({ conductor with graph }.launch order).graph = conductor.graph.sorted.2 := by
        rw [sorted]; rfl
      simp only
      split <;> exact .inr opened

/-- Whatever is done to a graph, it is edited at most once. -/
theorem graph_operate (operation : Operation) :
    ∃ changes : List Edit, (conductor.operate operation).2.graph =
      changes.foldl Graph.edit conductor.graph := by
  cases operation with
  | begin =>
    rw [operate_begin]
    rcases graph_begin conductor with same | sorted
    · exact ⟨[], same⟩
    · exact ⟨[.sort], sorted⟩
  | step report => exact ⟨[], graph_step conductor report⟩
  | cancel => exact ⟨[], graph_cancelRun conductor⟩
  | finish => exact ⟨[], graph_endRun conductor⟩
  | settle => exact ⟨[], graph_settle conductor⟩
  | edit change => exact ⟨[change], rfl⟩
  | refill => exact ⟨[], rfl⟩

theorem sound_operate (operation : Operation) (sound : conductor.graph.Sound) :
    (conductor.operate operation).2.graph.Sound := by
  obtain ⟨changes, same⟩ := graph_operate conductor operation
  rw [same]
  exact sound.edits changes

theorem Reachable.sound {conductor : Conductor} (reached : conductor.Reachable) :
    conductor.graph.Sound := by
  obtain ⟨history, rfl⟩ := reached
  exact run_induction (fun operation c => sound_operate c operation) Graph.sound_empty history

end Conductor

end Choreo
