import Choreo.Sequence
import Choreo.Stage

/-!
# Sequences at work

A sequence on a stage carries out what its conductor decides. Calls on units may make them report
something; reports go to the end of a queue, and the conductor looks at one after the other until
none is left, which happens because every report that leads to a call uses up a subscription. What
the conductor announces is then delivered to the listeners, and after that the requests that were
sent in the meantime are served, each in the same way, until none is left.
-/

namespace Choreo

/-- How units of a kind answer: what they report when told to do something or when time goes by,
what has become of them and of the stage, whether they run, and which unit is a timer. -/
structure Behaviour (U : Type) where
  act : Act → U → Stage → List Lifecycle × U × Stage
  tick : Span → U → Stage → Except Overflow (List Lifecycle) × U × Stage
  running : U → Bool
  timer : Span → U

structure Live (U : Type) where
  sequence : Sequence U
  stage : Stage

namespace Live

variable {U : Type}

def conductor (live : Live U) : Conductor := live.sequence.conductor

def withConductor (live : Live U) (conductor : Conductor) : Live U :=
  { live with sequence := { live.sequence with conductor } }

def call (b : Behaviour U) (act : Act) (id : UnitId) (live : Live U) : Live U :=
  match live.sequence.registry.get? id with
  | none => live
  | some unit =>
    let reply := b.act act unit live.stage
    ⟨live.sequence.takeBack id reply.1 reply.2.1, reply.2.2⟩

def execute (b : Behaviour U) : List Command → Live U → List Lifecycle × Live U
  | [], live => ([], live)
  | .call act unit :: commands, live => execute b commands (live.call b act unit)
  | .announce event :: commands, live =>
    let rest := execute b commands live
    (event :: rest.1, rest.2)

@[simp] theorem conductor_call (b : Behaviour U) (act : Act) (id : UnitId) (live : Live U) :
    (live.call b act id).conductor = live.conductor := by
  rw [call]; split <;> rfl

@[simp] theorem conductor_execute (b : Behaviour U) (commands : List Command) (live : Live U) :
    (execute b commands live).2.conductor = live.conductor := by
  induction commands generalizing live with
  | nil => rfl
  | cons command commands ih => cases command <;> simp [execute, ih]

theorem execute_of_no_call (b : Behaviour U) {commands : List Command} (live : Live U)
    (h : ¬∃ act unit, .call act unit ∈ commands) : (execute b commands live).2 = live := by
  induction commands with
  | nil => rfl
  | cons command commands ih =>
    cases command with
    | call act unit => exact absurd ⟨act, unit, List.mem_cons_self⟩ h
    | announce event =>
      exact ih fun ⟨act, unit, hmem⟩ => h ⟨act, unit, List.mem_cons_of_mem _ hmem⟩

/-- Lets the conductor look at one report, the rest of the queue being this, and does what it
says. -/
def heed (b : Behaviour U) (report : Report) (rest : List Report) (live : Live U) :
    List Lifecycle × Live U :=
  let decided := live.conductor.step report
  execute b decided.1.commands
    ⟨{ live.sequence with conductor := decided.2, queue := rest }, live.stage⟩

theorem awaiting_heed (b : Behaviour U) (report : Report) (rest : List Report) (live : Live U) :
    (live.heed b report rest).2.conductor.awaiting < live.conductor.awaiting ∨
      (live.heed b report rest).2.conductor.awaiting ≤ live.conductor.awaiting ∧
        (live.heed b report rest).2.sequence.queue = rest := by
  have bound := live.conductor.awaiting_step report
  have same : (live.heed b report rest).2.conductor = (live.conductor.step report).2 := by
    simp [heed, conductor]
    exact conductor_execute b _ _
  rw [same]
  by_cases calls : ∃ act unit, .call act unit ∈ (live.conductor.step report).1.commands
  · exact .inl (bound.2 calls)
  · refine .inr ⟨bound.1, ?_⟩
    rw [heed]
    rw [execute_of_no_call b _ calls]

/-- Looks at reports until none is left; the list is what is to be announced. -/
def drain (b : Behaviour U) (live : Live U) : List Lifecycle × Live U :=
  match _h : live.sequence.queue with
  | [] => ([], live)
  | report :: rest =>
    let done := live.heed b report rest
    let more := drain b done.2
    (done.1 ++ more.1, more.2)
termination_by (live.conductor.awaiting, live.sequence.queue.length)
decreasing_by
  have measure := live.awaiting_heed b report rest
  rcases measure with less | ⟨le, queue⟩
  · exact .left _ _ less
  · rcases Nat.lt_or_eq_of_le le with less | same
    · exact .left _ _ less
    · rw [same, queue, _h]
      exact .right _ (Nat.lt_succ_self _)

def drive (b : Behaviour U) (decision : Decision) (live : Live U) : List Lifecycle × Live U :=
  let done := execute b decision.commands live
  let more := done.2.drain b
  (done.1 ++ more.1, more.2)

def startRun (b : Behaviour U) (live : Live U) : Except Cycle (List Lifecycle) × Live U :=
  match live.conductor.begin with
  | (.error cycle, conductor) => (.error cycle, live.withConductor conductor)
  | (.ok decision, conductor) =>
    let driven := (live.withConductor conductor).drive b decision
    (.ok driven.1, driven.2)

def settleRun (b : Behaviour U) (live : Live U) : List Lifecycle × Live U :=
  let settled := live.conductor.settle
  (live.withConductor settled.2).drive b settled.1

def windDown (b : Behaviour U) (decided : Decision × Conductor) (live : Live U) :
    List Lifecycle × Live U :=
  let driven := (live.withConductor decided.2).drive b decided.1
  let settled := driven.2.settleRun b
  (driven.1 ++ settled.1, settled.2)

def endRun (b : Behaviour U) (live : Live U) : List Lifecycle × Live U :=
  live.windDown b live.conductor.endRun

def cancelRun (b : Behaviour U) (live : Live U) : List Lifecycle × Live U :=
  live.windDown b live.conductor.cancelRun

def tickUnit (b : Behaviour U) (delta : Span) (id : UnitId) (live : Live U) :
    Except Overflow Unit × Live U :=
  match live.sequence.registry.get? id with
  | none => (.ok (), live)
  | some unit =>
    match b.tick delta unit live.stage with
    | (.ok events, unit, stage) => (.ok (), ⟨live.sequence.takeBack id events unit, stage⟩)
    | (.error e, unit, stage) => (.error e, ⟨live.sequence.takeBack id [] unit, stage⟩)

def tickUnits (b : Behaviour U) (delta : Span) :
    List UnitId → Live U → Except Overflow Unit × Live U
  | [], live => (.ok (), live)
  | id :: ids, live =>
    match live.tickUnit b delta id with
    | (.ok (), next) => tickUnits b delta ids next
    | (.error e, next) => (.error e, next)

/-- Lets time go by for the units that play now; those that start meanwhile wait for the next
tick. -/
def tickRun (b : Behaviour U) (delta : Span) (live : Live U) :
    Except Overflow (List Lifecycle) × Live U :=
  if live.sequence.isIdle then (.ok [], live)
  else
    match live.tickUnits b delta live.conductor.playing.units with
    | (.error e, next) => (.error e, next)
    | (.ok (), next) =>
      let drained := next.drain b
      (.ok drained.1, drained.2)

def deliver (events : List Lifecycle) (live : Live U) : Live U :=
  { live with stage := live.stage.announceAll live.sequence.number events }

def obey (b : Behaviour U) (act : Act) (live : Live U) : List Lifecycle × Live U :=
  match act with
  | .start =>
    match live.startRun b with
    | (.ok events, next) => (events, next)
    | (.error _, next) => ([], next)
  | .finish => live.endRun b
  | .cancel => live.cancelRun b

/-- Serves up to so many requests in the order in which they were sent. -/
def serve (b : Behaviour U) : Nat → Live U → List Lifecycle × Live U
  | 0, live => ([], live)
  | limit + 1, live =>
    match live.stage.nextRequest? live.sequence.number with
    | none => ([], live)
    | some (act, stage) =>
      let obeyed := obey b act { live with stage }
      let rest := serve b limit (obeyed.2.deliver obeyed.1)
      (obeyed.1 ++ rest.1, rest.2)

/-- Delivers what is announced, then serves requests until none is left; the list is all that was
delivered. There are never more requests to serve than the stage has weight. -/
def publish (b : Behaviour U) (events : List Lifecycle) (live : Live U) :
    List Lifecycle × Live U :=
  let delivered := live.deliver events
  let served := serve b delivered.stage.weight delivered
  (events ++ served.1, served.2)

def start (b : Behaviour U) (live : Live U) : Except Refusal Unit × Live U :=
  match live.startRun b with
  | (.error cycle, next) => (.error (next.sequence.refusalOf cycle), next)
  | (.ok events, next) => (.ok (), (next.publish b events).2)

def finish (b : Behaviour U) (live : Live U) : Live U :=
  let ended := live.endRun b
  (ended.2.publish b ended.1).2

def cancel (b : Behaviour U) (live : Live U) : Live U :=
  let canceled := live.cancelRun b
  (canceled.2.publish b canceled.1).2

def tick (b : Behaviour U) (delta : Span) (live : Live U) : Except Overflow Unit × Live U :=
  match live.tickRun b delta with
  | (.error e, next) => (.error e, next)
  | (.ok events, next) => (.ok (), (next.publish b events).2)

def report (b : Behaviour U) (report : Report) (live : Live U) : Live U :=
  let queued : Live U :=
    { live with sequence := { live.sequence with queue := live.sequence.queue ++ [report] } }
  let drained := queued.drain b
  (drained.2.publish b drained.1).2

def serveRequests (b : Behaviour U) (live : Live U) : Live U := (live.publish b []).2

/-- What a sequence reports to the sequence that it is a unit of. -/
def actAsUnit (b : Behaviour U) (act : Act) (live : Live U) : List Lifecycle × Live U :=
  match act with
  | .start =>
    match live.startRun b with
    | (.error _, next) => ([.canceled, .ended], next)
    | (.ok events, next) => next.publish b events
  | .finish =>
    let ended := live.endRun b
    ended.2.publish b ended.1
  | .cancel =>
    let canceled := live.cancelRun b
    canceled.2.publish b canceled.1

def tickAsUnit (b : Behaviour U) (delta : Span) (live : Live U) :
    Except Overflow (List Lifecycle) × Live U :=
  match live.tickRun b delta with
  | (.error e, next) => (.error e, next)
  | (.ok events, next) =>
    let published := next.publish b events
    (.ok published.1, published.2)

end Live

end Choreo
