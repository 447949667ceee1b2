import Choreo.Proofs.Graph.Stored
import Choreo.Proofs.Run.Declared
import Choreo.Proofs.Run.Lineup

/-!
# All that is looked up is there

A desk is a conductor that keeps an index and the last order of start beside its graph. Here the
node of a unit is found by the index, and whenever a node is asked for its unit, its pending list or
its dependents, it is looked up with a check: where there is no such node, nothing more can be done.
This does not come to pass. Whatever is done to a desk, and whatever is taken off its pending lists,
it answers as the conductor by itself does. The index goes both ways, every place that is mentioned
anywhere is that of a node, and no node ever moves.
-/

namespace Choreo

namespace Waiting

/-- Takes an entry off the pending list of a node, which has to be one of so many. The answer is
whether there was such an entry. -/
def consumeAt? (size : Nat) (event : Dependency) (node : Nat) (waiting : Waiting) :
    Option (Bool × Waiting) :=
  if node < size then
    some (if event ∈ waiting.pendingOf node then (true, waiting.consume event node)
      else (false, waiting))
  else Option.none

/-- Lets nodes know that this has happened, where the list of each of them is looked up. -/
def releaseAt? (size : Nat) (event : Dependency) : List Nat → Waiting → Option (List Nat × Waiting)
  | [], waiting => some ([], waiting)
  | node :: nodes, waiting => do
    let taken ← waiting.consumeAt? size event node
    let rest ← releaseAt? size event nodes taken.2
    return (if taken.1 && !taken.2.isBlocked node && (taken.2.pendingOf node).isEmpty
      then node :: rest.1
      else rest.1, rest.2)

/-- Lets nodes know that this will not happen, where the list of each of them is looked up. -/
def forsakeAt? (size : Nat) (event : Dependency) : List Nat → Waiting → Option (Nat × Waiting)
  | [], waiting => some (0, waiting)
  | node :: nodes, waiting => do
    let taken ← waiting.consumeAt? size event node
    let rest ← forsakeAt? size event nodes (if taken.1 then taken.2.block node else taken.2)
    return (if taken.1 then rest.1 + 1 else rest.1, rest.2)

def satisfyAt? (size : Nat) (event : Dependency) (waiting : Waiting) :
    Option (List Nat × Waiting) :=
  releaseAt? size event (waiting.subscribers event) (waiting.detach event)

def abandonAt? (size : Nat) (prerequisite : Nat) (waiting : Waiting) : Option (Nat × Waiting) := do
  let starts ← forsakeAt? size ⟨prerequisite, .onStart⟩
    (waiting.subscribers ⟨prerequisite, .onStart⟩)
    (waiting.detach ⟨prerequisite, .onStart⟩)
  let ends ← forsakeAt? size ⟨prerequisite, .onEnd⟩ (starts.2.subscribers ⟨prerequisite, .onEnd⟩)
    (starts.2.detach ⟨prerequisite, .onEnd⟩)
  return (starts.1 + ends.1, ends.2)

/-- What a waiting node hears of an event, where the list of each node is looked up. -/
def hearAt? (size : Nat) (event : Lifecycle) (node : Nat) (waiting : Waiting) :
    Option (List Nat × Waiting) :=
  match event with
  | .started => waiting.satisfyAt? size ⟨node, .onStart⟩
  | .ended => waiting.satisfyAt? size ⟨node, .onEnd⟩
  | .canceled => (waiting.abandonAt? size node).map fun lost => ([], lost.2)
  | .repeated => some ([], waiting)

section Inside

variable {size : Nat} {event : Dependency} {nodes : List Nat} {waiting : Waiting}

theorem releaseAt?_eq (inside : ∀ node ∈ nodes, node < size) :
    releaseAt? size event nodes waiting = some (release event nodes waiting) := by
  induction nodes generalizing waiting with
  | nil => rfl
  | cons node nodes ih =>
    obtain ⟨here, rest⟩ := List.forall_mem_cons.1 inside
    rw [releaseAt?, consumeAt?, if_pos here, release, Option.bind_eq_bind, Option.bind_some,
      ih rest]
    split <;> rfl

theorem forsakeAt?_eq (inside : ∀ node ∈ nodes, node < size) :
    forsakeAt? size event nodes waiting = some (forsake event nodes waiting) := by
  induction nodes generalizing waiting with
  | nil => rfl
  | cons node nodes ih =>
    obtain ⟨here, rest⟩ := List.forall_mem_cons.1 inside
    rw [forsakeAt?, consumeAt?, if_pos here, forsake, Option.bind_eq_bind, Option.bind_some,
      ih rest]
    split <;> rfl

variable (inside : ∀ subscription ∈ waiting.subscriptions, subscription.dependent < size)

include inside in
theorem subscribers_lt {node : Nat} (member : node ∈ waiting.subscribers event) : node < size := by
  obtain ⟨subscription, listed, rfl⟩ := List.mem_map.1 member
  exact inside subscription (List.mem_of_mem_filter listed)

include inside in
theorem satisfyAt?_eq : waiting.satisfyAt? size event = some (waiting.satisfy event) :=
  releaseAt?_eq fun _ => subscribers_lt inside

include inside in
theorem abandonAt?_eq (prerequisite : Nat) :
    waiting.abandonAt? size prerequisite = some (waiting.abandon prerequisite) := by
  have starts : forsakeAt? size ⟨prerequisite, .onStart⟩
      (waiting.subscribers ⟨prerequisite, .onStart⟩)
      (waiting.detach ⟨prerequisite, .onStart⟩) = some (forsake ..) :=
    forsakeAt?_eq fun _ => subscribers_lt inside
  have later : ∀ nodes : List Nat, ∀ subscription ∈ (forsake ⟨prerequisite, .onStart⟩ nodes
      (waiting.detach ⟨prerequisite, .onStart⟩)).2.subscriptions,
      subscription.dependent < size := by
    intro nodes subscription member
    rw [subscriptions_forsake] at member
    exact inside subscription (List.mem_of_mem_filter member)
  rw [abandonAt?, starts, Option.bind_eq_bind, Option.bind_some,
    forsakeAt?_eq fun _ => subscribers_lt (later _)]
  rfl

include inside in
theorem hearAt?_eq (event : Lifecycle) (node : Nat) :
    waiting.hearAt? size event node = some (waiting.hear event node) := by
  cases event with
  | started => exact satisfyAt?_eq inside
  | ended => exact satisfyAt?_eq inside
  | canceled => rw [hearAt?, abandonAt?_eq inside, hear, Option.map_some]
  | repeated => rfl

include inside in
theorem hear_lt {event : Lifecycle} {node ready : Nat}
    (member : ready ∈ (waiting.hear event node).1) :
    ready < size := by
  have subscribed : ∀ awaited : Dependency, ready ∈ (waiting.satisfy awaited).1 → ready < size :=
    fun awaited released => subscribers_lt inside ((release_sublist ..).subset released)
  cases event with
  | started => exact subscribed _ member
  | ended => exact subscribed _ member
  | canceled => cases member
  | repeated => cases member

end Inside

end Waiting

namespace Conductor

/-- Begins a run whose nodes start in this order. -/
def commence (order : List Nat) (conductor : Conductor) : Decision × Conductor :=
  let opened := conductor.launch order
  let starts := opened.playing.units.map (Command.call .start)
  if opened.playing.isEmpty
    then (⟨starts ++ [.announce .started, .announce .ended], true⟩, opened.close)
  else (⟨starts ++ [.announce .started], false⟩, opened)

/-- Starts the nodes that are ready, where the unit of each node is looked up. -/
def startAt? (ready : List Nat) (conductor : Conductor) : Option (List Command × Conductor) := do
  let found ← Graph.look? conductor.graph.nodes ready
  if conductor.phase = .running then
    let entry := enrol (found.map Node.unit) conductor.playing
    return (entry.1, { conductor with playing := entry.2 })
  else return ([], conductor)

/-- Lets the waiting nodes know of an event, where each node is looked up. -/
def absorbAt? (event : Lifecycle) (node : Nat) (conductor : Conductor) :
    Option (List Command × Conductor) := do
  let heard ← conductor.waiting.hearAt? conductor.graph.nodes.length event node
  startAt? heard.1 { conductor with waiting := heard.2 }

variable {conductor : Conductor}

theorem operate_begin_of_ok (idle : conductor.phase = .idle) {order : List Nat}
    (answer : conductor.graph.sorted.1 = .ok order) :
    conductor.operate .begin = commence order
      { conductor with graph := conductor.graph.sorted.2 } := by
  have begun : conductor.begin =
      Prod.map .ok id (commence order { conductor with graph := conductor.graph.sorted.2 }) := by
    have sorted : conductor.graph.sorted = (.ok order, conductor.graph.sorted.2) :=
      Prod.ext answer rfl
    rw [begin, if_neg (not_not.2 idle), sorted, commence]
    dsimp only
    split <;> rfl
  rw [operate_begin_eq, begun]
  rfl

theorem operate_begin_of_error (idle : conductor.phase = .idle) {cycle : Cycle}
    (answer : conductor.graph.sorted.1 = .error cycle) :
    conductor.operate .begin =
      (.nothing, { conductor with graph := conductor.graph.sorted.2 }) := by
  rw [operate, begin_of_refused idle answer]

theorem operate_begin_of_active (active : conductor.phase ≠ .idle) :
    conductor.operate .begin = (.nothing, conductor) := by
  rw [operate, begin, if_pos active]

theorem graph_commence (order : List Nat) (conductor : Conductor) :
    (conductor.commence order).2.graph = conductor.graph := by
  simp only [commence]
  split <;> rfl

theorem startAt?_eq {ready : List Nat}
    (inside : ∀ node ∈ ready, node < conductor.graph.nodes.length) :
    conductor.startAt? ready = some (conductor.startReady ready) := by
  obtain ⟨found, looked, units⟩ := Option.map_eq_some_iff.1 (Graph.look?_units inside)
  rw [startAt?, looked, Option.bind_eq_bind, Option.bind_some, units, startReady]
  split <;> rfl

theorem absorbAt?_eq
    (inside : ∀ subscription ∈ conductor.waiting.subscriptions,
      subscription.dependent < conductor.graph.nodes.length) (event : Lifecycle) (node : Nat) :
    conductor.absorbAt? event node = some (conductor.absorb event node) := by
  rw [absorbAt?, Waiting.hearAt?_eq inside, Option.bind_eq_bind, Option.bind_some,
    startAt?_eq]
  · rfl
  · exact fun _ => Waiting.hear_lt inside

end Conductor

/-- A conductor with the index of its graph and the order of start that was worked out last. -/
structure Desk where
  conductor : Conductor
  index : UnitId → Option Nat
  last : List Nat

namespace Desk

def fresh : Desk := ⟨.fresh, fun _ => none, []⟩

/-- The number of nodes. -/
def size (desk : Desk) : Nat := desk.conductor.graph.nodes.length

/-- The graph with what is kept beside it. -/
def stored (desk : Desk) : Stored := ⟨desk.conductor.graph, desk.index, desk.last⟩

def put (stored : Stored) (desk : Desk) : Desk :=
  ⟨{ desk.conductor with graph := stored.graph }, stored.index, stored.last⟩

/-- The desk after its conductor has done something. -/
def conduct (done : Decision × Conductor) (desk : Desk) : Decision × Desk :=
  (done.1, { desk with conductor := done.2 })

/-- Begins a run, where the order is worked out with checks and each of its nodes is looked up. -/
def begin? (desk : Desk) : Option (Decision × Desk) :=
  if desk.conductor.phase ≠ .idle then some (.nothing, desk)
  else do
    let sorted ← desk.stored.sort?
    match sorted.1 with
    | .error _ => return (.nothing, desk.put sorted.2)
    | .ok order =>
      let _ ← Graph.look? sorted.2.graph.nodes order
      let opened := desk.put sorted.2
      return opened.conduct (opened.conductor.commence order)

/-- Takes notice of a report, where the node of the unit is told by the index. -/
def step? (report : Report) (desk : Desk) : Option (Decision × Desk) :=
  if desk.conductor.phase = .idle then some (.nothing, desk)
  else
    match desk.index report.unit with
    | none => some (.nothing, desk)
    | some node => do
      let begun ← desk.conductor.absorbAt? report.event node
      let unit ← begun.2.graph.unit? node
      return desk.conduct
        (if report.event = .ended then Conductor.leave unit begun else (⟨begun.1, false⟩, begun.2))

def operate? (operation : Operation) (desk : Desk) : Option (Decision × Desk) :=
  match operation with
  | .begin => desk.begin?
  | .step report => desk.step? report
  | .edit change => (desk.stored.edit? change).map fun stored => (.nothing, desk.put stored)
  -- these look nothing up
  | .cancel | .finish | .settle | .refill => some (desk.conduct (desk.conductor.operate operation))

/-- Does one thing. Lists that belong to no node are left alone. -/
def handle? (handling : Handling) (desk : Desk) : Option (Decision × Desk) :=
  match handling with
  | .operate operation => desk.operate? operation
  | .remove event node =>
    if node < desk.size then
      (desk.conductor.waiting.consumeAt? desk.size event node).map fun taken =>
        desk.conduct (.nothing, { desk.conductor with waiting := taken.2 })
    else some (.nothing, desk)

/-- Does these things one after the other, as long as all that is looked up is there. -/
def run? : List Handling → Desk → Option (List Decision × Desk)
  | [], desk => some ([], desk)
  | handling :: rest, desk => do
    let done ← desk.handle? handling
    let more ← run? rest done.2
    return (done.1 :: more.1, more.2)

/-- The index and the last order are right, and what is pending is declared. -/
structure Tidy (desk : Desk) : Prop where
  stored : desk.stored.Sound
  declared : desk.conductor.Declared

/-- This was done, as the conductor by itself does it, and the index and the last order are right
thereafter. -/
def Follows (done : Option (Decision × Desk)) (expected : Decision × Conductor) : Prop :=
  ∃ next : Desk, done = some (expected.1, next) ∧ next.conductor = expected.2 ∧ next.stored.Sound

theorem tidy_fresh : fresh.Tidy := ⟨Stored.sound_empty, Conductor.declared_fresh⟩

section Step

variable {desk : Desk}

theorem follows_conduct (sound : desk.stored.Sound) {done : Decision × Conductor}
    (same : done.2.graph = desk.conductor.graph) : Follows (some (desk.conduct done)) done := by
  refine ⟨{ desk with conductor := done.2 }, rfl, rfl, ?_⟩
  rw [stored, same]
  exact sound

theorem Tidy.begin (tidy : desk.Tidy) : Follows desk.begin? (desk.conductor.operate .begin) := by
  by_cases idle : desk.conductor.phase = .idle
  · obtain ⟨last, sort, sound⟩ := tidy.stored.sort
    rw [begin?, if_neg (not_not.2 idle), sort, Option.bind_eq_bind, Option.bind_some]
    cases answer : desk.stored.graph.sorted.1 with
    | error cycle =>
      rw [Conductor.operate_begin_of_error idle answer]
      exact ⟨_, rfl, rfl, sound⟩
    | ok order =>
      have inside : ∀ node ∈ order, node < desk.stored.graph.sorted.2.nodes.length := by
        rw [Graph.nodes_sorted]
        exact fun node => ((tidy.stored.graph.ordering answer).mem_iff node).1
      rw [Conductor.operate_begin_of_ok idle answer]
      have opened :
          (desk.put { desk.stored with graph := desk.stored.graph.sorted.2, last }).stored.Sound :=
        sound
      dsimp only
      rw [Graph.look?_eq inside]
      exact follows_conduct opened (Conductor.graph_commence ..)
  · rw [begin?, if_pos idle, Conductor.operate_begin_of_active idle]
    exact ⟨desk, rfl, rfl, tidy.stored⟩

theorem Tidy.step (tidy : desk.Tidy) (report : Report) :
    Follows (desk.step? report) (desk.conductor.step report) := by
  by_cases idle : desk.conductor.phase = .idle
  · rw [step?, if_pos idle, Conductor.step_of_idle report idle]
    exact ⟨desk, rfl, rfl, tidy.stored⟩
  have told : desk.index report.unit = desk.conductor.graph.nodeFor? report.unit :=
    tidy.stored.index report.unit
  rw [step?, if_neg idle, told]
  cases found : desk.conductor.graph.nodeFor? report.unit with
  | none =>
    rw [Conductor.step_of_absent found]
    exact ⟨desk, rfl, rfl, tidy.stored⟩
  | some node =>
    have named : desk.conductor.graph.unit? node = some report.unit :=
      (Graph.nodeFor?_eq_some tidy.stored.graph.arena).1 found
    have begun := Conductor.absorbAt?_eq
      (fun _ member => (tidy.declared.subscribed_lt tidy.stored.graph member).2) report.event node
    have step : desk.conductor.step report =
        if report.event = .ended then Conductor.leave report.unit
          (desk.conductor.absorb report.event node)
        else (⟨(desk.conductor.absorb report.event node).1, false⟩,
          (desk.conductor.absorb report.event node).2) := by
      rw [Conductor.step_eq idle found]
      split
      · next ended => rw [ended]
      · rfl
    simp only [begun, Option.bind_eq_bind, Option.bind_some, Conductor.graph_absorb, named, ← step]
    exact follows_conduct tidy.stored (Conductor.graph_step ..)

theorem Tidy.operate (tidy : desk.Tidy) (operation : Operation) :
    Follows (desk.operate? operation) (desk.conductor.operate operation) := by
  cases operation with
  | begin => exact tidy.begin
  | step report => exact tidy.step report
  | edit change =>
    obtain ⟨grown, edited, same, sound⟩ := tidy.stored.edit change
    refine ⟨desk.put grown, by rw [operate?, edited]; rfl, ?_, sound⟩
    rw [put, same]
    rfl
  | cancel => exact follows_conduct tidy.stored (Conductor.graph_cancelRun _)
  | finish => exact follows_conduct tidy.stored (Conductor.graph_endRun _)
  | settle => exact follows_conduct tidy.stored (Conductor.graph_settle _)
  | refill => exact follows_conduct tidy.stored rfl

theorem Tidy.handle (tidy : desk.Tidy) (handling : Handling) :
    Follows (desk.handle? handling) (desk.conductor.handle handling) := by
  cases handling with
  | operate operation => exact tidy.operate operation
  | remove event node =>
    rw [handle?, Conductor.handle]
    by_cases inside : node < desk.size
    · simp only [if_pos inside, Waiting.consumeAt?, Option.map_some]
      split
      · exact follows_conduct tidy.stored rfl
      · exact follows_conduct tidy.stored rfl
    · have undeclared : desk.conductor.graph.dependencies node = [] := by
        simp [Graph.dependencies, List.getElem?_eq_none (Nat.le_of_not_lt inside)]
      have gone : event ∉ desk.conductor.waiting.pendingOf node := fun member =>
        List.not_mem_nil (undeclared ▸ tidy.declared.pending node member)
      rw [if_neg inside, if_neg gone]
      exact ⟨desk, rfl, rfl, tidy.stored⟩

end Step

/-- The index goes both ways, all places that are mentioned are those of nodes, and the dependents
of a node are those that have it among their prerequisites, each once. -/
structure Whole (desk : Desk) : Prop where
  index : ∀ unit node, desk.index unit = some node ↔ desk.conductor.graph.unit? node = some unit
  taken : ∀ node, node < desk.size ↔ ∃! unit, desk.index unit = some node
  given : ∀ unit, (desk.stored.place unit).2.index unit = some (desk.stored.place unit).1
  dependencies : ∀ node, ∀ d ∈ desk.conductor.graph.dependencies node, d.node < desk.size
  pending : ∀ node, ∀ d ∈ desk.conductor.waiting.pendingOf node, d.node < desk.size
  dependents : ∀ node, ∀ dependent ∈ Graph.dependents desk.conductor.graph.nodes node,
    dependent < desk.size
  last : ∀ node ∈ desk.last, node < desk.size
  remembered : ∀ order, desk.conductor.graph.order = some order → desk.last = order
  subscriptions : ∀ subscription ∈ desk.conductor.waiting.subscriptions,
    subscription.event.node < desk.size ∧ subscription.dependent < desk.size
  distinct : ∀ node, (Graph.dependents desk.conductor.graph.nodes node).Nodup
  reciprocal : ∀ node dependent, dependent ∈ Graph.dependents desk.conductor.graph.nodes node ↔
    node ∈ Graph.prerequisites desk.conductor.graph.nodes dependent

theorem Tidy.whole {desk : Desk} (tidy : desk.Tidy) : desk.Whole := by
  have sound := tidy.stored.graph
  have arena : Arena desk.conductor.graph.nodes := sound.arena
  have index : ∀ unit node, desk.index unit = some node ↔
      desk.conductor.graph.unit? node = some unit :=
    fun unit node => tidy.stored.index_eq_some
  refine ⟨index, fun node => ?_, fun unit => (tidy.stored.place unit).2.2.2, fun node d declared =>
    (arena.inside_of_declared declared).2, fun node d held => tidy.declared.pending_lt sound held,
    fun node dependent member => ?_, tidy.stored.inside, tidy.stored.current, fun _ listed =>
    tidy.declared.subscribed_lt sound listed, arena.dependents_nodup, arena.mem_dependents⟩
  · constructor
    · intro inside
      obtain ⟨unit, named⟩ := Graph.unit?_of_lt inside
      refine ⟨unit, (index unit node).2 named, fun other told => ?_⟩
      exact Option.some.inj (((index other node).1 told).symm.trans named)
    · rintro ⟨unit, told, -⟩
      obtain ⟨found, there, -⟩ := Graph.unit?_eq_some.1 ((index unit node).1 told)
      exact (List.getElem?_eq_some_iff.1 there).1
  · exact (arena.lt_of_prerequisite ((arena.mem_dependents node dependent).1 member)).2

/-- These things were all done, as the conductor by itself does them, and no node has moved. -/
structure Handled (desk : Desk) (handlings : List Handling) (after : Desk) : Prop where
  done : desk.run? handlings = some ((desk.conductor.handleAll handlings).1, after)
  conductor : after.conductor = (desk.conductor.handleAll handlings).2
  whole : after.Whole
  kept : ∀ unit node, desk.index unit = some node → after.index unit = some node

theorem Tidy.run {desk : Desk} (tidy : desk.Tidy) (handlings : List Handling) :
    ∃ after, desk.run? handlings = some ((desk.conductor.handleAll handlings).1, after) ∧
      after.conductor = (desk.conductor.handleAll handlings).2 ∧ after.Tidy := by
  induction handlings generalizing desk with
  | nil => exact ⟨desk, rfl, rfl, tidy⟩
  | cons handling rest ih =>
    obtain ⟨next, handled, same, sound⟩ := tidy.handle handling
    have declared : next.conductor.Declared := same ▸ tidy.declared.handle handling
    obtain ⟨after, done, last, tidy'⟩ := ih ⟨sound, declared⟩
    refine ⟨after, ?_, ?_, tidy'⟩
    · rw [run?, handled, Option.bind_eq_bind, Option.bind_some, done, same]
      rfl
    · rw [last, same]
      rfl

theorem Tidy.handled {desk : Desk} (tidy : desk.Tidy) (handlings : List Handling) :
    ∃ after, desk.Handled handlings after ∧ after.Tidy := by
  obtain ⟨after, done, same, tidy'⟩ := tidy.run handlings
  refine ⟨after, ⟨done, same, tidy'.whole, fun unit node told => ?_⟩, tidy'⟩
  rw [tidy'.whole.index, same]
  exact (Conductor.extends_handleAll handlings _).unit? ((tidy.whole.index unit node).1 told)

/-- Whatever is done to a desk, and however it goes on from there: everything is done, since all
that is looked up is there, and it is done as the conductor by itself does it. Units and nodes are
told from one another both ways, no place that is mentioned is outside, a node is once among the
dependents of just those nodes that are among its prerequisites, and where a node is, there it
stays. -/
theorem stays_whole (history : List Handling) :
    ∃ desk, fresh.Handled history desk ∧ ∀ later, ∃ after, desk.Handled later after := by
  obtain ⟨desk, handled, tidy⟩ := tidy_fresh.handled history
  refine ⟨desk, handled, fun later => ?_⟩
  obtain ⟨after, handled', -⟩ := tidy.handled later
  exact ⟨after, handled'⟩

/-- Where a place is subscribed that has no node, the report that would reach it finds nothing. -/
example : (Desk.step? ⟨⟨0, 0⟩, .ended⟩
    ⟨⟨⟨[.isolated ⟨0, 0⟩], none⟩, ⟨[[]], [⟨⟨0, .onEnd⟩, 1⟩], []⟩, .none,
      .running, 1⟩, fun _ => some 0, []⟩).isNone := by decide

end Desk

end Choreo
