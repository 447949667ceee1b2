import Mathlib.Logic.Function.Basic
import Choreo.Proofs.Run.Wired

/-!
# Listeners tally with pending lists

While a run lasts, a node listens for something exactly as often as that is on its pending list, and
there is nothing on the list that the node does not declare. Both are written down when the run
begins and are used up together, whatever is reported and however the graph grows; only a refill of
the pending lists would part them. So an entry that is to be taken off is always there, and a node
that becomes ready has a unit that does not play yet.
-/

namespace Choreo

namespace Waiting

/-- Adds a subscription to those by what they wait for. -/
def enlist (table : Dependency → Option (List Nat)) (subscription : Subscription) :
    Dependency → Option (List Nat) :=
  Function.update table subscription.event
    (some ((table subscription.event).getD [] ++ [subscription.dependent]))

/-- The subscribers by what they wait for. -/
def listeners (waiting : Waiting) : Dependency → Option (List Nat) :=
  waiting.subscriptions.foldl enlist fun _ => Option.none

theorem listeners_subscribe (event : Dependency) (node : Nat) (waiting : Waiting) :
    (waiting.subscribe event node).listeners = enlist waiting.listeners ⟨event, node⟩ := by
  rw [listeners, subscribe, List.foldl_append]
  rfl

theorem subscribers_subscribe (event other : Dependency) (node : Nat) (waiting : Waiting) :
    (waiting.subscribe event node).subscribers other =
      waiting.subscribers other ++ if other = event then [node] else [] := by
  rw [subscribers, subscribers, subscribe, List.filter_append, List.map_append]
  by_cases same : other = event
  · simp [same]
  · simp [same, Ne.symm same]

/-- Those who wait for something are listed under it, and nothing is that nobody waits for. -/
theorem listeners_eq (waiting : Waiting) (event : Dependency) : waiting.listeners event =
    if waiting.subscribers event = [] then Option.none else some (waiting.subscribers event) := by
  obtain ⟨pending, subscriptions, blocked⟩ := waiting
  induction subscriptions using List.reverseRecOn with
  | nil => rfl
  | append_singleton subscriptions last ih =>
    have step := listeners_subscribe last.event last.dependent ⟨pending, subscriptions, blocked⟩
    have more := subscribers_subscribe last.event event last.dependent
      ⟨pending, subscriptions, blocked⟩
    rw [subscribe] at step more
    rw [step, more, enlist]
    by_cases same : event = last.event
    · subst same
      rw [Function.update_self, ih, if_pos rfl,
        if_neg (List.append_ne_nil_of_right_ne_nil _ (List.cons_ne_nil _ _))]
      split
      · next none => rw [none, Option.getD_none]
      · rfl
    · rw [Function.update_of_ne same, ih, if_neg same, List.append_nil]

theorem listeners_detach (event : Dependency) (waiting : Waiting) :
    (waiting.detach event).listeners = Function.update waiting.listeners event Option.none := by
  funext other
  rw [listeners_eq]
  by_cases same : other = event
  · subst same
    have none : (waiting.detach other).subscribers other = [] := by
      simp [subscribers, detach]
    rw [if_pos none, Function.update_self]
  · have kept : (waiting.detach event).subscribers other = waiting.subscribers other := by
      rw [subscribers, detach, List.filter_filter]
      refine congrArg _ (List.filter_congr fun subscription _ => ?_)
      by_cases here : subscription.event = other
      · simp [here, same]
      · simp [here]
    rw [kept, Function.update_of_ne same, listeners_eq]

theorem listeners_ne_nil (waiting : Waiting) (event : Dependency) :
    waiting.listeners event ≠ some [] := by
  rw [listeners_eq]
  split
  · simp
  · next some => exact fun none => some (Option.some.inj none)

theorem count_listeners (waiting : Waiting) (event : Dependency) (node : Nat) :
    ((waiting.listeners event).getD []).count node = waiting.subscriptions.count ⟨event, node⟩ := by
  rw [listeners_eq, ← count_subscribers]
  split
  · next none => rw [none, Option.getD_none]
  · rfl

theorem count_strip (event : Dependency) (times : Nat) (entries : List Dependency) :
    (strip event times entries).count event = entries.count event - times := by
  induction times generalizing entries with
  | zero => rfl
  | succ times ih =>
    rw [strip_succ, ih, List.count_erase_self]
    omega

theorem count_drop_of_mem (waiting : Waiting) {settled : List Dependency} (node : Nat)
    (entries : List Dependency) {event : Dependency} (h : event ∈ settled) :
    (waiting.drop settled node entries).count event ≤
      entries.count event - waiting.subscriptions.count ⟨event, node⟩ := by
  induction settled generalizing entries with
  | nil => cases h
  | cons first settled ih =>
    rw [drop_cons]
    rcases List.mem_cons.1 h with rfl | later
    · exact ((waiting.drop_sublist settled node _).count_le event).trans_eq (count_strip ..)
    · have less :=
        (strip_sublist first (waiting.subscriptions.count ⟨first, node⟩) entries).count_le event
      exact (ih _ later).trans (Nat.sub_le_sub_right less _)

/-! ### Nothing is taken off that is not there -/

/-- Takes an entry off a pending list, if it is there. -/
def consume? (event : Dependency) (node : Nat) (waiting : Waiting) : Option Waiting :=
  if event ∈ waiting.pendingOf node then some (waiting.consume event node) else Option.none

/-- Lets nodes know that this has happened, if each of them finds it on its list. -/
def release? (event : Dependency) : List Nat → Waiting → Option (List Nat × Waiting)
  | [], waiting => some ([], waiting)
  | node :: nodes, waiting => do
    let next ← waiting.consume? event node
    let rest ← release? event nodes next
    return (if !next.isBlocked node && (next.pendingOf node).isEmpty then node :: rest.1
      else rest.1, rest.2)

/-- Lets nodes know that this will not happen, if each of them finds it on its list. -/
def forsake? (event : Dependency) : List Nat → Waiting → Option (Nat × Waiting)
  | [], waiting => some (0, waiting)
  | node :: nodes, waiting => do
    let next ← waiting.consume? event node
    let rest ← forsake? event nodes (next.block node)
    return (rest.1 + 1, rest.2)

def satisfy? (event : Dependency) (waiting : Waiting) : Option (List Nat × Waiting) :=
  release? event (waiting.subscribers event) (waiting.detach event)

def abandon? (prerequisite : Nat) (waiting : Waiting) : Option (Nat × Waiting) := do
  let starts ← forsake? ⟨prerequisite, .onStart⟩ (waiting.subscribers ⟨prerequisite, .onStart⟩)
    (waiting.detach ⟨prerequisite, .onStart⟩)
  let ends ← forsake? ⟨prerequisite, .onEnd⟩ (starts.2.subscribers ⟨prerequisite, .onEnd⟩)
    (starts.2.detach ⟨prerequisite, .onEnd⟩)
  return (starts.1 + ends.1, ends.2)

section Exact

variable {event : Dependency} {nodes : List Nat} {waiting : Waiting}

/-- Each node has as many entries as it is in the list. -/
def Suffices (event : Dependency) (nodes : List Nat) (waiting : Waiting) : Prop :=
  ∀ node, nodes.count node ≤ (waiting.pendingOf node).count event

theorem Suffices.mem {first : Nat} (enough : Suffices event (first :: nodes) waiting) :
    event ∈ waiting.pendingOf first := by
  have here := enough first
  rw [List.count_cons_self] at here
  exact List.count_pos_iff.1 (Nat.lt_of_lt_of_le (Nat.succ_pos _) here)

theorem Suffices.consume {first : Nat} (enough : Suffices event (first :: nodes) waiting) :
    Suffices event nodes (waiting.consume event first) := by
  intro node
  have here := enough node
  rw [pendingOf_consume]
  split
  · next same =>
    subst same
    rw [List.count_cons_self] at here
    rw [List.count_erase_self]
    omega
  · next other => rwa [List.count_cons_of_ne (Ne.symm other)] at here

theorem Suffices.block {first : Nat} (enough : Suffices event nodes waiting) :
    Suffices event nodes (waiting.block first) := by
  intro node
  rw [pendingOf_block]
  exact enough node

theorem release?_eq (enough : Suffices event nodes waiting) :
    release? event nodes waiting = some (release event nodes waiting) := by
  induction nodes generalizing waiting with
  | nil => rfl
  | cons first nodes ih =>
    rw [release?, consume?, if_pos enough.mem, Option.bind_eq_bind, Option.bind_some,
      ih enough.consume, release, if_pos enough.mem]
    rfl

theorem forsake?_eq (enough : Suffices event nodes waiting) :
    forsake? event nodes waiting = some (forsake event nodes waiting) := by
  induction nodes generalizing waiting with
  | nil => rfl
  | cons first nodes ih =>
    rw [forsake?, consume?, if_pos enough.mem, Option.bind_eq_bind, Option.bind_some,
      ih enough.consume.block, forsake, if_pos enough.mem]
    rfl

theorem satisfy?_eq
    (enough : ∀ d node, waiting.subscriptions.count ⟨d, node⟩ ≤ (waiting.pendingOf node).count d)
    (event : Dependency) : waiting.satisfy? event = some (waiting.satisfy event) := by
  refine release?_eq fun node => ?_
  rw [count_subscribers]
  exact enough event node

theorem abandon?_eq
    (enough : ∀ d node, waiting.subscriptions.count ⟨d, node⟩ ≤ (waiting.pendingOf node).count d)
    (prerequisite : Nat) : waiting.abandon? prerequisite = some (waiting.abandon prerequisite) := by
  let first : Dependency := ⟨prerequisite, .onStart⟩
  let second : Dependency := ⟨prerequisite, .onEnd⟩
  have apart : second ≠ first := by simp [first, second]
  obtain ⟨pending, -, -⟩ := forsake_spec first (waiting.subscribers first) (waiting.detach first)
  have starts : Suffices first (waiting.subscribers first) (waiting.detach first) := by
    intro node
    rw [count_subscribers]
    exact enough first node
  -- what was taken off for the start leaves the entries for the end alone
  have ends : Suffices second
      ((forsake first (waiting.subscribers first) (waiting.detach first)).2.subscribers second)
      ((forsake first (waiting.subscribers first) (waiting.detach first)).2.detach second) := by
    intro node
    have kept :
        ((forsake first (waiting.subscribers first) (waiting.detach first)).2.pendingOf node).count
        second = (waiting.pendingOf node).count second := by
      rw [pending]
      exact count_strip_of_ne _ _ apart
    rw [count_subscribers, subscriptions_forsake, detach]
    refine (List.filter_sublist.count_le _).trans ((enough second node).trans_eq kept.symm)
  rw [abandon?, forsake?_eq starts, Option.bind_eq_bind, Option.bind_some, forsake?_eq ends]
  rfl

end Exact

end Waiting

namespace Conductor

/-- Lets units begin to play, if none of them plays already. -/
def enrol? : List UnitId → Playing → Option (List Command × Playing)
  | [], playing => some ([], playing)
  | unit :: units, playing =>
    match playing.insert unit with
    | (true, next) => (enrol? units next).map fun rest => (.call .start unit :: rest.1, rest.2)
    | (false, _) => none

def startReady? (ready : List Nat) (conductor : Conductor) : Option (List Command × Conductor) :=
  if conductor.phase = .running then
    (enrol? (conductor.graph.units ready) conductor.playing).map fun entry =>
      (entry.1, { conductor with playing := entry.2 })
  else some ([], conductor)

def fulfil? (event : Dependency) (conductor : Conductor) : Option (List Command × Conductor) := do
  let released ← conductor.waiting.satisfy? event
  { conductor with waiting := released.2 }.startReady? released.1

/-- Takes notice of a report like `step`, without an answer where an entry that is to be taken off a
pending list is not there or a unit that is to start plays already. -/
def step? (report : Report) (conductor : Conductor) : Option (Decision × Conductor) :=
  if conductor.phase = .idle then some (.nothing, conductor)
  else
    match conductor.graph.nodeFor? report.unit with
    | none => some (.nothing, conductor)
    | some node =>
      match report.event with
      | .started =>
        (conductor.fulfil? ⟨node, .onStart⟩).map fun begun => (⟨begun.1, false⟩, begun.2)
      | .ended => (conductor.fulfil? ⟨node, .onEnd⟩).map (leave report.unit)
      | .canceled => (conductor.waiting.abandon? node).map fun lost =>
          (.nothing, { conductor with waiting := lost.2 })
      | .repeated => some (.nothing, conductor)

theorem enrol?_of_disjoint {units : List UnitId}
    {playing : Playing} (distinct : units.Nodup) (apart : ∀ unit ∈ units, unit ∉ playing.units) :
    enrol? units playing = some (enrol units playing) := by
  induction units generalizing playing with
  | nil => rfl
  | cons unit units ih =>
    obtain ⟨inserted, others⟩ := insert_of_disjoint distinct apart
    simp [enrol?, enrol, inserted, ih distinct.of_cons others]

variable {conductor : Conductor}

theorem Wired.startReady?_eq (wired : conductor.Wired) (arena : Arena conductor.graph.nodes)
    (event : Lifecycle) (node : Nat) :
    { conductor with waiting := (conductor.waiting.hear event node).2 }.startReady?
        (conductor.waiting.hear event node).1 = some (conductor.absorb event node) := by
  obtain ⟨distinct, before, -⟩ := wired.enters event node arena
  have apart : ∀ unit ∈ conductor.starting event node, unit ∉ conductor.playing.units :=
    fun unit starts plays => before unit starts (wired.playing unit plays)
  by_cases running : conductor.phase = .running
  · rw [starting, if_pos running] at distinct apart
    rw [startReady?, if_pos running, enrol?_of_disjoint distinct apart,
      absorb_of_running _ _ _ running]
    rfl
  · rw [startReady?, if_neg running, absorb_of_not_running _ _ _ running]

theorem Wired.step?_eq (wired : conductor.Wired) (arena : Arena conductor.graph.nodes)
    (report : Report) :
    conductor.step? report = some (conductor.step report) := by
  by_cases idle : conductor.phase = .idle
  · rw [step?, if_pos idle, step_of_idle report idle]
  rw [step?, if_neg idle]
  cases found : conductor.graph.nodeFor? report.unit with
  | none => rw [step_of_absent found]
  | some node =>
    have begun := wired.startReady?_eq arena report.event node
    rw [Conductor.step_eq idle found]
    cases event : report.event with
    | started =>
      rw [event] at begun
      simp only [fulfil?, Waiting.satisfy?_eq wired.pending, Option.bind_eq_bind, Option.bind_some]
      exact congrArg (Option.map _) begun
    | ended =>
      rw [event] at begun
      simp only [fulfil?, Waiting.satisfy?_eq wired.pending, Option.bind_eq_bind, Option.bind_some,
        ↓reduceIte]
      exact congrArg (Option.map _) begun
    | canceled =>
      simp only [Waiting.abandon?_eq wired.pending, Option.map_some, reduceCtorEq, ↓reduceIte]
      simp [absorb, Waiting.hear, startReady_none, Decision.nothing]
    | repeated => simp [absorb, Waiting.hear, startReady_none, Decision.nothing]

/-! ### What a run keeps -/

/-- Nodes listen exactly for what is on their pending lists, and only what they declare is on
these. -/
structure Tallied (conductor : Conductor) : Prop where
  often : ∀ event node, ((conductor.waiting.listeners event).getD []).count node =
    (conductor.waiting.pendingOf node).count event
  declared : ∀ node, (conductor.waiting.pendingOf node).Sublist (conductor.graph.dependencies node)

theorem tallied_launch (conductor : Conductor) {order : List Nat}
    (ordering : Graph.Ordering conductor.graph.nodes order) : (conductor.launch order).Tallied := by
  have all : ∀ node, (conductor.launch order).waiting.pendingOf node =
      conductor.graph.dependencies node := by
    intro node
    simp [launch, Waiting.pendingOf, Graph.dependencies]
  refine ⟨fun event node => ?_, fun node => ?_⟩
  · rw [Waiting.count_listeners, all]
    simp only [launch, count_wiring _ ordering.nodup]
    split
    · rfl
    · next absent =>
      have none : conductor.graph.nodes[node]? = none :=
        List.getElem?_eq_none (Nat.not_lt.1 (mt (ordering.mem_iff node).2 absent))
      simp [Graph.dependencies, none]
  · rw [all]
    exact .refl _

theorem Tallied.hear (tallied : conductor.Tallied) (event : Lifecycle) (node : Nat)
    (playing : Playing) :
    { conductor with waiting := (conductor.waiting.hear event node).2, playing }.Tallied := by
  have noted := Waiting.noted_hear event node conductor.waiting
  refine ⟨fun d other => ?_, fun other => ?_⟩
  · have before := tallied.often d other
    rw [Waiting.count_listeners] at before ⊢
    simp only [noted.subscriptions, noted.pendingOf]
    by_cases settled : d ∈ event.settles node
    · have used : (conductor.waiting.subscriptions.filter fun subscription =>
          subscription.event ∉ event.settles node).count ⟨d, other⟩ = 0 :=
        List.count_eq_zero.2 fun member => of_decide_eq_true (List.mem_filter.1 member).2 settled
      have left := conductor.waiting.count_drop_of_mem other
        (conductor.waiting.pendingOf other) settled
      omega
    · rw [Waiting.count_drop_of_not_mem _ _ _ settled, List.count_filter (by simpa using settled)]
      exact before
  · rw [noted.pendingOf]
    exact (Waiting.drop_sublist ..).trans (tallied.declared other)

theorem Tallied.operate (reached : conductor.Reachable)
    (tallied : conductor.phase ≠ .idle → conductor.Tallied) {operation : Operation}
    (unfilled : operation ≠ .refill) (active : (conductor.operate operation).2.phase ≠ .idle) :
    (conductor.operate operation).2.Tallied := by
  cases operation with
  | begin =>
    rw [operate_begin] at active ⊢
    rcases begin_cases conductor with ⟨going, same⟩ | ⟨cycle, idle, -, refused⟩ |
      ⟨order, opened, -, sorted, rfl, ⟨-, begun⟩ | ⟨-, begun⟩⟩
    · rw [same]
      exact tallied going
    · rw [refused] at active
      exact absurd idle active
    · rw [begun] at active
      exact absurd rfl active
    · rw [begun]
      refine tallied_launch _ ?_
      rw [Graph.nodes_sorted]
      exact reached.sound.ordering sorted
  | step report =>
    have still : conductor.phase ≠ .idle := by
      intro idle
      rw [Conductor.operate, step_of_idle report idle] at active
      exact active idle
    cases found : conductor.graph.nodeFor? report.unit with
    | none =>
      rw [Conductor.operate, step_of_absent found]
      exact tallied still
    | some node =>
      have step := reached.wired.step_eq reached.sound.arena still found
      rw [Conductor.operate, step] at active ⊢
      split at active
      · exact absurd rfl active
      · next going =>
        rw [if_neg going]
        exact (tallied still).hear report.event node _
  | cancel =>
    simp only [Conductor.operate, cancelRun] at active ⊢
    split
    · next running =>
      have now := tallied (by simp [running])
      exact ⟨now.often, now.declared⟩
    · next winding =>
      rw [if_neg winding] at active
      exact tallied active
  | finish =>
    simp only [Conductor.operate, endRun] at active ⊢
    split
    · next running =>
      have now := tallied (by simp [running])
      exact ⟨now.often, now.declared⟩
    · next winding =>
      rw [if_neg winding] at active
      exact tallied active
  | settle =>
    simp only [Conductor.operate, settle] at active ⊢
    split at active
    · exact absurd rfl active
    · exact absurd rfl active
    · exact tallied active
    · exact tallied active
  | edit change =>
    have now := tallied active
    refine ⟨now.often, fun node => (now.declared node).trans ?_⟩
    exact ((conductor.graph.extends_edit change).dependencies node).sublist
  | refill => exact absurd rfl unfilled

theorem tallied_run (reached : conductor.Reachable)
    (tallied : conductor.phase ≠ .idle → conductor.Tallied) {history : List Operation}
    (unfilled : .refill ∉ history) (active : (conductor.run history).2.phase ≠ .idle) :
    (conductor.run history).2.Tallied := by
  induction history generalizing conductor with
  | nil => exact tallied active
  | cons operation history ih =>
    obtain ⟨other, unfilled⟩ := not_or.1 (mt List.mem_cons.2 unfilled)
    exact ih (reached.run [operation]) (Tallied.operate reached tallied (Ne.symm other))
      unfilled active

/-- While a run lasts, however far it is and whatever was reported and added to the graph since it
began, every node listens for something exactly as often as that is on its pending list, nothing is
listed that nobody listens for, and every pending list is part of what its node declares. So
whatever is reported next, every entry that is to be taken off is there, and no unit is to start
that plays already. -/
theorem listeners_tally {before since : List Operation} (idle : (fresh.run before).2.phase = .idle)
    (unfilled : .refill ∉ since) :
    let conductor := (fresh.run (before ++ since)).2
    conductor.phase ≠ .idle → conductor.Tallied ∧
      (∀ event, conductor.waiting.listeners event ≠ some []) ∧
      ∀ report, conductor.step? report = some (conductor.step report) := by
  intro conductor active
  have reached : conductor.Reachable := ⟨_, rfl⟩
  refine ⟨?_, conductor.waiting.listeners_ne_nil, reached.wired.step?_eq reached.sound.arena⟩
  have earlier : (fresh.run before).2.Reachable := ⟨before, rfl⟩
  simp only [conductor, run_append] at active ⊢
  exact tallied_run earlier (fun going => absurd idle going) unfilled active

/-- The last unit waits twice for the end of the first one, and for its start between. -/
def triple : List Operation :=
  [.edit (.place ⟨0, 0⟩), .edit (.place ⟨0, 1⟩), .edit (.place ⟨0, 2⟩),
    .edit (.depend 2 ⟨0, .onEnd⟩), .edit (.depend 2 ⟨0, .onStart⟩), .edit (.depend 2 ⟨0, .onEnd⟩)]

/-- After the start of the first unit both of its ends are left, and a dependency that is added then
does not count yet. -/
theorem listeners_tally_triple :
    let conductor := (fresh.run (triple ++
      [.begin, .step ⟨⟨0, 0⟩, .started⟩, .edit (.depend 1 ⟨0, .onEnd⟩)])).2
    conductor.phase = .running ∧ conductor.waiting.listeners ⟨0, .onEnd⟩ = some [2, 2] ∧
      conductor.waiting.pending = [[], [], [⟨0, .onEnd⟩, ⟨0, .onEnd⟩]] ∧ conductor.Tallied ∧
      (conductor.step? ⟨⟨0, 0⟩, .ended⟩).isSome := by
  intro conductor
  have running : conductor.phase = .running := by cbv
  have idle : (fresh.run triple).2.phase = .idle := by cbv
  have unfilled : Operation.refill ∉
      ([.begin, .step ⟨⟨0, 0⟩, .started⟩, .edit (.depend 1 ⟨0, .onEnd⟩)] : List Operation) := by
        decide
  have kept := listeners_tally idle unfilled fun idle => Phase.noConfusion (running.symm.trans idle)
  exact ⟨running, by cbv, by cbv, kept.1, by rw [kept.2.2]; rfl⟩

end Conductor

end Choreo
