import Mathlib.Data.List.Nodup
import Choreo.Proofs.Run.Operations

/-!
# What an event does to the waiting nodes

At any time of a run the pending lists and the subscriptions are what is left of the declared
dependencies and of the wiring when those that are settled are struck out. An event strikes out one
dependency everywhere. If it is satisfied, the nodes that waited for nothing else and are not
blocked are ready, in the order of start; if it is abandoned, all nodes that waited for it are
blocked.
-/

namespace Choreo

/-- The event that a dependency waits for. -/
def Rule.awaited : Rule → Lifecycle
  | .onStart => .started
  | .onEnd => .ended

/-- Whether a dependency is settled by this event of this node, for good or for ill. -/
def Dependency.settledBy (event : Lifecycle) (node : Nat) (dependency : Dependency) : Bool :=
  dependency.node = node && (event = dependency.rule.awaited || event = .canceled)

namespace Waiting

/-- Strikes all entries of a dependency off the pending list of a node. -/
def strike (event : Dependency) (node : Nat) (waiting : Waiting) : Waiting :=
  { waiting with pending := waiting.pending.modify node fun entries => entries.filter (· ≠ event) }

theorem filter_erase (event : Dependency) (entries : List Dependency) :
    (entries.erase event).filter (· ≠ event) = entries.filter (· ≠ event) := by
  induction entries with
  | nil => rfl
  | cons entry entries ih =>
    by_cases same : entry = event
    · simp [same]
    · have differs : (entry == event) = false := by simpa using same
      simp only [List.erase_cons, differs, Bool.false_eq_true, ↓reduceIte, List.filter_cons, ih]

theorem filter_of_not_mem {event : Dependency} {entries : List Dependency} (h : event ∉ entries) :
    entries.filter (· ≠ event) = entries :=
  List.filter_eq_self.2 fun entry member => by
    have differs : entry ≠ event := fun same => h (same ▸ member)
    simpa using differs

theorem pendingOf_modify (waiting : Waiting) (node other : Nat)
    (f : List Dependency → List Dependency) (h : f [] = []) :
    ({ waiting with pending := waiting.pending.modify node f } : Waiting).pendingOf other =
      if other = node then f (waiting.pendingOf node) else waiting.pendingOf other := by
  simp only [pendingOf, List.getElem?_modify]
  by_cases same : other = node
  · subst same
    cases waiting.pending[other]? <;> simp [h]
  · cases waiting.pending[other]? <;> simp [same, Ne.symm same]

theorem pendingOf_consume (event : Dependency) (node other : Nat) (waiting : Waiting) :
    (waiting.consume event node).pendingOf other =
      if other = node then (waiting.pendingOf node).erase event else waiting.pendingOf other :=
  pendingOf_modify waiting node other _ rfl

theorem pendingOf_strike (event : Dependency) (node other : Nat) (waiting : Waiting) :
    (waiting.strike event node).pendingOf other =
      if other = node then (waiting.pendingOf node).filter (· ≠ event)
        else waiting.pendingOf other :=
  pendingOf_modify waiting node other _ rfl

theorem pending_ext {first second : Waiting} (size : first.pending.length = second.pending.length)
    (same : ∀ node, first.pendingOf node = second.pendingOf node) :
    first.pending = second.pending := by
  apply List.ext_getElem size
  intro node hf hs
  have here := same node
  simpa [pendingOf, hf, hs] using here

theorem strike_of_not_mem {event : Dependency} {node : Nat} {waiting : Waiting}
    (h : event ∉ waiting.pendingOf node) : waiting.strike event node = waiting := by
  have same : (waiting.strike event node).pending = waiting.pending := by
    apply pending_ext
    · simp [strike]
    · intro other
      rw [pendingOf_strike]
      split
      · rename_i here
        rw [here, filter_of_not_mem h]
      · rfl
  cases waiting
  simp only [strike] at same ⊢
  rw [same]

theorem strike_consume (event : Dependency) (node : Nat) (waiting : Waiting) :
    (waiting.consume event node).strike event node = waiting.strike event node := by
  simp only [strike, consume, List.modify_modify_eq]
  congr 2
  funext entries
  exact filter_erase event entries

theorem mem_of_count_succ {event : Dependency} {entries : List Dependency} {k : Nat}
    (h : entries.count event = k + 1) : event ∈ entries :=
  List.count_pos_iff.1 (h ▸ Nat.succ_pos k)

/-- A node that hears of an event once for each of its entries is ready if nothing else is pending
and it is not blocked. -/
theorem release_replicate (event : Dependency) (node : Nat) (rest : List Nat) (waiting : Waiting) :
    release event (List.replicate ((waiting.pendingOf node).count event) node ++ rest) waiting =
      let more := release event rest (waiting.strike event node)
      (if event ∈ waiting.pendingOf node ∧ (waiting.pendingOf node).filter (· ≠ event) = [] ∧
          waiting.isBlocked node = false
        then node :: more.1 else more.1, more.2) := by
  induction total : (waiting.pendingOf node).count event generalizing waiting with
  | zero =>
    have absent := List.count_eq_zero.1 total
    simp [strike_of_not_mem absent, absent]
  | succ k ih =>
    have present := mem_of_count_succ total
    have pending := pendingOf_consume event node node waiting
    rw [if_pos rfl] at pending
    have fewer : ((waiting.consume event node).pendingOf node).count event = k := by
      rw [pending, List.count_erase_self]
      omega
    have onward := ih (waiting.consume event node) fewer
    have unblocked : (waiting.consume event node).isBlocked node = waiting.isBlocked node := rfl
    rw [List.replicate_succ, List.cons_append, release, if_pos present]
    simp only [onward, strike_consume, unblocked, pending]
    by_cases again : event ∈ (waiting.pendingOf node).erase event
    · have some : ((waiting.pendingOf node).erase event).isEmpty = false :=
        List.isEmpty_eq_false_iff.2 (List.ne_nil_of_mem again)
      simp only [filter_erase, again, present, true_and, some, Bool.and_false, Bool.false_eq_true,
        ↓reduceIte]
    · have rest : (waiting.pendingOf node).filter (· ≠ event) =
          (waiting.pendingOf node).erase event := by
        rw [← filter_erase, filter_of_not_mem again]
      simp only [again, false_and, ↓reduceIte, present, true_and, rest]
      by_cases blocked : waiting.isBlocked node <;> simp [blocked]

theorem forsake_replicate (event : Dependency) (node : Nat) (rest : List Nat) (waiting : Waiting) :
    (forsake event (List.replicate ((waiting.pendingOf node).count event) node ++ rest) waiting).2 =
      (forsake event rest (if event ∈ waiting.pendingOf node
        then (waiting.strike event node).block node else waiting)).2 := by
  induction total : (waiting.pendingOf node).count event generalizing waiting with
  | zero =>
    have absent := List.count_eq_zero.1 total
    simp [absent]
  | succ k ih =>
    have present := mem_of_count_succ total
    have pending := pendingOf_consume event node node waiting
    rw [if_pos rfl] at pending
    have kept : ((waiting.consume event node).block node).pendingOf node =
        (waiting.pendingOf node).erase event := by
      rw [← pending, block]
      split <;> rfl
    have fewer : (((waiting.consume event node).block node).pendingOf node).count event = k := by
      rw [kept, List.count_erase_self]
      omega
    have onward := ih ((waiting.consume event node).block node) fewer
    rw [List.replicate_succ, List.cons_append, forsake, if_pos present, if_pos present]
    simp only [onward, kept]
    by_cases again : event ∈ (waiting.pendingOf node).erase event
    · have same : (((waiting.consume event node).block node).strike event node).block node =
          (waiting.strike event node).block node := by
        rw [← strike_consume event node waiting]
        by_cases blocked : waiting.isBlocked node <;>
          simp_all [block, strike, isBlocked, consume]
      rw [if_pos again, same]
    · have same : (waiting.consume event node).block node =
          (waiting.strike event node).block node := by
        rw [← strike_consume event node waiting, strike_of_not_mem (pending ▸ again)]
      rw [if_neg again, same]

/-- The nodes that lose their last entry with this one, of these that are not blocked. -/
def readied (event : Dependency) (waiting : Waiting) (nodes : List Nat) : List Nat :=
  nodes.filter fun node => event ∈ waiting.pendingOf node ∧
    (waiting.pendingOf node).filter (· ≠ event) = [] ∧ waiting.isBlocked node = false

/-- Each of these nodes as often as the event is among its pending entries. -/
def hearers (event : Dependency) (waiting : Waiting) (nodes : List Nat) : List Nat :=
  nodes.flatMap fun node => List.replicate ((waiting.pendingOf node).count event) node

theorem hearers_congr {event : Dependency} {first second : Waiting} {nodes : List Nat}
    (h : ∀ node ∈ nodes, first.pendingOf node = second.pendingOf node) :
    hearers event first nodes = hearers event second nodes := by
  simp only [hearers, List.flatMap]
  congr 1
  exact List.map_congr_left fun node member => by rw [h node member]

theorem pendingOf_strike_of_ne {event : Dependency} {node other : Nat} (waiting : Waiting)
    (h : other ≠ node) : (waiting.strike event node).pendingOf other = waiting.pendingOf other := by
  rw [pendingOf_strike, if_neg h]

theorem release_hearers (event : Dependency) {nodes : List Nat} (distinct : nodes.Nodup)
    (waiting : Waiting) :
    release event (hearers event waiting nodes) waiting =
      (readied event waiting nodes, nodes.foldl (fun w node => w.strike event node) waiting) := by
  induction nodes generalizing waiting with
  | nil => rfl
  | cons node nodes ih =>
    obtain ⟨apart, distinct⟩ := List.nodup_cons.1 distinct
    have frame : ∀ other ∈ nodes,
        (waiting.strike event node).pendingOf other = waiting.pendingOf other :=
      fun other member => pendingOf_strike_of_ne waiting fun same => apart (same ▸ member)
    have others : readied event (waiting.strike event node) nodes =
        readied event waiting nodes := by
      apply List.filter_congr
      intro other member
      rw [frame other member]
      rfl
    have step := release_replicate event node (hearers event waiting nodes) waiting
    rw [← hearers_congr frame, ih distinct, others] at step
    have split : hearers event waiting (node :: nodes) =
        List.replicate ((waiting.pendingOf node).count event) node ++ hearers event waiting nodes :=
          rfl
    rw [split, ← hearers_congr frame, step]
    simp only [readied, List.filter_cons, decide_eq_true_eq, List.foldl_cons]

/-- Strikes an entry off and blocks the node if it had one. -/
def lose (event : Dependency) (waiting : Waiting) (node : Nat) : Waiting :=
  if event ∈ waiting.pendingOf node then (waiting.strike event node).block node else waiting

theorem pendingOf_block (node other : Nat) (waiting : Waiting) :
    (waiting.block node).pendingOf other = waiting.pendingOf other := by
  simp only [block]
  split <;> rfl

theorem isBlocked_block (node other : Nat) (waiting : Waiting) :
    (waiting.block node).isBlocked other = true ↔ waiting.isBlocked other = true ∨
      other = node := by
  by_cases blocked : waiting.isBlocked node
  · simp only [block, blocked, ↓reduceIte]
    constructor
    · exact .inl
    · rintro (before | rfl)
      · exact before
      · exact blocked
  · simp only [block, blocked, Bool.false_eq_true, ↓reduceIte]
    simp [isBlocked]

theorem pendingOf_lose (event : Dependency) (node other : Nat) (waiting : Waiting) :
    (waiting.lose event node).pendingOf other =
      if other = node then (waiting.pendingOf node).filter (· ≠ event)
        else waiting.pendingOf other := by
  by_cases present : event ∈ waiting.pendingOf node
  · rw [lose, if_pos present, pendingOf_block, pendingOf_strike]
  · rw [lose, if_neg present]
    split
    · rename_i same
      rw [same, filter_of_not_mem present]
    · rfl

theorem isBlocked_lose (event : Dependency) (node other : Nat) (waiting : Waiting) :
    (waiting.lose event node).isBlocked other = true ↔
      waiting.isBlocked other = true ∨ other = node ∧ event ∈ waiting.pendingOf node := by
  by_cases present : event ∈ waiting.pendingOf node
  · rw [lose, if_pos present, isBlocked_block]
    simp only [present, and_true]
    rfl
  · rw [lose, if_neg present]
    simp [present]

theorem forsake_hearers (event : Dependency) {nodes : List Nat} (distinct : nodes.Nodup)
    (waiting : Waiting) :
    (forsake event (hearers event waiting nodes) waiting).2 =
      nodes.foldl (fun w node => w.lose event node) waiting := by
  induction nodes generalizing waiting with
  | nil => rfl
  | cons node nodes ih =>
    obtain ⟨apart, distinct⟩ := List.nodup_cons.1 distinct
    have frame : ∀ other ∈ nodes,
        (waiting.lose event node).pendingOf other = waiting.pendingOf other := by
      intro other member
      have differs : other ≠ node := fun same => apart (same ▸ member)
      rw [pendingOf_lose, if_neg differs]
    have step := forsake_replicate event node (hearers event waiting nodes) waiting
    have split : hearers event waiting (node :: nodes) =
        List.replicate ((waiting.pendingOf node).count event) node ++ hearers event waiting nodes :=
          rfl
    rw [split, step, List.foldl_cons, ← ih distinct, hearers_congr frame]
    rfl

theorem pendingOf_strikes (event : Dependency) (nodes : List Nat) (waiting : Waiting) (node : Nat) :
    (nodes.foldl (fun w node => w.strike event node) waiting).pendingOf node =
      if node ∈ nodes then (waiting.pendingOf node).filter (· ≠ event)
        else waiting.pendingOf node := by
  induction nodes generalizing waiting with
  | nil => simp
  | cons first nodes ih =>
    rw [List.foldl_cons, ih, pendingOf_strike]
    by_cases here : node = first
    · subst here
      simp [List.filter_filter]
    · simp [here]

theorem isBlocked_strikes (event : Dependency) (nodes : List Nat) (waiting : Waiting) :
    (nodes.foldl (fun w node => w.strike event node) waiting).blocked = waiting.blocked := by
  induction nodes generalizing waiting with
  | nil => rfl
  | cons first nodes ih => exact ih _

theorem pendingOf_loses (event : Dependency) (nodes : List Nat) (waiting : Waiting) (node : Nat) :
    (nodes.foldl (fun w node => w.lose event node) waiting).pendingOf node =
      if node ∈ nodes then (waiting.pendingOf node).filter (· ≠ event)
        else waiting.pendingOf node := by
  induction nodes generalizing waiting with
  | nil => simp
  | cons first nodes ih =>
    rw [List.foldl_cons, ih, pendingOf_lose]
    by_cases here : node = first
    · subst here
      simp [List.filter_filter]
    · simp [here]

theorem isBlocked_loses (event : Dependency) {nodes : List Nat} (waiting : Waiting) (node : Nat) :
    (nodes.foldl (fun w node => w.lose event node) waiting).isBlocked node = true ↔
      waiting.isBlocked node = true ∨ node ∈ nodes ∧ event ∈ waiting.pendingOf node := by
  induction nodes generalizing waiting with
  | nil => simp
  | cons first nodes ih =>
    rw [List.foldl_cons, ih, isBlocked_lose, pendingOf_lose]
    by_cases here : node = first
    · subst here
      simp
    · simp [here]

/-- The pending lists and subscriptions hold what is still open of the declared dependencies. -/
structure Mirrors (base : Graph) (order : List Nat) (live : Dependency → Bool)
    (waiting : Waiting) : Prop where
  pendingOf : ∀ node, waiting.pendingOf node = (base.dependencies node).filter live
  subscriptions : waiting.subscriptions =
    (Conductor.wiring base order).filter fun subscription => live subscription.event

namespace Mirrors

variable {base : Graph} {order : List Nat} {live : Dependency → Bool} {waiting : Waiting}

theorem subscribers (mirrors : Mirrors base order live waiting) (event : Dependency) :
    waiting.subscribers event = hearers event waiting order := by
  simp only [Waiting.subscribers, mirrors.subscriptions, Conductor.wiring, hearers,
    List.filter_flatMap, List.map_flatMap]
  congr 1
  funext node
  rw [mirrors.pendingOf, List.count_eq_length_filter, List.filter_map, List.filter_map,
    List.map_map]
  simp only [List.map_const', Function.comp_def]

theorem congr {same : Dependency → Bool} (mirrors : Mirrors base order live waiting)
    (h : ∀ node, ∀ d ∈ base.dependencies node, live d = same d) :
    Mirrors base order same waiting := by
  constructor
  · intro node
    rw [mirrors.pendingOf]
    exact List.filter_congr (h node)
  · rw [mirrors.subscriptions]
    apply List.filter_congr
    intro subscription member
    obtain ⟨node, -, declared⟩ := List.mem_flatMap.1 member
    obtain ⟨d, hd, rfl⟩ := List.mem_map.1 declared
    exact h node d hd

theorem detach (mirrors : Mirrors base order live waiting) (event : Dependency) :
    (waiting.detach event).subscriptions =
      (Conductor.wiring base order).filter fun s => live s.event && s.event ≠ event := by
  simp only [Waiting.detach, mirrors.subscriptions, List.filter_filter]
  apply List.filter_congr
  intro subscription _
  by_cases same : subscription.event = event <;> simp [same]

theorem pendingOf_of_not_mem (mirrors : Mirrors base order live waiting)
    (ordering : Graph.Ordering base.nodes order) {node : Nat} (h : node ∉ order) :
    waiting.pendingOf node = [] := by
  have outside : base.nodes[node]? = Option.none :=
    List.getElem?_eq_none (Nat.le_of_not_lt fun inside => h ((ordering.mem_iff node).2 inside))
  simp [mirrors.pendingOf, Graph.dependencies, outside]

/-- What is struck out at all nodes of the order is struck out everywhere. -/
theorem struck (mirrors : Mirrors base order live waiting)
    (ordering : Graph.Ordering base.nodes order)
    (event : Dependency) {after : Waiting}
    (pending : ∀ node, after.pendingOf node = if node ∈ order
      then (waiting.pendingOf node).filter (· ≠ event) else waiting.pendingOf node)
    (subscriptions : after.subscriptions = (waiting.detach event).subscriptions) :
    Mirrors base order (fun d => live d && d ≠ event) after := by
  constructor
  · intro node
    rw [pending]
    have filtered : (waiting.pendingOf node).filter (· ≠ event) =
        (base.dependencies node).filter fun d => live d && d ≠ event := by
      rw [mirrors.pendingOf, List.filter_filter]
      exact List.filter_congr fun d _ => Bool.and_comm _ _
    split
    · exact filtered
    · rename_i outside
      rw [← filtered, mirrors.pendingOf_of_not_mem ordering outside]
      rfl
  · rw [subscriptions, mirrors.detach]

theorem satisfy (mirrors : Mirrors base order live waiting)
    (ordering : Graph.Ordering base.nodes order) (event : Dependency) :
    (waiting.satisfy event).1 = readied event waiting order ∧
      Mirrors base order (fun d => live d && d ≠ event) (waiting.satisfy event).2 ∧
      (waiting.satisfy event).2.blocked = waiting.blocked := by
  have released : waiting.satisfy event = (readied event (waiting.detach event) order,
      order.foldl (fun w node => w.strike event node) (waiting.detach event)) := by
    rw [Waiting.satisfy, mirrors.subscribers]
    exact release_hearers event ordering.nodup (waiting.detach event)
  have subscriptions : (waiting.satisfy event).2.subscriptions =
      (waiting.detach event).subscriptions :=
    subscriptions_release event _ _
  rw [released] at subscriptions ⊢
  refine ⟨rfl, mirrors.struck ordering event (fun node => ?_) subscriptions, ?_⟩
  · exact pendingOf_strikes event order _ node
  · exact isBlocked_strikes event order _

theorem forsake (mirrors : Mirrors base order live waiting)
    (ordering : Graph.Ordering base.nodes order) (event : Dependency) {after : Waiting}
    (h : (Waiting.forsake event (waiting.subscribers event) (waiting.detach event)).2 = after) :
    Mirrors base order (fun d => live d && d ≠ event) after ∧
      ∀ node, after.isBlocked node = true ↔
        waiting.isBlocked node = true ∨ event ∈ waiting.pendingOf node := by
  have lost : after = order.foldl (fun w node => w.lose event node) (waiting.detach event) := by
    rw [← h, mirrors.subscribers]
    exact forsake_hearers event ordering.nodup (waiting.detach event)
  have subscriptions : after.subscriptions = (waiting.detach event).subscriptions := by
    rw [← h, subscriptions_forsake]
  refine ⟨mirrors.struck ordering event (fun node => ?_) subscriptions, fun node => ?_⟩
  · rw [lost]
    exact pendingOf_loses event order _ node
  · rw [lost, isBlocked_loses]
    by_cases inside : node ∈ order
    · simp only [inside, true_and]
      rfl
    · simp only [inside, false_and, or_false, mirrors.pendingOf_of_not_mem ordering inside,
        List.not_mem_nil]
      rfl

theorem abandon (mirrors : Mirrors base order live waiting)
    (ordering : Graph.Ordering base.nodes order) (node : Nat) :
    Mirrors base order (fun d => live d && d.node ≠ node) (waiting.abandon node).2 ∧
      ∀ other, (waiting.abandon node).2.isBlocked other = true ↔
        waiting.isBlocked other = true ∨ ∃ d ∈ waiting.pendingOf other, d.node = node := by
  obtain ⟨starts, startsBlocked⟩ := mirrors.forsake ordering ⟨node, .onStart⟩ rfl
  obtain ⟨ends, endsBlocked⟩ := starts.forsake ordering ⟨node, .onEnd⟩ rfl
  refine ⟨ends.congr fun other d _ => ?_, fun other => ?_⟩
  · obtain ⟨place, rule⟩ := d
    by_cases here : place = node <;> cases rule <;> simp [here]
  · refine (endsBlocked other).trans ?_
    rw [startsBlocked, starts.pendingOf, mirrors.pendingOf]
    simp only [List.mem_filter]
    constructor
    · rintro ((before | lost) | lost)
      · exact .inl before
      · exact .inr ⟨_, lost, rfl⟩
      · exact .inr ⟨_, ⟨lost.1, (Bool.and_eq_true_iff.1 lost.2).1⟩, rfl⟩
    · rintro (before | ⟨⟨place, rule⟩, lost, rfl⟩)
      · exact .inl (.inl before)
      · cases rule with
        | onStart => exact .inl (.inr lost)
        | onEnd => exact .inr ⟨lost.1, by simp [lost.2]⟩

end Mirrors

/-- What an event of a node leaves: the dependencies that it settles are struck out, the nodes for
which they were the last ones are ready, and those that lost one by a cancellation are blocked. -/
structure Heard (base : Graph) (order : List Nat) (live : Dependency → Bool) (waiting : Waiting)
    (event : Lifecycle) (node : Nat) (left : Dependency → Bool)
    (heard : List Nat × Waiting) : Prop where
  mirrors : Mirrors base order left heard.2
  ready : heard.1 = order.filter fun other => event ≠ .canceled ∧
    (base.dependencies other).filter live ≠ [] ∧ (base.dependencies other).filter left = [] ∧
    waiting.isBlocked other = false
  blocked : ∀ other, heard.2.isBlocked other = true ↔ waiting.isBlocked other = true ∨
    event = .canceled ∧ ∃ d ∈ base.dependencies other, live d = true ∧ d.node = node

namespace Mirrors

variable {base : Graph} {order : List Nat} {live : Dependency → Bool} {waiting : Waiting}

theorem heard_satisfy (mirrors : Mirrors base order live waiting)
    (ordering : Graph.Ordering base.nodes order) (awaited : Dependency) :
    Heard base order live waiting awaited.rule.awaited awaited.node
      (fun d => live d && !d.settledBy awaited.rule.awaited awaited.node)
        (waiting.satisfy awaited) := by
  obtain ⟨ready, mirrored, blocked⟩ := mirrors.satisfy ordering awaited
  have going : awaited.rule.awaited ≠ .canceled := by
    cases awaited.rule <;> simp [Rule.awaited]
  have same : ∀ d : Dependency, (live d && decide (d ≠ awaited)) =
      (live d && !d.settledBy awaited.rule.awaited awaited.node) := by
    intro d
    obtain ⟨place, rule⟩ := awaited
    obtain ⟨other, kind⟩ := d
    cases rule <;> cases kind <;> simp [Dependency.settledBy, Rule.awaited]
  refine ⟨mirrored.congr fun _ d _ => same d, ?_, fun other => ?_⟩
  · rw [ready]
    apply List.filter_congr
    intro other _
    have rest : (waiting.pendingOf other).filter (· ≠ awaited) = (base.dependencies other).filter
        fun d => live d && !d.settledBy awaited.rule.awaited awaited.node := by
      rw [mirrors.pendingOf, List.filter_filter]
      exact List.filter_congr fun d _ => (Bool.and_comm _ _).trans (same d)
    rw [rest, ← mirrors.pendingOf]
    simp only [going, ne_eq, not_false_eq_true, true_and, decide_eq_decide]
    constructor
    · rintro ⟨present, none, unblocked⟩
      exact ⟨List.ne_nil_of_mem present, none, unblocked⟩
    · rintro ⟨some, none, unblocked⟩
      refine ⟨?_, none, unblocked⟩
      by_contra absent
      rw [← rest, filter_of_not_mem absent] at none
      exact some none
  · simp only [going, false_and, or_false]
    rw [isBlocked, blocked]
    rfl

theorem hear (mirrors : Mirrors base order live waiting)
    (ordering : Graph.Ordering base.nodes order) (event : Lifecycle) (node : Nat) :
    Heard base order live waiting event node (fun d => live d && !d.settledBy event node)
      (waiting.hear event node) := by
  cases event with
  | started => exact mirrors.heard_satisfy ordering ⟨node, .onStart⟩
  | ended => exact mirrors.heard_satisfy ordering ⟨node, .onEnd⟩
  | canceled =>
    obtain ⟨mirrored, blocked⟩ := mirrors.abandon ordering node
    refine ⟨mirrored.congr fun _ d _ => ?_, by simp [Waiting.hear], fun other => ?_⟩
    · simp [Dependency.settledBy]
    · refine (blocked other).trans ?_
      simp [mirrors.pendingOf, and_assoc]
  | repeated =>
    have same : ∀ d : Dependency, live d = (live d && !d.settledBy .repeated node) := by
      intro d
      cases h : d.rule <;> simp [Dependency.settledBy, Rule.awaited, h]
    refine ⟨mirrors.congr fun _ d _ => same d, ?_, by simp [Waiting.hear]⟩
    symm
    apply List.filter_eq_nil_iff.2
    intro other _ ready
    obtain ⟨-, some, none, -⟩ := of_decide_eq_true ready
    simp only [← same] at none
    exact some none

end Mirrors

end Waiting

end Choreo
