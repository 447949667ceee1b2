import Choreo.Graph

/-!
# Waiting nodes

During a run each waiting node has a list of pending dependencies and one subscription for each of
them. When a prerequisite starts or ends, the subscriptions to that are used up, each takes one
entry off the pending list of its node, and a node whose list becomes empty is ready. When a
prerequisite is canceled its subscriptions are used up in the same way, but the nodes that lose an
entry are blocked and do not become ready any more.
-/

namespace Choreo

structure Subscription where
  event : Dependency
  dependent : Nat
  deriving DecidableEq

/-- The pending lists by node, the subscriptions in their order, and the blocked nodes. -/
structure Waiting where
  pending : List (List Dependency)
  subscriptions : List Subscription
  blocked : List Nat
  deriving DecidableEq

namespace Waiting

def none : Waiting := ⟨[], [], []⟩

instance : Inhabited Waiting := ⟨none⟩

def pendingOf (waiting : Waiting) (node : Nat) : List Dependency := waiting.pending[node]?.getD []

def isBlocked (waiting : Waiting) (node : Nat) : Bool := waiting.blocked.contains node

def refill (nodes : List Node) (waiting : Waiting) : Waiting :=
  { waiting with pending := nodes.map Node.dependencies }

def reset (waiting : Waiting) : Waiting := { waiting with subscriptions := [], blocked := [] }

def subscribe (event : Dependency) (dependent : Nat) (waiting : Waiting) : Waiting :=
  { waiting with subscriptions := waiting.subscriptions ++ [⟨event, dependent⟩] }

def isAwaited (event : Dependency) (waiting : Waiting) : Bool :=
  waiting.subscriptions.any fun s => s.event == event

/-- The nodes with a subscription to this, in the order of their subscriptions. -/
def subscribers (event : Dependency) (waiting : Waiting) : List Nat :=
  (waiting.subscriptions.filter fun s => s.event == event).map Subscription.dependent

def detach (event : Dependency) (waiting : Waiting) : Waiting :=
  { waiting with subscriptions := waiting.subscriptions.filter fun s => !(s.event == event) }

def consume (event : Dependency) (node : Nat) (waiting : Waiting) : Waiting :=
  { waiting with pending := waiting.pending.modify node fun entries => entries.erase event }

def block (node : Nat) (waiting : Waiting) : Waiting :=
  if waiting.isBlocked node then waiting else { waiting with blocked := waiting.blocked ++ [node] }

/-- Lets each of these nodes know that this has happened; the first list is those that are ready. -/
def release (event : Dependency) : List Nat → Waiting → List Nat × Waiting
  | [], waiting => ([], waiting)
  | node :: nodes, waiting =>
    if event ∈ waiting.pendingOf node then
      let next := waiting.consume event node
      let rest := release event nodes next
      (if !next.isBlocked node && (next.pendingOf node).isEmpty then node :: rest.1
        else rest.1, rest.2)
    else release event nodes waiting

/-- The prerequisite started or ended: what it makes ready, in the order of subscriptions. -/
def satisfy (event : Dependency) (waiting : Waiting) : List Nat × Waiting :=
  release event (waiting.subscribers event) (waiting.detach event)

/-- Lets each of these nodes know that this will not happen; the number is that of entries lost. -/
def forsake (event : Dependency) : List Nat → Waiting → Nat × Waiting
  | [], waiting => (0, waiting)
  | node :: nodes, waiting =>
    if event ∈ waiting.pendingOf node then
      let rest := forsake event nodes ((waiting.consume event node).block node)
      (rest.1 + 1, rest.2)
    else forsake event nodes waiting

/-- The prerequisite will neither start nor end: how many pending entries that drops. -/
def abandon (prerequisite : Nat) (waiting : Waiting) : Nat × Waiting :=
  let starts := forsake ⟨prerequisite, .onStart⟩ (waiting.subscribers ⟨prerequisite, .onStart⟩)
    (waiting.detach ⟨prerequisite, .onStart⟩)
  let ends := forsake ⟨prerequisite, .onEnd⟩ (starts.2.subscribers ⟨prerequisite, .onEnd⟩)
    (starts.2.detach ⟨prerequisite, .onEnd⟩)
  (starts.1 + ends.1, ends.2)

@[simp] theorem subscriptions_consume (event : Dependency) (node : Nat) (waiting : Waiting) :
    (waiting.consume event node).subscriptions = waiting.subscriptions := rfl

@[simp] theorem subscriptions_block (node : Nat) (waiting : Waiting) :
    (waiting.block node).subscriptions = waiting.subscriptions := by
  rw [block]; split <;> rfl

@[simp] theorem subscriptions_release (event : Dependency) (nodes : List Nat) (waiting : Waiting) :
    (release event nodes waiting).2.subscriptions = waiting.subscriptions := by
  induction nodes generalizing waiting with
  | nil => rfl
  | cons node nodes ih => rw [release]; split <;> simp [ih]

@[simp] theorem subscriptions_forsake (event : Dependency) (nodes : List Nat) (waiting : Waiting) :
    (forsake event nodes waiting).2.subscriptions = waiting.subscriptions := by
  induction nodes generalizing waiting with
  | nil => rfl
  | cons node nodes ih => rw [forsake]; split <;> simp [ih]

theorem length_detach_le (event : Dependency) (waiting : Waiting) :
    (waiting.detach event).subscriptions.length ≤ waiting.subscriptions.length :=
  List.length_filter_le _ _

theorem length_detach_lt {event : Dependency} {waiting : Waiting}
    (h : waiting.subscribers event ≠ []) :
    (waiting.detach event).subscriptions.length < waiting.subscriptions.length := by
  obtain ⟨node, hnode⟩ := List.exists_mem_of_ne_nil _ h
  simp only [subscribers, List.mem_map, List.mem_filter] at hnode
  obtain ⟨s, ⟨hs, he⟩, -⟩ := hnode
  exact List.length_filter_lt_length_iff_exists.2 ⟨s, hs, by simp [he]⟩

theorem length_satisfy_le (event : Dependency) (waiting : Waiting) :
    (waiting.satisfy event).2.subscriptions.length ≤ waiting.subscriptions.length := by
  simpa [satisfy] using length_detach_le event waiting

/-- Something can become ready only if a subscription is used up for it. -/
theorem length_satisfy_lt {event : Dependency} {waiting : Waiting}
    (h : (waiting.satisfy event).1 ≠ []) :
    (waiting.satisfy event).2.subscriptions.length < waiting.subscriptions.length := by
  have awaited : waiting.subscribers event ≠ [] := by
    intro none
    simp [satisfy, none, release] at h
  simpa [satisfy] using length_detach_lt awaited

theorem length_abandon_le (prerequisite : Nat) (waiting : Waiting) :
    (waiting.abandon prerequisite).2.subscriptions.length ≤ waiting.subscriptions.length := by
  have starts := length_detach_le ⟨prerequisite, .onStart⟩ waiting
  have ends := length_detach_le ⟨prerequisite, .onEnd⟩
    (forsake ⟨prerequisite, .onStart⟩ (waiting.subscribers ⟨prerequisite, .onStart⟩)
      (waiting.detach ⟨prerequisite, .onStart⟩)).2
  simp only [subscriptions_forsake] at ends
  simpa [abandon] using Nat.le_trans ends starts

end Waiting

end Choreo
