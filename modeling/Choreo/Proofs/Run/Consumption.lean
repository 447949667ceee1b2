import Choreo.Proofs.Run.Tally

/-!
# What is taken off any table

Nodes may have subscribed to what is not pending at them, entries may be pending to which nobody
subscribed, and both may be there several times. Whatever the table, one thing that happens uses up
the subscriptions to it and no others. Each of them takes one entry off its node as long as there is
one, so a node loses the first of these entries, as many as it has subscriptions and entries for,
and the other ones stay as they stood. A node may lose its last entry to any one of its
subscriptions; those that are ready stand in the order of the subscriptions that did that.
Afterwards there is nothing left that could be used up, and to be told again changes nothing.
-/

namespace Choreo

namespace Waiting

/-- How many of these entries a node loses: one for each of its subscriptions, as long as there are
some. -/
def due (waiting : Waiting) (event : Dependency) (node : Nat) : Nat :=
  min ((waiting.subscribers event).count node) ((waiting.pendingOf node).count event)

/-- How many entries are pending at all nodes together. -/
def load (waiting : Waiting) : Nat := total (waiting.pending.map List.length)

/-- The one of these nodes at this place loses its last entry when it is told after those before
it. -/
def LosesLast (event : Dependency) (nodes : List Nat) (waiting : Waiting)
    (place node : Nat) : Prop :=
  nodes[place]? = some node ∧ strip event ((nodes.take place).count node)
    (waiting.pendingOf node) = [event]

section Strip

variable (event : Dependency) (times : Nat) (entries : List Dependency)

theorem strip_min : strip event (min times (entries.count event)) entries =
    strip event times entries := by
  induction times generalizing entries with
  | zero => rw [Nat.zero_min]
  | succ times ih =>
    by_cases present : event ∈ entries
    · have some := List.count_pos_iff.2 present
      have fewer : min (times + 1) (entries.count event) =
          min times ((entries.erase event).count event) + 1 := by
        rw [List.count_erase_self]
        omega
      rw [fewer, strip_succ, ih, strip_succ]
    · rw [strip_of_not_mem _ present, strip_of_not_mem _ present]

variable {event times entries} in
theorem length_strip (enough : times ≤ entries.count event) :
    (strip event times entries).length + times = entries.length := by
  induction times generalizing entries with
  | zero => rfl
  | succ times ih =>
    have present : event ∈ entries :=
      List.count_pos_iff.1 (Nat.lt_of_lt_of_le (Nat.succ_pos _) enough)
    have some := List.length_pos_of_mem present
    have fewer : times ≤ (entries.erase event).count event := by
      rw [List.count_erase_self]
      omega
    have rest := ih fewer
    rw [List.length_erase_of_mem present] at rest
    rw [strip_succ]
    omega

end Strip

section Told

variable {event : Dependency}

theorem losesLast_cons {first : Nat} {nodes : List Nat} {waiting next : Waiting} {place node : Nat}
    (same : strip event ((nodes.take place).count node) (next.pendingOf node) =
      strip event ((first :: nodes.take place).count node) (waiting.pendingOf node))
    (last : LosesLast event nodes next place node) :
    LosesLast event (first :: nodes) waiting (place + 1) node := by
  refine ⟨by simpa using last.1, ?_⟩
  rw [List.take_succ_cons, ← same]
  exact last.2

theorem release_places (nodes : List Nat) (waiting : Waiting) :
    ∃ places : List Nat, places.Pairwise (· < ·) ∧
      List.Forall₂ (LosesLast event nodes waiting) places (release event nodes waiting).1 := by
  induction nodes generalizing waiting with
  | nil => exact ⟨[], .nil, .nil⟩
  | cons first nodes ih =>
    -- the places of the other nodes come one after where they were
    have later : ∀ next : Waiting, (∀ place node, strip event ((nodes.take place).count node)
          (next.pendingOf node) = strip event ((first :: nodes.take place).count node)
            (waiting.pendingOf node)) →
        ∃ places : List Nat, (places.map (· + 1)).Pairwise (· < ·) ∧
          List.Forall₂ (LosesLast event (first :: nodes) waiting) (places.map (· + 1))
            (release event nodes next).1 := by
      intro next same
      obtain ⟨places, ascending, all⟩ := ih next
      refine ⟨places, List.pairwise_map.2 (ascending.imp Nat.succ_lt_succ), ?_⟩
      rw [List.forall₂_map_left_iff]
      exact all.imp fun place node => losesLast_cons (same place node)
    rw [release]
    by_cases present : event ∈ waiting.pendingOf first
    · obtain ⟨places, ascending, all⟩ := later (waiting.consume event first) fun place node => by
        rw [pendingOf_consume]
        exact strip_count_cons event first (nodes.take place) waiting.pendingOf node
      rw [if_pos present]
      dsimp only
      split
      · next last =>
        rw [Bool.and_eq_true, List.isEmpty_iff, pendingOf_consume, if_pos rfl] at last
        have only := List.perm_cons_erase present
        rw [last.2] at only
        refine ⟨0 :: places.map (· + 1), List.pairwise_cons.2 ⟨fun place member => ?_, ascending⟩,
          .cons ⟨rfl, only.eq_singleton⟩ all⟩
        obtain ⟨earlier, -, rfl⟩ := List.mem_map.1 member
        exact Nat.succ_pos earlier
      · exact ⟨_, ascending, all⟩
    · obtain ⟨places, ascending, all⟩ := later waiting fun place node =>
        strip_count_cons_of_not_mem (nodes.take place) present node
      rw [if_neg present]
      exact ⟨_, ascending, all⟩

theorem total_modify_erase {lists : List (List Dependency)} {node : Nat}
    (present : event ∈ lists[node]?.getD []) :
    total ((lists.modify node (·.erase event)).map List.length) + 1 =
      total (lists.map List.length) := by
  induction lists generalizing node with
  | nil => simp at present
  | cons entries lists ih =>
    cases node with
    | zero =>
      have here : event ∈ entries := by simpa using present
      have some := List.length_pos_of_mem here
      simp only [List.modify_zero_cons, List.map_cons, total, List.length_erase_of_mem here]
      omega
    | succ node =>
      have there : event ∈ lists[node]?.getD [] := by simpa using present
      have rest := ih there
      simp only [List.modify_succ_cons, List.map_cons, total]
      omega

theorem load_block (node : Nat) (waiting : Waiting) : (waiting.block node).load = waiting.load := by
  rw [block]
  split <;> rfl

variable (event) in
theorem load_forsake (nodes : List Nat) (waiting : Waiting) :
    (forsake event nodes waiting).1 + (forsake event nodes waiting).2.load = waiting.load := by
  induction nodes generalizing waiting with
  | nil => rw [forsake, Nat.zero_add]
  | cons node nodes ih =>
    rw [forsake]
    split
    · next present =>
      have one : (waiting.consume event node).load + 1 = waiting.load := total_modify_erase present
      have rest := ih ((waiting.consume event node).block node)
      rw [load_block] at rest
      dsimp only
      omega
    · exact ih waiting

end Told

/-! ### What is known after it -/

section Again

variable {event : Dependency} {waiting : Waiting}

theorem listeners_congr {other : Waiting} (same : waiting.subscriptions = other.subscriptions) :
    waiting.listeners = other.listeners := by
  rw [listeners, listeners, same]

theorem subscribers_eq_nil_iff : waiting.subscribers event = [] ↔
    waiting.listeners event = Option.none := by
  rw [listeners_eq]
  split <;> simp_all

end Again

/-- What is left of a table, and who is ready, when something has happened that nodes wait for. -/
structure Satisfied (event : Dependency) (waiting : Waiting)
    (done : List Nat × Waiting) : Prop where
  listeners : done.2.listeners = Function.update waiting.listeners event Option.none
  pending : ∀ node, done.2.pendingOf node =
    strip event (waiting.due event node) (waiting.pendingOf node)
  lost : ∀ node, (done.2.pendingOf node).length + waiting.due event node =
    (waiting.pendingOf node).length
  size : done.2.pending.length = waiting.pending.length
  blocked : done.2.blocked = waiting.blocked
  distinct : done.1.Nodup
  ready : ∀ node, node ∈ done.1 ↔ waiting.isBlocked node = false ∧ waiting.pendingOf node ≠ [] ∧
    done.2.pendingOf node = []
  order : ∃ places : List Nat, places.Pairwise (· < ·) ∧
    List.Forall₂ (LosesLast event (waiting.subscribers event) waiting) places done.1

/-- What is left of a table, and how many entries are lost, when a prerequisite will neither start
nor end. -/
structure Abandoned (prerequisite : Nat) (waiting : Waiting) (done : Nat × Waiting) : Prop where
  listeners : done.2.listeners = fun event =>
    if event.node = prerequisite then Option.none else waiting.listeners event
  pending : ∀ node, done.2.pendingOf node =
    strip ⟨prerequisite, .onEnd⟩ (waiting.due ⟨prerequisite, .onEnd⟩ node)
      (strip ⟨prerequisite, .onStart⟩ (waiting.due ⟨prerequisite, .onStart⟩ node)
        (waiting.pendingOf node))
  lost : ∀ node, (done.2.pendingOf node).length +
    (waiting.due ⟨prerequisite, .onStart⟩ node + waiting.due ⟨prerequisite, .onEnd⟩ node) =
      (waiting.pendingOf node).length
  size : done.2.pending.length = waiting.pending.length
  blocked : ∀ node, done.2.isBlocked node = true ↔ waiting.isBlocked node = true ∨
    (done.2.pendingOf node).length < (waiting.pendingOf node).length
  number : done.1 + done.2.load = waiting.load

theorem satisfied_satisfy (event : Dependency) (waiting : Waiting) :
    Satisfied event waiting (waiting.satisfy event) := by
  obtain ⟨pending, size, blocked, distinct, ready⟩ :=
    release_spec event (waiting.subscribers event) (waiting.detach event)
  have left : ∀ node, (waiting.satisfy event).2.pendingOf node =
      strip event (waiting.due event node) (waiting.pendingOf node) := fun node =>
    (pending node).trans (strip_min ..).symm
  refine ⟨?_, left, fun node => ?_, size, blocked, distinct, ready,
    release_places _ (waiting.detach event)⟩
  · rw [← listeners_detach]
    exact listeners_congr (subscriptions_release ..)
  · rw [left]
    exact length_strip (Nat.min_le_right ..)

theorem listeners_abandon (prerequisite : Nat) (waiting : Waiting) :
    (waiting.abandon prerequisite).2.listeners = fun event =>
      if event.node = prerequisite then Option.none else waiting.listeners event := by
  have starts : ∀ nodes, (forsake ⟨prerequisite, .onStart⟩ nodes
      (waiting.detach ⟨prerequisite, .onStart⟩)).2.listeners =
        Function.update waiting.listeners ⟨prerequisite, .onStart⟩ Option.none := fun nodes =>
    (listeners_congr (subscriptions_forsake ..)).trans (listeners_detach ..)
  rw [abandon]
  dsimp only
  rw [listeners_congr (subscriptions_forsake ..), listeners_detach, starts]
  funext event
  obtain ⟨node, rule⟩ := event
  by_cases here : node = prerequisite <;> cases rule <;> simp [here]

theorem load_abandon (prerequisite : Nat) (waiting : Waiting) :
    (waiting.abandon prerequisite).1 + (waiting.abandon prerequisite).2.load = waiting.load := by
  have starts : _ + _ = waiting.load := load_forsake ⟨prerequisite, .onStart⟩
    (waiting.subscribers ⟨prerequisite, .onStart⟩) (waiting.detach ⟨prerequisite, .onStart⟩)
  rw [abandon]
  dsimp only
  generalize forsake _ _ (waiting.detach _) = lost at starts ⊢
  have ends : _ + _ = lost.2.load := load_forsake ⟨prerequisite, .onEnd⟩
    (lost.2.subscribers ⟨prerequisite, .onEnd⟩) (lost.2.detach ⟨prerequisite, .onEnd⟩)
  omega

theorem abandoned_abandon (prerequisite : Nat) (waiting : Waiting) :
    Abandoned prerequisite waiting (waiting.abandon prerequisite) := by
  let first : Dependency := ⟨prerequisite, .onStart⟩
  let second : Dependency := ⟨prerequisite, .onEnd⟩
  have noted := noted_abandon prerequisite waiting
  -- the entries for the start that are taken off first are no entries for the end
  have others : ∀ node times, (strip first times (waiting.pendingOf node)).count second =
      (waiting.pendingOf node).count second := fun node times =>
    count_strip_of_ne times _ (by simp [first, second])
  have left : ∀ node, (waiting.abandon prerequisite).2.pendingOf node =
      strip second (waiting.due second node)
      (strip first (waiting.due first node) (waiting.pendingOf node)) := by
    intro node
    rw [due, due, strip_min, count_subscribers, count_subscribers,
      ← others node (waiting.subscriptions.count ⟨first, node⟩), strip_min]
    exact noted.pendingOf node
  refine ⟨listeners_abandon .., left, fun node => ?_, noted.size, fun node => ?_, load_abandon ..⟩
  · have one : (strip first (waiting.due first node) (waiting.pendingOf node)).length +
        waiting.due first node = (waiting.pendingOf node).length :=
          length_strip (Nat.min_le_right ..)
    have two : (strip second (waiting.due second node)
        (strip first (waiting.due first node) (waiting.pendingOf node))).length +
          waiting.due second node =
          (strip first (waiting.due first node) (waiting.pendingOf node)).length :=
      length_strip ((Nat.min_le_right ..).trans_eq (others node _).symm)
    rw [left]
    change _ + (waiting.due first node + waiting.due second node) = _
    omega
  · have part := waiting.drop_sublist (Lifecycle.canceled.settles prerequisite) node
      (waiting.pendingOf node)
    rw [← noted.pendingOf] at part
    rw [noted.blocked, part.length_le.lt_iff_ne, ne_eq, ne_eq, part.length_eq]
    simp only [true_and]

/-- Whatever the table: what has happened uses up the subscriptions to it, takes the entries off
that these stand for and are there, and tells which nodes are ready by it and in which order; what
will not happen uses up and takes off in the same way, blocks the nodes that lose an entry, and
counts them. Either changes nothing when it comes again. -/
theorem used_up (waiting : Waiting) :
    (∀ event, let done := waiting.satisfy event
      Satisfied event waiting done ∧ done.2.satisfy event = ([], done.2)) ∧
    ∀ prerequisite, let done := waiting.abandon prerequisite
      Abandoned prerequisite waiting done ∧ done.2.abandon prerequisite = (0, done.2) := by
  constructor
  · intro event done
    have satisfied : Satisfied event waiting done := satisfied_satisfy event waiting
    refine ⟨satisfied, satisfy_of_unawaited (subscribers_eq_nil_iff.2 ?_)⟩
    rw [satisfied.listeners, Function.update_self]
  · intro prerequisite done
    have abandoned : Abandoned prerequisite waiting done := abandoned_abandon prerequisite waiting
    refine ⟨abandoned, abandon_of_unawaited fun rule => subscribers_eq_nil_iff.2 ?_⟩
    rw [abandoned.listeners]
    exact if_pos rfl

/-- A node that was told first may be ready last: here the first one has to be told twice. -/
example : (satisfy ⟨0, .onEnd⟩ ⟨[[], [⟨0, .onEnd⟩, ⟨0, .onEnd⟩], [⟨0, .onEnd⟩]],
    [⟨⟨0, .onEnd⟩, 1⟩, ⟨⟨0, .onEnd⟩, 2⟩, ⟨⟨0, .onEnd⟩, 1⟩, ⟨⟨0, .onEnd⟩, 1⟩],
    []⟩).1 = [2, 1] := by decide

end Waiting

end Choreo
