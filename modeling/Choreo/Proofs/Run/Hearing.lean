import Mathlib.Data.List.Perm.Basic
import Mathlib.Logic.Function.Iterate
import Choreo.Proofs.Run.Release

/-!
# What an event does to any table

Whatever the pending lists, the subscriptions and the blocked nodes are, an event takes off the
pending list of each node one entry for each subscription to what it settles, as long as there is
one, and uses these subscriptions up. A node that loses its last entry is ready unless it is
blocked, and a node that loses an entry to a cancellation is blocked. So two events of different
nodes never take the same entry, and it does not matter which of them comes first: the same is left,
the same nodes are blocked, and the same nodes are ready after both.
-/

namespace Choreo

/-- The dependencies on a node that an event of it settles, for good or for ill. -/
def Lifecycle.settles (node : Nat) : Lifecycle → List Dependency
  | .started => [⟨node, .onStart⟩]
  | .ended => [⟨node, .onEnd⟩]
  | .canceled => [⟨node, .onStart⟩, ⟨node, .onEnd⟩]
  | .repeated => []

theorem Lifecycle.node_of_mem_settles {event : Lifecycle} {node : Nat} {d : Dependency}
    (h : d ∈ event.settles node) : d.node = node := by
  cases event with
  | started => exact congrArg Dependency.node (List.mem_singleton.1 h)
  | ended => exact congrArg Dependency.node (List.mem_singleton.1 h)
  | canceled =>
    rcases List.mem_pair.1 h with rfl | rfl <;> rfl
  | repeated => cases h

namespace Waiting

/-- The entries without the first `times` of those that are this one. -/
def strip (event : Dependency) (times : Nat) (entries : List Dependency) : List Dependency :=
  (fun rest => rest.erase event)^[times] entries

section Strip

variable (event other : Dependency) (times more : Nat) (entries : List Dependency)

theorem strip_succ : strip event (times + 1) entries = strip event times (entries.erase event) :=
  Function.iterate_succ_apply _ _ _

theorem strip_sublist : (strip event times entries).Sublist entries := by
  induction times generalizing entries with
  | zero => exact .refl _
  | succ times ih =>
    rw [strip_succ]
    exact (ih _).trans List.erase_sublist

theorem strip_comm : strip event times (strip other more entries) =
    strip other more (strip event times entries) := by
  have commute : Function.Commute (fun rest : List Dependency => rest.erase event)
      (fun rest => rest.erase other) := fun rest => List.erase_comm ..
  exact (commute.iterate_iterate times more).eq entries

variable {event entries} in
theorem strip_of_not_mem (h : event ∉ entries) : strip event times entries = entries := by
  induction times with
  | zero => rfl
  | succ times ih => rw [strip_succ, List.erase_of_not_mem h, ih]

variable {event other} in
theorem mem_strip_of_ne (h : other ≠ event) :
    other ∈ strip event times entries ↔ other ∈ entries := by
  induction times generalizing entries with
  | zero => rfl
  | succ times ih => rw [strip_succ, ih, List.mem_erase_of_ne h]

variable {event other} in
theorem count_strip_of_ne (h : other ≠ event) :
    (strip event times entries).count other = entries.count other := by
  induction times generalizing entries with
  | zero => rfl
  | succ times ih => rw [strip_succ, ih, List.count_erase_of_ne h]

theorem strip_eq_self_iff : strip event times entries = entries ↔ times = 0 ∨ event ∉ entries := by
  constructor
  · intro same
    cases times with
    | zero => exact .inl rfl
    | succ times =>
      refine .inr fun present => ?_
      have shorter := (strip_sublist event times (entries.erase event)).length_le
      have pos := List.length_pos_of_mem present
      rw [← strip_succ, same, List.length_erase_of_mem present] at shorter
      omega
  · rintro (rfl | absent)
    · rfl
    · exact strip_of_not_mem times absent

/-- An entry is taken off where the first node of a list is, and then one for each of the others. -/
theorem strip_count_cons (first : Nat) (nodes : List Nat) (entries : Nat → List Dependency)
    (node : Nat) :
    strip event (nodes.count node)
      (if node = first then (entries first).erase event else entries node) =
      strip event ((first :: nodes).count node) (entries node) := by
  by_cases here : node = first
  · subst here
    rw [if_pos rfl, List.count_cons_self, strip_succ]
  · rw [if_neg here, List.count_cons_of_ne (Ne.symm here)]

variable {event} in
theorem strip_count_cons_of_not_mem {first : Nat} (nodes : List Nat)
    {entries : Nat → List Dependency} (h : event ∉ entries first) (node : Nat) :
    strip event (nodes.count node) (entries node) =
      strip event ((first :: nodes).count node) (entries node) := by
  by_cases here : node = first
  · subst here
    rw [strip_of_not_mem _ h, strip_of_not_mem _ h]
  · rw [List.count_cons_of_ne (Ne.symm here)]

end Strip

/-! ### One event at a time -/

/-- Hearing of an event takes an entry off a pending list for each time that its node is in the
list; a node that is not blocked is ready if that leaves it none. -/
theorem release_spec (event : Dependency) (nodes : List Nat) (waiting : Waiting) :
    let done := release event nodes waiting
    (∀ node, done.2.pendingOf node = strip event (nodes.count node) (waiting.pendingOf node)) ∧
    done.2.pending.length = waiting.pending.length ∧ done.2.blocked = waiting.blocked ∧
      done.1.Nodup ∧
    ∀ node, node ∈ done.1 ↔ waiting.isBlocked node = false ∧ waiting.pendingOf node ≠ [] ∧
      done.2.pendingOf node = [] := by
  induction nodes generalizing waiting with
  | nil =>
    refine ⟨fun node => rfl, rfl, rfl, .nil, fun node => ?_⟩
    simp only [release, List.not_mem_nil, false_iff]
    rintro ⟨-, held, gone⟩
    exact held gone
  | cons first nodes ih =>
    intro done
    by_cases present : event ∈ waiting.pendingOf first
    · let next := waiting.consume event first
      obtain ⟨pending, size, blocked, distinct, ready⟩ := ih next
      have after : ∀ node, next.pendingOf node =
          if node = first then (waiting.pendingOf first).erase event else waiting.pendingOf node :=
        fun node => pendingOf_consume event first node waiting
      have reply : done = (if !next.isBlocked first && (next.pendingOf first).isEmpty then
          first :: (release event nodes next).1 else (release event nodes next).1,
          (release event nodes next).2) := by
        simp only [done, release, present, ↓reduceIte]
        rfl
      have unblocked : ∀ node, next.isBlocked node = waiting.isBlocked node := fun _ => rfl
      have some : waiting.pendingOf first ≠ [] := List.ne_nil_of_mem present
      rw [reply]
      refine ⟨fun node => ?_, size.trans (by simp [next, consume]), blocked, ?_, fun node => ?_⟩
      · rw [pending, after, strip_count_cons event first nodes waiting.pendingOf node]
      · split
        · rename_i last
          refine List.nodup_cons.2 ⟨fun again => ?_, distinct⟩
          rw [Bool.and_eq_true, List.isEmpty_iff] at last
          exact ((ready first).1 again).2.1 last.2
        · exact distinct
      · have rest := ready node
        rw [unblocked, after] at rest
        by_cases here : node = first
        · subst here
          rw [if_pos rfl] at rest
          by_cases last : (waiting.pendingOf node).erase event = []
          · have none : (release event nodes next).2.pendingOf node = [] := by
              rw [pending, after, if_pos rfl, last]
              exact strip_of_not_mem _ (by simp)
            simp only [unblocked, after, ↓reduceIte, last, List.isEmpty_nil, Bool.and_true, none,
              some, ne_eq, not_false_eq_true, and_self, and_true]
            cases waiting.isBlocked node <;> simp [rest, last]
          · simp only [unblocked, after, ↓reduceIte, List.isEmpty_eq_false_iff.2 last,
              Bool.and_false, Bool.false_eq_true, rest, last, some, ne_eq, not_false_eq_true,
              true_and]
        · rw [if_neg here] at rest
          split <;> simp [rest, here]
    · obtain ⟨pending, size, blocked, distinct, ready⟩ := ih waiting
      have reply : done = release event nodes waiting := by
        simp only [done, release, present, ↓reduceIte]
      rw [reply]
      refine ⟨fun node => ?_, size, blocked, distinct, ready⟩
      rw [pending, strip_count_cons_of_not_mem nodes present]

theorem forsake_spec (event : Dependency) (nodes : List Nat) (waiting : Waiting) :
    let done := forsake event nodes waiting
    (∀ node, done.2.pendingOf node = strip event (nodes.count node) (waiting.pendingOf node)) ∧
    done.2.pending.length = waiting.pending.length ∧
    ∀ node, done.2.isBlocked node = true ↔
      waiting.isBlocked node = true ∨ node ∈ nodes ∧ event ∈ waiting.pendingOf node := by
  induction nodes generalizing waiting with
  | nil => exact ⟨fun node => rfl, rfl, fun node => by simp [forsake]⟩
  | cons first nodes ih =>
    intro done
    by_cases present : event ∈ waiting.pendingOf first
    · let next := (waiting.consume event first).block first
      obtain ⟨pending, size, blocked⟩ := ih next
      have after : ∀ node, next.pendingOf node =
          if node = first then (waiting.pendingOf first).erase event else waiting.pendingOf node :=
        fun node => (pendingOf_block first node _).trans
          (pendingOf_consume event first node waiting)
      have same : next.pending.length = waiting.pending.length := by
        simp only [next, block]
        split <;> simp [consume]
      have reply : done.2 = (forsake event nodes next).2 := by
        simp only [done, forsake, present, ↓reduceIte]
        rfl
      rw [reply]
      refine ⟨fun node => ?_, size.trans same, fun node => ?_⟩
      · rw [pending, after, strip_count_cons event first nodes waiting.pendingOf node]
      · have now : next.isBlocked node = true ↔ waiting.isBlocked node = true ∨ node = first :=
          isBlocked_block first node _
        rw [blocked, now, after]
        by_cases here : node = first
        · subst here
          simp [present]
        · simp [here]
    · obtain ⟨pending, size, blocked⟩ := ih waiting
      have reply : done = forsake event nodes waiting := by
        simp only [done, forsake, present, ↓reduceIte]
      rw [reply]
      refine ⟨fun node => ?_, size, fun node => ?_⟩
      · rw [pending, strip_count_cons_of_not_mem nodes present]
      · rw [blocked]
        by_cases here : node = first
        · subst here
          simp [present]
        · simp [here]

theorem count_subscribers (event : Dependency) (waiting : Waiting) (node : Nat) :
    (waiting.subscribers event).count node = waiting.subscriptions.count ⟨event, node⟩ := by
  simp only [subscribers, List.count_eq_countP, List.countP_map, List.countP_filter]
  apply List.countP_congr
  intro subscription _
  obtain ⟨awaited, dependent⟩ := subscription
  simp [and_comm]

/-- These entries of a node when all that is settled is taken off, once for each subscription to
it. -/
def drop (waiting : Waiting) (settled : List Dependency) (node : Nat) (entries : List Dependency) :
    List Dependency :=
  settled.foldl (fun rest event => strip event (waiting.subscriptions.count ⟨event, node⟩) rest)
    entries

section Drop

variable (waiting : Waiting) (settled : List Dependency) (node : Nat) (entries : List Dependency)

theorem drop_cons (event : Dependency) : waiting.drop (event :: settled) node entries =
    waiting.drop settled node (strip event (waiting.subscriptions.count ⟨event, node⟩) entries) :=
  rfl

theorem drop_sublist : (waiting.drop settled node entries).Sublist entries := by
  induction settled generalizing entries with
  | nil => exact .refl _
  | cons event settled ih => exact (ih _).trans (strip_sublist ..)

theorem drop_nil : waiting.drop settled node [] = [] :=
  List.sublist_nil.1 (waiting.drop_sublist settled node [])

theorem drop_strip (event : Dependency) (times : Nat) :
    waiting.drop settled node (strip event times entries) =
      strip event times (waiting.drop settled node entries) := by
  induction settled generalizing entries with
  | nil => rfl
  | cons other settled ih => rw [drop_cons, drop_cons, strip_comm, ih]

theorem drop_comm (others : List Dependency) :
    waiting.drop settled node (waiting.drop others node entries) =
    waiting.drop others node (waiting.drop settled node entries) := by
  induction others generalizing entries with
  | nil => rfl
  | cons event others ih => rw [drop_cons, drop_cons, ih, drop_strip]

variable {settled} in
theorem mem_drop_of_not_mem {event : Dependency} (h : event ∉ settled) :
    event ∈ waiting.drop settled node entries ↔ event ∈ entries := by
  induction settled generalizing entries with
  | nil => rfl
  | cons other settled ih =>
    obtain ⟨differs, absent⟩ := not_or.1 (mt List.mem_cons.2 h)
    rw [drop_cons, ih _ absent, mem_strip_of_ne _ _ differs]

variable {settled} in
theorem count_drop_of_not_mem {event : Dependency} (h : event ∉ settled) :
    (waiting.drop settled node entries).count event = entries.count event := by
  induction settled generalizing entries with
  | nil => rfl
  | cons other settled ih =>
    obtain ⟨differs, absent⟩ := not_or.1 (mt List.mem_cons.2 h)
    rw [drop_cons, ih _ absent, count_strip_of_ne _ _ differs]

/-- Nothing is taken off if nobody subscribed to what is settled or it is not pending. -/
theorem drop_eq_self_iff : waiting.drop settled node entries = entries ↔
    ∀ event ∈ settled, waiting.subscriptions.count ⟨event, node⟩ = 0 ∨ event ∉ entries := by
  induction settled with
  | nil => simp [drop]
  | cons event settled ih =>
    rw [drop_cons, List.forall_mem_cons, ← ih, ← strip_eq_self_iff event _ entries]
    constructor
    · intro same
      have less := strip_sublist event (waiting.subscriptions.count ⟨event, node⟩) entries
      have still : strip event (waiting.subscriptions.count ⟨event, node⟩) entries = entries := by
        refine less.antisymm ?_
        have rest := waiting.drop_sublist settled node
          (strip event (waiting.subscriptions.count ⟨event, node⟩) entries)
        rwa [same] at rest
      refine ⟨still, ?_⟩
      rwa [still] at same
    · rintro ⟨still, rest⟩
      rw [still, rest]

end Drop

/-- What hearing of an event of a node leaves of a table, and which nodes are ready by it. -/
structure Noted (event : Lifecycle) (node : Nat) (waiting : Waiting)
    (heard : List Nat × Waiting) : Prop where
  pendingOf : ∀ other, heard.2.pendingOf other =
    waiting.drop (event.settles node) other (waiting.pendingOf other)
  size : heard.2.pending.length = waiting.pending.length
  subscriptions : heard.2.subscriptions =
    waiting.subscriptions.filter fun subscription => subscription.event ∉ event.settles node
  blocked : ∀ other, heard.2.isBlocked other = true ↔ waiting.isBlocked other = true ∨
    event = .canceled ∧ heard.2.pendingOf other ≠ waiting.pendingOf other
  distinct : heard.1.Nodup
  ready : ∀ other, other ∈ heard.1 ↔ event ≠ .canceled ∧ waiting.isBlocked other = false ∧
    waiting.pendingOf other ≠ [] ∧ heard.2.pendingOf other = []

theorem noted_satisfy (awaited : Dependency) (event : Lifecycle) (node : Nat) (waiting : Waiting)
    (going : event ≠ .canceled) (settles : event.settles node = [awaited]) :
    Noted event node waiting (waiting.satisfy awaited) := by
  obtain ⟨pending, size, blocked, distinct, ready⟩ :=
    release_spec awaited (waiting.subscribers awaited) (waiting.detach awaited)
  refine ⟨fun other => ?_, size, ?_, fun other => ?_, distinct, fun other => ?_⟩
  · rw [settles]
    exact (pending other).trans
      (congrArg (strip awaited · _) (count_subscribers awaited waiting other))
  · rw [satisfy, subscriptions_release, settles]
    apply List.filter_congr
    intro subscription _
    by_cases same : subscription.event = awaited <;> simp [same]
  · have same : (waiting.satisfy awaited).2.isBlocked other = waiting.isBlocked other :=
      congrArg (fun nodes : List Nat => nodes.contains other) blocked
    simp [same, going]
  · exact (ready other).trans (by simp only [going, ne_eq, not_false_eq_true, true_and]; rfl)

theorem noted_abandon (node : Nat) (waiting : Waiting) :
    Noted .canceled node waiting ([], (waiting.abandon node).2) := by
  let first : Dependency := ⟨node, .onStart⟩
  let second : Dependency := ⟨node, .onEnd⟩
  let starts := (forsake first (waiting.subscribers first) (waiting.detach first)).2
  have apart : second ≠ first := by simp [first, second]
  obtain ⟨pending, size, blocked⟩ :=
    forsake_spec first (waiting.subscribers first) (waiting.detach first)
  obtain ⟨pending', size', blocked'⟩ :=
    forsake_spec second (starts.subscribers second) (starts.detach second)
  have subscriptions : starts.subscriptions =
      waiting.subscriptions.filter fun s => !(s.event == first) :=
    subscriptions_forsake ..
  have counts : ∀ other, (starts.subscribers second).count other =
      waiting.subscriptions.count ⟨second, other⟩ := by
    intro other
    rw [count_subscribers, subscriptions, List.count_filter]
    simpa using apart
  have between : ∀ other, starts.pendingOf other =
      strip first (waiting.subscriptions.count ⟨first, other⟩)
        (waiting.pendingOf other) := fun other =>
    (pending other).trans (congrArg (strip first · _) (count_subscribers first waiting other))
  have left : ∀ other, (waiting.abandon node).2.pendingOf other =
      waiting.drop (Lifecycle.canceled.settles node) other (waiting.pendingOf other) := by
    intro other
    refine (pending' other).trans ?_
    rw [counts]
    exact congrArg (strip second _) (between other)
  refine ⟨left, size'.trans size, ?_, fun other => ?_, .nil, fun other => by simp⟩
  · have after : (waiting.abandon node).2.subscriptions =
        starts.subscriptions.filter fun s => !(s.event == second) := subscriptions_forsake ..
    rw [after, subscriptions, List.filter_filter]
    apply List.filter_congr
    intro subscription _
    by_cases same : subscription.event = first <;> by_cases same' : subscription.event = second <;>
      simp [Lifecycle.settles, same, same', first, second]
  · have subscribed : ∀ event, other ∈ waiting.subscribers event ↔
        waiting.subscriptions.count ⟨event, other⟩ ≠ 0 := by
      intro event
      rw [← count_subscribers, ne_eq, List.count_eq_zero, not_not]
    have subscribed' : other ∈ starts.subscribers second ↔
        waiting.subscriptions.count ⟨second, other⟩ ≠ 0 := by
      rw [← counts, ne_eq, List.count_eq_zero, not_not]
    have lost : second ∈ starts.pendingOf other ↔ second ∈ waiting.pendingOf other := by
      rw [between]
      exact mem_strip_of_ne _ _ apart
    have first' : starts.isBlocked other = true ↔ waiting.isBlocked other = true ∨
        other ∈ waiting.subscribers first ∧ first ∈ waiting.pendingOf other := blocked other
    have second' : (waiting.abandon node).2.isBlocked other = true ↔ starts.isBlocked other = true ∨
        other ∈ starts.subscribers second ∧ second ∈ starts.pendingOf other := blocked' other
    have changed : (waiting.abandon node).2.pendingOf other ≠ waiting.pendingOf other ↔
        waiting.subscriptions.count ⟨first, other⟩ ≠ 0 ∧ first ∈ waiting.pendingOf other ∨
        waiting.subscriptions.count ⟨second, other⟩ ≠ 0 ∧ second ∈ waiting.pendingOf other := by
      rw [left, Ne, drop_eq_self_iff, Lifecycle.settles, List.forall_mem_cons,
        List.forall_mem_singleton, not_and_or, not_or, not_or, not_not, not_not]
    rw [second', first', subscribed, subscribed', lost, changed, or_assoc]
    simp only [true_and]

/-- Hearing of an event, whatever the table. -/
theorem noted_hear (event : Lifecycle) (node : Nat) (waiting : Waiting) :
    Noted event node waiting (waiting.hear event node) := by
  cases event with
  | started => exact noted_satisfy _ _ _ _ (by simp) rfl
  | ended => exact noted_satisfy _ _ _ _ (by simp) rfl
  | canceled => exact noted_abandon node waiting
  | repeated =>
    refine ⟨fun _ => rfl, rfl, ?_, by simp [hear], .nil, fun other => ?_⟩
    · simp [hear, Lifecycle.settles]
    · simp only [hear, List.not_mem_nil, false_iff]
      rintro ⟨-, -, held, gone⟩
      exact held gone

section Unawaited

variable {event : Dependency} {waiting : Waiting}

theorem detach_of_unawaited (none : waiting.subscribers event = []) :
    waiting.detach event = waiting := by
  have same : waiting.subscriptions.filter (fun s => !(s.event == event)) =
      waiting.subscriptions := by
    refine List.filter_eq_self.2 fun subscription member => ?_
    have other := List.filter_eq_nil_iff.1 (List.map_eq_nil_iff.1 none) subscription member
    simpa using other
  rw [detach, same]

theorem satisfy_of_unawaited (none : waiting.subscribers event = []) :
    waiting.satisfy event = ([], waiting) := by
  rw [satisfy, none, detach_of_unawaited none, release]

theorem abandon_of_unawaited {prerequisite : Nat}
    (none : ∀ rule, waiting.subscribers ⟨prerequisite, rule⟩ = []) :
    waiting.abandon prerequisite = (0, waiting) := by
  simp only [abandon, none .onStart, detach_of_unawaited (none .onStart), forsake, none .onEnd,
    detach_of_unawaited (none .onEnd)]

end Unawaited

/-- An event that settles nothing to which anybody subscribed is not heard. -/
theorem hear_of_unsettled {event : Lifecycle} {node : Nat} {waiting : Waiting}
    (unsettled : ∀ subscription ∈ waiting.subscriptions, subscription.event ∉ event.settles node) :
    waiting.hear event node = ([], waiting) := by
  have none : ∀ d ∈ event.settles node, waiting.subscribers d = [] := by
    intro d settled
    refine List.map_eq_nil_iff.2 (List.filter_eq_nil_iff.2 fun subscription member same => ?_)
    exact unsettled subscription member (eq_of_beq same ▸ settled)
  cases event with
  | started => exact satisfy_of_unawaited (none _ (List.mem_singleton_self _))
  | ended => exact satisfy_of_unawaited (none _ (List.mem_singleton_self _))
  | canceled =>
    have unawaited : ∀ rule, waiting.subscribers ⟨node, rule⟩ = [] := by
      intro rule
      cases rule <;> exact none _ (by simp [Lifecycle.settles])
    rw [hear, abandon_of_unawaited unawaited]
  | repeated => rfl

/-- An event of a node on which nobody waits is not heard. -/
theorem hear_of_unheard {event : Lifecycle} {node : Nat} {waiting : Waiting}
    (unheard : ∀ subscription ∈ waiting.subscriptions, subscription.event.node ≠ node) :
    waiting.hear event node = ([], waiting) :=
  hear_of_unsettled fun subscription member settled =>
    unheard subscription member (Lifecycle.node_of_mem_settles settled)

/-- The same is pending, subscribed to and blocked. -/
structure Agrees (waiting other : Waiting) : Prop where
  pending : waiting.pending = other.pending
  subscriptions : waiting.subscriptions = other.subscriptions
  blocked : ∀ node, waiting.isBlocked node = other.isBlocked node

theorem Agrees.refl (waiting : Waiting) : waiting.Agrees waiting := ⟨rfl, rfl, fun _ => rfl⟩

theorem Agrees.symm {waiting other : Waiting} (h : waiting.Agrees other) : other.Agrees waiting :=
  ⟨h.pending.symm, h.subscriptions.symm, fun node => (h.blocked node).symm⟩

theorem Agrees.trans {waiting other third : Waiting} (h : waiting.Agrees other)
    (h' : other.Agrees third) :
    waiting.Agrees third :=
  ⟨h.pending.trans h'.pending, h.subscriptions.trans h'.subscriptions,
    fun node => (h.blocked node).trans (h'.blocked node)⟩

/-- What is heard does not depend on the order in which nodes were blocked. -/
theorem Agrees.hear {waiting other : Waiting} (agrees : waiting.Agrees other) (event : Lifecycle)
    (node : Nat) : (waiting.hear event node).2.Agrees (other.hear event node).2 ∧
      (waiting.hear event node).1.Perm (other.hear event node).1 := by
  have noted := noted_hear event node waiting
  have noted' := noted_hear event node other
  have before : ∀ place, waiting.pendingOf place = other.pendingOf place := fun place => by
    rw [pendingOf, pendingOf, agrees.pending]
  have after : ∀ place, (waiting.hear event node).2.pendingOf place =
      (other.hear event node).2.pendingOf place := fun place => by
    rw [noted.pendingOf, noted'.pendingOf, drop, drop, agrees.subscriptions, before]
  refine ⟨⟨pending_ext ?_ after, ?_, fun place => ?_⟩, ?_⟩
  · rw [noted.size, noted'.size, agrees.pending]
  · rw [noted.subscriptions, noted'.subscriptions, agrees.subscriptions]
  · apply Bool.eq_iff_iff.2
    rw [noted.blocked, noted'.blocked, agrees.blocked, before, after]
  · rw [List.perm_ext_iff_of_nodup noted.distinct noted'.distinct]
    intro place
    rw [noted.ready, noted'.ready, agrees.blocked, before, after]

/-! ### Two events of different nodes -/

section Exchange

variable {event other : Lifecycle} {node place : Nat} {waiting : Waiting}
  {first second after before : List Nat × Waiting}

/-- What is taken off for an event is the same when another node's event was heard before. -/
theorem Noted.drop_eq (noted : Noted event node waiting first)
    (apart : node ≠ place) (dependent : Nat) (entries : List Dependency) :
    first.2.drop (other.settles place) dependent entries =
      waiting.drop (other.settles place) dependent entries := by
  have counts : ∀ d ∈ other.settles place, first.2.subscriptions.count ⟨d, dependent⟩ =
      waiting.subscriptions.count ⟨d, dependent⟩ := by
    intro d member
    have outside : d ∉ event.settles node := fun here =>
      apart ((Lifecycle.node_of_mem_settles here).symm.trans (Lifecycle.node_of_mem_settles member))
    rw [noted.subscriptions, List.count_filter]
    simpa using outside
  generalize other.settles place = settled at counts
  induction settled generalizing entries with
  | nil => rfl
  | cons d settled ih =>
    obtain ⟨now, later⟩ := List.forall_mem_cons.1 counts
    rw [drop_cons, drop_cons, now, ih _ later]

/-- An event of one node does not concern what waits for another one. -/
theorem mem_drop_settles (apart : node ≠ place) {d : Dependency} (member : d ∈ event.settles node)
    (dependent : Nat) (entries : List Dependency) :
    d ∈ waiting.drop (other.settles place) dependent entries ↔ d ∈ entries := by
  refine mem_drop_of_not_mem _ _ _ fun here => apart ?_
  exact (Lifecycle.node_of_mem_settles member).symm.trans (Lifecycle.node_of_mem_settles here)

theorem drop_settles_eq_self_iff (apart : node ≠ place) (dependent : Nat)
    (entries : List Dependency) :
    waiting.drop (event.settles node) dependent
      (waiting.drop (other.settles place) dependent entries) =
        waiting.drop (other.settles place) dependent entries ↔
      waiting.drop (event.settles node) dependent entries = entries := by
  rw [drop_eq_self_iff, drop_eq_self_iff]
  exact forall₂_congr fun d member => or_congr_right (not_congr (mem_drop_settles apart member _ _))

variable (noted : Noted event node waiting first) (noted' : Noted other place waiting second)
  (then_ : Noted other place first.2 after) (then' : Noted event node second.2 before)
  (apart : node ≠ place)

include noted then_ apart in
theorem Noted.pendingOf_after (dependent : Nat) : after.2.pendingOf dependent =
    waiting.drop (other.settles place) dependent
      (waiting.drop (event.settles node) dependent (waiting.pendingOf dependent)) := by
  rw [then_.pendingOf, noted.drop_eq apart, noted.pendingOf]

include noted noted' then_ then' apart in
/-- Two events leave the same entries, whichever is heard first. -/
theorem Noted.pendingOf_comm (dependent : Nat) :
    after.2.pendingOf dependent = before.2.pendingOf dependent := by
  rw [noted.pendingOf_after then_ apart, noted'.pendingOf_after then' apart.symm, drop_comm]

include noted noted' then_ then' apart in
theorem Noted.ready_of_ready {dependent : Nat} (h : dependent ∈ first.1 ∨ dependent ∈ after.1) :
    dependent ∈ second.1 ∨ dependent ∈ before.1 := by
  have both := noted.pendingOf_comm noted' then_ then' apart dependent
  rcases h with now | later
  · -- all that was pending is settled by the first event, so the other one takes nothing off
    obtain ⟨going, unblocked, some, none⟩ := (noted.ready dependent).1 now
    have own : ∀ d ∈ waiting.pendingOf dependent, d ∈ event.settles node := by
      intro d member
      by_contra outside
      have stays := (mem_drop_of_not_mem waiting dependent _ outside).2 member
      rw [← noted.pendingOf, none] at stays
      cases stays
    have same : second.2.pendingOf dependent = waiting.pendingOf dependent := by
      rw [noted'.pendingOf, drop_eq_self_iff]
      refine fun d member => .inr fun pending => apart ?_
      exact (Lifecycle.node_of_mem_settles (own d pending)).symm.trans
        (Lifecycle.node_of_mem_settles member)
    have empty : after.2.pendingOf dependent = [] := by
      rw [then_.pendingOf, none, drop_nil]
    refine .inr ((then'.ready dependent).2 ⟨going, ?_, same ▸ some, both ▸ empty⟩)
    rw [← Bool.not_eq_true, noted'.blocked, unblocked, same]
    simp
  · obtain ⟨going, unblocked, some, none⟩ := (then_.ready dependent).1 later
    have earlier : waiting.isBlocked dependent = false := by
      rw [← Bool.not_eq_true] at unblocked ⊢
      exact fun blocked => unblocked ((noted.blocked dependent).2 (.inl blocked))
    by_cases last : second.2.pendingOf dependent = []
    · refine .inl ((noted'.ready dependent).2 ⟨going, earlier, fun nothing => some ?_, last⟩)
      rw [noted.pendingOf, nothing, drop_nil]
    · -- both events take something off, so the first one is not a cancellation
      have lost : first.2.pendingOf dependent ≠ waiting.pendingOf dependent := by
        intro same
        refine last ?_
        rw [noted'.pendingOf, ← same, ← noted.drop_eq apart, ← then_.pendingOf, none]
      refine .inr ((then'.ready dependent).2 ⟨fun canceled => ?_, ?_, last, both ▸ none⟩)
      · rw [← Bool.not_eq_true, noted.blocked] at unblocked
        exact unblocked (.inr ⟨canceled, lost⟩)
      · rw [← Bool.not_eq_true, noted'.blocked, earlier]
        simp [going]

include noted noted' then_ then' apart in
theorem Noted.isBlocked_comm (dependent : Nat) :
    after.2.isBlocked dependent = before.2.isBlocked dependent := by
  apply Bool.eq_iff_iff.2
  have lost : after.2.pendingOf dependent = first.2.pendingOf dependent ↔
      second.2.pendingOf dependent = waiting.pendingOf dependent := by
    rw [noted.pendingOf_after then_ apart, noted.pendingOf, noted'.pendingOf]
    exact drop_settles_eq_self_iff apart.symm _ _
  have lost' : before.2.pendingOf dependent = second.2.pendingOf dependent ↔
      first.2.pendingOf dependent = waiting.pendingOf dependent := by
    rw [noted'.pendingOf_after then' apart.symm, noted.pendingOf, noted'.pendingOf]
    exact drop_settles_eq_self_iff apart _ _
  rw [then_.blocked, then'.blocked, noted.blocked, noted'.blocked, ne_eq, ne_eq, ne_eq, ne_eq,
    lost, lost']
  tauto

end Exchange

/-- Two events of different nodes may be heard in either order. -/
theorem hear_comm {node place : Nat} (apart : node ≠ place) (event other : Lifecycle)
    (waiting : Waiting) :
    let first := waiting.hear event node
    let second := waiting.hear other place
    let after := first.2.hear other place
    let before := second.2.hear event node
    after.2.Agrees before.2 ∧ (first.1 ++ after.1).Perm (second.1 ++ before.1) := by
  intro first second after before
  have noted : Noted event node waiting first := noted_hear ..
  have noted' : Noted other place waiting second := noted_hear ..
  have then_ : Noted other place first.2 after := noted_hear ..
  have then' : Noted event node second.2 before := noted_hear ..
  refine ⟨⟨?_, ?_, noted.isBlocked_comm noted' then_ then' apart⟩, ?_⟩
  · refine pending_ext ?_ (noted.pendingOf_comm noted' then_ then' apart)
    rw [then_.size, noted.size, then'.size, noted'.size]
  · rw [then_.subscriptions, noted.subscriptions, then'.subscriptions, noted'.subscriptions,
      List.filter_filter, List.filter_filter]
    exact List.filter_congr fun _ _ => Bool.and_comm _ _
  · -- no node is ready twice, since nothing is pending at one that was ready
    have distinct : (first.1 ++ after.1).Nodup := by
      refine List.nodup_append.2 ⟨noted.distinct, then_.distinct, fun ready now again later => ?_⟩
      rintro rfl
      exact ((then_.ready ready).1 later).2.2.1 ((noted.ready ready).1 now).2.2.2
    have distinct' : (second.1 ++ before.1).Nodup := by
      refine List.nodup_append.2 ⟨noted'.distinct, then'.distinct, fun ready now again later => ?_⟩
      rintro rfl
      exact ((then'.ready ready).1 later).2.2.1 ((noted'.ready ready).1 now).2.2.2
    rw [List.perm_ext_iff_of_nodup distinct distinct']
    intro dependent
    rw [List.mem_append, List.mem_append]
    exact ⟨noted.ready_of_ready noted' then_ then' apart,
      noted'.ready_of_ready noted then' then_ apart.symm⟩

end Waiting

end Choreo
