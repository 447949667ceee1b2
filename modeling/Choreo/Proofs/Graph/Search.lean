import Choreo.Digraph.Search
import Choreo.Proofs.Graph.Closure

/-!
# The search finds a cycle

A vertex is open from the time when the search sees it until it is finished. Everything that lies
above an open vertex on the stack can be reached from it, and its successors that were not seen yet
are among that. So when a vertex is finished, each of its successors is finished or leads back to
it, and an edge that leads back in the order of finishing closes a cycle. If there is none, no walk
returns to where it started. So the search names a vertex on a cycle exactly if there is one.
-/

namespace Choreo

theorem prefix_append_cases {α : Type} {above new stack : List α} {v : α}
    (part : above ++ [v] <+: new ++ stack) :
    v ∈ new ∨ ∃ further, above = new ++ further ∧ further ++ [v] <+: stack := by
  obtain ⟨below, same⟩ := part
  rw [List.append_assoc] at same
  rcases List.append_eq_append_iff.1 same with ⟨between, rfl, rest⟩ | ⟨further, rfl, rfl⟩
  · cases between with
    | nil => exact .inr ⟨[], by simp, below, rest⟩
    | cons first between =>
      obtain ⟨rfl, -⟩ := List.cons.inj rest
      exact .inl (by simp)
  · exact .inr ⟨further, rfl, below, by simp⟩

namespace Digraph

/-- A search under way: what was not seen yet, the stack, and what is finished, last first. -/
structure Searching (graph : Digraph) (unseen stack finished : List Nat) : Prop where
  inside : ∀ v ∈ stack, v < graph.size
  listed : unseen ⊆ stack
  distinct : unseen.Nodup
  waiting : ∀ v < graph.size, v ∉ finished → v ∈ stack
  loopless : ∀ v, graph.Edge v v → v ∈ unseen
  reaches : ∀ above v, above ++ [v] <+: stack → v ∉ unseen → v ∉ finished → v ∉ above →
    ∀ w ∈ above, Relation.ReflTransGen graph.Edge v w
  children : ∀ above v, above ++ [v] <+: stack → v ∉ unseen → v ∉ finished → v ∉ above →
    ∀ w ∈ unseen, graph.Edge v w → w ∈ above
  closed : ∀ v ∈ finished, ∀ w < graph.size, graph.Edge v w →
    w ∈ finished ∨ Relation.ReflTransGen graph.Edge w v
  order : finished.Pairwise fun v w => graph.Edge w v → Relation.ReflTransGen graph.Edge v w

variable {graph : Digraph} {unseen rest finished : List Nat} {v : Nat}

theorem searching_start (bounded : graph.Bounded) :
    graph.Searching graph.vertices graph.vertices [] := by
  have seen : ∀ (above : List Nat) (v : Nat), above ++ [v] <+: graph.vertices →
      v ∈ graph.vertices :=
    fun above v part => part.subset (List.mem_append_right _ (List.mem_singleton_self v))
  exact {
    inside := fun v member => List.mem_range.1 member
    listed := List.Subset.refl _
    distinct := List.nodup_range
    waiting := fun v inside _ => List.mem_range.2 inside
    loopless := fun v loop => List.mem_range.2 (bounded _ loop)
    reaches := fun above v part hidden => absurd (seen above v part) hidden
    children := fun above v part hidden => absurd (seen above v part) hidden
    closed := fun _ none => nomatch none
    order := .nil }

/-- A vertex that is seen for the first time stays on the stack, below those that it leads to. -/
theorem Searching.enter (searching : graph.Searching unseen (v :: rest) finished)
    (fresh : v ∈ unseen) (straight : ¬ graph.Edge v v) :
    let left := unseen.erase v
    graph.Searching left (((graph.successors v).filter (· ∈ left)).reverse ++ v :: rest)
      finished := by
  intro left
  have mem_left : ∀ w, w ∈ left ↔ w ≠ v ∧ w ∈ unseen := fun w => searching.distinct.mem_erase_iff
  have mem_new : ∀ w, w ∈ ((graph.successors v).filter (· ∈ left)).reverse ↔
      graph.Edge v w ∧ w ∈ left := fun w => by simp [mem_successors]
  generalize ((graph.successors v).filter (· ∈ left)).reverse = new at mem_new ⊢
  have mem_stack : ∀ w, w ∈ new ++ v :: rest ↔ w ∈ v :: rest := by
    intro w
    rw [List.mem_append, or_iff_right_of_imp]
    exact fun added => searching.listed ((mem_left w).1 ((mem_new w).1 added).2).2
  -- what is open now is the vertex itself, or it was open before and lies below
  have opened : ∀ above w, above ++ [w] <+: new ++ v :: rest → w ∉ left → w ∉ above →
      w = v ∧ above = new ∨ w ∉ unseen ∧ ∃ further, above = new ++ v :: further ∧
        (v :: further) ++ [w] <+: v :: rest := by
    intro above w part seen apart
    rcases prefix_append_cases part with added | ⟨further, rfl, deeper⟩
    · exact absurd ((mem_new w).1 added).2 seen
    cases further with
    | nil => exact .inl ⟨(List.cons_prefix_cons.1 deeper).1, List.append_nil _⟩
    | cons first further =>
      obtain ⟨rfl, -⟩ := List.cons_prefix_cons.1 deeper
      have other : w ≠ first := by
        rintro rfl
        exact apart (by simp)
      exact .inr ⟨fun hidden => seen ((mem_left w).2 ⟨other, hidden⟩), further, rfl, deeper⟩
  refine ⟨fun w member => searching.inside w ((mem_stack w).1 member), fun w member => ?_,
    searching.distinct.erase v, fun w inside undone => ?_, fun w loop => ?_,
    fun above w part seen undone apart => ?_, fun above w part seen undone apart => ?_,
    searching.closed, searching.order⟩
  · exact (mem_stack w).2 (searching.listed ((mem_left w).1 member).2)
  · exact (mem_stack w).2 (searching.waiting w inside undone)
  · refine (mem_left w).2 ⟨?_, searching.loopless w loop⟩
    rintro rfl
    exact straight loop
  · rcases opened above w part seen apart with ⟨rfl, rfl⟩ | ⟨before, further, rfl, deeper⟩
    · exact fun x member => .single ((mem_new x).1 member).1
    have earlier := searching.reaches _ w deeper before undone fun member =>
      apart (List.mem_append_right _ member)
    intro x member
    rcases List.mem_append.1 member with added | old
    · exact (earlier v (List.mem_cons_self ..)).tail ((mem_new x).1 added).1
    · exact earlier x old
  · rcases opened above w part seen apart with ⟨rfl, rfl⟩ | ⟨before, further, rfl, deeper⟩
    · exact fun x hidden edge => (mem_new x).2 ⟨edge, hidden⟩
    have earlier := searching.children _ w deeper before undone fun member =>
      apart (List.mem_append_right _ member)
    exact fun x hidden edge => List.mem_append_right _ (earlier x ((mem_left x).1 hidden).2 edge)

/-- When the search comes back to a vertex, its successors are finished or lead back to it. -/
theorem Searching.settled (searching : graph.Searching unseen (v :: rest) finished)
    (seen : v ∉ unseen) (undone : v ∉ finished) {w : Nat} (inside : w < graph.size)
    (edge : graph.Edge v w) : w ∈ finished ∨ Relation.ReflTransGen graph.Edge w v := by
  by_cases done : w ∈ finished
  · exact .inl done
  have known : w ∉ unseen := fun hidden =>
    List.not_mem_nil
      (searching.children [] v ⟨rest, rfl⟩ seen undone List.not_mem_nil w hidden edge)
  rcases List.mem_cons.1 (searching.waiting w inside done) with rfl | below
  · exact .inr .refl
  by_cases same : w = v
  · exact .inr (same ▸ .refl)
  obtain ⟨between, deeper, rfl, apart⟩ := List.eq_append_cons_of_mem below
  refine .inr
    (searching.reaches (v :: between) w ⟨deeper, by simp⟩ known done ?_ v (List.mem_cons_self ..))
  simp [same, apart]

theorem Searching.leave (searching : graph.Searching unseen (v :: rest) finished)
    (seen : v ∉ unseen) :
    graph.Searching unseen rest (if v ∈ finished then finished else v :: finished) := by
  have mem_done : ∀ w, w ∈ (if v ∈ finished then finished else v :: finished) ↔
      w = v ∨ w ∈ finished := by
    intro w
    split
    · next done =>
      refine ⟨.inr, fun h => h.elim ?_ id⟩
      rintro rfl
      exact done
    · exact List.mem_cons
  have mem_open : ∀ {w}, w ∉ (if v ∈ finished then finished else v :: finished) →
      w ≠ v ∧ w ∉ finished :=
    fun undone => not_or.1 (mt (mem_done _).2 undone)
  have other : ∀ w ∈ v :: rest, w ≠ v → w ∈ rest := fun w member differs =>
    (List.mem_cons.1 member).resolve_left differs
  have lower : ∀ {above : List Nat} {w : Nat}, above ++ [w] <+: rest →
      (v :: above) ++ [w] <+: v :: rest :=
    fun part => List.cons_prefix_cons.2 ⟨rfl, part⟩
  refine ⟨fun w member => searching.inside w (List.mem_cons_of_mem _ member), fun w hidden => ?_,
    searching.distinct, fun w inside undone => ?_, searching.loopless,
    fun above w part hidden undone apart x member => ?_,
    fun above w part hidden undone apart x fresh edge => ?_, ?_, ?_⟩
  · refine other w (searching.listed hidden) ?_
    rintro rfl
    exact seen hidden
  · obtain ⟨differs, undone⟩ := mem_open undone
    exact other w (searching.waiting w inside undone) differs
  · obtain ⟨differs, undone⟩ := mem_open undone
    exact searching.reaches _ w (lower part) hidden undone (by simp [differs, apart]) x
      (List.mem_cons_of_mem _ member)
  · obtain ⟨differs, undone⟩ := mem_open undone
    have among := searching.children _ w (lower part) hidden undone (by simp [differs, apart]) x
      fresh edge
    refine (List.mem_cons.1 among).resolve_left ?_
    rintro rfl
    exact seen fresh
  · intro w done x inside edge
    rw [mem_done]
    rcases (mem_done w).1 done with rfl | done
    · by_cases already : w ∈ finished
      · exact (searching.closed w already x inside edge).imp_left .inr
      · exact (searching.settled seen already inside edge).imp_left .inr
    · exact (searching.closed w done x inside edge).imp_left .inr
  · split
    · exact searching.order
    · next undone =>
      have here : v < graph.size := searching.inside v (List.mem_cons_self ..)
      refine List.pairwise_cons.2 ⟨fun w done edge => ?_, searching.order⟩
      exact (searching.closed w done v here edge).resolve_left undone

/-- The search ends at a vertex that is its own successor, or when all vertices are finished. -/
theorem Searching.explore (searching : graph.Searching unseen rest finished) :
    match graph.explore unseen rest finished with
    | .error v => graph.Edge v v
    | .ok order => graph.Searching [] [] order := by
  induction unseen, rest, finished using Digraph.explore.induct graph with
  | case1 unseen finished =>
    rw [Digraph.explore]
    have none : unseen = [] := List.subset_nil.1 searching.listed
    exact none ▸ searching
  | case2 unseen finished v rest fresh loop =>
    rw [Digraph.explore, dif_pos fresh, if_pos loop]
    exact mem_successors.1 loop
  | case3 unseen finished v rest fresh straight left ih =>
    rw [Digraph.explore, dif_pos fresh, if_neg straight]
    exact ih (searching.enter fresh (mt mem_successors.2 straight))
  | case4 unseen finished v rest seen ih =>
    rw [Digraph.explore, dif_neg seen]
    exact ih (searching.leave seen)

/-! ### Edges that lead back -/

theorem mem_predecessors {u v : Nat} : u ∈ graph.predecessors v ↔ graph.Edge u v := by
  simp [predecessors, Edge]

theorem mem_later {earlier : List Nat} {u v : Nat} :
    u ∈ (graph.predecessors v).filter (· ∉ v :: earlier) ↔ graph.Edge u v ∧ u ≠ v ∧
      u ∉ earlier := by
  simp [mem_predecessors]

theorem backward?_eq_some {earlier order : List Nat} {u : Nat}
    (found : graph.backward? earlier order = some u) : ∃ before v after,
      order = before ++ v :: after ∧ graph.Edge u v ∧ u ≠ v ∧ u ∉ before ∧ u ∉ earlier := by
  induction order generalizing earlier with
  | nil => cases found
  | cons v order ih =>
    rw [backward?] at found
    split at found
    · next source last =>
      cases found
      obtain ⟨edge, other, apart⟩ := mem_later.1 (List.mem_of_getLast? last)
      exact ⟨[], v, order, rfl, edge, other, List.not_mem_nil, apart⟩
    · obtain ⟨before, w, after, rfl, edge, other, apart, unlisted⟩ := ih found
      obtain ⟨differs, unlisted⟩ := not_or.1 (mt List.mem_cons.2 unlisted)
      exact ⟨v :: before, w, after, rfl, edge, other, by simp [differs, apart], unlisted⟩

theorem backward?_eq_none {earlier order : List Nat} (none : graph.backward? earlier order = none)
    {before after : List Nat} {v : Nat} (here : order = before ++ v :: after) {u : Nat}
    (edge : graph.Edge u v) : u = v ∨ u ∈ before ∨ u ∈ earlier := by
  induction order generalizing earlier before with
  | nil => simp at here
  | cons first order ih =>
    rw [backward?] at none
    split at none
    · cases none
    · next last =>
      rcases List.cons_eq_append_iff.1 here with ⟨rfl, same⟩ | ⟨before, rfl, rfl⟩
      · obtain ⟨rfl, -⟩ := List.cons.inj same
        by_contra later
        have nobody := List.getLast?_eq_none_iff.1 last
        have member : u ∈ (graph.predecessors v).filter (· ∉ v :: earlier) :=
          mem_later.2 ⟨edge, fun same => later (.inl same), fun known => later (.inr (.inr known))⟩
        rw [nobody] at member
        exact List.not_mem_nil member
      · rcases ih none rfl with same | early | known
        · exact .inl same
        · exact .inr (.inl (List.mem_cons_of_mem _ early))
        · rcases List.mem_cons.1 known with rfl | known
          · exact .inr (.inl (List.mem_cons_self ..))
          · exact .inr (.inr known)

section Order

variable {order : List Nat} (searched : graph.Searching [] [] order)

include searched

theorem Searching.closes {u : Nat} (bounded : graph.Bounded)
    (found : graph.backward? [] order = some u) : Relation.TransGen graph.Edge u u := by
  obtain ⟨before, v, after, rfl, edge, other, apart, -⟩ := backward?_eq_some found
  have finished : u ∈ before ++ v :: after := by
    by_contra undone
    exact List.not_mem_nil (searched.waiting u (bounded _ edge) undone)
  have later : u ∈ after := by simpa [apart, other] using finished
  have pairs := List.pairwise_append.1 searched.order
  exact .head' edge ((List.pairwise_cons.1 pairs.2.1).1 u later edge)

theorem Searching.leads_on (none : graph.backward? [] order = none) {u v : Nat}
    (edge : graph.Edge u v) (inside : v < graph.size) : order.idxOf u < order.idxOf v := by
  have finished : v ∈ order := by
    by_contra undone
    exact List.not_mem_nil (searched.waiting v inside undone)
  obtain ⟨before, after, rfl, apart⟩ := List.eq_append_cons_of_mem finished
  have early : u ∈ before := by
    rcases backward?_eq_none none rfl edge with rfl | early | known
    · exact absurd (searched.loopless u edge) List.not_mem_nil
    · exact early
    · cases known
  rw [List.idxOf_append_of_mem early, List.idxOf_append_of_notMem apart, List.idxOf_cons_self]
  exact List.idxOf_lt_length_of_mem early

theorem Searching.acyclic (bounded : graph.Bounded) (none : graph.backward? [] order = none)
    (v : Nat) : ¬ Relation.TransGen graph.Edge v v := by
  have onward : ∀ {u w}, Relation.TransGen graph.Edge u w → w < graph.size →
      order.idxOf u < order.idxOf w := by
    intro u w walk
    induction walk with
    | single edge => exact searched.leads_on none edge
    | tail _ edge ih =>
      exact fun inside => Nat.lt_trans (ih (bounded _ edge)) (searched.leads_on none edge inside)
  intro walk
  obtain ⟨w, edge, -⟩ := Relation.TransGen.head'_iff.1 walk
  exact Nat.lt_irrefl _ (onward walk (bounded _ edge))

end Order

/-- The search names a vertex on a cycle, and names one if there is a cycle. -/
theorem searched?_spec (bounded : graph.Bounded) :
    (∀ v, graph.searched? = some v → Relation.TransGen graph.Edge v v) ∧
      (graph.searched? = none → ∀ v, ¬ Relation.TransGen graph.Edge v v) := by
  have searched := (searching_start bounded).explore
  rw [searched?]
  cases result : graph.explore graph.vertices graph.vertices [] with
  | error w =>
    rw [result] at searched
    refine ⟨fun v same => ?_, nofun⟩
    cases same
    exact .single searched
  | ok order =>
    rw [result] at searched
    exact ⟨fun v => searched.closes bounded, searched.acyclic bounded⟩

theorem foundCycle?_eq_none (bounded : graph.Bounded) :
    graph.foundCycle? = none ↔ ∀ v, ¬ Relation.TransGen graph.Edge v v := by
  obtain ⟨cycle, acyclic⟩ := searched?_spec bounded
  rw [foundCycle?, Option.map_eq_none_iff]
  refine ⟨acyclic, fun straight => Option.eq_none_iff_forall_ne_some.2 fun v found => ?_⟩
  exact straight v (cycle v found)

/-- What is found are a vertex on a cycle and all that lie on cycles with it. -/
theorem foundCycle?_eq_some (bounded : graph.Bounded) {places : List Nat}
    (h : graph.foundCycle? = some places) :
    ∃ w, graph.reach.onCycle w = true ∧ places = graph.component graph.reach w := by
  obtain ⟨w, found, same⟩ := Option.map_eq_some_iff.1 h
  exact ⟨w, (leads_reach bounded).2 ((searched?_spec bounded).1 w found), same.symm⟩

theorem foundCycle?_ne_nil (bounded : graph.Bounded) {places : List Nat}
    (h : graph.foundCycle? = some places) : places ≠ [] := by
  obtain ⟨w, loops, rfl⟩ := foundCycle?_eq_some bounded h
  have here : w ∈ graph.component graph.reach w := by
    refine List.mem_filter.2 ⟨List.mem_range.2 (onCycle_lt loops), ?_⟩
    rw [Reach.onCycle] at loops
    rw [loops]
    rfl
  exact List.ne_nil_of_mem here

theorem loops_of_foundCycle? (bounded : graph.Bounded) {places : List Nat}
    (h : graph.foundCycle? = some places) {v : Nat} (member : v ∈ places) :
    Relation.TransGen graph.Edge v v := by
  obtain ⟨w, -, rfl⟩ := foundCycle?_eq_some bounded h
  have both := (List.mem_filter.1 member).2
  rw [Bool.and_eq_true, leads_reach bounded, leads_reach bounded] at both
  exact both.1.trans both.2

end Digraph

end Choreo
