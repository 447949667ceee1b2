import Mathlib.Logic.Relation
import Choreo.Proofs.Graph.Depth

/-!
# The sort by waves

The waves take one off a count for each dependent that a node names, while the counts start from the
prerequisites that the dependents name. These are two sides of the same edges, so no count is ever
asked for one more than it has. What remains in the end, if anything, are the nodes that a walk
along the edges reaches from a cycle; without a cycle nothing remains.
-/

namespace Choreo

/-- Takes one off the count at a place, which has to be there and above zero. -/
def takeOne? : List Nat → Nat → Option (List Nat × Bool)
  | [], _ => none
  | count :: counts, 0 => if count = 0 then none else some ((count - 1) :: counts, count == 1)
  | count :: counts, place + 1 => (takeOne? counts place).map fun rest => (count :: rest.1, rest.2)

/-- Takes one off the count of each of these places, where none may fall short. -/
def discharge? : List Nat → List Nat → Option (List Nat × List Nat)
  | [], counts => some (counts, [])
  | place :: places, counts =>
    (takeOne? counts place).bind fun taken =>
      (discharge? places taken.1).map fun rest =>
        (rest.1, if taken.2 then place :: rest.2 else rest.2)

theorem takeOne_of_takeOne? {counts : List Nat} {place : Nat} {taken : List Nat × Bool}
    (h : takeOne? counts place = some taken) : takeOne counts place = taken := by
  induction counts generalizing place taken with
  | nil => simp [takeOne?] at h
  | cons count counts ih =>
    cases place with
    | zero =>
      rw [takeOne?] at h
      split at h
      · cases h
      · exact Option.some.inj h
    | succ place =>
      rw [takeOne?] at h
      obtain ⟨rest, found, rfl⟩ := Option.map_eq_some_iff.1 h
      simp only [takeOne, ih found]

theorem discharge_of_discharge? {places counts : List Nat} {turn : List Nat × List Nat}
    (h : discharge? places counts = some turn) : discharge places counts = turn := by
  induction places generalizing counts turn with
  | nil => simpa [discharge?, discharge] using h
  | cons place places ih =>
    obtain ⟨taken, one, rest⟩ := Option.bind_eq_some_iff.1 h
    obtain ⟨others, found, rfl⟩ := Option.map_eq_some_iff.1 rest
    rw [discharge, takeOne_of_takeOne? one, ih found]

/-- This wave and all that follow it, where no count may fall short. -/
def waves? (waiting : Nat → List Nat) (wave counts : List Nat) : Option (List Nat × List Nat) :=
  match _found : discharge? (followers waiting wave) counts with
  | none => none
  | some turn =>
    if _h : turn.2 = [] then some (wave, turn.1)
    else
      (waves? waiting (turn.2.mergeSort fun a b => decide (a ≤ b)) turn.1).map fun rest =>
        (wave ++ rest.1, rest.2)
termination_by total counts
decreasing_by
  have fall := total_discharge (followers waiting wave) counts
  rw [discharge_of_discharge? _found] at fall
  have freed := List.length_pos_iff.2 _h
  omega

/-- The turns and what remains, or nothing if a count would fall below zero on the way. -/
def turns? (waiting : Nat → List Nat) (counts : List Nat) : Option (List Nat × List Nat) :=
  (waves? waiting (placesWhere (· == 0) counts) counts).map fun result =>
    (result.1, placesWhere (0 < ·) result.2)

theorem takeOne?_eq {counts : List Nat} {place count : Nat}
    (h : counts[place]? = some (count + 1)) :
    takeOne? counts place = some (takeOne counts place) := by
  induction counts generalizing place with
  | nil => simp at h
  | cons first counts ih =>
    cases place with
    | zero =>
      obtain rfl : first = count + 1 := by simpa using h
      simp [takeOne?, takeOne]
    | succ place => simp [takeOne?, takeOne, ih (by simpa using h)]

theorem discharge?_eq {places counts : List Nat}
    (h : ∀ place ∈ places, ∃ count, counts[place]? = some count ∧ places.count place ≤ count) :
    discharge? places counts = some (discharge places counts) := by
  induction places generalizing counts with
  | nil => rfl
  | cons place places ih =>
    have one : takeOne? counts place = some (takeOne counts place) := by
      obtain ⟨count, found, enough⟩ := h place List.mem_cons_self
      rw [List.count_cons_self] at enough
      obtain ⟨left, rfl⟩ : ∃ left, count = left + 1 := ⟨count - 1, by omega⟩
      exact takeOne?_eq found
    have rest : ∀ other ∈ places, ∃ count, (takeOne counts place).1[other]? = some count ∧
        places.count other ≤ count := by
      intro other member
      obtain ⟨count, found, enough⟩ := h other (List.mem_cons_of_mem _ member)
      rw [getElem?_takeOne, found]
      refine ⟨_, rfl, ?_⟩
      split
      · rename_i same
        subst same
        rw [List.count_cons_self] at enough
        exact Nat.le_sub_one_of_lt enough
      · rename_i apart
        rwa [List.count_cons_of_ne (Ne.symm apart)] at enough
    rw [discharge?, one, Option.bind_some, ih rest, Option.map_some, discharge]

namespace Graph

variable {nodes : List Node}

theorem followers_le (arena : Arena nodes) {past wave : List Nat} (stage : Stage nodes past wave)
    {node : Nat} (named : node ∈ followers (dependents nodes) wave) :
    ∃ count, (countsAfter nodes past)[node]? = some count ∧
      (followers (dependents nodes) wave).count node ≤ count := by
  obtain ⟨w, -, follows⟩ := List.mem_flatMap.1 named
  have inside := (arena.lt_of_prerequisite ((arena.mem_dependents w node).1 follows)).2
  rw [getElem?_countsAfter, if_pos inside, count_followers arena stage.nodup]
  refine ⟨_, rfl, List.countP_mono_left fun p _ now => ?_⟩
  simp only [decide_eq_true_eq] at now ⊢
  exact stage.fresh p now

theorem waves?_eq (arena : Arena nodes) {past wave counts : List Nat}
    (stage : Stage nodes past wave) (h : counts = countsAfter nodes past) :
    waves? (dependents nodes) wave counts = some (waves (dependents nodes) wave counts) := by
  have enough : discharge? (followers (dependents nodes) wave) counts =
      some (discharge (followers (dependents nodes) wave) counts) :=
    discharge?_eq fun _ named => h ▸ followers_le arena stage named
  induction wave, counts using waves.induct (dependents nodes) generalizing past with
  | case1 wave counts turn =>
    rename_i last
    rw [waves, dif_pos last, waves?]
    split
    · simp_all
    · rename_i found
      cases enough.symm.trans found
      rw [dif_pos last]
  | case2 wave counts turn more =>
    rename_i ih
    subst h
    have next := stage_next arena stage (List.mergeSort_perm turn.2 fun a b => decide (a ≤ b))
    have left := countsAfter_wave arena stage
    have rest := ih next left (discharge?_eq fun _ named => left ▸ followers_le arena next named)
    rw [waves, dif_neg more, waves?]
    split
    · simp_all
    · rename_i found
      cases enough.symm.trans found
      rw [dif_neg more, rest, Option.map_some]

theorem turns?_eq (arena : Arena nodes) : turns? (dependents nodes) (counts nodes) =
    some (turns (dependents nodes) (counts nodes)) := by
  rw [turns?, waves?_eq arena (stage_first nodes) (counts_eq nodes), Option.map_some, turns]

/-- A node lies on a cycle, or a walk along the edges leads to it from one. -/
def Downstream (nodes : List Node) (node : Nat) : Prop :=
  ∃ origin, Relation.TransGen (Waits nodes) origin origin ∧
    Relation.ReflTransGen (Waits nodes) origin node

theorem Downstream.onward {p node : Nat} (h : Downstream nodes p) (waits : Waits nodes p node) :
    Downstream nodes node := by
  obtain ⟨origin, cycle, walk⟩ := h
  exact ⟨origin, cycle, walk.tail waits⟩

theorem acc_of_not_downstream (arena : Arena nodes) {node : Nat} (h : ¬ Downstream nodes node) :
    Acc (Waits nodes) node := by
  let Upper := { node : Fin nodes.length // ¬ Downstream nodes node }
  have inner : WellFounded fun p node : Upper => Relation.TransGen (Waits nodes) p.1 node.1 :=
    @Finite.wellFounded_of_trans_of_irrefl Upper _ _ ⟨fun _ _ _ => .trans⟩
      ⟨fun node cycle => node.2 ⟨node.1, cycle, .refl⟩⟩
  have upper : ∀ node : Upper, Acc (Waits nodes) node.1 := by
    intro node
    induction node using inner.induction with
    | _ node ih =>
      refine .intro _ fun p waits => ?_
      have inside := (arena.lt_of_prerequisite waits).1
      exact ih ⟨⟨p, inside⟩, fun below => node.2 (below.onward waits)⟩ (.single waits)
  refine .intro _ fun p waits => ?_
  have inside := (arena.lt_of_prerequisite waits).1
  exact upper ⟨⟨p, inside⟩, fun below => h (below.onward waits)⟩

theorem mem_remainder_iff (arena : Arena nodes) {node : Nat} :
    node ∈ (turns (dependents nodes) (counts nodes)).2 ↔ Downstream nodes node := by
  rw [mem_remainder arena]
  have turned := turns_counts arena
  constructor
  · rintro ⟨inside, absent⟩
    by_contra upper
    have acc := acc_of_not_downstream arena upper
    induction acc with
    | intro node _ ih =>
      refine absent ((turned.complete node inside fun p waits => .inr ?_).resolve_left (by simp))
      by_contra missing
      exact ih p waits (arena.lt_of_prerequisite waits).1 missing fun below =>
        upper (below.onward waits)
  · rintro ⟨origin, cycle, walk⟩
    have blocked := not_mem_turns_of_cycle arena cycle
    rcases Relation.reflTransGen_iff_eq_or_transGen.1 walk with rfl | walk
    · exact ⟨lt_length_of_cycle arena cycle, blocked⟩
    · obtain ⟨_, -, last⟩ := Relation.TransGen.tail'_iff.1 walk
      exact ⟨(arena.lt_of_prerequisite last).2,
        fun member => blocked (idxOf_lt_of_waits turned walk member).1⟩

theorem remainder_of_waveOrder {remainder : List Nat} (h : waveOrder nodes = .error remainder) :
    (turns (dependents nodes) (counts nodes)).2 = remainder := by
  unfold waveOrder at h
  simp only at h
  split at h
  · cases h
  · exact Except.error.inj h

theorem ascending_remainder {remainder : List Nat} (h : waveOrder nodes = .error remainder) :
    remainder.Pairwise (· < ·) := by
  rw [← remainder_of_waveOrder h]
  exact pairwise_placesWhere (0 < ·) (waves _ _ _).2

theorem mem_refused_iff (arena : Arena nodes)
    {remainder : List Nat} (h : waveOrder nodes = .error remainder) {node : Nat} :
    node ∈ remainder ↔ Downstream nodes node := by
  rw [← remainder_of_waveOrder h]
  exact mem_remainder_iff arena

/-- However a graph was made, its waves never take a count below zero, and they order all nodes just
if there is no cycle: by the length of the longest chains of dependencies, then by creation.
Otherwise what remains is what lies on a cycle or downstream of one, in the order of creation. -/
theorem wave_sort (changes : List Edit) :
    let nodes := (changes.foldl Graph.edit empty).nodes
    turns? (dependents nodes) (counts nodes) = some (turns (dependents nodes) (counts nodes)) ∧
    ((waveOrder nodes).isOk ↔ Acyclic nodes) ∧
    match waveOrder nodes with
    | .ok order =>
      order.Perm (List.range nodes.length) ∧ order.Pairwise (Earlier nodes) ∧
      (∀ node < nodes.length, Chain nodes (depth nodes node) node ∧
        ∀ length, Chain nodes length node → length ≤ depth nodes node) ∧
      ∀ node, ∀ p ∈ prerequisites nodes node, order.idxOf p < order.idxOf node
    | .error remainder =>
      remainder.Pairwise (· < ·) ∧ ∀ node, node ∈ remainder ↔ Downstream nodes node := by
  intro nodes
  have arena : Arena nodes := (sound_empty.edits changes).arena
  refine ⟨turns?_eq arena, ?_, ?_⟩
  · rw [← waveOrder_isOk_iff arena]
    cases waveOrder nodes <;> simp [Except.isOk, Except.toBool]
  · split
    · rename_i order found
      have ordering := ordering_of_waveOrder arena found
      refine ⟨?_, earlier_waveOrder arena found, fun node inside => ?_, ordering.before⟩
      · rw [List.perm_ext_iff_of_nodup ordering.nodup List.nodup_range]
        simp [ordering.mem_iff]
      · have height := height_of_waveOrder arena found inside
        refine ⟨height.1, fun length chain => ?_⟩
        by_contra above
        exact height.2 (chain.mono (by omega))
    · rename_i remainder refused
      exact ⟨ascending_remainder refused, fun node => mem_refused_iff arena refused⟩

end Graph

end Choreo
