import Mathlib.Data.List.Nodup
import Mathlib.Data.List.Perm.Subperm
import Mathlib.Data.List.Permutation
import Choreo.Proofs.Graph.Arena

/-!
# Waves are an order of start

Before each wave the count of a node is the number of its prerequisites that have not had their
turn, and the nodes whose prerequisites have all had their turn are those that had it themselves or
are in the wave. So every node has its turn once and after all that it waits for, and no node whose
prerequisites had their turn remains. If the nodes do not wait for one another in a circle, all of
them get their turn.
-/

namespace Choreo

theorem getElem?_takeOne (counts : List Nat) (place i : Nat) :
    (takeOne counts place).1[i]? = counts[i]?.map fun count => if i = place then count - 1
      else count := by
  induction counts generalizing place i with
  | nil => simp [takeOne]
  | cons count counts ih =>
    cases place with
    | zero => cases i <;> simp [takeOne]
    | succ place => cases i <;> simp [takeOne, ih]

theorem takeOne_snd (counts : List Nat) (place : Nat) :
    (takeOne counts place).2 = true ↔ counts[place]? = some 1 := by
  induction counts generalizing place with
  | nil => simp [takeOne]
  | cons count counts ih =>
    cases place with
    | zero => simp [takeOne]
    | succ place => simp [takeOne, ih]

theorem getElem?_discharge (places counts : List Nat) (i : Nat) :
    (discharge places counts).1[i]? = counts[i]?.map fun count => count - places.count i := by
  induction places generalizing counts with
  | nil => simp [discharge]
  | cons place places ih =>
    simp only [discharge, ih, getElem?_takeOne, Option.map_map]
    congr 1
    funext count
    by_cases same : place = i
    · simp [same, Nat.sub_sub, Nat.add_comm]
    · simp [same, Ne.symm same]

/-- The places that come to zero are those with a count that are named at least so often. -/
theorem mem_discharge (places counts : List Nat) (i : Nat) :
    i ∈ (discharge places counts).2 ↔
      ∃ count, counts[i]? = some count ∧ 0 < count ∧ count ≤ places.count i := by
  induction places generalizing counts with
  | nil =>
    simp only [discharge, List.not_mem_nil, List.count_nil, false_iff]
    omega
  | cons place places ih =>
    have tail := ih (takeOne counts place).1
    have freed := takeOne_snd counts place
    by_cases same : place = i
    · subst same
      cases h : counts[place]? with
      | none =>
        simp_all [discharge, getElem?_takeOne]
      | some count =>
        simp only [getElem?_takeOne, h, Option.map_some, Option.some.injEq, exists_eq_left',
          ↓reduceIte] at tail freed
        simp only [discharge, List.count_cons_self, Option.some.injEq, exists_eq_left']
        split
        · rename_i one
          have := freed.1 one
          simp only [List.mem_cons, true_or, true_iff]
          omega
        · rename_i many
          rw [freed] at many
          rw [tail]
          omega
    · have rest : i ∈ (discharge (place :: places) counts).2 ↔
          i ∈ (discharge places (takeOne counts place).1).2 := by
        simp only [discharge]
        split <;> simp [Ne.symm same]
      rw [rest, tail]
      simp [getElem?_takeOne, Ne.symm same, same]

theorem nodup_discharge (places counts : List Nat) : (discharge places counts).2.Nodup := by
  induction places generalizing counts with
  | nil => simp [discharge]
  | cons place places ih =>
    simp only [discharge]
    split
    · rename_i freed
      refine List.nodup_cons.2 ⟨fun again => ?_, ih _⟩
      have one := (takeOne_snd counts place).1 freed
      obtain ⟨count, hcount, positive, -⟩ := (mem_discharge _ _ _).1 again
      rw [getElem?_takeOne, one] at hcount
      simp only [↓reduceIte, Option.map_some, Option.some.injEq] at hcount
      omega
    · exact ih _

namespace Graph

/-- How many prerequisites of each node have not had their turn when those in `past` have. -/
def countsAfter (nodes : List Node) (past : List Nat) : List Nat :=
  (List.range nodes.length).map fun node => (prerequisites nodes node).countP (· ∉ past)

theorem getElem?_countsAfter (nodes : List Node) (past : List Nat) (node : Nat) :
    (countsAfter nodes past)[node]? =
      if node < nodes.length then some ((prerequisites nodes node).countP (· ∉ past))
        else none := by
  rw [countsAfter]
  by_cases h : node < nodes.length <;> simp [h]

theorem counts_eq (nodes : List Node) : counts nodes = countsAfter nodes [] := by
  apply List.ext_getElem?
  intro node
  rw [getElem?_countsAfter]
  by_cases h : node < nodes.length <;> simp [counts, prerequisites, h]

/-- What is known before a wave: the nodes of `past` have had their turn, those of `wave` have it
now. -/
structure Stage (nodes : List Node) (past wave : List Nat) : Prop where
  nodup : wave.Nodup
  fresh : ∀ node ∈ wave, node ∉ past
  turned : ∀ node, node ∈ past ∨ node ∈ wave ↔
    node < nodes.length ∧ ∀ p ∈ prerequisites nodes node, p ∈ past

theorem stage_first (nodes : List Node) : Stage nodes [] (placesWhere (· == 0) (counts nodes)) := by
  have first : ∀ node, node ∈ placesWhere (· == 0) (counts nodes) ↔
      node < nodes.length ∧ prerequisites nodes node = [] := by
    intro node
    rw [counts_eq, placesWhere, List.mem_filter, List.mem_range, getElem?_countsAfter]
    by_cases h : node < nodes.length <;> simp [countsAfter, h, List.eq_nil_iff_forall_not_mem]
  refine ⟨List.nodup_range.filter _, by simp, fun node => ?_⟩
  simp [first, List.eq_nil_iff_forall_not_mem]

/-- How often a node is taken off the counts by a wave is how many of its prerequisites are in
it. -/
theorem count_followers {nodes : List Node} (arena : Arena nodes) {wave : List Nat} (h : wave.Nodup)
    (node : Nat) : (followers (dependents nodes) wave).count node =
      (prerequisites nodes node).countP (· ∈ wave) := by
  have once : ∀ w, (dependents nodes w).count node = if w ∈ prerequisites nodes node then 1
      else 0 := by
    intro w
    rw [List.Nodup.count (arena.dependents_nodup w)]
    simp only [arena.mem_dependents]
  have waiting : (followers (dependents nodes) wave).count node =
      (wave.filter (· ∈ prerequisites nodes node)).length := by
    rw [followers]
    clear h
    induction wave with
    | nil => simp
    | cons w wave ih =>
      rw [List.flatMap_cons, List.count_append, ih, once]
      by_cases member : w ∈ prerequisites nodes node <;> simp [member, Nat.add_comm]
  rw [waiting, List.countP_eq_length_filter]
  apply List.Perm.length_eq
  rw [List.perm_ext_iff_of_nodup (h.filter _) ((prerequisites_nodup nodes node).filter _)]
  intro w
  simp [and_comm]

theorem countsAfter_wave {nodes : List Node} (arena : Arena nodes) {past wave : List Nat}
    (stage : Stage nodes past wave) :
    (discharge (followers (dependents nodes) wave) (countsAfter nodes past)).1 =
      countsAfter nodes (past ++ wave) := by
  apply List.ext_getElem?
  intro node
  rw [getElem?_discharge, getElem?_countsAfter, getElem?_countsAfter,
    count_followers arena stage.nodup]
  split
  · have parts : ∀ places : List Nat, places.countP (· ∉ past) - places.countP (· ∈ wave) =
        places.countP (· ∉ past ++ wave) := by
      intro places
      have sum : places.countP (· ∉ past) =
          places.countP (· ∈ wave) + places.countP (· ∉ past ++ wave) := by
        induction places with
        | nil => simp
        | cons p places ih =>
          have fresh := stage.fresh p
          by_cases hp : p ∈ past <;> by_cases hw : p ∈ wave <;> simp_all <;> omega
      omega
    rw [Option.map_some, parts]
  · rfl

theorem stage_next {nodes : List Node} (arena : Arena nodes) {past wave next : List Nat}
    (stage : Stage nodes past wave)
    (h : next.Perm (discharge (followers (dependents nodes) wave) (countsAfter nodes past)).2) :
    Stage nodes (past ++ wave) next := by
  have member : ∀ node, node ∈ next ↔ node < nodes.length ∧
      (∃ p ∈ prerequisites nodes node, p ∉ past) ∧
        ∀ p ∈ prerequisites nodes node, p ∈ past ++ wave := by
    intro node
    have left := congrArg (·[node]?) (countsAfter_wave arena stage)
    simp only [getElem?_discharge, getElem?_countsAfter] at left
    rw [h.mem_iff, mem_discharge, getElem?_countsAfter]
    by_cases inside : node < nodes.length
    · simp only [inside, ↓reduceIte, Option.map_some, Option.some.injEq] at left
      have zero : (prerequisites nodes node).countP (· ∉ past ++ wave) = 0 ↔
          ∀ p ∈ prerequisites nodes node, p ∈ past ++ wave := by
        simp [List.countP_eq_zero, or_iff_not_imp_left]
      have some : 0 < (prerequisites nodes node).countP (· ∉ past) ↔
          ∃ p ∈ prerequisites nodes node, p ∉ past := by
        simp [List.countP_pos_iff]
      rw [← zero, ← some, ← left]
      simp only [inside, ↓reduceIte, Option.some.injEq, exists_eq_left', true_and]
      omega
    · simp [inside]
  refine ⟨h.nodup_iff.2 (nodup_discharge _ _), fun node hnode past => ?_, fun node => ?_⟩
  · obtain ⟨inside, ⟨p, hp, unseen⟩, -⟩ := (member node).1 hnode
    have turned := (stage.turned node).1 (by simpa using past)
    exact unseen (turned.2 p hp)
  · constructor
    · rintro (past | now)
      · have turned := (stage.turned node).1 (by simpa using past)
        exact ⟨turned.1, fun p hp => List.mem_append_left _ (turned.2 p hp)⟩
      · obtain ⟨inside, -, all⟩ := (member node).1 now
        exact ⟨inside, all⟩
    · rintro ⟨inside, all⟩
      by_cases early : ∀ p ∈ prerequisites nodes node, p ∈ past
      · exact .inl (by simpa using (stage.turned node).2 ⟨inside, early⟩)
      · push Not at early
        exact .inr ((member node).2 ⟨inside, early, all⟩)

/-- What the waves after `past` make up: each node once, none of them in `past`, each after all that
it waits for, and nobody is left whose prerequisites have had their turn. -/
structure Turns (nodes : List Node) (past order : List Nat) : Prop where
  nodup : order.Nodup
  fresh : ∀ node ∈ order, node ∉ past
  inside : ∀ node ∈ order, node < nodes.length
  after : ∀ node ∈ order, ∀ p ∈ prerequisites nodes node,
    p ∈ past ∨ p ∈ order ∧ order.idxOf p < order.idxOf node
  complete : ∀ node < nodes.length, (∀ p ∈ prerequisites nodes node, p ∈ past ∨ p ∈ order) →
    node ∈ past ∨ node ∈ order

theorem Turns.prepend {nodes : List Node} {past wave order : List Nat}
    (stage : Stage nodes past wave) (turns : Turns nodes (past ++ wave) order) :
    Turns nodes past (wave ++ order) := by
  have apart : ∀ node ∈ order, node ∉ wave := fun node hnode hwave =>
    turns.fresh node hnode (List.mem_append_right _ hwave)
  refine ⟨?_, fun node hnode => ?_, fun node hnode => ?_, fun node hnode p hp => ?_,
    fun node inside all => ?_⟩
  · exact List.nodup_append.2
      ⟨stage.nodup, turns.nodup, fun a ha b hb same => apart b hb (same ▸ ha)⟩
  · rcases List.mem_append.1 hnode with now | later
    · exact stage.fresh node now
    · exact fun past => turns.fresh node later (List.mem_append_left _ past)
  · rcases List.mem_append.1 hnode with now | later
    · exact ((stage.turned node).1 (.inr now)).1
    · exact turns.inside node later
  · rcases List.mem_append.1 hnode with now | later
    · exact .inl (((stage.turned node).1 (.inr now)).2 p hp)
    · have place : (wave ++ order).idxOf node = wave.length + order.idxOf node :=
        List.idxOf_append_of_notMem (apart node later)
      rcases turns.after node later p hp with before | ⟨member, less⟩
      · rcases List.mem_append.1 before with past | now
        · exact .inl past
        · refine .inr ⟨List.mem_append_left _ now, ?_⟩
          have bound := List.idxOf_lt_length_of_mem now
          rw [place, List.idxOf_append_of_mem now]
          omega
      · refine .inr ⟨List.mem_append_right _ member, ?_⟩
        rw [place, List.idxOf_append_of_notMem (apart p member)]
        omega
  · rw [List.mem_append, ← or_assoc, ← List.mem_append]
    refine turns.complete node inside fun p hp => ?_
    rw [List.mem_append, or_assoc, ← List.mem_append]
    exact all p hp

theorem turns_waves {nodes : List Node} (arena : Arena nodes) {past wave counts : List Nat}
    (stage : Stage nodes past wave) (h : counts = countsAfter nodes past) :
    Turns nodes past (waves (dependents nodes) wave counts).1 := by
  induction wave, counts using waves.induct (dependents nodes) generalizing past with
  | case1 wave counts turn =>
    rename_i last
    subst h
    have next := stage_next arena stage (.refl _)
    rw [waves, dif_pos last]
    have none : Turns nodes (past ++ wave) [] := by
      refine ⟨.nil, by simp, by simp, by simp, fun node inside all => ?_⟩
      have turned := (next.turned node).2 ⟨inside, fun p hp => by simpa using all p hp⟩
      rwa [show (discharge _ _).2 = [] from last] at turned
    simpa using none.prepend stage
  | case2 wave counts turn more =>
    rename_i ih
    subst h
    rw [waves, dif_neg more]
    have next := stage_next arena stage (List.mergeSort_perm turn.2 fun a b => decide (a ≤ b))
    exact (ih next (countsAfter_wave arena stage)).prepend stage

/-- The order of start has every node once, and each after all that it waits for. -/
structure Ordering (nodes : List Node) (order : List Nat) : Prop where
  nodup : order.Nodup
  mem_iff : ∀ node, node ∈ order ↔ node < nodes.length
  before : ∀ node, ∀ p ∈ prerequisites nodes node, order.idxOf p < order.idxOf node

theorem turns_counts {nodes : List Node} (arena : Arena nodes) :
    Turns nodes [] (turns (dependents nodes) (counts nodes)).1 :=
  turns_waves arena (stage_first nodes) (counts_eq nodes)

theorem ordering_of_waveOrder {nodes : List Node} (arena : Arena nodes) {order : List Nat}
    (h : waveOrder nodes = .ok order) : Ordering nodes order := by
  unfold waveOrder at h
  simp only at h
  split at h
  · rename_i full
    cases h
    have turns := turns_counts arena
    have all : ∀ node, node ∈ (Choreo.turns (dependents nodes) (counts nodes)).1 ↔
        node < nodes.length := by
      refine fun node => ⟨turns.inside node, fun inside => ?_⟩
      have range : (Choreo.turns (dependents nodes) (counts nodes)).1.Subperm
          (List.range nodes.length) :=
        List.Nodup.subperm turns.nodup fun n hn => List.mem_range.2 (turns.inside n hn)
      have perm := range.perm_of_length_le (by simp [full])
      exact perm.mem_iff.2 (List.mem_range.2 inside)
    refine ⟨turns.nodup, all, fun node p hp => ?_⟩
    have inside := (arena.lt_of_prerequisite hp).2
    rcases turns.after node ((all node).2 inside) p hp with none | ⟨-, less⟩
    · cases none
    · exact less
  · cases h

/-- Nodes that do not wait for one another in a circle have an order of start. -/
theorem waveOrder_isOk {nodes : List Node} (arena : Arena nodes)
    (acyclic : WellFounded fun p node => p ∈ prerequisites nodes node) :
    ∃ order, waveOrder nodes = .ok order := by
  have turns := turns_counts arena
  have all : ∀ node, node < nodes.length →
      node ∈ (Choreo.turns (dependents nodes) (counts nodes)).1 := by
    intro node
    induction node using acyclic.induction with
    | _ node ih =>
      intro inside
      refine (turns.complete node inside fun p hp => .inr ?_).resolve_left (by simp)
      exact ih p hp (arena.lt_of_prerequisite hp).1
  have perm : (Choreo.turns (dependents nodes) (counts nodes)).1.Perm
      (List.range nodes.length) := by
    rw [List.perm_ext_iff_of_nodup turns.nodup List.nodup_range]
    exact fun node => ⟨fun h => List.mem_range.2 (turns.inside node h),
      fun h => all node (List.mem_range.1 h)⟩
  have full := perm.length_eq
  rw [List.length_range] at full
  exact ⟨_, if_pos full⟩

end Graph

end Choreo
