import Mathlib.Data.Nat.Find
import Choreo.Proofs.Graph.Cycles

/-!
# How deep a node lies

The waves count the chains of dependencies. Before wave `w` the nodes that had their turn are those
in which no chain of `w` dependencies ends, so the nodes of the wave are those whose longest chain
has length `w`. The order of start is therefore sorted by the length of the longest chain and, where
this is the same, by the order of creation.
-/

namespace Choreo

namespace Graph

/-- A chain of so many dependencies ends in the node. -/
def Chain (nodes : List Node) : Nat → Nat → Prop
  | 0, _ => True
  | length + 1, node => ∃ p ∈ prerequisites nodes node, Chain nodes length p

instance decidableChain (nodes : List Node) : ∀ length node, Decidable (Chain nodes length node)
  | 0, _ => .isTrue trivial
  | length + 1, node =>
    have := decidableChain nodes length
    inferInstanceAs (Decidable (∃ p ∈ prerequisites nodes node, Chain nodes length p))

/-- The length of the longest chain of dependencies that ends in the node. A chain that passes no
node twice has fewer dependencies than there are nodes. -/
def depth (nodes : List Node) (node : Nat) : Nat :=
  Nat.findGreatest (fun length => Chain nodes length node) nodes.length

/-- The longest chains that end in the node have this length. -/
def Height (nodes : List Node) (node height : Nat) : Prop :=
  Chain nodes height node ∧ ¬ Chain nodes (height + 1) node

/-- The order of start: by the length of the longest chains, then by creation. -/
def Earlier (nodes : List Node) (a b : Nat) : Prop :=
  depth nodes a < depth nodes b ∨ depth nodes a = depth nodes b ∧ a < b

variable {nodes : List Node}

theorem Chain.shorten {length node : Nat} (chain : Chain nodes (length + 1) node) :
    Chain nodes length node := by
  induction length generalizing node with
  | zero => trivial
  | succ length ih =>
    obtain ⟨p, waits, rest⟩ := chain
    exact ⟨p, waits, ih rest⟩

theorem Chain.mono {shorter length node : Nat} (chain : Chain nodes length node)
    (le : shorter ≤ length) : Chain nodes shorter node := by
  induction le with
  | refl => exact chain
  | step _ ih => exact ih chain.shorten

theorem Chain.le_idxOf {order : List Nat} (turned : Turns nodes [] order) {length node : Nat}
    (chain : Chain nodes length node) (member : node ∈ order) : length ≤ order.idxOf node := by
  induction length generalizing node with
  | zero => omega
  | succ length ih =>
    obtain ⟨p, waits, rest⟩ := chain
    obtain ⟨listed, earlier⟩ := (turned.after node member p waits).resolve_left (by simp)
    have before := ih rest listed
    omega

theorem Chain.lt_length {length node : Nat} (arena : Arena nodes) (chain : Chain nodes length node)
    (member : node ∈ (turns (dependents nodes) (counts nodes)).1) : length < nodes.length := by
  have turned := turns_counts arena
  have size := (turned.nodup.subperm fun node listed =>
    List.mem_range.2 (turned.inside node listed)).length_le
  have place := List.idxOf_lt_length_of_mem member
  have before := chain.le_idxOf turned member
  rw [List.length_range] at size
  omega

theorem Height.unique {node v w : Nat} (hv : Height nodes node v) (hw : Height nodes node w) :
    v = w := by
  rcases Nat.lt_trichotomy v w with less | same | less
  · exact absurd (hw.1.mono less) hv.2
  · exact same
  · exact absurd (hv.1.mono less) hw.2

/-- The depth of a node that has its turn is the length of the longest chains that end in it. -/
theorem height_depth (arena : Arena nodes) {node : Nat}
    (member : node ∈ (turns (dependents nodes) (counts nodes)).1) :
    Height nodes node (depth nodes node) := by
  refine ⟨Nat.findGreatest_spec (P := fun length => Chain nodes length node) (Nat.zero_le _)
    trivial, fun longer => ?_⟩
  have inside := longer.lt_length arena member
  exact absurd (Nat.le_findGreatest (P := fun length => Chain nodes length node) inside.le longer)
    (Nat.not_succ_le_self _)

section Layers

variable {past wave : List Nat} {level : Nat}

/-- Before a wave those have had their turn that end no chain of as many dependencies as there were
waves. -/
def Layered (nodes : List Node) (past : List Nat) (level : Nat) : Prop :=
  ∀ node, node ∈ past ↔ node < nodes.length ∧ ¬ Chain nodes level node

theorem layered_nil : Layered nodes [] 0 := by
  intro node
  simp [Chain]

theorem Layered.next (layered : Layered nodes past level) (arena : Arena nodes)
    (stage : Stage nodes past wave) : Layered nodes (past ++ wave) (level + 1) := by
  intro node
  rw [List.mem_append, stage.turned]
  refine and_congr_right fun _ => ?_
  constructor
  · rintro all ⟨p, waits, chain⟩
    exact ((layered p).1 (all p waits)).2 chain
  · intro short p waits
    exact (layered p).2 ⟨(arena.lt_of_prerequisite waits).1, fun chain => short ⟨p, waits, chain⟩⟩

/-- A wave is the nodes whose longest chains are as long as there were waves before it. -/
theorem Layered.height (layered : Layered nodes past level) (arena : Arena nodes)
    (stage : Stage nodes past wave) {node : Nat} (now : node ∈ wave) : Height nodes node level := by
  obtain ⟨inside, short⟩ := (layered.next arena stage node).1 (List.mem_append_right _ now)
  refine ⟨?_, short⟩
  by_contra shorter
  exact stage.fresh node now ((layered node).2 ⟨inside, shorter⟩)

/-- One node lies below another one, or beside it and was created earlier. -/
def Below (nodes : List Node) (a b : Nat) : Prop :=
  ∃ v w, Height nodes a v ∧ Height nodes b w ∧ (v < w ∨ v = w ∧ a < b)

theorem Layered.pairwise_below (layered : Layered nodes past level) (arena : Arena nodes)
    (stage : Stage nodes past wave) (ascending : wave.Pairwise (· < ·)) :
    wave.Pairwise (Below nodes) :=
  ascending.imp_of_mem fun ha hb less =>
    ⟨level, level, layered.height arena stage ha, layered.height arena stage hb, .inr ⟨rfl, less⟩⟩

theorem ascending_mergeSort {places : List Nat} (h : places.Nodup) :
    (places.mergeSort fun a b => decide (a ≤ b)).Pairwise (· < ·) := by
  have weak := @List.pairwise_mergeSort _ (fun a b : Nat => decide (a ≤ b))
    (by simp only [decide_eq_true_eq]; omega)
    (by simp only [Bool.or_eq_true, decide_eq_true_eq]; omega) places
  refine (weak.and ((List.mergeSort_perm _ _).nodup_iff.2 h)).imp fun ⟨le, ne⟩ => ?_
  rw [decide_eq_true_eq] at le
  omega

theorem below_waves (arena : Arena nodes) {counts : List Nat} (stage : Stage nodes past wave)
    (h : counts = countsAfter nodes past) (layered : Layered nodes past level)
    (ascending : wave.Pairwise (· < ·)) :
    (waves (dependents nodes) wave counts).1.Pairwise (Below nodes) ∧
      ∀ node ∈ (waves (dependents nodes) wave counts).1, ∃ v ≥ level, Height nodes node v := by
  induction wave, counts using waves.induct (dependents nodes) generalizing past level with
  | case1 wave counts turn =>
    rename_i last
    rw [waves, dif_pos last]
    exact ⟨layered.pairwise_below arena stage ascending,
      fun node now => ⟨level, Nat.le_refl _, layered.height arena stage now⟩⟩
  | case2 wave counts turn more =>
    rename_i ih
    subst h
    rw [waves, dif_neg more]
    have next := stage_next arena stage (List.mergeSort_perm turn.2 fun a b => decide (a ≤ b))
    obtain ⟨pairwise, heights⟩ := ih next (countsAfter_wave arena stage) (layered.next arena stage)
      (ascending_mergeSort (nodup_discharge _ _))
    refine ⟨List.pairwise_append.2 ⟨layered.pairwise_below arena stage ascending, pairwise,
      fun a ha b hb => ?_⟩, fun node member => ?_⟩
    · obtain ⟨w, above, hw⟩ := heights b hb
      exact ⟨level, w, layered.height arena stage ha, hw, .inl above⟩
    · rcases List.mem_append.1 member with now | later
      · exact ⟨level, Nat.le_refl _, layered.height arena stage now⟩
      · obtain ⟨w, above, hw⟩ := heights node later
        exact ⟨w, by omega, hw⟩

end Layers

theorem pairwise_placesWhere (test : Nat → Bool) (counts : List Nat) :
    (placesWhere test counts).Pairwise (· < ·) := List.pairwise_lt_range.filter _

theorem earlier_turns (arena : Arena nodes) :
    (turns (dependents nodes) (counts nodes)).1.Pairwise (Earlier nodes) := by
  have below := (below_waves arena (stage_first nodes) (counts_eq nodes) layered_nil
    (pairwise_placesWhere _ _)).1
  refine below.imp_of_mem fun {a b} ha hb => ?_
  rintro ⟨v, w, hv, hw, order⟩
  have da := hv.unique (height_depth arena ha)
  have db := hw.unique (height_depth arena hb)
  subst da db
  exact order

theorem turns_of_waveOrder {order : List Nat} (h : waveOrder nodes = .ok order) :
    (turns (dependents nodes) (counts nodes)).1 = order := by
  unfold waveOrder at h
  simp only at h
  split at h
  · exact Except.ok.inj h
  · cases h

theorem earlier_waveOrder (arena : Arena nodes) {order : List Nat}
    (h : waveOrder nodes = .ok order) :
    order.Pairwise (Earlier nodes) := turns_of_waveOrder h ▸ earlier_turns arena

/-- In a graph without cycles the depth of a node is the length of its longest chains. -/
theorem height_of_waveOrder (arena : Arena nodes) {order : List Nat}
    (h : waveOrder nodes = .ok order) {node : Nat} (inside : node < nodes.length) :
    Height nodes node (depth nodes node) := by
  apply height_depth arena
  rw [turns_of_waveOrder h]
  exact ((ordering_of_waveOrder arena h).mem_iff node).2 inside

theorem height_of_acyclic (arena : Arena nodes) (acyclic : Acyclic nodes) {node : Nat}
    (inside : node < nodes.length) : Height nodes node (depth nodes node) := by
  obtain ⟨order, found⟩ := (waveOrder_isOk_iff arena).2 acyclic
  exact height_of_waveOrder arena found inside

theorem depth_lt_of_waits (arena : Arena nodes) (acyclic : Acyclic nodes) {p node : Nat}
    (waits : Waits nodes p node) : depth nodes p < depth nodes node := by
  have inside := arena.lt_of_prerequisite waits
  have before := (height_of_acyclic arena acyclic inside.1).1
  have own := (height_of_acyclic arena acyclic inside.2).2
  by_contra above
  have longer : Chain nodes (depth nodes p + 1) node := ⟨p, waits, before⟩
  exact own (longer.mono (by omega))

theorem depth_le_of_waits (arena : Arena nodes) (acyclic : Acyclic nodes) {node bound : Nat}
    (inside : node < nodes.length) (above : ∀ p, Waits nodes p node → depth nodes p < bound) :
    depth nodes node ≤ bound := by
  have chain := (height_of_acyclic arena acyclic inside).1
  cases own : depth nodes node with
  | zero => omega
  | succ length =>
    rw [own] at chain
    obtain ⟨p, waits, rest⟩ := chain
    have short := (height_of_acyclic arena acyclic (arena.lt_of_prerequisite waits).1).2
    have within : length ≤ depth nodes p := by
      by_contra longer
      exact short (rest.mono (by omega))
    have less := above p waits
    omega

end Graph

end Choreo
