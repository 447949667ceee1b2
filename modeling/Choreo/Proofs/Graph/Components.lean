import Mathlib.Data.List.Dedup
import Mathlib.Data.List.Flatten
import Mathlib.Data.List.Sort
import Choreo.Proofs.Graph.WaveSort

/-!
# Which nodes are reported

The nodes that lie on a cycle can also be found from the strongly connected components of the part
of the graph that remains without a turn: they make up the components that have more than one node
or an edge from a node to itself. No cycle is lost with the edges that are left out, because all
that a walk reaches from a cycle remains as well. So whoever lists the components, the nodes come
out that are reported, and there is always one.
-/

namespace Choreo

/-- One vertex has an edge to another one. -/
def Joined (edges : List (Nat × Nat)) (u v : Nat) : Prop := (u, v) ∈ edges

/-- A list of the strongly connected components: each vertex is in one of them, together with the
vertices from which walks lead to it and back. -/
structure Components (vertices : List Nat) (edges : List (Nat × Nat))
    (parts : List (List Nat)) : Prop where
  perm : parts.flatten.Perm vertices
  both : ∀ part ∈ parts, ∀ u ∈ part, ∀ v ∈ vertices, v ∈ part ↔
    Relation.ReflTransGen (Joined edges) u v ∧ Relation.ReflTransGen (Joined edges) v u

/-- Whether a component has more than one vertex, or its vertex has an edge to itself. -/
def loops (edges : List (Nat × Nat)) (part : List Nat) : Bool :=
  1 < part.length || part.head?.any fun v => edges.contains (v, v)

theorem Components.mem_loops {vertices : List Nat} {edges : List (Nat × Nat)}
    {parts : List (List Nat)} (components : Components vertices edges parts)
    (nodup : vertices.Nodup) (inside : ∀ edge ∈ edges, edge.2 ∈ vertices) {v : Nat}
    (member : v ∈ vertices) :
    v ∈ (parts.filter (loops edges)).flatten ↔ Relation.TransGen (Joined edges) v v := by
  have distinct : ∀ part ∈ parts, part.Nodup :=
    (List.nodup_flatten.1 (components.perm.nodup_iff.2 nodup)).1
  constructor
  · intro listed
    obtain ⟨part, chosen, hv⟩ := List.mem_flatten.1 listed
    obtain ⟨hpart, circular⟩ := List.mem_filter.1 chosen
    have apart := distinct part hpart
    match part with
    | [only] =>
      obtain rfl := List.mem_singleton.1 hv
      exact .single (by simpa [loops, Joined] using circular)
    | first :: second :: rest =>
      obtain ⟨other, hother, ne⟩ : ∃ other ∈ first :: second :: rest, other ≠ v := by
        by_contra all
        push Not at all
        have one := all first (by simp)
        have two := all second (by simp)
        rw [List.nodup_cons] at apart
        exact apart.1 (by simp [one, two])
      have there := components.perm.mem_iff.1 (List.mem_flatten.2 ⟨_, hpart, hother⟩)
      obtain ⟨onward, back⟩ := (components.both _ hpart v hv other there).1 hother
      rcases Relation.reflTransGen_iff_eq_or_transGen.1 onward with same | onward
      · exact absurd same ne
      · exact onward.trans_left back
  · intro cycle
    obtain ⟨part, hpart, hv⟩ := List.mem_flatten.1 (components.perm.mem_iff.2 member)
    refine List.mem_flatten.2 ⟨part, List.mem_filter.2 ⟨hpart, ?_⟩, hv⟩
    obtain ⟨next, step, back⟩ := Relation.TransGen.head'_iff.1 cycle
    have hnext : next ∈ part :=
      (components.both part hpart v hv next (inside _ step)).2 ⟨.single step, back⟩
    match part with
    | [only] =>
      obtain rfl := List.mem_singleton.1 hv
      obtain rfl := List.mem_singleton.1 hnext
      simpa [loops, Joined] using step
    | first :: second :: rest => simp [loops]

/-- The strongly connected components, worked out from what can be reached. -/
def strongParts (vertices : List Nat) (edges : List (Nat × Nat)) : List (List Nat) :=
  let reach := (Digraph.mk (edges.foldr (fun edge size => max (edge.1 + 1) size) 0) edges).reach
  let belongs (u v : Nat) : Bool := u == v || reach.leads u v && reach.leads v u
  (vertices.map fun u => vertices.filter (belongs u)).dedup

theorem bounded_foldr_max (edges : List (Nat × Nat)) :
    (Digraph.mk (edges.foldr (fun edge size => max (edge.1 + 1) size) 0) edges).Bounded := by
  intro edge listed
  simp only at listed ⊢
  induction edges with
  | nil => cases listed
  | cons first edges ih =>
    rcases List.mem_cons.1 listed with rfl | later
    · exact Nat.lt_of_lt_of_le (Nat.lt_succ_self _) (Nat.le_max_left _ _)
    · exact Nat.lt_of_lt_of_le (ih later) (Nat.le_max_right _ _)

theorem classes_spec {belongs : Nat → Nat → Bool} {R : Nat → Nat → Prop}
    (decides : ∀ u v, belongs u v = true ↔ R u v) (equivalence : Equivalence R)
    {vertices : List Nat} (nodup : vertices.Nodup) :
    let parts := (vertices.map fun u => vertices.filter (belongs u)).dedup
    parts.flatten.Perm vertices ∧
      ∀ part ∈ parts, ∀ u ∈ part, ∀ v ∈ vertices, v ∈ part ↔ R u v := by
  intro parts
  have mem_parts : ∀ part, part ∈ parts ↔ ∃ w ∈ vertices, vertices.filter (belongs w) = part := by
    intro part
    rw [List.mem_dedup, List.mem_map]
  have classed : ∀ part ∈ parts, ∀ u ∈ part, ∀ v ∈ vertices, v ∈ part ↔ R u v := by
    intro part member u hu v hv
    obtain ⟨w, -, rfl⟩ := (mem_parts part).1 member
    rw [List.mem_filter, decides] at hu ⊢
    exact ⟨fun h => equivalence.trans (equivalence.symm hu.2) h.2,
      fun h => ⟨hv, equivalence.trans hu.2 h⟩⟩
  have inside : ∀ part ∈ parts, ∀ u ∈ part, u ∈ vertices := by
    intro part member u hu
    obtain ⟨w, -, rfl⟩ := (mem_parts part).1 member
    exact (List.mem_filter.1 hu).1
  refine ⟨?_, classed⟩
  have apart : parts.Pairwise List.Disjoint := by
    refine (List.nodup_dedup _).imp_of_mem fun {one two} hone htwo ne u hu hu' => ne ?_
    obtain ⟨v, -, rfl⟩ := (mem_parts one).1 hone
    obtain ⟨w, -, rfl⟩ := (mem_parts two).1 htwo
    refine List.filter_congr fun x hx => Bool.eq_iff_iff.2 ?_
    have first := classed _ hone u hu x hx
    have second := classed _ htwo u hu' x hx
    simp only [List.mem_filter, hx, true_and] at first second
    rw [first, second]
  have each : ∀ part ∈ parts, part.Nodup := by
    intro part member
    obtain ⟨w, -, rfl⟩ := (mem_parts part).1 member
    exact nodup.filter _
  rw [List.perm_ext_iff_of_nodup (List.nodup_flatten.2 ⟨each, apart⟩) nodup]
  intro u
  rw [List.mem_flatten]
  constructor
  · rintro ⟨part, member, hu⟩
    exact inside part member u hu
  · intro hu
    exact ⟨_, (mem_parts _).2 ⟨u, hu, rfl⟩,
      List.mem_filter.2 ⟨hu, (decides u u).2 (equivalence.refl u)⟩⟩

theorem components_strongParts {vertices : List Nat} (nodup : vertices.Nodup)
    (edges : List (Nat × Nat)) :
    Components vertices edges (strongParts vertices edges) := by
  let R : Nat → Nat → Prop := fun u v =>
    Relation.ReflTransGen (Joined edges) u v ∧ Relation.ReflTransGen (Joined edges) v u
  have equivalence : Equivalence R :=
    ⟨fun _ => ⟨.refl, .refl⟩, And.symm, fun one two => ⟨one.1.trans two.1, two.2.trans one.2⟩⟩
  let reach := (Digraph.mk (edges.foldr (fun edge size => max (edge.1 + 1) size) 0) edges).reach
  have decides : ∀ u v, (u == v || reach.leads u v && reach.leads v u) = true ↔ R u v := by
    intro u v
    rw [Bool.or_eq_true, Bool.and_eq_true, beq_iff_eq,
      Digraph.leads_reach (bounded_foldr_max edges), Digraph.leads_reach (bounded_foldr_max edges)]
    simp only [R, Relation.reflTransGen_iff_eq_or_transGen]
    constructor
    · rintro (rfl | ⟨onward, back⟩)
      · exact ⟨.inl rfl, .inl rfl⟩
      · exact ⟨.inr onward, .inr back⟩
    · rintro ⟨rfl | onward, back⟩
      · exact .inl rfl
      · rcases back with rfl | back
        · exact .inl rfl
        · exact .inr ⟨onward, back⟩
  obtain ⟨perm, both⟩ := classes_spec decides equivalence nodup
  exact ⟨perm, both⟩

namespace Graph

/-- The edges between these nodes, each from a node to one that waits for it. -/
def edgesAmong (nodes : List Node) (places : List Nat) : List (Nat × Nat) :=
  places.flatMap fun node =>
    (((nodes[node]?.map Node.dependencies).getD []).filter (·.node ∈ places)).map fun d =>
      (d.node, node)

/-- The nodes of those components of what remains that are cycles or have one. -/
def looped (components : List Nat → List (Nat × Nat) → List (List Nat)) (nodes : List Node)
    (remainder : List Nat) : List Nat :=
  let edges := edgesAmong nodes remainder
  ((components remainder edges).filter (loops edges)).flatten

/-- The nodes that are reported, found from the components of what remains. -/
def membersByComponents (components : List Nat → List (Nat × Nat) → List (List Nat))
    (nodes : List Node) (remainder : List Nat) : List Nat :=
  let members := looped components nodes remainder
  (if members.isEmpty then remainder else members).mergeSort fun a b => decide (a ≤ b)

variable {nodes : List Node}

theorem joined_edgesAmong {places : List Nat} {u v : Nat} :
    Joined (edgesAmong nodes places) u v ↔ Waits nodes u v ∧ u ∈ places ∧ v ∈ places := by
  simp only [Joined, edgesAmong, Waits, mem_prerequisites, List.mem_flatMap, List.mem_map,
    List.mem_filter, decide_eq_true_eq]
  constructor
  · rintro ⟨node, here, d, ⟨waits, there⟩, same⟩
    obtain ⟨rfl, rfl⟩ := Prod.mk.inj same
    cases found : nodes[node]? with
    | none => simp [found] at waits
    | some waiting => exact ⟨⟨waiting, rfl, d, by simpa [found] using waits, rfl⟩, there, here⟩
  · rintro ⟨⟨waiting, found, d, waits, rfl⟩, there, here⟩
    exact ⟨v, here, d, ⟨by simpa [found] using waits, there⟩, rfl⟩

/-- The nodes that lie on a cycle, in the order of creation. -/
def circle (nodes : List Node) : List Nat :=
  (List.range nodes.length).filter (awaited nodes).onCycle

theorem mem_circle (arena : Arena nodes) {node : Nat} :
    node ∈ circle nodes ↔ Relation.TransGen (Waits nodes) node node := by
  rw [circle, List.mem_filter, List.mem_range, onCycle_awaited]
  exact ⟨And.right, fun cycle => ⟨lt_length_of_cycle arena cycle, cycle⟩⟩

theorem circle_ne_nil (arena : Arena nodes) (cyclic : ¬ Acyclic nodes) : circle nodes ≠ [] := by
  simp only [Acyclic, not_forall, not_not] at cyclic
  obtain ⟨node, cycle⟩ := cyclic
  exact List.ne_nil_of_mem ((mem_circle arena).2 cycle)

theorem cyclic_of_waveOrder (arena : Arena nodes) {remainder : List Nat}
    (h : waveOrder nodes = .error remainder) : ¬ Acyclic nodes := by
  rw [← waveOrder_isOk_iff arena, h]
  simp

theorem cycleMembers_eq (arena : Arena nodes) {remainder : List Nat}
    (h : waveOrder nodes = .error remainder) :
    remainder.filter (awaited nodes).onCycle = circle nodes ∧
      cycleMembers nodes remainder = circle nodes := by
  have same : remainder.filter (awaited nodes).onCycle = circle nodes := by
    refine List.Pairwise.eq_of_mem_iff ((ascending_remainder h).filter _)
      (List.pairwise_lt_range.filter _) fun node => ?_
    rw [List.mem_filter, onCycle_awaited, mem_refused_iff arena h]
    refine Iff.trans ?_ (mem_circle arena).symm
    exact ⟨And.right, fun cycle => ⟨⟨node, cycle, .refl⟩, cycle⟩⟩
  have found := circle_ne_nil arena (cyclic_of_waveOrder arena h)
  refine ⟨same, ?_⟩
  simp only [cycleMembers, same, List.isEmpty_iff, found, ↓reduceIte]

theorem transGen_edgesAmong (arena : Arena nodes) {remainder : List Nat}
    (h : waveOrder nodes = .error remainder) {u v : Nat} (below : Downstream nodes u)
    (walk : Relation.TransGen (Waits nodes) u v) :
    Downstream nodes v ∧ Relation.TransGen (Joined (edgesAmong nodes remainder)) u v := by
  have edge : ∀ {p node}, Downstream nodes p → Waits nodes p node →
      Joined (edgesAmong nodes remainder) p node := fun remains waits =>
    joined_edgesAmong.2 ⟨waits, (mem_refused_iff arena h).2 remains,
      (mem_refused_iff arena h).2 (remains.onward waits)⟩
  induction walk with
  | single step => exact ⟨below.onward step, .single (edge below step)⟩
  | tail _ step ih => exact ⟨ih.1.onward step, ih.2.tail (edge ih.1 step)⟩

theorem mem_looped (arena : Arena nodes) {remainder : List Nat}
    (h : waveOrder nodes = .error remainder)
    {components : List Nat → List (Nat × Nat) → List (List Nat)}
    (lists : Components remainder (edgesAmong nodes remainder)
      (components remainder (edgesAmong nodes remainder))) {node : Nat} :
    node ∈ looped components nodes remainder ↔ Relation.TransGen (Waits nodes) node node := by
  have nodup : remainder.Nodup := (ascending_remainder h).imp Nat.ne_of_lt
  have inside : ∀ edge ∈ edgesAmong nodes remainder, edge.2 ∈ remainder := fun edge listed =>
    (joined_edgesAmong.1 listed).2.2
  constructor
  · intro listed
    have member := lists.perm.mem_iff.1 (List.filter_sublist.flatten.subset listed)
    have waits : Joined (edgesAmong nodes remainder) ≤ Waits nodes := fun _ _ edge =>
      (joined_edgesAmong.1 edge).1
    exact Relation.TransGen.mono waits _ _ ((lists.mem_loops nodup inside member).1 listed)
  · intro cycle
    have below : Downstream nodes node := ⟨node, cycle, .refl⟩
    exact (lists.mem_loops nodup inside ((mem_refused_iff arena h).2 below)).2
      (transGen_edgesAmong arena h below cycle).2

theorem membersByComponents_eq (arena : Arena nodes) {remainder : List Nat}
    (h : waveOrder nodes = .error remainder)
    {components : List Nat → List (Nat × Nat) → List (List Nat)}
    (lists : Components remainder (edgesAmong nodes remainder)
      (components remainder (edgesAmong nodes remainder))) :
    looped components nodes remainder ≠ [] ∧
      membersByComponents components nodes remainder = circle nodes := by
  have nodup : remainder.Nodup := (ascending_remainder h).imp Nat.ne_of_lt
  have found : looped components nodes remainder ≠ [] := by
    obtain ⟨node, member⟩ := List.exists_mem_of_ne_nil _
      (circle_ne_nil arena (cyclic_of_waveOrder arena h))
    exact List.ne_nil_of_mem ((mem_looped arena h lists).2 ((mem_circle arena).1 member))
  have distinct : (looped components nodes remainder).Nodup :=
    (lists.perm.nodup_iff.2 nodup).sublist List.filter_sublist.flatten
  refine ⟨found, ?_⟩
  rw [membersByComponents, if_neg (by simpa using found)]
  refine List.Pairwise.eq_of_mem_iff (ascending_mergeSort distinct)
    (List.pairwise_lt_range.filter _) fun node => ?_
  rw [List.mem_mergeSort, mem_looped arena h lists]
  exact (mem_circle arena).symm

theorem Sound.sorted_of_circle {graph : Graph} (sound : graph.Sound)
    (cyclic : ¬ Acyclic graph.nodes) :
    graph.sorted = (.error ⟨graph.units (circle graph.nodes)⟩, graph) := by
  cases refused : waveOrder graph.nodes with
  | ok order => exact absurd ((waveOrder_isOk_iff sound.arena).1 ⟨order, refused⟩) cyclic
  | error remainder =>
    have unknown : graph.order = none := by
      cases known : graph.order with
      | none => rfl
      | some order =>
        rw [sound.cached order known] at refused
        cases refused
    simp only [Graph.sorted, unknown, refused, (cycleMembers_eq sound.arena refused).2]

end Graph

end Choreo
