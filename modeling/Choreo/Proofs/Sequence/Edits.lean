import Choreo.Proofs.Graph.Edits
import Choreo.Sequence

/-!
# Editing a sequence

Relating units only lets a sequence grow: nodes come after the nodes that are there, timers after
the units that are there, and of the conductor nothing but the graph is concerned. In the graph are
only units of the sequence itself.
-/

namespace Choreo

namespace Registry

variable {U : Type}

theorem contains_iff {registry : Registry U} {id : UnitId} :
    registry.contains id = true ↔ ∃ unit, registry.get? id = some unit := by
  rw [contains, get?]
  cases registry.slot? id <;> simp

/-- A unit that is entered comes after those that are there. -/
theorem get?_push (registry : Registry U) (slot : Slot U) (id : UnitId) :
    ({ registry with slots := registry.slots.push slot } : Registry U).get? id =
      if id = registry.nextId then some slot.unit else registry.get? id := by
  obtain ⟨owner, index⟩ := id
  simp only [get?, slot?, nextId, UnitId.mk.injEq, Array.getElem?_push]
  by_cases own : owner = registry.owner <;> by_cases last : index = registry.slots.size <;>
    simp [own, last]

theorem get?_nextId (registry : Registry U) : registry.get? registry.nextId = none := by
  simp [get?, slot?, nextId]

theorem get?_update {registry : Registry U} {id : UnitId} {old : U}
    (known : registry.get? id = some old) (unit : U) (other : UnitId) :
    (registry.update id unit).get? other = if other = id then some unit
      else registry.get? other := by
  obtain ⟨slot, found, -⟩ := Option.map_eq_some_iff.1 known
  rw [slot?] at found
  split at found
  · rename_i owned
    simp only [get?, slot?, update, Array.getElem?_modify]
    by_cases same : other = id
    · simp [same, owned, found]
    · by_cases mine : other.owner = registry.owner
      · have apart : id.index ≠ other.index := fun index =>
          same (by cases other; cases id; simp_all)
        simp [same, mine, apart]
      · simp [same, mine]
  · cases found

theorem contains_update {registry : Registry U} {id : UnitId} {old : U}
    (known : registry.get? id = some old) (unit : U) (other : UnitId) :
    (registry.update id unit).contains other = registry.contains other := by
  apply Bool.eq_iff_iff.2
  rw [contains_iff, contains_iff, get?_update known]
  by_cases same : other = id
  · subst same
    simp [known]
  · simp [same]

end Registry

namespace Sequence

variable {U : Type}

section

variable (timer : Span → U) (sequence : Sequence U)

variable {sequence} in
theorem registry_resolve {unit : UnitId} {node : Nat}
    {placed : Sequence U} (found : sequence.resolve unit = some (node, placed)) :
    placed.registry = sequence.registry := by
  rw [resolve] at found
  split at found
  · cases found
    rfl
  · cases found

theorem registry_play (unit : Option UnitId) :
    (sequence.play unit).2.registry = sequence.registry := by
  rw [play]
  split
  · rename_i node placed found
    obtain ⟨id, -, resolved⟩ := Option.bind_eq_some_iff.1 found
    have same := registry_resolve resolved
    exact same
  · rfl

/-- Only a delay brings a unit into the register. -/
theorem registry_relate {link : Link} (plain : ∀ delay, link ≠ .afterDelay delay)
    (cursor : Cursor) :
    (relate timer link cursor sequence).2.registry = sequence.registry := by
  unfold relate
  split
  · rfl
  · cases link with
    | afterDelay delay => exact absurd rfl (plain delay)
    | together other | before other | after other =>
      dsimp only
      cases found : sequence.resolve other with
      | none => rfl
      | some placed =>
        have same := registry_resolve found
        exact same

theorem registry_relateAll {links : List Link}
    (plain : ∀ link ∈ links, ∀ delay, link ≠ .afterDelay delay) (cursor : Cursor) :
    (relateAll timer links cursor sequence).2.registry = sequence.registry := by
  induction links generalizing cursor sequence with
  | nil => rfl
  | cons link links ih =>
    have first := registry_relate timer sequence (plain link (List.mem_cons_self ..)) cursor
    have rest := ih (relate timer link cursor sequence).2
      (fun other member => plain other (List.mem_cons_of_mem _ member))
      (relate timer link cursor sequence).1
    exact rest.trans first

theorem registry_playWith (unit : Option UnitId) {links : List Link}
    (plain : ∀ link ∈ links, ∀ delay, link ≠ .afterDelay delay) :
    (sequence.playWith timer unit links).registry = sequence.registry :=
  (registry_relateAll timer _ plain _).trans (registry_play sequence unit)

theorem registry_playTogether (units : List UnitId) :
    (sequence.playTogether timer units).registry = sequence.registry := by
  cases units with
  | nil => rfl
  | cons first rest => exact registry_playWith timer sequence _ (by simp)

theorem registry_playPairs (units : List UnitId) :
    (playPairs timer units sequence).registry = sequence.registry := by
  induction units generalizing sequence with
  | nil => rfl
  | cons first rest ih =>
    cases rest with
    | nil => rfl
    | cons second rest => exact (ih _).trans (registry_playWith timer sequence _ (by simp))

theorem registry_playSequentially (units : List UnitId) :
    (sequence.playSequentially timer units).registry = sequence.registry := by
  unfold playSequentially
  split
  · exact registry_play sequence _
  · exact registry_playPairs timer sequence units

end

variable {timer : Span → U}

/-- The graph of a sequence is sound, and its nodes are units of the sequence. -/
structure Grounded (sequence : Sequence U) : Prop where
  sound : sequence.graph.Sound
  registered : ∀ unit ∈ sequence.graph.nodes.map Node.unit, sequence.registry.contains unit = true

/-- What relating units may change of a sequence. -/
structure Extended (timer : Span → U) (before after : Sequence U) : Prop where
  conductor : after.conductor = { before.conductor with graph := after.graph }
  queue : after.queue = before.queue
  owner : after.registry.owner = before.registry.owner
  edited : ∃ changes : List Edit, after.graph = changes.foldl Graph.edit before.graph
  kept : ∀ id unit, before.registry.get? id = some unit → after.registry.get? id = some unit
  made : ∀ id unit, after.registry.get? id = some unit → before.registry.get? id = some unit ∨
    before.registry.get? id = none ∧ ∃ delay, unit = timer delay

namespace Extended

variable {first second third : Sequence U}

theorem refl (sequence : Sequence U) : Extended timer sequence sequence :=
  ⟨rfl, rfl, rfl, ⟨[], rfl⟩, fun _ _ h => h, fun _ _ => .inl⟩

theorem trans (one : Extended timer first second) (two : Extended timer second third) :
    Extended timer first third := by
  refine ⟨?_, two.queue.trans one.queue, two.owner.trans one.owner, ?_,
    fun id unit h => two.kept id unit (one.kept id unit h), fun id unit h => ?_⟩
  · rw [two.conductor, one.conductor]
  · obtain ⟨changes, same⟩ := one.edited
    obtain ⟨more, same'⟩ := two.edited
    exact ⟨changes ++ more, by rw [same', same, List.foldl_append]⟩
  · rcases two.made id unit h with earlier | ⟨absent, late⟩
    · exact one.made id unit earlier
    · refine .inr ⟨?_, late⟩
      rw [Option.eq_none_iff_forall_ne_some]
      intro other present
      rw [one.kept id other present] at absent
      cases absent

theorem units (h : Extended timer first second) :
    first.graph.nodes.map Node.unit <+: second.graph.nodes.map Node.unit := by
  obtain ⟨changes, same⟩ := h.edited
  rw [same]
  exact (first.graph.extends_edits changes).units

end Extended

theorem extended_withGraph (sequence : Sequence U) (change : Edit) :
    Extended timer sequence (sequence.withGraph (sequence.graph.edit change)) :=
  ⟨rfl, rfl, rfl, ⟨[change], rfl⟩, fun _ _ h => h, fun _ _ => .inl⟩

/-- The sequence with one more unit, which comes last. -/
def engage (slot : Slot U) (sequence : Sequence U) : Sequence U :=
  { sequence with
    registry := { sequence.registry with slots := sequence.registry.slots.push slot } }

theorem get?_engage (sequence : Sequence U) (slot : Slot U) (id : UnitId) :
    (sequence.engage slot).registry.get? id =
      if id = sequence.registry.nextId then some slot.unit else sequence.registry.get? id :=
  sequence.registry.get?_push slot id

theorem extended_engage (sequence : Sequence U) (label : String) (delay : Span) :
    Extended timer sequence (sequence.engage ⟨label, true, timer delay⟩) := by
  refine ⟨rfl, rfl, rfl, ⟨[], rfl⟩, fun id unit known => ?_, fun id unit known => ?_⟩
  · have apart : id ≠ sequence.registry.nextId := by
      rintro rfl
      rw [Registry.get?_nextId] at known
      cases known
    rw [get?_engage, if_neg apart, known]
  · rw [get?_engage] at known
    split at known
    · rename_i last
      cases known
      exact .inr ⟨last ▸ Registry.get?_nextId _, delay, rfl⟩
    · exact .inl known

namespace Grounded

variable {sequence : Sequence U}

theorem touch (grounded : sequence.Grounded) :
    (sequence.withGraph sequence.graph.touch).Grounded :=
  ⟨grounded.sound.touch, grounded.registered⟩

theorem sort (grounded : sequence.Grounded) :
    (sequence.withGraph sequence.graph.sorted.2).Grounded := by
  refine ⟨grounded.sound.sorted, fun unit member => grounded.registered unit ?_⟩
  simpa [withGraph, graph] using member

theorem length_le {after : Sequence U} (extended : Extended timer sequence after) :
    sequence.graph.nodes.length ≤ after.graph.nodes.length := by
  simpa using extended.units.length_le

/-- A new unit may be engaged. -/
theorem engage (grounded : sequence.Grounded) (slot : Slot U) :
    (sequence.engage slot).Grounded := by
  refine ⟨grounded.sound, fun unit member => ?_⟩
  obtain ⟨known, found⟩ := Registry.contains_iff.1 (grounded.registered unit member)
  have apart : unit ≠ sequence.registry.nextId := by
    rintro rfl
    rw [Registry.get?_nextId] at found
    cases found
  refine Registry.contains_iff.2 ⟨known, ?_⟩
  rw [get?_engage, if_neg apart, found]

variable (timer)

/-- A unit of the sequence may be given a node. -/
theorem place (grounded : sequence.Grounded) {unit : UnitId}
    (known : sequence.registry.contains unit = true) :
    (sequence.withGraph (sequence.graph.place unit).2).Grounded ∧
      Extended timer sequence (sequence.withGraph (sequence.graph.place unit).2) ∧
      (sequence.graph.place unit).1 < (sequence.graph.place unit).2.nodes.length := by
  refine ⟨⟨grounded.sound.place unit, fun other member => ?_⟩,
    extended_withGraph sequence (.place unit), ?_⟩
  · simp only [withGraph, Sequence.graph, Graph.place] at member
    split at member
    · exact grounded.registered other member
    · simp only [List.map_append, List.map_cons, List.map_nil, Node.isolated, List.mem_append,
        List.mem_singleton] at member
      rcases member with before | rfl
      · exact grounded.registered other before
      · exact known
  · rw [Graph.place]
    split
    · rename_i found
      obtain ⟨node, here, -⟩ := Graph.unit?_eq_some.1
        ((Graph.nodeFor?_eq_some grounded.sound.arena).1 found)
      exact (List.getElem?_eq_some_iff.1 here).1
    · simp

theorem resolve (grounded : sequence.Grounded) {unit : UnitId} {node : Nat} {placed : Sequence U}
    (found : sequence.resolve unit = some (node, placed)) :
    placed.Grounded ∧ Extended timer sequence placed ∧ node < placed.graph.nodes.length := by
  rw [Sequence.resolve] at found
  split at found
  · rename_i known
    cases found
    exact grounded.place timer known
  · cases found

theorem play (grounded : sequence.Grounded) (unit : Option UnitId) :
    (sequence.play unit).2.Grounded ∧ Extended timer sequence (sequence.play unit).2 ∧
      ∀ node, (sequence.play unit).1.anchor = some node →
        node < (sequence.play unit).2.graph.nodes.length := by
  rw [Sequence.play]
  split
  · rename_i node placed found
    obtain ⟨id, -, resolved⟩ := Option.bind_eq_some_iff.1 found
    obtain ⟨now, extended, inside⟩ := grounded.resolve timer resolved
    refine ⟨now.touch, extended.trans (extended_withGraph placed .touch), fun anchor same => ?_⟩
    cases same
    exact inside
  · exact ⟨grounded.touch, extended_withGraph sequence .touch, by simp⟩

theorem require (grounded : sequence.Grounded) {dependent : Nat} {d : Dependency}
    (hd : dependent < sequence.graph.nodes.length) (hp : d.node < sequence.graph.nodes.length) :
    (sequence.require dependent d).Grounded ∧
      Extended timer sequence (sequence.require dependent d) := by
  have same : (sequence.require dependent d).graph.nodes.map Node.unit =
      sequence.graph.nodes.map Node.unit := Graph.units_linked sequence.graph.nodes dependent d
  have edit : sequence.graph.edit (.depend dependent d) =
      sequence.graph.addDependency dependent d :=
    if_pos ⟨hd, hp⟩
  refine ⟨⟨grounded.sound.addDependency hd hp, fun unit member => ?_⟩, ?_⟩
  · rw [same] at member
    exact grounded.registered unit member
  · rw [Sequence.require, ← edit]
    exact extended_withGraph sequence (.depend dependent d)

/-- A link lets the sequence grow and leaves the cursor on a node. -/
theorem relate (grounded : sequence.Grounded) (link : Link) {cursor : Cursor}
    (valid : ∀ node, cursor.anchor = some node → node < sequence.graph.nodes.length) :
    (Sequence.relate timer link cursor sequence).2.Grounded ∧
      Extended timer sequence (Sequence.relate timer link cursor sequence).2 ∧
      (Sequence.relate timer link cursor sequence).1.anchor = cursor.anchor := by
  obtain ⟨place, last⟩ := cursor
  cases place with
  | none => exact ⟨grounded, .refl _, rfl⟩
  | some anchor =>
    have inside := valid anchor rfl
    -- an edge may be drawn either way between the anchor and a unit that was found
    have towards : ∀ {other : UnitId} {node : Nat} {placed : Sequence U},
        sequence.resolve other = some (node, placed) →
        (∀ rule, (placed.require node ⟨anchor, rule⟩).Grounded ∧
          Extended timer sequence (placed.require node ⟨anchor, rule⟩)) ∧
        ∀ rule, (placed.require anchor ⟨node, rule⟩).Grounded ∧
          Extended timer sequence (placed.require anchor ⟨node, rule⟩) := by
      intro other node placed found
      obtain ⟨now, extended, placedInside⟩ := grounded.resolve timer found
      have anchored := Nat.lt_of_lt_of_le inside (length_le extended)
      refine ⟨fun rule => ?_, fun rule => ?_⟩
      · obtain ⟨linked, more⟩ := now.require timer (d := ⟨anchor, rule⟩) placedInside anchored
        exact ⟨linked, extended.trans more⟩
      · obtain ⟨linked, more⟩ := now.require timer (d := ⟨node, rule⟩) anchored placedInside
        exact ⟨linked, extended.trans more⟩
    cases link with
    | together other | before other =>
      unfold Sequence.relate
      dsimp only
      cases found : sequence.resolve other with
      | none => exact ⟨grounded, .refl _, rfl⟩
      | some placed =>
        obtain ⟨linked, extended⟩ := (towards found).1 _
        exact ⟨linked, extended, rfl⟩
    | after other =>
      unfold Sequence.relate
      dsimp only
      cases found : sequence.resolve other with
      | none => exact ⟨grounded, .refl _, rfl⟩
      | some placed =>
        obtain ⟨linked, extended⟩ := (towards found).2 .onEnd
        exact ⟨linked, extended, rfl⟩
    | afterDelay delay =>
      let slot : Slot U := ⟨"delay(" ++ delay.detail ++ ")", true, timer delay⟩
      have added : Extended timer sequence (sequence.engage slot) :=
        extended_engage sequence slot.label delay
      obtain ⟨now, extended, placedInside⟩ := (grounded.engage slot).place timer
        (Registry.contains_iff.2 ⟨_, (get?_engage ..).trans (if_pos rfl)⟩)
      have anchored := Nat.lt_of_lt_of_le inside (length_le (added.trans extended))
      obtain ⟨linked, more⟩ := now.require timer (d := ⟨_, .onEnd⟩) anchored placedInside
      exact ⟨linked, (added.trans extended).trans more, rfl⟩

theorem relateAll (grounded : sequence.Grounded) (links : List Link) {cursor : Cursor}
    (valid : ∀ node, cursor.anchor = some node → node < sequence.graph.nodes.length) :
    (Sequence.relateAll timer links cursor sequence).2.Grounded ∧
      Extended timer sequence (Sequence.relateAll timer links cursor sequence).2 := by
  induction links generalizing cursor sequence with
  | nil => exact ⟨grounded, .refl _⟩
  | cons link links ih =>
    obtain ⟨now, extended, anchor⟩ := grounded.relate timer link valid
    have next := ih now fun node here =>
      Nat.lt_of_lt_of_le (valid node (anchor ▸ here)) (length_le extended)
    exact ⟨next.1, extended.trans next.2⟩

theorem playWith (grounded : sequence.Grounded) (unit : Option UnitId) (links : List Link) :
    (sequence.playWith timer unit links).Grounded ∧
      Extended timer sequence (sequence.playWith timer unit links) := by
  obtain ⟨now, extended, valid⟩ := grounded.play timer unit
  obtain ⟨last, more⟩ := now.relateAll timer links valid
  exact ⟨last, extended.trans more⟩

theorem playTogether (grounded : sequence.Grounded) (units : List UnitId) :
    (sequence.playTogether timer units).Grounded ∧
      Extended timer sequence (sequence.playTogether timer units) := by
  cases units with
  | nil => exact ⟨grounded, .refl _⟩
  | cons first rest => exact grounded.playWith timer _ _

theorem playPairs (grounded : sequence.Grounded) (units : List UnitId) :
    (Sequence.playPairs timer units sequence).Grounded ∧
      Extended timer sequence (Sequence.playPairs timer units sequence) := by
  induction units generalizing sequence with
  | nil => exact ⟨grounded, .refl _⟩
  | cons first rest ih =>
    cases rest with
    | nil => exact ⟨grounded, .refl _⟩
    | cons second rest =>
      obtain ⟨now, extended⟩ := grounded.playWith timer (some first) [.before second]
      obtain ⟨last, more⟩ := ih now
      exact ⟨last, extended.trans more⟩

theorem playSequentially (grounded : sequence.Grounded) (units : List UnitId) :
    (sequence.playSequentially timer units).Grounded ∧
      Extended timer sequence (sequence.playSequentially timer units) := by
  unfold Sequence.playSequentially
  split
  · obtain ⟨now, extended, -⟩ := grounded.play timer (some _)
    exact ⟨now, extended⟩
  · exact grounded.playPairs timer units

end Grounded

theorem grounded_empty (number : Nat) : (empty number : Sequence U).Grounded :=
  ⟨Graph.sound_empty, by simp [empty, graph, Conductor.fresh, Graph.empty]⟩

end Sequence

end Choreo
