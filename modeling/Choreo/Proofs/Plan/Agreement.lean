import Choreo.Proofs.Plan.Roster
import Choreo.Proofs.Plan.Schedule
import Choreo.Proofs.Sequence.Conducting

/-!
# The checks and the scene agree

A plan is translated twice: the checks draw an edge for each constraint and look for a cycle, and a
scene gives each clip a node and relates the nodes. Both translations mean what the plan declares.
So a scene of a plan that passed is never refused, and a plan that is rejected for a cycle would be
refused as a scene, too, with the clips of that cycle among those that are named.
-/

namespace Choreo

namespace Plan

variable {τ : Type}

/-- What a plan declares: one clip waits, by this rule, for another one. -/
inductive Declares (plan : Plan τ) : String → Rule → String → Prop where
  | partner {name other : String} {clip : ClipPlan τ} (own : (name, clip) ∈ plan.clips.entries)
      (refers : other ∈ clip.partners) : Declares plan other .onStart name
  | forerunner {name other : String} {clip : ClipPlan τ} (own : (name, clip) ∈ plan.clips.entries)
      (refers : other ∈ clip.forerunners) : Declares plan other .onEnd name
  | companion {group : Group} {first : String} {others : List String} {other : String}
      (listed : group ∈ plan.groups) (mode : group.mode = .together)
      (clips : group.clips = first :: others) (later : other ∈ others) :
      Declares plan first .onStart other
  | successor {group : Group} {before after : List String} {first second : String}
      (listed : group ∈ plan.groups) (mode : group.mode = .sequential)
      (clips : group.clips = before ++ first :: second :: after) : Declares plan first .onEnd second

theorem mem_neighbours_iff {clips : List String} {first second : String} :
    (first, second) ∈ neighbours clips ↔
      ∃ before after, clips = before ++ first :: second :: after := by
  induction clips using neighbours.induct with
  | case1 one two rest ih =>
    rw [neighbours, List.mem_cons, ih, Prod.mk.injEq]
    constructor
    · rintro (⟨rfl, rfl⟩ | ⟨before, after, same⟩)
      · exact ⟨[], rest, rfl⟩
      · exact ⟨one :: before, after, by rw [same, List.cons_append]⟩
    · rintro ⟨before, after, same⟩
      cases before with
      | nil =>
        simp only [List.nil_append, List.cons.injEq] at same
        exact .inl ⟨same.1.symm, same.2.1.symm⟩
      | cons head before =>
        simp only [List.cons_append, List.cons.injEq] at same
        exact .inr ⟨before, after, same.2⟩
  | case2 clips few =>
    have none : neighbours clips = [] := by
      rcases clips with _ | ⟨one, _ | ⟨two, rest⟩⟩
      · rfl
      · rfl
      · exact absurd rfl (few one two rest)
    rw [none]
    simp only [List.not_mem_nil, false_iff, not_exists]
    rintro before after rfl
    cases before with
    | nil => exact few first second after rfl
    | cons head before =>
      cases before with
      | nil => exact few head first (second :: after) rfl
      | cons next before => exact few head next (before ++ first :: second :: after) rfl

theorem mem_constraints {plan : Plan τ} {p c : String} {rule : Rule} :
    ⟨p, rule, c⟩ ∈ plan.constraints ↔ plan.Declares p rule c := by
  simp only [constraints, List.mem_append, List.mem_flatMap, ClipPlan.constraints,
    Group.constraints, List.mem_map, Constraint.mk.injEq]
  constructor
  · rintro (⟨⟨name, clip⟩, own, ⟨other, refers, rfl, rfl, rfl⟩ | ⟨other, refers, rfl, rfl, rfl⟩⟩ |
      ⟨group, listed, ⟨first, second⟩, drawn, rfl, rfl, rfl⟩)
    · exact .partner own refers
    · exact .forerunner own refers
    · rw [Group.edges] at drawn
      cases mode : group.mode with
      | sequential =>
        rw [mode] at drawn
        obtain ⟨before, after, clips⟩ := mem_neighbours_iff.1 drawn
        exact .successor listed mode clips
      | together =>
        rw [mode] at drawn
        cases clips : group.clips with
        | nil => simp [clips] at drawn
        | cons one rest =>
          simp only [clips, List.mem_map, Prod.mk.injEq] at drawn
          obtain ⟨other, later, rfl, rfl⟩ := drawn
          exact .companion listed mode clips later
  · rintro declared
    cases declared with
    | partner own refers => exact .inl ⟨_, own, .inl ⟨p, refers, rfl, rfl, rfl⟩⟩
    | forerunner own refers => exact .inl ⟨_, own, .inr ⟨p, refers, rfl, rfl, rfl⟩⟩
    | @companion group _ others _ listed mode clips later =>
      refine .inr ⟨group, listed, (p, c), ?_, rfl, by rw [mode]; rfl, rfl⟩
      simp only [Group.edges, mode, clips]
      exact List.mem_map_of_mem later
    | @successor group before after _ _ listed mode clips =>
      refine .inr ⟨group, listed, (p, c), ?_, rfl, by rw [mode]; rfl, rfl⟩
      simp only [Group.edges, mode]
      exact mem_neighbours_iff.2 ⟨before, after, clips⟩

/-- The names of the clips that have a delay, in their order. -/
def delayed (plan : Plan τ) : List String :=
  (plan.clips.entries.filter fun entry => entry.2.delay.isSome).map Prod.fst

/-- The unit of a clip in a scene of the plan. -/
def clipUnit (plan : Plan τ) (name : String) : UnitId := ⟨0, plan.clips.names.idxOf name⟩

/-- The unit of a clip's delay in a scene of the plan. -/
def delayUnit (plan : Plan τ) (name : String) : UnitId :=
  ⟨0, plan.clips.names.length + plan.delayed.idxOf name⟩

theorem map_idxOf {α β : Type} [BEq α] [LawfulBEq α]
    {names : List α} (distinct : names.Nodup) (f : Nat → β) :
    (names.map fun name => f (names.idxOf name)) = (List.range names.length).map f := by
  apply List.ext_getElem (by simp)
  intro place inside _
  simp [distinct.idxOf_getElem place (by simpa using inside)]

variable {timeline : Timeline}

theorem names_of_delayed {plan : Plan τ} {name : String} (late : name ∈ plan.delayed) :
    name ∈ plan.clips.names := by
  obtain ⟨entry, member, rfl⟩ := List.mem_map.1 late
  exact List.mem_map_of_mem (List.mem_filter.1 member).1

theorem delayed_nodup (timeline : Timeline) : timeline.delayed.Nodup := by
  have sub : timeline.delayed.Sublist timeline.clips.names := List.filter_sublist.map Prod.fst
  exact sub.nodup timeline.clips.nodup_names

/-- The delays of a scene are those of the clips that have one, in the order of their names. -/
theorem map_delays (timeline : Timeline) :
    (Scene.delays timeline timeline.clips.entries).map Prod.fst =
      timeline.delayed.map (Scene.placeOf timeline) := by
  have own : ∀ entry ∈ timeline.clips.entries,
      timeline.clips.position? entry.1 =
        some (Scene.placeOf timeline entry.1) := fun entry member =>
    Scene.position?_eq (List.mem_map_of_mem member)
  rw [Scene.delays, delayed]
  generalize timeline.clips.entries = entries at own
  induction entries with
  | nil => rfl
  | cons entry entries ih =>
    have rest := ih fun other member => own other (List.mem_cons_of_mem _ member)
    cases late : entry.2.delay with
    | none => simpa [late] using rest
    | some delay => simpa [late, own entry (List.mem_cons_self ..)] using rest

theorem map_snd_delays {α : Type} (timeline : Timeline) (f : Span → α) :
    (Scene.delays timeline timeline.clips.entries).map (fun delay => f delay.2) =
      timeline.clips.entries.filterMap fun entry => entry.2.delay.map f := by
  rw [Scene.delays, List.map_filterMap]
  refine List.filterMap_congr fun entry member => ?_
  rw [Scene.position?_eq (List.mem_map_of_mem member)]
  cases entry.2.delay <;> rfl

theorem length_delays (timeline : Timeline) :
    (Scene.delays timeline timeline.clips.entries).length = timeline.delayed.length := by
  simpa using congrArg List.length (map_delays timeline)

/-- A clip has the delay at the place of its name among those of the clips with a delay. -/
theorem getElem?_delayed {name : String} {k : Nat} : timeline.delayed[k]? = some name ↔
    ∃ delay, (Scene.delays timeline timeline.clips.entries)[k]? =
      some (Scene.placeOf timeline name, delay) := by
  have place := congrArg (·[k]?) (map_delays timeline)
  simp only [List.getElem?_map] at place
  constructor
  · intro here
    rw [here, Option.map_some] at place
    obtain ⟨⟨_, delay⟩, found, rfl⟩ := Option.map_eq_some_iff.1 place
    exact ⟨delay, found⟩
  · rintro ⟨delay, here⟩
    rw [here, Option.map_some] at place
    obtain ⟨other, found, same⟩ := Option.map_eq_some_iff.1 place.symm
    have named : other ∈ timeline.clips.names := names_of_delayed (List.mem_of_getElem? found)
    rwa [(List.idxOf_inj named).1 same] at found

theorem idxOf_delayed {name : String} {k : Nat} (here : timeline.delayed[k]? = some name) :
    timeline.delayed.idxOf name = k := by
  obtain ⟨inside, rfl⟩ := List.getElem?_eq_some_iff.1 here
  exact (delayed_nodup timeline).idxOf_getElem k inside

end Plan

namespace Draft

variable {draft : Draft} {timeline : Timeline}

theorem isSome_delay {written : ClipPlan String} {read : ClipPlan Span}
    (same : written.ReadAs read) :
    read.delay.isSome = written.delay.isSome := by
  have late := same.delay
  generalize written.delay = text, read.delay = delay at late ⊢
  cases late with
  | none => rfl
  | some _ => rfl

theorem delayed_of_read (clips : draft.clips.traverse readClip = .ok timeline.clips) :
    timeline.delayed = draft.delayed := by
  have same := NameMap.map_traverseEntries (f := readClip)
    (g := fun entry => (entry.1, entry.2.delay.isSome))
      (k := fun entry => (entry.1, entry.2.delay.isSome))
    (fun name value read ok => by simp [isSome_delay (readClip_eq_ok.1 ok)])
    (NameMap.traverse_eq_ok.1 clips)
  have late := congrArg (fun marked => (marked.filter Prod.snd).map Prod.fst) same
  simp only [List.filter_map, List.map_map] at late
  exact late

theorem ne_cyclic_of_readSpan {field : SpanField} {text : String} {fault : Fault}
    (h : readSpan field text = .error fault) (names : List String) : fault ≠ .cyclic names := by
  rw [readSpan] at h
  split at h
  · cases h
  · cases h
    simp

theorem ne_cyclic_of_readSettings {settings : Settings String} {fault : Fault}
    (h : readSettings settings = .error fault) (names : List String) : fault ≠ .cyclic names := by
  rw [readSettings] at h
  split at h
  · rename_i failed
    cases h
    exact ne_cyclic_of_readSpan failed names
  · split at h
    · cases h
      simp
    · split at h
      · rename_i failed
        cases h
        exact ne_cyclic_of_readSpan failed names
      · cases h

theorem ne_cyclic_of_readClip {name : String} {clip : ClipPlan String} {fault : Fault}
    (h : readClip name clip = .error fault) (names : List String) : fault ≠ .cyclic names := by
  rw [readClip] at h
  split at h
  · rename_i failed
    cases h
    exact ne_cyclic_of_readSpan failed names
  · split at h
    · cases h
    · split at h
      · rename_i failed
        cases h
        exact ne_cyclic_of_readSpan failed names
      · cases h

theorem ne_cyclic_of_traverse {clips : NameMap (ClipPlan String)} {fault : Fault}
    (h : clips.traverse readClip = .error fault) (names : List String) : fault ≠ .cyclic names := by
  have failed : NameMap.traverseEntries readClip clips.entries = .error fault := by
    rw [NameMap.traverse] at h
    split at h
    · rename_i failed
      cases h
      exact failed
    · cases h
  generalize clips.entries = entries at failed
  induction entries with
  | nil => cases failed
  | cons entry rest ih =>
    rw [NameMap.traverseEntries] at failed
    split at failed
    · rename_i first
      cases failed
      exact ne_cyclic_of_readClip first names
    · split at failed
      · rename_i later
        cases failed
        exact ih later
      · cases failed

theorem ne_cyclic_of_clipFault {fault : Fault} (h : draft.clipFault = some fault)
    (names : List String) :
    fault ≠ .cyclic names := by
  obtain ⟨entry, -, found⟩ := List.exists_of_findSome?_eq_some h
  obtain ⟨rule, -, found⟩ := List.exists_of_findSome?_eq_some found
  obtain ⟨other, -, found⟩ := List.exists_of_findSome?_eq_some found
  rw [referenceFault] at found
  split at found
  · cases found
    simp
  · split at found
    · cases found
      simp
    · cases found

theorem ne_cyclic_of_groupFault {fault : Fault} (h : draft.groupFault = some fault)
    (names : List String) : fault ≠ .cyclic names := by
  obtain ⟨entry, -, found⟩ := List.exists_of_findSome?_eq_some h
  obtain ⟨other, -, rfl⟩ := Option.map_eq_some_iff.1 found
  simp

/-- A plan is rejected for a cycle if there is one, and it passed the checks before that. -/
theorem check_cyclic_iff {names : List String} : draft.check = .error (.cyclic names) ↔
    draft.clips.isEmpty = false ∧ (∃ settings, readSettings draft.settings = .ok settings) ∧
      draft.clipFault = none ∧ draft.groupFault = none ∧ draft.cycle? = some names := by
  constructor
  · intro h
    rw [check] at h
    split at h
    · cases h
    · rename_i some
      split at h
      · rename_i failed
        cases h
        exact absurd rfl (ne_cyclic_of_readSettings failed names)
      · rename_i settings read
        split at h
        · rename_i found
          cases h
          rcases Option.or_eq_some_iff.1 found with clip | ⟨-, group⟩
          · exact absurd rfl (ne_cyclic_of_clipFault clip names)
          · exact absurd rfl (ne_cyclic_of_groupFault group names)
        · rename_i faultless
          obtain ⟨clips, groups⟩ := Option.or_eq_none_iff.1 faultless
          split at h
          · rename_i found
            cases h
            exact ⟨by simpa using some, ⟨settings, read⟩, clips, groups, found⟩
          · split at h
            · rename_i failed
              cases h
              exact absurd rfl (ne_cyclic_of_traverse failed names)
            · cases h
  · rintro ⟨some, ⟨settings, readable⟩, faultless, grouped, found⟩
    simp only [check, some, Bool.false_eq_true, ↓reduceIte, readable, faultless, grouped,
      Option.or_none, found]

end Draft

namespace Wired

variable {U : Type} {units : List U} {links : List (Nat × Dependency)} {sequence : Sequence U}

theorem mem_dependenciesOf (wired : Wired units links sequence) {node : Nat}
    (inside : node < units.length) {unit : UnitId} {rule : Rule} :
    (unit, rule) ∈ sequence.dependenciesOf ⟨0, node⟩ ↔
      ∃ p, unit = ⟨0, p⟩ ∧ (node, ⟨p, rule⟩) ∈ links := by
  have found := (Graph.nodeFor?_eq_some wired.sound.arena).2 (wired.unit? inside)
  have named : ∀ d ∈ sequence.graph.dependencies node,
      sequence.graph.unit? d.node = some ⟨0, d.node⟩ := by
    intro d member
    obtain ⟨holder, here, declared⟩ := Graph.mem_dependencies.1 member
    exact wired.unit? (wired.length ▸ wired.sound.arena.lt_of_dependency here declared)
  rw [Sequence.dependenciesOf, found]
  simp only [Sequence.edges, List.mem_filterMap]
  constructor
  · rintro ⟨d, member, same⟩
    rw [named d member] at same
    cases same
    exact ⟨d.node, rfl, (wired.links node d).1 member⟩
  · rintro ⟨p, rfl, linked⟩
    have member := (wired.links node ⟨p, rule⟩).2 linked
    exact ⟨⟨p, rule⟩, member, by rw [named _ member]; rfl⟩

end Wired

namespace Plan

variable {timeline : Timeline}

theorem length_castOf (timeline : Timeline) :
    (Scene.castOf timeline).length = timeline.clips.names.length + timeline.delayed.length := by
  simp [Scene.castOf, length_delays, NameMap.names]

/-- A scene has one node for each clip, and after these one for each delay. -/
theorem units_scene (timeline : Timeline) :
    (Scene.sequenceOf timeline).graph.nodes.map Node.unit =
      timeline.clips.names.map timeline.clipUnit ++ timeline.delayed.map timeline.delayUnit := by
  have clips := map_idxOf timeline.clips.nodup_names (UnitId.mk 0)
  have delays := map_idxOf (delayed_nodup timeline) fun k =>
    UnitId.mk 0 (timeline.clips.names.length + k)
  have late : List.map (fun k => UnitId.mk 0 (timeline.clips.names.length + k))
      (List.range timeline.delayed.length) = ((List.range timeline.delayed.length).map
        (timeline.clips.names.length + ·)).map (UnitId.mk 0) := by
    rw [List.map_map]
    rfl
  rw [(Scene.wired_sequenceOf timeline).nodes, length_castOf, List.range_add, List.map_append,
    ← late, ← delays, ← clips]
  rfl

/-- A clip of a scene waits for what the plan declares, and for its own delay if it has one. -/
theorem mem_dependenciesOf_clip (referring : timeline.Referring) {clip : String}
    (named : clip ∈ timeline.clips.names) {unit : UnitId} {rule : Rule} :
    (unit, rule) ∈ (Scene.sequenceOf timeline).dependenciesOf (timeline.clipUnit clip) ↔
      (∃ p, timeline.Declares p rule clip ∧ unit = timeline.clipUnit p) ∨
      (clip ∈ timeline.delayed ∧ rule = .onEnd ∧ unit = timeline.delayUnit clip) := by
  have inside : Scene.placeOf timeline clip < (Scene.castOf timeline).length := by
    have place := List.idxOf_lt_length_of_mem named
    rw [length_castOf]
    exact Nat.lt_of_lt_of_le place (Nat.le_add_right _ _)
  refine ((Scene.wired_sequenceOf timeline).mem_dependenciesOf inside).trans ?_
  constructor
  · rintro ⟨p, rfl, linked⟩
    rcases (Scene.mem_links referring).1 linked with ⟨c, declared, same⟩ | ⟨k, delay, found, same⟩
    · obtain ⟨dependent, prerequisite⟩ := Prod.mk.inj same
      cases prerequisite
      have equal : c.dependent = clip := ((List.idxOf_inj named).1 dependent).symm
      exact .inl ⟨c.prerequisite, mem_constraints.1 (equal ▸ declared), rfl⟩
    · cases same
      have late := getElem?_delayed.2 ⟨delay, found⟩
      refine .inr ⟨List.mem_of_getElem? late, rfl, ?_⟩
      rw [delayUnit, idxOf_delayed late]
      simp [NameMap.names]
  · rintro (⟨p, declared, rfl⟩ | ⟨late, rfl, rfl⟩)
    · exact ⟨Scene.placeOf timeline p, rfl,
        (Scene.mem_links referring).2 (.inl ⟨⟨p, rule, clip⟩, mem_constraints.2 declared, rfl⟩)⟩
    · obtain ⟨k, here⟩ := List.getElem?_of_mem late
      obtain ⟨delay, found⟩ := getElem?_delayed.1 here
      refine ⟨timeline.clips.entries.length + k, ?_,
        (Scene.mem_links referring).2 (.inr ⟨k, delay, found, rfl⟩)⟩
      rw [delayUnit, idxOf_delayed here]
      simp [NameMap.names]

theorem dependenciesOf_delay (referring : timeline.Referring) {clip : String}
    (late : clip ∈ timeline.delayed) :
    (Scene.sequenceOf timeline).dependenciesOf (timeline.delayUnit clip) = [] := by
  have clips : timeline.clips.entries.length = timeline.clips.names.length := by
    simp [NameMap.names]
  have inside : timeline.clips.names.length + timeline.delayed.idxOf clip <
      (Scene.castOf timeline).length := by
    rw [length_castOf]
    exact Nat.add_lt_add_left (List.idxOf_lt_length_of_mem late) _
  apply List.eq_nil_iff_forall_not_mem.2
  rintro ⟨unit, rule⟩ member
  obtain ⟨p, rfl, linked⟩ := ((Scene.wired_sequenceOf timeline).mem_dependenciesOf inside).1 member
  rcases (Scene.mem_links referring).1 linked with ⟨c, declared, same⟩ | ⟨k, delay, found, -⟩
  · have place := List.idxOf_lt_length_of_mem (referring.known c declared).2
    have beyond : timeline.clips.names.length + timeline.delayed.idxOf clip =
        timeline.clips.names.idxOf c.dependent := (Prod.mk.inj same).1
    omega
  · obtain ⟨entry, here, -⟩ := mem_delays.1 (List.mem_of_getElem? found)
    have below := (List.getElem?_eq_some_iff.1 here).1
    omega

theorem acyclic_scene (valid : timeline.Valid) :
    Graph.Acyclic (Scene.sequenceOf timeline).graph.nodes := by
  have wired := Scene.wired_sequenceOf timeline
  exact (Graph.waveOrder_isOk_iff wired.sound.arena).1
    (Graph.waveOrder_isOk wired.sound.arena valid.acyclic)

end Plan

namespace Draft

variable {draft : Draft} {timeline : Timeline}

theorem declares_of_read (clips : draft.clips.traverse readClip = .ok timeline.clips)
    (groups : timeline.groups = draft.groups) {p c : String} {rule : Rule} :
    timeline.Declares p rule c ↔ draft.Declares p rule c := by
  rw [← Plan.mem_constraints, constraints_of_read clips groups, Plan.mem_constraints]

theorem clipUnit_of_read (clips : draft.clips.traverse readClip = .ok timeline.clips) :
    timeline.clipUnit = draft.clipUnit := by
  funext name
  rw [Plan.clipUnit, names_of_read clips, Plan.clipUnit]

theorem delayUnit_of_read (clips : draft.clips.traverse readClip = .ok timeline.clips) :
    timeline.delayUnit = draft.delayUnit := by
  funext name
  rw [Plan.delayUnit, names_of_read clips, delayed_of_read clips, Plan.delayUnit]

theorem waits_of_edge (clips : draft.clips.traverse readClip = .ok timeline.clips)
    (groups : timeline.groups = draft.groups) (referring : timeline.Referring) {u v : Nat}
    (edge : draft.constraintGraph.Edge u v) :
    Graph.Waits (Scene.sequenceOf timeline).graph.nodes u v := by
  obtain ⟨c, declared, rfl, rfl⟩ := constraint_of_edge edge
  rw [← constraints_of_read clips groups] at declared
  rw [← names_of_read clips]
  have linked := (Scene.mem_links referring).2 (.inl ⟨c, declared, rfl⟩)
  have member := ((Scene.wired_sequenceOf timeline).links _ _).2 linked
  obtain ⟨holder, here, waits⟩ := Graph.mem_dependencies.1 member
  exact Graph.mem_prerequisites.2 ⟨holder, here, _, waits, rfl⟩

/-- The scene of a plan that was rejected for a cycle is refused, and names the clips of that
cycle. -/
theorem start_of_check_cyclic {names : List String}
    (rejected : draft.check = .error (.cyclic names))
    (clips : draft.clips.traverse readClip = .ok timeline.clips)
    (groups : timeline.groups = draft.groups) :
    ∃ labels, ((Scene.ofTimeline timeline).start Performer.behaviour).1 = .error (.cyclic labels) ∧
      ∀ name ∈ names, name ∈ labels := by
  obtain ⟨-, -, faultless, grouped, found⟩ := check_cyclic_iff.1 rejected
  have known : ∀ c ∈ draft.constraints, c.prerequisite ∈ draft.clips.names ∧
      c.dependent ∈ draft.clips.names :=
        fun c member => mem_names_of_constraint faultless grouped member
  have referring : timeline.Referring := by
    refine ⟨?_, ?_⟩
    · rw [constraints_of_read clips groups, names_of_read clips]
      exact known
    · rw [groups, names_of_read clips]
      exact groupFault_eq_none.1 grouped
  obtain ⟨places, cycle, rfl⟩ := Option.map_eq_some_iff.1 found
  have wired := Scene.wired_sequenceOf timeline
  have loops : ∀ place ∈ places,
      Relation.TransGen (Graph.Waits (Scene.sequenceOf timeline).graph.nodes) place place := by
    intro place member
    have walk := Digraph.loops_of_foundCycle? (bounded_constraintGraph known) cycle member
    exact Relation.TransGen.mono (fun _ _ edge => waits_of_edge clips groups referring edge)
      _ _ walk
  have cyclic : ¬ Graph.Acyclic (Scene.sequenceOf timeline).graph.nodes := by
    obtain ⟨place, member⟩ := List.exists_mem_of_ne_nil _
      (Digraph.foundCycle?_ne_nil (bounded_constraintGraph known) cycle)
    exact fun acyclic => acyclic place (loops place member)
  have idle : (Scene.sequenceOf timeline).conductor.phase = .idle := by rw [wired.fresh]; rfl
  obtain ⟨labels, refused, listed⟩ := Live.start_of_cyclic Performer.behaviour
    (Scene.ofTimeline timeline) wired.sound cyclic idle
  refine ⟨labels, refused, fun name named => ?_⟩
  obtain ⟨place, member, here⟩ := List.mem_filterMap.1 named
  rw [← names_of_read clips, NameMap.names, List.getElem?_map] at here
  obtain ⟨entry, there, rfl⟩ := Option.map_eq_some_iff.1 here
  have inside : place < (Scene.castOf timeline).length := by
    have below := (List.getElem?_eq_some_iff.1 there).1
    rw [Plan.length_castOf, NameMap.names, List.length_map]
    exact Nat.lt_of_lt_of_le below (Nat.le_add_right _ _)
  rw [← Scene.label_clip there]
  exact listed place ⟨0, place⟩ (loops place member) (wired.unit? inside)

/-- The checks and the scene agree. If a plan passes, its scene has a node for each clip and one for
each delay, a clip waits for what is written and for its delay, and nothing that is asked of the
scene is refused as long as no more units are related. If a plan is rejected for a cycle only, its
scene is refused for a cycle, and every clip that the checks name is named again. -/
theorem check_agrees (draft : Draft) :
    (∀ timeline, draft.check = .ok timeline →
      let scene := Scene.ofTimeline timeline
      scene.sequence.graph.nodes.map Node.unit =
        draft.clips.names.map draft.clipUnit ++ draft.delayed.map draft.delayUnit ∧
      (scene.sequence.graph.nodes.map Node.unit).Nodup ∧
      scene.sequence.registry.slots.toList = timeline.clips.entries.map Scene.clipSlot ++
        timeline.clips.entries.filterMap (fun entry => entry.2.delay.map Scene.delaySlot) ∧
      (∀ clip ∈ draft.clips.names, ∀ unit rule,
        (unit, rule) ∈ scene.sequence.dependenciesOf (draft.clipUnit clip) ↔
          (∃ p, draft.Declares p rule clip ∧ unit = draft.clipUnit p) ∨
          (clip ∈ draft.delayed ∧ rule = .onEnd ∧ unit = draft.delayUnit clip)) ∧
      (∀ clip ∈ draft.delayed, scene.sequence.dependenciesOf (draft.delayUnit clip) = []) ∧
      ∀ cues : List (Cue Performer), (∀ cue ∈ cues, cue.performs = true) →
        ∀ outcome ∈ (scene.rehearse Performer.behaviour cues).1, ∀ refusal,
          outcome ≠ .refused refusal) ∧
    ∀ names, draft.check = .error (.cyclic names) → ∀ timeline : Timeline,
      draft.clips.traverse readClip = .ok timeline.clips → timeline.groups = draft.groups →
      ∃ labels, ((Scene.ofTimeline timeline).start Performer.behaviour).1 =
        .error (.cyclic labels) ∧
        ∀ name ∈ names, name ∈ labels := by
  refine ⟨fun timeline passed => ?_, fun names rejected timeline clips groups =>
    start_of_check_cyclic rejected clips groups⟩
  intro scene
  obtain ⟨-, -, -, -, -, clips, groups⟩ := check_ok passed
  have valid := valid_of_check passed
  have wired := Scene.wired_sequenceOf timeline
  have same : scene.sequence = Scene.sequenceOf timeline := rfl
  rw [same, ← clipUnit_of_read clips, ← delayUnit_of_read clips, ← names_of_read clips,
    ← delayed_of_read clips]
  refine ⟨Plan.units_scene timeline, wired.sound.arena.units_nodup, ?_, fun clip named unit rule =>
    ?_, fun clip late => Plan.dependenciesOf_delay valid.referring late, fun cues performs => ?_⟩
  · rw [Scene.slots_sequenceOf, Plan.map_snd_delays]
  · rw [Plan.mem_dependenciesOf_clip valid.referring named]
    simp only [declares_of_read clips groups]
  · exact Live.rehearse_ne_refused Performer.behaviour scene wired.sound (Plan.acyclic_scene valid)
      performs

/-- A duet of two clips that start together, the second of which follows a delay and is followed by
a third one. -/
def duet : Draft where
  settings := ⟨"20ms", "2s"⟩
  clips := .ofList [("a", ⟨"35ms", 0, [], [], none⟩), ("b", ⟨"5ms", 0, ["a"], [], some "15ms"⟩),
    ("c", ⟨"0s", 0, [], [], none⟩)]
  groups := [⟨.sequential, ["b", "c"]⟩]

def duetPlan : Timeline where
  settings := ⟨⟨20000000, by decide⟩, ⟨2000000000, by decide⟩⟩
  clips := ⟨[("a", ⟨⟨35000000, by decide⟩, 0, [], [], none⟩),
    ("b", ⟨⟨5000000, by decide⟩, 0, ["a"], [], some ⟨15000000, by decide⟩⟩),
    ("c", ⟨.zero, 0, [], [], none⟩)], by decide⟩
  groups := [⟨.sequential, ["b", "c"]⟩]

/-- The duet when the third clip has to end before the second one starts. -/
def canon : Draft := { duet with groups := duet.groups ++ [⟨.sequential, ["c", "b"]⟩] }

theorem check_duet : duet.check = .ok duetPlan :=
  check_eq_ok rfl (by decide +kernel) (by decide +kernel) (by decide +kernel) rfl

theorem check_canon : canon.check = .error (.cyclic ["b", "c"]) := by
  have settings : readSettings canon.settings = .ok duetPlan.settings := by decide +kernel
  have faultless : canon.clipFault.or canon.groupFault = none := by decide +kernel
  have searched : canon.constraintGraph.searched? = some 2 := by cbv
  have cyclic : canon.cycle? = some ["b", "c"] := by
    simp only [Plan.cycle?, Digraph.foundCycle?, searched]
    decide +kernel
  have some : canon.clips.isEmpty = false := rfl
  simp only [check, some, settings, faultless, cyclic]
  rfl

/-- In the duet the second clip waits for the start of the first one and for its delay; the canon is
refused, and the clips that wait for each other are named. -/
theorem check_agrees_duet :
    (⟨0, 0⟩, .onStart) ∈ (Scene.sequenceOf duetPlan).dependenciesOf ⟨0, 1⟩ ∧
    (⟨0, 3⟩, .onEnd) ∈ (Scene.sequenceOf duetPlan).dependenciesOf ⟨0, 1⟩ ∧
    ∃ labels, ((Scene.ofTimeline { duetPlan with groups := canon.groups }).start
      Performer.behaviour).1 = .error (.cyclic labels) ∧ ∀ name ∈ ["b", "c"], name ∈ labels := by
  obtain ⟨-, -, -, waits, -⟩ := (check_agrees duet).1 duetPlan check_duet
  have second := waits "b" (by decide +kernel)
  have own : ("b", ⟨"5ms", 0, ["a"], [], some "15ms"⟩) ∈ duet.clips.entries := by decide +kernel
  have partner : duet.Declares "a" .onStart "b" := .partner own (List.mem_singleton_self _)
  refine ⟨?_, ?_, (check_agrees canon).2 _ check_canon { duetPlan with groups := canon.groups }
    rfl rfl⟩
  · exact (second _ _).2 (.inl ⟨"a", partner, by decide +kernel⟩)
  · exact (second _ _).2 (.inr ⟨by decide +kernel, rfl, by decide +kernel⟩)

end Draft

end Choreo
