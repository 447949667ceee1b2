import Choreo.Proofs.Graph.Components
import Choreo.Proofs.Sequence.Lawful

/-!
# A start that is refused

A sequence whose nodes wait for one another in a circle refuses to start, and names the units on
circles. Nothing comes of that: the sequence and its stage are what they were, so it refuses again,
in the same words, until its units are related anew.
-/

namespace Choreo

variable {U : Type}

namespace Registry

/-- A unit that is in the register keeps its label. -/
def Labels (before after : Registry U) : Prop :=
  ∀ id, before.contains id = true → after.contains id = true ∧ after.label id = before.label id

theorem Labels.refl (registry : Registry U) :
    registry.Labels registry := fun _ known => ⟨known, rfl⟩

theorem Labels.trans {first second third : Registry U} (one : first.Labels second)
    (two : second.Labels third) : first.Labels third := by
  intro id known
  obtain ⟨still, same⟩ := one id known
  exact ⟨(two id still).1, (two id still).2.trans same⟩

theorem labels_update (registry : Registry U) (id : UnitId) (unit : U) :
    registry.Labels (registry.update id unit) := by
  intro other known
  simp only [contains, label, slot?, update, Array.getElem?_modify] at known ⊢
  by_cases own : other.owner = registry.owner
  · by_cases same : id.index = other.index
    · cases found : registry.slots[other.index]? <;> simp_all
    · simp_all
  · simp [own] at known

theorem labels_insert (registry : Registry U) (name : Option String) (unit : U) :
    registry.Labels (registry.insert name unit).2 := by
  intro other known
  simp only [contains, label, slot?, insert, Array.getElem?_push] at known ⊢
  by_cases own : other.owner = registry.owner
  · simp only [own, ↓reduceIte] at known ⊢
    have inside : other.index ≠ registry.slots.size := by
      rintro last
      simp [last] at known
    simp [inside, known]
  · simp [own] at known

/-- Calls, deliveries and the serving of requests keep the labels in a register. -/
theorem throughout_labels (b : Behaviour U) :
    b.Throughout fun before after => before.1.Labels after.1 :=
  ⟨⟨fun _ => .refl _, .trans, fun _ _ _ _ _ _ => labels_update _ _ _,
    fun _ _ _ _ _ _ => labels_update _ _ _⟩, fun _ _ _ => .refl _, fun _ => .refl _⟩

end Registry

namespace Conductor

variable {conductor : Conductor}

theorem begin_of_cyclic (sound : conductor.graph.Sound) (idle : conductor.phase = .idle)
    (cyclic : ¬ Graph.Acyclic conductor.graph.nodes) : conductor.begin =
      (.error ⟨conductor.graph.units (Graph.circle conductor.graph.nodes)⟩, conductor) := by
  have refused := sound.sorted_of_circle cyclic
  rw [begin_of_refused idle (congrArg Prod.fst refused), refused]

/-- An idle conductor whose nodes wait for one another in a circle stays as it is in a
performance. -/
theorem operate_of_cyclic (sound : conductor.graph.Sound)
    (idle : conductor.phase = .idle) (cyclic : ¬ Graph.Acyclic conductor.graph.nodes)
    {operation : Operation} (performs : operation.performs = true) :
    conductor.operate operation = (.nothing, conductor) := by
  cases operation with
  | begin => rw [operate, begin_of_cyclic sound idle cyclic]
  | step | cancel | finish | settle => exact operate_of_idle idle rfl
  | edit change =>
    cases change with
    | sort => rw [operate, Graph.edit, sound.sorted_of_circle cyclic]
    | place | depend | touch => cases performs
  | refill => cases performs

theorem Performs.eq_of_cyclic {after : Conductor} {events : List Lifecycle}
    (performed : conductor.Performs events after) (sound : conductor.graph.Sound)
    (idle : conductor.phase = .idle) (cyclic : ¬ Graph.Acyclic conductor.graph.nodes) :
    after = conductor := by
  obtain ⟨history, performs, -, rfl⟩ := performed
  induction history with
  | nil => rfl
  | cons operation rest ih =>
    rw [run, operate_of_cyclic sound idle cyclic (performs operation (List.mem_cons_self ..))]
    exact ih fun other member => performs other (List.mem_cons_of_mem _ member)

end Conductor

namespace Live

variable (b : Behaviour U) {live : Live U}

/-- The labels of the units on circles, in the order in which these came in. -/
def circleLabels (live : Live U) : List String :=
  (live.conductor.graph.units (Graph.circle live.conductor.graph.nodes)).map
    live.sequence.registry.label

theorem start_of_circle (sound : live.conductor.graph.Sound) (idle : live.conductor.phase = .idle)
    (cyclic : ¬ Graph.Acyclic live.conductor.graph.nodes) :
    live.start b = (.error (.cyclic live.circleLabels), live) ∧
      live.cueStory b .start = [.refused] := by
  obtain ⟨refused, started, story⟩ :=
    startRun_of_refused b (Conductor.begin_of_cyclic sound idle cyclic)
  refine ⟨?_, ?_⟩
  · rw [start, started]
    rfl
  · rw [cueStory, respondStory, obeyStory, story, refused]
    rfl

theorem sortedUnits_of_circle (sound : live.conductor.graph.Sound)
    (cyclic : ¬ Graph.Acyclic live.conductor.graph.nodes) :
    live.sequence.sortedUnits = (.error (.cyclic live.circleLabels), live.sequence) := by
  have refused : live.sequence.graph.sorted = _ := sound.sorted_of_circle cyclic
  rw [Sequence.sortedUnits, refused]
  rfl

theorem start_of_acyclic (sound : live.conductor.graph.Sound)
    (acyclic : Graph.Acyclic live.conductor.graph.nodes) : (live.start b).1 = .ok () := by
  obtain ⟨decision, next, begun⟩ := Conductor.begin_of_acyclic sound acyclic
  obtain ⟨-, started, -⟩ := startRun_of_begun b begun
  rw [start, started]

theorem sortedUnits_of_acyclic (sound : live.conductor.graph.Sound)
    (acyclic : Graph.Acyclic live.conductor.graph.nodes) :
    ∃ units, live.sequence.sortedUnits.1 = .ok units := by
  obtain ⟨order, sorted, -⟩ := sound.sorted_of_acyclic acyclic
  have found : live.sequence.graph.sorted.1 = .ok order := sorted
  refine ⟨live.sequence.graph.sorted.2.units order, ?_⟩
  simp only [Sequence.sortedUnits, found]

theorem labels_onCue {cue : Cue U} (performs : cue.performs = true) :
    live.sequence.registry.Labels (live.onCue b cue).2.sequence.registry := by
  cases cue with
  | add name unit => exact Registry.labels_insert _ _ _
  | play | together | sequential => cases performs
  | sort =>
    rw [onCue, revise, Sequence.snd_sortedUnits]
    exact .refl _
  | meanwhile change => exact .refl _
  | start | finish | cancel | tick | report | serve =>
    exact setting_onCue (Registry.throughout_labels b) live rfl

theorem labels_rehearse {cues : List (Cue U)} (performs : ∀ cue ∈ cues, cue.performs = true) :
    live.sequence.registry.Labels (live.rehearse b cues).2.sequence.registry := by
  induction cues generalizing live with
  | nil => exact .refl _
  | cons cue rest ih =>
    exact (labels_onCue b (performs cue (List.mem_cons_self ..))).trans
      (ih fun other member => performs other (List.mem_cons_of_mem _ member))

/-- As long as no units are related the labels on circles stay what they are. -/
theorem circleLabels_rehearse (reached : live.Reached) {cues : List (Cue U)}
    (performs : ∀ cue ∈ cues, cue.performs = true)
    (same : (live.rehearse b cues).2.conductor = live.conductor) :
    (live.rehearse b cues).2.circleLabels = live.circleLabels := by
  rw [circleLabels, circleLabels, same]
  refine List.map_congr_left fun unit listed => ?_
  obtain ⟨node, -, named⟩ := List.mem_filterMap.1 listed
  obtain ⟨found, there, rfl⟩ := Graph.unit?_eq_some.1 named
  have known := reached.grounded.registered found.unit
    (List.mem_map_of_mem (List.mem_of_getElem? there))
  exact (labels_rehearse b performs found.unit known).2

/-- However an idle sequence came about, it refuses to start, and to sort its units, just if its
nodes wait for one another in a circle. Then it names the nodes that lie on circles, each once and
in the order in which they came in; whoever finds these from the components of what remains finds
the same, and always some. The sequence and its stage are left as they are: no unit is asked and no
listener told. And until units are related anew it stays idle, whatever else is asked of it, and
refuses in the same words. -/
theorem cycle_refused (b : Behaviour U) (number : Nat) (stage : Stage) (cues : List (Cue U))
    (components : List Nat → List (Nat × Nat) → List (List Nat)) :
    let live := (Live.rehearse b cues ⟨.empty number, stage⟩).2
    let nodes := live.conductor.graph.nodes
    live.conductor.phase = .idle →
    (∀ vertices edges, vertices.Nodup → (∀ edge ∈ edges, edge.1 ∈ vertices ∧ edge.2 ∈ vertices) →
      Components vertices edges (components vertices edges)) →
    ((∃ refusal, (live.start b).1 = .error refusal) ↔ ¬ Graph.Acyclic nodes) ∧
    ((∃ refusal, live.sequence.sortedUnits.1 = .error refusal) ↔ ¬ Graph.Acyclic nodes) ∧
    ((Graph.circle nodes).Pairwise (· < ·) ∧
      ∀ node, node ∈ Graph.circle nodes ↔ Relation.TransGen (Graph.Waits nodes) node node) ∧
    (¬ Graph.Acyclic nodes →
      (∃ remainder, Graph.waveOrder nodes = .error remainder ∧
        remainder.filter (Graph.awaited nodes).onCycle ≠ [] ∧
        Graph.cycleMembers nodes remainder = Graph.circle nodes ∧
        Graph.looped components nodes remainder ≠ [] ∧
        Graph.membersByComponents components nodes remainder = Graph.circle nodes) ∧
      live.start b = (.error (.cyclic live.circleLabels), live) ∧
        live.cueStory b .start = [.refused] ∧
      live.sequence.sortedUnits = (.error (.cyclic live.circleLabels), live.sequence) ∧
      ∀ more : List (Cue U), (∀ cue ∈ more, cue.performs = true) →
        let later := (live.rehearse b more).2
        later.conductor = live.conductor ∧
          later.start b = (.error (.cyclic live.circleLabels), later) ∧
          later.cueStory b .start = [.refused]) := by
  intro live nodes idle lists
  have reached : live.Reached := (reached_empty number stage).rehearse cues
  have sound := reached.conductor.sound
  have arena := sound.arena
  refine ⟨?_, ?_, ⟨List.pairwise_lt_range.filter _, fun node => Graph.mem_circle arena⟩,
    fun cyclic => ⟨?_, ?_⟩⟩
  · constructor
    · rintro ⟨refusal, refused⟩ acyclic
      rw [start_of_acyclic b sound acyclic] at refused
      cases refused
    · intro cyclic
      exact ⟨_, congrArg Prod.fst (start_of_circle b sound idle cyclic).1⟩
  · constructor
    · rintro ⟨refusal, refused⟩ acyclic
      obtain ⟨units, sorted⟩ := sortedUnits_of_acyclic sound acyclic
      rw [sorted] at refused
      cases refused
    · intro cyclic
      exact ⟨_, congrArg Prod.fst (sortedUnits_of_circle sound cyclic)⟩
  · cases refused : Graph.waveOrder nodes with
    | ok order => exact absurd ((Graph.waveOrder_isOk_iff arena).1 ⟨order, refused⟩) cyclic
    | error remainder =>
      have edges : ∀ edge ∈ Graph.edgesAmong nodes remainder, edge.1 ∈ remainder ∧
          edge.2 ∈ remainder :=
        fun edge listed => (Graph.joined_edgesAmong.1 listed).2
      have nodup : remainder.Nodup := (Graph.ascending_remainder refused).imp Nat.ne_of_lt
      obtain ⟨here, members⟩ := Graph.cycleMembers_eq arena refused
      obtain ⟨some, found⟩ := Graph.membersByComponents_eq arena refused
        (lists remainder _ nodup edges)
      exact ⟨remainder, rfl, here ▸ Graph.circle_ne_nil arena cyclic, members, some, found⟩
  · obtain ⟨started, story⟩ := start_of_circle b sound idle cyclic
    refine ⟨started, story, sortedUnits_of_circle sound cyclic, fun more performs => ?_⟩
    obtain ⟨events, performed⟩ := live.performs_rehearse b performs
    have same := performed.eq_of_cyclic sound idle cyclic
    have later : (live.rehearse b more).2.conductor.graph.Sound := same ▸ sound
    have again := start_of_circle b later (same ▸ idle) (same ▸ cyclic)
    rw [circleLabels_rehearse b reached performs same] at again
    exact ⟨same, again⟩

/-- Four units, the second and third of which wait for each other, and the fourth for the third. -/
def ringCues : List (Cue Unit) :=
  [.add none (), .add (some "low") (), .add (some "high") (), .add none (),
    .sequential [⟨0, 0⟩, ⟨0, 1⟩],
    .sequential [⟨0, 1⟩, ⟨0, 2⟩, ⟨0, 1⟩], .sequential [⟨0, 2⟩, ⟨0, 3⟩]]

theorem cycle_refused_ring :
    let live := (Live.rehearse mute ringCues ⟨.empty 0, Stage.bare⟩).2
    live.start mute = (.error (.cyclic ["low", "high"]), live) ∧
      ((live.rehearse mute [.start, .add none (), .cancel]).2.start mute).1 =
        .error (.cyclic ["low", "high"]) := by
  have labels : (Live.rehearse mute ringCues ⟨.empty 0, Stage.bare⟩).2.circleLabels =
      ["low", "high"] := by cbv
  obtain ⟨-, -, ⟨-, members⟩, reported⟩ :=
    cycle_refused mute 0 Stage.bare ringCues strongParts (by cbv)
    fun vertices edges nodup _ => components_strongParts nodup edges
  have found :
      Graph.circle (Live.rehearse mute ringCues ⟨.empty 0, Stage.bare⟩).2.conductor.graph.nodes =
      [1, 2] := by cbv
  rw [found] at members
  have loop := (members 1).1 (by decide)
  obtain ⟨-, started, -, -, later⟩ := reported fun acyclic => acyclic 1 loop
  rw [labels] at started later
  exact ⟨started,
    congrArg Prod.fst (later [.start, .add none (), .cancel] (List.all_eq_true.1 (by cbv))).2.1⟩

end Live

end Choreo
