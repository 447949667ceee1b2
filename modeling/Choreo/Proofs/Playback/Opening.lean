import Choreo.Proofs.Playback.Loop

/-!
# From the start to the end

A run begins with the performers that wait for nothing, and there are some unless the graph is
empty. What they report at once is looked at before the scene announces its start.
-/

namespace Choreo

theorem Graph.Ordering.exists_root {nodes : List Node} {order : List Nat}
    (ordering : Ordering nodes order) (some : nodes ≠ []) :
    ∃ node ∈ order, prerequisites nodes node = [] := by
  have inside : 0 ∈ order := (ordering.mem_iff 0).2 (List.length_pos_iff.2 some)
  obtain ⟨first, rest, rfl⟩ := List.exists_cons_of_ne_nil (List.ne_nil_of_mem inside)
  refine ⟨first, List.mem_cons_self .., List.eq_nil_iff_forall_not_mem.2 fun p waits => ?_⟩
  have less := ordering.before first p waits
  simp at less

namespace Score

variable {score : Score} {live : Scene}

/-- A scene that has not been started. -/
structure Ready (score : Score) (graph : Graph) (live : Scene) : Prop where
  fresh : live.conductor = { Conductor.fresh with graph }
  sound : graph.Sound
  sorted : ∃ order, graph.sorted.1 = .ok order
  graph : score.graph = graph.sorted.2
  staged : score.Staged [] 0 [] (fun _ => none) live
  some : score.courses ≠ []

namespace Ready

variable {graph : Graph}

theorem begin (ready : score.Ready graph live) :
    ∃ order opened, Graph.Ordering score.graph.nodes order ∧
      live.conductor.begin = (.ok ⟨(order.filter (score.graph.ready [])).map (fun node =>
        Command.call .start ⟨0, node⟩) ++ [.announce .started], false⟩, opened) ∧
      Conductor.Tracks score.graph order [] opened ∧ opened.Coherent ∧
      Conductor.Manned score.graph [] opened := by
  have idle : live.conductor.phase = .idle := by
    rw [ready.fresh]
    rfl
  have place : live.conductor.graph.sorted.2 = score.graph := by rw [ready.fresh, ready.graph]
  have sound : live.conductor.graph.Sound := by
    rw [ready.fresh]
    exact ready.sound
  have coherent : live.conductor.Coherent := by
    rw [ready.fresh]
    exact ⟨.nil, fun _ => ⟨rfl, rfl, rfl⟩, fun running => (by cases running),
      fun _ => rfl, fun ending => (by cases ending)⟩
  rcases Conductor.begin_cases live.conductor with ⟨active, -⟩ | ⟨cycle, -, refused, -⟩ |
    ⟨order, opened, -, sorted, rfl, ⟨none, -⟩ | ⟨-, begun⟩⟩
  · exact absurd idle active
  · obtain ⟨order, sorted⟩ := ready.sorted
    rw [ready.fresh, sorted] at refused
    cases refused
  · have ordering := sound.ordering sorted
    rw [← Graph.nodes_sorted, place] at ordering
    simp only [Conductor.launch, place] at none
    rw [Conductor.roots_eq score.graph ordering, score.units_filter ordering] at none
    obtain ⟨node, member, root⟩ := ordering.exists_root fun empty => ready.some (by
      rw [← List.length_eq_zero_iff, ← score.length_nodes, empty]
      rfl)
    have waits : score.graph.dependencies node = [] := by
      apply List.eq_nil_iff_forall_not_mem.2
      intro d declared
      obtain ⟨holder, hholder, here⟩ := Graph.mem_dependencies.1 declared
      have listed := Graph.mem_prerequisites.2 ⟨holder, hholder, d, here, rfl⟩
      rw [root] at listed
      cases listed
    have starts : node ∈ order.filter (score.graph.ready []) :=
      List.mem_filter.2 ⟨member, (Graph.ready_nil score.graph node).2 waits⟩
    rw [List.map_eq_nil_iff] at none
    rw [none] at starts
    cases starts
  · obtain ⟨first, ordering, tracks, -, plays⟩ := Conductor.tracks_begin sound idle begun rfl
    have graph : (Conductor.launch order
        { live.conductor with graph := live.conductor.graph.sorted.2 }).graph = score.graph := place
    rw [graph] at ordering tracks plays
    have manned : Conductor.Manned score.graph [] (Conductor.launch order
        { live.conductor with graph := live.conductor.graph.sorted.2 }) := by
      intro node unit named now
      rw [plays, Conductor.mem_units score.sound.arena ordering _ named]
      exact .inl now
    have coherent := (Conductor.begin_spec sound coherent).1
    rw [Conductor.operate, begun] at coherent
    rw [plays, score.units_filter ordering, List.map_map] at begun
    exact ⟨first, _, ordering, begun, tracks, coherent, manned⟩

theorem starts_eq_zero {node : Nat} (inside : node < score.courses.length)
    (root : score.graph.ready [] node = true) : score.starts node = 0 := by
  rw [← Nat.le_zero, score.due node inside]
  intro d declared
  rw [(Graph.ready_nil score.graph node).1 root] at declared
  cases declared

theorem underway (ready : score.Ready graph live) :
    ∃ order decision opened next, Graph.Ordering score.graph.nodes order ∧
      live.conductor.begin = (.ok decision, opened) ∧
      Live.execute Performer.behaviour decision.commands (live.withConductor opened) =
        ([.started], next) ∧
      score.Underway order [] 0 [] next := by
  obtain ⟨order, opened, ordering, begun, tracks, coherent, manned⟩ := ready.begin
  have inside : ∀ node ∈ order, node < score.courses.length := by
    intro node listed
    rw [← score.length_nodes]
    exact (ordering.mem_iff node).1 listed
  obtain ⟨next, done, staged⟩ := (ready.staged.withConductor opened).execute
    (ordering.nodup.filter (score.graph.ready [])) fun node member => by
      obtain ⟨listed, root⟩ := List.mem_filter.1 member
      exact ⟨inside node listed, rfl, starts_eq_zero (inside node listed) root⟩
  have conductor : next.conductor = opened := by
    have kept := Live.conductor_execute Performer.behaviour
      ((order.filter (score.graph.ready [])).map fun node => .call .start ⟨0, node⟩)
      (live.withConductor opened)
    rw [done] at kept
    exact kept
  refine ⟨order, _, opened, next, ordering, begun, ?_, ?_⟩
  · rw [Live.execute_append, done]
    rfl
  · constructor
    · rwa [conductor]
    · rwa [conductor]
    · rwa [conductor]
    · intro node _ ended
      cases ended
    · intro node _ before
      cases before
    · exact fun node within root => Nat.le_of_eq (starts_eq_zero within root)
    · refine staged.congr fun node within => ?_
      have listed : node ∈ order := (ordering.mem_iff node).2 (by rwa [score.length_nodes])
      simp only [List.mem_filter, listed, true_and, progressAt, Nat.zero_min, Nat.zero_sub]

end Ready

theorem Underway.deliver {order : List Nat} {own : List (Nat × Lifecycle)}
    {k : Nat} {seen : List Report} (underway : score.Underway order own k seen live)
    (events : List Lifecycle) :
    score.Underway order (own ++ events.map fun event => (k * score.tick.ns, event)) k seen
      (live.deliver events) :=
  ⟨underway.tracks, underway.coherent, underway.manned, underway.gone, underway.early,
    underway.late, underway.staged.deliver events⟩

/-- A whole playback: it goes on until everything has ended, the cap is reached or the clock cannot
move on. -/
theorem Ready.virtual_cases {graph : Graph} (ready : score.Ready graph live) (cap : Span) :
    let played := Playback.virtual Performer.behaviour ⟨score.tick, cap⟩ live
    score.Over (ticksFor score.tick.ns cap.ns) [(0, .started)] played ∨
      score.Overrun (ticksFor score.tick.ns cap.ns) played := by
  obtain ⟨order, decision, opened, first, ordering, begun, done, underway⟩ := ready.underway
  have run : live.startRun Performer.behaviour =
      (.ok (.started :: (first.drain Performer.behaviour).1),
       (first.drain Performer.behaviour).2) := by
    rw [Live.startRun, begun]
    simp only [Live.drive, done]
    rfl
  -- the clock still shows zero, so all ticks up to the cap are left
  have steps : ∀ next : Scene, next.stage.recording.now.ns = 0 * score.tick.ns →
      Playback.stepsToCap ⟨score.tick, cap⟩ (Playback.now next) =
        ticksFor score.tick.ns cap.ns := by
    intro next clock
    rw [Nat.zero_mul] at clock
    rw [Playback.stepsToCap, Playback.now, clock]
    rfl
  rw [Playback.virtual, Live.start, run]
  rcases underway.drain ordering with ⟨seen, next, drained, underway, none⟩
    | ⟨next, drained, finished⟩
  · have delivered := underway.deliver [.started]
    rw [drained]
    simp only [underway.staged.quiet.publish, steps _ delivered.staged.clock]
    have own := delivered.goOn_cases ordering none cap (Nat.zero_add _)
    simpa using own
  · obtain ⟨seen, staged⟩ := finished.staged
    have delivered := staged.deliver [.started, .ended]
    rw [drained]
    simp only [staged.quiet.publish, steps _ delivered.clock]
    have closed :
        score.Finished ([(0 * score.tick.ns, .started)] ++ [(0 * score.tick.ns, .ended)]) 0
        (next.deliver [.started, .ended]) := ⟨finished.idle, finished.ends, seen, delivered⟩
    have own := closed.goOn ⟨score.tick, cap⟩ (Nat.zero_le (ticksFor score.tick.ns cap.ns))
      ⟨0, List.length_pos_iff.2 ready.some, Nat.zero_le _⟩ (ticksFor score.tick.ns cap.ns)
    exact .inl (by simpa using own)

theorem Ready.virtual {graph : Graph} (ready : score.Ready graph live) {cap : Span}
    (bound : score.tick.ns + cap.ns ≤ Span.limit) :
    score.Over (ticksFor score.tick.ns cap.ns) [(0, .started)]
      (Playback.virtual Performer.behaviour ⟨score.tick, cap⟩ live) :=
  (ready.virtual_cases cap).resolve_right (not_overrun bound)

end Score

end Choreo
