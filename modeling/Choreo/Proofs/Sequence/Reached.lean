import Choreo.Proofs.Run.Grafted
import Choreo.Proofs.Sequence.Moves

/-!
# What a sequence can come to

Whatever is asked of a sequence, whether or not it comes back, the sequence owns all units of its
graph, and its conductor has come to where it is by a history. So all that is known of reachable
conductors is known of the conductors of sequences, in whatever way their units behave.
-/

namespace Choreo

variable {U : Type} {b : Behaviour U}

namespace Conductor

theorem unit_mem_of_unit? {graph : Graph} {node : Nat} {unit : UnitId}
    (named : graph.unit? node = some unit) :
    unit ∈ graph.nodes.map Node.unit := by
  rw [Graph.unit?_eq_getElem] at named
  exact List.mem_of_getElem? named

theorem unit_mem_of_units {graph : Graph} {places : List Nat} {unit : UnitId}
    (h : unit ∈ graph.units places) :
    unit ∈ graph.nodes.map Node.unit := by
  obtain ⟨node, -, named⟩ := List.mem_filterMap.1 h
  exact unit_mem_of_unit? named

/-- What plays has a node. -/
theorem Reachable.playing_mem {conductor : Conductor} (reached : conductor.Reachable)
    {unit : UnitId} (plays : unit ∈ conductor.playing.units) :
    unit ∈ conductor.graph.nodes.map Node.unit := by
  obtain ⟨node, named, -⟩ := reached.wired.playing unit plays
  exact unit_mem_of_unit? named

theorem mem_of_call_mem {act other : Act} {unit : UnitId} {units : List UnitId}
    (called : .call act unit ∈ units.map (Command.call other)) : unit ∈ units := by
  obtain ⟨id, member, same⟩ := List.mem_map.1 called
  obtain ⟨-, rfl⟩ := Command.call.inj same
  exact member

theorem mem_of_call_mem_append {act other : Act} {unit : UnitId}
    {units : List UnitId} {event : Lifecycle}
    (called : .call act unit ∈ units.map (Command.call other) ++ [.announce event]) :
    unit ∈ units := by
  rcases List.mem_append.1 called with earlier | last
  · exact mem_of_call_mem earlier
  · simp at last

/-- Whatever is done to a conductor, only units that have nodes are called. -/
theorem Reachable.called_mem {conductor : Conductor}
    (reached : conductor.Reachable) (operation : Operation) {act : Act} {unit : UnitId}
    (called : .call act unit ∈ (conductor.operate operation).1.commands) :
    unit ∈ conductor.graph.nodes.map Node.unit := by
  cases operation with
  | begin =>
    rcases begin_cases conductor with ⟨-, begun⟩ | ⟨cycle, -, -, begun⟩ |
      ⟨order, opened, -, sorted, rfl, ⟨none, begun⟩ | ⟨-, begun⟩⟩
    all_goals simp only [operate, begun, Decision.nothing, List.not_mem_nil] at called
    · simp at called
    · have root := unit_mem_of_units (mem_of_call_mem_append called)
      simpa using root
  | step report =>
    by_cases idle : conductor.phase = .idle
    · rw [operate, step_of_idle report idle] at called
      cases called
    cases found : conductor.graph.nodeFor? report.unit with
    | none =>
      rw [operate, step_of_absent found] at called
      cases called
    | some node =>
      have starts : unit ∈ conductor.starting report.event node := by
        rw [operate, reached.wired.step_eq reached.sound.arena idle found] at called
        split at called
        · exact mem_of_call_mem_append called
        · exact mem_of_call_mem called
      rw [starting] at starts
      split at starts
      · exact unit_mem_of_units starts
      · cases starts
  | cancel =>
    simp only [operate, cancelRun] at called
    split at called
    · refine reached.playing_mem ?_
      cases empty : conductor.playing.drain.1.isEmpty <;> simp only [empty] at called
      · exact mem_of_call_mem_append called
      · exact mem_of_call_mem called
    · cases called
  | finish =>
    simp only [operate, endRun] at called
    split at called
    · exact reached.playing_mem (mem_of_call_mem called)
    · cases called
  | settle =>
    simp only [operate, settle] at called
    split at called <;> simp [Decision.nothing] at called
  | edit | refill => cases called

end Conductor

theorem Sequence.Extended.reachable {timer : Span → U} {before after : Sequence U}
    (h : Extended timer before after) (reached : before.conductor.Reachable) :
    after.conductor.Reachable := by
  obtain ⟨changes, same⟩ := h.edited
  rw [h.conductor, same]
  have edits := reached.run (changes.map .edit)
  rwa [Conductor.run_edits] at edits

namespace Live

/-- The sequence owns the units of its graph, and a history leads to its conductor. -/
structure Reached (live : Live U) : Prop where
  grounded : live.sequence.Grounded
  conductor : live.conductor.Reachable

theorem reached_empty (number : Nat) (stage : Stage) : (⟨.empty number, stage⟩ : Live U).Reached :=
  ⟨Sequence.grounded_empty number, ⟨[], rfl⟩⟩

/-- Calls, deliveries and the serving of requests keep the names in a register. -/
theorem throughout_contains (b : Behaviour U) :
    b.Throughout fun before after => ∀ id, after.1.contains id = before.1.contains id :=
  ⟨⟨fun _ _ => rfl, fun one two id => (two id).trans (one id),
    fun _ _ _ _ _ known id => Registry.contains_update known _ id,
    fun _ _ _ _ _ known id => Registry.contains_update known _ id⟩, fun _ _ _ _ => rfl,
    fun _ _ => rfl⟩

theorem Reached.keep {live next : Live U} (reached : live.Reached)
    (names : ∀ id, next.sequence.registry.contains id = live.sequence.registry.contains id)
    (nodes : next.conductor.graph.nodes = live.conductor.graph.nodes)
    (conductor : next.conductor.Reachable) :
    next.Reached := by
  refine ⟨⟨conductor.sound, fun unit member => ?_⟩, conductor⟩
  rw [names]
  exact reached.grounded.registered unit (nodes ▸ member)

/-- Whatever part of what was decided is carried out, the sequence is one that can be come to. -/
theorem Reached.execute {live : Live U} (reached : live.Reached) (operation : Operation)
    (performs : operation.performs = true) (queue : List Report) (commands : List Command) :
    (execute b commands (live.conducted (live.conductor.operate operation).2 queue)).2.Reached := by
  refine reached.keep (setting_execute (throughout_contains b).toWithin _ commands) ?_ ?_ <;>
    rw [conductor_execute]
  · exact Conductor.nodes_operate performs live.conductor
  · exact reached.conductor.run [operation]

theorem Move.reached {live next : Live U} {story : List Happening} (move : Move b live story next)
    (reached : live.Reached) : next.Reached := by
  have names : ∀ id, next.sequence.registry.contains id = live.sequence.registry.contains id :=
    move.setting (throughout_contains b)
  cases move with
  | decide operation performs queue => exact reached.execute operation performs queue _
  | refuse =>
    have begun := reached.execute (b := b) .begin rfl live.sequence.queue []
    rwa [Conductor.operate_begin] at begun
  | tick delta id =>
    refine reached.keep names ?_ ?_ <;> rw [conductor_tickUnit]
    exact reached.conductor
  | deliver | take | enqueue => exact reached.keep names rfl reached.conductor

theorem Moves.reached {live next : Live U} {story : List Happening}
    (moves : Moves b live story next) (reached : live.Reached) : next.Reached := by
  induction moves with
  | nil => exact reached
  | cons now _ ih => exact ih (now.reached reached)

theorem Reached.perform {live : Live U} (reached : live.Reached) {cue : Cue U}
    (calls : cue.calls = true) : (live.onCue b cue).2.Reached :=
  (moves_onCue b live cue calls).reached reached

theorem Reached.relate {live : Live U} (reached : live.Reached) {cue : Cue U}
    (relates : cue.relates = true) : (live.onCue b cue).2.Reached := by
  obtain ⟨-, grounded, extended⟩ := extended_onCue b reached.grounded relates
  exact ⟨grounded, extended.reachable reached.conductor⟩

theorem Reached.onCue {live : Live U} (reached : live.Reached) (cue : Cue U) :
    (live.onCue b cue).2.Reached := by
  cases cue with
  | add label unit => exact ⟨reached.grounded.engage _, reached.conductor⟩
  | meanwhile => exact ⟨reached.grounded, reached.conductor⟩
  | play | together | sequential | sort => exact reached.relate rfl
  | start | finish | cancel | tick | report | serve => exact reached.perform rfl

theorem Reached.rehearse {live : Live U} (reached : live.Reached) (cues : List (Cue U)) :
    (live.rehearse b cues).2.Reached := by
  induction cues generalizing live with
  | nil => exact reached
  | cons cue rest ih => exact ih (reached.onCue cue)

end Live

end Choreo
