import Choreo.Proofs.Run.StartRule
import Choreo.Proofs.Sequence.Reached

/-!
# Relating units during a run

A run that is under way takes no notice of what is related meanwhile, of units old or new, waiting,
playing or blocked: it decides, plays and waits as it would have done. All of it counts for the next
run, which is the first run of the graph as it is then, and is refused if the units wait in a circle
now.
-/

namespace Choreo

variable {U : Type}

/-- A cue that registers or relates units. -/
def Cue.builds : Cue U → Bool
  | .add .. => true
  | cue => cue.relates

namespace Live

variable (b : Behaviour U) {live : Live U}

theorem edited_relate (reached : live.Reached) {cue : Cue U} (relates : cue.relates = true) :
    ∃ changes : List Edit,
      (live.onCue b cue).2.conductor = (live.conductor.run (changes.map .edit)).2 := by
  have extended := (extended_onCue b reached.grounded relates).2.2
  obtain ⟨changes, same⟩ := extended.edited
  refine ⟨changes, ?_⟩
  rw [Conductor.run_edits]
  exact extended.conductor.trans (by rw [same]; rfl)

theorem edited_onCue (reached : live.Reached) {cue : Cue U} (builds : cue.builds = true) :
    ∃ changes : List Edit,
      (live.onCue b cue).2.conductor = (live.conductor.run (changes.map .edit)).2 := by
  cases cue with
  | add => exact ⟨[], rfl⟩
  | play | together | sequential | sort => exact edited_relate b reached rfl
  | start | finish | cancel | tick | report | serve | meanwhile => cases builds

theorem edited_rehearse (reached : live.Reached) {cues : List (Cue U)}
    (builds : ∀ cue ∈ cues, cue.builds = true) : ∃ changes : List Edit,
      (live.rehearse b cues).2.conductor = (live.conductor.run (changes.map .edit)).2 := by
  induction cues generalizing live with
  | nil => exact ⟨[], rfl⟩
  | cons cue rest ih =>
    obtain ⟨first, now⟩ := edited_onCue b reached (builds cue (List.mem_cons_self ..))
    obtain ⟨more, later⟩ := ih (reached.onCue cue) fun other member =>
      builds other (List.mem_cons_of_mem _ member)
    refine ⟨first ++ more, later.trans ?_⟩
    rw [now, List.map_append, Conductor.run_append]

end Live

namespace Conductor

variable {c : Conductor}

theorem Reachable.run_edited (reached : c.Reachable) (changes : List Edit)
    {history : List Operation} (steers : ∀ operation ∈ history, operation.steers = true) :
    let edited := (c.run (changes.map .edit)).2
    edited.run history = ((c.run history).1, { (c.run history).2 with graph := edited.graph }) := by
  intro edited
  have reached' : edited.Reachable := reached.run _
  have sound := reached'.sound
  simp only [edited, run_edits] at sound ⊢
  exact run_regraph reached.wired reached.sound (c.graph.extends_edits changes) sound steers

theorem Reachable.anew (reached : c.Reachable) (idle : c.phase = .idle) :
    c.begin.1 = (onceFresh c.graph).begin.1 ∧
      ((∃ cycle, c.begin.1 = .error cycle) ↔ ¬ Graph.Acyclic c.graph.nodes) ∧
      (Graph.Acyclic c.graph.nodes → ∀ operations,
        (c.run (.begin :: operations)).2.Alike ((onceFresh c.graph).run (.begin :: operations)).2) ∧
      ∀ operations, (c.run operations).1 = ((onceFresh c.graph).run operations).1 := by
  have sound : (onceFresh c.graph).graph.Sound := reached.sound
  have level : c.Level (onceFresh c.graph) := reached.coherent.level_fresh idle
  refine ⟨begin_eq_of_nodes reached.sound sound level.nodes idle rfl,
    begin_refused_iff reached.sound idle, fun acyclic operations => ?_,
    fun operations => (level.run reached.sound sound operations).1⟩
  exact (run_begin_alike reached.sound sound level.nodes acyclic idle rfl operations).2

/-- Edits do not touch the run that is under way: whatever is reported and however it is brought to
its end, it goes on as it would have done without them. The next run is the first one of the edited
graph: it is refused exactly if that has a cycle, and it and all that follows are those of a
conductor that never did anything else. Whatever a sequence registers and relates is a list of such
edits. -/
theorem edits_wait (reached : c.Reachable) :
    (∀ (changes : List Edit) (history : List Operation),
      (∀ operation ∈ history, operation.steers = true) →
      let edited := (c.run (changes.map .edit)).2
      let after := (edited.run history).2
      (edited.run history).1 = (c.run history).1 ∧ after.phase = (c.run history).2.phase ∧
        after.playing = (c.run history).2.playing ∧ after.waiting = (c.run history).2.waiting ∧
        after.graph = edited.graph ∧
        (after.phase = .idle →
          after.begin.1 = (onceFresh edited.graph).begin.1 ∧
          ((∃ cycle, after.begin.1 = .error cycle) ↔ ¬ Graph.Acyclic edited.graph.nodes) ∧
          (Graph.Acyclic edited.graph.nodes → ∀ operations,
            (after.run (.begin :: operations)).2.Alike
              ((onceFresh edited.graph).run (.begin :: operations)).2) ∧
          ∀ operations, (after.run operations).1 = ((onceFresh edited.graph).run operations).1)) ∧
    ∀ (U : Type) (b : Behaviour U) (number : Nat) (stage : Stage) (earlier cues : List (Cue U)),
      let live : Live U := ((⟨.empty number, stage⟩ : Live U).rehearse b earlier).2
      (∀ cue ∈ cues, cue.builds = true) → live.conductor.Reachable ∧ ∃ changes : List Edit,
        (live.rehearse b cues).2.conductor = (live.conductor.run (changes.map .edit)).2 := by
  constructor
  · intro changes history steers edited after
    have same : edited.run history =
        ((c.run history).1, { (c.run history).2 with graph := edited.graph }) :=
      reached.run_edited changes steers
    have last : after = { (c.run history).2 with graph := edited.graph } := by
      simp only [after, same]
    have graph : after.graph = edited.graph := by rw [last]
    have reached' : after.Reachable := (reached.run _).run history
    refine ⟨by rw [same], by rw [last], by rw [last], by rw [last], graph, fun idle => ?_⟩
    have next := reached'.anew idle
    rwa [graph] at next
  · intro U b number stage earlier cues live builds
    have here : live.Reached := (Live.reached_empty number stage).rehearse earlier
    exact ⟨here.conductor, Live.edited_rehearse b here builds⟩

/-- A unit comes in during a run and makes the first one wait for the last one: the run ends as it
would have done, and the next one is refused. -/
theorem edits_wait_pair :
    let c := (pair.run [.begin]).2
    let changes : List Edit := [.place ⟨0, 2⟩, .depend 2 ⟨1, .onEnd⟩, .depend 0 ⟨2, .onEnd⟩]
    let history : List Operation := [.step ⟨⟨0, 0⟩, .started⟩, .step ⟨⟨0, 0⟩, .ended⟩,
      .step ⟨⟨0, 2⟩, .ended⟩, .step ⟨⟨0, 1⟩, .started⟩, .step ⟨⟨0, 1⟩, .ended⟩]
    let edited := (c.run (changes.map .edit)).2
    c.phase = .running ∧ (edited.run history).1 = (c.run history).1 ∧
      (edited.run history).2.phase = .idle ∧
      ∃ cycle, (edited.run history).2.begin.1 = .error cycle := by
  intro c changes history edited
  obtain ⟨decided, -, -, -, -, next⟩ :=
    (edits_wait (c := c) (reachable_pair.run [.begin])).1 changes history (by decide)
  obtain ⟨anew, -⟩ := next (by decide +kernel)
  refine ⟨by decide +kernel, decided, by decide +kernel, ⟨[⟨0, 0⟩, ⟨0, 1⟩, ⟨0, 2⟩]⟩, ?_⟩
  rw [anew]
  decide +kernel

end Conductor

end Choreo
