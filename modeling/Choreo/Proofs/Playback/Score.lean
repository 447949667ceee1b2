import Choreo.Proofs.Performer.Course
import Choreo.Proofs.Playback.Quiet
import Choreo.Proofs.Run.StartRule
import Choreo.Proofs.Sequence.Edits

/-!
# Scores

A score says when each performer of a scene starts, counted in ticks: as soon as everything that it
waits for has happened. How far a scene has come is told by how many ticks have gone by since each
start; from that follow the states of the units, what they have reported, and the recording, in
which the events of a performer stand under its label, merged with the announcements of the scene if
the label is that of the scene.
-/

namespace Choreo

/-- The last list is made of the other two, each of which keeps its order. -/
inductive Merges {α : Type} : List α → List α → List α → Prop where
  | nil : Merges [] [] []
  | left {xs ys zs : List α} (x : α) : Merges xs ys zs → Merges (xs ++ [x]) ys (zs ++ [x])
  | right {xs ys zs : List α} (y : α) : Merges xs ys zs → Merges xs (ys ++ [y]) (zs ++ [y])

namespace Merges

variable {α : Type} {xs ys zs : List α}

theorem append_left (h : Merges xs ys zs) (more : List α) :
    Merges (xs ++ more) ys (zs ++ more) := by
  induction more using List.reverseRecOn with
  | nil => simpa using h
  | append_singleton more x ih =>
    rw [← List.append_assoc, ← List.append_assoc]
    exact ih.left x

theorem append_right (h : Merges xs ys zs) (more : List α) :
    Merges xs (ys ++ more) (zs ++ more) := by
  induction more using List.reverseRecOn with
  | nil => simpa using h
  | append_singleton more y ih =>
    rw [← List.append_assoc, ← List.append_assoc]
    exact ih.right y

theorem eq_right (h : Merges xs ys zs) (none : xs = []) : zs = ys := by
  induction h with
  | nil => rfl
  | left x _ _ => simp at none
  | right y _ ih => rw [ih none]

end Merges

/-- What was recorded under a label, and when. -/
def Recording.track (label : String) (recording : Recording) : List (Nat × Lifecycle) :=
  (recording.moments.toList.filter fun moment => moment.label = label).map fun moment =>
    (moment.time.ns, moment.event)

theorem Recording.track_recordAll (label other : String)
    (events : List Lifecycle) (recording : Recording) :
    (recording.recordAll other events).track label = recording.track label ++
      if other = label then events.map fun event => (recording.now.ns, event) else [] := by
  rw [track, track, moments_recordAll, List.filter_append, List.map_append]
  by_cases same : other = label
  · simp [same, List.filter_map, Function.comp_def]
  · simp [same, List.filter_map, Function.comp_def]

theorem Performer.track_note (label : String) (track : Option String) (events : List Lifecycle)
    (recording : Recording) : (note track events recording).track label = recording.track label ++
      if track = some label then events.map fun event => (recording.now.ns, event) else [] := by
  cases track with
  | none => simp [note]
  | some other => simpa [note] using recording.track_recordAll label other events

namespace Course

variable (course : Course)

def stateAt : Option Nat → Performer
  | none => course.fresh
  | some j => course.state j

def toldAt : Option Nat → List Lifecycle
  | none => []
  | some j => course.told j

def notedAt (tick start : Nat) : Option Nat → List (Nat × Lifecycle)
  | none => []
  | some j => course.noted tick start j

end Course

/-- The tick of the end of a performer. -/
def endOf (courses : List Course) (starts : Nat → Nat) (node : Nat) : Nat :=
  starts node + (courses[node]?.map Course.length).getD 0

/-- The tick at which what a dependency awaits happens. -/
def momentOf (courses : List Course) (starts : Nat → Nat) (d : Dependency) : Nat :=
  match d.rule with
  | .onStart => starts d.node
  | .onEnd => endOf courses starts d.node

/-- Performers with different tracks, what they wait for, and when they start. -/
structure Score where
  tick : Span
  courses : List Course
  starts : Nat → Nat
  graph : Graph
  positive : 0 < tick.ns
  lawful : ∀ course ∈ courses, course.Lawful tick
  distinct : ∀ (i j : Nat) (one two : Course) (label : String), courses[i]? = some one →
    courses[j]? = some two → one.fresh.track = some label → two.fresh.track = some label → i = j
  sound : graph.Sound
  units : graph.nodes.map Node.unit = (List.range courses.length).map (UnitId.mk 0)
  due : ∀ node < courses.length, ∀ k,
    starts node ≤ k ↔ ∀ d ∈ graph.dependencies node, momentOf courses starts d ≤ k

namespace Score

variable (score : Score)

theorem unit?_eq {node : Nat} (inside : node < score.courses.length) :
    score.graph.unit? node = some ⟨0, node⟩ := by
  rw [Graph.unit?_eq_getElem, score.units]
  simp [inside]

theorem length_nodes : score.graph.nodes.length = score.courses.length := by
  simpa using congrArg List.length score.units

theorem units_filter {order : List Nat} (ordering : Graph.Ordering score.graph.nodes order)
    (chosen : Nat → Bool) :
    score.graph.units (order.filter chosen) = (order.filter chosen).map (UnitId.mk 0) := by
  rw [Graph.units, ← List.filterMap_eq_map]
  apply List.filterMap_congr
  intro node member
  have inside := (ordering.mem_iff node).1 (List.mem_of_mem_filter member)
  rw [score.length_nodes] at inside
  exact score.unit?_eq inside

theorem told_append {node other : Nat} (inside : other < score.courses.length)
    (reports : List Report) (events : List Lifecycle) :
    score.graph.told (reports ++ events.map (Report.mk ⟨0, node⟩)) other =
      score.graph.told reports other ++ if other = node then events else [] := by
  rw [Graph.told, List.filter_append, List.map_append, ← Graph.told, score.unit?_eq inside]
  by_cases same : other = node
  · simp [same, List.filter_map, Function.comp_def]
  · simp [same, List.filter_map, Function.comp_def]

theorem endOf_eq {node : Nat} {course : Course} (here : score.courses[node]? = some course) :
    endOf score.courses score.starts node = score.starts node + course.length := by
  simp [endOf, here]

/-- The state of a scene at a tick, seen through its units, its recording and its channels: what has
become of the performers, what the conductor has heard or has yet to hear of them, what is recorded,
and that nobody but the recorder listens. -/
structure Staged (own : List (Nat × Lifecycle)) (now : Nat) (seen : List Report)
    (progress : Nat → Option Nat) (live : Scene) : Prop where
  owner : live.sequence.registry.owner = 0
  performers : ∀ node, live.sequence.registry.get? ⟨0, node⟩ =
    score.courses[node]?.map fun course : Course => course.stateAt (progress node)
  channels : live.stage.channels = Scene.channels
  clock : live.stage.recording.now.ns = now * score.tick.ns
  told : ∀ (node : Nat) (course : Course), score.courses[node]? = some course →
    score.graph.told (seen ++ live.sequence.queue) node = course.toldAt (progress node)
  sources : ∀ report ∈ seen ++ live.sequence.queue,
    ∃ node < score.courses.length, report.unit = ⟨0, node⟩
  noted : ∀ (node : Nat) (course : Course), score.courses[node]? = some course →
    ∀ label, course.fresh.track = some label → Merges (if label = Scene.label then own else [])
      (course.notedAt score.tick.ns (score.starts node) (progress node))
      (live.stage.recording.track label)
  others : ∀ label, (∀ course ∈ score.courses, course.fresh.track ≠ some label) →
    live.stage.recording.track label = if label = Scene.label then own else []

variable {score} {own : List (Nat × Lifecycle)} {now : Nat} {seen : List Report}
  {progress : Nat → Option Nat} {live : Scene}

namespace Staged

theorem quiet (staged : score.Staged own now seen progress live) :
    Scene.Quiet live.stage.recording.now live := ⟨staged.owner, staged.channels, rfl⟩

theorem congr (staged : score.Staged own now seen progress live) {other : Nat → Option Nat}
    (same : ∀ node < score.courses.length, progress node = other node) :
    score.Staged own now seen other live := by
  have here : ∀ (node : Nat) (course : Course), score.courses[node]? = some course →
      progress node = other node := fun node course found =>
    same node (List.getElem?_eq_some_iff.1 found).1
  refine ⟨staged.owner, fun node => ?_, staged.channels, staged.clock, fun node course found => ?_,
    staged.sources, fun node course found => ?_, staged.others⟩
  · rw [staged.performers]
    cases found : score.courses[node]? with
    | none => rfl
    | some course => rw [here node course found]
  · rw [← here node course found]
    exact staged.told node course found
  · rw [← here node course found]
    exact staged.noted node course found

theorem look (staged : score.Staged own now seen progress live) {report : Report}
    {rest : List Report} (queue : live.sequence.queue = report :: rest) (conductor : Conductor) :
    score.Staged own now (seen ++ [report]) progress
      ⟨{ live.sequence with conductor, queue := rest }, live.stage⟩ := by
  have same : (seen ++ [report]) ++ rest = seen ++ live.sequence.queue := by
    rw [queue, List.append_assoc, List.singleton_append]
  refine ⟨staged.owner, staged.performers, staged.channels, staged.clock, ?_, ?_, staged.noted,
    staged.others⟩
  · simpa only [same] using staged.told
  · simpa only [same] using staged.sources

theorem withConductor (staged : score.Staged own now seen progress live) (conductor : Conductor) :
    score.Staged own now seen progress (live.withConductor conductor) :=
  ⟨staged.owner, staged.performers, staged.channels, staged.clock, staged.told, staged.sources,
    staged.noted, staged.others⟩

/-- What a unit reports is queued and recorded. -/
theorem takeBack (staged : score.Staged own now seen progress live) {node : Nat} {course : Course}
    (here : score.courses[node]? = some course) {events : List Lifecycle} {j : Nat}
    (told : course.told j = course.toldAt (progress node) ++ events)
    (noted : course.noted score.tick.ns (score.starts node) j =
      course.notedAt score.tick.ns (score.starts node) (progress node) ++
        events.map fun event => (now * score.tick.ns, event)) :
    score.Staged own now seen (Function.update progress node (some j))
      ⟨live.sequence.takeBack ⟨0, node⟩ events (course.state j), { live.stage with
        recording := Performer.note course.fresh.track events live.stage.recording }⟩ := by
  have inside := (List.getElem?_eq_some_iff.1 here).1
  have known := staged.performers node
  rw [here] at known
  constructor
  · exact staged.owner
  · intro other
    refine (Registry.get?_update known _ _).trans ?_
    by_cases same : other = node
    · subst same
      simp [here, Course.stateAt]
    · simp [same, staged.performers]
  · exact staged.channels
  · rw [Performer.now_note, staged.clock]
  · intro other found there
    have before := staged.told other found there
    have within := (List.getElem?_eq_some_iff.1 there).1
    simp only [Sequence.takeBack, ← List.append_assoc]
    rw [score.told_append within, before]
    by_cases same : other = node
    · subst same
      obtain rfl := Option.some.inj (here.symm.trans there)
      simp [Course.toldAt, told]
    · simp [same]
  · intro report member
    simp only [Sequence.takeBack, ← List.append_assoc, List.mem_append] at member
    rcases member with before | new
    · exact staged.sources report (List.mem_append.2 before)
    · obtain ⟨event, -, rfl⟩ := List.mem_map.1 new
      exact ⟨node, inside, rfl⟩
  · intro other found there label labelled
    have before := staged.noted other found there label labelled
    rw [Performer.track_note, staged.clock]
    by_cases same : other = node
    · subst same
      obtain rfl := Option.some.inj (here.symm.trans there)
      rw [Function.update_self, Course.notedAt, noted, if_pos labelled]
      exact before.append_right _
    · -- tracks are distinct, so this one does not change
      have apart : course.fresh.track ≠ some label := fun also =>
        same (score.distinct other node found course label there here labelled also)
      rw [Function.update_of_ne same, if_neg apart, List.append_nil]
      exact before
  · intro label none
    rw [Performer.track_note, staged.others label none,
      if_neg (none course (List.mem_of_getElem? here)), List.append_nil]

end Staged

end Score

end Choreo
