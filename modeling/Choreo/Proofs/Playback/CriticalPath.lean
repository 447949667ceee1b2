import Choreo.Proofs.Plan.Schedule
import Choreo.Proofs.Playback.Opening

/-!
# The critical path

A plan that passed the checks is played as its schedule says: every clip starts, goes round and ends
when it is due, and the scene is over when the last clip or delay is, unless the cap comes first.
-/

namespace Choreo

namespace Plan

variable (timeline : Timeline) (start finish : String → Nat)

/-- The courses of the performers of a scene. -/
def courses : List Course :=
  timeline.clips.entries.map (fun entry =>
      Clip.course timeline.settings.tick entry.2.duration entry.2.repeats entry.1) ++
    (Scene.delays timeline timeline.clips.entries).map fun delay =>
      Delay.course timeline.settings.tick delay.2

def startTick (node : Nat) : Nat :=
  (timeline.clips.entries[node]?.map fun entry => start entry.1 / timeline.settings.tick.ns).getD 0

theorem fresh_courses : timeline.courses.map Course.fresh = Scene.castOf timeline := by
  simp only [courses, Scene.castOf, List.map_append, List.map_map]
  rfl

theorem length_courses : timeline.courses.length = (Scene.castOf timeline).length := by
  rw [← fresh_courses, List.length_map]

variable {timeline start finish}

theorem lawful_courses (valid : timeline.Valid) {course : Course}
    (member : course ∈ timeline.courses) :
    course.Lawful timeline.settings.tick := by
  rcases List.mem_append.1 member with clip | delay
  · obtain ⟨entry, -, rfl⟩ := List.mem_map.1 clip
    exact Clip.lawful_course _ _ _ valid.tick _
  · obtain ⟨delay, -, rfl⟩ := List.mem_map.1 delay
    exact Delay.lawful_course _ _ valid.tick

/-- Only clips have tracks, each its own. -/
theorem track_courses {node : Nat} {course : Course} {label : String}
    (here : timeline.courses[node]? = some course) (labelled : course.fresh.track = some label) :
    ∃ entry, timeline.clips.entries[node]? = some entry ∧ entry.1 = label := by
  rw [courses, List.getElem?_append] at here
  split at here
  · obtain ⟨entry, found, rfl⟩ := Option.map_eq_some_iff.1 (List.getElem?_map ▸ here)
    exact ⟨entry, found, Option.some.inj labelled⟩
  · obtain ⟨delay, found, rfl⟩ := Option.map_eq_some_iff.1 (List.getElem?_map ▸ here)
    cases labelled

theorem getElem?_courses {node : Nat} {entry : String × ClipPlan Span}
    (here : timeline.clips.entries[node]? = some entry) : timeline.courses[node]? =
      some (Clip.course timeline.settings.tick entry.2.duration entry.2.repeats entry.1) := by
  have inside := (List.getElem?_eq_some_iff.1 here).1
  rw [courses, List.getElem?_append_left (by simpa using inside), List.getElem?_map, here]
  rfl

theorem getElem?_courses_delay {index place : Nat} {delay : Span}
    (here : (Scene.delays timeline timeline.clips.entries)[index]? = some (place, delay)) :
    timeline.courses[timeline.clips.entries.length + index]? =
      some (Delay.course timeline.settings.tick delay) := by
  rw [courses, List.getElem?_append_right (by simp), List.getElem?_map]
  simp [here]

theorem startTick_mul (schedule : timeline.Schedule start finish)
    (valid : timeline.Valid) {node : Nat} {entry : String × ClipPlan Span}
    (here : timeline.clips.entries[node]? = some entry) :
    timeline.startTick start node * timeline.settings.tick.ns = start entry.1 := by
  have whole := (schedule.dvd valid (List.mem_of_getElem? here)).1
  rw [startTick, here, Option.map_some, Option.getD_some, Nat.div_mul_cancel whole]

theorem endOf_mul (schedule : timeline.Schedule start finish) (valid : timeline.Valid) {node : Nat}
    {entry : String × ClipPlan Span} (here : timeline.clips.entries[node]? = some entry) :
    endOf timeline.courses (timeline.startTick start) node * timeline.settings.tick.ns =
      finish entry.1 := by
  rw [endOf, getElem?_courses here, Nat.add_mul, startTick_mul schedule valid here,
    schedule.ends entry (List.mem_of_getElem? here)]
  rfl

theorem endOf_delay {index place : Nat} {delay : Span}
    (here : (Scene.delays timeline timeline.clips.entries)[index]? = some (place, delay)) :
    endOf timeline.courses (timeline.startTick start) (timeline.clips.entries.length + index) =
      ticksFor timeline.settings.tick.ns delay.ns := by
  have beyond : timeline.clips.entries[timeline.clips.entries.length + index]? = none :=
    List.getElem?_eq_none (Nat.le_add_right _ _)
  rw [endOf, getElem?_courses_delay here, startTick, beyond]
  exact Nat.zero_add _

theorem momentOf_mul (schedule : timeline.Schedule start finish) (valid : timeline.Valid)
    {c : Constraint} (declared : c ∈ timeline.constraints) :
    momentOf timeline.courses (timeline.startTick start) (Scene.linkOf timeline c).2 *
      timeline.settings.tick.ns = c.time start finish := by
  obtain ⟨entry, here, same⟩ := exists_entry (valid.known c declared).1
  simp only [momentOf, Scene.linkOf, Constraint.time]
  cases c.rule with
  | onStart => rw [← same, ← startTick_mul schedule valid here, same]
  | onEnd => rw [← same, ← endOf_mul schedule valid here, same]

theorem delayTime_le (h : 0 < timeline.settings.tick.ns) (clip : ClipPlan Span) {k : Nat} :
    clip.delayTime timeline.settings.tick.ns ≤ k * timeline.settings.tick.ns ↔
      ∀ delay, clip.delay = some delay → ticksFor timeline.settings.tick.ns delay.ns ≤ k := by
  rw [ClipPlan.delayTime]
  split
  · rename_i delay late
    rw [roundUp, Nat.mul_le_mul_right_iff h, late]
    simp
  · rename_i none
    simp [none]

theorem dueTime_le {entry : String × ClipPlan Span} {time : Nat} :
    timeline.dueTime start finish entry ≤ time ↔
      (∀ c ∈ timeline.constraints, c.dependent = entry.1 → c.time start finish ≤ time) ∧
        entry.2.delayTime timeline.settings.tick.ns ≤ time := by
  rw [dueTime, Nat.max_le, latest_le, List.forall_mem_map]
  simp

/-- A node starts when everything that it waits for has happened. -/
theorem due_courses (schedule : timeline.Schedule start finish) (valid : timeline.Valid)
    (node k : Nat) :
    timeline.startTick start node ≤ k ↔ ∀ d, (node, d) ∈ Scene.links timeline →
      momentOf timeline.courses (timeline.startTick start) d ≤ k := by
  cases here : timeline.clips.entries[node]? with
  | none =>
    have outside := List.getElem?_eq_none_iff.1 here
    have zero : timeline.startTick start node = 0 := by rw [startTick, here]; rfl
    rw [zero]
    refine ⟨fun _ d linked => ?_, fun _ => Nat.zero_le k⟩
    rcases (Scene.mem_links valid.referring).1 linked with ⟨c, declared, same⟩
      | ⟨index, delay, found, -⟩
    · obtain ⟨entry, there, -⟩ := exists_entry (valid.known c declared).2
      obtain ⟨rfl, -⟩ := Prod.mk.inj same
      rw [here] at there
      cases there
    · obtain ⟨entry, there, -⟩ := mem_delays.1 (List.mem_of_getElem? found)
      rw [here] at there
      cases there
  | some entry =>
    have scaled := startTick_mul schedule valid here
    rw [← Nat.mul_le_mul_right_iff valid.tick, scaled,
      schedule.starts entry (List.mem_of_getElem? here), dueTime_le, delayTime_le valid.tick]
    constructor
    · rintro ⟨constraints, delays⟩ d linked
      rcases (Scene.mem_links valid.referring).1 linked with ⟨c, declared, same⟩
        | ⟨index, delay, found, rfl⟩
      · obtain ⟨other, there, named⟩ := exists_entry (valid.known c declared).2
        obtain ⟨rfl, rfl⟩ := Prod.mk.inj same
        obtain rfl := Option.some.inj (here.symm.trans there)
        rw [← Nat.mul_le_mul_right_iff valid.tick]
        exact (momentOf_mul schedule valid declared).trans_le (constraints c declared named.symm)
      · obtain ⟨other, there, late⟩ := mem_delays.1 (List.mem_of_getElem? found)
        obtain rfl := Option.some.inj (here.symm.trans there)
        exact (endOf_delay found).trans_le (delays delay late)
    · intro all
      refine ⟨fun c declared waits => ?_, fun delay late => ?_⟩
      · have linked : (node, (Scene.linkOf timeline c).2) = Scene.linkOf timeline c := by
          rw [Scene.linkOf, waits, placeOf_eq here]
        have moment := all _ ((Scene.mem_links valid.referring).2 (.inl ⟨c, declared, linked⟩))
        rwa [← Nat.mul_le_mul_right_iff valid.tick, momentOf_mul schedule valid declared] at moment
      · obtain ⟨index, inside, found⟩ := List.getElem_of_mem (mem_delays.2 ⟨entry, here, late⟩)
        have there : (Scene.delays timeline timeline.clips.entries)[index]? = some (node, delay) :=
          List.getElem?_eq_some_iff.2 ⟨inside, found⟩
        have moment := all _ ((Scene.mem_links valid.referring).2 (.inr ⟨index, delay, there, rfl⟩))
        rwa [momentOf, endOf_delay there] at moment

theorem mem_dependencies_sorted {node : Nat} {d : Dependency} :
    d ∈ (Scene.sequenceOf timeline).graph.sorted.2.dependencies node ↔
      (node, d) ∈ Scene.links timeline := by
  rw [← (Scene.wired_sequenceOf timeline).links, Graph.dependencies, Graph.nodes_sorted]
  rfl

def score (valid : timeline.Valid) (schedule : timeline.Schedule start finish) : Score where
  tick := timeline.settings.tick
  courses := timeline.courses
  starts := timeline.startTick start
  graph := (Scene.sequenceOf timeline).graph.sorted.2
  positive := valid.tick
  lawful := fun _ member => lawful_courses valid member
  distinct := by
    intro i j one two label hi hj labelled also
    obtain ⟨entry, here, named⟩ := track_courses hi labelled
    obtain ⟨other, there, same⟩ := track_courses hj also
    rw [← placeOf_eq here, ← placeOf_eq there, named, same]
  sound := (Scene.wired_sequenceOf timeline).sound.sorted
  units := by rw [Graph.nodes_sorted, (Scene.wired_sequenceOf timeline).nodes, length_courses]
  due := by
    intro node _ k
    rw [due_courses schedule valid]
    exact forall_congr' fun d => imp_congr_left mem_dependencies_sorted.symm

/-- A scene that was set up and not started. -/
theorem ready (valid : timeline.Valid) (schedule : timeline.Schedule start finish) :
    (score valid schedule).Ready (Scene.sequenceOf timeline).graph (Scene.ofTimeline timeline) := by
  have wired := Scene.wired_sequenceOf timeline
  constructor
  · exact wired.fresh
  · exact wired.sound
  · obtain ⟨order, sorts⟩ := Graph.waveOrder_isOk wired.sound.arena valid.acyclic
    rw [Graph.sorted]
    split
    · exact ⟨_, rfl⟩
    · rw [sorts]
      exact ⟨_, rfl⟩
  · rfl
  · refine ⟨wired.owner, fun node => ?_, rfl, (Nat.zero_mul _).symm, fun node course here => ?_,
      ?_, ?_, ?_⟩
    · refine (wired.get? node).trans ?_
      rw [← fresh_courses, List.getElem?_map]
      rfl
    · have nothing : (Scene.ofTimeline timeline).sequence.queue = [] := wired.queue
      rw [nothing]
      rfl
    · have nothing : (Scene.ofTimeline timeline).sequence.queue = [] := wired.queue
      rw [nothing]
      intro report member
      cases member
    · intro node course here label labelled
      rw [ite_self]
      exact .nil
    · intro label none
      rw [ite_self]
      rfl
  · intro none
    have clips := valid.clips
    have length := congrArg List.length none
    simp only [score, courses, List.length_append, List.length_map, List.length_nil] at length
    exact clips (List.length_eq_zero_iff.1 (by omega))

/-- Everything is over by a tick when every node has come to its end. -/
theorem horizon_le (schedule : timeline.Schedule start finish) (valid : timeline.Valid) {k : Nat} :
    timeline.horizon finish ≤ k * timeline.settings.tick.ns ↔
      ∀ node < timeline.courses.length,
        endOf timeline.courses (timeline.startTick start) node ≤ k := by
  rw [horizon, latest_le, List.forall_mem_map]
  constructor
  · intro all node inside
    cases here : timeline.clips.entries[node]? with
    | some entry =>
      have last := all entry (List.mem_of_getElem? here)
      rw [Nat.max_le, ← endOf_mul schedule valid here, Nat.mul_le_mul_right_iff valid.tick] at last
      exact last.1
    | none =>
      obtain ⟨index, rfl⟩ := Nat.exists_eq_add_of_le (List.getElem?_eq_none_iff.1 here)
      have within : index < (Scene.delays timeline timeline.clips.entries).length := by
        simpa [courses] using inside
      have found := List.getElem?_eq_getElem within
      obtain ⟨entry, there, late⟩ := mem_delays.1 (List.mem_of_getElem? found)
      have last := (Nat.max_le.1 (all entry (List.mem_of_getElem? there))).2
      rw [endOf_delay found]
      exact (delayTime_le valid.tick entry.2).1 last _ late
  · intro all entry member
    have here := getElem?_placeOf member
    refine Nat.max_le.2 ⟨?_, (delayTime_le valid.tick entry.2).2 fun delay late => ?_⟩
    · rw [← endOf_mul schedule valid here, Nat.mul_le_mul_right_iff valid.tick]
      exact all _ (List.getElem?_eq_some_iff.1 (getElem?_courses here)).1
    · obtain ⟨index, inside, found⟩ := List.getElem_of_mem (mem_delays.2 ⟨entry, here, late⟩)
      have there := List.getElem?_eq_some_iff.2 ⟨inside, found⟩
      have last := all _ (List.getElem?_eq_some_iff.1 (getElem?_courses_delay there)).1
      rwa [endOf_delay there] at last

theorem dvd_horizon (schedule : timeline.Schedule start finish) (valid : timeline.Valid) :
    timeline.settings.tick.ns ∣ timeline.horizon finish := by
  apply dvd_latest
  intro time listed
  obtain ⟨entry, member, rfl⟩ := List.mem_map.1 listed
  exact dvd_max (schedule.dvd valid member).2 (dvd_delayTime _ _)

theorem wholeTrack_eq (schedule : timeline.Schedule start finish)
    (valid : timeline.Valid) {node : Nat} {entry : String × ClipPlan Span}
    (here : timeline.clips.entries[node]? = some entry) :
    Clip.wholeTrack timeline.settings.tick entry.2.duration entry.2.repeats
      (timeline.startTick start node) =
      entry.2.track timeline.settings.tick.ns (start entry.1) (finish entry.1) := by
  have scaled := startTick_mul schedule valid here
  have ended := schedule.ends entry (List.mem_of_getElem? here)
  simp only [Clip.wholeTrack, ClipPlan.track, Clip.repeatTimes, Nat.add_mul, scaled, ended]
  rfl

theorem noted_eq (schedule : timeline.Schedule start finish) (valid : timeline.Valid)
    {own : List (Nat × Lifecycle)} {last : Nat} {final : Scene}
    (finished : (score valid schedule).Finished own last final) {entry : String × ClipPlan Span}
    (member : entry ∈ timeline.clips.entries) :
    Merges (if entry.1 = Scene.label then own else [])
      (entry.2.track timeline.settings.tick.ns (start entry.1) (finish entry.1))
      (final.recording.track entry.1) := by
  obtain ⟨seen, staged⟩ := finished.staged
  have here := getElem?_placeOf member
  have noted := staged.noted _ _ (getElem?_courses here) entry.1 rfl
  rw [← wholeTrack_eq schedule valid here, ← Clip.noted_length _ _ _ valid.tick entry.1]
  have length : endOf timeline.courses (timeline.startTick start) (Scene.placeOf timeline entry.1) -
      timeline.startTick start (Scene.placeOf timeline entry.1) =
        Clip.ticks timeline.settings.tick entry.2.duration entry.2.repeats := by
    rw [endOf, getElem?_courses here]
    exact Nat.add_sub_cancel_left _ _
  rw [← length]
  exact noted

/-- What is recorded of the scene itself, if no clip has its name. -/
theorem noted_label (schedule : timeline.Schedule start finish) (valid : timeline.Valid)
    {own : List (Nat × Lifecycle)} {last : Nat} {final : Scene}
    (finished : (score valid schedule).Finished own last final)
    (apart : Scene.label ∉ timeline.clips.names) : final.recording.track Scene.label = own := by
  obtain ⟨seen, staged⟩ := finished.staged
  refine (staged.others Scene.label fun course member labelled => ?_).trans (if_pos rfl)
  obtain ⟨node, inside, here⟩ := List.getElem_of_mem member
  obtain ⟨entry, found, named⟩ :=
    track_courses (List.getElem?_eq_some_iff.2 ⟨inside, here⟩) labelled
  exact apart (named ▸ List.mem_map_of_mem (List.mem_of_getElem? found))

/-- The last tick of a run that was not canceled is that at which everything is over. -/
theorem horizon_eq (schedule : timeline.Schedule start finish) (valid : timeline.Valid)
    {own : List (Nat × Lifecycle)} {last : Nat} {final : Scene}
    (finished : (score valid schedule).Finished own last final)
    (late : ∃ node < timeline.courses.length,
      last ≤ endOf timeline.courses (timeline.startTick start) node) :
    timeline.horizon finish = last * timeline.settings.tick.ns := by
  obtain ⟨ticks, whole⟩ := dvd_horizon schedule valid
  rw [Nat.mul_comm] at whole
  have all := (horizon_le schedule valid).1 (Nat.le_of_eq whole)
  have least : timeline.horizon finish ≤ last * timeline.settings.tick.ns :=
    (horizon_le schedule valid).2 finished.ends
  rw [whole, Nat.mul_le_mul_right_iff valid.tick] at least
  obtain ⟨node, inside, reaches⟩ := late
  have most := all node inside
  have same : ticks = last := by omega
  rw [whole, same]

end Plan

namespace Playback

/-- A plan that passed the checks has a schedule. If everything is over by the tick at which the cap
is reached, every clip starts, goes round and ends as scheduled, and the scene is over exactly then;
the track of the scene is its own unless a clip has the same name. Otherwise the run is canceled at
that tick. -/
theorem virtual_schedule {draft : Draft} {timeline : Timeline}
    (accepted : draft.check = .ok timeline)
    (bound : timeline.settings.tick.ns + timeline.settings.cap.ns ≤ Span.limit) :
    (∃ start finish, timeline.Schedule start finish) ∧
    ∀ start finish, timeline.Schedule start finish →
      let tick := timeline.settings.tick.ns
      let total := timeline.horizon finish
      let capped := roundUp tick timeline.settings.cap.ns
      ∃ (outcome : Outcome) (final : Scene),
        virtual Performer.behaviour timeline.settings (Scene.ofTimeline timeline) =
          (.ok outcome, final) ∧
        (total ≤ capped → outcome.canceled = false ∧ outcome.elapsed.ns = total ∧
          outcome.ticks = total / tick ∧
          (∀ entry ∈ timeline.clips.entries, entry.1 ≠ Scene.label →
            final.recording.track entry.1 = entry.2.track tick (start entry.1) (finish entry.1)) ∧
          (Scene.label ∉ timeline.clips.names →
            final.recording.track Scene.label = [(0, .started), (total, .ended)]) ∧
          ∀ entry ∈ timeline.clips.entries, entry.1 = Scene.label →
            Merges [(0, .started), (total, .ended)]
              (entry.2.track tick (start entry.1) (finish entry.1))
              (final.recording.track Scene.label)) ∧
        (¬ total ≤ capped → outcome.canceled = true ∧ outcome.elapsed.ns = capped) := by
  have valid := Draft.valid_of_check accepted
  refine ⟨valid.schedule, fun start finish schedule => ?_⟩
  intro tick total capped
  have ready := Plan.ready valid schedule
  have result : (Plan.score valid schedule).Over (ticksFor tick timeline.settings.cap.ns)
      [(0, .started)] (virtual Performer.behaviour timeline.settings (Scene.ofTimeline timeline)) :=
    ready.virtual bound
  have within : ∀ {k : Nat}, total ≤ k * tick ↔ ∀ node < timeline.courses.length,
      endOf timeline.courses (timeline.startTick start) node ≤ k := Plan.horizon_le schedule valid
  -- from here on only the way in which the run ended matters
  generalize virtual Performer.behaviour timeline.settings (Scene.ofTimeline timeline) =
    played at result ⊢
  cases result with
  | @ended last elapsed final timely clock late finished =>
    have horizon : total = last * tick := Plan.horizon_eq schedule valid finished late
    have timed : total ≤ capped := within.2 fun node inside =>
      Nat.le_trans (finished.ends node inside) timely
    refine ⟨_, final, rfl, fun _ => ⟨rfl, ?_, ?_, ?_, ?_, ?_⟩, fun late => absurd timed late⟩
    · exact clock.trans horizon.symm
    · exact Nat.eq_div_of_mul_eq_left (Nat.ne_of_gt valid.tick) horizon.symm
    · intro entry member apart
      have noted := Plan.noted_eq schedule valid finished member
      rw [if_neg apart] at noted
      exact noted.eq_right rfl
    · intro apart
      have noted := Plan.noted_label schedule valid finished apart
      rw [horizon]
      exact noted
    · intro entry member named
      have noted := Plan.noted_eq schedule valid finished member
      rw [if_pos named] at noted
      rw [horizon, ← named]
      exact noted
  | @canceled elapsed final clock late =>
    refine ⟨_, final, rfl, fun timed => ?_, fun _ => ⟨rfl, clock⟩⟩
    obtain ⟨node, inside, beyond⟩ := late
    exact absurd (within.1 timed node inside) (Nat.not_le.2 beyond)

/-- A clip of two rounds, and a clip without duration that follows it and has a delay. -/
def pairDraft : Draft where
  settings := ⟨"10ms", "1s"⟩
  clips := .ofList [("a", ⟨"25ms", 1, [], [], none⟩), ("b", ⟨"0s", 0, [], ["a"], some "12ms"⟩)]
  groups := []

def pairPlan : Timeline where
  settings := ⟨⟨10000000, by decide⟩, ⟨1000000000, by decide⟩⟩
  clips := ⟨[("a", ⟨⟨25000000, by decide⟩, 1, [], [], none⟩),
    ("b", ⟨.zero, 0, [], ["a"], some ⟨12000000, by decide⟩⟩)], by decide⟩
  groups := []

theorem check_pair : pairDraft.check = .ok pairPlan :=
  Draft.check_eq_ok rfl (by decide +kernel) (by decide +kernel) (by decide +kernel) rfl

theorem schedule_pair : pairPlan.Schedule (fun name => if name = "a" then 0 else 50000000)
    fun _ => 50000000 :=
  ⟨by decide +kernel, by decide +kernel⟩

theorem virtual_schedule_pair : ∃ (outcome : Outcome) (final : Scene),
    virtual Performer.behaviour pairPlan.settings (Scene.ofTimeline pairPlan) =
      (.ok outcome, final) ∧
      outcome.elapsed.ns = 50000000 ∧ outcome.ticks = 5 ∧
      final.recording.track "a" = [(0, .started), (30000000, .repeated), (50000000, .ended)] ∧
      final.recording.track "b" = [(50000000, .started), (50000000, .ended)] := by
  have bound : pairPlan.settings.tick.ns + pairPlan.settings.cap.ns ≤ Span.limit := by
    decide +kernel
  obtain ⟨outcome, final, played, timely, -⟩ :=
    (virtual_schedule check_pair bound).2 _ _ schedule_pair
  obtain ⟨-, elapsed, ticks, tracks, -⟩ := timely (by decide +kernel)
  refine ⟨outcome, final, played, elapsed.trans (by decide +kernel),
    ticks.trans (by decide +kernel), ?_, ?_⟩
  · have first := tracks ("a", ⟨⟨25000000, by decide⟩, 1, [], [], none⟩) (by decide +kernel)
      (by decide)
    exact first.trans (by decide +kernel)
  · have second := tracks ("b", ⟨.zero, 0, [], ["a"], some ⟨12000000, by decide⟩⟩)
      (by decide +kernel) (by decide)
    exact second.trans (by decide +kernel)

end Playback

end Choreo
