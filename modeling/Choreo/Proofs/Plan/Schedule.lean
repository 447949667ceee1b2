import Choreo.Proofs.Performer.Rounds
import Choreo.Proofs.Plan.Cast

/-!
# The schedule of a plan

A clip starts as soon as its partners have started, its forerunners have ended and its delay is
over, all of them counted in whole ticks, and it ends when the time of its rounds is over. These
equations determine when everything happens, because no clip waits for itself.
-/

namespace Choreo

def latest (times : List Nat) : Nat := times.foldr max 0

theorem latest_le {times : List Nat} {k : Nat} : latest times ≤ k ↔ ∀ time ∈ times, time ≤ k := by
  induction times with
  | nil => simp [latest]
  | cons time times ih =>
    have split : latest (time :: times) = max time (latest times) := rfl
    rw [split, Nat.max_le, ih, List.forall_mem_cons]

theorem dvd_max {tick a b : Nat} (ha : tick ∣ a) (hb : tick ∣ b) : tick ∣ max a b := by
  rcases Nat.le_total a b with le | le
  · rwa [Nat.max_eq_right le]
  · rwa [Nat.max_eq_left le]

theorem dvd_latest {tick : Nat} {times : List Nat} (h : ∀ time ∈ times, tick ∣ time) :
    tick ∣ latest times := by
  induction times with
  | nil => exact Nat.dvd_zero tick
  | cons time times ih =>
    obtain ⟨first, rest⟩ := List.forall_mem_cons.1 h
    have split : latest (time :: times) = max time (latest times) := rfl
    rw [split]
    exact dvd_max first (ih rest)

/-- When what a constraint awaits happens. -/
def Constraint.time (start finish : String → Nat) (c : Constraint) : Nat :=
  match c.rule with
  | .onStart => start c.prerequisite
  | .onEnd => finish c.prerequisite

namespace ClipPlan

/-- How long the delay of a clip lasts. -/
def delayTime (tick : Nat) (clip : ClipPlan Span) : Nat :=
  match clip.delay with
  | some delay => roundUp tick delay.ns
  | none => 0

/-- How long all rounds of a clip last. -/
def playTime (tick : Nat) (clip : ClipPlan Span) : Nat :=
  roundUp tick ((clip.repeats + 1) * clip.duration.ns)

/-- What a clip that starts and ends at these times has on its track. -/
def track (tick start finish : Nat) (clip : ClipPlan Span) : List (Nat × Lifecycle) :=
  (start, .started) ::
    (if clip.duration.isZero then []
      else (List.range clip.repeats).map fun i =>
        (start + roundUp tick ((i + 1) * clip.duration.ns), .repeated)) ++
    [(finish, .ended)]

end ClipPlan

namespace Plan

/-- When what a clip waits for has happened. -/
def dueTime (timeline : Timeline) (start finish : String → Nat)
    (entry : String × ClipPlan Span) : Nat :=
  max (latest ((timeline.constraints.filter fun c => c.dependent = entry.1).map
    (Constraint.time start finish))) (entry.2.delayTime timeline.settings.tick.ns)

/-- Starts and ends that fit together. -/
structure Schedule (timeline : Timeline) (start finish : String → Nat) : Prop where
  starts : ∀ entry ∈ timeline.clips.entries, start entry.1 = timeline.dueTime start finish entry
  ends : ∀ entry ∈ timeline.clips.entries,
    finish entry.1 = start entry.1 + entry.2.playTime timeline.settings.tick.ns

/-- When everything is over, the clips and the delays. -/
def horizon (timeline : Timeline) (finish : String → Nat) : Nat :=
  latest (timeline.clips.entries.map fun entry =>
    max (finish entry.1) (entry.2.delayTime timeline.settings.tick.ns))

variable {timeline : Timeline}

theorem placeOf_getElem {place : Nat} (inside : place < timeline.clips.entries.length) :
    Scene.placeOf timeline timeline.clips.entries[place].1 = place := by
  have named : place < timeline.clips.names.length := by simpa [NameMap.names] using inside
  have found := timeline.clips.nodup_names.idxOf_getElem place named
  simpa [NameMap.names, Scene.placeOf] using found

theorem getElem?_placeOf {entry : String × ClipPlan Span}
    (member : entry ∈ timeline.clips.entries) :
    timeline.clips.entries[Scene.placeOf timeline entry.1]? = some entry := by
  obtain ⟨place, inside, rfl⟩ := List.getElem_of_mem member
  rw [placeOf_getElem inside]
  exact List.getElem?_eq_getElem inside

theorem exists_entry {name : String} (h : name ∈ timeline.clips.names) :
    ∃ entry, timeline.clips.entries[Scene.placeOf timeline name]? = some entry ∧
      entry.1 = name := by
  obtain ⟨entry, member, rfl⟩ := List.mem_map.1 h
  exact ⟨entry, getElem?_placeOf member, rfl⟩

theorem placeOf_eq {place : Nat} {entry : String × ClipPlan Span}
    (here : timeline.clips.entries[place]? = some entry) :
    Scene.placeOf timeline entry.1 = place := by
  obtain ⟨inside, rfl⟩ := List.getElem?_eq_some_iff.1 here
  exact placeOf_getElem inside

theorem mem_delays {place : Nat} {delay : Span} :
    (place, delay) ∈ Scene.delays timeline timeline.clips.entries ↔
      ∃ entry, timeline.clips.entries[place]? = some entry ∧ entry.2.delay = some delay := by
  rw [Scene.delays, List.mem_filterMap]
  constructor
  · rintro ⟨entry, member, found⟩
    have named : entry.1 ∈ timeline.clips.names := List.mem_map_of_mem member
    rw [Scene.position?_eq named, Option.bind_some, Option.map_eq_some_iff] at found
    obtain ⟨delay, late, same⟩ := found
    cases same
    exact ⟨entry, getElem?_placeOf member, late⟩
  · rintro ⟨entry, here, late⟩
    have member := List.mem_of_getElem? here
    have named : entry.1 ∈ timeline.clips.names := List.mem_map_of_mem member
    refine ⟨entry, member, ?_⟩
    rw [Scene.position?_eq named, placeOf_eq here, late]
    rfl

theorem Valid.acyclic (valid : timeline.Valid) : WellFounded fun p node =>
    p ∈ Graph.prerequisites (Scene.sequenceOf timeline).graph.nodes node := by
  obtain ⟨rank, ranked⟩ := valid.ranked
  -- delays have no entry and so the lowest level
  let level (node : Nat) : Nat :=
    (timeline.clips.entries[node]?.map fun entry => rank entry.1 + 1).getD 0
  refine Subrelation.wf (fun {p node} waits => ?_) (InvImage.wf level Nat.lt_wfRel.wf)
  obtain ⟨holder, hholder, d, member, rfl⟩ := Graph.mem_prerequisites.1 waits
  have declared := Graph.mem_dependencies.2 ⟨holder, hholder, member⟩
  rw [(Scene.wired_sequenceOf timeline).links] at declared
  show level d.node < level node
  rcases (Scene.mem_links valid.referring).1 declared with ⟨c, listed, same⟩
    | ⟨index, delay, found, rfl⟩
  · obtain ⟨rfl, rfl⟩ := Prod.mk.inj same
    obtain ⟨one, here, named⟩ := exists_entry (valid.known c listed).1
    obtain ⟨two, there, also⟩ := exists_entry (valid.known c listed).2
    have less := ranked c listed
    simp only [level, here, there, Option.map_some, Option.getD_some, named, also]
    omega
  · obtain ⟨entry, here, -⟩ := mem_delays.1 (List.mem_of_getElem? found)
    simp [level, here]

theorem dueTime_congr {start finish start' finish' : String → Nat} {entry : String × ClipPlan Span}
    (starts : ∀ c ∈ timeline.constraints, c.dependent = entry.1 →
      start c.prerequisite = start' c.prerequisite)
    (ends : ∀ c ∈ timeline.constraints, c.dependent = entry.1 →
      finish c.prerequisite = finish' c.prerequisite) :
    timeline.dueTime start finish entry = timeline.dueTime start' finish' entry := by
  have same : (timeline.constraints.filter fun c => c.dependent = entry.1).map
      (Constraint.time start finish) =
        (timeline.constraints.filter fun c => c.dependent = entry.1).map
          (Constraint.time start' finish') := by
    apply List.map_congr_left
    intro c member
    obtain ⟨declared, waits⟩ := List.mem_filter.1 member
    have waits : c.dependent = entry.1 := of_decide_eq_true waits
    simp only [Constraint.time, starts c declared waits, ends c declared waits]
  rw [dueTime, same, dueTime]

/-- The entry of a name, and one of no consequence for names that are not there. -/
def entryOf (timeline : Timeline) (name : String) : String × ClipPlan Span :=
  (timeline.clips.entries[Scene.placeOf timeline name]?).getD (name, ⟨.zero, 0, [], [], none⟩)

/-- The starts after so many rounds of working out what is due. -/
def startAfter (timeline : Timeline) : Nat → String → Nat
  | 0, _ => 0
  | rounds + 1, name =>
    timeline.dueTime (startAfter timeline rounds)
      (fun other => startAfter timeline rounds other +
        (timeline.entryOf other).2.playTime timeline.settings.tick.ns)
      (timeline.entryOf name)

theorem entryOf_eq {entry : String × ClipPlan Span} (member : entry ∈ timeline.clips.entries) :
    timeline.entryOf entry.1 = entry := by
  rw [entryOf, getElem?_placeOf member, Option.getD_some]

theorem fst_entryOf (timeline : Timeline) (name : String) : (timeline.entryOf name).1 = name := by
  by_cases known : name ∈ timeline.clips.names
  · obtain ⟨entry, member, rfl⟩ := List.mem_map.1 known
    rw [entryOf_eq member]
  · have outside : timeline.clips.entries.length ≤ Scene.placeOf timeline name := by
      have place := List.idxOf_eq_length known
      simp only [NameMap.names, List.length_map] at place
      exact Nat.le_of_eq place.symm
    rw [entryOf, List.getElem?_eq_none outside, Option.getD_none]

theorem startAfter_eq {rank : String → Nat}
    (ranked : ∀ c ∈ timeline.constraints, rank c.prerequisite < rank c.dependent) {name : String}
    {rounds : Nat} (enough : rank name < rounds) :
    timeline.startAfter rounds name = timeline.startAfter (rank name + 1) name := by
  induction level : rank name using Nat.strongRecOn generalizing name rounds with
  | ind n ih =>
    obtain ⟨before, rfl⟩ : ∃ before, rounds = before + 1 := ⟨rounds - 1, by omega⟩
    have same : ∀ c ∈ timeline.constraints, c.dependent = (timeline.entryOf name).1 →
        timeline.startAfter before c.prerequisite = timeline.startAfter n c.prerequisite := by
      intro c declared waits
      have less := ranked c declared
      rw [waits, fst_entryOf, level] at less
      exact (ih _ less (by omega) rfl).trans (ih _ less less rfl).symm
    rw [startAfter, startAfter]
    exact dueTime_congr same fun c declared waits => by rw [same c declared waits]

theorem Valid.schedule (valid : timeline.Valid) :
    ∃ start finish, timeline.Schedule start finish := by
  obtain ⟨rank, ranked⟩ := valid.ranked
  let start (name : String) : Nat := timeline.startAfter (rank name + 1) name
  refine ⟨start, fun name => start name +
    (timeline.entryOf name).2.playTime timeline.settings.tick.ns, ?_, ?_⟩
  · intro entry member
    have same : ∀ c ∈ timeline.constraints, c.dependent = entry.1 →
        timeline.startAfter (rank entry.1) c.prerequisite = start c.prerequisite := by
      intro c declared waits
      have less := ranked c declared
      rw [waits] at less
      exact startAfter_eq ranked less
    simp only [start]
    rw [startAfter, entryOf_eq member]
    exact dueTime_congr same fun c declared waits => by rw [same c declared waits]
  · intro entry member
    rw [entryOf_eq member]

section

variable {start finish : String → Nat}

theorem dvd_delayTime (tick : Nat) (clip : ClipPlan Span) : tick ∣ clip.delayTime tick := by
  rw [ClipPlan.delayTime]
  split
  · exact Nat.dvd_mul_left _ _
  · exact Nat.dvd_zero _

/-- All starts and ends are at ticks, by induction along the order in which clips wait. -/
theorem Schedule.dvd (schedule : timeline.Schedule start finish) (valid : timeline.Valid)
    {entry : String × ClipPlan Span} (member : entry ∈ timeline.clips.entries) :
    timeline.settings.tick.ns ∣ start entry.1 ∧ timeline.settings.tick.ns ∣ finish entry.1 := by
  obtain ⟨rank, ranked⟩ := valid.ranked
  induction level : rank entry.1 using Nat.strongRecOn generalizing entry with
  | ind n ih =>
    have due : timeline.settings.tick.ns ∣ start entry.1 := by
      rw [schedule.starts entry member, dueTime]
      have waits : timeline.settings.tick.ns ∣ latest
          ((timeline.constraints.filter fun c => c.dependent = entry.1).map
            (Constraint.time start finish)) := by
        apply dvd_latest
        intro time listed
        obtain ⟨c, chosen, rfl⟩ := List.mem_map.1 listed
        obtain ⟨declared, named⟩ := List.mem_filter.1 chosen
        have less := ranked c declared
        rw [of_decide_eq_true named, level] at less
        obtain ⟨other, there, same⟩ := List.mem_map.1 (valid.known c declared).1
        have earlier := ih _ less there (by rw [same])
        rw [same] at earlier
        rw [Constraint.time]
        split
        · exact earlier.1
        · exact earlier.2
      exact dvd_max waits (dvd_delayTime timeline.settings.tick.ns entry.2)
    refine ⟨due, ?_⟩
    rw [schedule.ends entry member]
    exact Nat.dvd_add due (Nat.dvd_mul_left _ _)

end

end Plan

end Choreo
