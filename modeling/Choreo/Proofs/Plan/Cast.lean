import Choreo.Plan.Scene
import Choreo.Proofs.Plan.Valid
import Choreo.Proofs.Sequence.Wiring

/-!
# The cast of a scene

A scene has one unit for each clip, in the order of the names, and after these one for each delay.
A clip waits for what its references and its groups say, and for its delay; references to clips that
are not there do not count.
-/

namespace Choreo

namespace Scene

def performer (entry : String × ClipPlan Span) : Performer :=
  .clip (.fresh entry.2.duration entry.2.repeats) (some entry.1)

section

variable (timeline : Timeline)

/-- What a clip waits for by its own references. -/
def clipLinks (entry : String × ClipPlan Span) : List (Nat × Dependency) :=
  match timeline.clips.position? entry.1 with
  | none => []
  | some place =>
    (entry.2.partners.filterMap fun other => timeline.clips.position? other).map
      (fun p => (place, ⟨p, .onStart⟩)) ++
    (entry.2.forerunners.filterMap fun other => timeline.clips.position? other).map
      fun p => (place, ⟨p, .onEnd⟩)

/-- The delays of these clips, each with the place of its clip. -/
def delays (entries : List (String × ClipPlan Span)) : List (Nat × Span) :=
  entries.filterMap fun entry => (timeline.clips.position? entry.1).bind fun place =>
    entry.2.delay.map fun delay => (place, delay)

/-- Each clip waits for its delay, and the delays have their places from here on. -/
def delayLinks (first : Nat) (entries : List (String × ClipPlan Span)) : List (Nat × Dependency) :=
  ((delays timeline entries).zipIdx first).map fun entry => (entry.1.1, ⟨entry.2, .onEnd⟩)

/-- What the clips of a group wait for. -/
def groupLinks (group : Group) : List (Nat × Dependency) :=
  let places := group.clips.filterMap fun other => timeline.clips.position? other
  match group.mode with
  | .together => places.tail.map fun other => (other, ⟨places.headD 0, .onStart⟩)
  | .sequential => (places.zip places.tail).map fun pair => (pair.2, ⟨pair.1, .onEnd⟩)

end

theorem position?_lt {timeline : Timeline} {name : String} {place : Nat}
    (h : timeline.clips.position? name = some place) : place < timeline.clips.entries.length := by
  rw [NameMap.position?, List.findIdx?_eq_some_iff_getElem] at h
  obtain ⟨inside, -⟩ := h
  simpa [NameMap.names] using inside

section

variable {timeline : Timeline} {units : List Performer} {links : List (Nat × Dependency)}
  {sequence : Sequence Performer}

theorem wired_cast (wired : Wired units links sequence) (entries : List (String × ClipPlan Span)) :
    Wired (units ++ entries.map performer) links (cast entries sequence) := by
  induction entries generalizing units sequence with
  | nil => simpa [cast] using wired
  | cons entry entries ih =>
    obtain ⟨-, added⟩ := wired.add (some entry.1) (performer entry)
    have rest := ih added
    rw [List.append_assoc] at rest
    exact rest

theorem wired_foldl (wired : Wired units links sequence) {places : List Nat}
    (play : Nat → Sequence Performer → Sequence Performer) (edge : Nat → Nat × Dependency)
    (plays : ∀ {links sequence}, ∀ place ∈ places, Wired units links sequence →
      Wired units (links ++ [edge place]) (play place sequence)) :
    Wired units (links ++ places.map edge)
      (places.foldl (fun s place => play place s) sequence) := by
  induction places generalizing links sequence with
  | nil => simpa using wired
  | cons place places ih =>
    have first := plays place (List.mem_cons_self ..) wired
    have rest := ih first fun other member => plays other (List.mem_cons_of_mem _ member)
    rw [List.append_assoc, List.singleton_append] at rest
    exact rest

/-- The units that these names stand for are those at their places. -/
theorem filterMap_unit? (names : List String) : names.filterMap (unit? timeline) =
    (names.filterMap fun other => timeline.clips.position? other).map (UnitId.mk 0) := by
  rw [List.map_filterMap]
  rfl

theorem wired_relateClip (wired : Wired units links sequence)
    (clips : timeline.clips.entries.length ≤ units.length) (entry : String × ClipPlan Span) :
    Wired (units ++ (delays timeline [entry]).map fun delay => timer delay.2)
      (links ++ clipLinks timeline entry ++ delayLinks timeline units.length [entry])
      (relateClip timeline sequence entry) := by
  cases here : timeline.clips.position? entry.1 with
  | none => simpa [relateClip, unit?, here, delays, delayLinks, clipLinks] using wired
  | some place =>
    have inside : place < units.length := Nat.lt_of_lt_of_le (position?_lt here) clips
    have others : ∀ names : List String, ∀ p ∈ names.filterMap
        (fun other => timeline.clips.position? other), p < units.length := by
      intro names p member
      obtain ⟨name, -, found⟩ := List.mem_filterMap.1 member
      exact Nat.lt_of_lt_of_le (position?_lt found) clips
    have paired := wired_foldl wired
      (fun p s => s.playWith timer (some ⟨0, p⟩) [.together ⟨0, place⟩])
      (fun p => (place, ⟨p, .onStart⟩)) fun p member wired =>
        wired.playWith (others entry.2.partners p member) (.cons (.together place) .nil)
          (by simpa [Wired.Inside] using ⟨inside, others entry.2.partners p member⟩)
    have followed := wired_foldl paired
      (fun p s => s.playWith timer (some ⟨0, place⟩) [.after ⟨0, p⟩])
      (fun p => (place, ⟨p, .onEnd⟩)) fun p member wired =>
        wired.playWith inside (.cons (.after p) .nil)
          (by simpa [Wired.Inside] using ⟨inside, others entry.2.forerunners p member⟩)
    have known : unit? timeline entry.1 = some ⟨0, place⟩ := by rw [unit?, here]; rfl
    have declared : clipLinks timeline entry =
        (entry.2.partners.filterMap fun other => timeline.clips.position? other).map
          (fun p => (place, ⟨p, .onStart⟩)) ++
        (entry.2.forerunners.filterMap fun other => timeline.clips.position? other).map
          fun p => (place, ⟨p, .onEnd⟩) := by rw [clipLinks, here]
    rw [relateClip, known]
    simp only [filterMap_unit?, List.foldl_map]
    rw [declared, ← List.append_assoc]
    cases late : entry.2.delay with
    | none => simpa [delays, delayLinks, here, late] using followed
    | some delay =>
      simpa [delays, delayLinks, here, late] using followed.playAfterDelay inside delay

theorem wired_relateClips (wired : Wired units links sequence)
    (clips : timeline.clips.entries.length ≤ units.length)
    (entries : List (String × ClipPlan Span)) :
    Wired (units ++ (delays timeline entries).map fun delay => timer delay.2)
      (links ++ entries.flatMap (clipLinks timeline) ++ delayLinks timeline units.length entries)
      (entries.foldl (relateClip timeline) sequence) := by
  induction entries generalizing units links sequence with
  | nil => simpa [delays, delayLinks] using wired
  | cons entry entries ih =>
    have first := wired_relateClip wired clips entry
    have rest := ih first (by rw [List.length_append]; omega)
    have split : delays timeline (entry :: entries) =
        delays timeline [entry] ++ delays timeline entries := by
      rw [delays, delays, delays, ← List.filterMap_append, List.singleton_append]
    have numbered : delayLinks timeline units.length (entry :: entries) =
        delayLinks timeline units.length [entry] ++ delayLinks timeline
          (units ++ (delays timeline [entry]).map fun delay => timer delay.2).length entries := by
      simp only [delayLinks, split, List.zipIdx_append, List.map_append, List.length_append,
        List.length_map]
    rw [List.append_assoc, ← List.map_append, ← split] at rest
    refine rest.congr fun link => ?_
    rw [numbered, List.flatMap_cons]
    simp only [List.mem_append]
    grind

theorem wired_playPairs (wired : Wired units links sequence) {places : List Nat}
    (inside : ∀ place ∈ places, place < units.length) :
    Wired units (links ++ (places.zip places.tail).map fun pair => (pair.2, ⟨pair.1, .onEnd⟩))
      (Sequence.playPairs timer (places.map (UnitId.mk 0)) sequence) := by
  induction places generalizing links sequence with
  | nil => simpa [Sequence.playPairs] using wired
  | cons first places ih =>
    cases places with
    | nil => simpa [Sequence.playPairs] using wired
    | cons second places =>
      have here := inside first (by simp)
      have there := inside second (by simp)
      have started : Wired units (links ++ [(second, ⟨first, .onEnd⟩)])
          (sequence.playWith timer (some ⟨0, first⟩) [.before ⟨0, second⟩]) :=
        wired.playWith here (.cons (.before second) .nil)
          (by simpa [Wired.Inside] using ⟨there, here⟩)
      have rest := ih started fun place member => inside place (List.mem_cons_of_mem _ member)
      rw [List.append_assoc, List.singleton_append] at rest
      exact rest

theorem asks_together (first : Nat) (places : List Nat) :
    List.Forall₂ (Link.Asks first) ((places.map (UnitId.mk 0)).map Link.together)
      (places.map fun other => (other, ⟨first, .onStart⟩)) := by
  induction places with
  | nil => exact .nil
  | cons place places ih => exact .cons (.together place) ih

theorem wired_playTogether (wired : Wired units links sequence) {places : List Nat}
    (inside : ∀ place ∈ places, place < units.length) :
    Wired units (links ++ places.tail.map fun other => (other, ⟨places.headD 0, .onStart⟩))
      (sequence.playTogether timer (places.map (UnitId.mk 0))) := by
  cases places with
  | nil => simpa [Sequence.playTogether] using wired
  | cons first places =>
    refine wired.playWith (inside first (by simp))
      (asks_together first places) fun edge member => ?_
    obtain ⟨other, later, rfl⟩ := List.mem_map.1 member
    exact ⟨inside other (List.mem_cons_of_mem _ later), inside first (by simp)⟩

theorem wired_playSequentially (wired : Wired units links sequence) {places : List Nat}
    (inside : ∀ place ∈ places, place < units.length) :
    Wired units (links ++ (places.zip places.tail).map fun pair => (pair.2, ⟨pair.1, .onEnd⟩))
      (sequence.playSequentially timer (places.map (UnitId.mk 0))) := by
  rcases places with _ | ⟨only, _ | ⟨second, places⟩⟩
  · exact wired_playPairs wired inside
  · simp only [Sequence.playSequentially, List.map_cons, List.map_nil,
      wired.play (inside only (by simp))]
    simpa using wired.touch
  · exact wired_playPairs wired inside

theorem wired_relateGroup (wired : Wired units links sequence)
    (clips : timeline.clips.entries.length ≤ units.length) (group : Group) :
    Wired units (links ++ groupLinks timeline group) (relateGroup timeline sequence group) := by
  have inside : ∀ place ∈ group.clips.filterMap fun other => timeline.clips.position? other,
      place < units.length := by
    intro place member
    obtain ⟨name, -, found⟩ := List.mem_filterMap.1 member
    exact Nat.lt_of_lt_of_le (position?_lt found) clips
  simp only [relateGroup, groupLinks, filterMap_unit?]
  cases group.mode with
  | together => exact wired_playTogether wired inside
  | sequential => exact wired_playSequentially wired inside

theorem wired_relateGroups (wired : Wired units links sequence)
    (clips : timeline.clips.entries.length ≤ units.length) (groups : List Group) :
    Wired units (links ++ groups.flatMap (groupLinks timeline))
      (groups.foldl (relateGroup timeline) sequence) := by
  induction groups generalizing links sequence with
  | nil => simpa using wired
  | cons group groups ih =>
    have rest := ih (wired_relateGroup wired clips group)
    rw [List.append_assoc] at rest
    exact rest

end

/-- The units of a scene: its clips, then its delays. -/
def castOf (timeline : Timeline) : List Performer :=
  timeline.clips.entries.map performer ++
    (delays timeline timeline.clips.entries).map fun delay => timer delay.2

/-- Everything that the nodes of a scene wait for. -/
def links (timeline : Timeline) : List (Nat × Dependency) :=
  timeline.clips.entries.flatMap (clipLinks timeline) ++
    delayLinks timeline timeline.clips.entries.length timeline.clips.entries ++
    timeline.groups.flatMap (groupLinks timeline)

theorem wired_sequenceOf (timeline : Timeline) :
    Wired (castOf timeline) (links timeline) (sequenceOf timeline) := by
  have clips := wired_cast Wired.empty timeline.clips.entries
  rw [List.nil_append] at clips
  have related : Wired _ _ (timeline.clips.entries.foldl (relateClip timeline) _) :=
    wired_relateClips clips (by simp) timeline.clips.entries
  rw [List.nil_append, List.length_map] at related
  exact wired_relateGroups related (by simp) timeline.groups

/-- The place of a clip in the order of the names. -/
def placeOf (timeline : Timeline) (name : String) : Nat := timeline.clips.names.idxOf name

theorem position?_eq {timeline : Timeline} {name : String} (h : name ∈ timeline.clips.names) :
    timeline.clips.position? name = some (placeOf timeline name) := by
  have found : timeline.clips.names.findIdx? (fun other => other == name) =
      some (timeline.clips.names.findIdx fun other => other == name) :=
    List.findIdx?_eq_some_of_exists ⟨name, h, beq_self_eq_true name⟩
  exact found

theorem filterMap_position? {timeline : Timeline} {names : List String}
    (h : ∀ name ∈ names, name ∈ timeline.clips.names) :
    (names.filterMap fun other => timeline.clips.position? other) =
      names.map (placeOf timeline) := by
  rw [← List.filterMap_eq_map]
  exact List.filterMap_congr fun name member => position?_eq (h name member)

/-- A constraint as a link between the nodes of its clips. -/
def linkOf (timeline : Timeline) (c : Constraint) : Nat × Dependency :=
  (placeOf timeline c.dependent, ⟨placeOf timeline c.prerequisite, c.rule⟩)

theorem clipLinks_eq {timeline : Timeline} (referring : timeline.Referring)
    {entry : String × ClipPlan Span} (member : entry ∈ timeline.clips.entries) :
    clipLinks timeline entry = (entry.2.constraints entry.1).map (linkOf timeline) := by
  have named : entry.1 ∈ timeline.clips.names := List.mem_map_of_mem member
  have known : ∀ c ∈ entry.2.constraints entry.1,
      c.prerequisite ∈ timeline.clips.names := fun c declared =>
    (referring.known c (List.mem_append_left _ (List.mem_flatMap.2 ⟨entry, member, declared⟩))).1
  have partners : ∀ name ∈ entry.2.partners, name ∈ timeline.clips.names := fun name refers =>
    known ⟨name, .onStart, entry.1⟩ (List.mem_append_left _ (List.mem_map_of_mem refers))
  have forerunners : ∀ name ∈ entry.2.forerunners, name ∈ timeline.clips.names := fun name refers =>
    known ⟨name, .onEnd, entry.1⟩ (List.mem_append_right _ (List.mem_map_of_mem refers))
  simp only [clipLinks, position?_eq named, filterMap_position? partners,
    filterMap_position? forerunners, ClipPlan.constraints, List.map_append, List.map_map]
  rfl

theorem neighbours_eq (clips : List String) : neighbours clips = clips.zip clips.tail := by
  induction clips using neighbours.induct with
  | case1 first second rest ih => rw [neighbours, ih]; rfl
  | case2 clips few =>
    rcases clips with _ | ⟨first, _ | ⟨second, rest⟩⟩
    · rfl
    · rfl
    · exact absurd rfl (few first second rest)

theorem groupLinks_eq {timeline : Timeline} (referring : timeline.Referring) {group : Group}
    (member : group ∈ timeline.groups) :
    groupLinks timeline group = group.constraints.map (linkOf timeline) := by
  rw [groupLinks, filterMap_position? (referring.members group member)]
  simp only [Group.constraints, Group.edges]
  cases group.mode with
  | together =>
    cases group.clips with
    | nil => rfl
    | cons first rest => simp [linkOf, GroupMode.rule, Function.comp_def]
  | sequential =>
    simp only [neighbours_eq, ← List.map_tail, List.zip_map, List.map_map]
    rfl

/-- In a scene of a plan that refers to its own clips, these wait for what its constraints say and
for their delays. -/
theorem mem_links {timeline : Timeline} (referring : timeline.Referring) {node : Nat}
    {d : Dependency} :
    (node, d) ∈ links timeline ↔
      (∃ c ∈ timeline.constraints, (node, d) = linkOf timeline c) ∨
      ∃ k delay, (delays timeline timeline.clips.entries)[k]? = some (node, delay) ∧
        d = ⟨timeline.clips.entries.length + k, .onEnd⟩ := by
  have declared : (node, d) ∈ timeline.clips.entries.flatMap (clipLinks timeline) ++
      timeline.groups.flatMap (groupLinks timeline) ↔
        ∃ c ∈ timeline.constraints, (node, d) = linkOf timeline c := by
    have clips : timeline.clips.entries.flatMap (clipLinks timeline) =
        timeline.clips.entries.flatMap
        fun entry => (entry.2.constraints entry.1).map (linkOf timeline) :=
      List.flatMap_congr fun _ member => clipLinks_eq referring member
    have groups : timeline.groups.flatMap (groupLinks timeline) = timeline.groups.flatMap
        fun group => group.constraints.map (linkOf timeline) :=
      List.flatMap_congr fun _ member => groupLinks_eq referring member
    rw [clips, groups, ← List.map_flatMap, ← List.map_flatMap, ← List.map_append]
    simp only [List.mem_map, Plan.constraints, eq_comm]
  have delayed : (node, d) ∈ delayLinks timeline timeline.clips.entries.length
      timeline.clips.entries ↔
      ∃ k delay, (delays timeline timeline.clips.entries)[k]? = some (node, delay) ∧
        d = ⟨timeline.clips.entries.length + k, .onEnd⟩ := by
    rw [delayLinks, List.mem_map]
    constructor
    · rintro ⟨⟨⟨place, delay⟩, index⟩, member, same⟩
      obtain ⟨rfl, rfl⟩ := Prod.mk.inj same
      obtain ⟨after, found⟩ := List.mk_mem_zipIdx_iff_le_and_getElem?_sub.1 member
      exact ⟨_, delay, found, by simp only [Dependency.mk.injEq, and_true]; omega⟩
    · rintro ⟨k, delay, found, rfl⟩
      refine ⟨((node, delay), timeline.clips.entries.length + k), ?_, rfl⟩
      exact List.mk_mem_zipIdx_iff_le_and_getElem?_sub.2
        ⟨by omega, by rwa [Nat.add_sub_cancel_left]⟩
  rw [← declared, ← delayed, links]
  simp only [List.mem_append]
  grind

end Scene

end Choreo
