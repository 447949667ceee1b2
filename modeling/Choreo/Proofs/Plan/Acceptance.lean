import Choreo.Proofs.Plan.Agreement

/-!
# Which plans are accepted

The checks say exactly what they are meant to say. A plan passes if and only if it has clips, its
settings, durations and delays can be read, its tick is not zero, it refers to its own clips only
and no clip to itself, and no clip comes to wait for itself; it is read as it is written. If all is
well but for a cycle, the clips that are named are one class of clips that wait for one another.
-/

namespace Choreo

namespace Plan

variable {τ : Type}

/-- One clip has to wait for another one, by whatever rule. -/
def Precedes (plan : Plan τ) (p c : String) : Prop := ∃ rule, plan.Declares p rule c

/-- No clip comes to wait for itself. -/
def Straight (plan : Plan τ) : Prop := ∀ clip, ¬ Relation.TransGen plan.Precedes clip clip

/-- These are all the clips that wait for one another with one that waits for itself. -/
def Entangled (plan : Plan τ) (names : List String) : Prop :=
  ∃ clip, Relation.TransGen plan.Precedes clip clip ∧ ∀ name, name ∈ names ↔
    Relation.ReflTransGen plan.Precedes clip name ∧ Relation.ReflTransGen plan.Precedes name clip

theorem precedes_iff {plan : Plan τ} {p c : String} :
    plan.Precedes p c ↔ ∃ d ∈ plan.constraints, d.prerequisite = p ∧ d.dependent = c := by
  constructor
  · rintro ⟨rule, declared⟩
    exact ⟨⟨p, rule, c⟩, mem_constraints.2 declared, rfl, rfl⟩
  · rintro ⟨⟨p, rule, c⟩, declared, rfl, rfl⟩
    exact ⟨rule, mem_constraints.1 declared⟩

end Plan

namespace Draft

variable {draft : Draft} {timeline : Timeline} {settings : Settings Span}

/-- What is asked of a plan before its constraints are followed: it has clips, its settings are read
as these ones, it refers to clips that it has, and no clip refers to itself. -/
structure Admissible (draft : Draft) (settings : Settings Span) : Prop where
  clips : draft.clips.entries ≠ []
  tick : Span.parse draft.settings.tick = .ok settings.tick
  cap : Span.parse draft.settings.cap = .ok settings.cap
  moving : 0 < settings.tick.ns
  references : ∀ entry ∈ draft.clips.entries, ∀ rule, ∀ other ∈ entry.2.references rule,
    other ∈ draft.clips.names ∧ other ≠ entry.1
  members : ∀ group ∈ draft.groups, ∀ other ∈ group.clips, other ∈ draft.clips.names

/-- All spans of the clips can be read. -/
def Timed (draft : Draft) : Prop :=
  ∀ entry ∈ draft.clips.entries, (∃ span, Span.parse entry.2.duration = .ok span) ∧
    ∀ text ∈ entry.2.delay, ∃ span, Span.parse text = .ok span

/-- A plan as it is written is read as this one: under the same names the clips are read as they are
written, and the groups are the same. -/
structure ReadAs (draft : Draft) (timeline : Timeline) : Prop where
  clips : List.Forall₂ (fun written read => read.1 = written.1 ∧ written.2.ReadAs read.2)
    draft.clips.entries timeline.clips.entries
  groups : timeline.groups = draft.groups

theorem admissible_iff : draft.Admissible settings ↔ draft.clips.isEmpty = false ∧
    readSettings draft.settings = .ok settings ∧ draft.clipFault = none ∧
      draft.groupFault = none := by
  rw [readSettings_eq_ok, clipFault_eq_none, groupFault_eq_none, NameMap.isEmpty,
    List.isEmpty_eq_false_iff]
  constructor
  · rintro ⟨clips, tick, cap, moving, references, members⟩
    exact ⟨clips, ⟨tick, moving, cap⟩, references, members⟩
  · rintro ⟨clips, ⟨tick, moving, cap⟩, references, members⟩
    exact ⟨clips, tick, cap, moving, references, members⟩

theorem Admissible.known (fit : draft.Admissible settings) : ∀ c ∈ draft.constraints,
    c.prerequisite ∈ draft.clips.names ∧ c.dependent ∈ draft.clips.names := by
  obtain ⟨-, -, faultless, grouped⟩ := admissible_iff.1 fit
  exact fun c declared => mem_names_of_constraint faultless grouped declared

theorem exists_readAs {clip : ClipPlan String} : (∃ read, clip.ReadAs read) ↔
    (∃ span, Span.parse clip.duration = .ok span) ∧
      ∀ text ∈ clip.delay, ∃ span, Span.parse text = .ok span := by
  obtain ⟨duration, repeats, partners, forerunners, delay⟩ := clip
  constructor
  · rintro ⟨⟨span, _, _, _, wait⟩, first, second, -, -, -⟩
    refine ⟨⟨span, first⟩, fun text late => ?_⟩
    cases second with
    | none => cases late
    | some second =>
      cases late
      exact ⟨_, second⟩
  · rintro ⟨⟨span, first⟩, readable⟩
    cases delay with
    | none => exact ⟨⟨span, repeats, partners, forerunners, none⟩, first, .none, rfl, rfl, rfl⟩
    | some text =>
      obtain ⟨wait, second⟩ := readable text rfl
      exact ⟨⟨span, repeats, partners, forerunners, some wait⟩, first, .some second, rfl, rfl, rfl⟩

theorem timed_iff : draft.Timed ↔ ∃ clips, draft.clips.traverse readClip = .ok clips := by
  simp only [NameMap.exists_traverse, readClip_eq_ok, exists_readAs, Timed]

section Walks

variable (known : ∀ c ∈ draft.constraints, c.prerequisite ∈ draft.clips.names ∧
  c.dependent ∈ draft.clips.names)

include known

theorem mem_names_of_walk {p c : String} (walk : Relation.TransGen draft.Precedes p c) :
    p ∈ draft.clips.names ∧ c ∈ draft.clips.names := by
  obtain ⟨_, first, -⟩ := Relation.TransGen.head'_iff.1 walk
  obtain ⟨_, -, last⟩ := Relation.TransGen.tail'_iff.1 walk
  obtain ⟨d, declared, rfl, -⟩ := Plan.precedes_iff.1 first
  obtain ⟨e, announced, -, rfl⟩ := Plan.precedes_iff.1 last
  exact ⟨(known d declared).1, (known e announced).2⟩

theorem walk_iff {p c : String} (last : c ∈ draft.clips.names) :
    Relation.TransGen draft.constraintGraph.Edge (draft.clips.names.idxOf p)
      (draft.clips.names.idxOf c) ↔
      Relation.TransGen draft.Precedes p c := by
  constructor
  · intro walk
    generalize there : draft.clips.names.idxOf c = v at walk
    induction walk generalizing c with
    | single edge =>
      obtain ⟨d, declared, one, two⟩ := constraint_of_edge edge
      have same := (List.idxOf_inj (known d declared).1).1 one
      have equal := (List.idxOf_inj (known d declared).2).1 (two.trans there.symm)
      exact .single (Plan.precedes_iff.2 ⟨d, declared, same, equal⟩)
    | tail _ edge ih =>
      obtain ⟨d, declared, one, two⟩ := constraint_of_edge edge
      have equal := (List.idxOf_inj (known d declared).2).1 (two.trans there.symm)
      exact (ih (known d declared).1 one).tail (Plan.precedes_iff.2 ⟨d, declared, rfl, equal⟩)
  · refine fun walk => Relation.TransGen.lift draft.clips.names.idxOf (fun p c precedes => ?_)
      p c walk
    obtain ⟨d, declared, rfl, rfl⟩ := Plan.precedes_iff.1 precedes
    exact edge_of_constraint declared

theorem clip_of_onCycle {v : Nat} (loops : draft.constraintGraph.reach.onCycle v = true) :
    ∃ clip ∈ draft.clips.names, draft.clips.names.idxOf clip = v ∧
      Relation.TransGen draft.Precedes clip clip := by
  have inside : v < draft.clips.names.length := Digraph.onCycle_lt loops
  have here := draft.clips.nodup_names.idxOf_getElem v inside
  have named := List.getElem_mem inside
  refine ⟨draft.clips.names[v], named, here, (walk_iff known named).1 ?_⟩
  rw [here]
  exact (Digraph.leads_reach (bounded_constraintGraph known)).1 loops

theorem cycle?_eq_none : draft.cycle? = none ↔ draft.Straight := by
  rw [Plan.cycle?, Option.map_eq_none_iff]
  constructor
  · intro none clip walk
    have named := (mem_names_of_walk known walk).1
    exact (Digraph.foundCycle?_eq_none (bounded_constraintGraph known)).1 none _
      ((walk_iff known named).2 walk)
  · refine fun straight => (Digraph.foundCycle?_eq_none (bounded_constraintGraph known)).2
      fun v walk => ?_
    obtain ⟨clip, -, -, again⟩ :=
      clip_of_onCycle known ((Digraph.leads_reach (bounded_constraintGraph known)).2 walk)
    exact straight clip again

theorem entangled_of_cycle? {names : List String} (found : draft.cycle? = some names) :
    draft.Entangled names := by
  obtain ⟨places, cycle, rfl⟩ := Option.map_eq_some_iff.1 found
  have bounded := bounded_constraintGraph known
  obtain ⟨w, loops, rfl⟩ := Digraph.foundCycle?_eq_some bounded cycle
  obtain ⟨clip, named, rfl, walk⟩ := clip_of_onCycle known loops
  refine ⟨clip, walk, fun name => ?_⟩
  constructor
  · intro member
    obtain ⟨place, here, there⟩ := List.mem_filterMap.1 member
    obtain ⟨inside, rfl⟩ := List.getElem?_eq_some_iff.1 there
    have both := (List.mem_filter.1 here).2
    rw [Bool.and_eq_true, Digraph.leads_reach bounded, Digraph.leads_reach bounded,
      ← draft.clips.nodup_names.idxOf_getElem place inside] at both
    have listed := List.getElem_mem inside
    exact ⟨((walk_iff known listed).1 both.2).to_reflTransGen,
      ((walk_iff known named).1 both.1).to_reflTransGen⟩
  · rintro ⟨there, back⟩
    -- the clip is on a cycle itself, so that there is a step on either way
    have onward := walk.trans_left there
    have homeward := Relation.TransGen.trans_right back walk
    have listed := (mem_names_of_walk known onward).2
    have inside := List.idxOf_lt_length_of_mem listed
    refine List.mem_filterMap.2 ⟨draft.clips.names.idxOf name, ?_, ?_⟩
    · refine List.mem_filter.2 ⟨List.mem_range.2 inside, ?_⟩
      rw [Bool.and_eq_true, Digraph.leads_reach bounded, Digraph.leads_reach bounded]
      exact ⟨(walk_iff known named).2 homeward, (walk_iff known listed).2 onward⟩
    · rw [List.getElem?_eq_getElem inside, List.getElem_idxOf]

end Walks

theorem pairwise_of_cycle? {names : List String} (found : draft.cycle? = some names) :
    names.Pairwise (· < ·) := by
  obtain ⟨places, cycle, rfl⟩ := Option.map_eq_some_iff.1 found
  obtain ⟨w, -, rfl⟩ := Option.map_eq_some_iff.1 cycle
  have ordered := List.pairwise_iff_getElem.1 draft.clips.pairwise_names
  have places : (draft.constraintGraph.component draft.constraintGraph.reach w).Pairwise (· < ·) :=
    List.pairwise_lt_range.filter _
  refine List.pairwise_filterMap.2 (places.imp fun {u v} below => ?_)
  rintro _ one _ two
  obtain ⟨inside, rfl⟩ := List.getElem?_eq_some_iff.1 one
  obtain ⟨within, rfl⟩ := List.getElem?_eq_some_iff.1 two
  exact ordered u v inside within below

theorem check_ok_iff_admissible : draft.check = .ok timeline ↔
    draft.Admissible timeline.settings ∧ draft.Straight ∧ draft.ReadAs timeline := by
  rw [check_ok_iff]
  constructor
  · rintro ⟨some, settings, faultless, grouped, none, read, groups⟩
    have fit := admissible_iff.2 ⟨some, settings, faultless, grouped⟩
    exact ⟨fit, (cycle?_eq_none fit.known).1 none, traverse_readClip_eq_ok.1 read, groups⟩
  · rintro ⟨fit, straight, read, groups⟩
    obtain ⟨some, settings, faultless, grouped⟩ := admissible_iff.1 fit
    exact ⟨some, settings, faultless, grouped, (cycle?_eq_none fit.known).2 straight,
      traverse_readClip_eq_ok.2 read, groups⟩

theorem check_cyclic_iff_admissible {names : List String} : draft.check = .error (.cyclic names) ↔
    (∃ settings, draft.Admissible settings) ∧ draft.cycle? = some names := by
  rw [check_cyclic_iff]
  constructor
  · rintro ⟨some, ⟨settings, readable⟩, faultless, grouped, found⟩
    exact ⟨⟨settings, admissible_iff.2 ⟨some, readable, faultless, grouped⟩⟩, found⟩
  · rintro ⟨⟨settings, fit⟩, found⟩
    obtain ⟨some, readable, faultless, grouped⟩ := admissible_iff.1 fit
    exact ⟨some, ⟨settings, readable⟩, faultless, grouped, found⟩

/-- The checks say exactly what they are meant to say. A plan passes as this one if and only if it
is fit, no clip comes to wait for itself, and it is read as this one; so it passes if and only if it
is fit, no clip comes to wait for itself, and all its spans can be read. It is rejected for a cycle
if and only if it is fit but for a cycle; the clips that are named then are in their order, each
once, and all those that wait for one another with a clip that waits for itself. -/
theorem check_exact (draft : Draft) :
    (∀ timeline, draft.check = .ok timeline ↔
      draft.Admissible timeline.settings ∧ draft.Straight ∧ draft.ReadAs timeline) ∧
    ((∃ timeline, draft.check = .ok timeline) ↔
      (∃ settings, draft.Admissible settings) ∧ draft.Straight ∧ draft.Timed) ∧
    ((∃ names, draft.check = .error (.cyclic names)) ↔
      (∃ settings, draft.Admissible settings) ∧ ¬ draft.Straight) ∧
    ∀ names, draft.check = .error (.cyclic names) →
      names.Pairwise (· < ·) ∧ draft.Entangled names := by
  refine ⟨fun timeline => check_ok_iff_admissible, ⟨?_, ?_⟩, ⟨?_, ?_⟩, ?_⟩
  · rintro ⟨timeline, passed⟩
    obtain ⟨fit, straight, read⟩ := check_ok_iff_admissible.1 passed
    exact ⟨⟨_, fit⟩, straight, timed_iff.2 ⟨_, traverse_readClip_eq_ok.2 read.clips⟩⟩
  · rintro ⟨⟨settings, fit⟩, straight, timed⟩
    obtain ⟨clips, read⟩ := timed_iff.1 timed
    have readAs : draft.ReadAs ⟨settings, clips, draft.groups⟩ :=
      ⟨traverse_readClip_eq_ok.1 read, rfl⟩
    exact ⟨_, check_ok_iff_admissible.2 ⟨fit, straight, readAs⟩⟩
  · rintro ⟨names, rejected⟩
    obtain ⟨⟨settings, fit⟩, found⟩ := check_cyclic_iff_admissible.1 rejected
    refine ⟨⟨settings, fit⟩, fun straight => ?_⟩
    rw [(cycle?_eq_none fit.known).2 straight] at found
    cases found
  · rintro ⟨⟨settings, fit⟩, crooked⟩
    obtain ⟨names, found⟩ := Option.ne_none_iff_exists'.1 fun none =>
      crooked ((cycle?_eq_none fit.known).1 none)
    exact ⟨names, check_cyclic_iff_admissible.2 ⟨⟨settings, fit⟩, found⟩⟩
  · intro names rejected
    obtain ⟨⟨settings, fit⟩, found⟩ := check_cyclic_iff_admissible.1 rejected
    exact ⟨pairwise_of_cycle? found, entangled_of_cycle? fit.known found⟩

/-- The duet with a group that names one clip twice. -/
def encore : Draft := { duet with groups := [⟨.together, ["a", "a"]⟩] }

/-- The duet is fit and passes; the canon names the two clips that wait for each other. A clip that
is listed twice in a group waits for itself, so that the encore is rejected, too. -/
theorem check_exact_encore : duet.Straight ∧ duet.Timed ∧ canon.Entangled ["b", "c"] ∧
    ∃ names, encore.check = .error (.cyclic names) := by
  obtain ⟨fit, straight, -⟩ := ((check_exact duet).1 duetPlan).1 check_duet
  have timed := ((check_exact duet).2.1.1 ⟨duetPlan, check_duet⟩).2.2
  have entangled := ((check_exact canon).2.2.2 ["b", "c"] check_canon).2
  have admissible : encore.Admissible duetPlan.settings :=
    ⟨fit.clips, fit.tick, fit.cap, fit.moving, fit.references, by decide +kernel⟩
  have twice : encore.Declares "a" .onStart "a" :=
    .companion (List.mem_singleton_self _) rfl rfl (List.mem_singleton_self _)
  have crooked : ¬ encore.Straight := fun straight => straight "a" (.single ⟨.onStart, twice⟩)
  exact ⟨straight, timed, entangled, (check_exact encore).2.2.1.2 ⟨⟨_, admissible⟩, crooked⟩⟩

end Draft

end Choreo
