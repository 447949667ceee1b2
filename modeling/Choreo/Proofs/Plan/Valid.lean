import Mathlib.Data.List.Forall2
import Choreo.Plan.Check
import Choreo.Proofs.Graph.Search

/-!
# Plans that pass the checks

A plan that can be played has clips and a tick that is not zero, its constraints are between its own
clips, and they can be ranked so that every clip ranks above those that it waits for.
-/

namespace Choreo

/-- How the clips of a group wait for one another. -/
def GroupMode.rule : GroupMode → Rule
  | .together => .onStart
  | .sequential => .onEnd

/-- One clip has to wait for another. -/
structure Constraint where
  prerequisite : String
  rule : Rule
  dependent : String
  deriving DecidableEq

/-- What a clip of this name waits for by its own references. -/
def ClipPlan.constraints {τ : Type} (name : String) (clip : ClipPlan τ) : List Constraint :=
  clip.partners.map (⟨·, .onStart, name⟩) ++ clip.forerunners.map (⟨·, .onEnd, name⟩)

/-- What the clips of a group wait for. -/
def Group.constraints (group : Group) : List Constraint :=
  group.edges.map fun edge => ⟨edge.1, group.mode.rule, edge.2⟩

theorem mem_neighbours {edge : String × String} {clips : List String}
    (h : edge ∈ neighbours clips) :
    edge.1 ∈ clips ∧ edge.2 ∈ clips := by
  induction clips using neighbours.induct with
  | case1 first second rest ih =>
    rw [neighbours, List.mem_cons] at h
    rcases h with rfl | later
    · simp
    · obtain ⟨one, two⟩ := ih later
      exact ⟨List.mem_cons_of_mem _ one, List.mem_cons_of_mem _ two⟩
  | case2 => simp_all [neighbours]

theorem Group.mem_edges {group : Group} {edge : String × String} (h : edge ∈ group.edges) :
    edge.1 ∈ group.clips ∧ edge.2 ∈ group.clips := by
  rw [edges] at h
  split at h
  · exact mem_neighbours h
  · split at h
    · cases h
    · rename_i first rest clips
      obtain ⟨other, member, rfl⟩ := List.mem_map.1 h
      simp [clips, member]

namespace Plan

variable {τ : Type}

/-- All constraints of a plan. -/
def constraints (plan : Plan τ) : List Constraint :=
  (plan.clips.entries.flatMap fun entry => entry.2.constraints entry.1) ++
    plan.groups.flatMap Group.constraints

theorem edges_eq (plan : Plan τ) :
    plan.edges = plan.constraints.map fun c => (c.prerequisite, c.dependent) := by
  simp [edges, constraints, List.map_flatMap, ClipPlan.constraints, Group.constraints,
    Function.comp_def]

/-- What makes a plan fit to be played. -/
structure Valid (plan : Plan Span) : Prop where
  clips : plan.clips.entries ≠ []
  tick : 0 < plan.settings.tick.ns
  known : ∀ c ∈ plan.constraints, c.prerequisite ∈ plan.clips.names ∧ c.dependent ∈ plan.clips.names
  members : ∀ group ∈ plan.groups, ∀ other ∈ group.clips, other ∈ plan.clips.names
  ranked : ∃ rank : String → Nat, ∀ c ∈ plan.constraints, rank c.prerequisite < rank c.dependent

/-- All clips that a plan refers to are its own. -/
structure Referring (plan : Plan Span) : Prop where
  known : ∀ c ∈ plan.constraints, c.prerequisite ∈ plan.clips.names ∧ c.dependent ∈ plan.clips.names
  members : ∀ group ∈ plan.groups, ∀ other ∈ group.clips, other ∈ plan.clips.names

theorem Valid.referring {plan : Plan Span} (valid : plan.Valid) : plan.Referring :=
  ⟨valid.known, valid.members⟩

end Plan

/-- A clip as it is written is read as this one: the spans are those of its texts, and the rest is
the same. -/
structure ClipPlan.ReadAs (written : ClipPlan String) (read : ClipPlan Span) : Prop where
  duration : Span.parse written.duration = .ok read.duration
  delay : Option.Rel (fun text delay => Span.parse text = .ok delay) written.delay read.delay
  repeats : read.repeats = written.repeats
  partners : read.partners = written.partners
  forerunners : read.forerunners = written.forerunners

namespace NameMap

variable {α β ε : Type} {f : String → α → Except ε β}

theorem pairwise_names (map : NameMap α) : map.names.Pairwise (· < ·) :=
  (sorted_iff_names map.entries).1 map.sorted

theorem nodup_names (map : NameMap α) : map.names.Nodup := by
  refine map.pairwise_names.imp fun {a b} less same => ?_
  rw [same] at less
  exact String.lt_irrefl _ less

theorem map_traverseEntries {γ : Type} {g : String × α → γ} {k : String × β → γ}
    (keeps : ∀ name value read, f name value = .ok read → k (name, read) = g (name, value))
    {entries : List (String × α)} {result : List (String × β)}
    (h : traverseEntries f entries = .ok result) : result.map k = entries.map g := by
  induction entries generalizing result with
  | nil =>
    cases h
    rfl
  | cons entry rest ih =>
    obtain ⟨name, value⟩ := entry
    rw [traverseEntries] at h
    split at h
    · cases h
    · rename_i read first
      split at h
      · cases h
      · rename_i others later
        cases h
        rw [List.map_cons, List.map_cons, keeps name value read first, ih later]

/-- Entries that are put through have their names, and the values that they were put to. -/
theorem traverseEntries_eq_ok {entries : List (String × α)} {result : List (String × β)} :
    traverseEntries f entries = .ok result ↔
      List.Forall₂ (fun entry read => read.1 = entry.1 ∧ f entry.1 entry.2 = .ok read.2) entries
        result := by
  induction entries generalizing result with
  | nil => simp [traverseEntries, eq_comm]
  | cons entry rest ih =>
    obtain ⟨name, value⟩ := entry
    rw [traverseEntries, List.forall₂_cons_left_iff]
    constructor
    · intro h
      split at h
      · cases h
      · rename_i read first
        split at h
        · cases h
        · rename_i others later
          cases h
          exact ⟨(name, read), others, ⟨rfl, first⟩, ih.1 later, rfl⟩
    · rintro ⟨⟨_, read⟩, others, ⟨rfl, first⟩, later, rfl⟩
      simp only [first, ih.2 later]

theorem exists_traverseEntries {entries : List (String × α)} :
    (∃ result, traverseEntries f entries = .ok result) ↔
      ∀ entry ∈ entries, ∃ read, f entry.1 entry.2 = .ok read := by
  simp only [traverseEntries_eq_ok]
  induction entries with
  | nil => simp
  | cons entry rest ih =>
    rw [List.forall_mem_cons, ← ih]
    constructor
    · rintro ⟨_, here | ⟨⟨-, first⟩, later⟩⟩
      exact ⟨⟨_, first⟩, _, later⟩
    · rintro ⟨⟨read, first⟩, others, later⟩
      exact ⟨(entry.1, read) :: others, .cons ⟨rfl, first⟩ later⟩

theorem traverse_eq_ok {map : NameMap α} {result : NameMap β} :
    map.traverse f = .ok result ↔ traverseEntries f map.entries = .ok result.entries := by
  rw [traverse]
  constructor
  · intro h
    split at h
    · cases h
    · rename_i entries found
      cases h
      exact found
  · intro h
    split
    · rename_i failed
      rw [failed] at h
      cases h
    · rename_i entries found
      rw [found] at h
      cases h
      rfl

theorem exists_traverse {map : NameMap α} : (∃ result, map.traverse f = .ok result) ↔
    ∀ entry ∈ map.entries, ∃ read, f entry.1 entry.2 = .ok read := by
  rw [← exists_traverseEntries]
  constructor
  · rintro ⟨result, through⟩
    exact ⟨result.entries, traverse_eq_ok.1 through⟩
  · rintro ⟨entries, through⟩
    have sorted := map.sorted
    rw [sorted_iff_names, ← names_traverseEntries through, ← sorted_iff_names] at sorted
    exact ⟨⟨entries, sorted⟩, traverse_eq_ok.2 through⟩

end NameMap

namespace Draft

variable {draft : Draft} {timeline : Timeline}

/-- A plan passes if no check finds anything, and its clips and settings can be read. -/
theorem check_ok_iff : draft.check = .ok timeline ↔
    draft.clips.isEmpty = false ∧ readSettings draft.settings = .ok timeline.settings ∧
      draft.clipFault = none ∧ draft.groupFault = none ∧ draft.cycle? = none ∧
      draft.clips.traverse readClip = .ok timeline.clips ∧ timeline.groups = draft.groups := by
  constructor
  · intro h
    rw [check] at h
    split at h
    · cases h
    · rename_i some
      split at h
      · cases h
      · rename_i settings read
        split at h
        · cases h
        · rename_i faultless
          obtain ⟨clips, groups⟩ := Option.or_eq_none_iff.1 faultless
          split at h
          · cases h
          · rename_i acyclic
            split at h
            · cases h
            · rename_i found
              cases h
              exact ⟨by simpa using some, read, clips, groups, acyclic, found, rfl⟩
  · obtain ⟨settings, clips, groups⟩ := timeline
    rintro ⟨some, readable, faultless, grouped, straight, read, same⟩
    simp only [check, some, Bool.false_eq_true, ↓reduceIte, readable, faultless, grouped,
      Option.or_none, straight, read]
    rw [← same]

theorem check_ok (h : draft.check = .ok timeline) :
    draft.clips.isEmpty = false ∧ readSettings draft.settings = .ok timeline.settings ∧
      draft.clipFault = none ∧ draft.groupFault = none ∧ draft.cycle? = none ∧
      draft.clips.traverse readClip = .ok timeline.clips ∧ timeline.groups = draft.groups :=
  check_ok_iff.1 h

theorem readSpan_eq_ok {field : SpanField} {text : String} {span : Span} :
    readSpan field text = .ok span ↔ Span.parse text = .ok span := by
  rw [readSpan]
  cases Span.parse text <;> simp

theorem readSettings_eq_ok {settings : Settings String} {read : Settings Span} :
    readSettings settings = .ok read ↔ Span.parse settings.tick = .ok read.tick ∧
      0 < read.tick.ns ∧ Span.parse settings.cap = .ok read.cap := by
  constructor
  · intro h
    rw [readSettings] at h
    split at h
    · cases h
    · rename_i tick first
      split at h
      · cases h
      · rename_i positive
        split at h
        · cases h
        · rename_i cap second
          cases h
          exact ⟨readSpan_eq_ok.1 first, by simpa [Span.isZero, Nat.pos_iff_ne_zero] using positive,
            readSpan_eq_ok.1 second⟩
  · rintro ⟨first, positive, second⟩
    have moving : read.tick.isZero = false := by simpa [Span.isZero] using Nat.ne_of_gt positive
    simp only [readSettings, readSpan_eq_ok.2 first, moving, Bool.false_eq_true, ↓reduceIte,
      readSpan_eq_ok.2 second]

theorem readClip_eq_ok {name : String} {clip : ClipPlan String} {read : ClipPlan Span} :
    readClip name clip = .ok read ↔ clip.ReadAs read := by
  constructor
  · intro h
    rw [readClip] at h
    split at h
    · cases h
    · rename_i duration first
      split at h
      · rename_i prompt
        cases h
        exact ⟨readSpan_eq_ok.1 first, by rw [prompt]; exact .none, rfl, rfl, rfl⟩
      · rename_i text late
        split at h
        · cases h
        · rename_i delay second
          cases h
          exact ⟨readSpan_eq_ok.1 first, by rw [late]; exact .some (readSpan_eq_ok.1 second), rfl,
            rfl, rfl⟩
  · obtain ⟨duration, repeats, partners, forerunners, delay⟩ := clip
    obtain ⟨span, repeats', partners', forerunners', wait⟩ := read
    rintro ⟨first, second, rfl, rfl, rfl⟩
    rw [readClip, readSpan_eq_ok.2 first]
    cases second with
    | none => rfl
    | some second => simp only [readSpan_eq_ok.2 second]

theorem traverse_readClip_eq_ok {clips : NameMap (ClipPlan Span)} :
    draft.clips.traverse readClip = .ok clips ↔
      List.Forall₂ (fun written read => read.1 = written.1 ∧ written.2.ReadAs read.2)
        draft.clips.entries clips.entries := by
  simp only [NameMap.traverse_eq_ok, NameMap.traverseEntries_eq_ok, readClip_eq_ok]

theorem names_of_read (clips : draft.clips.traverse readClip = .ok timeline.clips) :
    timeline.clips.names = draft.clips.names :=
  NameMap.names_traverseEntries (NameMap.traverse_eq_ok.1 clips)

theorem names_eq (h : draft.check = .ok timeline) : timeline.clips.names = draft.clips.names := by
  obtain ⟨-, -, -, -, -, clips, -⟩ := check_ok h
  exact names_of_read clips

theorem constraints_of_read (clips : draft.clips.traverse readClip = .ok timeline.clips)
    (groups : timeline.groups = draft.groups) : timeline.constraints = draft.constraints := by
  have same := NameMap.map_traverseEntries (f := readClip)
    (g := fun entry => entry.2.constraints entry.1) (k := fun entry => entry.2.constraints entry.1)
    (fun name value read ok => by
      have same := readClip_eq_ok.1 ok
      simp [ClipPlan.constraints, same.partners, same.forerunners]) (NameMap.traverse_eq_ok.1 clips)
  simp only [Plan.constraints, groups, List.flatMap_def, same]

theorem constraints_eq (h : draft.check = .ok timeline) :
    timeline.constraints = draft.constraints := by
  obtain ⟨-, -, -, -, -, clips, groups⟩ := check_ok h
  exact constraints_of_read clips groups

theorem contains_iff {plan : Plan String} {name : String} :
    plan.clips.contains name = true ↔ name ∈ plan.clips.names := by
  simp [NameMap.contains]

theorem referenceFault_eq_none {clip other : String} {rule : Rule} :
    draft.referenceFault clip rule other = none ↔ other ∈ draft.clips.names ∧ other ≠ clip := by
  rw [← contains_iff, referenceFault]
  split
  · rename_i unknown
    simp_all
  · rename_i known
    split <;> simp_all

/-- The clips are without fault if each refers only to clips of the plan, and none to itself. -/
theorem clipFault_eq_none : draft.clipFault = none ↔ ∀ entry ∈ draft.clips.entries, ∀ rule,
    ∀ other ∈ entry.2.references rule, other ∈ draft.clips.names ∧ other ≠ entry.1 := by
  simp only [clipFault, List.findSome?_eq_none_iff, referenceFault_eq_none]
  refine forall₂_congr fun entry _ => ⟨fun h rule => h rule ?_, fun h rule _ => h rule⟩
  cases rule <;> simp

/-- The groups are without fault if each refers only to clips of the plan. -/
theorem groupFault_eq_none : draft.groupFault = none ↔
    ∀ group ∈ draft.groups, ∀ other ∈ group.clips, other ∈ draft.clips.names := by
  simp only [groupFault, List.findSome?_eq_none_iff, Option.map_eq_none_iff, List.find?_eq_none,
    Bool.not_eq_true', Bool.not_eq_false, contains_iff]
  constructor
  · intro h group member
    obtain ⟨place, inside, rfl⟩ := List.getElem_of_mem member
    exact h (draft.groups[place], place) (List.mem_zipIdx_iff_getElem?.2 (by simp [inside]))
  · exact fun h entry member => h entry.1 (List.fst_mem_of_mem_zipIdx member)

theorem mem_names_of_constraint (clips : draft.clipFault = none) (groups : draft.groupFault = none)
    {c : Constraint} (h : c ∈ draft.constraints) :
    c.prerequisite ∈ draft.clips.names ∧ c.dependent ∈ draft.clips.names := by
  rcases List.mem_append.1 h with own | grouped
  · obtain ⟨entry, member, declared⟩ := List.mem_flatMap.1 own
    have named : entry.1 ∈ draft.clips.names := List.mem_map_of_mem member
    rcases List.mem_append.1 declared with partner | forerunner
    · obtain ⟨other, refers, rfl⟩ := List.mem_map.1 partner
      exact ⟨(clipFault_eq_none.1 clips entry member .onStart other refers).1, named⟩
    · obtain ⟨other, refers, rfl⟩ := List.mem_map.1 forerunner
      exact ⟨(clipFault_eq_none.1 clips entry member .onEnd other refers).1, named⟩
  · obtain ⟨group, member, declared⟩ := List.mem_flatMap.1 grouped
    obtain ⟨edge, drawn, rfl⟩ := List.mem_map.1 declared
    obtain ⟨one, two⟩ := Group.mem_edges drawn
    have listed := groupFault_eq_none.1 groups group member
    exact ⟨listed _ one, listed _ two⟩

theorem edge_of_constraint {c : Constraint} (member : c ∈ draft.constraints) :
    draft.constraintGraph.Edge (draft.clips.names.idxOf c.prerequisite)
      (draft.clips.names.idxOf c.dependent) := by
  rw [Digraph.Edge, Plan.constraintGraph, Plan.edges_eq]
  simp only [List.map_map]
  exact List.mem_map_of_mem member

theorem constraint_of_edge {u v : Nat} (edge : draft.constraintGraph.Edge u v) :
    ∃ c ∈ draft.constraints, draft.clips.names.idxOf c.prerequisite = u ∧
      draft.clips.names.idxOf c.dependent = v := by
  rw [Digraph.Edge, Plan.constraintGraph, Plan.edges_eq] at edge
  simp only [List.map_map] at edge
  obtain ⟨c, member, same⟩ := List.mem_map.1 edge
  exact ⟨c, member, (Prod.mk.inj same).1, (Prod.mk.inj same).2⟩

theorem bounded_constraintGraph
    (known : ∀ c ∈ draft.constraints, c.prerequisite ∈ draft.clips.names ∧
      c.dependent ∈ draft.clips.names) : draft.constraintGraph.Bounded := by
  intro edge member
  obtain ⟨c, declared, same, -⟩ := constraint_of_edge member
  rw [← same]
  exact List.idxOf_lt_length_of_mem (known c declared).1

/-- A plan that passes: it has clips, its settings and clips can be read, and no check finds
anything. -/
theorem check_eq_ok {settings : Settings Span} {clips : NameMap (ClipPlan Span)}
    (some : draft.clips.isEmpty = false) (readable : readSettings draft.settings = .ok settings)
    (faultless : draft.clipFault.or draft.groupFault = none)
    (acyclic : ∀ v < draft.constraintGraph.size, draft.constraintGraph.reach.onCycle v = false)
    (read : draft.clips.traverse readClip = .ok clips) :
    draft.check = .ok ⟨settings, clips, draft.groups⟩ := by
  obtain ⟨clean, grouped⟩ := Option.or_eq_none_iff.1 faultless
  have bounded := bounded_constraintGraph fun _ member =>
    mem_names_of_constraint clean grouped member
  have straight : draft.cycle? = none := by
    rw [Plan.cycle?, (Digraph.foundCycle?_eq_none bounded).2
      (Digraph.acyclic_of_onCycle bounded acyclic)]
    rfl
  exact check_ok_iff.2 ⟨some, readable, clean, grouped, straight, read, rfl⟩

/-- Without a cycle in the constraints every clip ranks above those that it waits for. -/
theorem ranked_of_acyclic (known : ∀ c ∈ draft.constraints,
      c.prerequisite ∈ draft.clips.names ∧ c.dependent ∈ draft.clips.names)
    (acyclic : draft.cycle? = none) :
    ∃ rank : String → Nat, ∀ c ∈ draft.constraints, rank c.prerequisite < rank c.dependent := by
  have bounded := bounded_constraintGraph known
  have none : draft.constraintGraph.foundCycle? = none := Option.map_eq_none_iff.1 acyclic
  refine ⟨fun name => draft.constraintGraph.rank (draft.clips.names.idxOf name), fun c member => ?_⟩
  exact Digraph.rank_lt bounded ((Digraph.foundCycle?_eq_none bounded).1 none)
    (edge_of_constraint member)

theorem valid_of_check (h : draft.check = .ok timeline) : timeline.Valid := by
  obtain ⟨some, settings, clips, groups, acyclic, read, same⟩ := check_ok h
  have names := names_eq h
  have known := fun c member => mem_names_of_constraint (c := c) clips groups member
  constructor
  · intro none
    have empty : draft.clips.names = [] := by
      rw [← names, NameMap.names, none]
      rfl
    have entries : draft.clips.entries = [] := List.map_eq_nil_iff.1 empty
    simp [NameMap.isEmpty, entries] at some
  · exact (readSettings_eq_ok.1 settings).2.1
  · rw [constraints_eq h, names]
    exact known
  · rw [same, names]
    exact groupFault_eq_none.1 groups
  · rw [constraints_eq h]
    exact ranked_of_acyclic known acyclic

end Draft

end Choreo
