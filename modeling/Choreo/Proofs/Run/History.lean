import Choreo.Proofs.Run.Bracket
import Choreo.Proofs.Run.Release

/-!
# What a run has heard

A dependency is met when what it awaits was reported of its prerequisite and no cancellation before
that, it is dead when a cancellation came first, and it is open as long as neither was reported. A
node starts with the report that meets the last of its dependencies. This is all that the pending
lists, the subscriptions and the blocked nodes remember of the reports.
-/

namespace Choreo

/-- Whether an event is among these, and the other one not before it. -/
def precedes (event other : Lifecycle) (events : List Lifecycle) : Bool :=
  (events.takeWhile (· ≠ other)).contains event

theorem precedes_concat {event other : Lifecycle} (h : event ≠ other) (events : List Lifecycle)
    (last : Lifecycle) : precedes event other (events ++ [last]) =
      (precedes event other events || (last = event && event ∉ events && other ∉ events)) := by
  induction events with
  | nil =>
    by_cases passed : last = other
    · simp [precedes, passed, Ne.symm h]
    · simp [precedes, passed, Eq.comm (a := last)]
  | cons first events ih =>
    simp only [precedes] at ih ⊢
    by_cases passed : first = other
    · simp [passed]
    · by_cases now : first = event
      · simp [now, h]
      · simp [passed, Ne.symm passed, Ne.symm now] at ih ⊢
        exact ih

theorem mem_of_precedes {event other : Lifecycle} {events : List Lifecycle}
    (h : precedes event other events = true) : event ∈ events :=
  (List.takeWhile_prefix _).subset (by simpa [precedes] using h)

theorem precedes_or {event other : Lifecycle} (h : event ≠ other) (events : List Lifecycle) :
    precedes event other events = true ∨ precedes other event events = true ↔
      event ∈ events ∨ other ∈ events := by
  constructor
  · rintro (first | first)
    · exact .inl (mem_of_precedes first)
    · exact .inr (mem_of_precedes first)
  · induction events using List.reverseRecOn with
    | nil => simp
    | append_singleton events last ih =>
      rw [precedes_concat h, precedes_concat h.symm]
      by_cases before : event ∈ events ∨ other ∈ events
      · intro _
        rcases ih before with first | first <;> simp [first]
      · obtain ⟨noEvent, noOther⟩ := not_or.1 before
        simp only [List.mem_append, noEvent, List.mem_singleton, noOther, false_or]
        rintro (rfl | rfl)
        · exact .inl (by simp)
        · exact .inr (by simp)

theorem precedes_asymm {event other : Lifecycle} (h : event ≠ other) {events : List Lifecycle}
    (first : precedes event other events = true) : precedes other event events = false := by
  induction events using List.reverseRecOn with
  | nil => rfl
  | append_singleton events last ih =>
    rw [precedes_concat h] at first
    rw [precedes_concat h.symm]
    by_cases before : precedes event other events = true
    · have present := mem_of_precedes before
      simp [ih before, present]
    · obtain ⟨⟨now, -⟩, noOther⟩ : (last = event ∧ event ∉ events) ∧ other ∉ events := by
        simpa [before] using first
      have later : precedes other event events = false := by
        simpa using fun second => noOther (mem_of_precedes second)
      simp [later, now, h]

namespace Graph

/-- What was reported of the unit of a node. -/
def told (graph : Graph) (reports : List Report) (node : Nat) : List Lifecycle :=
  (reports.filter fun report => graph.unit? node = some report.unit).map Report.event

/-- What the dependency awaits was reported, and no cancellation before that. -/
def met (graph : Graph) (reports : List Report) (dependency : Dependency) : Bool :=
  precedes dependency.rule.awaited .canceled (graph.told reports dependency.node)

/-- A cancellation was reported, and what the dependency awaits not before that. -/
def dead (graph : Graph) (reports : List Report) (dependency : Dependency) : Bool :=
  precedes .canceled dependency.rule.awaited (graph.told reports dependency.node)

/-- The dependency is still waited for. -/
def live (graph : Graph) (reports : List Report) (dependency : Dependency) : Bool :=
  !graph.met reports dependency && !graph.dead reports dependency

/-- Everything that the node waits for was met. -/
def ready (graph : Graph) (reports : List Report) (node : Nat) : Bool :=
  (graph.dependencies node).all (graph.met reports)

variable (graph : Graph) (reports : List Report) (report : Report)

theorem told_concat (node : Nat) : graph.told (reports ++ [report]) node =
    graph.told reports node ++ if graph.unit? node = some report.unit then [report.event]
      else [] := by
  by_cases here : graph.unit? node = some report.unit <;> simp [told, here]

theorem awaited_ne_canceled (rule : Rule) : rule.awaited ≠ .canceled := by
  cases rule <;> simp [Rule.awaited]

theorem live_iff (d : Dependency) : graph.live reports d = true ↔
    d.rule.awaited ∉ graph.told reports d.node ∧ .canceled ∉ graph.told reports d.node := by
  have either := precedes_or (awaited_ne_canceled d.rule) (graph.told reports d.node)
  rw [← not_or, ← either]
  simp [live, met, dead]

theorem live_eq (d : Dependency) : graph.live reports d =
    (decide (d.rule.awaited ∉ graph.told reports d.node) &&
      decide (.canceled ∉ graph.told reports d.node)) := by
  apply Bool.eq_iff_iff.2
  rw [live_iff]
  simp

/-- A report meets an open dependency if it is what that awaits. -/
theorem met_concat (d : Dependency) : graph.met (reports ++ [report]) d =
    (graph.met reports d || (graph.live reports d && graph.unit? d.node = some report.unit &&
      report.event = d.rule.awaited)) := by
  simp only [met, told_concat]
  by_cases here : graph.unit? d.node = some report.unit
  · rw [if_pos here, precedes_concat (awaited_ne_canceled d.rule), live_eq]
    simp only [here, decide_true, Bool.and_true]
    rw [Bool.and_assoc, Bool.and_comm (decide (report.event = _))]
  · simp [here]

theorem dead_concat (d : Dependency) : graph.dead (reports ++ [report]) d =
    (graph.dead reports d || (graph.live reports d && graph.unit? d.node = some report.unit &&
      report.event = .canceled)) := by
  simp only [dead, told_concat]
  by_cases here : graph.unit? d.node = some report.unit
  · rw [if_pos here, precedes_concat (awaited_ne_canceled d.rule).symm, live_eq]
    simp only [here, decide_true, Bool.and_true]
    rw [Bool.and_assoc, Bool.and_comm (decide (report.event = _)),
      Bool.and_comm (decide (Lifecycle.canceled ∉ graph.told reports d.node))]
  · simp [here]

theorem live_concat (d : Dependency) : graph.live (reports ++ [report]) d =
    (graph.live reports d && !(graph.unit? d.node = some report.unit &&
      (report.event = d.rule.awaited || report.event = .canceled))) := by
  simp only [live, met_concat, dead_concat]
  by_cases here : graph.unit? d.node = some report.unit
  · cases graph.met reports d <;> cases graph.dead reports d <;> simp [here]
  · simp [here]

theorem not_dead_of_met {d : Dependency} (h : graph.met reports d = true) :
    graph.dead reports d = false :=
  precedes_asymm (awaited_ne_canceled d.rule) h

theorem not_ready_of_live {node : Nat} {d : Dependency} (declared : d ∈ graph.dependencies node)
    (live : graph.live reports d = true) : graph.ready reports node = false := by
  apply List.all_eq_false.2
  refine ⟨d, declared, ?_⟩
  rw [Graph.live, Bool.and_eq_true_iff] at live
  simpa using live.1

theorem ready_iff (node : Nat) : graph.ready reports node = true ↔
    (graph.dependencies node).filter (graph.live reports) = [] ∧
      ∀ d ∈ graph.dependencies node, graph.dead reports d = false := by
  rw [ready, List.all_eq_true, List.filter_eq_nil_iff]
  constructor
  · intro met
    exact ⟨fun d declared => by simp [live, met d declared],
      fun d declared => not_dead_of_met graph reports (met d declared)⟩
  · rintro ⟨closed, alive⟩ d declared
    have settled := closed d declared
    simpa [live, alive d declared] using settled

/-- A node becomes ready with the report that settles its last open dependencies, none of which
died. -/
theorem becomes_ready_iff (node : Nat) :
    (graph.ready (reports ++ [report]) node && !graph.ready reports node) = true ↔
      report.event ≠ .canceled ∧ (graph.dependencies node).filter (graph.live reports) ≠ [] ∧
        (graph.dependencies node).filter (graph.live (reports ++ [report])) = [] ∧
        ∀ d ∈ graph.dependencies node, graph.dead reports d = false := by
  rw [Bool.and_eq_true, Bool.not_eq_true', ready_iff]
  constructor
  · rintro ⟨⟨closed, alive⟩, before⟩
    have earlier : ∀ d ∈ graph.dependencies node, graph.dead reports d = false := by
      intro d declared
      have later := alive d declared
      rw [dead_concat, Bool.or_eq_false_iff] at later
      exact later.1
    have some : (graph.dependencies node).filter (graph.live reports) ≠ [] := by
      intro none
      rw [(ready_iff graph reports node).2 ⟨none, earlier⟩] at before
      cases before
    refine ⟨fun canceled => ?_, some, closed, earlier⟩
    obtain ⟨d, member⟩ := List.exists_mem_of_ne_nil _ some
    obtain ⟨declared, open_⟩ := List.mem_filter.1 member
    have now := List.filter_eq_nil_iff.1 closed d declared
    have later := alive d declared
    rw [live_concat, open_, canceled] at now
    rw [dead_concat, open_, canceled] at later
    by_cases named : graph.unit? d.node = Option.some report.unit <;> simp [named] at now later
  · rintro ⟨going, some, closed, alive⟩
    refine ⟨⟨closed, fun d declared => ?_⟩, ?_⟩
    · simp [dead_concat, alive d declared, going]
    · obtain ⟨d, member⟩ := List.exists_mem_of_ne_nil _ some
      obtain ⟨declared, open_⟩ := List.mem_filter.1 member
      exact not_ready_of_live graph reports declared open_

theorem live_nil (d : Dependency) : graph.live [] d = true := rfl

theorem ready_nil (node : Nat) : graph.ready [] node = true ↔ graph.dependencies node = [] := by
  constructor
  · intro h
    apply List.eq_nil_iff_forall_not_mem.2
    intro d declared
    have met := List.all_eq_true.1 h d declared
    cases met
  · intro none
    simp [ready, none]

theorem unit?_of_lt {graph : Graph} {node : Nat} (h : node < graph.nodes.length) :
    ∃ unit, graph.unit? node = some unit := by
  simp [unit?, h]

end Graph

namespace Conductor

/-- The run began with this graph and this order, and these reports came in since. -/
structure Tracks (base : Graph) (order : List Nat) (reports : List Report)
    (conductor : Conductor) : Prop where
  running : conductor.phase = .running
  sound : conductor.graph.Sound
  grown : base.nodes.map Node.unit <+: conductor.graph.nodes.map Node.unit
  mirrors : Waiting.Mirrors base order (base.live reports) conductor.waiting
  blocked : ∀ node, conductor.waiting.isBlocked node = true ↔
    ∃ d ∈ base.dependencies node, base.dead reports d = true
  playing : ∀ unit ∈ conductor.playing.units,
    ∃ node, base.unit? node = some unit ∧ base.ready reports node = true

/-- Of units that do not play yet the first is let in, and the others do not play then either. -/
theorem insert_of_disjoint {unit : UnitId} {units : List UnitId} {playing : Playing}
    (distinct : (unit :: units).Nodup) (apart : ∀ other ∈ unit :: units, other ∉ playing.units) :
    playing.insert unit = (true, ⟨playing.units ++ [unit]⟩) ∧
      ∀ other ∈ units, other ∉ playing.units ++ [unit] := by
  have absent : playing.contains unit = false := by
    simpa [Playing.contains] using apart unit (List.mem_cons_self ..)
  refine ⟨by simp [Playing.insert, absent], fun other member => ?_⟩
  have differs : other ≠ unit := fun same => (List.nodup_cons.1 distinct).1 (same ▸ member)
  simpa [differs] using apart other (List.mem_cons_of_mem _ member)

/-- Units that do not play yet are all told to start. -/
theorem enrol_of_disjoint {units : List UnitId} {playing : Playing} (distinct : units.Nodup)
    (apart : ∀ unit ∈ units, unit ∉ playing.units) :
    enrol units playing = (units.map (Command.call .start), ⟨playing.units ++ units⟩) := by
  induction units generalizing playing with
  | nil => simp [enrol]
  | cons unit units ih =>
    obtain ⟨inserted, others⟩ := insert_of_disjoint distinct apart
    simp [enrol, inserted, ih distinct.of_cons others]

variable {base : Graph} {order : List Nat} {reports : List Report} {conductor : Conductor}

theorem Tracks.unit? (tracks : Tracks base order reports conductor) {node : Nat} {unit : UnitId}
    (h : base.unit? node = some unit) : conductor.graph.unit? node = some unit := by
  rw [Graph.unit?_eq_getElem] at h ⊢
  obtain ⟨added, grown⟩ := tracks.grown
  rw [← grown, List.getElem?_append_left (List.getElem?_eq_some_iff.1 h).1, h]

theorem Tracks.units (tracks : Tracks base order reports conductor) {places : List Nat}
    (inside : ∀ node ∈ places, node < base.nodes.length) :
    conductor.graph.units places = base.units places := by
  apply List.filterMap_congr
  intro node member
  obtain ⟨unit, here⟩ := Graph.unit?_of_lt (inside node member)
  rw [here, tracks.unit? here]

/-- A declared dependency is on the unit that reports exactly if it is on the node of that. -/
theorem Tracks.names (tracks : Tracks base order reports conductor) (arena : Arena base.nodes)
    {report : Report} {node : Nat} (found : conductor.graph.nodeFor? report.unit = some node)
    {other : Nat} {d : Dependency} (declared : d ∈ base.dependencies other) :
    base.unit? d.node = some report.unit ↔ d.node = node := by
  have place := (Graph.nodeFor?_eq_some tracks.sound.arena).1 found
  constructor
  · intro named
    exact Graph.unit?_inj tracks.sound.arena (tracks.unit? named) place
  · rintro rfl
    obtain ⟨holder, hholder, member⟩ := Graph.mem_dependencies.1 declared
    obtain ⟨unit, here⟩ := Graph.unit?_of_lt (arena.lt_of_dependency hholder member)
    rw [here, ← tracks.unit? here, place]

theorem Tracks.unnamed (tracks : Tracks base order reports conductor) {report : Report}
    (absent : conductor.graph.nodeFor? report.unit = none) (node : Nat) :
    base.unit? node ≠ some report.unit := by
  intro named
  have later := (Graph.nodeFor?_eq_some tracks.sound.arena).2 (tracks.unit? named)
  rw [absent] at later
  cases later

/-- The nodes that a report makes ready, in the order of start. -/
def upcoming (base : Graph) (order : List Nat) (reports : List Report) (report : Report) :
    List Nat :=
  order.filter fun node => base.ready (reports ++ [report]) node && !base.ready reports node

theorem ready_mono (base : Graph) {reports : List Report} {node : Nat} (report : Report)
    (h : base.ready reports node = true) : base.ready (reports ++ [report]) node = true := by
  rw [Graph.ready, List.all_eq_true] at h ⊢
  intro d declared
  rw [Graph.met_concat, h d declared, Bool.true_or]

/-- What a report lets the waiting nodes hear is what it settles. -/
theorem Tracks.hear (tracks : Tracks base order reports conductor) (arena : Arena base.nodes)
    (ordering : Graph.Ordering base.nodes order) {report : Report} {node : Nat}
    (found : conductor.graph.nodeFor? report.unit = some node) :
    let heard := conductor.waiting.hear report.event node
    heard.1 = upcoming base order reports report ∧
      Waiting.Mirrors base order (base.live (reports ++ [report])) heard.2 ∧
      ∀ other, heard.2.isBlocked other = true ↔
        ∃ d ∈ base.dependencies other, base.dead (reports ++ [report]) d = true := by
  intro heard
  have heard := tracks.mirrors.hear ordering report.event node
  have left : ∀ other, ∀ d ∈ base.dependencies other,
      (base.live reports d && !d.settledBy report.event node) =
        base.live (reports ++ [report]) d := by
    intro other d declared
    rw [Graph.live_concat, Dependency.settledBy]
    simp only [tracks.names arena found declared]
  have blocked : ∀ other, (conductor.waiting.hear report.event node).2.isBlocked other = true ↔
      ∃ d ∈ base.dependencies other, base.dead (reports ++ [report]) d = true := by
    intro other
    rw [heard.blocked, tracks.blocked]
    simp only [Graph.dead_concat, Bool.or_eq_true, Bool.and_eq_true, decide_eq_true_eq]
    constructor
    · rintro (⟨d, declared, dead⟩ | ⟨canceled, d, declared, live, here⟩)
      · exact ⟨d, declared, .inl dead⟩
      · exact ⟨d, declared, .inr ⟨⟨live, (tracks.names arena found declared).2 here⟩, canceled⟩⟩
    · rintro ⟨d, declared, dead | ⟨⟨live, named⟩, canceled⟩⟩
      · exact .inl ⟨d, declared, dead⟩
      · exact .inr ⟨canceled, d, declared, live, (tracks.names arena found declared).1 named⟩
  refine ⟨?_, heard.mirrors.congr left, blocked⟩
  rw [heard.ready]
  apply List.filter_congr
  intro other _
  have rest := List.filter_congr (left other)
  have dying : conductor.waiting.isBlocked other = false ↔
      ∀ d ∈ base.dependencies other, base.dead reports d = false := by
    rw [← Bool.not_eq_true, tracks.blocked]
    simp
  apply Bool.eq_iff_iff.2
  rw [Graph.becomes_ready_iff, decide_eq_true_eq, rest, dying]

/-- What a report of a node leads to: the nodes that become ready start, and everything that was
known of the run holds with the report. -/
theorem Tracks.absorb (tracks : Tracks base order reports conductor) (arena : Arena base.nodes)
    (ordering : Graph.Ordering base.nodes order) {report : Report} {node : Nat}
    (found : conductor.graph.nodeFor? report.unit = some node) :
    let starting := base.units (upcoming base order reports report)
    let done := conductor.absorb report.event node
    done.1 = starting.map (Command.call .start) ∧
      done.2.playing.units = conductor.playing.units ++ starting ∧
      Tracks base order (reports ++ [report]) done.2 := by
  intro starting done
  obtain ⟨ready, mirrors, blocked⟩ := tracks.hear arena ordering found
  have known : conductor.graph.units (upcoming base order reports report) = starting :=
    tracks.units fun node member => (ordering.mem_iff node).1 (List.mem_of_mem_filter member)
  have distinct : starting.Nodup := nodup_units arena (ordering.nodup.filter _)
  have member : ∀ unit ∈ starting, ∃ node, base.unit? node = some unit ∧
      base.ready (reports ++ [report]) node = true ∧ base.ready reports node = false := by
    intro unit inside
    obtain ⟨node, listed, named⟩ := List.mem_filterMap.1 inside
    have becomes := (List.mem_filter.1 listed).2
    rw [Bool.and_eq_true, Bool.not_eq_true'] at becomes
    exact ⟨node, named, becomes⟩
  have apart : ∀ unit ∈ starting, unit ∉ conductor.playing.units := by
    intro unit inside plays
    obtain ⟨node, named, -, before⟩ := member unit inside
    obtain ⟨other, again, earlier⟩ := tracks.playing unit plays
    rw [Graph.unit?_inj arena named again, earlier] at before
    cases before
  have result : done = (starting.map (Command.call .start), { conductor with
      waiting := (conductor.waiting.hear report.event node).2
      playing := ⟨conductor.playing.units ++ starting⟩ }) := by
    simp only [done, absorb_of_running _ _ _ tracks.running, ready, known,
      enrol_of_disjoint distinct apart]
  rw [result]
  refine ⟨rfl, rfl, tracks.running, tracks.sound, tracks.grown, mirrors, blocked, ?_⟩
  intro unit plays
  rcases List.mem_append.1 plays with before | starts
  · obtain ⟨node, named, earlier⟩ := tracks.playing unit before
    exact ⟨node, named, ready_mono base report earlier⟩
  · obtain ⟨node, named, now, -⟩ := member unit starts
    exact ⟨node, named, now⟩

theorem started_calls (units : List UnitId) (closed : Bool) :
    (Decision.mk (units.map (Command.call .start)) closed).started = units := by
  simp [Decision.started, List.filterMap_map]

theorem started_announcing (units : List UnitId) (event : Lifecycle) (closed : Bool) :
    (Decision.mk (units.map (Command.call .start) ++ [.announce event]) closed).started =
      units := by
  simp [Decision.started, List.filterMap_map]

theorem playing_leave (unit : UnitId) (begun : List Command × Conductor) :
    (leave unit begun).2.playing.units = begun.2.playing.units.erase unit := by
  simp only [leave]
  split <;> rfl

theorem leave_of_running {unit : UnitId} {begun : List Command × Conductor}
    (h : (leave unit begun).2.phase = .running) :
    (leave unit begun).2 = { begun.2 with playing := ⟨begun.2.playing.units.erase unit⟩ } := by
  simp only [leave] at h ⊢
  split at h
  · cases h
  · rename_i others
    rw [if_neg others]
    rfl

theorem Tracks.upcoming_of_absent (tracks : Tracks base order reports conductor)
    {report : Report} (absent : conductor.graph.nodeFor? report.unit = none) :
    upcoming base order reports report = [] := by
  apply List.filter_eq_nil_iff.2
  intro node _
  rw [Graph.becomes_ready_iff]
  rintro ⟨-, some, none, -⟩
  refine some (List.filter_eq_nil_iff.2 fun d declared live => ?_)
  have now := List.filter_eq_nil_iff.1 none d declared
  simp [Graph.live_concat, live, tracks.unnamed absent] at now

/-- A report that comes in while the run goes on starts the nodes that it makes ready; the run goes
on or is closed. -/
theorem Tracks.step_cases (tracks : Tracks base order reports conductor) (arena : Arena base.nodes)
    (ordering : Graph.Ordering base.nodes order) (report : Report) :
    let starts := (base.units (upcoming base order reports report)).map (Command.call .start)
    (conductor.step report).2.phase = .running ∧ (conductor.step report).1 = ⟨starts, false⟩ ∨
      (conductor.step report).2.phase = .idle ∧
        (conductor.step report).1 = ⟨starts ++ [.announce .ended], true⟩ := by
  intro starts
  cases found : conductor.graph.nodeFor? report.unit with
  | none =>
    have nothing : starts = [] := by
      simp only [starts, tracks.upcoming_of_absent found]
      rfl
    rw [step_of_absent found, nothing]
    exact .inl ⟨tracks.running, rfl⟩
  | some node =>
    have active : conductor.phase ≠ .idle := by simp [tracks.running]
    obtain ⟨commands, -, absorbed⟩ := tracks.absorb arena ordering found
    rw [step_eq active found]
    split
    · rename_i ended
      rw [ended] at commands absorbed
      simp only [leave]
      split
      · exact .inr ⟨rfl, by rw [commands]⟩
      · exact .inl ⟨absorbed.running, by rw [commands]⟩
    · exact .inl ⟨absorbed.running, by rw [commands]⟩

theorem Tracks.started_step (tracks : Tracks base order reports conductor)
    (arena : Arena base.nodes) (ordering : Graph.Ordering base.nodes order) (report : Report) :
    (conductor.step report).1.started = base.units (upcoming base order reports report) := by
  rcases tracks.step_cases arena ordering report with ⟨-, decided⟩ | ⟨-, decided⟩
  · rw [decided, started_calls]
  · rw [decided, started_announcing]

theorem Tracks.playing_step (tracks : Tracks base order reports conductor)
    (arena : Arena base.nodes) (ordering : Graph.Ordering base.nodes order) {report : Report}
    {node : Nat} (found : conductor.graph.nodeFor? report.unit = some node) :
    let playing := conductor.playing.units ++ base.units (upcoming base order reports report)
    (conductor.step report).2.playing.units =
      if report.event = .ended then playing.erase report.unit else playing := by
  intro playing
  have active : conductor.phase ≠ .idle := by simp [tracks.running]
  obtain ⟨-, plays, -⟩ := tracks.absorb arena ordering found
  rw [step_eq active found]
  split
  · rename_i ended
    rw [ended] at plays
    rw [playing_leave, plays]
  · exact plays

/-- As long as the run goes on, what is known of it is brought forward by each report. -/
theorem Tracks.step (tracks : Tracks base order reports conductor) (arena : Arena base.nodes)
    (ordering : Graph.Ordering base.nodes order) {report : Report}
    (running : (conductor.step report).2.phase = .running) :
    Tracks base order (reports ++ [report]) (conductor.step report).2 := by
  cases found : conductor.graph.nodeFor? report.unit with
  | none =>
    have live : base.live (reports ++ [report]) = base.live reports := by
      funext d
      simp [Graph.live_concat, tracks.unnamed found]
    have dead : base.dead (reports ++ [report]) = base.dead reports := by
      funext d
      simp [Graph.dead_concat, tracks.unnamed found]
    rw [step_of_absent found]
    refine ⟨tracks.running, tracks.sound, tracks.grown, live ▸ tracks.mirrors,
      dead ▸ tracks.blocked, ?_⟩
    intro unit plays
    obtain ⟨node, named, earlier⟩ := tracks.playing unit plays
    exact ⟨node, named, ready_mono base report earlier⟩
  | some node =>
    have active : conductor.phase ≠ .idle := by simp [tracks.running]
    obtain ⟨-, -, absorbed⟩ := tracks.absorb arena ordering found
    rw [step_eq active found] at running ⊢
    split at running
    · rename_i ended
      rw [ended] at absorbed
      rw [if_pos ended, leave_of_running running]
      refine ⟨absorbed.running, absorbed.sound, absorbed.grown, absorbed.mirrors,
        absorbed.blocked, ?_⟩
      exact fun unit plays => absorbed.playing unit (List.mem_of_mem_erase plays)
    · rename_i going
      rw [if_neg going]
      exact absorbed

theorem Tracks.edit (tracks : Tracks base order reports conductor) (change : Edit) :
    Tracks base order reports (conductor.operate (.edit change)).2 :=
  ⟨tracks.running, tracks.sound.edit change, tracks.grown.trans (Graph.units_edit _ change),
    tracks.mirrors, tracks.blocked, tracks.playing⟩

end Conductor

end Choreo
