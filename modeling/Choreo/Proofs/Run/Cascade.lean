import Choreo.Proofs.Graph.Depth
import Choreo.Proofs.Run.Completion
import Choreo.Proofs.Run.Replay

/-!
# Cascades

A unit that is over as soon as it starts reports its start and its end in the call that starts it.
The reports of such units wait in one queue, and while they are looked at further units start and
report at the end of it. At any time the nodes that have started are sorted by depth, and none lies
more than one deeper than a node whose report is still in the queue: what a report makes ready lies
just one deeper than the node that it comes from. So the cascade goes wave by wave, reaches all
nodes, and its last report closes the run.
-/

namespace Choreo

namespace Report

/-- What a unit reports that is over as soon as it starts. -/
def both (unit : UnitId) : List Report := [⟨unit, .started⟩, ⟨unit, .ended⟩]

theorem mem_both {units : List UnitId} {report : Report} : report ∈ units.flatMap both ↔
    report.unit ∈ units ∧ (report.event = .started ∨ report.event = .ended) := by
  obtain ⟨unit, event⟩ := report
  simp only [both, List.mem_flatMap, List.mem_cons, List.not_mem_nil, or_false, Report.mk.injEq]
  constructor
  · rintro ⟨other, listed, ⟨rfl, rfl⟩ | ⟨rfl, rfl⟩⟩
    · exact ⟨listed, .inl rfl⟩
    · exact ⟨listed, .inr rfl⟩
  · rintro ⟨listed, rfl | rfl⟩
    · exact ⟨unit, listed, .inl ⟨rfl, rfl⟩⟩
    · exact ⟨unit, listed, .inr ⟨rfl, rfl⟩⟩

/-- The units whose end is among these reports. -/
def enders (reports : List Report) : List UnitId :=
  (reports.filter fun report => report.event = .ended).map Report.unit

theorem enders_append (reports more : List Report) :
    enders (reports ++ more) = enders reports ++ enders more := by
  simp only [enders, List.filter_append, List.map_append]

theorem enders_both (units : List UnitId) : enders (units.flatMap both) = units := by
  induction units with
  | nil => rfl
  | cons unit units ih => exact congrArg (unit :: ·) ih

theorem enders_ne_nil {units : List UnitId} {seen queue : List Report}
    (all : units.flatMap both = seen ++ queue) (left : queue ≠ []) : enders queue ≠ [] := by
  rcases units.eq_nil_or_concat' with rfl | ⟨before, unit, rfl⟩
  · exact absurd (List.append_eq_nil_iff.1 all.symm).2 left
  · have last := congrArg List.getLast? all
    rw [List.getLast?_append_of_ne_nil _ left] at last
    have member : (⟨unit, .ended⟩ : Report) ∈ queue := by
      apply List.mem_of_getLast?
      rw [← last]
      simp [both]
    refine List.ne_nil_of_mem (a := unit) (List.mem_map.2 ⟨_, List.mem_filter.2 ⟨member, ?_⟩, rfl⟩)
    rfl

end Report

namespace Graph

/-- All nodes, each once, and none before one that lies less deep. -/
structure Wavewise (nodes : List Node) (places : List Nat) : Prop where
  perm : places.Perm (List.range nodes.length)
  sorted : places.Pairwise fun p q => depth nodes p ≤ depth nodes q

theorem Wavewise.before {nodes : List Node} {places : List Nat} (wavewise : Wavewise nodes places)
    (arena : Arena nodes) (acyclic : Acyclic nodes) {p node : Nat} (waits : Waits nodes p node) :
    places.idxOf p < places.idxOf node := by
  obtain ⟨here, there⟩ := arena.lt_of_prerequisite waits
  have listed : ∀ {place}, place < nodes.length →
      places.idxOf place < places.length := fun inside =>
    List.idxOf_lt_length_of_mem (wavewise.perm.mem_iff.2 (List.mem_range.2 inside))
  have deeper := depth_lt_of_waits arena acyclic waits
  rcases Nat.lt_trichotomy (places.idxOf p) (places.idxOf node) with before | same | after
  · exact before
  · rw [List.idxOf_inj (wavewise.perm.mem_iff.2 (List.mem_range.2 here))] at same
    subst same
    omega
  · have shallow := List.pairwise_iff_getElem.1 wavewise.sorted _ _ (listed there)
      (listed here) after
    rw [List.getElem_idxOf, List.getElem_idxOf] at shallow
    omega

theorem Wavewise.units {graph : Graph} {places : List Nat} (wavewise : Wavewise graph.nodes places)
    (arena : Arena graph.nodes) : (graph.units places).Perm (graph.nodes.map Node.unit) := by
  rw [List.perm_ext_iff_of_nodup
    (Conductor.nodup_units arena (wavewise.perm.nodup_iff.2 List.nodup_range)) arena.units_nodup]
  intro unit
  rw [Graph.units, List.mem_filterMap, List.mem_iff_getElem?]
  constructor
  · rintro ⟨node, -, named⟩
    exact ⟨node, by rwa [← unit?_eq_getElem]⟩
  · rintro ⟨node, named⟩
    have inside := (List.getElem?_eq_some_iff.1 named).1
    rw [List.length_map] at inside
    exact ⟨node, wavewise.perm.mem_iff.2 (List.mem_range.2 inside), by rwa [unit?_eq_getElem]⟩

/-- A unit of the first report comes from a node that lies no deeper than one of the second. -/
def Shallower (graph : Graph) (first second : Report) : Prop :=
  ∀ p q, graph.unit? p = some first.unit → graph.unit? q = some second.unit →
    depth graph.nodes p ≤ depth graph.nodes q

end Graph

namespace Conductor

/-- A conductor looks at the reports in a queue until none is left, and each unit that it starts
meanwhile reports its start and its end at the end of the queue; the commands are what is
decided. -/
inductive Cascades : Conductor → List Report → List Command → Conductor → Prop where
  | nil (conductor : Conductor) : Cascades conductor [] [] conductor
  | cons {conductor last : Conductor} {report : Report} {rest : List Report} {more : List Command}
    (later : Cascades (conductor.step report).2
      (rest ++ (conductor.step report).1.started.flatMap Report.both) more last) :
    Cascades conductor (report :: rest) ((conductor.step report).1.commands ++ more) last

theorem Cascades.commands_eq {c d last last' : Conductor} {queue : List Report}
    {commands commands' : List Command} (one : c.Cascades queue commands last)
    (two : d.Cascades queue commands' last') (alike : c.Alike d) (sound : c.graph.Sound)
    (sound' : d.graph.Sound) : commands = commands' := by
  induction one generalizing d commands' with
  | nil =>
    cases two
    rfl
  | cons later ih =>
    cases two with
    | cons later' =>
      rename_i conductor _ report _ _ _
      obtain ⟨decided, next⟩ := alike.operate sound sound' (.step report)
      have same : (conductor.step report).1 = (d.step report).1 := decided
      rw [← same] at later' ⊢
      exact congrArg _ (ih later' next (sound_operate conductor (.step report) sound)
        (sound_operate d (.step report) sound'))

/-- How far a cascade has come: these nodes have started, and these reports were looked at or are in
the queue. -/
structure Flow (base : Graph) (order started : List Nat) (seen queue : List Report)
    (conductor : Conductor) : Prop where
  tracks : Tracks base order seen conductor
  coherent : conductor.Coherent
  reports : (base.units started).flatMap Report.both = seen ++ queue
  playing : conductor.playing.units = Report.enders queue
  placed : ∀ node, node ∈ started ↔ node < base.nodes.length ∧ base.ready seen node = true
  nodup : started.Nodup
  sorted : started.Pairwise fun p q => Graph.depth base.nodes p ≤ Graph.depth base.nodes q
  band : ∀ report ∈ queue, ∀ place, base.unit? place = some report.unit →
    ∀ node ∈ started, Graph.depth base.nodes node ≤ Graph.depth base.nodes place + 1

variable {base : Graph} {order started : List Nat} {seen queue : List Report}
  {conductor : Conductor}

theorem eq_nil_of_units {graph : Graph} {places : List Nat}
    (inside : ∀ node ∈ places, node < graph.nodes.length) (none : graph.units places = []) :
    places = [] := by
  refine List.eq_nil_iff_forall_not_mem.2 fun node member => ?_
  obtain ⟨unit, named⟩ := Graph.unit?_of_lt (inside node member)
  have here : unit ∈ graph.units places := List.mem_filterMap.2 ⟨node, member, named⟩
  rw [none] at here
  cases here

theorem started_all (arena : Arena base.nodes) (ordering : Graph.Ordering base.nodes order)
    (reports : (base.units started).flatMap Report.both = seen)
    (placed : ∀ node, node ∈ started ↔ node < base.nodes.length ∧ base.ready seen node = true)
    (node : Nat) :
    node ∈ started ↔ node < base.nodes.length := by
  have reported : ∀ {node unit}, base.unit? node = some unit → node ∈ started → ∀ event,
      event = .started ∨ event = .ended → event ∈ base.told seen node := by
    intro node unit named listed event kind
    have member : unit ∈ base.units started := List.mem_filterMap.2 ⟨node, listed, named⟩
    exact mem_told.2 ⟨⟨unit, event⟩, reports ▸ Report.mem_both.2 ⟨member, kind⟩, named, rfl⟩
  have listed : ∀ {node unit}, base.unit? node = some unit → unit ∈ base.units started →
      node ∈ started := by
    intro node unit named member
    obtain ⟨other, listed, same⟩ := List.mem_filterMap.1 member
    exact Graph.unit?_inj arena named same ▸ listed
  have drained : Drained base seen := by
    constructor
    · intro report member node named
      have starter := (Report.mem_both.1 (reports.symm ▸ member)).1
      exact ((placed node).1 (listed named starter)).2
    · intro node ends
      obtain ⟨report, member, named, -⟩ := mem_told.1 ends
      have starter := (Report.mem_both.1 (reports.symm ▸ member)).1
      exact .inl (reported named (listed named starter) .started (.inl rfl))
    · intro node inside ready
      obtain ⟨unit, named⟩ := Graph.unit?_of_lt inside
      exact reported named ((placed node).2 ⟨inside, ready⟩) .ended (.inr rfl)
  have none : ∀ report ∈ seen, report.event ≠ .canceled := by
    intro report member canceled
    have kind := (Report.mem_both.1 (reports.symm ▸ member)).2
    simp [canceled] at kind
  rw [placed]
  exact and_iff_left (drained.all_ready arena ordering none node)

namespace Flow

variable {report : Report} {rest : List Report}

theorem place (flow : Flow base order started seen (report :: rest) conductor) :
    ∃ node ∈ started, base.unit? node = some report.unit ∧
      conductor.graph.nodeFor? report.unit = some node := by
  have member : report ∈ (base.units started).flatMap Report.both := by
    rw [flow.reports]
    simp
  obtain ⟨node, listed, named⟩ := List.mem_filterMap.1 (Report.mem_both.1 member).1
  exact ⟨node, listed, named,
    (Graph.nodeFor?_eq_some flow.tracks.sound.arena).2 (flow.tracks.unit? named)⟩

theorem shallower (flow : Flow base order started seen queue conductor) (arena : Arena base.nodes) :
    (seen ++ queue).Pairwise base.Shallower := by
  rw [← flow.reports, List.pairwise_flatMap]
  have same : ∀ {unit p q}, base.unit? p = some unit → base.unit? q = some unit →
      Graph.depth base.nodes p ≤ Graph.depth base.nodes q := by
    intro unit p q here there
    rw [Graph.unit?_inj arena here there]
  constructor
  · intro unit _
    simpa [Report.both, Graph.Shallower] using fun p q => @same unit p q
  · refine List.pairwise_filterMap.2 (flow.sorted.imp ?_)
    intro a b less unit here unit' there report member report' member' p q named named'
    simp only [Report.both, List.mem_cons, List.not_mem_nil, or_false] at member member'
    have first : report.unit = unit := by rcases member with rfl | rfl <;> rfl
    have second : report'.unit = unit' := by rcases member' with rfl | rfl <;> rfl
    rw [first] at named
    rw [second] at named'
    rw [Graph.unit?_inj arena named here, Graph.unit?_inj arena named' there]
    exact less

/-- What a report makes ready lies just one deeper than the node that it comes from. -/
theorem depth_upcoming (flow : Flow base order started seen (report :: rest) conductor)
    (arena : Arena base.nodes) (acyclic : Graph.Acyclic base.nodes) {place node : Nat}
    (named : base.unit? place = some report.unit) (inside : node < base.nodes.length)
    (becomes : (base.ready (seen ++ [report]) node && !base.ready seen node) = true) :
    Graph.depth base.nodes node = Graph.depth base.nodes place + 1 := by
  have ready : base.ready (seen ++ [report]) node = true := (Bool.and_eq_true_iff.1 becomes).1
  obtain ⟨-, some, closed, -⟩ := (Graph.becomes_ready_iff base seen report node).1 becomes
  have above : Graph.depth base.nodes place < Graph.depth base.nodes node := by
    obtain ⟨d, member⟩ := List.exists_mem_of_ne_nil _ some
    obtain ⟨declared, live⟩ := List.mem_filter.1 member
    have settled := List.filter_eq_nil_iff.1 closed d declared
    have here : base.unit? d.node = Option.some report.unit := by
      by_contra elsewhere
      simp [Graph.live_concat, live, elsewhere] at settled
    rw [Graph.unit?_inj arena named here]
    exact Graph.depth_lt_of_waits arena acyclic (Graph.waits_iff.2 ⟨d, declared, rfl⟩)
  have below : Graph.depth base.nodes node ≤ Graph.depth base.nodes place + 1 := by
    refine Graph.depth_le_of_waits arena acyclic inside fun p waits => ?_
    obtain ⟨d, declared, rfl⟩ := Graph.waits_iff.1 waits
    obtain ⟨other, reported, here, -⟩ :=
      mem_told.1 (mem_of_precedes (List.all_eq_true.1 ready d declared))
    rcases List.mem_append.1 reported with earlier | now
    · have ordered := (List.pairwise_append.1 (flow.shallower arena)).2.2
      have less := ordered other earlier report (List.mem_cons_self ..) d.node place here named
      omega
    · rw [List.mem_singleton.1 now] at here
      rw [Graph.unit?_inj arena here named]
      omega
  omega

theorem sorted_step (flow : Flow base order started seen (report :: rest) conductor)
    (arena : Arena base.nodes) (ordering : Graph.Ordering base.nodes order)
    (acyclic : Graph.Acyclic base.nodes) :
    let next := started ++ upcoming base order seen report
    (∀ node, node ∈ next ↔ node < base.nodes.length ∧ base.ready (seen ++ [report]) node = true) ∧
    next.Nodup ∧ next.Pairwise (fun p q => Graph.depth base.nodes p ≤ Graph.depth base.nodes q) ∧
    ∀ other ∈ rest ++ (base.units (upcoming base order seen report)).flatMap Report.both,
      ∀ place, base.unit? place = some other.unit →
        ∀ node ∈ next, Graph.depth base.nodes node ≤ Graph.depth base.nodes place + 1 := by
  intro next
  obtain ⟨home, -, named, -⟩ := flow.place
  have deep : ∀ node ∈ upcoming base order seen report,
      Graph.depth base.nodes node = Graph.depth base.nodes home + 1 := by
    intro node member
    obtain ⟨listed, becomes⟩ := List.mem_filter.1 member
    exact flow.depth_upcoming arena acyclic named ((ordering.mem_iff node).1 listed) becomes
  have shallow : ∀ node ∈ next, Graph.depth base.nodes node ≤ Graph.depth base.nodes home + 1 := by
    intro node member
    rcases List.mem_append.1 member with earlier | now
    · exact flow.band report (List.mem_cons_self ..) home named node earlier
    · exact (deep node now).le
  refine ⟨fun node => ?_, ?_, ?_, fun other member place here node listed => ?_⟩
  · rw [List.mem_append, flow.placed, upcoming, List.mem_filter, ordering.mem_iff, Bool.and_eq_true,
      Bool.not_eq_true']
    constructor
    · rintro (⟨inside, before⟩ | ⟨inside, now, -⟩)
      · exact ⟨inside, ready_mono base report before⟩
      · exact ⟨inside, now⟩
    · rintro ⟨inside, now⟩
      by_cases before : base.ready seen node = true
      · exact .inl ⟨inside, before⟩
      · exact .inr ⟨inside, now, by simpa using before⟩
  · refine List.nodup_append.2
      ⟨flow.nodup, ordering.nodup.filter _, fun node earlier other now => ?_⟩
    rintro rfl
    have before := ((flow.placed node).1 earlier).2
    have becomes := (List.mem_filter.1 now).2
    simp [before] at becomes
  · refine List.pairwise_append.2 ⟨flow.sorted, ?_, fun node earlier other now => ?_⟩
    · refine List.pairwise_iff_forall_sublist.2 fun {p q} pair => ?_
      rw [deep p (pair.subset (by simp)), deep q (pair.subset (by simp))]
    · rw [deep other now]
      exact shallow node (List.mem_append_left _ earlier)
  · have least := shallow node listed
    rcases List.mem_append.1 member with waits | reported
    · have ordered := (List.pairwise_append.1 (flow.shallower arena)).2.1
      have less := (List.pairwise_cons.1 ordered).1 other waits home place named here
      omega
    · obtain ⟨source, now, known⟩ := List.mem_filterMap.1 (Report.mem_both.1 reported).1
      rw [Graph.unit?_inj arena here known, deep source now]
      omega

theorem step (flow : Flow base order started seen (report :: rest) conductor)
    (arena : Arena base.nodes) (ordering : Graph.Ordering base.nodes order)
    (acyclic : Graph.Acyclic base.nodes) (running : (conductor.step report).2.phase = .running) :
    Flow base order (started ++ upcoming base order seen report) (seen ++ [report])
      (rest ++ (conductor.step report).1.started.flatMap Report.both)
        (conductor.step report).2 := by
  obtain ⟨home, -, -, found⟩ := flow.place
  obtain ⟨placed, nodup, sorted, band⟩ := flow.sorted_step arena ordering acyclic
  have starts := flow.tracks.started_step arena ordering report
  refine ⟨flow.tracks.step arena ordering running, (step_spec flow.coherent report).1, ?_, ?_,
    placed, nodup, sorted, starts ▸ band⟩
  · rw [Graph.units, List.filterMap_append, List.flatMap_append]
    change (base.units started).flatMap _ ++
      (base.units (upcoming base order seen report)).flatMap _ = _
    rw [flow.reports, starts]
    simp
  · rw [flow.tracks.playing_step arena ordering found, flow.playing, starts, Report.enders_append,
      Report.enders_both]
    by_cases ended : report.event = .ended <;> simp [Report.enders, ended]

theorem close (flow : Flow base order started seen (report :: rest) conductor)
    (arena : Arena base.nodes) (ordering : Graph.Ordering base.nodes order)
    (closed : (conductor.step report).1.closed = true) :
    upcoming base order seen report = [] ∧ rest = [] ∧ ∀ node, node ∈ started ↔
      node < base.nodes.length := by
  obtain ⟨home, -, -, found⟩ := flow.place
  have empty := closed_step closed
  rw [flow.tracks.playing_step arena ordering found, flow.playing] at empty
  have left : Report.enders rest = [] ∧ base.units (upcoming base order seen report) = [] := by
    by_cases ended : report.event = .ended
    · rw [if_pos ended] at empty
      simpa [Report.enders, ended] using empty
    · rw [if_neg ended, List.append_eq_nil_iff, ← flow.playing] at empty
      exact absurd empty.1 (flow.coherent.running flow.tracks.running)
  have nothing : upcoming base order seen report = [] := eq_nil_of_units
    (fun node member => (ordering.mem_iff node).1 (List.mem_of_mem_filter member)) left.2
  have reports := flow.reports
  rw [List.append_cons] at reports
  have last : rest = [] := by
    by_contra more
    exact Report.enders_ne_nil reports more left.1
  rw [last, List.append_nil] at reports
  refine ⟨nothing, last, started_all arena ordering reports fun node => ?_⟩
  rw [flow.placed]
  refine and_congr_right fun inside => ⟨ready_mono base report, fun now => ?_⟩
  by_contra before
  have becomes : node ∈ upcoming base order seen report :=
    List.mem_filter.2 ⟨(ordering.mem_iff node).2 inside, by simp [now, before]⟩
  rw [nothing] at becomes
  cases becomes

/-- A cascade that goes on starts the other nodes wave by wave and announces the end of the run. -/
theorem run {commands : List Command} {last : Conductor}
    (cascade : conductor.Cascades queue commands last)
    (flow : Flow base order started seen queue conductor) (arena : Arena base.nodes)
    (ordering : Graph.Ordering base.nodes order) (acyclic : Graph.Acyclic base.nodes) :
    ∃ later, Graph.Wavewise base.nodes (started ++ later) ∧ last.phase = .idle ∧
      commands = (base.units later).map (.call .start) ++ [.announce .ended] := by
  induction cascade generalizing started seen with
  | nil conductor => exact absurd flow.playing (flow.coherent.running flow.tracks.running)
  | cons later ih =>
    rename_i conductor last report rest more
    rcases flow.tracks.step_cases arena ordering report with ⟨running, decided⟩ | ⟨idle, decided⟩
    · obtain ⟨others, wavewise, done, rfl⟩ := ih (flow.step arena ordering acyclic running)
      refine ⟨upcoming base order seen report ++ others, List.append_assoc .. ▸ wavewise, done, ?_⟩
      rw [decided, Graph.units, Graph.units, Graph.units, List.filterMap_append, List.map_append,
        List.append_assoc]
    · obtain ⟨nothing, none, all⟩ := flow.close arena ordering (by rw [decided])
      rw [flow.tracks.started_step arena ordering, nothing, none] at later
      rw [decided, nothing]
      cases later
      refine ⟨[], ⟨?_, ?_⟩, idle, rfl⟩
      · rw [List.append_nil, List.perm_ext_iff_of_nodup flow.nodup List.nodup_range]
        exact fun node => (all node).trans List.mem_range.symm
      · rw [List.append_nil]
        exact flow.sorted

end Flow

theorem units_congr {graph other : Graph} (same : graph.nodes = other.nodes) (places : List Nat) :
    graph.units places = other.units places :=
  List.filterMap_congr fun node _ => by rw [Graph.unit?, Graph.unit?, same]

theorem flow_begin {opened : Conductor} {decision : Decision} (sound : conductor.graph.Sound)
    (coherent : conductor.Coherent) (acyclic : Graph.Acyclic opened.graph.nodes)
    (idle : conductor.phase = .idle) (begun : conductor.begin = (.ok decision, opened))
    (running : opened.phase = .running) :
    ∃ order first, Graph.Ordering opened.graph.nodes order ∧
      opened.playing.units = opened.graph.units first ∧
      Flow opened.graph order first [] (decision.started.flatMap Report.both) opened := by
  obtain ⟨order, ordering, tracks, starts, plays⟩ := tracks_begin sound idle begun running
  have arena : Arena opened.graph.nodes := tracks.sound.arena
  have root : ∀ node ∈ order.filter (opened.graph.ready []),
      Graph.depth opened.graph.nodes node = 0 := by
    intro node member
    obtain ⟨listed, ready⟩ := List.mem_filter.1 member
    have inside := (ordering.mem_iff node).1 listed
    refine Nat.le_zero.1 (Graph.depth_le_of_waits arena acyclic inside fun p waits => ?_)
    obtain ⟨d, declared, -⟩ := Graph.waits_iff.1 waits
    rw [(Graph.ready_nil opened.graph node).1 ready] at declared
    cases declared
  have settled := (begin_spec sound coherent).1
  rw [operate_begin, begun] at settled
  refine ⟨order, _, ordering, plays, tracks, settled, ?_, ?_, fun node => ?_,
    ordering.nodup.filter _, ?_, fun report _ place _ node member => ?_⟩
  · rw [starts]
    rfl
  · rw [plays, starts, Report.enders_both]
  · rw [List.mem_filter, ordering.mem_iff]
  · refine List.pairwise_iff_forall_sublist.2 fun {p q} pair => ?_
    rw [root p (pair.subset (by simp)), root q (pair.subset (by simp))]
  · rw [root node member]
    exact Nat.zero_le _

/-- If every unit is over as soon as it starts, a run starts all nodes wave by wave, each once, and
is over. -/
theorem cascade_complete {opened last : Conductor} {decision : Decision} {commands : List Command}
    (sound : conductor.graph.Sound) (coherent : conductor.Coherent)
    (acyclic : Graph.Acyclic conductor.graph.nodes) (idle : conductor.phase = .idle)
    (begun : conductor.begin = (.ok decision, opened))
    (cascade : opened.Cascades (decision.started.flatMap Report.both) commands last) :
    last.phase = .idle ∧ ∃ first rest, Graph.Wavewise conductor.graph.nodes (first ++ rest) ∧
      decision.commands ++ commands = (conductor.graph.units first).map (.call .start) ++
        .announce .started ::
          ((conductor.graph.units rest).map (.call .start) ++ [.announce .ended]) := by
  rcases begin_cases conductor with ⟨active, -⟩ | ⟨cycle, -, -, refused⟩ |
    ⟨order, start, -, sorted, rfl, ⟨none, same⟩ | ⟨-, same⟩⟩
  · exact absurd idle active
  · rw [begun] at refused
    cases refused
  · rw [begun] at same
    cases same
    cases cascade
    have ordering : Graph.Ordering conductor.graph.sorted.2.nodes order := by
      simpa using sound.ordering sorted
    simp only [launch, roots_eq conductor.graph.sorted.2 ordering] at none
    have roots := eq_nil_of_units (fun node member =>
      (ordering.mem_iff node).1 (List.mem_of_mem_filter member)) none
    have silent : (conductor.graph.sorted.2.units []).flatMap Report.both = [] := rfl
    have all := started_all sound.sorted.arena ordering silent fun node => by
      rw [← ordering.mem_iff, ← List.mem_filter, roots]
    have empty : conductor.graph.nodes = [] := by
      rw [Graph.nodes_sorted] at all
      exact List.length_eq_zero_iff.1
        (Nat.eq_zero_of_not_pos fun some => List.not_mem_nil ((all 0).2 some))
    refine ⟨rfl, [], [], ⟨?_, .nil⟩, rfl⟩
    rw [empty]
    exact .refl _
  · have nodes : ({ conductor with graph := conductor.graph.sorted.2 }.launch order).graph.nodes =
        conductor.graph.nodes := Graph.nodes_sorted _
    rw [begun] at same
    obtain ⟨result, rfl⟩ := Prod.mk.inj same
    obtain rfl := Except.ok.inj result
    obtain ⟨order, first, ordering, plays, flow⟩ :=
      flow_begin sound coherent (nodes ▸ acyclic) idle begun rfl
    obtain ⟨rest, wavewise, done, rfl⟩ :=
      Flow.run cascade flow flow.tracks.sound.arena ordering (nodes ▸ acyclic)
    refine ⟨done, first, rest, nodes ▸ wavewise, ?_⟩
    simp only [plays, units_congr nodes, List.append_assoc, List.singleton_append]

end Conductor

end Choreo
