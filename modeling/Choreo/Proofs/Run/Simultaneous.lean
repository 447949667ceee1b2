import Choreo.Proofs.Run.Wired

/-!
# Reports at the same time

While a run goes on, the reports of two units that play may come in either order: the same is
pending and blocked after both, the same plays, the same units were told to start, and the run is
over after both or after neither of them. So a whole batch of reports may be mixed anew, if only
those of each unit stay in their order and its end is the last one of them: a report that is the
first one of its unit can be moved to the front, past the reports of other units, one after the
other.
-/

namespace Choreo

namespace Conductor

/-- Conductors that differ in nothing but the order of what plays and of what is blocked. -/
structure Agrees (c d : Conductor) : Prop where
  graph : c.graph = d.graph
  waiting : c.waiting.Agrees d.waiting
  playing : c.playing.units.Perm d.playing.units
  phase : c.phase = d.phase
  runs : c.runs = d.runs

theorem Agrees.refl (c : Conductor) : c.Agrees c := ⟨rfl, .refl _, .refl _, rfl, rfl⟩

theorem Agrees.symm {c d : Conductor} (h : c.Agrees d) : d.Agrees c :=
  ⟨h.graph.symm, h.waiting.symm, h.playing.symm, h.phase.symm, h.runs.symm⟩

theorem Agrees.trans {c d e : Conductor} (h : c.Agrees d) (h' : d.Agrees e) : c.Agrees e :=
  ⟨h.graph.trans h'.graph, h.waiting.trans h'.waiting, h.playing.trans h'.playing,
    h.phase.trans h'.phase, h.runs.trans h'.runs⟩

/-- The same was announced in the same order, the same was started in any order, and what is left
agrees. -/
structure SameOutcome (x y : List Decision × Conductor) : Prop where
  state : x.2.Agrees y.2
  started : (x.1.flatMap Decision.started).Perm (y.1.flatMap Decision.started)
  announced : x.1.flatMap Decision.announced = y.1.flatMap Decision.announced

theorem SameOutcome.refl (x : List Decision × Conductor) :
    SameOutcome x x := ⟨.refl _, .refl _, rfl⟩

theorem SameOutcome.symm {x y : List Decision × Conductor} (h : SameOutcome x y) :
    SameOutcome y x :=
  ⟨h.state.symm, h.started.symm, h.announced.symm⟩

theorem SameOutcome.trans {x y z : List Decision × Conductor} (h : SameOutcome x y)
    (h' : SameOutcome y z) :
    SameOutcome x z :=
  ⟨h.state.trans h'.state, h.started.trans h'.started, h.announced.trans h'.announced⟩

theorem SameOutcome.append {x y x' y' : List Decision × Conductor} (h : SameOutcome x y)
    (h' : SameOutcome x' y') : SameOutcome (x.1 ++ x'.1, x'.2) (y.1 ++ y'.1, y'.2) := by
  refine ⟨h'.state, ?_, ?_⟩
  · simpa using h.started.append h'.started
  · simp [h.announced, h'.announced]

/-! ### One report -/

/-- Starts these units and goes on with those that play now, unless the run is over. -/
def proceed (starting units : List UnitId) (closing : Bool) (waiting : Waiting) (c : Conductor) :
    Decision × Conductor :=
  if closing then (⟨starting.map (Command.call .start) ++ [.announce .ended], true⟩,
    { c with waiting, playing := ⟨[]⟩ }.close)
  else (⟨starting.map (Command.call .start), false⟩, { c with waiting, playing := ⟨units⟩ })

section Proceed

variable (starting units : List UnitId) (closing : Bool) (waiting : Waiting) (c : Conductor)

theorem started_proceed : (proceed starting units closing waiting c).1.started = starting := by
  cases closing
  · exact started_calls ..
  · exact started_announcing ..

theorem announced_proceed :
    (proceed starting units closing waiting c).1.announced = if closing then [.ended] else [] := by
  cases closing <;> simp [proceed, Decision.announced, List.filterMap_map]

end Proceed

theorem proceed_agrees {starting starting' units units' : List UnitId} {waiting waiting' : Waiting}
    {c d : Conductor} (closing : Bool) (plays : units.Perm units')
    (waits : waiting.Agrees waiting') (graph : c.graph = d.graph) (phase : c.phase = d.phase)
    (runs : c.runs = d.runs) :
    (proceed starting units closing waiting c).2.Agrees
      (proceed starting' units' closing waiting' d).2 := by
  cases closing with
  | false => exact ⟨graph, waits, plays, phase, runs⟩
  | true => exact ⟨graph, ⟨waits.pending, rfl, fun _ => rfl⟩, .refl _, rfl, runs⟩

variable {c d : Conductor} {report : Report} {node : Nat}

theorem Wired.step_eq_proceed (wired : c.Wired) (arena : Arena c.graph.nodes)
    (active : c.phase ≠ .idle) (found : c.graph.nodeFor? report.unit = some node) :
    let all := c.playing.units ++ c.starting report.event node
    c.step report = proceed (c.starting report.event node) (report.without all)
      (decide (report.event = .ended ∧ all = [report.unit]))
        (c.waiting.hear report.event node).2 c := by
  intro all
  rw [wired.step_eq arena active found]
  by_cases last : report.event = .ended ∧ all = [report.unit]
  · rw [if_pos last, proceed, if_pos (decide_eq_true last)]
  · rw [if_neg last, proceed, if_neg (mt of_decide_eq_true last)]

theorem units_perm (graph : Graph) {places others : List Nat} (h : places.Perm others) :
    (graph.units places).Perm (graph.units others) := h.filterMap _

theorem units_append (graph : Graph) (places more : List Nat) :
    graph.units (places ++ more) = graph.units places ++ graph.units more := List.filterMap_append

theorem starting_agrees (agrees : c.Agrees d) (event : Lifecycle) (node : Nat) :
    (c.starting event node).Perm (d.starting event node) := by
  rw [starting, starting, agrees.phase, agrees.graph]
  split
  · exact units_perm _ (agrees.waiting.hear event node).2
  · exact .refl _

theorem without_perm {units others : List UnitId} (h : units.Perm others) (report : Report) :
    (report.without units).Perm (report.without others) := by
  rw [Report.without, Report.without]
  split
  · exact h.erase _
  · exact h

/-- Conductors that agree answer a report in the same way and agree afterwards. -/
theorem Agrees.step (agrees : c.Agrees d) (wired : c.Wired) (wired' : d.Wired)
    (arena : Arena c.graph.nodes) (report : Report) :
    SameOutcome (c.run [.step report]) (d.run [.step report]) := by
  suffices h : (c.step report).2.Agrees (d.step report).2 ∧
      (c.step report).1.started.Perm (d.step report).1.started ∧
      (c.step report).1.announced = (d.step report).1.announced by
    refine ⟨h.1, ?_, ?_⟩
    · simpa [run, operate] using h.2.1
    · simpa [run, operate] using h.2.2
  by_cases idle : c.phase = .idle
  · rw [step_of_idle report idle, step_of_idle report (agrees.phase ▸ idle)]
    exact ⟨agrees, .refl _, rfl⟩
  cases found : c.graph.nodeFor? report.unit with
  | none =>
    rw [step_of_absent found, step_of_absent (agrees.graph ▸ found)]
    exact ⟨agrees, .refl _, rfl⟩
  | some node =>
    have starts := starting_agrees agrees report.event node
    have plays := agrees.playing.append starts
    have last : (c.playing.units ++ c.starting report.event node = [report.unit]) =
        (d.playing.units ++ d.starting report.event node = [report.unit]) := by
      rw [← List.perm_singleton, ← List.perm_singleton]
      exact propext ⟨plays.symm.trans, plays.trans⟩
    rw [wired.step_eq_proceed arena idle found,
      wired'.step_eq_proceed (agrees.graph ▸ arena) (agrees.phase ▸ idle) (agrees.graph ▸ found)]
    simp only [started_proceed, announced_proceed, last]
    exact ⟨proceed_agrees _ (without_perm plays report) (agrees.waiting.hear _ _).1 agrees.graph
      agrees.phase agrees.runs, starts, trivial⟩

theorem SameOutcome.run {x y : List Decision × Conductor} (same : SameOutcome x y)
    (reached : x.2.Reachable) (reached' : y.2.Reachable) (reports : List Report) :
    SameOutcome (x.1 ++ (x.2.run (reports.map .step)).1, (x.2.run (reports.map .step)).2)
      (y.1 ++ (y.2.run (reports.map .step)).1, (y.2.run (reports.map .step)).2) := by
  induction reports generalizing x y with
  | nil => simpa [Conductor.run] using same
  | cons report rest ih =>
    have next :=
      same.append (same.state.step reached.wired reached'.wired reached.sound.arena report)
    have more := ih next (reached.run _) (reached'.run _)
    simpa [Conductor.run] using more

/-! ### Two reports -/

/-- A unit that plays reports: the run is over if nothing plays afterwards. -/
theorem Wired.step_of_playing (wired : c.Wired) (arena : Arena c.graph.nodes)
    (active : c.phase ≠ .idle) (found : c.graph.nodeFor? report.unit = some node)
    (plays : report.unit ∈ c.playing.units) :
    let left := report.without (c.playing.units ++ c.starting report.event node)
    c.step report = proceed (c.starting report.event node) left left.isEmpty
      (c.waiting.hear report.event node).2 c := by
  intro left
  rw [wired.step_eq_proceed arena active found]
  congr 1
  have member : report.unit ∈ c.playing.units ++ c.starting report.event node :=
    List.mem_append_left _ plays
  apply Bool.eq_iff_iff.2
  rw [decide_eq_true_eq, List.isEmpty_iff]
  simp only [left, Report.without]
  constructor
  · rintro ⟨ended, only⟩
    rw [if_pos ended, only, List.erase_cons_head]
  · intro none
    split at none
    · rename_i ended
      have split := List.perm_cons_erase member
      rw [none] at split
      exact ⟨ended, split.eq_singleton⟩
    · rw [none] at member
      cases member

theorem without_append {units : List UnitId} (more : List UnitId) (plays : report.unit ∈ units) :
    report.without (units ++ more) = report.without units ++ more := by
  rw [Report.without, Report.without]
  split
  · exact List.erase_append_left _ plays
  · rfl

theorem without_comm (report other : Report) (units : List UnitId) :
    report.without (other.without units) = other.without (report.without units) := by
  simp only [Report.without]
  split <;> split
  · exact List.erase_comm ..
  all_goals rfl

theorem mem_without {units : List UnitId} {id : UnitId} (plays : id ∈ units)
    (stays : report.event = .ended → id ≠ report.unit) : id ∈ report.without units := by
  rw [Report.without]
  split
  · rename_i ended
    exact (List.mem_erase_of_ne (stays ended)).2 plays
  · exact plays

theorem Wired.step_of_other (wired : c.Wired) (arena : Arena c.graph.nodes)
    (active : c.phase ≠ .idle) (found : c.graph.nodeFor? report.unit = some node)
    (plays : report.unit ∈ c.playing.units) {other : UnitId} (plays' : other ∈ c.playing.units)
    (stays : report.event = .ended → other ≠ report.unit) :
    c.step report = (⟨(c.starting report.event node).map (Command.call .start), false⟩, { c with
      waiting := (c.waiting.hear report.event node).2
      playing := ⟨report.without c.playing.units ++ c.starting report.event node⟩ }) := by
  have still : other ∈ report.without c.playing.units ++ c.starting report.event node :=
    List.mem_append_left _ (mem_without plays' stays)
  rw [wired.step_of_playing arena active found plays, without_append _ plays,
    List.isEmpty_eq_false_iff.2 (List.ne_nil_of_mem still)]
  rfl

theorem starting_of_running (running : c.phase = .running) (event : Lifecycle) (node : Nat) :
    c.starting event node = c.graph.units (c.waiting.hear event node).1 := if_pos running

/-- Two units that play report one after the other: the first report does not close the run, since
the other unit still plays. -/
theorem Wired.step_twice (wired : c.Wired) (arena : Arena c.graph.nodes)
    (running : c.phase = .running) {first second : Report}
    {node place : Nat} (found : c.graph.nodeFor? first.unit = some node)
    (found' : c.graph.nodeFor? second.unit = some place) (plays : first.unit ∈ c.playing.units)
    (plays' : second.unit ∈ c.playing.units) (apart : second.unit ≠ first.unit) :
    let heard := c.waiting.hear first.event node
    let heard' := heard.2.hear second.event place
    let between : Conductor := { c with
      waiting := heard.2
      playing := ⟨first.without c.playing.units ++ c.graph.units heard.1⟩ }
    let left := second.without (first.without c.playing.units) ++
      c.graph.units (heard.1 ++ heard'.1)
    c.step first = (⟨(c.graph.units heard.1).map (Command.call .start), false⟩, between) ∧
      between.step second = proceed (c.graph.units heard'.1) left left.isEmpty heard'.2
        between := by
  intro heard heard' between left
  have active : c.phase ≠ .idle := by simp [running]
  have now := wired.step_of_other arena active found plays plays' fun _ => apart
  rw [starting_of_running running] at now
  refine ⟨now, ?_⟩
  have later : between.Wired := by
    have next := (wired.step arena first).1
    rwa [now] at next
  have still : second.unit ∈ first.without c.playing.units := mem_without plays' fun _ => apart
  have starts : between.starting second.event place = c.graph.units heard'.1 :=
    starting_of_running (by exact running) ..
  rw [later.step_of_playing arena active found' (List.mem_append_left _ still), starts]
  have all : second.without (between.playing.units ++ c.graph.units heard'.1) = left := by
    simp only [between, left]
    rw [List.append_assoc, without_append _ still, units_append]
  rw [all]

theorem Reachable.swap (reached : c.Reachable)
    (running : c.phase = .running) {first second : Report} (plays : first.unit ∈ c.playing.units)
    (plays' : second.unit ∈ c.playing.units) (apart : first.unit ≠ second.unit) :
    SameOutcome (c.run [.step first, .step second]) (c.run [.step second, .step first]) := by
  have arena := reached.sound.arena
  obtain ⟨node, found⟩ := (reached.wired.playing _ plays).found arena
  obtain ⟨place, found'⟩ := (reached.wired.playing _ plays').found arena
  have differ : node ≠ place := by
    rintro rfl
    exact apart (Option.some.inj (((Graph.nodeFor?_eq_some arena).1 found).symm.trans
      ((Graph.nodeFor?_eq_some arena).1 found')))
  obtain ⟨waits, ready⟩ := Waiting.hear_comm differ first.event second.event c.waiting
  have starts := units_perm c.graph ready
  have left := starts.append_left (first.without (second.without c.playing.units))
  obtain ⟨one, then_⟩ := reached.wired.step_twice arena running found found' plays plays' apart.symm
  obtain ⟨two, then'⟩ := reached.wired.step_twice arena running found' found plays' plays apart
  rw [without_comm] at then_
  have closing := left.isEmpty_eq
  suffices h : ((c.step first).2.step second).2.Agrees ((c.step second).2.step first).2 ∧
      ((c.step first).1.started ++ ((c.step first).2.step second).1.started).Perm
        ((c.step second).1.started ++ ((c.step second).2.step first).1.started) ∧
      (c.step first).1.announced ++ ((c.step first).2.step second).1.announced =
        (c.step second).1.announced ++ ((c.step second).2.step first).1.announced by
    refine ⟨h.1, ?_, ?_⟩
    · simpa [Conductor.run, operate] using h.2.1
    · simpa [Conductor.run, operate] using h.2.2
  rw [one, two, then_, then', started_calls, started_calls, started_proceed, started_proceed,
    announced_proceed, announced_proceed]
  refine ⟨?_, ?_, ?_⟩
  · rw [closing]
    exact proceed_agrees _ left waits rfl rfl rfl
  · rwa [units_append, units_append] at starts
  · rw [closing, (silent_calls .start _).announced, (silent_calls .start _).announced]

/-! ### A batch of reports -/

/-- Reports of units that play, where the end of a unit is the last one of it. -/
structure Batch (c : Conductor) (reports : List Report) : Prop where
  playing : ∀ report ∈ reports, report.unit ∈ c.playing.units
  last : reports.Pairwise fun earlier later => earlier.event = .ended → later.unit ≠ earlier.unit

/-- What is left of a batch after its first report is a batch, and the run goes on for it. -/
theorem Batch.step {rest : List Report} (batch : c.Batch (report :: rest)) (reached : c.Reachable)
    (running : c.phase = .running) : (c.step report).2.Batch rest ∧
      (rest ≠ [] → (c.step report).2.phase = .running) := by
  obtain ⟨plays, others⟩ := List.forall_mem_cons.1 batch.playing
  obtain ⟨ends, last⟩ := List.pairwise_cons.1 batch.last
  obtain ⟨node, found⟩ := (reached.wired.playing _ plays).found reached.sound.arena
  have goes : ∀ other ∈ rest, other.unit ∈ (c.step report).2.playing.units ∧
      (c.step report).2.phase = .running := by
    intro other member
    have now := reached.wired.step_of_other reached.sound.arena (by simp [running]) found plays
      (others other member) (ends other member)
    rw [now]
    exact ⟨List.mem_append_left _ (mem_without (others other member) (ends other member)), running⟩
  refine ⟨⟨fun other member => (goes other member).1, last⟩, fun some => ?_⟩
  obtain ⟨other, member⟩ := List.exists_mem_of_ne_nil _ some
  exact (goes other member).2

/-- The first report of a unit can be moved before those of other units that come earlier. -/
theorem Reachable.hasten (reached : c.Reachable)
    (running : c.phase = .running) {earlier : List Report} (batch : c.Batch (earlier ++ [report]))
    (others : ∀ other ∈ earlier, other.unit ≠ report.unit) :
    SameOutcome (c.run ((earlier ++ [report]).map .step))
      (c.run ((report :: earlier).map .step)) := by
  induction earlier generalizing c with
  | nil => exact .refl _
  | cons first earlier ih =>
    obtain ⟨apart, others⟩ := List.forall_mem_cons.1 others
    obtain ⟨next, goes⟩ := batch.step reached running
    have later := ih (reached.run [.step first]) (goes (by simp)) next others
    have swapped := reached.swap running (batch.playing first (by simp))
      (batch.playing report (by simp)) apart
    have more := swapped.run (reached.run _) (reached.run _) earlier
    have front := (SameOutcome.refl (c.run [.step first])).append later
    simp only [Conductor.run, List.map_cons, List.cons_append, List.nil_append] at more front ⊢
    exact front.trans more

/-- The reports of one unit. -/
def reportsOf (unit : UnitId) (reports : List Report) : List Report :=
  reports.filter fun report => report.unit = unit

/-- Whatever holds of reports of different units holds of all pairs if it does so for each unit. -/
theorem pairwise_of_reportsOf {R : Report → Report → Prop} {reports : List Report}
    (apart : ∀ first second : Report, first.unit ≠ second.unit → R first second)
    (each : ∀ unit, (reportsOf unit reports).Pairwise R) : reports.Pairwise R := by
  rw [List.pairwise_iff_forall_sublist]
  intro first second part
  by_cases same : second.unit = first.unit
  · have own := part.filter fun report => report.unit = first.unit
    simp only [List.filter_cons, same, decide_true, ↓reduceIte, List.filter_nil] at own
    exact List.pairwise_iff_forall_sublist.1 (each first.unit) own
  · exact apart first second (Ne.symm same)

theorem mem_of_reportsOf {batch other : List Report}
    (mixed : ∀ unit, reportsOf unit other = reportsOf unit batch) (h : report ∈ other) :
    report ∈ batch := by
  have own : report ∈ reportsOf report.unit other := List.mem_filter.2 ⟨h, by simp⟩
  rw [mixed] at own
  exact List.mem_of_mem_filter own

theorem Batch.mix {batch other : List Report} (h : c.Batch batch)
    (mixed : ∀ unit, reportsOf unit other = reportsOf unit batch) : c.Batch other := by
  refine ⟨fun report member => h.playing report (mem_of_reportsOf mixed member), ?_⟩
  refine pairwise_of_reportsOf (fun _ _ apart _ => apart.symm) fun unit => ?_
  rw [mixed]
  exact h.last.filter _

theorem reportsOf_cons (unit : UnitId) (report : Report) (reports : List Report) :
    reportsOf unit (report :: reports) =
      if report.unit = unit then report :: reportsOf unit reports else reportsOf unit reports := by
  simp [reportsOf, List.filter_cons]

theorem reportsOf_append (unit : UnitId) (reports more : List Report) :
    reportsOf unit (reports ++ more) = reportsOf unit reports ++ reportsOf unit more :=
  List.filter_append ..

theorem reportsOf_eq_nil {unit : UnitId} {reports : List Report} :
    reportsOf unit reports = [] ↔ ∀ report ∈ reports, report.unit ≠ unit := by
  simp [reportsOf]

/-- Where the reports of a mixed batch stand that come before the first one, and what is left is
mixed. -/
theorem mixed_cons {rest other : List Report}
    (mixed : ∀ unit, reportsOf unit other = reportsOf unit (report :: rest)) :
    ∃ earlier later, other = earlier ++ report :: later ∧
      (∀ before ∈ earlier, before.unit ≠ report.unit) ∧
      ∀ unit, reportsOf unit (earlier ++ later) = reportsOf unit rest := by
  have own := mixed report.unit
  rw [reportsOf_cons, if_pos rfl] at own
  obtain ⟨earlier, later, rfl, others, -, -⟩ := List.filter_eq_cons_iff.1 own
  have others : ∀ before ∈ earlier, before.unit ≠ report.unit := by simpa using others
  refine ⟨earlier, later, rfl, others, fun unit => ?_⟩
  have here := mixed unit
  rw [reportsOf_append, reportsOf_cons, reportsOf_cons] at here
  rw [reportsOf_append]
  by_cases same : report.unit = unit
  · rw [if_pos same, if_pos same, reportsOf_eq_nil.2 (same ▸ others)] at here
    rw [reportsOf_eq_nil.2 (same ▸ others)]
    exact (List.cons.inj here).2
  · rwa [if_neg same, if_neg same] at here

/-- A batch may be mixed in any way that keeps the reports of each unit in their order. -/
theorem Reachable.mix (reached : c.Reachable) {batch other : List Report}
    (running : batch ≠ [] → c.phase = .running) (h : c.Batch batch)
    (mixed : ∀ unit, reportsOf unit other = reportsOf unit batch) :
    SameOutcome (c.run (batch.map .step)) (c.run (other.map .step)) := by
  induction batch generalizing c other with
  | nil =>
    have none : other = [] := List.eq_nil_iff_forall_not_mem.2 fun report member =>
      List.not_mem_nil (mem_of_reportsOf mixed member)
    rw [none]
    exact .refl _
  | cons report rest ih =>
    have running := running (by simp)
    have whole := h.mix mixed
    obtain ⟨earlier, later, rfl, others, left⟩ := mixed_cons mixed
    obtain ⟨next, goes⟩ := h.step reached running
    have first : c.Batch (earlier ++ [report]) :=
      ⟨fun other member => whole.playing other (by simp at member ⊢; tauto),
        whole.last.sublist (by simp)⟩
    have moved := (reached.hasten running first others).run (reached.run _) (reached.run _) later
    have more := (SameOutcome.refl (c.run [.step report])).append
      (ih (reached.run [.step report]) goes next left)
    rw [← run_append, ← run_append] at moved
    simp only [List.map_append, List.map_cons, List.map_nil, List.append_assoc, List.cons_append,
      List.nil_append] at moved
    simp only [Conductor.run, List.map_append, List.map_cons, List.cons_append, List.nil_append]
      at more moved ⊢
    exact more.trans moved.symm

/-- Two units that play may report in either order, and so may all units that report at the same
time: as long as the reports of each unit keep their order and its end is its last one, the same is
announced, started and left, whatever the order of the units. -/
theorem simultaneous (reached : c.Reachable) (running : c.phase = .running) :
    (∀ first second : Report, first.unit ∈ c.playing.units → second.unit ∈ c.playing.units →
      first.unit ≠ second.unit →
      SameOutcome (c.run [.step first, .step second]) (c.run [.step second, .step first])) ∧
    ∀ batch other : List Report, c.Batch batch →
      (∀ unit, reportsOf unit other = reportsOf unit batch) →
      SameOutcome (c.run (batch.map .step)) (c.run (other.map .step)) :=
  ⟨fun _ _ plays plays' apart => reached.swap running plays plays' apart,
    fun _ _ h mixed => reached.mix (fun _ => running) h mixed⟩

/-- Two units play, and a third one waits for both. -/
def fork : Conductor :=
  (fresh.run [.edit (.place ⟨0, 0⟩), .edit (.place ⟨0, 1⟩), .edit (.place ⟨0, 2⟩),
    .edit (.depend 2 ⟨0, .onEnd⟩), .edit (.depend 2 ⟨1, .onStart⟩), .begin]).2

theorem simultaneous_fork :
    let batch : List Report :=
  [⟨⟨0, 0⟩, .started⟩, ⟨⟨0, 0⟩, .ended⟩, ⟨⟨0, 1⟩, .started⟩, ⟨⟨0, 1⟩, .ended⟩]
    let other : List Report :=
      [⟨⟨0, 1⟩, .started⟩, ⟨⟨0, 0⟩, .started⟩, ⟨⟨0, 1⟩, .ended⟩, ⟨⟨0, 0⟩, .ended⟩]
    fork.phase = .running ∧
      SameOutcome (fork.run [.step ⟨⟨0, 0⟩, .ended⟩, .step ⟨⟨0, 1⟩, .canceled⟩])
        (fork.run [.step ⟨⟨0, 1⟩, .canceled⟩, .step ⟨⟨0, 0⟩, .ended⟩]) ∧
      SameOutcome (fork.run (batch.map .step)) (fork.run (other.map .step)) := by
  intro batch other
  have running : fork.phase = .running := by decide +kernel
  have plays : fork.playing.units = [⟨0, 0⟩, ⟨0, 1⟩] := by decide +kernel
  obtain ⟨swaps, mixes⟩ := simultaneous (c := fork) ⟨_, rfl⟩ running
  refine ⟨running, swaps ⟨_, _⟩ ⟨_, _⟩ (by simp [plays]) (by simp [plays]) (by decide), ?_⟩
  refine mixes batch other ⟨?_, by decide⟩ fun unit => ?_
  · rw [plays]
    decide
  · by_cases first : unit = ⟨0, 0⟩
    · subst first
      rfl
    by_cases second : unit = ⟨0, 1⟩
    · subst second
      rfl
    simp [batch, other, reportsOf, Ne.symm first, Ne.symm second]

end Conductor

end Choreo
