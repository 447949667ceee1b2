import Choreo.Proofs.Playback.Staged
import Choreo.Proofs.Run.Completion

/-!
# What happens at one tick

At a tick the conductor looks at one report after the other, and what becomes ready starts at once.
When no report is left, exactly the performers whose start is due have started; those among them
that have not come to their end still play. The run closes when there are none of these, and then
everything has ended.
-/

namespace Choreo

namespace Score

variable {score : Score}

/-- How far a node has come at a tick, given which nodes are ready. -/
def progressAt (score : Score) (ready : Nat → Bool) (k node : Nat) : Option Nat :=
  if ready node then some (min k (endOf score.courses score.starts node) - score.starts node)
    else none

/-- A run at a tick, while there may be reports to look at: what the conductor knows, that what has
ended is gone, that whatever was due earlier has started and nothing started that is not due yet. -/
structure Underway (score : Score) (order : List Nat) (own : List (Nat × Lifecycle)) (k : Nat)
    (seen : List Report) (live : Scene) : Prop where
  tracks : Conductor.Tracks score.graph order seen live.conductor
  coherent : live.conductor.Coherent
  manned : Conductor.Manned score.graph seen live.conductor
  gone : ∀ node < score.courses.length, .ended ∈ score.graph.told seen node →
    ⟨0, node⟩ ∉ live.conductor.playing.units
  early : ∀ node < score.courses.length, score.starts node < k →
    score.graph.ready seen node = true
  late : ∀ node < score.courses.length, score.graph.ready seen node = true → score.starts node ≤ k
  staged : score.Staged own k seen (score.progressAt (score.graph.ready seen) k) live

/-- A run in which everything has ended. -/
structure Finished (score : Score) (own : List (Nat × Lifecycle)) (k : Nat)
    (live : Scene) : Prop where
  idle : live.conductor.phase = .idle
  ends : ∀ node < score.courses.length, endOf score.courses score.starts node ≤ k
  staged : ∃ seen, score.Staged own k seen
    (fun node => some (endOf score.courses score.starts node - score.starts node)) live

theorem told_grows (score : Score) (seen more : List Report) (node : Nat) :
    score.graph.told seen node <+: score.graph.told (seen ++ more) node := by
  rw [Graph.told, Graph.told, List.filter_append, List.map_append]
  exact List.prefix_append _ _

theorem told_of_seen {seen : List Report} (more : List Report) {node : Nat} {event : Lifecycle}
    (h : event ∈ score.graph.told seen node) : event ∈ score.graph.told (seen ++ more) node := by
  exact (told_grows score seen more node).subset h

namespace Underway

variable {order : List Nat} {own : List (Nat × Lifecycle)} {k : Nat} {seen : List Report}
  {live : Scene} {report : Report} {rest : List Report}

/-- Who is heard of has started, has ended by now if its end is heard of, and is never canceled. -/
theorem heard (underway : score.Underway order own k seen live) {node : Nat}
    (inside : node < score.courses.length) {event : Lifecycle}
    (told : event ∈ score.graph.told (seen ++ live.sequence.queue) node) :
    score.graph.ready seen node = true ∧
      (event = .ended → endOf score.courses score.starts node ≤ k) ∧ event ≠ .canceled := by
  have here := List.getElem?_eq_getElem inside
  have lawful := score.lawful _ (List.mem_of_getElem? here)
  rw [underway.staged.told node _ here, progressAt] at told
  by_cases ready : score.graph.ready seen node = true
  · rw [if_pos ready, Course.toldAt] at told
    have due := underway.late node inside ready
    have last := score.endOf_eq here
    refine ⟨ready, ?_, ?_⟩
    · rintro rfl
      have whole := (lawful.ended_mem_told (by omega)).1 told
      omega
    · rintro rfl
      exact lawful.canceled_not_mem_told _ told
  · rw [if_neg ready] at told
    cases told

theorem due (underway : score.Underway order own k seen live)
    (queue : live.sequence.queue = report :: rest)
    {node : Nat} (inside : node < score.courses.length)
    (ready : score.graph.ready (seen ++ [report]) node = true) : score.starts node ≤ k := by
  rw [score.due node inside]
  intro d declared
  have met := List.all_eq_true.1 ready d declared
  obtain ⟨holder, hholder, member⟩ := Graph.mem_dependencies.1 declared
  have known := score.sound.arena.lt_of_dependency hholder member
  rw [score.length_nodes] at known
  have told := told_of_seen rest (mem_of_precedes met)
  rw [List.append_assoc, List.singleton_append, ← queue] at told
  obtain ⟨started, ended, -⟩ := underway.heard known told
  rw [momentOf]
  cases h : d.rule with
  | onStart => exact underway.late d.node known started
  | onEnd => exact ended (by rw [h]; rfl)

/-- What a report makes ready is due at this tick and not earlier. -/
theorem upcoming_due (underway : score.Underway order own k seen live)
    (queue : live.sequence.queue = report :: rest) {node : Nat}
    (member : node ∈ Conductor.upcoming score.graph order seen report)
    (ordering : Graph.Ordering score.graph.nodes order) :
    node < score.courses.length ∧ score.graph.ready seen node = false ∧ score.starts node = k := by
  obtain ⟨listed, becomes⟩ := List.mem_filter.1 member
  rw [Bool.and_eq_true, Bool.not_eq_true'] at becomes
  have inside := (ordering.mem_iff node).1 listed
  rw [score.length_nodes] at inside
  have least := underway.due queue inside becomes.1
  have most := mt (underway.early node inside) (by simp [becomes.2])
  exact ⟨inside, becomes.2, by omega⟩

theorem nodeFor (underway : score.Underway order own k seen live)
    (queue : live.sequence.queue = report :: rest) : ∃ node < score.courses.length,
      report.unit = ⟨0, node⟩ ∧ live.conductor.graph.nodeFor? report.unit = some node := by
  obtain ⟨node, inside, named⟩ := underway.staged.sources report (by simp [queue])
  refine ⟨node, inside, named, (Graph.nodeFor?_eq_some underway.tracks.sound.arena).2 ?_⟩
  rw [named]
  exact underway.tracks.unit? (score.unit?_eq inside)

theorem progressAt_concat (underway : score.Underway order own k seen live)
    (ordering : Graph.Ordering score.graph.nodes order)
    (queue : live.sequence.queue = report :: rest) {node : Nat}
    (inside : node < score.courses.length) :
    (if node ∈ Conductor.upcoming score.graph order seen report then some 0
      else score.progressAt (score.graph.ready seen) k node) =
      score.progressAt (score.graph.ready (seen ++ [report])) k node := by
  by_cases member : node ∈ Conductor.upcoming score.graph order seen report
  · obtain ⟨-, -, now⟩ := underway.upcoming_due queue member ordering
    have becomes := (List.mem_filter.1 member).2
    rw [Bool.and_eq_true] at becomes
    -- it starts at this very tick, so no tick has gone by for it
    have none : min k (endOf score.courses score.starts node) - score.starts node = 0 := by omega
    rw [if_pos member, progressAt, if_pos becomes.1, none]
  · have listed : node ∈ order := (ordering.mem_iff node).2 (by rwa [score.length_nodes])
    have same : score.graph.ready (seen ++ [report]) node = score.graph.ready seen node := by
      cases before : score.graph.ready seen node with
      | true => exact Conductor.ready_mono score.graph report before
      | false =>
        rw [← Bool.not_eq_true]
        exact fun now => member (List.mem_filter.2 ⟨listed, by simp [now, before]⟩)
    rw [if_neg member, progressAt, progressAt, same]

theorem gone_step (underway : score.Underway order own k seen live)
    (ordering : Graph.Ordering score.graph.nodes order)
    (queue : live.sequence.queue = report :: rest)
    {node : Nat} (inside : node < score.courses.length)
    (ended : .ended ∈ score.graph.told (seen ++ [report]) node) :
    ⟨0, node⟩ ∉ (live.conductor.step report).2.playing.units := by
  have arena := score.sound.arena
  obtain ⟨place, -, -, found⟩ := underway.nodeFor queue
  rw [underway.tracks.playing_step arena ordering found]
  rw [Graph.told_concat, List.mem_append] at ended
  rcases ended with before | now
  · have apart : ⟨0, node⟩ ∉ live.conductor.playing.units ++
        score.graph.units (Conductor.upcoming score.graph order seen report) := by
      intro member
      rcases List.mem_append.1 member with plays | starts
      · exact underway.gone node inside before plays
      · obtain ⟨other, listed, named⟩ := List.mem_filterMap.1 starts
        obtain rfl := Graph.unit?_inj arena named (score.unit?_eq inside)
        have fresh := (underway.upcoming_due queue listed ordering).2.1
        have ready := (underway.heard inside (told_of_seen _ before)).1
        rw [fresh] at ready
        cases ready
    split
    · exact fun member => apart (List.mem_of_mem_erase member)
    · exact apart
  · have active : live.conductor.phase ≠ .idle := by simp [underway.tracks.running]
    obtain ⟨-, plays, -⟩ := underway.tracks.absorb arena ordering found
    have once := (underway.coherent.absorb active report.event place).nodup
    rw [plays] at once
    split at now
    · rename_i named
      rw [score.unit?_eq inside] at named
      rw [if_pos (List.mem_singleton.1 now).symm, ← Option.some.inj named]
      exact once.not_mem_erase
    · cases now

theorem heed (underway : score.Underway order own k seen live)
    (ordering : Graph.Ordering score.graph.nodes order)
    (queue : live.sequence.queue = report :: rest)
    (running : (live.conductor.step report).2.phase = .running) :
    (live.heed Performer.behaviour report rest).1 = [] ∧
      score.Underway order own k (seen ++ [report])
      (live.heed Performer.behaviour report rest).2 := by
  have arena := score.sound.arena
  have decided : (live.conductor.step report).1.commands =
      (Conductor.upcoming score.graph order seen report).map fun node =>
        .call .start ⟨0, node⟩ := by
    rcases underway.tracks.step_cases arena ordering report with ⟨-, decided⟩ | ⟨idle, -⟩
    · rw [decided, Conductor.upcoming, score.units_filter ordering, List.map_map]
      rfl
    · rw [running] at idle
      cases idle
  have looked := underway.staged.look queue (live.conductor.step report).2
  obtain ⟨next, done, after⟩ := looked.execute (ordering.nodup.filter _) fun node member => by
    obtain ⟨inside, waits, now⟩ := underway.upcoming_due queue member ordering
    exact ⟨inside, by simp [progressAt, waits], now⟩
  have result : live.heed Performer.behaviour report rest = ([], next) := by
    rw [Live.heed, decided]
    exact done
  have conductor : next.conductor = (live.conductor.step report).2 := by
    have kept := Live.conductor_execute Performer.behaviour
      ((Conductor.upcoming score.graph order seen report).map fun node => .call .start ⟨0, node⟩)
      ⟨{ live.sequence with conductor := (live.conductor.step report).2, queue := rest },
        live.stage⟩
    rw [Conductor.upcoming, done] at kept
    exact kept
  rw [result]
  refine ⟨rfl, ?_⟩
  constructor
  · rw [conductor]
    exact underway.tracks.step arena ordering running
  · rw [conductor]
    exact (Conductor.step_spec underway.coherent report).1
  · rw [conductor]
    exact underway.manned.step underway.tracks arena ordering report
  · rw [conductor]
    exact fun node inside ended => underway.gone_step ordering queue inside ended
  · intro node inside before
    exact Conductor.ready_mono score.graph report (underway.early node inside before)
  · intro node inside ready
    exact underway.due queue inside ready
  · exact after.congr fun node inside => underway.progressAt_concat ordering queue inside

theorem started_told (underway : score.Underway order own k seen live)
    (queue : live.sequence.queue = report :: rest)
    {node : Nat} (inside : node < score.courses.length) {event : Lifecycle}
    (told : event ∈ score.graph.told (seen ++ [report]) node) :
    .started ∈ score.graph.told (seen ++ [report]) node := by
  have here := List.getElem?_eq_getElem inside
  have lawful := score.lawful _ (List.mem_of_getElem? here)
  have part := told_grows score (seen ++ [report]) rest node
  rw [List.append_assoc, List.singleton_append, ← queue] at part
  have ready := (underway.heard inside (part.subset told)).1
  rw [underway.staged.told node _ here, progressAt, if_pos ready, Course.toldAt] at part
  obtain ⟨others, first⟩ := lawful.told_cons
    (min k (endOf score.courses score.starts node) - score.starts node)
  rw [first] at part
  rcases List.prefix_cons_iff.1 part with none | ⟨more, same, -⟩
  · rw [none] at told
    cases told
  · rw [same]
    exact List.mem_cons_self ..

theorem drained (underway : score.Underway order own k seen live)
    (ordering : Graph.Ordering score.graph.nodes order)
    (queue : live.sequence.queue = report :: rest)
    (closed : (live.conductor.step report).1.closed = true) :
    ∀ node < score.courses.length, score.graph.ready (seen ++ [report]) node = true ∧
      .ended ∈ score.graph.told (seen ++ [report]) node := by
  have arena := score.sound.arena
  have told : ∀ {node event}, event ∈ score.graph.told (seen ++ [report]) node →
      event ∈ score.graph.told (seen ++ live.sequence.queue) node := by
    intro node event member
    have later := told_of_seen rest member
    rwa [List.append_assoc, List.singleton_append, ← queue] at later
  have known : ∀ {node : Nat} {unit : UnitId}, score.graph.unit? node = some unit →
      node < score.courses.length := by
    intro node unit named
    obtain ⟨found, hfound, -⟩ := Graph.unit?_eq_some.1 named
    rw [← score.length_nodes]
    exact (List.getElem?_eq_some_iff.1 hfound).1
  have ended : ∀ node < score.courses.length, score.graph.ready (seen ++ [report]) node = true →
      .ended ∈ score.graph.told (seen ++ [report]) node := by
    intro node inside ready
    have manned := underway.manned.step underway.tracks arena ordering report node _
      (score.unit?_eq inside) ready
    simpa [Conductor.closed_step closed] using manned
  -- what the courses tell is enough for this: no contract of the units has to be assumed
  have drained : Conductor.Drained score.graph (seen ++ [report]) := by
    constructor
    · intro other member node named
      have heard := (underway.heard (known named)
        (told (Conductor.mem_told.2 ⟨other, member, named, rfl⟩))).1
      exact Conductor.ready_mono score.graph report heard
    · intro node member
      obtain ⟨other, -, named, -⟩ := Conductor.mem_told.1 member
      exact .inl (underway.started_told queue (known named) member)
    · intro node inside ready
      rw [score.length_nodes] at inside
      exact ended node inside ready
  have all := drained.all_ready arena ordering fun other member canceled => by
    have heard : other ∈ seen ++ live.sequence.queue := by
      rw [queue, ← List.singleton_append, ← List.append_assoc]
      exact List.mem_append_left _ member
    obtain ⟨node, inside, named⟩ := underway.staged.sources other heard
    have here := (score.unit?_eq inside).trans (congrArg some named.symm)
    exact (underway.heard inside (Conductor.mem_told.2 ⟨other, heard, here, canceled⟩)).2.2 rfl
  exact fun node inside => ⟨all node, ended node inside (all node)⟩

theorem eq_nil_of_append_eq {α : Type} {xs ys earlier : List α}
    {last : α} (h : xs ++ ys = earlier ++ [last]) (member : last ∈ xs) (unique : last ∉ earlier) :
    ys = [] := by
  cases ys using List.reverseRecOn with
  | nil => rfl
  | append_singleton ys y =>
    rw [← List.append_assoc] at h
    obtain ⟨same, -⟩ := List.append_inj' h rfl
    exact absurd (same ▸ List.mem_append_left ys member) unique

theorem rest_nil (underway : score.Underway order own k seen live)
    (ordering : Graph.Ordering score.graph.nodes order)
    (queue : live.sequence.queue = report :: rest)
    (closed : (live.conductor.step report).1.closed = true) : rest = [] := by
  apply List.eq_nil_iff_forall_not_mem.2
  intro other member
  obtain ⟨node, inside, named⟩ := underway.staged.sources other (by simp [queue, member])
  obtain ⟨-, ended⟩ := underway.drained ordering queue closed node inside
  have here := List.getElem?_eq_getElem inside
  have lawful := score.lawful _ (List.mem_of_getElem? here)
  have last := score.endOf_eq here
  have whole := underway.staged.told node _ here
  have split : seen ++ live.sequence.queue = (seen ++ [report]) ++ rest := by
    rw [queue, List.append_assoc, List.singleton_append]
  have told := (told_grows score (seen ++ [report]) rest node).subset ended
  rw [← split] at told
  obtain ⟨ready, past, -⟩ := underway.heard inside told
  have due := underway.late node inside ready
  have length : min k (endOf score.courses score.starts node) - score.starts node =
      score.courses[node].length := by
    have less := past rfl
    omega
  -- the end is the last thing told, so nothing of this node can come after it
  obtain ⟨earlier, ends, unique⟩ := lawful.told_length
  rw [progressAt, if_pos ready, Course.toldAt, length, ends, split, Graph.told, List.filter_append,
    List.map_append, ← Graph.told] at whole
  have none := eq_nil_of_append_eq whole ended unique
  rw [List.map_eq_nil_iff, List.filter_eq_nil_iff] at none
  exact none other member (by rw [score.unit?_eq inside, named]; exact decide_eq_true rfl)

theorem heed_closing (underway : score.Underway order own k seen live)
    (ordering : Graph.Ordering score.graph.nodes order)
    (queue : live.sequence.queue = report :: rest)
    (closed : (live.conductor.step report).1.closed = true) :
    (live.heed Performer.behaviour report rest).1 = [.ended] ∧
      (live.heed Performer.behaviour report rest).2.sequence.queue = [] ∧
      score.Finished own k (live.heed Performer.behaviour report rest).2 := by
  have arena := score.sound.arena
  have all := underway.drained ordering queue closed
  have heard : ∀ node < score.courses.length, score.graph.ready seen node = true ∧
      endOf score.courses score.starts node ≤ k := by
    intro node inside
    have told := (told_grows score (seen ++ [report]) rest node).subset (all node inside).2
    rw [List.append_assoc, List.singleton_append, ← queue] at told
    obtain ⟨ready, past, -⟩ := underway.heard inside told
    exact ⟨ready, past rfl⟩
  have nothing : Conductor.upcoming score.graph order seen report = [] := by
    apply List.eq_nil_iff_forall_not_mem.2
    intro node member
    obtain ⟨inside, unready, -⟩ := underway.upcoming_due queue member ordering
    rw [(heard node inside).1] at unready
    cases unready
  have looked := underway.staged.look queue (live.conductor.step report).2
  have decided : (live.conductor.step report).2.phase = .idle ∧
      (live.conductor.step report).1.commands = [.announce .ended] := by
    rcases underway.tracks.step_cases arena ordering report with ⟨-, decided⟩ | ⟨idle, decided⟩
    · rw [decided] at closed
      cases closed
    · exact ⟨idle, by rw [decided, nothing]; rfl⟩
  rw [Live.heed, decided.2]
  refine ⟨rfl, underway.rest_nil ordering queue closed, decided.1,
    fun node inside => (heard node inside).2, _, looked.congr fun node inside => ?_⟩
  obtain ⟨ready, past⟩ := heard node inside
  rw [progressAt, if_pos ready, Nat.min_eq_right past]

/-- Looking at all reports ends with none left while the run goes on, or with its end. -/
theorem drain (underway : score.Underway order own k seen live)
    (ordering : Graph.Ordering score.graph.nodes order) :
    (∃ later next, live.drain Performer.behaviour = ([], next) ∧
        score.Underway order own k later next ∧ next.sequence.queue = []) ∨
      ∃ next, live.drain Performer.behaviour = ([.ended], next) ∧ score.Finished own k next := by
  induction live using Live.drain.induct Performer.behaviour generalizing seen with
  | case1 live none => exact .inl ⟨seen, live, Live.drain_of_nil _ none, underway, none⟩
  | case2 live report rest queue done =>
    rename_i ih
    rw [Live.drain_of_cons _ queue]
    rcases underway.tracks.step_cases score.sound.arena ordering report with ⟨running, -⟩
      | ⟨-, decided⟩
    · obtain ⟨quiet, next⟩ := underway.heed ordering queue running
      rw [quiet]
      exact ih next
    · -- the closing report is the last one in the queue
      have closed : (live.conductor.step report).1.closed = true := by rw [decided]
      obtain ⟨announced, none, finished⟩ := underway.heed_closing ordering queue closed
      rw [announced, Live.drain_of_nil _ none]
      exact .inr ⟨_, rfl, finished⟩

end Underway

end Score

end Choreo
