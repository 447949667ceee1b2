import Choreo.Proofs.Playback.Instant

/-!
# From tick to tick

Between two ticks exactly those performers play that have started and not ended. A tick brings all
of them one step further, and then the next instant begins. So a scene is over at the tick of its
last end, unless the cap comes first.
-/

namespace Choreo

namespace Score

variable {score : Score} {order : List Nat} {own : List (Nat × Lifecycle)} {k : Nat}
  {seen : List Report} {live : Scene}

namespace Underway

theorem told_of_nil (underway : score.Underway order own k seen live)
    (none : live.sequence.queue = []) {node : Nat} (inside : node < score.courses.length)
    (ready : score.graph.ready seen node = true) : score.graph.told seen node =
      score.courses[node].told
        (min k (endOf score.courses score.starts node) - score.starts node) := by
  have told := underway.staged.told node _ (List.getElem?_eq_getElem inside)
  rwa [none, List.append_nil, progressAt, if_pos ready] at told

theorem ended_iff (underway : score.Underway order own k seen live)
    (none : live.sequence.queue = []) {node : Nat} (inside : node < score.courses.length)
    (ready : score.graph.ready seen node = true) :
    .ended ∈ score.graph.told seen node ↔ endOf score.courses score.starts node ≤ k := by
  have here := List.getElem?_eq_getElem inside
  have lawful := score.lawful _ (List.mem_of_getElem? here)
  have due := underway.late node inside ready
  have last := score.endOf_eq here
  rw [underway.told_of_nil none inside ready, lawful.ended_mem_told (by omega)]
  omega

/-- When there is nothing left to look at, what is ready is what is due, by induction along the
order of start. -/
theorem ready_iff (underway : score.Underway order own k seen live)
    (ordering : Graph.Ordering score.graph.nodes order) (none : live.sequence.queue = [])
    {node : Nat} (inside : node < score.courses.length) :
    score.graph.ready seen node = true ↔ score.starts node ≤ k := by
  refine ⟨underway.late node inside, ?_⟩
  induction place : order.idxOf node using Nat.strongRecOn generalizing node with
  | ind place ih =>
    intro due
    apply List.all_eq_true.2
    intro d declared
    obtain ⟨holder, hholder, member⟩ := Graph.mem_dependencies.1 declared
    have waits := Graph.mem_prerequisites.2 ⟨holder, hholder, d, member, rfl⟩
    have known := score.sound.arena.lt_of_dependency hholder member
    rw [score.length_nodes] at known
    have moment := (score.due node inside k).1 due d declared
    have begun : score.starts d.node ≤ k := by
      rw [momentOf] at moment
      split at moment
      · exact moment
      · rw [endOf] at moment
        omega
    have ready := ih _ (place ▸ ordering.before node d.node waits) known rfl begun
    have lawful := score.lawful _ (List.getElem_mem known)
    have heard : d.rule.awaited ∈ score.graph.told seen d.node := by
      cases rule : d.rule with
      | onStart =>
        rw [underway.told_of_nil none known ready]
        exact lawful.started_mem_told _
      | onEnd =>
        rw [momentOf, rule] at moment
        exact (underway.ended_iff none known ready).2 moment
    rcases Conductor.met_or_dead score.graph (.inl heard) with met | dead
    · exact met
    · have canceled := told_of_seen live.sequence.queue (mem_of_precedes dead)
      exact absurd rfl (underway.heard known canceled).2.2

theorem playing_iff (underway : score.Underway order own k seen live)
    (ordering : Graph.Ordering score.graph.nodes order) (none : live.sequence.queue = [])
    {node : Nat} (inside : node < score.courses.length) : ⟨0, node⟩ ∈ live.conductor.playing.units ↔
      score.starts node ≤ k ∧ k < endOf score.courses score.starts node := by
  have named := score.unit?_eq inside
  constructor
  · intro plays
    obtain ⟨other, same, ready⟩ := underway.tracks.playing _ plays
    obtain rfl := Graph.unit?_inj score.sound.arena same named
    refine ⟨underway.late other inside ready, ?_⟩
    by_contra past
    have ended := (underway.ended_iff none inside ready).2 (Nat.not_lt.1 past)
    exact underway.gone other inside ended plays
  · rintro ⟨begun, going⟩
    have ready := (underway.ready_iff ordering none inside).2 begun
    rcases underway.manned node _ named ready with plays | ended
    · exact plays
    · have past := (underway.ended_iff none inside ready).1 ended
      omega

theorem playing_eq (underway : score.Underway order own k seen live) :
    ∃ nodes : List Nat, live.conductor.playing.units = nodes.map (UnitId.mk 0) ∧ nodes.Nodup ∧
      ∀ node ∈ nodes, node < score.courses.length := by
  have own : ∀ unit ∈ live.conductor.playing.units, ∃ node < score.courses.length,
      unit = ⟨0, node⟩ := by
    intro unit plays
    obtain ⟨node, named, -⟩ := underway.tracks.playing unit plays
    obtain ⟨found, hfound, -⟩ := Graph.unit?_eq_some.1 named
    have inside := (List.getElem?_eq_some_iff.1 hfound).1
    rw [score.length_nodes] at inside
    rw [score.unit?_eq inside] at named
    exact ⟨node, inside, (Option.some.inj named).symm⟩
  have back : (live.conductor.playing.units.map UnitId.index).map (UnitId.mk 0) =
      live.conductor.playing.units := by
    rw [List.map_map]
    refine (List.map_congr_left fun unit plays => ?_).trans (List.map_id _)
    obtain ⟨node, -, rfl⟩ := own unit plays
    rfl
  refine ⟨_, back.symm, List.Nodup.of_map (UnitId.mk 0) (back.symm ▸ underway.coherent.nodup), ?_⟩
  intro node member
  obtain ⟨unit, plays, rfl⟩ := List.mem_map.1 member
  obtain ⟨node, inside, rfl⟩ := own unit plays
  exact inside

theorem going (underway : score.Underway order own k seen live)
    (ordering : Graph.Ordering score.graph.nodes order) (none : live.sequence.queue = []) :
    ∃ node < score.courses.length, k < endOf score.courses score.starts node := by
  obtain ⟨nodes, units, -, inside⟩ := underway.playing_eq
  have some := underway.coherent.running underway.tracks.running
  rw [units] at some
  obtain ⟨node, member⟩ := List.exists_mem_of_ne_nil nodes (by simpa using some)
  have plays : ⟨0, node⟩ ∈ live.conductor.playing.units := units ▸ List.mem_map_of_mem member
  exact ⟨node, inside node member,
    ((underway.playing_iff ordering none (inside node member)).1 plays).2⟩

theorem tickUnits (underway : score.Underway order own k seen live)
    (ordering : Graph.Ordering score.graph.nodes order) (none : live.sequence.queue = [])
    (bound : (k + 1) * score.tick.ns ≤ Span.limit) {later : Scene}
    (staged : score.Staged own (k + 1) seen (score.progressAt (score.graph.ready seen) k) later)
    (same : later.conductor = live.conductor) :
    ∃ next, later.tickUnits Performer.behaviour score.tick later.conductor.playing.units =
      (.ok (), next) ∧ score.Underway order own (k + 1) seen next := by
  obtain ⟨nodes, units, distinct, inside⟩ := underway.playing_eq
  have plays : ∀ node ∈ nodes, score.starts node ≤ k ∧ k < endOf score.courses score.starts node :=
    fun node member => (underway.playing_iff ordering none (inside node member)).1
      (units ▸ List.mem_map_of_mem member)
  obtain ⟨next, ticked, after⟩ := staged.tickUnits distinct bound fun node member => by
    obtain ⟨begun, going⟩ := plays node member
    have ready := (underway.ready_iff ordering none (inside node member)).2 begun
    exact ⟨_, if_pos ready, by omega, by omega⟩
  have kept := Live.conductor_tickUnits Performer.behaviour score.tick
    (nodes.map (UnitId.mk 0)) later
  rw [ticked, same] at kept
  rw [same, units]
  refine ⟨next, ticked, ?_⟩
  constructor
  · rw [kept]
    exact underway.tracks
  · rw [kept]
    exact underway.coherent
  · rw [kept]
    exact underway.manned
  · rw [kept]
    exact underway.gone
  · intro node inside before
    exact (underway.ready_iff ordering none inside).2 (Nat.le_of_lt_succ before)
  · intro node inside ready
    exact Nat.le_succ_of_le (underway.late node inside ready)
  · refine after.congr fun node inside => ?_
    by_cases ready : score.graph.ready seen node = true
    · have begun := underway.late node inside ready
      by_cases member : node ∈ nodes
      · obtain ⟨-, going⟩ := plays node member
        simp only [member, ↓reduceIte, progressAt, ready, Option.map_some, Option.some.injEq]
        omega
      · -- what has ended stays where it is: ticks beyond its end do not count
        have past : ¬ k < endOf score.courses score.starts node := fun going =>
          member (by
            have playing := (underway.playing_iff ordering none inside).2 ⟨begun, going⟩
            rw [units] at playing
            simpa using playing)
        simp only [member, ↓reduceIte, progressAt, ready, Option.some.injEq]
        omega
    · simp [progressAt, ready]

end Underway

theorem Staged.advance {progress : Nat → Option Nat}
    (staged : score.Staged own k seen progress live)
    (bound : (k + 1) * score.tick.ns ≤ Span.limit) :
    ∃ later : Scene, later.conductor = live.conductor ∧
      score.Staged own (k + 1) seen progress later ∧
      Playback.advance Performer.behaviour score.tick live =
        later.tick Performer.behaviour score.tick := by
  have sum : live.stage.recording.now.add score.tick = .ok ⟨(k + 1) * score.tick.ns, bound⟩ := by
    rw [Span.add_eq_ok, staged.clock]
    exact Nat.succ_mul _ _
  have moved : live.stage.recording.advance score.tick =
      .ok { live.stage.recording with now := ⟨(k + 1) * score.tick.ns, bound⟩ } := by
    rw [Recording.advance, sum]
  let recording := { live.stage.recording with now := ⟨(k + 1) * score.tick.ns, bound⟩ }
  refine ⟨{ live with stage := { live.stage with recording } }, rfl, ?_, ?_⟩
  · exact ⟨staged.owner, staged.performers, staged.channels, rfl, staged.told, staged.sources,
      staged.noted, staged.others⟩
  · rw [Playback.advance, moved]

theorem Staged.advance_beyond {progress : Nat → Option Nat}
    (staged : score.Staged own k seen progress live)
    (beyond : Span.limit < (k + 1) * score.tick.ns) :
    Playback.advance Performer.behaviour score.tick live = (.error .sumTooLong, live) := by
  have sum : live.stage.recording.now.add? score.tick = none := by
    rw [Span.add?_eq_none, staged.clock]
    rwa [Nat.succ_mul] at beyond
  rw [Playback.advance, Recording.advance, Span.add, sum]

theorem Underway.advance (underway : score.Underway order own k seen live)
    (ordering : Graph.Ordering score.graph.nodes order) (none : live.sequence.queue = [])
    (bound : (k + 1) * score.tick.ns ≤ Span.limit) :
    ∃ next, Playback.advance Performer.behaviour score.tick live = (.ok (), next) ∧
      ((∃ later, score.Underway order own (k + 1) later next ∧ next.sequence.queue = []) ∨
        score.Finished (own ++ [((k + 1) * score.tick.ns, .ended)]) (k + 1) next) := by
  obtain ⟨moved, same, staged, advanced⟩ := underway.staged.advance bound
  obtain ⟨ticked, units, after⟩ := underway.tickUnits ordering none bound staged same
  have running : moved.conductor.phase = .running := same ▸ underway.tracks.running
  rw [advanced, Live.tick_of_running _ running units]
  refine ⟨_, rfl, ?_⟩
  rcases after.drain ordering with ⟨later, next, drained, underway, none⟩
    | ⟨next, drained, finished⟩
  · rw [drained, underway.staged.quiet.publish]
    exact .inl ⟨later, underway, none⟩
  · obtain ⟨seen, staged⟩ := finished.staged
    rw [drained, staged.quiet.publish]
    exact .inr ⟨finished.idle, finished.ends, seen, staged.deliver [.ended]⟩

/-- How a scene is over: at the tick of its last end, or at the first tick by the cap, when
something has not ended by then. -/
inductive Over (score : Score) (cap : Nat) (own : List (Nat × Lifecycle)) :
    Except Playback.Failure Playback.Outcome × Scene → Prop where
  | ended {last : Nat} {elapsed : Span} {final : Scene} (timely : last ≤ cap)
    (clock : elapsed.ns = last * score.tick.ns)
    (latest : ∃ node < score.courses.length, last ≤ endOf score.courses score.starts node)
    (finished : score.Finished (own ++ [(last * score.tick.ns, .ended)]) last final) :
    Over score cap own (.ok ⟨elapsed, last, false⟩, final)
  | canceled {elapsed : Span} {final : Scene} (clock : elapsed.ns = cap * score.tick.ns)
    (later : ∃ node < score.courses.length, cap < endOf score.courses score.starts node) :
    Over score cap own (.ok ⟨elapsed, cap, true⟩, final)

theorem Underway.active (underway : score.Underway order own k seen live) :
    live.sequence.isIdle = false :=
  Sequence.isIdle_of_running underway.tracks.running

theorem Finished.goOn (finished : score.Finished (own ++ [(k * score.tick.ns, .ended)]) k live)
    (options : PlaybackOptions) {cap : Nat} (timely : k ≤ cap)
    (latest : ∃ node < score.courses.length, k ≤ endOf score.courses score.starts node)
    (rounds : Nat) :
    score.Over cap own (Playback.goOn Performer.behaviour options rounds k live) := by
  have idle : live.sequence.isIdle = true := Sequence.isIdle_iff.2 finished.idle
  obtain ⟨seen, staged⟩ := finished.staged
  rw [Playback.goOn.eq_def]
  simp only [idle, ↓reduceIte]
  exact .ended timely staged.clock latest finished

/-- How a scene breaks off: before the cap, and before everything has ended, the next tick would
take the clock beyond the limit. -/
structure Overrun (score : Score) (cap : Nat)
    (played : Except Playback.Failure Playback.Outcome × Scene) : Prop where
  overflow : played.1 = .error (.overflow .sumTooLong)
  beyond : ∃ k < cap, Span.limit < (k + 1) * score.tick.ns ∧
    ∃ node < score.courses.length, k < endOf score.courses score.starts node

/-- The clock stays within the limit if that leaves room for the cap and one more tick. -/
theorem not_overrun {cap : Span} (bound : score.tick.ns + cap.ns ≤ Span.limit)
    {played : Except Playback.Failure Playback.Outcome × Scene} :
    ¬ score.Overrun (ticksFor score.tick.ns cap.ns) played := by
  rintro ⟨-, k, early, beyond, -⟩
  have before : k * score.tick.ns < cap.ns := by
    rwa [← Nat.not_le, ← ticksFor_le score.positive, Nat.not_le]
  rw [Nat.succ_mul] at beyond
  omega

/-- The loop, by induction on the ticks that are left until the cap. -/
theorem Underway.goOn_cases (underway : score.Underway order own k seen live)
    (ordering : Graph.Ordering score.graph.nodes order) (none : live.sequence.queue = [])
    (cap : Span) {rounds : Nat} (left : k + rounds = ticksFor score.tick.ns cap.ns) :
    let played := Playback.goOn Performer.behaviour ⟨score.tick, cap⟩ rounds k live
    score.Over (ticksFor score.tick.ns cap.ns) own played ∨
      score.Overrun (ticksFor score.tick.ns cap.ns) played := by
  -- the rounds are those that are left to the cap, so they never run out before it
  induction rounds generalizing k seen live with
  | zero =>
    have active := underway.active
    have now : k = ticksFor score.tick.ns cap.ns := left
    have capped : cap.ns ≤ (Playback.now live).ns := by
      rw [Playback.now, underway.staged.clock, ← ticksFor_le score.positive, now]
    have still := underway.staged.quiet.cancel.clock
    rw [Playback.goOn.eq_def]
    simp only [active, capped, ↓reduceIte, Bool.false_eq_true]
    rw [← now]
    refine .inl (.canceled ?_ (underway.going ordering none))
    rw [Playback.now, still, underway.staged.clock]
  | succ rounds ih =>
    have active := underway.active
    have early : k * score.tick.ns < cap.ns := by
      rw [← Nat.not_le, ← ticksFor_le score.positive]
      omega
    have open_ : ¬ cap.ns ≤ (Playback.now live).ns := by
      rw [Playback.now, underway.staged.clock]
      omega
    obtain ⟨node, inside, going⟩ := underway.going ordering none
    rw [Playback.goOn]
    simp only [active, open_, ↓reduceIte, Bool.false_eq_true]
    by_cases within : (k + 1) * score.tick.ns ≤ Span.limit
    · obtain ⟨next, advanced, ⟨later, underway, empty⟩ | finished⟩ :=
        underway.advance ordering none within
      · rw [advanced]
        exact ih underway empty (by omega)
      · rw [advanced]
        exact .inl (finished.goOn _ (by omega) ⟨node, inside, going⟩ rounds)
    · rw [underway.staged.advance_beyond (Nat.not_le.1 within)]
      exact .inr ⟨rfl, k, by omega, Nat.not_le.1 within, node, inside, going⟩

end Score

end Choreo
