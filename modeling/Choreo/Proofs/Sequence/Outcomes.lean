import Choreo.Proofs.Run.Grafted
import Choreo.Proofs.Sequence.Setting

/-!
# What comes of a call

However its units behave, what a sequence announces on its own account at a call can be told
beforehand but for one thing: whether the run is over before the call comes back. Between two calls
that come back a sequence has nothing left to look at, and it is idle or running.
-/

namespace Choreo

/-- What may come of looking at reports in this phase: the run goes on, or it is over. -/
def Settles (before : Phase) (events : List Lifecycle) (after : Phase) : Prop :=
  events = [] ∧ after = before ∨ events = [.ended] ∧ after = .idle ∧ before ≠ .idle

theorem Settles.append {first second third : Phase} {events more : List Lifecycle}
    (one : Settles first events second) (two : Settles second more third) :
    Settles first (events ++ more) third := by
  obtain ⟨rfl, rfl⟩ | ⟨rfl, rfl, active⟩ := one
  · exact two
  · obtain ⟨rfl, rfl⟩ | ⟨-, -, never⟩ := two
    · exact .inr ⟨rfl, rfl, active⟩
    · exact absurd rfl never

theorem Settles.of_idle {events : List Lifecycle} {after : Phase}
    (settles : Settles .idle events after) :
    events = [] ∧ after = .idle :=
  settles.resolve_right fun past => past.2.2 rfl

namespace Conductor

theorem settles_step (conductor : Conductor) (report : Report) :
    Settles conductor.phase (conductor.step report).1.announced
      (conductor.step report).2.phase := by
  by_cases idle : conductor.phase = .idle
  · rw [step_of_idle report idle]
    exact .inl ⟨rfl, rfl⟩
  cases found : conductor.graph.nodeFor? report.unit with
  | none =>
    rw [step_of_absent found]
    exact .inl ⟨rfl, rfl⟩
  | some node =>
    have silent := fun event => (silent_absorb event node conductor).announced
    rw [step_eq idle found]
    split
    · simp only [leave]
      split
      · refine .inr ⟨?_, rfl, idle⟩
        rw [announced_append, silent]
        rfl
      · exact .inl ⟨silent _ _, phase_absorb _ _ _⟩
    · exact .inl ⟨silent _ _, phase_absorb _ _ _⟩

/-- A run that is winding down is closed when it is settled. -/
theorem settle_of_winding {conductor : Conductor}
    (winding : conductor.phase = .canceling ∨ conductor.phase = .ending) :
    ∃ closed, conductor.settle = (⟨[.announce .ended], true⟩, closed) ∧ closed.phase = .idle := by
  rcases winding with phase | phase
  · exact ⟨_, by rw [settle, phase], rfl⟩
  · exact ⟨_, by rw [settle, phase], rfl⟩

end Conductor

namespace Live

variable {U : Type} (b : Behaviour U) {live : Live U}

theorem settles_drain (live : Live U) :
    Settles live.conductor.phase (live.drain b).1 (live.drain b).2.conductor.phase := by
  induction live using Live.drain.induct b with
  | case1 live none =>
    rw [drain_of_nil b none]
    exact .inl ⟨rfl, rfl⟩
  | case2 live report rest queue done =>
    rename_i ih
    rw [drain_of_cons b queue]
    have first := live.conductor.settles_step report
    have told : (live.heed b report rest).1 = (live.conductor.step report).1.announced :=
      fst_execute b _ _ _
    have same : (live.heed b report rest).2.conductor = (live.conductor.step report).2 :=
      conductor_execute b _ _
    rw [← told, ← same] at first
    exact first.append ih

/-- What is decided is announced, and then what comes of the reports. -/
theorem settles_drive (decision : Decision) (live : Live U) : ∃ later,
    (live.drive b decision).1 = decision.announced ++ later ∧
      Settles live.conductor.phase later (live.drive b decision).2.conductor.phase := by
  have looked := settles_drain b (execute b decision.commands live).2
  rw [conductor_execute] at looked
  refine ⟨_, ?_, looked⟩
  rw [← fst_execute b live decision.commands decision.closed]
  rfl

/-- Nothing is left to look at, and there is no run, or one that goes on. -/
structure Calm (live : Live U) : Prop where
  phase : live.conductor.phase = .idle ∨ live.conductor.phase = .running
  empty : live.sequence.queue = []

theorem calm_empty (number : Nat) (stage : Stage) :
    (⟨.empty number, stage⟩ : Live U).Calm := ⟨.inl rfl, rfl⟩

/-- A sequence is calm when it has looked at all reports, unless it was winding down. -/
theorem calm_drain (phase : live.conductor.phase = .idle ∨ live.conductor.phase = .running) :
    (live.drain b).2.Calm := by
  refine ⟨?_, queue_drain b live⟩
  rcases settles_drain b live with ⟨-, same⟩ | ⟨-, idle, -⟩
  · rwa [same]
  · exact .inl idle

/-! ### Starting -/

theorem refuses_start_iff : live.refuses .start = true ↔
    ∃ cycle, live.conductor.begin.1 = .error cycle := by
  rw [refuses.eq_def]
  rcases live.conductor.begin with ⟨cycle | decision, conductor⟩
  · simp
  · simp

theorem startRun_of_refused {cycle : Cycle} {conductor : Conductor}
    (refused : live.conductor.begin = (.error cycle, conductor)) :
    live.refuses .start = true ∧ live.startRun b = (.error cycle, live.withConductor conductor) ∧
      live.startRunStory b = [.refused] := by
  rw [startRun, startRunStory, refused]
  exact ⟨by simp [refuses, refused], rfl, rfl⟩

theorem startRun_of_begun {decision : Decision} {conductor : Conductor}
    (begun : live.conductor.begin = (.ok decision, conductor)) :
    let driven := (live.withConductor conductor).drive b decision
    live.refuses .start = false ∧ live.startRun b = (.ok driven.1, driven.2) ∧
      live.startRunStory b = (live.withConductor conductor).driveStory b decision := by
  rw [startRun, startRunStory, begun]
  exact ⟨by simp [refuses, begun], rfl, rfl⟩

/-- A start while there is no run is refused, and nothing comes of it, or it begins one. -/
theorem startRun_of_idle (idle : live.conductor.phase = .idle) :
    (live.refuses .start = true ∧ live.startRunStory b = [.refused] ∧ ∃ cycle conductor,
      live.startRun b = (.error cycle, live.withConductor conductor) ∧ conductor.phase = .idle) ∨
    (live.refuses .start = false ∧ ∃ events next, live.startRun b = (.ok events, next) ∧ next.Calm ∧
      (events = [.started] ∧ next.conductor.phase = .running ∨
        events = [.started, .ended] ∧ next.conductor.phase = .idle)) := by
  rcases Conductor.begin_cases live.conductor with ⟨active, -⟩ | ⟨cycle, -, -, begun⟩ |
    ⟨order, opened, -, -, same, ⟨-, begun⟩ | ⟨-, begun⟩⟩
  · exact absurd idle active
  · obtain ⟨refused, started, story⟩ := startRun_of_refused b begun
    exact .inl ⟨refused, story, cycle, _, started, idle⟩
  · obtain ⟨later, told, settles⟩ := settles_drive b ⟨[.announce .started, .announce .ended], true⟩
      (live.withConductor opened.close)
    obtain ⟨rfl, past⟩ := Settles.of_idle settles
    obtain ⟨accepted, started, -⟩ := startRun_of_begun b begun
    exact .inr ⟨accepted, _, _, started, ⟨.inl past, queue_drain b _⟩, .inr ⟨told, past⟩⟩
  · obtain ⟨later, told, settles⟩ := settles_drive b
      ⟨opened.playing.units.map (Command.call .start) ++ [.announce .started], false⟩
      (live.withConductor opened)
    have phase : (live.withConductor opened).conductor.phase = .running := by rw [same]; rfl
    rw [phase] at settles
    rw [Conductor.announced_append, (Conductor.silent_calls .start _).announced] at told
    obtain ⟨accepted, started, -⟩ := startRun_of_begun b begun
    refine .inr ⟨accepted, _, _, started, ?_⟩
    rcases settles with ⟨rfl, going⟩ | ⟨rfl, past, -⟩
    · exact ⟨⟨.inr going, queue_drain b _⟩, .inl ⟨told, going⟩⟩
    · exact ⟨⟨.inl past, queue_drain b _⟩, .inr ⟨told, past⟩⟩

theorem startRun_of_active (empty : live.sequence.queue = [])
    (active : live.conductor.phase ≠ .idle) :
    live.refuses .start = false ∧ live.startRun b = (.ok [], live) ∧ live.startRunStory b = [] := by
  have begun : live.conductor.begin = (.ok .nothing, live.conductor) := by
    rw [Conductor.begin, if_pos active]
  have nothing : (live.withConductor live.conductor).drive b .nothing = ([], live) :=
    drive_nothing empty
  obtain ⟨accepted, started, story⟩ := startRun_of_begun b begun
  rw [started, nothing, story]
  exact ⟨accepted, rfl, drainStory_of_nil b live empty⟩

/-! ### Winding down -/

theorem settleRun_of_idle (empty : live.sequence.queue = []) (idle : live.conductor.phase = .idle) :
    live.settleRun b = ([], live) := by
  have settled : live.conductor.settle = (.nothing, live.conductor) := by
    rw [Conductor.settle, idle]
  rw [settleRun, settled]
  exact drive_nothing empty

theorem windDown_of_idle (empty : live.sequence.queue = []) (idle : live.conductor.phase = .idle) :
    live.windDown b (.nothing, live.conductor) = ([], live) := by
  have nothing : (live.withConductor live.conductor).drive b .nothing = ([], live) :=
    drive_nothing empty
  rw [windDown, nothing, settleRun_of_idle b empty idle]
  rfl

/-- A run that is winding down is over with the call, and its end is announced last, whether all
units report theirs or not. -/
theorem windDown_of_winding (live : Live U) {decided : Decision × Conductor}
    (winding : decided.2.phase = .canceling ∨ decided.2.phase = .ending) :
    (live.windDown b decided).1 = decided.1.announced ++ [.ended] ∧
      (live.windDown b decided).2.Calm ∧
      (live.windDown b decided).2.conductor.phase = .idle := by
  rw [windDown]
  let driven := (live.withConductor decided.2).drive b decided.1
  obtain ⟨later, told, settles⟩ := settles_drive b decided.1 (live.withConductor decided.2)
  rcases settles with ⟨rfl, same⟩ | ⟨rfl, past, -⟩
  · obtain ⟨closed, settled, phase⟩ := Conductor.settle_of_winding (same ▸ winding)
    obtain ⟨rest, told', settles'⟩ := settles_drive b ⟨[.announce .ended], true⟩
      (driven.2.withConductor closed)
    rw [show (driven.2.withConductor closed).conductor.phase = .idle from phase] at settles'
    obtain ⟨rfl, past⟩ := settles'.of_idle
    rw [settleRun, settled, told, told', List.append_nil, List.append_nil]
    exact ⟨rfl, ⟨.inl past, queue_drain b _⟩, past⟩
  · have empty : driven.2.sequence.queue = [] := queue_drain b _
    have settled : driven.2.settleRun b = ([], driven.2) := settleRun_of_idle b empty past
    rw [settled, told, List.append_nil]
    exact ⟨rfl, ⟨.inl past, empty⟩, past⟩

theorem endRun_of_idle (calm : live.Calm) (idle : live.conductor.phase = .idle) :
    live.endRun b = ([], live) := by
  have nothing : live.conductor.endRun = (.nothing, live.conductor) := by
    simp [Conductor.endRun, idle]
  rw [endRun, nothing]
  exact windDown_of_idle b calm.empty idle

theorem cancelRun_of_idle (calm : live.Calm) (idle : live.conductor.phase = .idle) :
    live.cancelRun b = ([], live) := by
  have nothing : live.conductor.cancelRun = (.nothing, live.conductor) := by
    simp [Conductor.cancelRun, idle]
  rw [cancelRun, nothing]
  exact windDown_of_idle b calm.empty idle

theorem endRun_of_running (running : live.conductor.phase = .running) :
    (live.endRun b).1 = [.ended] ∧ (live.endRun b).2.Calm ∧
      (live.endRun b).2.conductor.phase = .idle := by
  have phase : live.conductor.endRun.2.phase = .ending := by simp [Conductor.endRun, running]
  have silent : live.conductor.endRun.1.announced = [] := by
    simp only [Conductor.endRun, running, ↓reduceIte, (Conductor.silent_calls .finish _).announced]
  obtain ⟨told, wound⟩ := live.windDown_of_winding b (.inr phase)
  exact ⟨told.trans (by rw [silent]; rfl), wound⟩

/-- Something plays while a run goes on, so a cancellation is announced. -/
theorem cancelRun_of_running (coherent : live.conductor.Coherent)
    (running : live.conductor.phase = .running) :
    (live.cancelRun b).1 = [.canceled, .ended] ∧ (live.cancelRun b).2.Calm ∧
      (live.cancelRun b).2.conductor.phase = .idle := by
  have full : live.conductor.playing.units.isEmpty = false := by
    simpa using coherent.running running
  have phase : live.conductor.cancelRun.2.phase = .canceling := by
    simp [Conductor.cancelRun, running]
  have told : live.conductor.cancelRun.1.announced = [.canceled] := by
    simp only [Conductor.cancelRun, running, Playing.drain, full, ↓reduceIte, Bool.false_eq_true,
      Conductor.announced_append, (Conductor.silent_calls .cancel _).announced]
    rfl
  obtain ⟨all, wound⟩ := live.windDown_of_winding b (.inl phase)
  exact ⟨all.trans (by rw [told]; rfl), wound⟩

/-! ### Letting time go by -/

theorem tickRun_of_idle (delta : Span) (idle : live.conductor.phase = .idle) :
    live.tickRun b delta = (.ok [], live) := by
  rw [tickRun, if_pos (Sequence.isIdle_iff.2 idle)]

/-- Time cannot go by for all units only if it cannot for one of them. -/
theorem overflow_tickUnits {delta : Span} {units : List UnitId} {live next : Live U}
    {overflow : Overflow} (failed : live.tickUnits b delta units = (.error overflow, next)) :
    ∃ id, .asked id none (.error overflow) ∈ live.tickUnitsStory b delta units := by
  induction units generalizing live with
  | nil => cases failed
  | cons id units ih =>
    rw [tickUnits] at failed
    rw [tickUnitsStory]
    rcases reply : live.tickUnit b delta id with ⟨first | ⟨⟩, after⟩
    · rw [reply] at failed
      cases failed
      refine ⟨id, List.mem_append_left _ ?_⟩
      rw [tickUnit] at reply
      rw [tickUnitStory]
      cases known : live.sequence.registry.get? id with
      | none =>
        rw [known] at reply
        cases reply
      | some unit =>
        rw [known] at reply
        rcases answer : b.tick delta unit live.stage with ⟨late | events, ticked, stage⟩
        · simp only [answer] at reply ⊢
          cases reply
          exact List.mem_cons_self ..
        · simp only [answer] at reply
          cases reply
    · rw [reply] at failed
      obtain ⟨other, member⟩ := ih failed
      exact ⟨other, List.mem_append_right _ member⟩

/-- While a run goes on time goes by for what plays, and the run goes on or is over, unless time
cannot go by for one of the units. -/
theorem tickRun_of_running (delta : Span) (running : live.conductor.phase = .running) :
    match live.tickRun b delta with
    | (.ok events, next) => next.Calm ∧ Settles .running events next.conductor.phase
    | (.error overflow, _) =>
      ∃ id, .asked id none (.error overflow) ∈ live.tickRunStory b delta := by
  have active : ¬ live.sequence.isIdle = true := by simp [Sequence.isIdle_of_running running]
  have same := conductor_tickUnits b delta live.conductor.playing.units live
  rw [tickRun, if_neg active, tickRunStory, if_neg active]
  rcases reply : live.tickUnits b delta live.conductor.playing.units with ⟨overflow | ⟨⟩, next⟩
  · obtain ⟨id, member⟩ := overflow_tickUnits b reply
    exact ⟨id, List.mem_append_left _ member⟩
  · rw [reply] at same
    have phase : next.conductor.phase = .running := by rw [same, running]
    have settles := settles_drain b next
    rw [phase] at settles
    exact ⟨calm_drain b (.inr phase), settles⟩

/-! ### Between calls -/

theorem calm_obey (calm : live.Calm) (act : Act) : (obey b act live).2.Calm := by
  rcases calm.phase with idle | running
  · cases act with
    | start =>
      rcases startRun_of_idle b idle with ⟨-, -, cycle, conductor, started, still⟩ |
        ⟨-, events, next, started, after, -⟩
      · rw [obey, started]
        exact ⟨.inl still, calm.empty⟩
      · rwa [obey, started]
    | finish =>
      rw [obey, endRun_of_idle b calm idle]
      exact calm
    | cancel =>
      rw [obey, cancelRun_of_idle b calm idle]
      exact calm
  · cases act with
    | start =>
      rw [obey, (startRun_of_active b calm.empty (by simp [running])).2.1]
      exact calm
    | finish => exact (endRun_of_running b running).2.1
    | cancel =>
      have phase : live.conductor.cancelRun.2.phase = .canceling := by
        simp [Conductor.cancelRun, running]
      exact (live.windDown_of_winding b (.inl phase)).2.1

theorem calm_serve (calm : live.Calm) (limit : Nat) : (serve b limit live).2.Calm := by
  induction limit generalizing live with
  | zero => exact calm
  | succ limit ih =>
    rw [serve]
    cases live.stage.nextRequest? live.sequence.number with
    | none => exact calm
    | some next =>
      have taken : ({ live with stage := next.2 } : Live U).Calm := ⟨calm.phase, calm.empty⟩
      have obeyed := calm_obey b taken next.1
      exact ih ⟨obeyed.phase, obeyed.empty⟩

theorem calm_publish (calm : live.Calm) (events : List Lifecycle) :
    (live.publish b events).2.Calm := by
  have delivered : (live.deliver events).Calm := ⟨calm.phase, calm.empty⟩
  exact calm_serve b delivered _

theorem calm_respond (calm : live.Calm) (act : Act) : (live.respond b act).2.Calm := by
  rw [respond]
  split
  · exact calm_obey b calm act
  · exact calm_publish b (calm_obey b calm act) _

theorem calm_tick (calm : live.Calm) {delta : Span} {next : Live U}
    (ticked : live.tick b delta = (.ok (), next)) : next.Calm := by
  rw [tick] at ticked
  rcases calm.phase with idle | running
  · rw [tickRun_of_idle b delta idle] at ticked
    cases ticked
    exact calm_publish b calm []
  · have passed := tickRun_of_running b delta running
    rcases reply : live.tickRun b delta with ⟨overflow | events, after⟩
    · rw [reply] at ticked
      cases ticked
    · rw [reply] at ticked passed
      cases ticked
      exact calm_publish b passed.1 events

theorem calm_relate (calm : live.Calm) (grounded : live.sequence.Grounded) {cue : Cue U}
    (relates : cue.relates = true) : (live.onCue b cue).2.Calm := by
  obtain ⟨-, -, extended⟩ := extended_onCue b grounded relates
  have same : (live.onCue b cue).2.conductor.phase = live.conductor.phase := by
    rw [conductor, extended.conductor, conductor]
  exact ⟨same ▸ calm.phase, extended.queue.trans calm.empty⟩

/-- A sequence is calm whenever a call has come back. -/
theorem calm_onCue (calm : live.Calm) (grounded : live.sequence.Grounded) (cue : Cue U)
    (returned : (live.onCue b cue).1.returns = true) : (live.onCue b cue).2.Calm := by
  cases cue with
  | add | meanwhile => exact ⟨calm.phase, calm.empty⟩
  | play | together | sequential | sort => exact calm_relate b calm grounded rfl
  | start =>
    rw [onCue, snd_start]
    exact calm_respond b calm .start
  | finish => exact calm_respond b calm .finish
  | cancel => exact calm_respond b calm .cancel
  | tick delta =>
    rw [onCue] at returned ⊢
    obtain ⟨⟨⟩, answered⟩ := Outcome.returns_ofTick.1 returned
    exact calm_tick b calm (Prod.ext answered rfl)
  | report report =>
    let queued : Live U :=
      { live with sequence := { live.sequence with queue := live.sequence.queue ++ [report] } }
    have drained : (queued.drain b).2.Calm := calm_drain b calm.phase
    exact calm_publish b drained _
  | serve => exact calm_publish b calm []

end Live

end Choreo
