import Choreo.Proofs.Sequence.Rest
import Choreo.World.Member

/-!
# Performers are dutiful

Clips, delays and puppets owe one end for each start: an instant one pays at once, the others when
their time is over, and each of them stops when it is told to, a silent puppet without a word. So
what plays in a sequence of such performers is, after every call, exactly what runs.
-/

namespace Choreo

theorem Clip.start_dutiful {clip : Clip} (idle : clip.running = false) :
    clip.start.1.count .ended + clip.start.2.running.toNat = 1 := by
  rw [start, if_neg (by simp [idle])]
  simp only
  split <;> simp

theorem Clip.reach_dutiful (elapsed : Span) {clip : Clip} (running : clip.running = true) :
    (clip.reach elapsed).1.count .ended + (clip.reach elapsed).2.running.toNat = 1 := by
  rw [reach]
  split <;> simp [List.count_replicate, running]

theorem Delay.start_dutiful {delay : Delay} (idle : delay.running = false) :
    delay.start.1.count .ended + delay.start.2.running.toNat = 1 := by
  rw [start, if_neg (by simp [idle])]
  split <;> simp

theorem Puppet.start_dutiful {puppet : Puppet} (idle : puppet.running = false) :
    puppet.start.1.count .ended + puppet.start.2.running.toNat = 1 := by
  rw [start, if_neg (by simp [idle])]
  split <;> simp

theorem Puppet.running_stop (events : List Lifecycle) (puppet : Puppet) :
    (puppet.stop events).2.running = false := by
  rw [stop]
  split
  · rfl
  · rename_i idle
    simpa using idle

namespace Performer

/-- A clip, a delay or a puppet. -/
def Plain : Performer → Prop
  | .scripted _ => False
  | _ => True

variable {p : Performer}

theorem plain_act (act : Act) (plain : p.Plain) : (p.act act).2.Plain := by
  cases p with
  | scripted unit => exact plain
  | clip | delay | puppet => trivial

/-- A start of an idle performer is answered by what is owed for it. -/
theorem start_dutiful (plain : p.Plain) (idle : p.running = false) :
    (p.act .start).1.count .ended + (p.act .start).2.running.toNat = 1 := by
  cases p with
  | clip clip track => exact Clip.start_dutiful idle
  | delay delay => exact Delay.start_dutiful idle
  | puppet puppet => exact Puppet.start_dutiful idle
  | scripted unit => exact plain.elim

theorem running_act {act : Act} (plain : p.Plain) (stops : act ≠ .start) :
    (p.act act).2.running = false := by
  cases p with
  | clip clip track =>
    cases act with
    | start => exact absurd rfl stops
    | finish =>
      simp only [Performer.act, running, Clip.finish]
      split <;> simp_all
    | cancel =>
      simp only [Performer.act, running, Clip.cancel]
      split <;> simp_all
  | delay delay =>
    cases act with
    | start => exact absurd rfl stops
    | finish =>
      simp only [Performer.act, running, Delay.finish]
      split <;> simp_all
    | cancel =>
      simp only [Performer.act, running, Delay.cancel]
      split <;> simp_all
  | puppet puppet =>
    cases act with
    | start => exact absurd rfl stops
    | finish | cancel => exact Puppet.running_stop _ puppet
  | scripted unit => exact plain.elim

/-- While time goes by a performer that runs goes on or pays its end. -/
theorem tick_dutiful {delta : Span} {events : List Lifecycle} {next : Performer} (plain : p.Plain)
    (done : p.tick delta = .ok (events, next)) :
    next.Plain ∧ events.count .ended + next.running.toNat = p.running.toNat := by
  cases p with
  | clip clip track =>
    simp only [tick, Clip.tick] at done
    split at done
    · rename_i running
      cases sum : clip.elapsed.add delta with
      | error overflow =>
        rw [sum] at done
        cases done
      | ok elapsed =>
        rw [sum] at done
        cases done
        refine ⟨trivial, ?_⟩
        simpa [Performer.running, running] using Clip.reach_dutiful elapsed running
    · cases done
      simp [Plain]
  | delay delay =>
    simp only [tick, Delay.tick] at done
    split at done
    · rename_i running
      cases sum : delay.elapsed.add delta with
      | error overflow =>
        rw [sum] at done
        cases done
      | ok elapsed =>
        rw [sum] at done
        simp only at done
        split at done
        all_goals
          cases done
          simp [Plain, Performer.running, running]
    · cases done
      simp [Plain]
  | puppet puppet =>
    simp only [tick, Puppet.tick] at done
    split at done
    · rename_i duration timed running
      cases sum : puppet.elapsed.add delta with
      | error overflow =>
        rw [sum] at done
        cases done
      | ok elapsed =>
        rw [sum] at done
        simp only at done
        split at done
        all_goals
          cases done
          simp [Plain, Performer.running, running]
    · cases done
      simp [Plain]
  | scripted unit => exact plain.elim

theorem pass_cases (delta : Span) (p : Performer) (recording : Recording) :
    (∃ overflow, p.pass delta recording = (.error overflow, p, recording)) ∨
    ∃ events next, p.tick delta = .ok (events, next) ∧
      p.pass delta recording = (.ok events, next, note p.track events recording) := by
  rw [pass]
  rcases p.tick delta with overflow | ⟨events, next⟩
  · exact .inl ⟨overflow, rfl⟩
  · exact .inr ⟨events, next, rfl, rfl⟩

end Performer

namespace Member

/-- A member that is a clip, a delay or a puppet, watched or not. -/
def Plain : Member → Prop
  | .performer _ p => p.Plain
  | .ensemble _ _ => False

theorem act_performer (depth : Nat) (act : Act) (watch : Option String) (p : Performer)
    (stage : Stage) :
    (behaviour depth).act act (.performer watch p) stage = perform act watch p stage := by
  cases depth <;> rfl

theorem tick_performer (depth : Nat) (delta : Span)
    (watch : Option String) (p : Performer) (stage : Stage) :
    (behaviour depth).tick delta (.performer watch p) stage = pass delta watch p stage := by
  cases depth <;> rfl

theorem running_behaviour (depth : Nat) (member : Member) :
    (behaviour depth).running member = member.running := by
  cases depth <;> rfl

theorem timer_behaviour (depth : Nat) (delay : Span) :
    (behaviour depth).timer delay = timer delay := by
  cases depth <;> rfl

theorem dutiful (depth : Nat) : (behaviour depth).Dutiful Plain := by
  constructor
  · intro delay
    rw [running_behaviour, timer_behaviour]
    exact ⟨trivial, rfl⟩
  · intro act member stage plain
    cases member with
    | ensemble watch sequence => exact plain.elim
    | performer watch p =>
      rw [act_performer]
      exact Performer.plain_act act plain
  · intro delta member stage plain
    cases member with
    | ensemble watch sequence => exact plain.elim
    | performer watch p =>
      rw [tick_performer]
      rcases Performer.pass_cases delta p (logCall watch Line.ticked stage).recording with
        ⟨overflow, same⟩ | ⟨events, next, done, same⟩
      · simp only [pass, same]
        exact plain
      · simp only [pass, same]
        exact (Performer.tick_dutiful plain done).1
  · intro member stage plain idle
    cases member with
    | ensemble watch sequence => exact plain.elim
    | performer watch p =>
      rw [act_performer, running_behaviour]
      exact Performer.start_dutiful plain ((running_behaviour depth _).symm.trans idle)
  · intro act member stage plain stops
    cases member with
    | ensemble watch sequence => exact plain.elim
    | performer watch p =>
      rw [act_performer, running_behaviour]
      exact Performer.running_act plain stops
  · intro delta member stage events plain done
    cases member with
    | ensemble watch sequence => exact plain.elim
    | performer watch p =>
      rw [tick_performer] at done ⊢
      rw [running_behaviour, running_behaviour]
      rcases Performer.pass_cases delta p (logCall watch Line.ticked stage).recording with
        ⟨overflow, same⟩ | ⟨reported, next, ticked, same⟩
      · simp only [pass, same] at done
        cases done
      · simp only [pass, same] at done ⊢
        cases done
        exact (Performer.tick_dutiful plain ticked).2

/-- After every call that comes back a sequence of clips, delays and puppets has an empty queue, is
idle or running, and plays exactly the units that run: at least one when it is running, and none
when it is idle. Units are registered before they are started, nobody reports from outside, and
apart from that anything may be asked of the sequence and happen to its stage, with any
listeners. -/
theorem playing_iff_running (depth number : Nat) (stage : Stage) (cues : List (Cue Member))
    (proper : ∀ cue ∈ cues, cue.Proper (behaviour depth) Plain)
    (returned : ∀ outcome ∈ (Live.rehearse (behaviour depth) cues ⟨.empty number, stage⟩).1,
      outcome.returns = true) :
    let live := (Live.rehearse (behaviour depth) cues ⟨.empty number, stage⟩).2
    live.sequence.queue = [] ∧ (live.conductor.phase = .idle ∨ live.conductor.phase = .running) ∧
    (∀ id unit, live.sequence.registry.get? id = some unit →
      (unit.running = true ↔ id ∈ live.conductor.playing.units)) ∧
    (live.conductor.phase = .running →
      ∃ id unit, live.sequence.registry.get? id = some unit ∧ unit.running = true) ∧
    (live.conductor.phase = .idle →
      ∀ id unit, live.sequence.registry.get? id = some unit → unit.running = false) := by
  intro live
  have rest : live.sequence.AtRest (behaviour depth) Plain :=
    Live.rehearse_atRest (dutiful depth) proper (Live.atRest_empty number) returned
  have agree : ∀ id unit, live.sequence.registry.get? id = some unit →
      (unit.running = true ↔ id ∈ live.conductor.playing.units) := fun id unit known => by
    rw [← running_behaviour depth]
    exact rest.running_iff known
  refine ⟨rest.empty, rest.calm, agree, fun running => ?_, fun idle id unit known => ?_⟩
  · obtain ⟨id, plays⟩ := List.exists_mem_of_ne_nil _ (rest.sane.coherent.running running)
    obtain ⟨unit, known⟩ := Registry.contains_iff.1 (rest.sane.contains plays)
    exact ⟨id, unit, known, (agree id unit known).2 plays⟩
  · have nobody : live.conductor.playing.units = [] := (rest.sane.coherent.idle idle).1
    have idle := mt (agree id unit known).1
    rw [nobody] at idle
    simpa using idle

/-- A silent puppet starts with a clip of two ticks, and when the run is over a listener asks for
another one. The first run is canceled, and the one that follows is in its second tick. -/
def encore : List (Cue Member) :=
  [.meanwhile (Stage.listen 0 "audience" [⟨.ended, 0, 1, [.send 0 .start]⟩]),
    .add (some "clip") (.performer (some "clip") (.clip (.fresh ⟨2, by decide⟩ 0) none)),
    .add (some "puppet") (.performer none (.puppet (.fresh .manual true))),
    .play (some ⟨0, 0⟩) [.together ⟨0, 1⟩, .afterDelay .zero],
    .start, .tick ⟨1, by decide⟩, .cancel, .tick ⟨1, by decide⟩]

/-- In the encore something plays, so something runs. -/
theorem playing_iff_running_encore :
    let live := (Live.rehearse (behaviour 0) encore ⟨.empty 0, Stage.bare.openChannel⟩).2
    ∃ id unit, live.sequence.registry.get? id = some unit ∧ unit.running = true := by
  have proper : ∀ cue ∈ encore, cue.Proper (behaviour 0) Plain := by
    simp [encore, Cue.Proper, Plain, Performer.Plain, behaviour, running, Performer.running,
      Clip.fresh, Puppet.fresh]
  have outcomes : (Live.rehearse (behaviour 0) encore ⟨.empty 0, Stage.bare.openChannel⟩).1 =
      List.replicate 8 .done := by cbv
  have returned : ∀ outcome ∈ List.replicate 8 Outcome.done, outcome.returns = true := by
    simp [Outcome.returns]
  exact (playing_iff_running 0 0 Stage.bare.openChannel encore proper (outcomes ▸ returned)).2.2.2.1
    (by cbv)

end Member

end Choreo
