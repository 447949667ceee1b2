import Choreo.Proofs.Sequence.Lawful
import Choreo.Proofs.Sequence.Roll

/-!
# Winding a run down

A run that is canceled or ended is wound down in one go: what plays is told so, in the order in
which it started, then whatever is reported is looked at, and the run is closed. The reports may
still satisfy what other units wait for, but a conductor that does not run any more decides to call
no unit. So no unit hears of it but those that play, and they hear of it once.
-/

namespace Choreo

namespace Happening

def asking? : Happening → Option (UnitId × Option Act)
  | .asked unit act _ => some (unit, act)
  | _ => none

/-- Which units were asked in a story, and for what. -/
def askings (story : List Happening) : List (UnitId × Option Act) := story.filterMap asking?

theorem askings_append (story more : List Happening) :
    askings (story ++ more) = askings story ++ askings more :=
  List.filterMap_append

theorem askings_of_outward {story : List Happening} (outward : inward story = []) :
    askings story = [] := by
  refine List.filterMap_eq_nil_iff.2 fun happening member => ?_
  have outside := List.filter_eq_nil_iff.1 outward happening member
  cases happening with
  | asked => exact absurd rfl outside
  | cued | announced | called | told | left | joined | sent | served | refused => rfl

theorem summons_eq (story : List Happening) : summons story =
    (askings story).filterMap fun asked => if asked.2 = some .start then some asked.1
      else none := by
  rw [summons, askings, List.filterMap_filterMap]
  refine List.filterMap_congr fun happening _ => ?_
  cases happening with
  | asked unit act reply =>
    rcases act with _ | _ | _ | _ <;> rfl
  | cued | announced | called | told | left | joined | sent | served | refused => rfl

/-- As long as no end clears the roll, those are entered who are told to start, one after the
other. -/
theorem roll_of_going {called roll : List UnitId} {story : List Happening}
    (entered : enrolAll called story = some roll) (going : .announced .ended ∉ story) :
    roll.reverse = called.reverse ++ summons story := by
  induction story generalizing called with
  | nil =>
    cases entered
    exact (List.append_nil _).symm
  | cons happening story ih =>
    rw [enrolAll_cons, Option.bind_eq_some_iff] at entered
    obtain ⟨next, now, later⟩ := entered
    obtain ⟨first, going⟩ := not_or.1 (mt List.mem_cons.2 going)
    rw [ih later going]
    cases happening with
    | asked unit act reply =>
      rcases act with _ | _ | _ | _
      · cases now
        rfl
      · rw [enrol] at now
        split at now
        · cases now
        · cases now
          rw [List.reverse_cons, List.append_assoc]
          rfl
      · cases now
        rfl
      · cases now
        rfl
    | announced event =>
      cases event with
      | ended => exact absurd rfl first
      | started | canceled | repeated =>
        cases now
        rfl
    | cued | called | told | left | joined | sent | served | refused =>
      cases now
      rfl

theorem mem_announcements {event : Lifecycle} {story : List Happening} :
    event ∈ announcements story ↔ .announced event ∈ story := by
  rw [announcements, List.mem_filterMap]
  constructor
  · rintro ⟨happening, member, same⟩
    cases happening with
    | announced other =>
      cases same
      exact member
    | cued | asked | called | told | left | joined | sent | served | refused => cases same
  · exact fun member => ⟨_, member, rfl⟩

end Happening

/-- Which unit is called by a command, and for what. -/
def Command.asking? : Command → Option (UnitId × Option Act)
  | .call act unit => some (unit, some act)
  | .announce _ => none

namespace Conductor

/-- Which units are called by these commands, and for what. -/
def askings (commands : List Command) : List (UnitId × Option Act) :=
  commands.filterMap Command.asking?

theorem askings_calls (act : Act) (units : List UnitId) :
    askings (units.map (Command.call act)) = units.map fun unit => (unit, some act) := by
  rw [askings, List.filterMap_map]
  exact congrFun List.filterMap_eq_map units

/-- While no run goes on, a report leads to no call on a unit, and no run goes on afterwards. -/
theorem step_of_not_running {conductor : Conductor} (winding : conductor.phase ≠ .running)
    (report : Report) :
    askings (conductor.step report).1.commands = [] ∧
      (conductor.step report).2.phase ≠ .running := by
  refine ⟨?_, ?_⟩
  · by_cases idle : conductor.phase = .idle
    · rw [step_of_idle report idle]
      rfl
    cases found : conductor.graph.nodeFor? report.unit with
    | none =>
      rw [step_of_absent found]
      rfl
    | some node =>
      rw [step_eq idle found, absorb_of_not_running _ _ _ winding,
        absorb_of_not_running _ _ _ winding]
      split
      · simp only [leave]
        split <;> rfl
      · rfl
  · rcases conductor.settles_step report with ⟨-, same⟩ | ⟨-, past, -⟩
    · rwa [same]
    · simp [past]

theorem settle_of_not_running {conductor : Conductor} (winding : conductor.phase ≠ .running) :
    askings conductor.settle.1.commands = [] ∧ conductor.settle.2.phase ≠ .running := by
  rw [settle]
  split
  · exact ⟨rfl, by simp [close]⟩
  · exact ⟨rfl, by simp [close]⟩
  · exact ⟨rfl, winding⟩
  · exact ⟨rfl, winding⟩

theorem cancelRun_of_running {conductor : Conductor} (running : conductor.phase = .running) :
    askings conductor.cancelRun.1.commands =
      conductor.playing.units.map (fun unit => (unit, some .cancel)) ∧
      conductor.cancelRun.2.phase = .canceling := by
  have decided : conductor.cancelRun.1.commands =
      if conductor.playing.units.isEmpty then conductor.playing.units.map (Command.call .cancel)
      else conductor.playing.units.map (Command.call .cancel) ++ [.announce .canceled] := by
    rw [cancelRun, if_pos running]
    rfl
  refine ⟨?_, by rw [cancelRun, if_pos running]⟩
  rw [decided, ← askings_calls]
  split
  · rfl
  · exact List.filterMap_append.trans (List.append_nil _)

theorem endRun_of_running {conductor : Conductor} (running : conductor.phase = .running) :
    askings conductor.endRun.1.commands =
      conductor.playing.units.map (fun unit => (unit, some .finish)) ∧
      conductor.endRun.2.phase = .ending := by
  rw [endRun, if_pos running]
  exact ⟨askings_calls _ _, rfl⟩

theorem mem_announced {event : Lifecycle} {decision : Decision} :
    event ∈ decision.announced ↔ .announce event ∈ decision.commands := by
  rw [Decision.announced, List.mem_filterMap]
  constructor
  · rintro ⟨command, member, same⟩
    cases command with
    | announce other =>
      cases same
      exact member
    | call act unit => cases same
  · exact fun member => ⟨_, member, rfl⟩

/-! ### Who plays, in the order of starting -/

/-- Unless the run is over, those play who played before and those who are started now, in this
order, less those who left. -/
theorem Reachable.playing_operate {c : Conductor} (reached : c.Reachable) (operation : Operation) :
    ((c.operate operation).2.playing.units).Sublist
      (c.playing.units ++ (c.operate operation).1.started) := by
  cases operation with
  | begin =>
    rcases begin_cases c with ⟨-, begun⟩ | ⟨cycle, -, -, begun⟩ |
      ⟨order, opened, -, -, -, ⟨none, begun⟩ | ⟨-, begun⟩⟩
    all_goals simp only [operate, begun]
    · exact List.sublist_append_left ..
    · exact List.sublist_append_left ..
    · rw [close, none]
      exact List.nil_sublist _
    · rw [started_announcing]
      exact List.sublist_append_right ..
  | step report =>
    simp only [operate]
    by_cases idle : c.phase = .idle
    · rw [step_of_idle report idle]
      exact List.sublist_append_left ..
    cases found : c.graph.nodeFor? report.unit with
    | none =>
      rw [step_of_absent found]
      exact List.sublist_append_left ..
    | some node =>
      rw [reached.wired.step_eq reached.sound.arena idle found]
      split
      · exact List.nil_sublist _
      · rw [started_calls]
        simp only [Report.without]
        split
        · exact List.erase_sublist
        · exact .refl _
  | cancel =>
    simp only [operate, cancelRun]
    split
    · exact List.nil_sublist _
    · exact List.sublist_append_left ..
  | finish =>
    simp only [operate, endRun]
    split <;> exact List.sublist_append_left ..
  | settle =>
    simp only [operate, settle]
    split
    · exact List.nil_sublist _
    · exact List.nil_sublist _
    · exact List.sublist_append_left ..
    · exact List.sublist_append_left ..
  | edit | refill => exact List.sublist_append_left ..

theorem Reachable.playing_of_ended {c : Conductor} (reached : c.Reachable) (operation : Operation)
    (ended : .announce .ended ∈ (c.operate operation).1.commands) :
    (c.operate operation).2.playing.units = [] := by
  obtain ⟨coherent, bracketed⟩ := operate_spec reached.sound reached.coherent operation
  have closed := bracketed.closed_iff_idle.1 (bracketed.closed_iff_ended.2 ended)
  exact (coherent.idle closed.1).1

end Conductor

variable {U : Type} {b : Behaviour U}

open Happening

namespace Live

/-- The units of these commands are asked what the commands say, if the sequence has them. -/
theorem askings_executeStory {commands : List Command} {live : Live U}
    (known : ∀ act id, .call act id ∈ commands → live.sequence.registry.contains id = true) :
    askings (executeStory b commands live) = Conductor.askings commands := by
  induction commands generalizing live with
  | nil => rfl
  | cons command commands ih =>
    have others := fun act id member => known act id (List.mem_cons_of_mem _ member)
    cases command with
    | announce event => exact ih others
    | call act id =>
      obtain ⟨unit, found⟩ := Registry.contains_iff.1 (known act id List.mem_cons_self)
      have names := setting_call (throughout_contains b).toWithin live act id
      have asked : askings (live.callStory b act id) = [(id, some act)] := by
        rw [callStory, found]
        exact congrArg ((id, some act) :: ·) (askings_of_outward (Stage.inward_changes ..))
      have others' : ∀ what other, .call what other ∈ commands →
          (live.call b act id).sequence.registry.contains other = true := fun what other member =>
        (names other).trans (others what other member)
      rw [executeStory, askings_append, asked, ih others']
      rfl

theorem askings_executeStory_of_none {commands : List Command}
    (none : Conductor.askings commands = []) (live : Live U) :
    askings (executeStory b commands live) = [] := by
  refine (askings_executeStory fun act id member => ?_).trans none
  have asks := List.filterMap_eq_nil_iff.1 none _ member
  cases asks

theorem askings_drainStory {live : Live U} (winding : live.conductor.phase ≠ .running) :
    askings (live.drainStory b) = [] ∧ (live.drain b).2.conductor.phase ≠ .running := by
  induction live using Live.drain.induct b with
  | case1 live none =>
    rw [drainStory_of_nil b live none, drain_of_nil b none]
    exact ⟨rfl, winding⟩
  | case2 live report rest queue done =>
    rename_i ih
    obtain ⟨none, after⟩ := Conductor.step_of_not_running winding report
    have same : done.2.conductor = (live.conductor.step report).2 := conductor_execute b _ _
    obtain ⟨later, last⟩ := ih (same ▸ after)
    rw [drainStory_of_cons b live queue, drain_of_cons b queue, askings_append, later, heedStory,
      askings_executeStory_of_none none]
    exact ⟨rfl, last⟩

theorem askings_driveStory (live : Live U) {decision : Decision}
    (known : ∀ act id, .call act id ∈ decision.commands → live.sequence.registry.contains id = true)
    (winding : live.conductor.phase ≠ .running) :
    askings (live.driveStory b decision) = Conductor.askings decision.commands ∧
      (live.drive b decision).2.conductor.phase ≠ .running := by
  have still : (execute b decision.commands live).2.conductor.phase ≠ .running := by
    rwa [conductor_execute]
  obtain ⟨none, after⟩ := askings_drainStory (b := b) still
  rw [driveStory, askings_append, none, List.append_nil]
  exact ⟨askings_executeStory known, after⟩

theorem askings_windDownStory {live : Live U}
    {decided : Decision × Conductor} (known : ∀ act id, .call act id ∈ decided.1.commands →
      live.sequence.registry.contains id = true) (winding : decided.2.phase ≠ .running) :
    askings (live.windDownStory b decided) = Conductor.askings decided.1.commands := by
  let driven := ((live.withConductor decided.2).drive b decided.1).2
  obtain ⟨asked, after⟩ := askings_driveStory (b := b) (live.withConductor decided.2) known winding
  obtain ⟨none, settled⟩ := Conductor.settle_of_not_running after
  have nobody : ∀ act id, .call act id ∈ driven.conductor.settle.1.commands →
      False := fun act id member => by
    cases List.filterMap_eq_nil_iff.1 none _ member
  obtain ⟨closing, -⟩ := askings_driveStory (b := b)
    (driven.withConductor driven.conductor.settle.2)
      (fun act id member => (nobody act id member).elim) settled
  rw [windDownStory, askings_append, asked, settleRunStory, closing, none, List.append_nil]

theorem deliveries_windDownStory (live : Live U) (decided : Decision × Conductor) :
    deliveries (live.windDownStory b decided) = [] := by
  simp only [windDownStory, settleRunStory, driveStory, deliveries_append, deliveries_executeStory,
    deliveries_drainStory, List.append_nil]

/-- If nothing is requested, nobody is asked once what is asked for is done, and what was announced
is delivered. -/
theorem Unasked.respond {live : Live U} (unasked : live.Unasked) {act : Act}
    (accepted : live.refuses act = false) (silent : requests (live.respondStory b act) = []) :
    askings (live.respondStory b act) = askings (live.obeyStory b act) ∧
    deliveries (live.respondStory b act) =
      deliveries (live.obeyStory b act) ++ (obey b act live).1 ∧
    live.respond b act =
      ((obey b act live).1, (obey b act live).2.deliver (obey b act live).1) := by
  rw [respondStory, accepted] at silent ⊢
  obtain ⟨obeying, publishing⟩ := requests_append_eq_nil.1 silent
  have after := (moves_obey b live act).unasked unasked obeying
  obtain ⟨delivering, -⟩ := requests_append_eq_nil.1 publishing
  have delivered : ((obey b act live).2.deliver (obey b act live).1).Unasked :=
    Stage.Unasked.announceAll after delivering
  have published : (obey b act live).2.publishStory b (obey b act live).1 =
      (obey b act live).2.deliverStory (obey b act live).1 := by
    rw [publishStory, (delivered.serve _).2, List.append_nil]
  have outside : askings ((obey b act live).2.deliverStory (obey b act live).1) = [] :=
    askings_of_outward (Stage.inward_announceAllStory ..)
  have told : deliveries ((obey b act live).2.deliverStory (obey b act live).1) =
      (obey b act live).1 :=
    Stage.deliveries_announceAllStory ..
  simp only [Bool.false_eq_true, ↓reduceIte, published, askings_append, deliveries_append, outside,
    told, List.append_nil, true_and]
  rw [Live.respond, accepted]
  exact after.publish publishing

/-! ### The order of starting -/

theorem summons_executeStory (live : Live U) {decision : Decision} (known : ∀ act id,
      .call act id ∈ decision.commands → live.sequence.registry.contains id = true) :
    summons (executeStory b decision.commands live) = decision.started := by
  rw [summons_eq, askings_executeStory known, Conductor.askings, List.filterMap_filterMap]
  refine List.filterMap_congr fun command _ => ?_
  cases command with
  | call act unit => cases act <;> rfl
  | announce event => rfl

/-- What plays is on the roll, in the order in which it was entered. -/
def InOrder (roll : List UnitId) (live : Live U) : Prop :=
  live.conductor.playing.units.Sublist roll.reverse

variable {live next : Live U} {called roll : List UnitId} {story : List Happening}

theorem InOrder.keep (listed : live.InOrder called)
    (entered : enrolAll called story = some roll) (silent : announcements story = [])
    (plays : next.conductor.playing.units.Sublist live.conductor.playing.units) :
    next.InOrder roll := by
  have going : .announced .ended ∉ story := by simp [← mem_announcements, silent]
  rw [InOrder, roll_of_going entered going]
  exact plays.trans (listed.trans (List.sublist_append_left ..))

theorem Move.inOrder (move : Move b live story next) (reached : live.Reached)
    (listed : live.InOrder called) (entered : enrolAll called story = some roll) :
    next.InOrder roll := by
  cases move with
  | decide operation performs queue =>
    let decided := (live.conductor.operate operation).1
    have plays := reached.conductor.playing_operate operation
    rw [InOrder, conductor_execute]
    by_cases ended : .announce .ended ∈ decided.commands
    · have none : (live.conductor.operate operation).2.playing.units = [] :=
        reached.conductor.playing_of_ended operation ended
      exact none.symm ▸ List.nil_sublist _
    · have going : .announced .ended ∉ executeStory b decided.commands
          (live.conducted (live.conductor.operate operation).2 queue) := by
        rw [← mem_announcements, announcements_executeStory, fst_execute b _ _ decided.closed]
        exact mt Conductor.mem_announced.1 ended
      have known : ∀ act id, .call act id ∈ decided.commands →
          live.sequence.registry.contains id = true := fun act id member =>
        reached.grounded.registered id (reached.conductor.called_mem operation member)
      have told := summons_executeStory (b := b)
        (live.conducted (live.conductor.operate operation).2 queue) known
      rw [roll_of_going entered going, told]
      exact plays.trans (listed.append_right _)
  | refuse _ refused =>
    have plays := reached.conductor.playing_operate .begin
    rw [Conductor.operate_begin_eq, refused] at plays
    exact listed.keep entered rfl
      (plays.trans (by simp [Except.toOption, Decision.nothing, Decision.started]))
  | tick delta id =>
    refine listed.keep entered ?_ ?_
    · rw [tickUnitStory]
      split
      · rfl
      · exact Stage.announcements_changes _ _ _
    · rw [conductor_tickUnit]
  | deliver events => exact listed.keep entered (announcements_deliverStory _ _) (.refl _)
  | take | enqueue => exact listed.keep entered rfl (.refl _)

theorem Moves.inOrder (moves : Moves b live story next) (reached : live.Reached)
    (listed : live.InOrder called) (entered : enrolAll called story = some roll) :
    next.InOrder roll := by
  induction moves generalizing called with
  | nil =>
    cases entered
    exact listed
  | cons now later ih =>
    rw [enrolAll_append, Option.bind_eq_some_iff] at entered
    obtain ⟨middle, first, rest⟩ := entered
    exact ih (now.reached reached) (now.inOrder reached listed first) rest

theorem playing_relate (grounded : live.sequence.Grounded) {cue : Cue U}
    (relates : cue.relates = true) :
    (live.onCue b cue).2.conductor.playing.units.Sublist live.conductor.playing.units := by
  obtain ⟨-, -, extended⟩ := extended_onCue b grounded relates
  rw [conductor, extended.conductor]
  exact .refl _

theorem inOrder_onCue (reached : live.Reached) (listed : live.InOrder called)
    (cue : Cue U) (entered : enrolAll called (live.cueStory b cue) = some roll) :
    (live.onCue b cue).2.InOrder roll := by
  cases cue with
  | add label unit => exact listed.keep entered rfl (.refl _)
  | meanwhile change => exact listed.keep entered (Stage.announcements_changes _ _ _) (.refl _)
  | play | together | sequential | sort =>
    exact listed.keep entered rfl (playing_relate reached.grounded rfl)
  | start | finish | cancel | tick | report | serve =>
    exact (moves_onCue b live _ rfl).inOrder reached listed entered

theorem inOrder_rehearse (reached : live.Reached) (listed : live.InOrder called)
    (cues : List (Cue U)) (entered : enrolAll called (live.rehearseStory b cues) = some roll) :
    (live.rehearse b cues).2.InOrder roll := by
  induction cues generalizing live called with
  | nil =>
    cases entered
    exact listed
  | cons cue rest ih =>
    rw [rehearseStory, List.cons_append, enrolAll_cons] at entered
    simp only [enrol, Option.bind_some] at entered
    rw [enrolAll_append, Option.bind_eq_some_iff] at entered
    obtain ⟨middle, first, later⟩ := entered
    exact ih (reached.onCue cue) (inOrder_onCue reached listed cue first) later

/-! ### Winding down -/

theorem respond_of_wound (reached : live.Reached) (unasked : live.Unasked) {act : Act}
    (accepted : live.refuses act = false) (silent : requests (live.respondStory b act) = [])
    (operation : Operation) {events : List Lifecycle}
    (story : live.obeyStory b act = live.windDownStory b (live.conductor.operate operation))
    (asks : Conductor.askings (live.conductor.operate operation).1.commands =
      live.conductor.playing.units.map fun unit => (unit, some act))
    (winding : (live.conductor.operate operation).2.phase ≠ .running)
    (outcome : (obey b act live).1 = events ∧ (obey b act live).2.conductor.phase = .idle) :
    askings (live.respondStory b act) =
      live.conductor.playing.units.map (fun unit => (unit, some act)) ∧
    deliveries (live.respondStory b act) = events ∧
    (live.respond b act).2.conductor.phase = .idle ∧
    (live.respond b act).2.conductor.playing.units = [] := by
  obtain ⟨asked, delivered, same⟩ := unasked.respond accepted silent
  have known : ∀ act id, .call act id ∈ (live.conductor.operate operation).1.commands →
      live.sequence.registry.contains id = true := fun act id member =>
    reached.grounded.registered id (reached.conductor.called_mem operation member)
  have coherent : (obey b act live).2.conductor.Coherent :=
    ((moves_obey b live act).reached reached).conductor.coherent
  rw [asked, delivered, same, story, askings_windDownStory known winding, asks,
    deliveries_windDownStory, outcome.1]
  exact ⟨rfl, rfl, outcome.2, (coherent.idle outcome.2).1⟩

/-- Whatever the units of a running sequence do and report when it is wound down, as long as nothing
is requested: each unit that plays is canceled, or ended, once and in the order in which they were
started in this run, and none is asked for anything else; the cancellation and the end, or just the
end, are delivered; and when the call comes back there is no run and nothing plays. -/
theorem winding_down (b : Behaviour U) (number : Nat) (stage : Stage) (cues : List (Cue U)) :
    let first : Live U := ⟨.empty number, stage⟩
    let live := (first.rehearse b cues).2
    let playing := live.conductor.playing.units
    live.conductor.phase = .running → live.Unasked →
    (playing.Nodup ∧ ∃ roll, enrolAll [] (first.rehearseStory b cues) = some roll ∧
      playing.Sublist roll.reverse) ∧
    (requests (live.respondStory b .cancel) = [] →
      askings (live.respondStory b .cancel) = playing.map (fun unit => (unit, some .cancel)) ∧
      deliveries (live.respondStory b .cancel) = [.canceled, .ended] ∧
      (live.cancel b).conductor.phase = .idle ∧ (live.cancel b).conductor.playing.units = []) ∧
    (requests (live.respondStory b .finish) = [] →
      askings (live.respondStory b .finish) = playing.map (fun unit => (unit, some .finish)) ∧
      deliveries (live.respondStory b .finish) = [.ended] ∧
      (live.finish b).conductor.phase = .idle ∧ (live.finish b).conductor.playing.units = []) := by
  intro first live playing running unasked
  have reached : live.Reached := (reached_empty number stage).rehearse cues
  obtain ⟨roll, entered⟩ :=
    enrols_rehearseStory (b := b) (reached_empty number stage) (Conductor.enrolled_nil _) cues
  have listed : first.InOrder [] := List.nil_sublist _
  refine ⟨⟨reached.conductor.coherent.nodup, roll, entered, inOrder_rehearse
    (reached_empty number stage) listed cues entered⟩, fun silent => ?_, fun silent => ?_⟩
  · obtain ⟨asks, phase⟩ := Conductor.cancelRun_of_running running
    obtain ⟨told, -, past⟩ := cancelRun_of_running b reached.conductor.coherent running
    exact respond_of_wound reached unasked rfl silent .cancel rfl asks
      (by simp [Conductor.operate, phase]) ⟨told, past⟩
  · obtain ⟨asks, phase⟩ := Conductor.endRun_of_running running
    obtain ⟨told, -, past⟩ := endRun_of_running b running
    exact respond_of_wound reached unasked rfl silent .finish rfl asks
      (by simp [Conductor.operate, phase]) ⟨told, past⟩

end Live

/-- Units that play until they are told to stop, and report their end then. -/
def biddable : Behaviour Unit where
  act act _ stage :=
    (match act with | .start => [.started] | .finish | .cancel => [.ended], (), stage)
  tick _ _ stage := (.ok [], (), stage)
  running _ := false
  timer _ := ()

namespace Live

/-- Two units play and a third one waits for the end of both. It is not told to start, although both
of them report their end when they are stopped. -/
theorem winding_down_biddable :
    let cues := [.add none (), .add none (), .add none (),
      .play (some ⟨0, 2⟩) [.after ⟨0, 0⟩, .after ⟨0, 1⟩], .start]
    let live := (Live.rehearse biddable cues ⟨.empty 0, Stage.bare⟩).2
    live.conductor.phase = .running ∧
      askings (live.respondStory biddable .cancel) =
        [(⟨0, 0⟩, some .cancel), (⟨0, 1⟩, some .cancel)] ∧
      deliveries (live.respondStory biddable .cancel) = [.canceled, .ended] ∧
      askings (live.respondStory biddable .finish) =
        [(⟨0, 0⟩, some .finish), (⟨0, 1⟩, some .finish)] ∧
      deliveries (live.respondStory biddable .finish) = [.ended] := by
  have wound := winding_down biddable 0 Stage.bare [.add none (), .add none (), .add none (),
    .play (some ⟨0, 2⟩) [.after ⟨0, 0⟩, .after ⟨0, 1⟩], .start] (by cbv) (by cbv)
  obtain ⟨-, canceled, ended⟩ := wound
  obtain ⟨asked, delivered, -⟩ := canceled (by cbv)
  obtain ⟨asked', delivered', -⟩ := ended (by cbv)
  exact ⟨by cbv, asked.trans (by cbv), delivered, asked'.trans (by cbv), delivered'⟩

end Live

end Choreo
