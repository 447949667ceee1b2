import Choreo.Proofs.Playback.Inscription

/-!
# The chronicle of a playback

What happens in a playback, deed by deed, each thing at the time that the clock shows then. Of a
scene the chronicle is what is written down. A playback that has an outcome tells one run from its
start to its end, and in it no unit is told to start twice.
-/

namespace Choreo

variable {U : Type} {b : Behaviour U}

open Happening

/-! ### What is announced is delivered -/

namespace Live

variable {live : Live U}

theorem deliveries_obeyStory (act : Act) : deliveries (live.obeyStory b act) = [] := by
  cases act with
  | start => exact deliveries_startRunStory b live
  | finish => exact deliveries_windDownStory live _
  | cancel => exact deliveries_windDownStory live _

theorem deliveries_tickUnitsStory (delta : Span) (units : List UnitId) :
    deliveries (live.tickUnitsStory b delta units) = [] := by
  induction units generalizing live with
  | nil => rfl
  | cons id units ih =>
    have unit : deliveries (live.tickUnitStory b delta id) = [] := by
      rw [tickUnitStory]
      split
      · rfl
      · exact Stage.deliveries_changes _ _ _
    rw [tickUnitsStory, deliveries_append, unit]
    rcases live.tickUnit b delta id with ⟨overflow | ⟨⟩, next⟩
    · rfl
    · exact ih

theorem deliveries_tickRunStory (delta : Span) : deliveries (live.tickRunStory b delta) = [] := by
  rw [tickRunStory]
  split
  · rfl
  · rw [deliveries_append, deliveries_tickUnitsStory]
    rcases live.tickUnits b delta live.conductor.playing.units with ⟨overflow | ⟨⟩, next⟩
    · rfl
    · exact deliveries_drainStory b next

/-- If nothing is requested, what is to be announced is delivered, and nothing else. -/
theorem Unasked.deliveries_publishStory (unasked : live.Unasked) {events : List Lifecycle}
    (silent : requests (live.publishStory b events) = []) :
    deliveries (live.publishStory b events) = events := by
  obtain ⟨delivering, -⟩ := requests_append_eq_nil.1 silent
  have delivered : (live.deliver events).Unasked := Stage.Unasked.announceAll unasked delivering
  rw [publishStory, (delivered.serve _).2, List.append_nil]
  exact Stage.deliveries_announceAllStory ..

theorem Unasked.deliveries_respondStory (unasked : live.Unasked) {act : Act}
    (silent : requests (live.respondStory b act) = []) :
    deliveries (live.respondStory b act) = announcements (live.respondStory b act) := by
  rw [announcements_respondStory, Live.respond]
  cases answer : live.refuses act with
  | true =>
    rw [respondStory, answer, deliveries_append, deliveries_obeyStory]
    exact (fst_obey_of_refuses b answer).symm
  | false =>
    obtain ⟨-, told, same⟩ := unasked.respond answer silent
    rw [Live.respond, answer] at same
    rw [told, deliveries_obeyStory]
    exact (congrArg Prod.fst same).symm

theorem Unasked.deliveries_tickStory (unasked : live.Unasked) {delta : Span}
    (silent : requests (live.tickStory b delta) = []) :
    deliveries (live.tickStory b delta) = announcements (live.tickStory b delta) := by
  have answer := unasked.tickAsUnit silent
  have after := (moves_tickRun b live delta).unasked unasked
  rw [announcements_tickStory, answer, tickStory, deliveries_append, deliveries_tickRunStory]
  rw [tickStory] at silent
  obtain ⟨ticking, publishing⟩ := requests_append_eq_nil.1 silent
  replace after := after ticking
  rcases reply : live.tickRun b delta with ⟨overflow | events, next⟩
  · rfl
  · rw [reply] at after publishing
    exact after.deliveries_publishStory publishing

end Live

namespace Playback

open Live

/-- What happens while these deeds are done, each thing with the time that the clock shows then. -/
def chronicle (b : Behaviour U) : List Deed → Live U → List (Span × Happening)
  | [], _ => []
  | deed :: rest, live =>
    (live.cueStory b deed.cue).map (Prod.mk (now live)) ++
      chronicle b rest (live.onCue b deed.cue).2

theorem chronicle_append (deeds more : List Deed) (live : Live U) :
    chronicle b (deeds ++ more) live =
      chronicle b deeds live ++ chronicle b more (enact b deeds live) := by
  induction deeds generalizing live with
  | nil => rfl
  | cons deed deeds ih =>
    rw [List.cons_append, chronicle, chronicle, ih, List.append_assoc, enact_cons]

/-- What happens while these deeds are done, in order. -/
def story (b : Behaviour U) (deeds : List Deed) (live : Live U) : List Happening :=
  (chronicle b deeds live).map Prod.snd

theorem story_cons (deed : Deed) (deeds : List Deed) (live : Live U) :
    story b (deed :: deeds) live =
    live.cueStory b deed.cue ++ story b deeds (live.onCue b deed.cue).2 := by
  rw [story, chronicle, List.map_append, List.map_map, story]
  exact congrArg (· ++ _) (List.map_id _)

theorem story_append (deeds more : List Deed) (live : Live U) :
    story b (deeds ++ more) live = story b deeds live ++ story b more (enact b deeds live) := by
  rw [story, chronicle_append, List.map_append, story, story]

theorem channels_windOn (delta : Span) (stage : Stage) :
    (stage.windOn delta).channels = stage.channels := by
  rw [Stage.windOn]
  split <;> rfl

theorem cueStory_clock (delta : Span) (live : Live U) :
    live.cueStory b (Deed.clock delta).cue = [] :=
  Stage.changes_of_channels _ (channels_windOn delta live.stage)

theorem story_advanceDeeds (delta : Span) (live : Live U) :
    story b (advanceDeeds delta live) live = advanceStory b delta live := by
  rw [advanceDeeds, story_cons, cueStory_clock, List.nil_append, advanceStory, Deed.cue, onCue]
  simp only [Stage.windOn]
  cases live.stage.recording.advance delta with
  | error overflow => rfl
  | ok recording =>
    rw [story_cons]
    exact List.append_nil _

theorem story_goOnDeeds (options : PlaybackOptions) (rounds : Nat) (live : Live U) :
    story b (goOnDeeds b options rounds live) live = goOnStory b options rounds live := by
  induction rounds generalizing live with
  | zero =>
    rw [goOnDeeds, goOnStory]
    split
    · rfl
    · split
      · exact (story_cons ..).trans (List.append_nil _)
      · rfl
  | succ rounds ih =>
    rw [goOnDeeds, goOnStory]
    split
    · rfl
    · split
      · exact (story_cons ..).trans (List.append_nil _)
      · rw [story_append, story_advanceDeeds, enact_advanceDeeds]
        rcases advance b options.tick live with ⟨overflow | ⟨⟩, next⟩
        · rfl
        · rw [ih]

/-- Plays a sequence on a virtual clock for at most so many rounds. A clock that stands still never
comes to the cap, and how many rounds it takes until the run is over depends on the units alone. -/
def playFor (b : Behaviour U) (options : PlaybackOptions) (rounds : Nat) (live : Live U) :
    Except Failure Outcome × Live U :=
  match live.start b with
  | (.error refusal, next) => (.error (.refused refusal), next)
  | (.ok (), next) => goOn b options rounds 0 next

theorem virtual_eq_playFor (options : PlaybackOptions) (live : Live U) : virtual b options live =
    playFor b options (stepsToCap options (now (live.start b).2)) live := by
  rw [virtual, playFor]
  rcases live.start b with ⟨refusal | ⟨⟩, next⟩ <;> rfl

/-- A playback that has begun is not refused any more. -/
theorem goOn_ne_refused (options : PlaybackOptions) (rounds ticks : Nat) (live : Live U)
    (refusal : Refusal) :
    (goOn b options rounds ticks live).1 ≠ .error (.refused refusal) := by
  induction rounds generalizing ticks live with
  | zero =>
    rw [goOn]
    split
    · simp
    · split <;> simp
  | succ rounds ih =>
    rw [goOn]
    split
    · simp
    · split
      · simp
      · rcases advance b options.tick live with ⟨overflow | ⟨⟩, next⟩
        · simp
        · exact ih (ticks + 1) next

/-- What is done to play a sequence for at most so many rounds. -/
def playDeeds (b : Behaviour U) (options : PlaybackOptions) (rounds : Nat) (live : Live U) :
    List Deed :=
  .start ::
    match live.start b with
    | (.error _, _) => []
    | (.ok (), next) => goOnDeeds b options rounds next

theorem enact_playDeeds (options : PlaybackOptions) (rounds : Nat) (live : Live U) :
    enact b (playDeeds b options rounds live) live = (playFor b options rounds live).2 := by
  have started : (live.onCue b Deed.start.cue).2 = (live.start b).2 := rfl
  rw [playDeeds, enact_cons, started, playFor]
  rcases live.start b with ⟨refusal | ⟨⟩, next⟩
  · rfl
  · exact enact_goOnDeeds options rounds 0 next

theorem story_playDeeds {options : PlaybackOptions} {rounds : Nat} {live next : Live U}
    (started : live.start b = (.ok (), next)) : story b (playDeeds b options rounds live) live =
      live.respondStory b .start ++ goOnStory b options rounds next := by
  have after : (live.onCue b Deed.start.cue).2 = (live.start b).2 := rfl
  rw [playDeeds, story_cons, after, started]
  exact congrArg (live.respondStory b .start ++ ·) (story_goOnDeeds options rounds next)

/-! ### Whoever is told to start -/

theorem enrols_story {called : List UnitId} {live : Live U} (reached : live.Reached)
    (enrolled : live.conductor.Enrolled called) (deeds : List Deed) :
    Enrols called (story b deeds live) (enact b deeds live) := by
  induction deeds generalizing called live with
  | nil => exact ⟨called, rfl, reached.conductor, enrolled⟩
  | cons deed deeds ih =>
    obtain ⟨roll, entered, -, enrolled'⟩ := enrols_cueStory (b := b) reached enrolled deed.cue
    obtain ⟨last, more, after⟩ := ih (reached.onCue deed.cue) enrolled'
    refine ⟨last, ?_, after⟩
    rw [story_cons, enrolAll_append, entered]
    exact more

/-- If a story clears the roll and tells of one end at most, no unit is told to start twice in
it. -/
theorem nodup_summons_of_closed {story : List Happening} (entered : enrolAll [] story = some [])
    (once : (announcements story).count .ended ≤ 1) : (summons story).Nodup := by
  by_cases going : .announced .ended ∈ story
  · obtain ⟨before, after, rfl, first⟩ := List.eq_append_cons_of_mem going
    rw [enrolAll_append, Option.bind_eq_some_iff] at entered
    obtain ⟨roll, earlier, later⟩ := entered
    rw [enrolAll_cons] at later
    -- what comes after the end would stay on the roll
    have last : .announced .ended ∉ after := fun again => by
      have twice : .ended ∈ announcements after := List.mem_filterMap.2 ⟨_, again, rfl⟩
      have some := List.count_pos_iff.2 twice
      rw [announcements_append, List.count_append] at once
      have head : announcements (.announced .ended :: after) = .ended :: announcements after := rfl
      rw [head, List.count_cons_self] at once
      omega
    have none := roll_of_going later last
    rw [List.reverse_nil, List.nil_append] at none
    have split : summons (before ++ .announced .ended :: after) = summons before := by
      rw [summons_append]
      exact (congrArg (summons before ++ ·) none.symm).trans (List.append_nil _)
    rw [split]
    exact (nodup_summons earlier first).1
  · exact (nodup_summons entered going).1

/-! ### What comes back -/

/-- Each of these deeds comes back. -/
def Returns (b : Behaviour U) (deeds : List Deed) (live : Live U) : Prop :=
  ∀ outcome ∈ (live.rehearse b (deeds.map Deed.cue)).1, outcome.returns = true

theorem returns_cons {deed : Deed} {deeds : List Deed} {live : Live U} :
    Returns b (deed :: deeds) live ↔
    (live.onCue b deed.cue).1.returns = true ∧ Returns b deeds (live.onCue b deed.cue).2 :=
  List.forall_mem_cons

theorem Returns.append {deeds more : List Deed} {live : Live U} (one : Returns b deeds live)
    (two : Returns b more (enact b deeds live)) : Returns b (deeds ++ more) live := by
  induction deeds generalizing live with
  | nil => exact two
  | cons deed deeds ih =>
    obtain ⟨first, rest⟩ := returns_cons.1 one
    exact returns_cons.2 ⟨first, ih rest two⟩

theorem returns_nil (live : Live U) : Returns b [] live := fun _ member => by cases member

theorem returns_advanceDeeds {delta : Span} {live : Live U}
    (fits : (advance b delta live).1 = .ok ()) :
    Returns b (advanceDeeds delta live) live := by
  rw [advanceDeeds, returns_cons]
  refine ⟨rfl, ?_⟩
  rw [advance] at fits
  rw [Deed.cue, onCue]
  simp only [Stage.windOn]
  cases moved : live.stage.recording.advance delta with
  | error overflow => exact returns_nil _
  | ok recording =>
    rw [moved] at fits
    refine returns_cons.2 ⟨?_, returns_nil _⟩
    rw [Deed.cue, onCue]
    exact Outcome.returns_ofTick.2 ⟨(), fits⟩

variable {options : PlaybackOptions} {rounds ticks : Nat} {live final : Live U}
  {outcome : Playback.Outcome}

theorem returns_goOnDeeds (played : goOn b options rounds ticks live = (.ok outcome, final)) :
    Returns b (goOnDeeds b options rounds live) live := by
  induction rounds generalizing ticks live with
  | zero =>
    rw [goOnDeeds]
    split
    · exact returns_nil _
    · split
      · exact returns_cons.2 ⟨rfl, returns_nil _⟩
      · exact returns_nil _
  | succ rounds ih =>
    rw [goOn] at played
    rw [goOnDeeds]
    split
    · exact returns_nil _
    · next going =>
      rw [if_neg going] at played
      split
      · exact returns_cons.2 ⟨rfl, returns_nil _⟩
      · next early =>
        rw [if_neg early] at played
        cases step : advance b options.tick live with
        | mk answer next =>
          rw [step] at played
          cases answer with
          | error overflow => cases played
          | ok =>
            have fits : (advance b options.tick live).1 = .ok () := by rw [step]
            refine (returns_advanceDeeds fits).append ?_
            rw [enact_advanceDeeds, step]
            exact ih played

/-- In a playback that has an outcome every deed comes back. -/
theorem returns_playDeeds (played : playFor b options rounds live = (.ok outcome, final)) :
    Returns b (playDeeds b options rounds live) live := by
  rw [playFor] at played
  rw [playDeeds, returns_cons]
  have started : (live.onCue b Deed.start.cue).2 = (live.start b).2 := rfl
  rw [started]
  cases began : live.start b with
  | mk answer next =>
    rw [began] at played
    cases answer with
    | error refusal => cases played
    | ok =>
      refine ⟨?_, returns_goOnDeeds played⟩
      rw [Deed.cue, onCue, began]
      rfl

/-! ### One run from its start to its end -/

/-- When a playback comes to its end the run is over. It was canceled just if it was still going on
after the steps that were taken, when the clock had reached the cap, and what is announced from
there on is as it should be. -/
theorem goOn_closes (timeless : b.Timeless) (rested : live.Rested)
    (silent : requests (goOnStory b options rounds live) = [])
    (played : goOn b options rounds ticks live = (.ok outcome, final)) :
    final.conductor.phase = .idle ∧
    (live.conductor.phase = .idle → announcements (goOnStory b options rounds live) = [] ∧
      outcome.canceled = false) ∧
    (live.conductor.phase = .running →
      .started :: announcements (goOnStory b options rounds live) = bracket outcome.canceled) ∧
    ∃ steps, outcome.ticks = ticks + steps ∧ (outcome.canceled = true ↔
      (stepped b options.tick steps live).conductor.phase = .running ∧
        options.cap.ns ≤ (now (stepped b options.tick steps live)).ns) := by
  -- the rounds that are left matter only where a step is taken
  induction rounds using Nat.strongRecOn generalizing ticks live with | ind rounds ih => ?_
  rcases rested.calm.phase with idle | running
  · obtain ⟨result, story⟩ := goOn_of_idle (b := b) idle options rounds ticks
    rw [result] at played
    cases played
    rw [story]
    refine ⟨idle, fun _ => ⟨rfl, rfl⟩, fun running => ?_, 0, rfl, ?_⟩
    · cases idle.symm.trans running
    · simp [stepped, idle]
  by_cases capped : options.cap.ns ≤ (now live).ns
  · obtain ⟨result, story⟩ := goOn_of_capped (b := b) running capped rounds ticks
    rw [result] at played
    cases played
    rw [story] at silent ⊢
    obtain ⟨past, told⟩ := rested.cancel running silent
    refine ⟨past, fun idle => ?_, fun _ => ?_, 0, rfl, ?_⟩
    · cases running.symm.trans idle
    · rw [told]
      rfl
    · simp [stepped, running, capped]
  cases rounds with
  | zero =>
    have going : ¬ live.sequence.isIdle = true := by simp [Sequence.isIdle_of_running running]
    rw [goOn, if_neg going, if_neg capped] at played
    cases played
  | succ rounds =>
    obtain ⟨result, story⟩ := goOn_of_early (b := b) running (Nat.not_le.1 capped) rounds ticks
    rw [result] at played
    rw [story] at silent ⊢
    obtain ⟨quiet, silent⟩ := requests_append_eq_nil.1 silent
    cases step : advance b options.tick live with
    | mk answer next =>
      rw [step] at played silent
      cases answer with
      | error overflow => cases played
      | ok =>
        have fits : (advance b options.tick live).1 = .ok () := by rw [step]
        obtain ⟨other, same, rested', -, outcome⟩ :=
          advance_of_running timeless rested running quiet fits
        obtain rfl : other = next := (congrArg Prod.snd same).symm.trans (congrArg Prod.snd step)
        obtain ⟨past, still, going, steps, count, hit⟩ :=
          ih rounds (Nat.lt_succ_self rounds) rested' silent played
        have later : stepped b options.tick (steps + 1) live =
            stepped b options.tick steps other := by
          rw [stepped, step]
        refine ⟨past, fun idle => ?_, fun _ => ?_, steps + 1, by omega, later ▸ hit⟩
        · cases running.symm.trans idle
        · rw [announcements_append]
          rcases outcome with ⟨nothing, running'⟩ | ⟨ended, idle⟩
          · rw [nothing]
            exact going running'
          · obtain ⟨rest, self⟩ := still idle
            rw [ended, rest, self]
            rfl

/-- A playback that has an outcome tells of one run. -/
theorem playFor_closes (timeless : b.Timeless) (rested : live.Rested)
    (idle : live.conductor.phase = .idle) (acyclic : Graph.Acyclic live.conductor.graph.nodes)
    (silent : requests (story b (playDeeds b options rounds live) live) = [])
    (played : playFor b options rounds live = (.ok outcome, final)) :
    let reached := stepped b options.tick outcome.ticks (live.start b).2
    final.conductor.phase = .idle ∧
      announcements (story b (playDeeds b options rounds live) live) = bracket outcome.canceled ∧
      (outcome.canceled = true ↔ reached.conductor.phase = .running ∧
        options.cap.ns ≤ (now reached).ns) := by
  intro reached
  rw [playDeeds, story_cons] at silent
  obtain ⟨next, started, rested', told⟩ :=
    rested.start idle acyclic (requests_append_eq_nil.1 silent).1
  rw [← story_cons, ← playDeeds, story_playDeeds started] at silent
  rw [playFor, started] at played
  obtain ⟨past, still, on, steps, count, hit⟩ :=
    goOn_closes timeless rested' (requests_append_eq_nil.1 silent).2 played
  have same : reached = stepped b options.tick steps next := by
    simp only [reached]
    rw [count, Nat.zero_add, started]
  rw [same, story_playDeeds started, announcements_append]
  refine ⟨past, ?_, hit⟩
  rcases told with ⟨told, running⟩ | ⟨told, idle'⟩
  · rw [told]
    exact on running
  · obtain ⟨rest, self⟩ := still idle'
    rw [told, rest, self]
    rfl

end Playback

end Choreo
