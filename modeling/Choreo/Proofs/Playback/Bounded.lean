import Mathlib.Algebra.Order.Floor.Div
import Choreo.Proofs.Sequence.Refusal
import Choreo.Proofs.Sequence.WindingDown
import Choreo.Proofs.World.Timeless

/-!
# A playback comes to its end

The loop of a playback goes on as long as the run does, and units may never let a run end. But the
clock moves on by one tick in each round, and a run that still goes on when the clock has reached
the cap is canceled, which is the end of it whatever the units do. So there are at most as many
rounds as ticks fit in before the cap, and what is reported of the clock, the ticks and the
cancellation is what happened.
-/

namespace Choreo

variable {U : Type} {b : Behaviour U}

open Happening

namespace Playback

/-- What happens in one step of the clock. -/
def advanceStory (b : Behaviour U) (delta : Span) (live : Live U) : List Happening :=
  match live.stage.recording.advance delta with
  | .error _ => []
  | .ok recording => Live.tickStory b delta { live with stage := { live.stage with recording } }

def goOnStory (b : Behaviour U) (options : PlaybackOptions) : Nat → Live U → List Happening
  | rounds, live =>
    if live.sequence.isIdle then []
    else if options.cap.ns ≤ (now live).ns then live.respondStory b .cancel
    else
      match rounds with
      | 0 => []
      | rounds + 1 =>
        advanceStory b options.tick live ++
          match advance b options.tick live with
          | (.error _, _) => []
          | (.ok (), next) => goOnStory b options rounds next

/-- What happens while a sequence is played on a virtual clock. -/
def virtualStory (b : Behaviour U) (options : PlaybackOptions) (live : Live U) : List Happening :=
  live.respondStory b .start ++
    match live.start b with
    | (.error _, _) => []
    | (.ok (), next) => goOnStory b options (stepsToCap options (now next)) next

/-- The sequence after so many steps of the clock. -/
def stepped (b : Behaviour U) (delta : Span) : Nat → Live U → Live U
  | 0, live => live
  | steps + 1, live => stepped b delta steps (advance b delta live).2

/-! ### The number of steps -/

theorem stepsToCap_eq {options : PlaybackOptions} (positive : 0 < options.tick.ns) (start : Span) :
    stepsToCap options start = (options.cap.ns - start.ns) ⌈/⌉ options.tick.ns := by
  rw [stepsToCap, Nat.ceilDiv_eq_add_pred_div, Nat.add_sub_assoc positive]

theorem stepsToCap_eq_zero {options : PlaybackOptions} (positive : 0 < options.tick.ns)
    {start : Span} :
    stepsToCap options start = 0 ↔ options.cap.ns ≤ start.ns := by
  rw [stepsToCap, Nat.div_eq_zero_iff_lt positive]
  omega

theorem stepsToCap_succ {options : PlaybackOptions}
    (positive : 0 < options.tick.ns) {start next : Span} (early : start.ns < options.cap.ns)
    (later : next.ns = start.ns + options.tick.ns) :
    stepsToCap options start = stepsToCap options next + 1 := by
  have whole : options.cap.ns - start.ns + (options.tick.ns - 1) =
      (options.cap.ns - start.ns - 1) + options.tick.ns := by omega
  rw [stepsToCap, stepsToCap, whole, Nat.add_div_right _ positive, later]
  rcases Nat.lt_or_ge (options.cap.ns - start.ns) options.tick.ns with last | more
  · -- the last step goes beyond the cap, so nothing of the distance is left
    rw [Nat.div_eq_of_lt (by omega), Nat.div_eq_of_lt (by omega)]
  · congr 2
    omega

end Playback

/-! ### One step -/

namespace Live

/-- A sequence between two calls, of which nothing is requested. -/
structure Rested (live : Live U) : Prop where
  reached : live.Reached
  calm : live.Calm
  unasked : live.Unasked

variable {live : Live U}

/-- A call that requests nothing and is not refused leaves the sequence rested as before, and what
is announced at it is what it does on its own account. -/
theorem Rested.respond (rested : live.Rested) {act : Act} (accepted : live.refuses act = false)
    (silent : requests (live.respondStory b act) = []) :
    (live.respond b act).2.Rested ∧ announcements (live.respondStory b act) = (obey b act live).1 ∧
      (live.respond b act).2.conductor = (obey b act live).2.conductor := by
  obtain ⟨-, -, same⟩ := rested.unasked.respond accepted silent
  have moves := moves_respond b live act
  refine ⟨⟨moves.reached rested.reached, calm_respond b rested.calm act,
    moves.unasked rested.unasked silent⟩, ?_, ?_⟩
  · rw [announcements_respondStory, same]
  · rw [same]
    rfl

theorem Rested.cancel (rested : live.Rested) (running : live.conductor.phase = .running)
    (silent : requests (live.respondStory b .cancel) = []) :
    (live.cancel b).conductor.phase = .idle ∧
      announcements (live.respondStory b .cancel) = [.canceled, .ended] := by
  obtain ⟨-, told, same⟩ := rested.respond rfl silent
  obtain ⟨events, -, past⟩ := cancelRun_of_running b rested.reached.conductor.coherent running
  exact ⟨(congrArg Conductor.phase same).trans past, told.trans events⟩

theorem Rested.start (rested : live.Rested) (idle : live.conductor.phase = .idle)
    (acyclic : Graph.Acyclic live.conductor.graph.nodes)
    (silent : requests (live.respondStory b .start) = []) :
    ∃ next, live.start b = (.ok (), next) ∧ next.Rested ∧
      (announcements (live.respondStory b .start) = [.started] ∧ next.conductor.phase = .running ∨
        announcements (live.respondStory b .start) = [.started, .ended] ∧
          next.conductor.phase = .idle) := by
  have answer := start_of_acyclic b rested.reached.conductor.sound acyclic
  rcases startRun_of_idle b idle with ⟨refused, -⟩ | ⟨accepted, events, next, started, -, outcome⟩
  · obtain ⟨cycle, refusal⟩ := refuses_start_iff.1 refused
    obtain ⟨decision, conductor, begun⟩ :=
      Conductor.begin_of_acyclic rested.reached.conductor.sound acyclic
    rw [begun] at refusal
    cases refusal
  · obtain ⟨rested', told, same⟩ := rested.respond accepted silent
    have result : obey b .start live = (events, next) := by rw [obey, started]
    refine ⟨(live.respond b .start).2, Prod.ext answer (live.snd_start b), rested', ?_⟩
    rw [told, same, result]
    exact outcome

theorem Rested.tick (rested : live.Rested) (running : live.conductor.phase = .running)
    {delta : Span} (silent : requests (live.tickStory b delta) = [])
    (fits : (live.tick b delta).1 = .ok ()) :
    (live.tick b delta).2.Rested ∧
      (announcements (live.tickStory b delta) = [] ∧
        (live.tick b delta).2.conductor.phase = .running ∨
        announcements (live.tickStory b delta) = [.ended] ∧
          (live.tick b delta).2.conductor.phase = .idle) := by
  have moves := moves_tick b live delta
  have passed := tickRun_of_running b delta running
  have calm := calm_tick b rested.calm (Prod.ext fits rfl)
  rw [announcements_tickStory]
  rw [tick_eq] at fits calm ⊢
  refine ⟨⟨moves.reached rested.reached, calm, moves.unasked rested.unasked silent⟩, ?_⟩
  have answer := rested.unasked.tickAsUnit silent
  rcases reply : live.tickRun b delta with ⟨overflow | events, next⟩
  · rw [answer, reply] at fits
    cases fits
  · rw [reply] at passed answer
    rw [answer]
    exact passed.2.imp id fun ended => ⟨ended.1, ended.2.1⟩

theorem Rested.tick_of_idle (rested : live.Rested) (idle : live.conductor.phase = .idle)
    (delta : Span) :
    (live.tick b delta).2 = live := by
  rw [Live.tick, tickRun_of_idle b delta idle]
  exact congrArg Prod.snd rested.unasked.publish_nil.1

end Live

namespace Playback

open Live

variable {delta : Span} {live : Live U}

theorem advance_cases (b : Behaviour U) (delta : Span) (live : Live U) :
    (advance b delta live).1 = .error .sumTooLong ∧ (advance b delta live).2 = live ∨
    ∃ moved : Live U, moved.conductor = live.conductor ∧ (now moved).ns = (now live).ns + delta.ns ∧
      (live.Rested → moved.Rested) ∧ advance b delta live = moved.tick b delta ∧
      advanceStory b delta live = moved.tickStory b delta := by
  rw [advance, advanceStory, Recording.advance]
  cases sum : live.stage.recording.now.add delta with
  | error overflow =>
    cases overflow
    exact .inl ⟨rfl, rfl⟩
  | ok time =>
    let recording : Recording := { live.stage.recording with now := time }
    refine .inr ⟨{ live with stage := { live.stage with recording } }, rfl, Span.add_eq_ok.1 sum,
      fun rested => ?_, rfl, rfl⟩
    exact ⟨⟨rested.reached.grounded, rested.reached.conductor⟩,
      ⟨rested.calm.phase, rested.calm.empty⟩, rested.unasked⟩

theorem now_onCue (timeless : b.Timeless) (live : Live U) (cue : Cue U) (calls : cue.calls = true) :
    now (live.onCue b cue).2 = now live :=
  setting_onCue timeless.throughout live calls

theorem advance_of_running (timeless : b.Timeless) (rested : live.Rested)
    (running : live.conductor.phase = .running) (silent : requests (advanceStory b delta live) = [])
    (fits : (advance b delta live).1 = .ok ()) :
    ∃ next, advance b delta live = (.ok (), next) ∧ next.Rested ∧
      (now next).ns = (now live).ns + delta.ns ∧
      (announcements (advanceStory b delta live) = [] ∧ next.conductor.phase = .running ∨
        announcements (advanceStory b delta live) = [.ended] ∧ next.conductor.phase = .idle) := by
  rcases advance_cases b delta live with ⟨failed, -⟩ | ⟨moved, same, clock, still, answer, story⟩
  · cases failed.symm.trans fits
  · rw [answer] at fits
    rw [story] at silent ⊢
    obtain ⟨rested', outcome⟩ := (still rested).tick (same ▸ running) silent fits
    have same := now_onCue timeless moved (.tick delta) rfl
    exact ⟨(moved.tick b delta).2, answer.trans (Prod.ext fits rfl), rested',
      (congrArg Span.ns same).trans clock, outcome⟩

theorem stepped_of_idle (rested : live.Rested) (idle : live.conductor.phase = .idle) (steps : Nat) :
    (stepped b delta steps live).conductor.phase = .idle := by
  induction steps generalizing live with
  | zero => exact idle
  | succ steps ih =>
    rw [stepped]
    rcases advance_cases b delta live with ⟨-, same⟩ | ⟨moved, same, -, still, answer, -⟩
    · rw [same]
      exact ih rested idle
    · have idle' : moved.conductor.phase = .idle := by rw [same, idle]
      rw [answer, (still rested).tick_of_idle idle']
      exact ih (still rested) idle'

/-! ### The loop -/

/-- How the loop comes to its end: after so many steps, before each of which the run went on. If it
still goes on when as many steps have been taken as fit in before the cap, it is canceled then, and
otherwise it was over by itself after the last of them. -/
structure Ends (b : Behaviour U) (options : PlaybackOptions) (live : Live U)
    (story : List Happening) (steps : Nat) (canceled : Bool) (final : Live U) : Prop where
  idle : final.conductor.phase = .idle
  clock : (now final).ns = (now live).ns + steps * options.tick.ns
  within : steps ≤ stepsToCap options (now live)
  active : ∀ k < steps, (stepped b options.tick k live).conductor.phase ≠ .idle
  canceled_iff : canceled = true ↔
    (stepped b options.tick (stepsToCap options (now live)) live).conductor.phase ≠ .idle
  capped : canceled = true → steps = stepsToCap options (now live) ∧ options.cap.ns ≤ (now final).ns
  closed : canceled = false → (stepped b options.tick steps live).conductor.phase = .idle
  told : (live.conductor.phase = .idle → announcements story = [] ∧ canceled = false) ∧
    (live.conductor.phase = .running → .started :: announcements story = bracket canceled)

theorem ends_of_idle (rested : live.Rested) (idle : live.conductor.phase = .idle)
    (options : PlaybackOptions) :
    Ends b options live [] 0 false live := by
  have past : ∀ steps, (stepped b options.tick steps live).conductor.phase = .idle :=
    stepped_of_idle rested idle
  refine ⟨idle, by simp, Nat.zero_le _, fun k early => absurd early (Nat.not_lt_zero k), ?_,
    ?_, ?_, ?_⟩
  · simp [past]
  · exact fun impossible => by cases impossible
  · exact fun _ => idle
  · exact ⟨fun _ => ⟨rfl, rfl⟩, fun running => (by cases idle.symm.trans running)⟩

theorem ends_of_capped (timeless : b.Timeless)
    (rested : live.Rested) {options : PlaybackOptions} (positive : 0 < options.tick.ns)
    (running : live.conductor.phase = .running) (capped : options.cap.ns ≤ (now live).ns)
    (silent : requests (live.respondStory b .cancel) = []) :
    Ends b options live (live.respondStory b .cancel) 0 true (live.cancel b) := by
  obtain ⟨past, told⟩ := rested.cancel running silent
  have none := (stepsToCap_eq_zero positive).2 capped
  have still : now (live.cancel b) = now live := now_onCue timeless live .cancel rfl
  refine ⟨past, ?_, Nat.zero_le _, fun k early => absurd early (Nat.not_lt_zero k), ?_, ?_, ?_, ?_⟩
  · rw [still]
    simp
  · rw [none, stepped, running]
    simp
  · rw [still]
    exact fun _ => ⟨none.symm, capped⟩
  · exact fun impossible => by cases impossible
  · refine ⟨fun idle => ?_, fun _ => ?_⟩
    · cases running.symm.trans idle
    · rw [told]
      rfl

theorem Ends.step {options : PlaybackOptions} {next final : Live U} {story more : List Happening}
    {steps : Nat}
    {canceled : Bool} (ends : Ends b options next more steps canceled final)
    (running : live.conductor.phase = .running) (after : (advance b options.tick live).2 = next)
    (clock : (now next).ns = (now live).ns + options.tick.ns)
    (left : stepsToCap options (now live) = stepsToCap options (now next) + 1)
    (outcome : announcements story = [] ∧ next.conductor.phase = .running ∨
      announcements story = [.ended] ∧ next.conductor.phase = .idle) :
    Ends b options live (story ++ more) (steps + 1) canceled final := by
  have later : ∀ k, stepped b options.tick (k + 1) live =
      stepped b options.tick k next := fun k => by
    rw [stepped, after]
  refine ⟨ends.idle, ?_, ?_, fun k early => ?_, ?_, fun cut => ?_, fun self => ?_, ?_, fun _ => ?_⟩
  · rw [ends.clock, clock, Nat.succ_mul]
    omega
  · rw [left]
    exact Nat.succ_le_succ ends.within
  · cases k with
    | zero => simp [stepped, running]
    | succ k =>
      rw [later]
      exact ends.active k (Nat.lt_of_succ_lt_succ early)
  · rw [left, later]
    exact ends.canceled_iff
  · rw [left, (ends.capped cut).1]
    exact ⟨rfl, (ends.capped cut).2⟩
  · rw [later]
    exact ends.closed self
  · exact fun idle => by cases running.symm.trans idle
  · rw [announcements_append]
    rcases outcome with ⟨silent, going⟩ | ⟨ended, past⟩
    · rw [silent]
      exact ends.told.2 going
    · obtain ⟨nothing, self⟩ := ends.told.1 past
      rw [ended, nothing, self]
      rfl

theorem goOn_of_idle (idle : live.conductor.phase = .idle) (options : PlaybackOptions)
    (rounds ticks : Nat) :
    goOn b options rounds ticks live = (.ok ⟨now live, ticks, false⟩, live) ∧
      goOnStory b options rounds live = [] := by
  have none : live.sequence.isIdle = true := Sequence.isIdle_iff.2 idle
  rw [goOn.eq_def, goOnStory.eq_def]
  simp only [none, ↓reduceIte, and_self]

theorem goOn_of_capped {options : PlaybackOptions} (running : live.conductor.phase = .running)
    (capped : options.cap.ns ≤ (now live).ns) (rounds ticks : Nat) :
    goOn b options rounds ticks live = (.ok ⟨now (live.cancel b), ticks, true⟩, live.cancel b) ∧
      goOnStory b options rounds live = live.respondStory b .cancel := by
  rw [goOn.eq_def, goOnStory.eq_def]
  simp only [Sequence.isIdle_of_running running, capped, Bool.false_eq_true, ↓reduceIte, and_self]

theorem goOn_of_early {options : PlaybackOptions} (running : live.conductor.phase = .running)
    (early : (now live).ns < options.cap.ns) (rounds ticks : Nat) :
    goOn b options (rounds + 1) ticks live =
      (match advance b options.tick live with
      | (.error overflow, next) => (.error (.overflow overflow), next)
      | (.ok (), next) => goOn b options rounds (ticks + 1) next) ∧
    goOnStory b options (rounds + 1) live =
      advanceStory b options.tick live ++
        match advance b options.tick live with
        | (.error _, _) => []
        | (.ok (), next) => goOnStory b options rounds next := by
  have going : ¬ live.sequence.isIdle = true := by simp [Sequence.isIdle_of_running running]
  have before := Nat.not_le.2 early
  rw [goOn.eq_def, goOnStory.eq_def]
  exact ⟨(if_neg going).trans (if_neg before), (if_neg going).trans (if_neg before)⟩

/-- The loop, by induction on the steps that are left until the cap. -/
theorem goOn_ends (timeless : b.Timeless) {options : PlaybackOptions}
    (positive : 0 < options.tick.ns)
    {rounds : Nat} (ticks : Nat) (rested : live.Rested)
    (left : stepsToCap options (now live) = rounds)
    (silent : requests (goOnStory b options rounds live) = [])
    (fits : ∀ k < rounds, (stepped b options.tick k live).conductor.phase ≠ .idle →
      (advance b options.tick (stepped b options.tick k live)).1 = .ok ()) :
    ∃ steps canceled final,
      goOn b options rounds ticks live = (.ok ⟨now final, ticks + steps, canceled⟩, final) ∧
      Ends b options live (goOnStory b options rounds live) steps canceled final := by
  induction rounds generalizing live ticks with
  | zero =>
    rcases rested.calm.phase with idle | running
    · obtain ⟨result, story⟩ := goOn_of_idle (b := b) idle options 0 ticks
      rw [result, story]
      exact ⟨0, false, live, rfl, ends_of_idle rested idle options⟩
    · have capped := (stepsToCap_eq_zero positive).1 left
      obtain ⟨result, story⟩ := goOn_of_capped (b := b) running capped 0 ticks
      rw [story] at silent ⊢
      rw [result]
      exact ⟨0, true, live.cancel b, rfl,
        ends_of_capped timeless rested positive running capped silent⟩
  | succ rounds ih =>
    rcases rested.calm.phase with idle | running
    · obtain ⟨result, story⟩ := goOn_of_idle (b := b) idle options (rounds + 1) ticks
      rw [result, story]
      exact ⟨0, false, live, rfl, ends_of_idle rested idle options⟩
    · have early : (now live).ns < options.cap.ns := by
        by_contra capped
        rw [(stepsToCap_eq_zero positive).2 (Nat.not_lt.1 capped)] at left
        cases left
      obtain ⟨result, story⟩ := goOn_of_early (b := b) running early rounds ticks
      rw [story] at silent ⊢
      have fit := fits 0 (Nat.succ_pos _) (by simp [stepped, running])
      obtain ⟨next, advanced, rested', clock, outcome⟩ := advance_of_running timeless rested running
        (requests_append_eq_nil.1 silent).1 fit
      rw [advanced] at silent result ⊢
      have after : (advance b options.tick live).2 = next := by rw [advanced]
      have distance := stepsToCap_succ positive early clock
      have left' : stepsToCap options (now next) = rounds := Nat.succ.inj (distance.symm.trans left)
      obtain ⟨steps, canceled, final, played, ends⟩ := ih (ticks + 1) rested' left'
        (requests_append_eq_nil.1 silent).2 fun k before active => by
          have fit := fits (k + 1) (Nat.succ_lt_succ before)
          rw [stepped, after] at fit
          exact fit active
      refine ⟨steps + 1, canceled, final, ?_, ends.step running after clock distance outcome⟩
      refine result.trans (played.trans ?_)
      congr 3
      omega

/-- However an idle sequence came about, whatever its units do and even if they never end: if its
nodes do not wait for one another in a circle, nothing is requested, and the clock and the units can
follow the steps that are taken, its playback has an outcome, and the sequence is idle again. The
clock has gone from where it was to what is reported, one tick at a time. There are at most as many
ticks as fit in before the cap. If the run goes on after these it is canceled, and this is reported;
otherwise it was over by itself, with the start or with the last tick, and not before. -/
theorem virtual_bounded (timeless : b.Timeless) (number : Nat) (stage : Stage) (cues : List (Cue U))
    (options : PlaybackOptions) (positive : 0 < options.tick.ns) :
    let first : Live U := ⟨.empty number, stage⟩
    let live := (first.rehearse b cues).2
    let begun := (live.start b).2
    let most := (options.cap.ns - (now live).ns) ⌈/⌉ options.tick.ns
    let story := virtualStory b options live
    (∀ outcome ∈ (first.rehearse b cues).1, outcome.returns = true) →
    live.conductor.phase = .idle → Graph.Acyclic live.conductor.graph.nodes →
    live.Unasked → requests story = [] →
    (∀ k < most, (stepped b options.tick k begun).conductor.phase ≠ .idle →
      (advance b options.tick (stepped b options.tick k begun)).1 = .ok ()) →
    ∃ outcome final, virtual b options live = (.ok outcome, final) ∧
      final.conductor.phase = .idle ∧ outcome.ticks ≤ most ∧
      outcome.elapsed = now final ∧
      outcome.elapsed.ns = (now live).ns + outcome.ticks * options.tick.ns ∧
      (outcome.canceled = true ↔ (stepped b options.tick most begun).conductor.phase ≠ .idle) ∧
      (outcome.canceled = true → outcome.ticks = most ∧ options.cap.ns ≤ outcome.elapsed.ns) ∧
      (outcome.canceled = false →
        (stepped b options.tick outcome.ticks begun).conductor.phase = .idle) ∧
      (∀ k < outcome.ticks, (stepped b options.tick k begun).conductor.phase ≠ .idle) ∧
      announcements story = bracket outcome.canceled := by
  intro first live begun most story returned idle acyclic unasked silent fits
  obtain ⟨reached, calm⟩ := calm_of_returned returned
  have rested : live.Rested := ⟨reached, calm, unasked⟩
  have still : now begun = now live := now_onCue timeless live .start rfl
  obtain ⟨next, started, rested', outcome⟩ :=
    rested.start idle acyclic (requests_append_eq_nil.1 silent).1
  obtain rfl : next = begun := (congrArg Prod.snd started).symm
  have left : stepsToCap options (now begun) = most := by rw [stepsToCap_eq positive, still]
  have parts : story = live.respondStory b .start ++ goOnStory b options most begun := by
    simp only [story, virtualStory, started, left]
  rw [parts] at silent ⊢
  obtain ⟨steps, canceled, final, played, ends⟩ := goOn_ends timeless positive 0 rested' left
    (requests_append_eq_nil.1 silent).2 fits
  rw [Nat.zero_add] at played
  refine ⟨⟨now final, steps, canceled⟩, final, ?_, ends.idle, left ▸ ends.within, rfl,
    still ▸ ends.clock, left ▸ ends.canceled_iff, left ▸ ends.capped, ends.closed, ends.active, ?_⟩
  · rw [virtual, started]
    simp only [left, played]
  · rw [announcements_append]
    rcases outcome with ⟨told, going⟩ | ⟨told, past⟩
    · rw [told]
      exact ends.told.2 going
    · obtain ⟨nothing, self⟩ := ends.told.1 past
      rw [told, nothing, self]
      rfl

/-- A puppet that only ends when it is told to. -/
def endlessCues : List (Cue Member) :=
  [.add none (.performer none (.puppet (.fresh .manual false))), .play (some ⟨0, 0⟩) []]

/-- A stage whose clock shows five nanoseconds. -/
def lateStage : Stage := { Stage.bare with recording := ⟨⟨5, by decide⟩, #[]⟩ }

def endless : Live Member :=
  (Live.rehearse (Member.behaviour 0) endlessCues ⟨.empty 0, lateStage⟩).2

/-- With a tick of three nanoseconds and a cap of ten, two ticks are taken before the cap is
reached. -/
theorem virtual_bounded_endless :
    ∃ outcome final, virtual (Member.behaviour 0) ⟨⟨3, by decide⟩, ⟨10, by decide⟩⟩ endless =
        (.ok outcome, final) ∧
      final.conductor.phase = .idle ∧ outcome.canceled = true ∧ outcome.ticks = 2 ∧
      outcome.elapsed.ns = 11 := by
  have reached : endless.Reached := (Live.reached_empty 0 lateStage).rehearse endlessCues
  have acyclic : Graph.Acyclic endless.conductor.graph.nodes :=
    (Graph.waveOrder_isOk_iff reached.conductor.sound.arena).1 ⟨[0], by cbv⟩
  have clock : (now endless).ns = 5 := by cbv
  have most : (10 - (now (rehearse (Member.behaviour 0) endlessCues ⟨.empty 0, lateStage⟩).2).ns)
      ⌈/⌉ 3 = 2 :=
    congrArg (fun ns => (10 - ns) ⌈/⌉ 3) clock
  have going : (stepped (Member.behaviour 0) ⟨3, by decide⟩ 2
      (endless.start (Member.behaviour 0)).2).conductor.phase = .running := by cbv
  obtain ⟨outcome, final, played, idle, -, -, elapsed, cut, capped, -⟩ :=
    virtual_bounded (Member.timeless 0) 0 lateStage endlessCues ⟨⟨3, by decide⟩, ⟨10, by decide⟩⟩
      (by decide) (List.all_eq_true.1 (by cbv)) (by cbv) acyclic (by cbv)
        (by cbv) fun k early _ => by
        have few : k < 2 := most ▸ early
        obtain rfl | rfl : k = 0 ∨ k = 1 := by omega
        · cbv
        · cbv
  have canceled : outcome.canceled = true := cut.2 fun past => by
    rw [most] at past
    cases going.symm.trans past
  have ticks : outcome.ticks = 2 := (capped canceled).1.trans most
  refine ⟨outcome, final, played, idle, canceled, ticks, ?_⟩
  rw [elapsed, ticks]
  cbv

end Playback

end Choreo
