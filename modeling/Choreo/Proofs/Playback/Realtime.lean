import Choreo.Proofs.Playback.Deeds

/-!
# The two clocks agree

On a virtual clock the cap is looked at before each step, on a real one after it; and on the real
one it is only the next look at the sequence that finds the run canceled. Still, when every step of
the real clock is as long as those of the virtual one, the same is done on both, in the same order,
and the same comes of it: whether a run ends by itself, ends with the step that reaches the cap, or
is canceled there.
-/

namespace Choreo

variable {U : Type} {b : Behaviour U}

open Happening

/-- Whatever a unit is told to do, and however much time goes by for it, it does not turn the clock
back. -/
structure Behaviour.Forward (b : Behaviour U) : Prop where
  act : ∀ act unit stage, stage.recording.now.ns ≤ (b.act act unit stage).2.2.recording.now.ns
  tick : ∀ delta unit stage, stage.recording.now.ns ≤ (b.tick delta unit stage).2.2.recording.now.ns

theorem Behaviour.Timeless.forward (timeless : b.Timeless) : b.Forward :=
  ⟨fun act unit stage => by rw [timeless.act], fun delta unit stage => by rw [timeless.tick]⟩

theorem Behaviour.Forward.throughout (forward : b.Forward) :
    b.Throughout fun before after => before.2.recording.now.ns ≤ after.2.recording.now.ns := by
  refine ⟨⟨fun _ => Nat.le_refl _, Nat.le_trans, fun act _ unit _ stage _ => forward.act
    act unit stage, fun delta _ unit _ stage _ => forward.tick delta unit stage⟩,
    fun events registry stage => ?_, fun next => ?_⟩
  · rw [Stage.now_announceAll]
  · rw [Stage.nextRequest?] at next
    split at next
    · cases next
    · cases next
      exact Nat.le_refl _

namespace Playback

open Live

variable {live : Live U} {options : PlaybackOptions} {delta cap : Span} {clock : Nat → Span}
  {rounds ticks : Nat}

/-! ### The steps suffice -/

theorem stepsToCap_le (positive : 0 < options.tick.ns) {start : Span} :
    stepsToCap options start ≤ rounds ↔ options.cap.ns ≤ start.ns + rounds * options.tick.ns := by
  rw [stepsToCap, ← Nat.lt_succ_iff, Nat.div_lt_iff_lt_mul positive, Nat.succ_mul]
  omega

theorem now_le_advance (forward : b.Forward) (fits : (advance b delta live).1 = .ok ()) :
    (now live).ns + delta.ns ≤ (now (advance b delta live).2).ns := by
  rcases advance_cases b delta live with ⟨failed, -⟩ | ⟨moved, -, clock, -, answer, -⟩
  · cases failed.symm.trans fits
  · rw [answer, ← clock]
    have later : (now moved).ns ≤ (now (moved.onCue b (.tick delta)).2).ns :=
      setting_onCue forward.throughout moved rfl
    exact later

/-- The loop comes to its end within the steps to the cap, or with the first of them that time does
not suffice for. -/
theorem goOn_result (forward : b.Forward) (positive : 0 < options.tick.ns) (ticks : Nat)
    (enough : stepsToCap options (now live) ≤ rounds) :
    (∃ outcome, (goOn b options rounds ticks live).1 = .ok outcome) ∨
    ∃ overflow, (goOn b options rounds ticks live).1 = .error (.overflow overflow) ∧
      ∃ k < rounds, (stepped b options.tick k live).sequence.isIdle = false ∧
        (advance b options.tick (stepped b options.tick k live)).1 = .error overflow := by
  induction rounds generalizing ticks live with
  | zero =>
    rw [goOn]
    split
    · exact .inl ⟨_, rfl⟩
    · rw [if_pos ((stepsToCap_eq_zero positive).1 (Nat.le_zero.1 enough))]
      exact .inl ⟨_, rfl⟩
  | succ rounds ih =>
    rw [goOn]
    split
    · exact .inl ⟨_, rfl⟩
    · next going =>
      split
      · exact .inl ⟨_, rfl⟩
      · cases step : advance b options.tick live with
        | mk answer next =>
          cases answer with
          | error overflow =>
            exact .inr ⟨overflow, rfl, 0, Nat.succ_pos _, Bool.eq_false_iff.2 going,
              by rw [stepped, step]⟩
          | ok =>
            have later : (now live).ns + options.tick.ns ≤ (now next).ns := by
              have fits : (advance b options.tick live).1 = .ok () := by rw [step]
              have moved := now_le_advance forward fits
              rwa [step] at moved
            rw [stepsToCap_le positive, Nat.succ_mul] at enough
            have enough' : stepsToCap options (now next) ≤ rounds := by
              rw [stepsToCap_le positive]
              omega
            rcases ih (ticks + 1) enough' with done | ⟨overflow, failed, k, less, active, beyond⟩
            · exact .inl done
            · have after : stepped b options.tick (k + 1) live = stepped b options.tick k next := by
                rw [stepped, step]
              exact .inr ⟨overflow, failed, k + 1, Nat.succ_lt_succ less, by rw [after, active],
                by rw [after, beyond]⟩

/-! ### Step by step -/

theorem rested_advance (rested : live.Rested)
    (running : live.conductor.phase = .running) (silent : requests (advanceStory b delta live) = [])
    (fits : (advance b delta live).1 = .ok ()) :
    (advance b delta live).2.Rested := by
  rcases advance_cases b delta live with ⟨failed, -⟩ | ⟨moved, same, -, still, answer, story⟩
  · cases failed.symm.trans fits
  · rw [answer] at fits ⊢
    rw [story] at silent
    exact ((still rested).tick (same ▸ running) silent fits).1

theorem follow_of_idle (idle : live.conductor.phase = .idle) (canceled : Bool) :
    follow b cap clock rounds ticks canceled live = (.ok ⟨now live, ticks, canceled⟩, live) ∧
      followDeeds b cap clock rounds ticks live = [] := by
  have none : live.sequence.isIdle = true := Sequence.isIdle_iff.2 idle
  rw [follow.eq_def, followDeeds.eq_def]
  simp only [none, ↓reduceIte, and_self]

theorem follow_of_running (running : live.conductor.phase = .running) (cap : Span)
    (clock : Nat → Span) (rounds ticks : Nat) (canceled : Bool) :
    follow b cap clock (rounds + 1) ticks canceled live =
      (match followStep b cap (clock ticks) live with
      | (.error overflow, next) => (.error (.overflow overflow), next)
      | (.ok cut, next) => follow b cap clock rounds (ticks + 1) (canceled || cut) next) ∧
    followDeeds b cap clock (rounds + 1) ticks live =
      followStepDeeds b cap (clock ticks) live ++
        match followStep b cap (clock ticks) live with
        | (.error _, _) => []
        | (.ok _, next) => followDeeds b cap clock rounds (ticks + 1) next := by
  have going : ¬ live.sequence.isIdle = true := by simp [Sequence.isIdle_of_running running]
  rw [follow.eq_def, followDeeds.eq_def]
  exact ⟨if_neg going, if_neg going⟩

theorem goOnDeeds_of_idle (idle : live.conductor.phase = .idle) :
    goOnDeeds b options rounds live = [] := by
  rw [goOnDeeds.eq_def]
  exact if_pos (Sequence.isIdle_iff.2 idle)

theorem goOnDeeds_of_capped (running : live.conductor.phase = .running)
    (capped : options.cap.ns ≤ (now live).ns) : goOnDeeds b options rounds live = [.cancel] := by
  have going : ¬ live.sequence.isIdle = true := by simp [Sequence.isIdle_of_running running]
  rw [goOnDeeds.eq_def]
  exact (if_neg going).trans (if_pos capped)

theorem goOnDeeds_of_early (running : live.conductor.phase = .running)
    (early : (now live).ns < options.cap.ns) : goOnDeeds b options (rounds + 1) live =
      advanceDeeds options.tick live ++
        match advance b options.tick live with
        | (.error _, _) => []
        | (.ok (), next) => goOnDeeds b options rounds next := by
  have going : ¬ live.sequence.isIdle = true := by simp [Sequence.isIdle_of_running running]
  rw [goOnDeeds.eq_def]
  exact (if_neg going).trans (if_neg (Nat.not_le.2 early))

/-- As long as the run has not reached the cap when a round begins, the rounds on both clocks are
alike. -/
theorem follow_eq_goOn (rested : live.Rested)
    (silent : requests (goOnStory b options rounds live) = [])
    (early : live.conductor.phase = .running → (now live).ns < options.cap.ns)
    (even : ∀ k, ticks ≤ k → k < ticks + rounds → clock k = options.tick) :
    follow b options.cap clock rounds ticks false live = goOn b options rounds ticks live ∧
      followDeeds b options.cap clock rounds ticks live = goOnDeeds b options rounds live := by
  induction rounds generalizing ticks live with
  | zero =>
    rcases rested.calm.phase with idle | running
    · rw [(follow_of_idle idle false).1, (follow_of_idle idle false).2,
        (goOn_of_idle idle options 0 ticks).1, goOnDeeds_of_idle idle]
      exact ⟨rfl, rfl⟩
    · have going := Sequence.isIdle_of_running running
      have before := Nat.not_le.2 (early running)
      simp only [follow, goOn, followDeeds, goOnDeeds, going, before, Bool.false_eq_true,
        ↓reduceIte, and_self]
  | succ rounds ih =>
    rcases rested.calm.phase with idle | running
    · rw [(follow_of_idle idle false).1, (follow_of_idle idle false).2,
        (goOn_of_idle idle options (rounds + 1) ticks).1, goOnDeeds_of_idle idle]
      exact ⟨rfl, rfl⟩
    have before := early running
    have tick : clock ticks = options.tick := even ticks (Nat.le_refl _) (by omega)
    have even' : ∀ k, ticks + 1 ≤ k → k < ticks + 1 + rounds → clock k = options.tick :=
      fun k least most => even k (by omega) (by omega)
    obtain ⟨result, story⟩ := goOn_of_early (b := b) running before rounds ticks
    obtain ⟨followed, deeds⟩ :=
      follow_of_running (b := b) running options.cap clock rounds ticks false
    rw [story] at silent
    obtain ⟨quiet, silent⟩ := requests_append_eq_nil.1 silent
    have after := rested_advance rested running quiet
    rw [result, followed, deeds, goOnDeeds_of_early running before, followStep,
      followStepDeeds, tick]
    cases step : advance b options.tick live with
    | mk answer next =>
      rw [step] at after silent
      cases answer with
      | error overflow => exact ⟨rfl, by simp⟩
      | ok =>
        have rested' : next.Rested := after rfl
        by_cases cut : next.conductor.phase = .running ∧ options.cap.ns ≤ (now next).ns
        · -- the virtual clock cancels at the next look, the real one has done it by then
          obtain ⟨running', capped⟩ := cut
          obtain ⟨canceled, story'⟩ := goOn_of_capped (b := b) running' capped rounds (ticks + 1)
          simp only [story'] at silent
          have past := (rested'.cancel running' silent).1
          simp only [Sequence.isIdle_of_running running', capped, Bool.not_false,
            decide_true, Bool.and_self, ↓reduceIte, canceled, goOnDeeds_of_capped running' capped,
            (follow_of_idle past _).1, (follow_of_idle past true).2, Bool.false_or, List.append_nil,
            and_self]
        · have early' : next.conductor.phase = .running → (now next).ns < options.cap.ns :=
            fun running' => Nat.not_le.1 fun capped => cut ⟨running', capped⟩
          have uncut : (!next.sequence.isIdle && decide (options.cap.ns ≤ (now next).ns)) =
              false := by
            rcases rested'.calm.phase with idle' | running'
            · rw [Sequence.isIdle_iff.2 idle', Bool.not_true, Bool.false_and]
            · rw [decide_eq_false (Nat.not_le.2 (early' running')), Bool.and_false]
          have rest := ih rested' silent early' even'
          simp only [uncut, Bool.false_eq_true, ↓reduceIte, Bool.or_false, List.append_nil, rest,
            and_self]

theorem follow_of_le {more : Nat} {canceled : Bool} (le : rounds ≤ more)
    (done : (follow b cap clock rounds ticks canceled live).1 ≠ .error .unfinished) :
    follow b cap clock more ticks canceled live = follow b cap clock rounds ticks canceled live ∧
      followDeeds b cap clock more ticks live = followDeeds b cap clock rounds ticks live := by
  induction rounds generalizing more ticks canceled live with
  | zero =>
    by_cases idle : live.conductor.phase = .idle
    · rw [(follow_of_idle idle canceled).1, (follow_of_idle idle canceled).2,
        (follow_of_idle idle canceled).1, (follow_of_idle idle canceled).2]
      exact ⟨rfl, rfl⟩
    · rw [follow, if_neg (mt Sequence.isIdle_iff.1 idle)] at done
      exact absurd rfl done
  | succ rounds ih =>
    obtain ⟨more, rfl⟩ :=
      Nat.exists_eq_succ_of_ne_zero (Nat.ne_of_gt (Nat.lt_of_lt_of_le (Nat.succ_pos _) le))
    rw [follow] at done
    rw [follow, follow, followDeeds, followDeeds]
    split
    · exact ⟨rfl, rfl⟩
    · next going =>
      rw [if_neg going] at done
      cases step : followStep b cap (clock ticks) live with
      | mk answer next =>
        rw [step] at done
        cases answer with
        | error overflow => exact ⟨rfl, rfl⟩
        | ok cut =>
          obtain ⟨followed, deeds⟩ := ih (Nat.le_of_succ_le_succ le) done
          simp only [followed, deeds, and_self]

/-- However an idle sequence came about and whatever its units do, as long as they do not turn the
clock back: if its nodes do not wait for one another in a circle, nothing is requested, and the
clock is before the cap when the run has begun, then a playback on a real clock whose steps are all
as long as a tick does to the sequence and its clock what a playback on a virtual clock does, in the
same order, and comes to the same end: with the same outcome, the same sequence and the same
recording. The steps to the cap are enough for both; and there is an outcome if time suffices for
all steps that are taken. Units that leave the clock alone leave it where it was when the playback
began. -/
theorem realtime_eq_virtual (forward : b.Forward) (number : Nat) (stage : Stage)
    (cues : List (Cue U)) (options : PlaybackOptions) (positive : 0 < options.tick.ns)
    (clock : Nat → Span) (rounds : Nat) :
    let first : Live U := ⟨.empty number, stage⟩
    let live := (first.rehearse b cues).2
    let begun := (live.start b).2
    let most := stepsToCap options (now begun)
    let deeds := virtualDeeds b options live
    (∀ outcome ∈ (first.rehearse b cues).1, outcome.returns = true) →
    live.conductor.phase = .idle → Graph.Acyclic live.conductor.graph.nodes →
    live.Unasked → requests (virtualStory b options live) = [] →
    (now begun).ns < options.cap.ns → most ≤ rounds → (∀ k < rounds, clock k = options.tick) →
    realtime b options.cap clock rounds live = virtual b options live ∧
      realtimeDeeds b options.cap clock rounds live = deeds ∧
      enact b deeds live = (virtual b options live).2 ∧
      ((∀ k < most, (stepped b options.tick k begun).conductor.phase ≠ .idle →
          (advance b options.tick (stepped b options.tick k begun)).1 = .ok ()) →
        ∃ outcome final, virtual b options live = (.ok outcome, final)) ∧
      (b.Timeless → now begun = now live) := by
  intro first live begun most deeds returned idle acyclic unasked silent before enough even
  obtain ⟨reached, calm⟩ := calm_of_returned returned
  have rested : live.Rested := ⟨reached, calm, unasked⟩
  obtain ⟨next, started, rested', -⟩ :=
    rested.start idle acyclic (requests_append_eq_nil.1 silent).1
  obtain rfl : next = begun := (congrArg Prod.snd started).symm
  rw [virtualStory, started] at silent
  have result : virtual b options live = goOn b options most 0 begun := by rw [virtual, started]
  have finishes := goOn_result forward positive 0 (Nat.le_refl most)
  have even' : ∀ k, 0 ≤ k → k < 0 + most → clock k = options.tick :=
    fun k _ less => even k (by omega)
  obtain ⟨same, alike⟩ :=
    follow_eq_goOn rested' (requests_append_eq_nil.1 silent).2 (fun _ => before) even'
  have done : (follow b options.cap clock most 0 false begun).1 ≠ .error .unfinished := by
    rw [same]
    rcases finishes with ⟨outcome, played⟩ | ⟨overflow, failed, -⟩
    · rw [played]
      simp
    · rw [failed]
      simp
  obtain ⟨spare, idly⟩ := follow_of_le enough done
  refine ⟨?_, ?_, enact_virtualDeeds options live, fun fits => ?_, fun timeless => ?_⟩
  · rw [result, realtime, started]
    exact spare.trans same
  · simp only [deeds]
    rw [virtualDeeds, realtimeDeeds, started]
    exact congrArg _ (idly.trans alike)
  · rw [result]
    rcases finishes with ⟨outcome, played⟩ | ⟨overflow, -, k, less, active, failed⟩
    · exact ⟨outcome, _, Prod.ext played rfl⟩
    · have going : (stepped b options.tick k begun).conductor.phase ≠ .idle := fun past => by
        rw [Sequence.isIdle_iff.2 past] at active
        cases active
      cases failed.symm.trans (fits k less going)
  · exact now_onCue timeless live .start rfl

/-- A run that never ends by itself is canceled with the second step on either clock. -/
theorem realtime_eq_virtual_endless :
    let options : PlaybackOptions := ⟨⟨3, by decide⟩, ⟨10, by decide⟩⟩
    ∃ final, virtual (Member.behaviour 0) options endless =
      (.ok ⟨⟨11, by decide⟩, 2, true⟩, final) ∧
      realtime (Member.behaviour 0) options.cap (fun _ => options.tick) 5 endless =
        (.ok ⟨⟨11, by decide⟩, 2, true⟩, final) ∧
      realtimeDeeds (Member.behaviour 0) options.cap (fun _ => options.tick) 5 endless =
        [.start, .clock options.tick, .tick options.tick, .clock options.tick, .tick options.tick,
          .cancel] := by
  intro options
  have reached : endless.Reached := (Live.reached_empty 0 lateStage).rehearse endlessCues
  have acyclic : Graph.Acyclic endless.conductor.graph.nodes :=
    (Graph.waveOrder_isOk_iff reached.conductor.sound.arena).1 ⟨[0], by cbv⟩
  obtain ⟨same, alike, -⟩ :=
    realtime_eq_virtual (Member.timeless 0).forward 0 lateStage endlessCues options
    (by decide) (fun _ => options.tick) 5 (List.all_eq_true.1 (by cbv)) (by cbv) acyclic (by cbv)
      (by cbv)
    (by cbv) (by cbv) fun _ _ => rfl
  have outcome : (virtual (Member.behaviour 0) options endless).1 =
      .ok ⟨⟨11, by decide⟩, 2, true⟩ := by cbv
  refine ⟨_, Prod.ext outcome rfl, same.trans (Prod.ext outcome rfl), alike.trans ?_⟩
  cbv

end Playback

end Choreo
