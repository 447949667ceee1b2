import Choreo.Proofs.Playback.CriticalPath

/-!
# The limit of the clock

Nothing in a scene that passed the checks counts further than the clock: a clip or a delay has never
lasted longer than the clock has run, and a clip takes off only rounds that have gone by. So a
playback has an outcome just when the clock can reach the tick at which it is over, which is the
first one by which everything has ended or the cap is reached. Settings are checked one by one, and
two of them together may ask for a tick beyond the limit.
-/

namespace Choreo

theorem Clip.roundsIn_mul_le (clip : Clip) (elapsed : Span) :
    clip.roundsIn elapsed * clip.duration.ns ≤ elapsed.ns :=
  (Nat.mul_le_mul_right _ (Nat.min_le_right _ _)).trans (Nat.div_mul_le_self _ _)

namespace Playback

open Plan

variable {timeline : Timeline} {start finish : String → Nat}

/-- The time at which a playback is over: everything has ended or the cap is reached. -/
def dueEnd (timeline : Timeline) (finish : String → Nat) : Nat :=
  min (timeline.horizon finish) (roundUp timeline.settings.tick.ns timeline.settings.cap.ns)

theorem virtual_ends (valid : timeline.Valid) (schedule : timeline.Schedule start finish) :
    let played := virtual Performer.behaviour timeline.settings (Scene.ofTimeline timeline)
    (dueEnd timeline finish ≤ Span.limit ∧
      ∃ outcome : Outcome, played.1 = .ok outcome ∧ outcome.elapsed.ns = dueEnd timeline finish) ∨
    (Span.limit < dueEnd timeline finish ∧ played.1 = .error (.overflow .sumTooLong)) := by
  intro played
  have within : ∀ {k : Nat}, timeline.horizon finish ≤ k * timeline.settings.tick.ns ↔
      ∀ node < timeline.courses.length,
        endOf timeline.courses (timeline.startTick start) node ≤ k :=
    horizon_le schedule valid
  rcases (ready valid schedule).virtual_cases timeline.settings.cap with done | overrun
  · refine .inl ?_
    change Score.Over _ _ _ played at done
    generalize played = result at done ⊢
    cases done with
    | @ended last elapsed final timely clock late finished =>
      have horizon : timeline.horizon finish = last * timeline.settings.tick.ns :=
        horizon_eq schedule valid finished late
      have early : timeline.horizon finish ≤
          roundUp timeline.settings.tick.ns timeline.settings.cap.ns :=
        within.2 fun node inside => (finished.ends node inside).trans timely
      have same : elapsed.ns = dueEnd timeline finish :=
        clock.trans (horizon.symm.trans (Nat.min_eq_left early).symm)
      exact ⟨same ▸ elapsed.ns_le, _, rfl, same⟩
    | @canceled elapsed final clock late =>
      have same : elapsed.ns = dueEnd timeline finish := by
        refine clock.trans (Nat.min_eq_right (Nat.le_of_lt (Nat.not_le.1 fun timely => ?_))).symm
        obtain ⟨node, inside, beyond⟩ := late
        exact absurd (within.1 timely node inside) (Nat.not_le.2 beyond)
      exact ⟨same ▸ elapsed.ns_le, _, rfl, same⟩
  · obtain ⟨overflow, k, early, beyond, node, inside, going⟩ := overrun
    refine .inr ⟨beyond.trans_le (Nat.le_min.2 ⟨?_, Nat.mul_le_mul_right _ early⟩), overflow⟩
    -- everything ends at a tick, and that is later than the last one that the clock can show
    obtain ⟨ticks, whole⟩ := dvd_horizon schedule valid
    rw [whole, Nat.mul_comm timeline.settings.tick.ns]
    refine Nat.mul_le_mul_right _ (Nat.lt_of_not_le fun few => ?_)
    have timely : timeline.horizon finish ≤ k * timeline.settings.tick.ns := by
      rw [whole, Nat.mul_comm]
      exact Nat.mul_le_mul_right _ few
    exact absurd (within.1 timely node inside) (Nat.not_le.2 going)

/-- A plan that passed the checks has a schedule, and its playback ends at the time at which
everything has ended or the cap is reached, if that is within the limit of spans. Otherwise the
clock runs over; and nothing else ever does, nor does a clip ever take off more than has gone by. -/
theorem virtual_limit {draft : Draft} {timeline : Timeline}
    (accepted : draft.check = .ok timeline) :
    (∃ start finish, timeline.Schedule start finish) ∧
    (∀ (clip : Clip) (elapsed : Span), clip.roundsIn elapsed * clip.duration.ns ≤ elapsed.ns) ∧
    ∀ start finish, timeline.Schedule start finish →
      let played := virtual Performer.behaviour timeline.settings (Scene.ofTimeline timeline)
      (dueEnd timeline finish ≤ Span.limit ↔ ∃ outcome : Outcome, played.1 = .ok outcome) ∧
      (∀ outcome : Outcome, played.1 = .ok outcome → outcome.elapsed.ns = dueEnd timeline finish) ∧
      ∀ failure : Failure, played.1 = .error failure → failure = .overflow .sumTooLong := by
  have valid := Draft.valid_of_check accepted
  refine ⟨valid.schedule, Clip.roundsIn_mul_le, fun start finish schedule => ?_⟩
  intro played
  rcases virtual_ends valid schedule with ⟨timely, outcome, done, elapsed⟩ | ⟨late, failed⟩
  · refine ⟨iff_of_true timely ⟨outcome, done⟩, fun other same => ?_, fun failure same => ?_⟩
    · obtain rfl : outcome = other := Except.ok.inj (done.symm.trans same)
      exact elapsed
    · cases done.symm.trans same
  · refine ⟨iff_of_false (Nat.not_le.2 late) ?_, fun other same => ?_, fun failure same => ?_⟩
    · rintro ⟨outcome, same⟩
      cases failed.symm.trans same
    · cases failed.symm.trans same
    · exact (Except.error.inj (failed.symm.trans same)).symm

/-- The pair ends with its second clip. -/
theorem virtual_limit_pair : ∃ outcome : Outcome,
    (virtual Performer.behaviour pairPlan.settings (Scene.ofTimeline pairPlan)).1 = .ok outcome ∧
      outcome.elapsed.ns = 50000000 := by
  obtain ⟨returns, elapses, -⟩ := (virtual_limit check_pair).2.2 _ _ schedule_pair
  obtain ⟨outcome, done⟩ := returns.1 (by decide +kernel)
  exact ⟨outcome, done, (elapses outcome done).trans (by decide +kernel)⟩

/-- A clip and a cap of the longest number of seconds, and a tick of more than half of that. -/
def vastDraft : Draft where
  settings := ⟨"10000000000000000000s", "18446744073709551615s"⟩
  clips := .ofList [("a", ⟨"18446744073709551615s", 0, [], [], none⟩)]
  groups := []

def vastPlan : Timeline where
  settings :=
    ⟨⟨10000000000000000000000000000, by decide⟩, ⟨18446744073709551615000000000, by decide⟩⟩
  clips := ⟨[("a", ⟨⟨18446744073709551615000000000, by decide⟩, 0, [], [], none⟩)], by decide⟩
  groups := []

theorem check_vast : vastDraft.check = .ok vastPlan :=
  Draft.check_eq_ok rfl (by decide +kernel) (by decide +kernel) (by decide +kernel) rfl

theorem schedule_vast : vastPlan.Schedule (fun _ => 0) fun _ => 20000000000000000000000000000 :=
  ⟨by decide +kernel, by decide +kernel⟩

/-- This plan passes the checks, and its clock runs over at the second tick. -/
theorem virtual_vast : vastDraft.check = .ok vastPlan ∧
    (virtual Performer.behaviour vastPlan.settings (Scene.ofTimeline vastPlan)).1 =
      .error (.overflow .sumTooLong) := by
  refine ⟨check_vast, ?_⟩
  have late : Span.limit < dueEnd vastPlan fun _ => 20000000000000000000000000000 := by
    decide +kernel
  rcases virtual_ends (Draft.valid_of_check check_vast) schedule_vast with ⟨timely, -⟩ | ⟨-, failed⟩
  · exact absurd timely (Nat.not_le.2 late)
  · exact failed

end Playback

end Choreo
