import Choreo.Proofs.Sequence.Outcomes
import Choreo.Proofs.Sequence.Rest
import Choreo.Proofs.Stage.Bidding

/-!
# Sequences that start only when they are told to

As a unit of another one a sequence owes an end for each start, and runs until it reports it, as
long as it serves no start that was asked for through its own channel. Such a start makes it run on
after it has reported its end.
-/

namespace Choreo

namespace Live

variable {U : Type} {b : Behaviour U} {terms : Terms U} {live : Live U} {number : Nat}

/-- One if a run goes on, and none else. -/
def going (live : Live U) : Nat := (!live.sequence.isIdle).toNat

theorem going_of_idle (idle : live.conductor.phase = .idle) : live.going = 0 := by
  rw [going, Sequence.isIdle_iff.2 idle]
  rfl

theorem going_of_running (running : live.conductor.phase = .running) : live.going = 1 := by
  rw [going, Sequence.isIdle_of_running running]
  rfl

theorem number_obey (b : Behaviour U) (act : Act) (live : Live U) :
    (obey b act live).2.sequence.number = live.sequence.number :=
  (setting_obey b.throughout_owner.toWithin live act)

theorem settles_obey (rest : live.Rests b terms) {act : Act} (stops : act ≠ .start) :
    (obey b act live).1.count .ended + (obey b act live).2.going = live.going ∧
      (obey b act live).2.going = 0 := by
  have calm : live.Calm := ⟨rest.calm, rest.empty⟩
  rcases rest.calm with idle | running
  · cases act with
    | start => exact absurd rfl stops
    | finish =>
      rw [obey, endRun_of_idle b calm idle, going_of_idle idle]
      exact ⟨rfl, rfl⟩
    | cancel =>
      rw [obey, cancelRun_of_idle b calm idle, going_of_idle idle]
      exact ⟨rfl, rfl⟩
  · have once : live.going = 1 := going_of_running running
    cases act with
    | start => exact absurd rfl stops
    | finish =>
      obtain ⟨told, -, idle⟩ := endRun_of_running b running
      rw [obey, told, going_of_idle idle, once]
      exact ⟨rfl, rfl⟩
    | cancel =>
      obtain ⟨told, -, idle⟩ := cancelRun_of_running b rest.sane.coherent running
      rw [obey, told, going_of_idle idle, once]
      exact ⟨rfl, rfl⟩

variable (honors : b.Honors terms) (unbidden : ∀ stage, terms.stages stage → stage.Unbidden number)

include honors unbidden in
/-- Nothing but stops is served, so every run that goes on is paid for with its end. -/
theorem settles_serve (rest : live.Rests b terms) (own : live.sequence.number = number)
    (limit : Nat) :
    (serve b limit live).1.count .ended + (serve b limit live).2.going = live.going := by
  induction limit generalizing live with
  | zero => exact Nat.zero_add _
  | succ limit ih =>
    rw [serve]
    cases next : live.stage.nextRequest? live.sequence.number with
    | none => exact Nat.zero_add _
    | some taken =>
      obtain ⟨act, stage⟩ := taken
      have stops : act ≠ .start := ((unbidden live.stage rest.stages).take next).1 own.symm
      have first : ({ live with stage } : Live U).Rests b terms :=
        ⟨rest.toResting, honors.take next rest.stages⟩
      obtain ⟨paid, -⟩ := settles_obey first stops
      have obeyed := (obey_rests honors act first).deliver honors (obey b act { live with stage }).1
      have served := ih obeyed ((number_obey b act _).trans own)
      simp only [List.count_append]
      change _ = ({ live with stage } : Live U).going
      rw [← paid, Nat.add_assoc]
      exact congrArg _ served

include honors unbidden in
theorem settles_publish (rest : live.Rests b terms)
    (own : live.sequence.number = number) (events : List Lifecycle) :
    (live.publish b events).1.count .ended + (live.publish b events).2.going =
      events.count .ended + live.going := by
  have served := settles_serve honors unbidden (rest.deliver honors events) own
    (live.deliver events).stage.weight
  simp only [publish, List.count_append, Nat.add_assoc]
  exact congrArg _ served

include honors unbidden in
theorem actAsUnit_start (rest : live.Rests b terms) (own : live.sequence.number = number)
    (idle : live.conductor.phase = .idle) :
    (live.actAsUnit b .start).1.count .ended + (live.actAsUnit b .start).2.going = 1 := by
  have started := startRun_rests honors rest
  have same : (live.startRun b).2.sequence.number = live.sequence.number := by
    have obeyed := number_obey b .start live
    rw [obey] at obeyed
    revert obeyed
    rcases live.startRun b with ⟨cycle | events, next⟩ <;> exact id
  rw [actAsUnit]
  rcases startRun_of_idle b idle with ⟨-, -, cycle, conductor, refused, still⟩ |
    ⟨-, events, next, begun, -, outcome⟩
  · have none : (live.withConductor conductor).going = 0 := going_of_idle still
    rw [refused]
    simp [none]
  · rw [begun] at started same ⊢
    simp only
    rw [settles_publish honors unbidden started (Eq.trans same own)]
    rcases outcome with ⟨rfl, running⟩ | ⟨rfl, done⟩
    · rw [going_of_running running]
      rfl
    · rw [going_of_idle done]
      rfl

include honors unbidden in
theorem actAsUnit_stop (rest : live.Rests b terms) (own : live.sequence.number = number) {act : Act}
    (stops : act ≠ .start) : (live.actAsUnit b act).2.going = 0 := by
  have obeyed := obey_rests honors act rest
  obtain ⟨-, none⟩ := settles_obey rest stops
  have served := settles_serve honors unbidden (obeyed.deliver honors (obey b act live).1)
    ((number_obey b act live).trans own)
      ((obey b act live).2.deliver (obey b act live).1).stage.weight
  have after := Nat.eq_zero_of_add_eq_zero_left (served.trans none)
  cases act with
  | start => exact absurd rfl stops
  | finish | cancel => exact after

include honors unbidden in
/-- While time goes by a sequence that runs goes on or reports its end. -/
theorem tickAsUnit_settles (rest : live.Rests b terms) (own : live.sequence.number = number)
    (delta : Span) {events : List Lifecycle} (done : (live.tickAsUnit b delta).1 = .ok events) :
    events.count .ended + (live.tickAsUnit b delta).2.going = live.going := by
  have ticked := tickRun_rests honors delta rest
  have same : (live.tickRun b delta).2.sequence.number = live.sequence.number :=
    setting_tickRun b.throughout_owner.toWithin live delta
  have paid : ∀ told, (live.tickRun b delta).1 = .ok told →
      told.count .ended + (live.tickRun b delta).2.going = live.going := by
    intro told returned
    rcases rest.calm with idle | running
    · rw [tickRun_of_idle b delta idle] at returned ⊢
      cases returned
      exact Nat.zero_add _
    · have passed := tickRun_of_running b delta running
      rw [going_of_running running]
      rcases reply : live.tickRun b delta with ⟨overflow | events, next⟩
      · rw [reply] at returned
        cases returned
      · rw [reply] at returned passed
        cases returned
        rcases passed.2 with ⟨rfl, on⟩ | ⟨rfl, ended, -⟩
        · rw [going_of_running on]
          rfl
        · rw [going_of_idle ended]
          rfl
  rw [tickAsUnit] at done ⊢
  rcases reply : live.tickRun b delta with ⟨overflow | told, next⟩
  · rw [reply] at done
    cases done
  · rw [reply] at ticked same paid done
    cases done
    simp only
    rw [settles_publish honors unbidden (ticked ⟨told, rfl⟩) (Eq.trans same own)]
    exact paid told rfl

end Live

end Choreo
