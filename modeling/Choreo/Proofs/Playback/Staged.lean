import Choreo.Proofs.Playback.Score

/-!
# A scene on its stage

A scene whose state is known from its score stays known when units start, when a tick goes by for
them, and when something is announced.
-/

namespace Choreo

namespace Live

variable {U : Type} (b : Behaviour U)

theorem execute_append (first second : List Command) (live : Live U) :
    execute b (first ++ second) live =
      ((execute b first live).1 ++ (execute b second (execute b first live).2).1,
       (execute b second (execute b first live).2).2) := by
  induction first generalizing live with
  | nil => rfl
  | cons command first ih => cases command <;> simp [execute, ih]

theorem tick_of_running {delta : Span} {live ticked : Live U}
    (running : live.conductor.phase = .running)
    (units : live.tickUnits b delta live.conductor.playing.units = (.ok (), ticked)) :
    live.tick b delta = (.ok (), ((ticked.drain b).2.publish b (ticked.drain b).1).2) := by
  have active : live.sequence.isIdle = false := Sequence.isIdle_of_running running
  rw [tick, tickRun, active, units]
  rfl

end Live

namespace Score

variable {score : Score} {own : List (Nat × Lifecycle)} {now : Nat} {seen : List Report}
  {progress : Nat → Option Nat} {live : Scene}

namespace Staged

theorem call (staged : score.Staged own now seen progress live) {node : Nat} {course : Course}
    (here : score.courses[node]? = some course) (waits : progress node = none)
    (due : score.starts node = now) :
    score.Staged own now seen (Function.update progress node (some 0))
      (live.call Performer.behaviour .start ⟨0, node⟩) := by
  have lawful := score.lawful course (List.mem_of_getElem? here)
  have known := staged.performers node
  rw [here, waits] at known
  have told : course.told 0 = course.toldAt (progress node) ++ course.reports 0 := by
    rw [waits, Course.told_zero]
    rfl
  have back := staged.takeBack here told (by rw [waits, Course.noted_zero, due]; rfl)
  simpa [Live.call, known, Course.stateAt, Performer.behaviour, Performer.perform, lawful.starts]
    using back

theorem tickUnit (staged : score.Staged own now seen progress live) {node j : Nat} {course : Course}
    (here : score.courses[node]? = some course) (plays : progress node = some j)
    (going : j < course.length) (due : score.starts node + (j + 1) = now)
    (bound : now * score.tick.ns ≤ Span.limit) :
    ∃ next, live.tickUnit Performer.behaviour score.tick ⟨0, node⟩ = (.ok (), next) ∧
      score.Staged own now seen (Function.update progress node (some (j + 1))) next := by
  have lawful := score.lawful course (List.mem_of_getElem? here)
  have known := staged.performers node
  rw [here, plays] at known
  have told : course.told (j + 1) = course.toldAt (progress node) ++ course.reports (j + 1) := by
    rw [plays, Course.told_succ]
    rfl
  have back := staged.takeBack here told (by rw [plays, Course.noted_succ, due]; rfl)
  have within : (j + 1) * score.tick.ns ≤ Span.limit :=
    Nat.le_trans (Nat.mul_le_mul_right _ (by omega)) bound
  refine ⟨_, ?_, back⟩
  simp [Live.tickUnit, known, Course.stateAt, Performer.behaviour, Performer.pass,
    lawful.ticks j going within, lawful.track]

/-- Performers that are told to start, one after the other. -/
theorem execute (staged : score.Staged own now seen progress live) {nodes : List Nat}
    (distinct : nodes.Nodup)
    (due : ∀ node ∈ nodes, node < score.courses.length ∧ progress node = none ∧
      score.starts node = now) :
    ∃ next, Live.execute Performer.behaviour (nodes.map fun node => .call .start ⟨0, node⟩) live =
        ([], next) ∧
      score.Staged own now seen (fun node => if node ∈ nodes then some 0 else progress node)
        next := by
  induction nodes generalizing progress live with
  | nil => exact ⟨live, rfl, by simpa using staged⟩
  | cons node nodes ih =>
    obtain ⟨once, distinct⟩ := List.nodup_cons.1 distinct
    obtain ⟨inside, waits, now⟩ := due node (List.mem_cons_self ..)
    have first := staged.call (List.getElem?_eq_getElem inside) waits now
    obtain ⟨next, done, after⟩ := ih first distinct fun other member => by
      obtain ⟨inside, waits, now⟩ := due other (List.mem_cons_of_mem _ member)
      have apart : other ≠ node := fun same => once (same ▸ member)
      exact ⟨inside, by rw [Function.update_of_ne apart, waits], now⟩
    refine ⟨next, by simpa [Live.execute] using done, after.congr fun other _ => ?_⟩
    by_cases same : other = node
    · simp [same, once]
    · simp [same]

/-- Performers for which a tick goes by, one after the other. -/
theorem tickUnits (staged : score.Staged own now seen progress live) {nodes : List Nat}
    (distinct : nodes.Nodup) (bound : now * score.tick.ns ≤ Span.limit)
    (due : ∀ node ∈ nodes, ∃ j, progress node = some j ∧
      now < endOf score.courses score.starts node + 1 ∧ score.starts node + (j + 1) = now) :
    ∃ next, Live.tickUnits Performer.behaviour score.tick (nodes.map (UnitId.mk 0)) live =
        (.ok (), next) ∧
      score.Staged own now seen
        (fun node => if node ∈ nodes then (progress node).map (· + 1) else progress node) next := by
  induction nodes generalizing progress live with
  | nil => exact ⟨live, rfl, by simpa using staged⟩
  | cons node nodes ih =>
    obtain ⟨once, distinct⟩ := List.nodup_cons.1 distinct
    obtain ⟨j, plays, going, later⟩ := due node (List.mem_cons_self ..)
    obtain ⟨course, here⟩ : ∃ course, score.courses[node]? = some course := by
      cases found : score.courses[node]? with
      | none => simp only [endOf, found, Option.map_none, Option.getD_none] at going; omega
      | some course => exact ⟨course, rfl⟩
    rw [score.endOf_eq here] at going
    obtain ⟨middle, ticked, first⟩ := staged.tickUnit here plays (by omega) later bound
    obtain ⟨next, done, after⟩ := ih first distinct fun other member => by
      obtain ⟨k, plays, going, later⟩ := due other (List.mem_cons_of_mem _ member)
      have apart : other ≠ node := fun same => once (same ▸ member)
      exact ⟨k, by rw [Function.update_of_ne apart, plays], going, later⟩
    refine ⟨next, by simpa [Live.tickUnits, ticked] using done, after.congr fun other _ => ?_⟩
    by_cases same : other = node
    · simp [same, once, plays]
    · simp [same]

theorem deliver (staged : score.Staged own now seen progress live) (events : List Lifecycle) :
    score.Staged (own ++ events.map fun event => (now * score.tick.ns, event)) now seen progress
      (live.deliver events) := by
  rw [staged.quiet.deliver_eq events]
  refine ⟨staged.owner, staged.performers, staged.channels, ?_, staged.told, staged.sources, ?_, ?_⟩
  · simpa using staged.clock
  · intro node course here label labelled
    have before := staged.noted node course here label labelled
    simp only [Recording.track_recordAll, staged.clock]
    by_cases same : label = Scene.label
    · rw [if_pos same] at before ⊢
      rw [if_pos same.symm]
      exact before.append_left _
    · rw [if_neg same] at before ⊢
      rw [if_neg (Ne.symm same), List.append_nil]
      exact before
  · intro label none
    simp only [Recording.track_recordAll, staged.clock, staged.others label none]
    by_cases same : label = Scene.label
    · simp [same]
    · simp [same, Ne.symm same]

end Staged

end Score

end Choreo
