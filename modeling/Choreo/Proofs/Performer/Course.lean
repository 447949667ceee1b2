import Mathlib.Data.List.Basic
import Choreo.Performer

/-!
# The course of a performer

What a performer reports and what becomes of it once it has been started can be told from the number
of ticks since then. A performer lasts a whole number of ticks; its end is the last thing that it
reports, at the tick at which all its time has gone by.
-/

namespace Choreo

/-- How many ticks of a length it takes until so much time has gone by. -/
def ticksFor (tick time : Nat) : Nat := (time + (tick - 1)) / tick

theorem ticksFor_le {tick time k : Nat} (h : 0 < tick) :
    ticksFor tick time ≤ k ↔ time ≤ k * tick := by
  rw [ticksFor, ← Nat.lt_succ_iff, Nat.div_lt_iff_lt_mul h, Nat.succ_mul]
  omega

theorem ticksFor_eq {tick time k : Nat} (h : 0 < tick) (before : k * tick < time)
    (now : time ≤ (k + 1) * tick) : ticksFor tick time = k + 1 := by
  have most := (ticksFor_le h).2 now
  have least : ¬ ticksFor tick time ≤ k := fun less =>
    absurd ((ticksFor_le h).1 less) (Nat.not_le.2 before)
  omega

theorem ticksFor_zero {tick : Nat} (h : 0 < tick) : ticksFor tick 0 = 0 :=
  Nat.le_zero.1 ((ticksFor_le h).2 (Nat.zero_le _))

theorem ticksFor_pos {tick time : Nat} (h : 0 < tick) (some : 0 < time) :
    0 < ticksFor tick time := by
  rw [Nat.pos_iff_ne_zero]
  intro none
  have zero := (ticksFor_le h).1 (Nat.le_zero.2 none)
  omega

/-- The time until the tick at which so much time has gone by. -/
def roundUp (tick time : Nat) : Nat := ticksFor tick time * tick

/-- A performer that has not been started, how many ticks it lasts, and what it reports at each of
them and has become then. -/
structure Course where
  fresh : Performer
  length : Nat
  reports : Nat → List Lifecycle
  state : Nat → Performer

namespace Course

/-- What makes a course that of its performer at ticks of this length. -/
structure Lawful (tick : Span) (course : Course) : Prop where
  starts : course.fresh.act .start = (course.reports 0, course.state 0)
  ticks : ∀ j < course.length, (j + 1) * tick.ns ≤ Span.limit →
    (course.state j).tick tick = .ok (course.reports (j + 1), course.state (j + 1))
  track : ∀ j, (course.state j).track = course.fresh.track
  opens : ∃ rest, course.reports 0 = .started :: rest
  uncanceled : ∀ j, .canceled ∉ course.reports j
  closes : ∃ earlier, course.reports course.length = earlier ++ [.ended] ∧ .ended ∉ earlier
  lasts : ∀ j < course.length, .ended ∉ course.reports j

/-- Everything that the performer reports up to a tick. -/
def told (course : Course) (j : Nat) : List Lifecycle := (List.range (j + 1)).flatMap course.reports

/-- The same with the times at which it happens if the performer starts at this tick of a clock. -/
def noted (tick start : Nat) (course : Course) (j : Nat) : List (Nat × Lifecycle) :=
  (List.range (j + 1)).flatMap fun o => (course.reports o).map fun event =>
    ((start + o) * tick, event)

theorem told_zero (course : Course) : course.told 0 = course.reports 0 := by simp [told]

theorem told_succ (course : Course) (j : Nat) :
    course.told (j + 1) = course.told j ++ course.reports (j + 1) := by
  rw [told, List.range_succ, List.flatMap_append]
  simp [told]

theorem noted_zero (tick start : Nat) (course : Course) : course.noted tick start 0 =
    (course.reports 0).map fun event => (start * tick, event) := by simp [noted]

theorem noted_succ (tick start : Nat) (course : Course) (j : Nat) :
    course.noted tick start (j + 1) = course.noted tick start j ++
      (course.reports (j + 1)).map fun event => ((start + (j + 1)) * tick, event) := by
  rw [noted, List.range_succ, List.flatMap_append]
  simp [noted]

variable {tick : Span} {course : Course}

theorem mem_told {j : Nat} {event : Lifecycle} :
    event ∈ course.told j ↔ ∃ o ≤ j, event ∈ course.reports o := by
  simp only [told, List.mem_flatMap, List.mem_range, Nat.lt_succ_iff]

theorem Lawful.told_cons (lawful : course.Lawful tick) (j : Nat) :
    ∃ rest, course.told j = .started :: rest := by
  induction j with
  | zero =>
    obtain ⟨rest, first⟩ := lawful.opens
    exact ⟨rest, by rw [told_zero, first]⟩
  | succ j ih =>
    obtain ⟨rest, first⟩ := ih
    exact ⟨rest ++ course.reports (j + 1), by rw [told_succ, first, List.cons_append]⟩

theorem Lawful.started_mem_told (lawful : course.Lawful tick) (j : Nat) :
    .started ∈ course.told j := by
  obtain ⟨rest, first⟩ := lawful.told_cons j
  simp [first]

theorem Lawful.canceled_not_mem_told (lawful : course.Lawful tick) (j : Nat) :
    .canceled ∉ course.told j := by
  intro member
  obtain ⟨o, -, here⟩ := mem_told.1 member
  exact lawful.uncanceled o here

/-- The end is told when all ticks have gone by. -/
theorem Lawful.ended_mem_told (lawful : course.Lawful tick) {j : Nat} (h : j ≤ course.length) :
    .ended ∈ course.told j ↔ j = course.length := by
  constructor
  · intro member
    obtain ⟨o, le, here⟩ := mem_told.1 member
    by_contra early
    exact lawful.lasts o (by omega) here
  · rintro rfl
    obtain ⟨earlier, last, -⟩ := lawful.closes
    exact mem_told.2 ⟨course.length, Nat.le_refl _, by simp [last]⟩

theorem Lawful.told_length (lawful : course.Lawful tick) :
    ∃ earlier, course.told course.length = earlier ++ [.ended] ∧ .ended ∉ earlier := by
  obtain ⟨earlier, last, none⟩ := lawful.closes
  cases h : course.length with
  | zero =>
    rw [h] at last
    exact ⟨earlier, by rw [told_zero, last], none⟩
  | succ j =>
    rw [h] at last
    refine ⟨course.told j ++ earlier, by rw [told_succ, last, List.append_assoc], ?_⟩
    intro member
    rcases List.mem_append.1 member with before | now
    · have early := (lawful.ended_mem_told (by omega)).1 before
      omega
    · exact none now

end Course

end Choreo
