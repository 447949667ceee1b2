import Choreo.Proofs.Performer.Course
import Choreo.Proofs.Performer.Passage

/-!
# Clips and delays from tick to tick

When all ticks are equally long, what a clip or a delay reports at each of them and what it is after
them depends on their number only. A clip repeats at the ticks by which its rounds but the last have
gone by, and ends, as a delay does, with the one by which all its time has.
-/

namespace Choreo

namespace Clip

variable (tick : Span) (duration : Span) (extra : Nat)

def ticks : Nat := ticksFor tick.ns ((extra + 1) * duration.ns)

/-- A clip after so many ticks. -/
def after (j : Nat) : Clip where
  duration
  extra
  rounds := repeatsIn duration.ns extra (j * tick.ns)
  elapsed :=
    ⟨min (j * tick.ns - repeatsIn duration.ns extra (j * tick.ns) * duration.ns) duration.ns,
     Nat.le_trans (Nat.min_le_right _ _) duration.ns_le⟩
  running := decide (j < ticks tick duration extra)

/-- What a clip reports after so many ticks. -/
def reports : Nat → List Lifecycle
  | 0 => .started :: endingIf (0 = ticks tick duration extra)
  | j + 1 =>
    List.replicate
      (repeatsIn duration.ns extra ((j + 1) * tick.ns) - repeatsIn duration.ns extra (j * tick.ns))
      .repeated ++ endingIf (j + 1 = ticks tick duration extra)

theorem after_eq_past (h : 0 < tick.ns) (j : Nat) :
    after tick duration extra j = past duration extra (j * tick.ns) := by
  have going : j < ticks tick duration extra ↔ j * tick.ns < (extra + 1) * duration.ns := by
    rw [← Nat.not_le, ticks, ticksFor_le h, Nat.not_le]
  simp only [after, past, going]

theorem start_fresh (h : 0 < tick.ns) :
    (fresh duration extra).start =
      (reports tick duration extra 0, after tick duration extra 0) := by
  rw [after_eq_past tick duration extra h, Nat.zero_mul, past_zero, start, reports]
  by_cases short : duration.ns = 0
  · have none : ticks tick duration extra = 0 := by
      rw [ticks, short, Nat.mul_zero, ticksFor_zero h]
    simp [fresh, Span.isZero, short, none, endingIf]
  · have long := Nat.mul_pos (Nat.succ_pos extra) (Nat.pos_of_ne_zero short)
    have some : 0 < ticks tick duration extra := ticksFor_pos h long
    simp [fresh, Span.isZero, short, Nat.pos_of_ne_zero short, Nat.ne_of_lt some, endingIf]

variable {tick duration extra} in
theorem unfinished (h : 0 < tick.ns) {j : Nat} (going : j < ticks tick duration extra) :
    j * tick.ns < (extra + 1) * duration.ns ∧ 0 < duration.ns := by
  have short : j * tick.ns < (extra + 1) * duration.ns := by
    by_contra past
    have done := (ticksFor_le h).2 (Nat.not_lt.1 past)
    rw [ticks] at going
    omega
  refine ⟨short, Nat.pos_of_ne_zero fun none => ?_⟩
  rw [none, Nat.mul_zero] at short
  omega

/-- The reports of a tick are those of the time between it and the one before. -/
theorem reports_succ (h : 0 < tick.ns) (j : Nat) : reports tick duration extra (j + 1) =
    told ((extra + 1) * duration.ns) (repeatsIn duration.ns extra) (j * tick.ns)
      ((j + 1) * tick.ns) := by
  have last : j + 1 = ticks tick duration extra ↔
      j * tick.ns < (extra + 1) * duration.ns ∧ (extra + 1) * duration.ns ≤ (j + 1) * tick.ns := by
    rw [← ticksFor_le h, ← Nat.not_le, ← ticksFor_le h, ticks]
    omega
  simp only [reports, told, last]

theorem tick_after (h : 0 < tick.ns) {j : Nat} (going : j < ticks tick duration extra)
    (bound : (j + 1) * tick.ns ≤ Span.limit) : (after tick duration extra j).tick tick =
      .ok (reports tick duration extra (j + 1), after tick duration extra (j + 1)) := by
  have step : (j + 1) * tick.ns = j * tick.ns + tick.ns := Nat.succ_mul _ _
  rw [after_eq_past tick duration extra h, after_eq_past tick duration extra h,
    reports_succ tick duration extra h, step]
  rcases tick_past (unfinished h going).2 extra (j * tick.ns) tick with next | ⟨_, beyond⟩
  · exact next
  · omega

def course (label : String) : Course where
  fresh := .clip (.fresh duration extra) (some label)
  length := ticks tick duration extra
  reports := reports tick duration extra
  state j := .clip (after tick duration extra j) (some label)

theorem lawful_course (h : 0 < tick.ns) (label : String) :
    (course tick duration extra label).Lawful tick := by
  constructor
  · exact congrArg (fun reply => (reply.1, Performer.clip reply.2 (some label)))
      (start_fresh tick duration extra h)
  · intro j going bound
    simp only [course, Performer.tick, tick_after tick duration extra h going bound, Except.map]
  · exact fun j => rfl
  · exact ⟨_, rfl⟩
  · intro j
    cases j <;> simp [course, reports, mem_endingIf]
  · cases last : ticks tick duration extra with
    | zero => exact ⟨[.started], by simp [course, reports, last, endingIf], by simp⟩
    | succ j =>
      refine ⟨List.replicate (repeatsIn duration.ns extra ((j + 1) * tick.ns) -
        repeatsIn duration.ns extra (j * tick.ns)) .repeated, ?_, by simp⟩
      simp [course, reports, last, endingIf]
  · intro j early
    cases j with
    | zero => simpa [course, reports, mem_endingIf] using Nat.ne_of_lt early
    | succ j => simpa [course, reports, mem_endingIf] using Nat.ne_of_lt early

/-- When a clip that starts at this tick repeats. -/
def repeatTimes (start count : Nat) : List (Nat × Lifecycle) :=
  (List.range count).map fun i =>
    ((start + ticksFor tick.ns ((i + 1) * duration.ns)) * tick.ns, .repeated)

def wholeTrack (start : Nat) : List (Nat × Lifecycle) :=
  (start * tick.ns, .started) ::
    (if duration.isZero then [] else repeatTimes tick duration start extra) ++
    [((start + ticks tick duration extra) * tick.ns, .ended)]

/-- The repeats up to a tick and those of the next one. -/
theorem repeatTimes_step (h : 0 < tick.ns) (some : 0 < duration.ns) (start j : Nat) :
    repeatTimes tick duration start (repeatsIn duration.ns extra (j * tick.ns)) ++
      List.replicate (repeatsIn duration.ns extra ((j + 1) * tick.ns) -
        repeatsIn duration.ns extra (j * tick.ns)) ((start + (j + 1)) * tick.ns, .repeated) =
      repeatTimes tick duration start (repeatsIn duration.ns extra ((j + 1) * tick.ns)) := by
  have mono : repeatsIn duration.ns extra (j * tick.ns) ≤
      repeatsIn duration.ns extra ((j + 1) * tick.ns) :=
    repeatsIn_mono _ _ (Nat.mul_le_mul_right _ (Nat.le_succ j))
  obtain ⟨more, total⟩ := Nat.exists_eq_add_of_le mono
  have now : ∀ i < more, ticksFor tick.ns
      ((repeatsIn duration.ns extra (j * tick.ns) + i + 1) * duration.ns) = j + 1 := by
    intro i less
    have least : repeatsIn duration.ns extra (j * tick.ns) = j * tick.ns / duration.ns := by
      simp only [repeatsIn] at total ⊢
      omega
    have most : repeatsIn duration.ns extra (j * tick.ns) + i + 1 ≤
        (j + 1) * tick.ns / duration.ns := by
      have bound := Nat.min_le_right extra ((j + 1) * tick.ns / duration.ns)
      simp only [repeatsIn] at total ⊢
      omega
    refine ticksFor_eq h ?_ ((Nat.le_div_iff_mul_le some).1 most)
    rw [least, ← Nat.div_lt_iff_lt_mul some]
    omega
  have later : ((List.range more).map (repeatsIn duration.ns extra (j * tick.ns) + ·)).map (fun i =>
      ((start + ticksFor tick.ns ((i + 1) * duration.ns)) * tick.ns, Lifecycle.repeated)) =
        List.replicate more ((start + (j + 1)) * tick.ns, .repeated) := by
    rw [List.map_map, List.eq_replicate_iff]
    refine ⟨by simp, fun entry member => ?_⟩
    obtain ⟨i, less, rfl⟩ := List.mem_map.1 member
    simp only [Function.comp_apply, now i (List.mem_range.1 less)]
  rw [total, Nat.add_sub_cancel_left, repeatTimes, repeatTimes, List.range_add,
    List.map_append, later]

theorem noted_course (h : 0 < tick.ns) (some : 0 < duration.ns) (label : String) (start : Nat)
    {j : Nat} (going : j ≤ ticks tick duration extra) :
    (course tick duration extra label).noted tick.ns start j = (start * tick.ns, .started) ::
      repeatTimes tick duration start (repeatsIn duration.ns extra (j * tick.ns)) ++
        (endingIf (j = ticks tick duration extra)).map fun event =>
          ((start + j) * tick.ns, event) := by
  induction j with
  | zero =>
    have none : repeatsIn duration.ns extra 0 = 0 := by simp [repeatsIn]
    simp [Course.noted_zero, course, reports, none, repeatTimes]
  | succ j ih =>
    have early : ¬ j = ticks tick duration extra := by omega
    have step := repeatTimes_step tick duration extra h some start j
    rw [Course.noted_succ, ih (by omega), ← step]
    simp [early, endingIf, course, reports]

theorem noted_length (h : 0 < tick.ns) (label : String) (start : Nat) :
    (course tick duration extra label).noted tick.ns start (ticks tick duration extra) =
      wholeTrack tick duration extra start := by
  by_cases some : 0 < duration.ns
  · have all := (ticksFor_le h).1 (Nat.le_refl (ticks tick duration extra))
    have long : duration.isZero = false := by
      simpa [Span.isZero] using Nat.ne_of_gt some
    rw [noted_course tick duration extra h some label start (Nat.le_refl _),
      repeatsIn_of_le some all, wholeTrack, long]
    simp [endingIf]
  · have short : duration.ns = 0 := by omega
    have none : ticks tick duration extra = 0 := by rw [ticks, short, Nat.mul_zero, ticksFor_zero h]
    simp [none, Course.noted_zero, course, reports, endingIf, wholeTrack, Span.isZero, short]

end Clip

namespace Delay

variable (tick : Span) (duration : Span)

def ticks : Nat := ticksFor tick.ns duration.ns

/-- A delay after so many ticks. -/
def after (j : Nat) : Delay where
  duration
  elapsed := ⟨min (j * tick.ns) Span.limit, Nat.min_le_right _ _⟩
  running := decide (j < ticks tick duration)

/-- What a delay reports after so many ticks. -/
def reports : Nat → List Lifecycle
  | 0 => .started :: endingIf (0 = ticks tick duration)
  | j + 1 => endingIf (j + 1 = ticks tick duration)

def course : Course where
  fresh := .delay (.fresh duration)
  length := ticks tick duration
  reports := reports tick duration
  state j := .delay (after tick duration j)

theorem start_fresh (h : 0 < tick.ns) :
    (fresh duration).start = (reports tick duration 0, after tick duration 0) := by
  have begun : (⟨min (0 * tick.ns) Span.limit, Nat.min_le_right _ _⟩ : Span) = .zero :=
    Span.ext (by simp [Span.zero])
  rw [start, reports, after, begun]
  by_cases short : duration.ns = 0
  · have none : ticks tick duration = 0 := by rw [ticks, short, ticksFor_zero h]
    simp [fresh, Span.isZero, short, none, endingIf]
  · have some : 0 < ticks tick duration := ticksFor_pos h (Nat.pos_of_ne_zero short)
    simp [fresh, Span.isZero, short, some, Nat.ne_of_lt some, endingIf]

theorem tick_after (h : 0 < tick.ns) {j : Nat} (going : j < ticks tick duration)
    (bound : (j + 1) * tick.ns ≤ Span.limit) : (after tick duration j).tick tick =
      .ok (reports tick duration (j + 1), after tick duration (j + 1)) := by
  have sum : (after tick duration j).elapsed.add tick =
      .ok (after tick duration (j + 1)).elapsed := by
    rw [Span.add_eq_ok]
    simp only [after]
    have step : (j + 1) * tick.ns = j * tick.ns + tick.ns := Nat.succ_mul _ _
    omega
  have running : (after tick duration j).running = true := decide_eq_true going
  have whole : (after tick duration (j + 1)).elapsed.ns = (j + 1) * tick.ns := Nat.min_eq_left bound
  have ending : duration.ns ≤ (j + 1) * tick.ns ↔ j + 1 = ticks tick duration := by
    rw [← ticksFor_le h, ← ticks]
    omega
  have same : (after tick duration j).duration = duration := rfl
  rw [Delay.tick, if_pos running, sum]
  simp only [whole, same, ending, reports]
  by_cases last : j + 1 = ticks tick duration
  · have past : (after tick duration (j + 1)).running = false :=
      decide_eq_false (Nat.not_lt.2 (Nat.le_of_eq last.symm))
    rw [if_pos last, ← past]
    simp [last, endingIf, after]
  · have later : j + 1 < ticks tick duration := by omega
    simp [last, endingIf, after, going, later]

theorem lawful_course (h : 0 < tick.ns) : (course tick duration).Lawful tick := by
  constructor
  · exact congrArg (fun reply => (reply.1, Performer.delay reply.2)) (start_fresh tick duration h)
  · intro j going bound
    simp only [course, Performer.tick, tick_after tick duration h going bound, Except.map]
  · exact fun j => rfl
  · exact ⟨_, rfl⟩
  · intro j
    cases j <;> simp [course, reports, mem_endingIf]
  · cases last : ticks tick duration with
    | zero => exact ⟨[.started], by simp [course, reports, last, endingIf], by simp⟩
    | succ j => exact ⟨[], by simp [course, reports, last, endingIf], by simp⟩
  · intro j early
    cases j with
    | zero => simpa [course, reports, mem_endingIf] using Nat.ne_of_lt early
    | succ j => simpa [course, reports, mem_endingIf] using Nat.ne_of_lt early

end Delay

end Choreo
