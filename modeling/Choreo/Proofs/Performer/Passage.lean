import Mathlib.Data.List.Basic
import Choreo.Performer

/-!
# The passage of time

How far a clip has come that was started some time ago: it has completed as many rounds as fit into
that time, reports one repeat for each of them but the last, and ends when the time of all rounds
has gone by. A tick takes off all rounds that are over at once, which is the same as taking them off
one after the other. A delay and a timed puppet only count the time.
-/

namespace Choreo

/-- What is reported at the end, if this is it. -/
def endingIf (last : Bool) : List Lifecycle := if last then [.ended] else []

theorem mem_endingIf {event : Lifecycle} {last : Bool} :
    event ∈ endingIf last ↔ event = .ended ∧ last = true := by
  cases last <;> simp [endingIf]

@[simp] theorem count_endingIf (last : Bool) : (endingIf last).count .repeated = 0 := by
  cases last <;> rfl

/-- How much time these ticks make up. -/
def timeIn (ticks : List Span) : Nat := ticks.foldr (fun delta time => delta.ns + time) 0

@[simp] theorem timeIn_nil : timeIn [] = 0 := rfl

@[simp] theorem timeIn_cons (delta : Span) (ticks : List Span) :
    timeIn (delta :: ticks) = delta.ns + timeIn ticks := rfl

/-- What is reported from one time after a start to a later one, if all is over after the time
`total` and `repeats` tells how many repeats a time makes up. -/
def told (total : Nat) (repeats : Nat → Nat) (before now : Nat) : List Lifecycle :=
  List.replicate (repeats now - repeats before) .repeated ++ endingIf (before < total ∧ total ≤ now)

/-- What is left of `a` after `b`, if `b` is not the longer one. -/
def Span.sub? (a b : Span) : Option Span := if b.ns ≤ a.ns then some (a.sub b) else none

namespace Clip

/-- The repeats that so much time makes up. -/
def repeatsIn (duration extra time : Nat) : Nat := min extra (time / duration)

theorem repeatsIn_zero (duration extra : Nat) : repeatsIn duration extra 0 = 0 := by
  rw [repeatsIn, Nat.zero_div, Nat.min_zero]

theorem repeatsIn_mul_le (duration extra time : Nat) :
    repeatsIn duration extra time * duration ≤ time := by
  have whole := Nat.div_mul_le_self time duration
  have fewer := Nat.mul_le_mul_right duration (Nat.min_le_right extra (time / duration))
  exact Nat.le_trans fewer whole

theorem repeatsIn_mono (duration extra : Nat) {time later : Nat} (h : time ≤ later) :
    repeatsIn duration extra time ≤ repeatsIn duration extra later := by
  have more := Nat.div_le_div_right (c := duration) h
  simp only [repeatsIn]
  omega

theorem rest_lt {duration extra time : Nat}
    (some : 0 < duration) (h : time < (extra + 1) * duration) :
    time - repeatsIn duration extra time * duration < duration := by
  rw [repeatsIn]
  by_cases all : extra ≤ time / duration
  · rw [Nat.min_eq_left all]
    rw [Nat.succ_mul] at h
    omega
  · rw [Nat.min_eq_right (by omega), ← Nat.mod_eq_sub_div_mul]
    exact Nat.mod_lt _ some

theorem repeatsIn_of_le {duration extra time : Nat} (some : 0 < duration)
    (h : (extra + 1) * duration ≤ time) : repeatsIn duration extra time = extra := by
  have enough : extra + 1 ≤ time / duration := (Nat.le_div_iff_mul_le some).2 h
  rw [repeatsIn]
  omega

/-- The rounds that end in a stretch of time, from those that are over and the rest of the present
one. -/
theorem repeatsIn_add (duration extra time delta : Nat) :
    repeatsIn duration extra time + min (extra - repeatsIn duration extra time)
      ((time - repeatsIn duration extra time * duration + delta) / duration) =
      repeatsIn duration extra (time + delta) := by
  have whole := repeatsIn_mul_le duration extra time
  have split : (time - repeatsIn duration extra time * duration + delta) / duration =
      (time + delta) / duration - repeatsIn duration extra time := by
    rw [← Nat.sub_mul_div, Nat.mul_comm duration]
    congr 1
    omega
  have more : repeatsIn duration extra time ≤ (time + delta) / duration :=
    Nat.le_trans (Nat.min_le_right _ _) (Nat.div_le_div_right (Nat.le_add_right _ _))
  have most : repeatsIn duration extra time ≤ extra := Nat.min_le_left _ _
  rw [split]
  simp only [repeatsIn] at more most ⊢
  omega

/-- Takes the rounds that are over off the time of the present one, one after the other, until all
are over or the rest is shorter than a round. There is no answer if ever more has to be taken off
than has gone by. -/
def rollOver (clip : Clip) : Option (List Lifecycle × Clip) :=
  if clip.running ∧ clip.duration.ns ≤ clip.elapsed.ns then
    if clip.rounds < clip.extra then
      match clip.elapsed.sub? clip.duration with
      | none => none
      | some left =>
        (rollOver { clip with rounds := clip.rounds + 1, elapsed := left }).map fun done =>
        (.repeated :: done.1, done.2)
    else some ([.ended], { clip with elapsed := clip.duration, running := false })
  else some ([], clip)
termination_by clip.extra - clip.rounds

theorem reach_of_lt {clip : Clip} {elapsed : Span} (short : elapsed.ns < clip.duration.ns) :
    clip.reach elapsed = ([], { clip with elapsed }) := by
  have none : clip.roundsIn elapsed = 0 := by rw [roundsIn, Nat.div_eq_of_lt short, Nat.min_zero]
  have left : elapsed.ns - 0 * clip.duration.ns = elapsed.ns := by rw [Nat.zero_mul, Nat.sub_zero]
  simp only [reach, none, left, if_neg (Nat.not_le.2 short), List.replicate_zero, Nat.add_zero]

theorem reach_of_last {clip : Clip} {elapsed : Span} (last : ¬ clip.rounds < clip.extra)
    (long : clip.duration.ns ≤ elapsed.ns) :
    clip.reach elapsed = ([.ended], { clip with elapsed := clip.duration, running := false }) := by
  have none : clip.roundsIn elapsed = 0 := by
    rw [roundsIn, Nat.sub_eq_zero_of_le (Nat.not_lt.1 last), Nat.zero_min]
  have left : elapsed.ns - 0 * clip.duration.ns = elapsed.ns := by rw [Nat.zero_mul, Nat.sub_zero]
  simp only [reach, none, left, if_pos long, List.replicate_zero, List.nil_append, Nat.add_zero]

theorem reach_of_round {clip : Clip} {elapsed : Span} (lasts : 0 < clip.duration.ns)
    (more : clip.rounds < clip.extra) (long : clip.duration.ns ≤ elapsed.ns) :
    clip.reach elapsed =
      let next := { clip with rounds := clip.rounds + 1 }.reach (elapsed.sub clip.duration)
      (.repeated :: next.1, next.2) := by
  let later : Nat := { clip with rounds := clip.rounds + 1 }.roundsIn (elapsed.sub clip.duration)
  have rounds : clip.roundsIn elapsed = later + 1 := by
    simp only [later, roundsIn, Span.sub_ns]
    rw [Nat.div_eq_sub_div lasts long]
    omega
  have left : elapsed.ns - clip.roundsIn elapsed * clip.duration.ns =
      (elapsed.sub clip.duration).ns - later * clip.duration.ns := by
    rw [rounds, Nat.succ_mul, Span.sub_ns]
    omega
  have total : clip.rounds + clip.roundsIn elapsed = clip.rounds + 1 + later := by omega
  have repeats : List.replicate (clip.roundsIn elapsed) Lifecycle.repeated =
      .repeated :: List.replicate later .repeated := by rw [rounds, List.replicate_succ]
  simp only [reach, left, total, repeats, later]
  split <;> rfl

/-- All rounds that are over can be taken off at once, and one after the other there is always
enough to take off. -/
theorem rollOver_eq {clip : Clip} (running : clip.running = true) (lasts : 0 < clip.duration.ns) :
    clip.rollOver = some (clip.reach clip.elapsed) := by
  fun_induction rollOver clip with
  | case1 clip spent more none =>
    rw [Span.sub?, if_pos spent.2] at none
    cases none
  | case2 clip spent more left taken onward =>
    rw [Span.sub?, if_pos spent.2] at taken
    obtain rfl := Option.some.inj taken
    rw [onward running lasts, reach_of_round lasts more spent.2]
    rfl
  | case3 clip spent last => rw [reach_of_last last spent.2]
  | case4 clip going => rw [reach_of_lt (Nat.not_le.1 fun long => going ⟨running, long⟩)]

/-- A tick comes to the same as adding its time and taking off the rounds that are over one by
one. -/
theorem rollOver_of_tick {clip : Clip} (running : clip.running = true)
    (lasts : 0 < clip.duration.ns) {delta : Span} {next : List Lifecycle × Clip}
    (tick : clip.tick delta = .ok next) :
    ∃ elapsed, clip.elapsed.add delta = .ok elapsed ∧
      rollOver { clip with elapsed } = some next := by
  rw [Clip.tick, if_pos running] at tick
  cases sum : clip.elapsed.add delta with
  | error => simp [sum] at tick
  | ok elapsed =>
    rw [sum] at tick
    obtain rfl := Except.ok.inj tick
    exact ⟨elapsed, rfl, @rollOver_eq { clip with elapsed } running lasts⟩

/-- A clip that was started so long ago. -/
def past (duration : Span) (extra time : Nat) : Clip where
  duration
  extra
  rounds := repeatsIn duration.ns extra time
  elapsed := ⟨min (time - repeatsIn duration.ns extra time * duration.ns) duration.ns,
    Nat.le_trans (Nat.min_le_right _ _) duration.ns_le⟩
  running := decide (time < (extra + 1) * duration.ns)

theorem past_zero (duration : Span) (extra : Nat) : past duration extra 0 =
    { fresh duration extra with running := decide (0 < (extra + 1) * duration.ns) } := by
  have zero : (⟨min (0 - 0 * duration.ns) duration.ns,
      Nat.le_trans (Nat.min_le_right _ _) duration.ns_le⟩ :
        Span) = .zero := Span.ext (by simp [Span.zero])
  simp only [past, fresh, repeatsIn_zero, zero]

variable {duration : Span} {extra time : Nat}

theorem past_of_running (lasts : 0 < duration.ns) (going : time < (extra + 1) * duration.ns) :
    (past duration extra time).elapsed.ns = time - repeatsIn duration.ns extra time * duration.ns :=
  Nat.min_eq_left (Nat.le_of_lt (rest_lt lasts going))

theorem past_le (duration : Span) (extra time : Nat) :
    (past duration extra time).elapsed.ns ≤ duration.ns := Nat.min_le_right _ _

theorem past_of_over (lasts : 0 < duration.ns) (spent : (extra + 1) * duration.ns ≤ time) :
    past duration extra time = ⟨duration, extra, extra, duration, false⟩ := by
  have all := repeatsIn_of_le lasts spent
  have stopped : (past duration extra time).elapsed = duration := by
    refine Span.ext (Nat.min_eq_right ?_)
    rw [all]
    rw [Nat.succ_mul] at spent
    omega
  calc past duration extra time
      = ⟨duration, extra, repeatsIn duration.ns extra time, (past duration extra time).elapsed,
          decide (time < (extra + 1) * duration.ns)⟩ := rfl
    _ = _ := by rw [all, stopped, decide_eq_false (Nat.not_lt.2 spent)]

theorem le_rest_iff (lasts : 0 < duration.ns) :
    duration.ns ≤ time - repeatsIn duration.ns extra time * duration.ns ↔
      (extra + 1) * duration.ns ≤ time := by
  constructor
  · intro long
    by_contra early
    exact absurd (rest_lt lasts (Nat.lt_of_not_le early)) (Nat.not_lt.2 long)
  · intro spent
    rw [repeatsIn_of_le lasts spent]
    rw [Nat.succ_mul] at spent
    omega

theorem reach_past (lasts : 0 < duration.ns)
    (going : time < (extra + 1) * duration.ns) (delta : Nat) {elapsed : Span}
    (now : elapsed.ns = (past duration extra time).elapsed.ns + delta) :
    (past duration extra time).reach elapsed =
      (told ((extra + 1) * duration.ns) (repeatsIn duration.ns extra) time (time + delta),
        past duration extra (time + delta)) := by
  rw [past_of_running lasts going] at now
  have whole := repeatsIn_mul_le duration.ns extra time
  have mono : repeatsIn duration.ns extra time ≤ repeatsIn duration.ns extra (time + delta) :=
    repeatsIn_mono _ _ (Nat.le_add_right _ _)
  have rounds : (past duration extra time).roundsIn elapsed =
      repeatsIn duration.ns extra (time + delta) - repeatsIn duration.ns extra time := by
    have more := repeatsIn_add duration.ns extra time delta
    rw [← now] at more
    exact Nat.eq_sub_of_add_eq' more
  have total : repeatsIn duration.ns extra time +
      (repeatsIn duration.ns extra (time + delta) - repeatsIn duration.ns extra time) =
        repeatsIn duration.ns extra (time + delta) := Nat.add_sub_of_le mono
  have left : elapsed.ns - (repeatsIn duration.ns extra (time + delta) -
      repeatsIn duration.ns extra time) * duration.ns =
        time + delta - repeatsIn duration.ns extra (time + delta) * duration.ns := by
    have product := congrArg (· * duration.ns) total
    rw [Nat.add_mul] at product
    omega
  have begun : (past duration extra time).duration = duration := rfl
  have before : (past duration extra time).rounds = repeatsIn duration.ns extra time := rfl
  rw [reach]
  simp only [rounds, begun, before, total, left]
  by_cases spent : (extra + 1) * duration.ns ≤ time + delta
  · rw [if_pos ((le_rest_iff lasts).2 spent), past_of_over lasts spent, told,
      repeatsIn_of_le lasts spent]
    simp [endingIf, going, spent, past]
  · have short := mt (le_rest_iff lasts).1 spent
    rw [if_neg short, told]
    have rest := Nat.min_eq_left (Nat.le_of_not_le short)
    simp [endingIf, spent, past, rest, going, Nat.not_le.1 spent]

theorem tick_past (lasts : 0 < duration.ns) (extra time : Nat) (delta : Span) :
    (past duration extra time).tick delta =
        .ok (told ((extra + 1) * duration.ns) (repeatsIn duration.ns extra) time (time + delta.ns),
          past duration extra (time + delta.ns)) ∨
      (past duration extra time).tick delta = .error .sumTooLong ∧
        Span.limit < time + delta.ns := by
  by_cases going : time < (extra + 1) * duration.ns
  · have running : (past duration extra time).running = true := decide_eq_true going
    have least : (past duration extra time).elapsed.ns ≤ time := by
      rw [past_of_running lasts going]
      exact Nat.sub_le _ _
    rw [tick, if_pos running, Span.add]
    cases sum : (past duration extra time).elapsed.add? delta with
    | none =>
      have beyond := Span.add?_eq_none.1 sum
      exact .inr ⟨rfl, by omega⟩
    | some elapsed => exact .inl (congrArg _ (reach_past lasts going _ (Span.add?_eq_some.1 sum)))
  · have spent := Nat.not_lt.1 going
    have later : (extra + 1) * duration.ns ≤ time + delta.ns := by omega
    rw [past_of_over lasts spent, past_of_over lasts later, told, repeatsIn_of_le lasts spent,
      repeatsIn_of_le lasts later]
    exact .inl (by simp [tick, going, endingIf])

end Clip

/-- How far something has come that was started so long ago, lasts so long and only counts the
time. -/
structure Timed (total time : Nat) (elapsed : Span) (running : Bool) : Prop where
  going : running = decide (time < total)
  clock : running = true → elapsed.ns = time

theorem told_of_over {total before now : Nat} (spent : total ≤ before) :
    told total (fun _ => 0) before now = [] := by
  simp [told, endingIf, Nat.not_lt.2 spent]

theorem told_of_going {total before now : Nat} (going : before < total) :
    told total (fun _ => 0) before now = endingIf (total ≤ now) := by
  simp [told, going]

/-- The tick of something that only counts the time. -/
def counted (duration elapsed : Span) (running : Bool) (delta : Span) :
    Except Overflow (List Lifecycle × Span × Bool) :=
  if running then (elapsed.add delta).map fun now =>
    (endingIf (duration.ns ≤ now.ns), now, decide (now.ns < duration.ns))
  else .ok ([], elapsed, running)

theorem counted_of_timed {duration elapsed : Span} {running : Bool} {time : Nat}
    (timed : Timed duration.ns time elapsed running) (delta : Span) :
    (∃ now going, counted duration elapsed running delta =
        .ok (told duration.ns (fun _ => 0) time (time + delta.ns), now, going) ∧
        Timed duration.ns (time + delta.ns) now going) ∨
      counted duration elapsed running delta = .error .sumTooLong ∧
        Span.limit < time + delta.ns := by
  by_cases going : time < duration.ns
  · have runs : running = true := timed.going.trans (decide_eq_true going)
    have clock := timed.clock runs
    rw [counted, if_pos runs, Span.add, told_of_going going]
    cases sum : elapsed.add? delta with
    | none =>
      have beyond := Span.add?_eq_none.1 sum
      exact .inr ⟨rfl, by omega⟩
    | some now =>
      have later : now.ns = time + delta.ns := clock ▸ Span.add?_eq_some.1 sum
      exact .inl ⟨now, _, by rw [← later]; rfl, by rw [later], fun _ => later⟩
  · have spent := Nat.not_lt.1 going
    have stopped : running = false := timed.going.trans (decide_eq_false going)
    rw [told_of_over spent, stopped]
    refine .inl ⟨elapsed, false, rfl, ?_, fun runs => absurd runs Bool.false_ne_true⟩
    rw [eq_comm, decide_eq_false_iff_not]
    omega

namespace Delay

theorem tick_eq (delay : Delay) (delta : Span) :
    delay.tick delta = (counted delay.duration delay.elapsed delay.running delta).map fun reply =>
      (reply.1, { delay with elapsed := reply.2.1, running := reply.2.2 }) := by
  obtain ⟨duration, elapsed, running⟩ := delay
  rw [tick, counted]
  cases running with
  | false => rfl
  | true =>
    cases elapsed.add delta with
    | error e => rfl
    | ok now =>
      by_cases spent : duration.ns ≤ now.ns
      · simp [Except.map, spent, endingIf, Nat.not_lt.2 spent]
      · simp [Except.map, spent, endingIf, Nat.lt_of_not_le spent]

end Delay

namespace Puppet

theorem tick_eq {puppet : Puppet} {duration : Span} (timed : puppet.mode = .timed duration)
    (delta : Span) :
    puppet.tick delta = (counted duration puppet.elapsed puppet.running delta).map fun reply =>
      (reply.1, { puppet with elapsed := reply.2.1, running := reply.2.2 }) := by
  obtain ⟨mode, silent, elapsed, running⟩ := puppet
  obtain rfl := timed
  rw [tick, counted]
  cases running with
  | false => rfl
  | true =>
    cases elapsed.add delta with
    | error e => rfl
    | ok now =>
      by_cases spent : duration.ns ≤ now.ns
      · simp [Except.map, spent, endingIf, Nat.not_lt.2 spent]
      · simp [Except.map, spent, endingIf, Nat.lt_of_not_le spent]

end Puppet

end Choreo
