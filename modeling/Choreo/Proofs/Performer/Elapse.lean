import Choreo.Proofs.Performer.Passage

/-!
# Performers over any ticks

What a performer has reported since its start, and what it has become, can be told from the time
that has gone by, however that was cut into ticks. It ends with the tick by which its whole time has
gone by, after all its repeats, and one without duration as soon as it starts.
-/

namespace Choreo

namespace Performer

/-- How long a performer goes on after its start, if it ends by itself. -/
def lasts : Performer → Option Nat
  | .clip c _ => some ((c.extra + 1) * c.duration.ns)
  | .delay d => some d.duration.ns
  | .puppet p =>
    match p.mode with
    | .instant => some 0
    | .timed duration => some duration.ns
    | .manual => none
  | .scripted _ => none

/-- How often a performer repeats in so much time after its start. -/
def repeatsIn : Performer → Nat → Nat
  | .clip c _ => Clip.repeatsIn c.duration.ns c.extra
  | _ => fun _ => 0

/-- What a performer reports at each of these ticks, and what it has become after the last one. -/
def elapse (performer : Performer) : List Span → Except Overflow (List (List Lifecycle) × Performer)
  | [] => .ok ([], performer)
  | delta :: ticks => do
    let reply ← performer.tick delta
    let later ← elapse reply.2 ticks
    return (reply.1 :: later.1, later.2)

theorem elapse_cons {performer next : Performer} {delta : Span} {ticks : List Span}
    {events : List Lifecycle} (told : performer.tick delta = .ok (events, next)) :
    performer.elapse (delta :: ticks) =
      (next.elapse ticks).map fun later => (events :: later.1, later.2) := by
  rw [elapse, told]
  cases rest : next.elapse ticks <;> simp [bind, Except.bind, rest, pure, Except.pure, Except.map]

/-- What a performer that lasts for some time has become so long after its start. -/
inductive Aged (time : Nat) : Performer → Performer → Prop where
  | clip (c : Clip) (track : Option String) :
      0 < c.duration.ns → Aged time (.clip c track) (.clip (.past c.duration c.extra time) track)
  | delay (d now : Delay) : now.duration = d.duration →
      Timed d.duration.ns time now.elapsed now.running → Aged time (.delay d) (.delay now)
  | puppet (p now : Puppet) (duration : Span) :
    p.mode = .timed duration → now.mode = .timed duration →
      Timed duration.ns time now.elapsed now.running → Aged time (.puppet p) (.puppet now)

variable {performer now : Performer} {total time : Nat}

theorem repeatsIn_zero (performer : Performer) : performer.repeatsIn 0 = 0 := by
  cases performer with
  | clip c _ => exact Clip.repeatsIn_zero _ _
  | delay | puppet | scripted => rfl

theorem repeatsIn_mono (performer : Performer) {later : Nat} (h : time ≤ later) :
    performer.repeatsIn time ≤ performer.repeatsIn later := by
  cases performer with
  | clip c _ => exact Clip.repeatsIn_mono _ _ h
  | delay | puppet | scripted => exact Nat.le_refl 0

theorem repeatsIn_of_le (long : 0 < total) (lasting : performer.lasts = some total)
    (spent : total ≤ time) :
    performer.repeatsIn time = performer.repeatsIn total := by
  cases performer with
  | clip c _ =>
    obtain rfl := Option.some.inj lasting
    have lasts := Nat.pos_of_mul_pos_left long
    exact (Clip.repeatsIn_of_le lasts spent).trans (Clip.repeatsIn_of_le lasts (Nat.le_refl _)).symm
  | delay | puppet | scripted => rfl

theorem start_of_zero (idle : performer.running = false) (lasting : performer.lasts = some 0) :
    (performer.act .start).1 = [.started, .ended] ∧ (performer.act .start).2.running = false := by
  cases performer with
  | clip c _ =>
    have none : c.duration.ns = 0 :=
      (Nat.mul_eq_zero.1 (Option.some.inj lasting)).resolve_left (Nat.succ_ne_zero _)
    simp [act, Span.isZero, Clip.start, none, running, show c.running = false from idle]
  | delay d =>
    have none : d.duration.isZero = true := by simpa [lasts, Span.isZero] using lasting
    simp [act, Delay.start, none, running, show d.running = false from idle]
  | puppet p =>
    have none : p.mode.immediate = true := by
      cases mode : p.mode <;> simp_all [lasts, Puppet.Mode.immediate, Span.isZero]
    simp [act, Puppet.start, none, running, show p.running = false from idle]
  | scripted => cases lasting

theorem start_aged (idle : performer.running = false) (lasting : performer.lasts = some total)
    (long : 0 < total) :
    (performer.act .start).1 = [.started] ∧ Aged 0 performer (performer.act .start).2 := by
  cases performer with
  | clip c track =>
    obtain rfl := Option.some.inj lasting
    have lasts := Nat.pos_of_mul_pos_left long
    have begun : c.start = ([.started], .past c.duration c.extra 0) := by
      rw [Clip.past_zero, decide_eq_true long]
      simp [Clip.start, Clip.fresh, show c.running = false from idle, Span.isZero,
        Nat.ne_of_gt lasts]
    simp only [act, begun, true_and]
    exact .clip c track lasts
  | delay d =>
    obtain rfl := Option.some.inj lasting
    have begun : d.start = ([.started], { d with elapsed := .zero, running := true }) := by
      simp [Delay.start, show d.running = false from idle, Span.isZero, Nat.ne_of_gt long]
    simp only [act, begun, true_and]
    exact .delay _ _ rfl ⟨(decide_eq_true long).symm, fun _ => rfl⟩
  | puppet p =>
    obtain ⟨duration, mode, rfl⟩ : ∃ duration, p.mode = .timed duration ∧ duration.ns = total := by
      cases mode : p.mode <;> simp_all [lasts]
    have begun : p.start = ([.started], { p with elapsed := .zero, running := true }) := by
      simp [Puppet.start, show p.running = false from idle, mode, Puppet.Mode.immediate,
        Span.isZero, Nat.ne_of_gt long]
    simp only [act, begun, true_and]
    exact .puppet _ _ duration mode mode ⟨(decide_eq_true long).symm, fun _ => rfl⟩
  | scripted => cases lasting

theorem Aged.tick (aged : Aged time performer now) (lasting : performer.lasts = some total)
    (delta : Span) :
    (∃ next, now.tick delta = .ok (told total performer.repeatsIn time (time + delta.ns), next) ∧
        Aged (time + delta.ns) performer next) ∨
      now.tick delta = .error .sumTooLong ∧ Span.limit < time + delta.ns := by
  cases aged with
  | clip c track lasts =>
    obtain rfl := Option.some.inj lasting
    rcases Clip.tick_past lasts c.extra time delta with next | ⟨failed, beyond⟩
    · exact .inl ⟨_, by rw [Performer.tick, next]; rfl, .clip c track lasts⟩
    · exact .inr ⟨by rw [Performer.tick, failed]; rfl, beyond⟩
  | delay d now same timed =>
    obtain rfl := Option.some.inj lasting
    rcases counted_of_timed timed delta with ⟨clock, going, next, later⟩ | ⟨failed, beyond⟩
    · refine .inl ⟨.delay { now with elapsed := clock, running := going }, ?_,
        .delay _ _ same later⟩
      rw [Performer.tick, Delay.tick_eq, same, next]
      rfl
    · exact .inr ⟨by rw [Performer.tick, Delay.tick_eq, same, failed]; rfl, beyond⟩
  | puppet p now duration mode same timed =>
    obtain rfl : duration.ns = total := by simpa [lasts, mode] using lasting
    rcases counted_of_timed timed delta with ⟨clock, going, next, later⟩ | ⟨failed, beyond⟩
    · refine .inl ⟨.puppet { now with elapsed := clock, running := going }, ?_,
        .puppet _ _ duration mode same later⟩
      rw [Performer.tick, Puppet.tick_eq same, next]
      rfl
    · exact .inr ⟨by rw [Performer.tick, Puppet.tick_eq same, failed]; rfl, beyond⟩

theorem Aged.running (aged : Aged time performer now) (lasting : performer.lasts = some total) :
    now.running = decide (time < total) := by
  cases aged with
  | clip c track _ =>
    obtain rfl := Option.some.inj lasting
    rfl
  | delay d now same timed =>
    obtain rfl := Option.some.inj lasting
    exact timed.going
  | puppet p now duration mode same timed =>
    obtain rfl : duration.ns = total := by simpa [lasts, mode] using lasting
    exact timed.going

/-- What is told from tick to tick. -/
def tellings (total : Nat) (repeats : Nat → Nat) (before : Nat) : List Span → List (List Lifecycle)
  | [] => []
  | delta :: ticks => told total repeats before (before + delta.ns) ::
      tellings total repeats (before + delta.ns) ticks

section Tellings

variable (total : Nat) (repeats : Nat → Nat)

theorem length_tellings (before : Nat) (ticks : List Span) :
    (tellings total repeats before ticks).length = ticks.length := by
  induction ticks generalizing before with
  | nil => rfl
  | cons delta ticks ih => simp [tellings, ih]

theorem take_tellings (before : Nat) (ticks : List Span) (count : Nat) :
    (tellings total repeats before ticks).take count =
      tellings total repeats before (ticks.take count) := by
  induction ticks generalizing before count with
  | nil => simp [tellings]
  | cons delta ticks ih =>
    cases count with
    | zero => rfl
    | succ count => simp [tellings, ih]

theorem getElem?_tellings (before : Nat) {ticks : List Span} {place : Nat}
    (within : place < ticks.length) :
    (tellings total repeats before ticks)[place]? =
      some (told total repeats (before + timeIn (ticks.take place))
        (before + timeIn (ticks.take (place + 1)))) := by
  induction ticks generalizing before place with
  | nil => exact absurd within (Nat.not_lt_zero _)
  | cons delta ticks ih =>
    cases place with
    | zero => simp [tellings]
    | succ place =>
      simp only [tellings, List.getElem?_cons_succ, ih _ (Nat.lt_of_succ_lt_succ within),
        List.take_succ_cons, timeIn_cons, Nat.add_assoc]

variable {total repeats}

theorem told_append (mono : ∀ {time later}, time ≤ later → repeats time ≤ repeats later)
    (still : ∀ {time}, total ≤ time → repeats time = repeats total) {before time now : Nat}
    (sooner : before ≤ time) (later : time ≤ now) :
    told total repeats before time ++ told total repeats time now =
      told total repeats before now := by
  have first := mono sooner
  have second := mono later
  by_cases spent : total ≤ time
  · have done : total ≤ now := Nat.le_trans spent later
    simp [told, endingIf, spent, done, Nat.not_lt.2 spent, still spent, still done]
  · have going : before < total := by omega
    have parts : repeats now - repeats before =
        (repeats time - repeats before) + (repeats now - repeats time) := by omega
    have early : endingIf (before < total ∧ total ≤ time) = [] := by simp [endingIf, spent]
    have same : (time < total ∧ total ≤ now) = (before < total ∧ total ≤ now) := by
      simp [going, Nat.not_le.1 spent]
    simp only [told, early, same, parts, List.append_nil]
    rw [List.replicate_add, List.append_assoc]

theorem flatten_tellings (mono : ∀ {time later}, time ≤ later → repeats time ≤ repeats later)
    (still : ∀ {time}, total ≤ time → repeats time = repeats total) (before : Nat)
    (ticks : List Span) :
    (tellings total repeats before ticks).flatten =
      told total repeats before (before + timeIn ticks) := by
  induction ticks generalizing before with
  | nil =>
    have never : ¬ (before < total ∧ total ≤ before) := by omega
    simp [tellings, told, endingIf, never]
  | cons delta ticks ih =>
    rw [tellings, List.flatten_cons, ih, timeIn_cons, ← Nat.add_assoc]
    exact told_append mono still (Nat.le_add_right _ _) (Nat.le_add_right _ _)

end Tellings

theorem Aged.elapse (aged : Aged time performer now) (lasting : performer.lasts = some total)
    (ticks : List Span) :
    (∃ last, now.elapse ticks = .ok (tellings total performer.repeatsIn time ticks, last) ∧
        Aged (time + timeIn ticks) performer last) ∨
      now.elapse ticks = .error .sumTooLong ∧ Span.limit < time + timeIn ticks := by
  induction ticks generalizing time now with
  | nil => exact .inl ⟨now, rfl, aged⟩
  | cons delta ticks ih =>
    rw [timeIn_cons, ← Nat.add_assoc]
    rcases aged.tick lasting delta with ⟨next, told, later⟩ | ⟨failed, beyond⟩
    · rw [elapse_cons told]
      rcases ih later with ⟨last, rest, aged⟩ | ⟨failed, beyond⟩
      · exact .inl ⟨last, by rw [rest]; rfl, aged⟩
      · exact .inr ⟨by rw [failed]; rfl, beyond⟩
    · exact .inr ⟨by rw [Performer.elapse, failed]; rfl, by omega⟩

/-- What a performer that goes on for the time `total` has reported at these ticks after its start,
and what it is after them. -/
structure AddsUp (performer : Performer) (total : Nat) (ticks : List Span)
    (reports : List (List Lifecycle)) (last : Performer) : Prop where
  length : reports.length = ticks.length
  repeated : ∀ j ≤ ticks.length,
    (reports.take j).flatten.count .repeated = performer.repeatsIn (timeIn (ticks.take j))
  ended : ∀ j events, reports[j]? = some events →
    (.ended ∈ events ↔ timeIn (ticks.take j) < total ∧ total ≤ timeIn (ticks.take (j + 1)))
  reported : reports.flatten =
    List.replicate (performer.repeatsIn (timeIn ticks)) .repeated ++ endingIf (total ≤ timeIn ticks)
  running : last.running = decide (timeIn ticks < total)
  clip : ∀ c track, performer = .clip c track → ∃ elapsed,
    last = .clip ⟨c.duration, c.extra, min c.extra (timeIn ticks / c.duration.ns), elapsed,
      decide (timeIn ticks < total)⟩ track ∧
    (elapsed.ns = if timeIn ticks < total
      then timeIn ticks - min c.extra (timeIn ticks / c.duration.ns) * c.duration.ns
        else c.duration.ns) ∧
    elapsed.ns ≤ c.duration.ns
  -- taking off round after round never asks for more time than there is
  rolled : ∀ c track, last = .clip c track → c.running = true → ∀ delta next,
    c.tick delta = .ok next → ∃ elapsed, c.elapsed.add delta = .ok elapsed ∧
      Clip.rollOver { c with elapsed } = some next

theorem Aged.addsUp (aged : Aged 0 performer now) (lasting : performer.lasts = some total)
    (long : 0 < total) {ticks : List Span} {reports : List (List Lifecycle)}
    {last : Performer} (done : now.elapse ticks = .ok (reports, last)) :
    AddsUp performer total ticks reports last := by
  obtain ⟨late, all, later⟩ | ⟨failed, _⟩ := aged.elapse lasting ticks
  · obtain ⟨rfl, rfl⟩ := Prod.mk.inj (Except.ok.inj (done.symm.trans all))
    rw [Nat.zero_add] at later
    have told_all : ∀ ticks : List Span, (tellings total performer.repeatsIn 0 ticks).flatten =
        List.replicate (performer.repeatsIn (timeIn ticks)) .repeated ++
          endingIf (total ≤ timeIn ticks) := by
      intro ticks
      rw [flatten_tellings performer.repeatsIn_mono (repeatsIn_of_le long lasting), told,
        repeatsIn_zero, Nat.zero_add, Nat.sub_zero]
      simp [long]
    constructor
    · exact length_tellings ..
    · intro j _
      rw [take_tellings, told_all, List.count_append, List.count_replicate_self, count_endingIf,
        Nat.add_zero]
    · intro j events here
      have within : j < ticks.length := by
        rw [← length_tellings total performer.repeatsIn 0 ticks]
        exact (List.getElem?_eq_some_iff.1 here).1
      rw [getElem?_tellings _ _ _ within, Nat.zero_add, Nat.zero_add] at here
      obtain rfl := Option.some.inj here
      simp [told, mem_endingIf]
    · exact told_all ticks
    · exact later.running lasting
    · rintro c track rfl
      obtain rfl := Option.some.inj lasting
      cases later with
      | clip _ _ lasts =>
        refine ⟨_, rfl, ?_, Clip.past_le _ _ _⟩
        split
        · next going => exact Clip.past_of_running lasts going
        · next spent =>
          have ended := Clip.past_of_over lasts (Nat.not_lt.1 spent)
          exact congrArg (fun clip => clip.elapsed.ns) ended
    · rintro c track rfl running delta next
      have lasts : 0 < c.duration.ns := by
        cases later with
        | clip _ _ lasts => exact lasts
      exact Clip.rollOver_of_tick running lasts
  · cases done.symm.trans failed

/-- What a performer that ends by itself reports after its start, and what it becomes, adds up from
the ticks that go by: it repeats once for every round but the last that is over and ends once, with
the tick by which its whole time has gone by. How the time is cut into ticks makes no difference. -/
theorem ticks_add_up (idle : performer.running = false) (lasting : performer.lasts = some total) :
    (total = 0 → (performer.act .start).1 = [.started, .ended] ∧
      (performer.act .start).2.running = false) ∧
    (0 < total → (performer.act .start).1 = [.started] ∧
      (∀ ticks, timeIn ticks ≤ Span.limit →
        ∃ reports last, (performer.act .start).2.elapse ticks = .ok (reports, last)) ∧
      (∀ ticks reports last, (performer.act .start).2.elapse ticks = .ok (reports, last) →
        AddsUp performer total ticks reports last) ∧
      ∀ ticks reports last others again final,
        (performer.act .start).2.elapse ticks = .ok (reports, last) →
        (performer.act .start).2.elapse others = .ok (again, final) →
        timeIn ticks = timeIn others → reports.flatten = again.flatten ∧
          last.running = final.running ∧
          ∀ c track, performer = .clip c track → last = final) := by
  constructor
  · rintro rfl
    exact start_of_zero idle lasting
  · intro long
    obtain ⟨started, aged⟩ := start_aged idle lasting long
    refine ⟨started, ?_, fun _ _ _ => aged.addsUp lasting long, ?_⟩
    · intro ticks within
      rcases aged.elapse lasting ticks with ⟨last, all, _⟩ | ⟨_, beyond⟩
      · exact ⟨_, last, all⟩
      · rw [Nat.zero_add] at beyond
        omega
    · intro ticks reports last others again final one other same
      have here := aged.addsUp lasting long one
      have there := aged.addsUp lasting long other
      refine ⟨by rw [here.reported, there.reported, same],
        by rw [here.running, there.running, same], ?_⟩
      rintro c track rfl
      obtain ⟨elapsed, rfl, past, _⟩ := here.clip c track rfl
      obtain ⟨_, rfl, past', _⟩ := there.clip c track rfl
      rw [← same, ← past] at past'
      rw [same, Span.ext past']

/-- Three rounds of ten nanoseconds. -/
def threeRounds : Performer := .clip (.fresh ⟨10, by decide⟩ 2) (some "rounds")

theorem ticks_add_up_threeRounds : threeRounds.running = false ∧ threeRounds.lasts = some 30 ∧
    (threeRounds.act .start).1 = [.started] ∧
    ∃ last, (threeRounds.act .start).2.elapse [⟨25, by decide⟩, ⟨2, by decide⟩, ⟨8, by decide⟩] =
        .ok ([[.repeated, .repeated], [], [.ended]], last) ∧
      AddsUp threeRounds 30 [⟨25, by decide⟩, ⟨2, by decide⟩, ⟨8, by decide⟩]
        [[.repeated, .repeated], [], [.ended]] last := by
  have idle : threeRounds.running = false := rfl
  have lasting : threeRounds.lasts = some 30 := rfl
  obtain ⟨started, _, adds, _⟩ := (ticks_add_up idle lasting).2 (by decide)
  exact ⟨idle, lasting, started, _, rfl, adds _ _ _ rfl⟩

end Performer

end Choreo
