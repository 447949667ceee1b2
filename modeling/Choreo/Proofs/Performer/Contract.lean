import Mathlib.Data.List.Basic
import Choreo.Proofs.Performer.Replay

/-!
# What performers promise

What a performer reports is made up of stints: a start, its repeats, perhaps a cancel, and the end.
Clips, delays and puppets that are not silent keep to this whatever they are told and however time
goes by, and they run exactly as long as a stint is open.
-/

namespace Choreo

/-- A start and the repeats after it. -/
def opening (repeats : Nat) : List Lifecycle := .started :: List.replicate repeats .repeated

/-- What is reported from a start to the end that belongs to it. -/
def stint (repeats : Nat) (canceled : Bool) : List Lifecycle :=
  opening repeats ++ if canceled then [.canceled, .ended] else [.ended]

/-- Stints one after the other, each with its number of repeats and whether it was broken off. -/
def career (stints : List (Nat × Bool)) : List Lifecycle := stints.flatMap fun s => stint s.1 s.2

theorem career_concat (stints : List (Nat × Bool)) (repeats : Nat) (canceled : Bool) :
    career (stints ++ [(repeats, canceled)]) = career stints ++ stint repeats canceled := by
  simp [career]

theorem opening_add (repeats more : Nat) :
    opening (repeats + more) = opening repeats ++ List.replicate more .repeated := by
  rw [opening, opening, List.replicate_add, List.cons_append]

theorem count_started_stint (repeats : Nat) (canceled : Bool) :
    (stint repeats canceled).count .started = 1 := by
  cases canceled <;> simp [stint, opening, List.count_replicate]

theorem getLast?_stint (repeats : Nat) (canceled : Bool) :
    (stint repeats canceled).getLast? = some .ended := by
  cases canceled <;> simp [stint]

/-- What has been reported by someone who is playing now or not: complete stints, and then an open
one if so. -/
inductive Standing : Bool → List Lifecycle → Prop where
  | resting (past : List (Nat × Bool)) : Standing false (career past)
  | playing (past : List (Nat × Bool)) (repeats : Nat) :
    Standing true (career past ++ opening repeats)

/-- What is reported at one call by someone who is playing before and after it or not. -/
inductive Reply : Bool → List Lifecycle → Bool → Prop where
  | silent : Reply false [] false
  | started : Reply false [.started] true
  | flashed : Reply false [.started, .ended] false
  | went (repeats : Nat) : Reply true (List.replicate repeats .repeated) true
  | ended (repeats : Nat) : Reply true (List.replicate repeats .repeated ++ [.ended]) false
  | canceled : Reply true [.canceled, .ended] false

theorem Reply.none (playing : Bool) : Reply playing [] playing := by
  cases playing with
  | false => exact .silent
  | true => exact .went 0

namespace Standing

variable {before after playing : Bool} {events reply : List Lifecycle}

theorem nil : Standing false [] := .resting []

theorem append (standing : Standing before events) (answered : Reply before reply after) :
    Standing after (events ++ reply) := by
  cases answered with
  | silent => rwa [List.append_nil]
  | started =>
    cases standing with
    | resting past => exact .playing past 0
  | flashed =>
    cases standing with
    | resting past =>
      have whole := career_concat past 0 false
      exact whole ▸ .resting (past ++ [(0, false)])
  | went repeats =>
    cases standing with
    | playing past already =>
      rw [List.append_assoc, ← opening_add]
      exact .playing past (already + repeats)
  | ended repeats =>
    cases standing with
    | playing past already =>
      have whole := career_concat past (already + repeats) false
      rw [stint, opening_add] at whole
      simp only [List.append_assoc] at whole ⊢
      exact whole ▸ .resting (past ++ [(already + repeats, false)])
  | canceled =>
    cases standing with
    | playing past already =>
      have whole := career_concat past already true
      rw [stint, ← List.append_assoc] at whole
      exact whole ▸ .resting (past ++ [(already, true)])

/-- Whatever has been reported can be continued to complete stints. -/
theorem exists_career (standing : Standing playing events) :
    ∃ stints, events <+: career stints := by
  cases standing with
  | resting past => exact ⟨past, List.prefix_rfl⟩
  | playing past repeats =>
    refine ⟨past ++ [(repeats, false)], ?_⟩
    rw [career_concat, stint, ← List.append_assoc]
    exact List.prefix_append _ _

theorem playing_eq_false_iff (standing : Standing playing events) :
    playing = false ↔ events = [] ∨ events.getLast? = some .ended := by
  cases standing with
  | resting past =>
    refine iff_of_true rfl ?_
    rcases List.eq_nil_or_concat' past with rfl | ⟨earlier, last, rfl⟩
    · exact .inl rfl
    · refine .inr ?_
      rw [career_concat, List.getLast?_append, getLast?_stint, Option.some_or]
  | playing past repeats =>
    refine iff_of_false Bool.noConfusion (not_or.2 ⟨by simp [opening], ?_⟩)
    rw [opening, List.getLast?_append, List.getLast?_cons, List.getLast?_replicate, Option.some_or]
    split <;> simp

theorem eq_stint (standing : Standing false events) (once : events.count .started ≤ 1) :
    events = [] ∨ ∃ repeats canceled, events = stint repeats canceled := by
  cases standing with
  | resting past =>
    cases past with
    | nil => exact .inl rfl
    | cons first rest =>
      refine .inr ⟨first.1, first.2, ?_⟩
      cases rest with
      | nil => exact List.append_nil _
      | cons second rest =>
        rw [career, List.flatMap_cons, List.flatMap_cons, List.count_append, List.count_append,
          count_started_stint, count_started_stint] at once
        omega

end Standing

theorem Clip.reach_reply (elapsed : Span) {clip : Clip} (running : clip.running = true) :
    Reply true (clip.reach elapsed).1 (clip.reach elapsed).2.running := by
  rw [reach]
  split
  · exact .ended _
  · rw [running]
    exact .went _

theorem Clip.tick_reply {delta : Span} {events : List Lifecycle} {clip next : Clip}
    (done : clip.tick delta = .ok (events, next)) : Reply clip.running events next.running := by
  rw [tick] at done
  split at done
  · next running =>
    rw [running]
    cases sum : clip.elapsed.add delta with
    | error overflow =>
      rw [sum] at done
      cases done
    | ok elapsed =>
      rw [sum] at done
      have answered := reach_reply elapsed running
      rwa [Except.ok.inj done] at answered
  · cases done
    exact .none _

theorem Delay.tick_reply {delta : Span} {events : List Lifecycle} {delay next : Delay}
    (done : delay.tick delta = .ok (events, next)) : Reply delay.running events next.running := by
  rw [tick] at done
  split at done
  · next running =>
    rw [running]
    cases sum : delay.elapsed.add delta with
    | error overflow =>
      rw [sum] at done
      cases done
    | ok elapsed =>
      rw [sum] at done
      simp only at done
      split at done
      · cases done
        exact .ended 0
      · cases done
        rw [running]
        exact .went 0
  · cases done
    exact .none _

theorem Puppet.tick_reply {delta : Span} {events : List Lifecycle} {puppet next : Puppet}
    (done : puppet.tick delta = .ok (events, next)) :
    Reply puppet.running events next.running ∧ next.silent = puppet.silent := by
  rw [tick] at done
  split at done
  · next duration timed running =>
    rw [running]
    cases sum : puppet.elapsed.add delta with
    | error overflow =>
      rw [sum] at done
      cases done
    | ok elapsed =>
      rw [sum] at done
      simp only at done
      split at done
      · cases done
        exact ⟨.ended 0, rfl⟩
      · cases done
        rw [running]
        exact ⟨.went 0, rfl⟩
  · cases done
    exact ⟨.none _, rfl⟩

namespace Performer

/-- A clip, a delay, or a puppet that is not silent. -/
def Loyal : Performer → Prop
  | .puppet p => p.silent = false
  | .scripted _ => False
  | _ => True

variable {p : Performer}

theorem Loyal.plain (loyal : p.Loyal) : p.Plain := by
  cases p with
  | clip | delay | puppet => trivial
  | scripted unit => exact loyal.elim

theorem Loyal.act (loyal : p.Loyal) (act : Act) : (p.act act).2.Loyal := by
  cases p with
  | clip | delay => trivial
  | scripted unit => exact loyal.elim
  | puppet p =>
    cases act with
    | start =>
      simp only [Performer.act, Puppet.start]
      split
      · exact loyal
      · split <;> exact loyal
    | finish | cancel =>
      simp only [Performer.act, Puppet.finish, Puppet.cancel, Puppet.stop]
      split <;> exact loyal

theorem Loyal.start_of_running (loyal : p.Loyal) (running : p.running = true) :
    p.act .start = ([], p) := by
  cases p with
  | clip c track => rw [Performer.act, Clip.start, if_pos (show c.running = true from running)]
  | delay d => rw [Performer.act, Delay.start, if_pos (show d.running = true from running)]
  | puppet p => rw [Performer.act, Puppet.start, if_pos (show p.running = true from running)]
  | scripted unit => exact loyal.elim

theorem Loyal.start_of_idle (loyal : p.Loyal) (idle : p.running = false) :
    Reply false (p.act .start).1 (p.act .start).2.running := by
  have still : ¬ p.running = true := Bool.eq_false_iff.1 idle
  cases p with
  | clip c track =>
    rw [Performer.act, Clip.start, if_neg (show ¬ c.running = true from still)]
    simp only
    split
    · exact .flashed
    · exact .started
  | delay d =>
    rw [Performer.act, Delay.start, if_neg (show ¬ d.running = true from still)]
    simp only
    split
    · exact .flashed
    · exact .started
  | puppet p =>
    rw [Performer.act, Puppet.start, if_neg (show ¬ p.running = true from still)]
    simp only
    split
    · exact .flashed
    · exact .started
  | scripted unit => exact loyal.elim

theorem Loyal.finish_of_running (loyal : p.Loyal) (running : p.running = true) :
    (p.act .finish).1 = [.ended] ∧ (p.act .finish).2.running = false := by
  cases p with
  | clip c track =>
    rw [Performer.act, Clip.finish, if_pos (show c.running = true from running)]
    exact ⟨rfl, rfl⟩
  | delay d =>
    rw [Performer.act, Delay.finish, if_pos (show d.running = true from running)]
    exact ⟨rfl, rfl⟩
  | puppet p =>
    rw [Performer.act, Puppet.finish, Puppet.stop, if_pos (show p.running = true from running),
      show p.silent = false from loyal]
    exact ⟨rfl, rfl⟩
  | scripted unit => exact loyal.elim

theorem Loyal.cancel_of_running (loyal : p.Loyal) (running : p.running = true) :
    (p.act .cancel).1 = [.canceled, .ended] ∧ (p.act .cancel).2.running = false := by
  cases p with
  | clip c track =>
    rw [Performer.act, Clip.cancel, if_pos (show c.running = true from running)]
    exact ⟨rfl, rfl⟩
  | delay d =>
    rw [Performer.act, Delay.cancel, if_pos (show d.running = true from running)]
    exact ⟨rfl, rfl⟩
  | puppet p =>
    rw [Performer.act, Puppet.cancel, Puppet.stop, if_pos (show p.running = true from running),
      show p.silent = false from loyal]
    exact ⟨rfl, rfl⟩
  | scripted unit => exact loyal.elim

theorem Loyal.act_reply (loyal : p.Loyal) (act : Act) :
    Reply p.running (p.act act).1 (p.act act).2.running := by
  cases running : p.running with
  | true =>
    cases act with
    | start =>
      rw [loyal.start_of_running running, running]
      exact .none _
    | finish =>
      rw [(loyal.finish_of_running running).1, (loyal.finish_of_running running).2]
      exact .ended 0
    | cancel =>
      rw [(loyal.cancel_of_running running).1, (loyal.cancel_of_running running).2]
      exact .canceled
  | false =>
    cases act with
    | start => exact loyal.start_of_idle running
    | finish | cancel =>
      rw [act_of_idle loyal.plain running Act.noConfusion, running]
      exact .none _

theorem Loyal.tick {delta : Span} {events : List Lifecycle}
    {next : Performer} (loyal : p.Loyal) (done : p.tick delta = .ok (events, next)) :
    Reply p.running events next.running ∧ next.Loyal := by
  cases p with
  | clip c track =>
    obtain ⟨reply, ticked, same⟩ := map_eq_ok done
    cases same
    exact ⟨Clip.tick_reply ticked, trivial⟩
  | delay d =>
    obtain ⟨reply, ticked, same⟩ := map_eq_ok done
    cases same
    exact ⟨Delay.tick_reply ticked, trivial⟩
  | puppet p =>
    obtain ⟨reply, ticked, same⟩ := map_eq_ok done
    cases same
    have kept := Puppet.tick_reply ticked
    exact ⟨kept.1, kept.2.trans loyal⟩
  | scripted unit => exact loyal.elim

/-- Something that is asked of a performer: an order, or that time go by. -/
inductive Call where
  | act (act : Act)
  | tick (delta : Span)

/-- What a performer reports at one call, and what it has become. -/
def take (performer : Performer) : Call → Except Overflow (List Lifecycle × Performer)
  | .act act => .ok (performer.act act)
  | .tick delta => performer.tick delta

/-- What a performer reports at each of these calls, and what it has become after the last one. -/
def takeAll (performer : Performer) : List Call →
    Except Overflow (List (List Lifecycle) × Performer)
  | [] => .ok ([], performer)
  | call :: calls => do
    let reply ← performer.take call
    let later ← takeAll reply.2 calls
    return (reply.1 :: later.1, later.2)

theorem Loyal.take {call : Call} {events : List Lifecycle} {next : Performer}
    (loyal : p.Loyal) (done : p.take call = .ok (events, next)) :
    Reply p.running events next.running ∧ next.Loyal := by
  cases call with
  | act act =>
    have answered : p.act act = (events, next) := Except.ok.inj done
    have kept := And.intro (loyal.act_reply act) (loyal.act act)
    rwa [answered] at kept
  | tick delta => exact loyal.tick done

theorem takeAll_cons {call : Call} {calls : List Call} {reports : List (List Lifecycle)}
    {last : Performer} (done : p.takeAll (call :: calls) = .ok (reports, last)) :
    ∃ events next later, p.take call = .ok (events, next) ∧ next.takeAll calls = .ok (later, last) ∧
      reports = events :: later := by
  rw [takeAll] at done
  cases first : p.take call with
  | error overflow =>
    rw [first] at done
    cases done
  | ok reply =>
    rw [first] at done
    simp only [bind, Except.bind] at done
    cases rest : reply.2.takeAll calls with
    | error overflow =>
      rw [rest] at done
      cases done
    | ok later =>
      rw [rest] at done
      cases done
      exact ⟨reply.1, reply.2, later.1, rfl, rest, rfl⟩

theorem Loyal.takeAll {calls : List Call} {reports : List (List Lifecycle)}
    {earlier : List Lifecycle} {last : Performer} (loyal : p.Loyal)
    (standing : Standing p.running earlier) (done : p.takeAll calls = .ok (reports, last)) :
    Standing last.running (earlier ++ reports.flatten) ∧ last.Loyal := by
  induction calls generalizing p earlier reports with
  | nil =>
    cases done
    rw [List.flatten_nil, List.append_nil]
    exact ⟨standing, loyal⟩
  | cons call calls ih =>
    obtain ⟨events, next, later, first, rest, rfl⟩ := takeAll_cons done
    have step := loyal.take first
    rw [List.flatten_cons, ← List.append_assoc]
    exact ih step.2 (standing.append step.1) rest

/-- Whatever a performer is told and however time goes by, what it has reported is part of a series
of complete stints, and it runs unless it has reported nothing or an end last. It takes no notice of
a start while it runs and of anything else while it does not, and reports that it stops when it is
told to. -/
theorem keeps_contract (loyal : p.Loyal) (idle : p.running = false)
    {calls : List Call} {reports : List (List Lifecycle)} {last : Performer}
    (done : p.takeAll calls = .ok (reports, last)) :
    (∃ stints, reports.flatten <+: career stints) ∧
    (last.running = false ↔ reports.flatten = [] ∨ reports.flatten.getLast? = some .ended) ∧
    (last.running = true → last.act .start = ([], last) ∧
      ((last.act .finish).1 = [.ended] ∧ (last.act .finish).2.running = false) ∧
      (last.act .cancel).1 = [.canceled, .ended] ∧ (last.act .cancel).2.running = false) ∧
    (last.running = false → last.act .finish = ([], last) ∧ last.act .cancel = ([], last) ∧
      ∀ delta, last.tick delta = .ok ([], last)) := by
  have fresh : Standing p.running [] := idle ▸ .nil
  obtain ⟨standing, loyal⟩ := loyal.takeAll fresh done
  rw [List.nil_append] at standing
  refine ⟨standing.exists_career, standing.playing_eq_false_iff, fun running => ?_, fun idle => ?_⟩
  · exact ⟨loyal.start_of_running running, loyal.finish_of_running running,
      loyal.cancel_of_running running⟩
  · exact ⟨act_of_idle loyal.plain idle Act.noConfusion,
      act_of_idle loyal.plain idle Act.noConfusion, fun delta => tick_of_idle idle delta⟩

/-- Two rounds of nine nanoseconds. -/
def twoRounds : Performer := .clip (.fresh ⟨9, by decide⟩ 1) none

/-- What a clip is asked that ends by itself, is started anew and broken off. -/
def twoStints : List Call :=
  [.act .start, .tick ⟨14, by decide⟩, .act .start, .tick ⟨6, by decide⟩, .act .finish, .act .start,
    .act .cancel, .act .start]

theorem keeps_contract_twoRounds : ∃ last, twoRounds.takeAll twoStints =
      .ok ([[.started], [.repeated], [], [.ended], [], [.started], [.canceled, .ended], [.started]],
        last) ∧
    last.running = true ∧ last.act .start = ([], last) := by
  have loyal : twoRounds.Loyal := trivial
  obtain ⟨last, done, running⟩ : ∃ last, twoRounds.takeAll twoStints =
      .ok ([[.started], [.repeated], [], [.ended], [], [.started], [.canceled, .ended], [.started]],
        last) ∧
      last.running = true := ⟨_, by cbv, by cbv⟩
  exact ⟨last, done, running, ((keeps_contract loyal rfl done).2.2.1 running).1⟩

end Performer

end Choreo
