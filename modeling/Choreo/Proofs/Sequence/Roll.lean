import Choreo.Proofs.Sequence.Moves
import Choreo.Proofs.Sequence.Reached
import Choreo.Proofs.Sequence.Replay

/-!
# The roll of a run

While a run lasts, the units that were told to start are entered in a roll, and the end of the run
clears it. Whatever is decided, a unit on the roll is not told to start: it was released when it was
entered, and what was released stays so until the run is over.
-/

namespace Choreo

namespace Happening

def summons? : Happening → Option UnitId
  | .asked unit (some .start) _ => some unit
  | _ => none

/-- Which units were told to start in a story. -/
def summons (story : List Happening) : List UnitId := story.filterMap summons?

/-- Enters a unit that is told to start in the roll, which must not hold it yet; an end clears the
roll. -/
def enrol (roll : List UnitId) : Happening → Option (List UnitId)
  | .asked unit (some .start) _ => if unit ∈ roll then none else some (unit :: roll)
  | .announced .ended => some []
  | _ => some roll

def enrolAll (roll : List UnitId) (story : List Happening) :
    Option (List UnitId) := story.foldlM enrol roll

theorem enrolAll_append (roll : List UnitId) (story more : List Happening) :
    enrolAll roll (story ++ more) = (enrolAll roll story).bind fun roll => enrolAll roll more :=
  List.foldlM_append ..

theorem enrolAll_cons (roll : List UnitId) (happening : Happening) (story : List Happening) :
    enrolAll roll (happening :: story) = (enrol roll happening).bind fun roll =>
      enrolAll roll story :=
  List.foldlM_cons ..

theorem enrolAll_of_outward (roll : List UnitId) {story : List Happening}
    (outward : inward story = []) :
    enrolAll roll story = some roll := by
  induction story with
  | nil => rfl
  | cons happening story ih =>
    obtain ⟨now, later⟩ := List.forall_mem_cons.1 (List.filter_eq_nil_iff.1 outward)
    rw [enrolAll_cons]
    cases happening with
    | asked | announced | refused => exact absurd rfl now
    | cued | called | told | left | joined | sent | served =>
      exact ih (List.filter_eq_nil_iff.2 later)

/-- As long as no end clears the roll, none of those on it is told to start, and no unit is
twice. -/
theorem nodup_summons {roll after : List UnitId} {story : List Happening}
    (entered : enrolAll roll story = some after) (going : .announced .ended ∉ story) :
    (summons story).Nodup ∧ ∀ unit ∈ roll, unit ∉ summons story := by
  induction story generalizing roll with
  | nil => simp [summons]
  | cons happening story ih =>
    rw [enrolAll_cons, Option.bind_eq_some_iff] at entered
    obtain ⟨next, now, later⟩ := entered
    obtain ⟨first, going⟩ := not_or.1 (mt List.mem_cons.2 going)
    obtain ⟨distinct, apart⟩ := ih later going
    have same : (∃ unit reply, happening = .asked unit (some .start) reply) ∨
        enrol roll happening = some roll ∧ summons (happening :: story) = summons story := by
      cases happening with
      | asked unit act reply =>
        rcases act with _ | _ | _ | _
        · exact .inr ⟨rfl, rfl⟩
        · exact .inl ⟨unit, reply, rfl⟩
        · exact .inr ⟨rfl, rfl⟩
        · exact .inr ⟨rfl, rfl⟩
      | announced event =>
        cases event with
        | ended => exact absurd rfl first
        | started | canceled | repeated => exact .inr ⟨rfl, rfl⟩
      | cued | called | told | left | joined | sent | served | refused => exact .inr ⟨rfl, rfl⟩
    rcases same with ⟨unit, reply, rfl⟩ | ⟨still, rest⟩
    · rw [enrol] at now
      split at now
      · cases now
      · rename_i absent
        cases now
        have split : summons (.asked unit (some .start) reply :: story) =
            unit :: summons story := rfl
        rw [split]
        refine ⟨List.nodup_cons.2 ⟨apart unit (List.mem_cons_self ..), distinct⟩,
          fun other member => ?_⟩
        rw [List.mem_cons, not_or]
        exact ⟨fun here => absent (here ▸ member), apart other (List.mem_cons_of_mem _ member)⟩
    · rw [still] at now
      cases now
      rw [rest]
      exact ⟨distinct, apart⟩

end Happening

/-! ### What a decision enters in the roll -/

namespace Conductor

variable {c : Conductor}

/-- Whoever is on the roll of a run was released in it. -/
structure Enrolled (called : List UnitId) (c : Conductor) : Prop where
  idle : c.phase = .idle → called = []
  released : ∀ unit ∈ called, c.Released unit

theorem enrolled_nil (c : Conductor) : c.Enrolled [] :=
  ⟨fun _ => rfl, fun _ member => by cases member⟩

theorem ended_last (c : Conductor) (operation : Operation)
    (ended : Command.announce .ended ∈ (c.operate operation).1.commands) :
    ∃ commands, (c.operate operation).1.commands = commands ++ [.announce .ended] ∧
      .announce .ended ∉ commands := by
  cases operation with
  | begin =>
    rcases begin_cases c with ⟨-, begun⟩ | ⟨cycle, -, -, begun⟩ |
      ⟨order, opened, -, -, -, ⟨-, begun⟩ | ⟨-, begun⟩⟩
    all_goals simp only [operate, begun] at ended ⊢
    · cases ended
    · cases ended
    · exact ⟨[.announce .started], rfl, by simp⟩
    · simp at ended
  | step report =>
    simp only [operate] at ended ⊢
    by_cases idle : c.phase = .idle
    · rw [step_of_idle report idle] at ended
      cases ended
    cases found : c.graph.nodeFor? report.unit with
    | none =>
      rw [step_of_absent found] at ended
      cases ended
    | some node =>
      rw [step_eq idle found] at ended ⊢
      split at ended
      · have silent := silent_absorb .ended node c .ended
        rename_i past
        rw [if_pos past]
        simp only [leave] at ended ⊢
        split at ended
        · rename_i last
          rw [if_pos last]
          exact ⟨_, rfl, silent⟩
        · exact absurd ended silent
      · exact absurd ended (silent_absorb report.event node c .ended)
  | cancel =>
    simp only [operate, cancelRun] at ended
    split at ended
    · simp only at ended
      split at ended <;> simp at ended
    · cases ended
  | finish =>
    simp only [operate, endRun] at ended
    split at ended
    · simp at ended
    · cases ended
  | settle =>
    simp only [operate, settle] at ended ⊢
    split at ended
    · rename_i phase
      rw [phase]
      exact ⟨[], rfl, by simp⟩
    · rename_i phase
      rw [phase]
      exact ⟨[], rfl, by simp⟩
    · cases ended
    · cases ended
  | edit | refill => cases ended

/-- While there is no run nothing is started, unless one begins, and then it goes on or is over at
once. -/
theorem started_of_idle (idle : c.phase = .idle) (operation : Operation)
    (still : (c.operate operation).2.phase = .idle) : (c.operate operation).1.started = [] := by
  cases operation with
  | begin =>
    rcases begin_cases c with ⟨active, -⟩ | ⟨cycle, -, -, begun⟩ |
      ⟨order, opened, -, -, rfl, ⟨-, begun⟩ | ⟨-, begun⟩⟩
    · exact absurd idle active
    all_goals simp only [operate, begun] at still ⊢
    · rfl
    · rfl
    · cases still
  | step | cancel | finish | settle => rw [operate_of_idle idle rfl]; rfl
  | edit | refill => rfl

/-- Nobody on the roll is told to start, and nobody twice; as long as the run is not over, those who
are told to start are enrolled. -/
theorem Enrolled.operate {called : List UnitId} (enrolled : c.Enrolled called)
    (reached : c.Reachable) (operation : Operation) :
    let done := c.operate operation
    done.1.started.Nodup ∧ (∀ unit ∈ done.1.started, unit ∉ called) ∧
      (.announce .ended ∉ done.1.commands →
        ∀ roll, (∀ unit ∈ roll, unit ∈ called ∨ unit ∈ done.1.started) → done.2.Enrolled roll) := by
  intro done
  by_cases idle : c.phase = .idle
  · obtain rfl := enrolled.idle idle
    have summoned : done.1.started.Nodup ∧ ∀ unit ∈ done.1.started, done.2.Released unit := by
      by_cases still : done.2.phase = .idle
      · rw [started_of_idle idle operation still]
        exact ⟨.nil, fun _ member => by cases member⟩
      · cases operation with
        | begin => exact begin_summons reached.sound idle
        | step | cancel | finish | settle =>
          have nothing : done = (.nothing, c) := operate_of_idle idle rfl
          rw [nothing] at still
          exact absurd idle still
        | edit | refill => exact absurd idle still
    refine ⟨summoned.1, fun unit _ => List.not_mem_nil, fun _ roll known => ⟨fun still => ?_,
      fun unit member => summoned.2 unit ((known unit member).resolve_left List.not_mem_nil)⟩⟩
    refine List.eq_nil_iff_forall_not_mem.2 fun unit member => ?_
    have starts := (known unit member).resolve_left List.not_mem_nil
    rw [started_of_idle idle operation still] at starts
    cases starts
  · have summoned := reached.wired.summoned reached.sound.arena idle operation
    have bracketed := (operate_spec reached.sound reached.coherent operation).2
    refine ⟨summoned.distinct,
      fun unit starts member => summoned.anew unit starts (enrolled.released unit member),
      fun going roll known => ⟨fun still => ?_, fun unit member => ?_⟩⟩
    · exact absurd (bracketed.closed_iff_ended.1 (bracketed.closed_iff_idle.2 ⟨still, .inl idle⟩))
        going
    · exact (known unit member).elim
        (fun earlier => summoned.kept unit (enrolled.released unit earlier))
        (summoned.released unit)

end Conductor

/-! ### What a story enters in the roll -/

namespace Live

open Happening

variable {U : Type} {b : Behaviour U}

theorem enrolAll_callStory_start {called : List UnitId} {id : UnitId} (absent : id ∉ called)
    (live : Live U) :
    ∃ roll, enrolAll called (live.callStory b .start id) = some roll ∧
      ∀ unit ∈ roll, unit ∈ called ∨ unit = id := by
  rw [callStory]
  split
  · exact ⟨called, rfl, fun _ => .inl⟩
  · refine ⟨id :: called, ?_, fun unit member => (List.mem_cons.1 member).symm⟩
    rw [enrolAll_cons, enrol, if_neg absent]
    exact enrolAll_of_outward _ (Stage.inward_changes ..)

theorem enrolAll_callStory_stop (called : List UnitId) {act : Act} (stops : act ≠ .start)
    (id : UnitId) (live : Live U) : enrolAll called (live.callStory b act id) = some called := by
  rw [callStory]
  split
  · rfl
  · rw [enrolAll_cons]
    cases act with
    | start => exact absurd rfl stops
    | finish | cancel => exact enrolAll_of_outward _ (Stage.inward_changes ..)

/-- Commands that start nobody on the roll, and nobody twice, enter those whom they start. -/
theorem enrolAll_executeStory {called : List UnitId}
    {commands : List Command} {closed : Bool} (live : Live U)
    (going : .announce .ended ∉ commands) (distinct : (Decision.mk commands closed).started.Nodup)
    (apart : ∀ unit ∈ (Decision.mk commands closed).started, unit ∉ called) :
    ∃ roll, enrolAll called (executeStory b commands live) = some roll ∧
      ∀ unit ∈ roll, unit ∈ called ∨ unit ∈ (Decision.mk commands closed).started := by
  induction commands generalizing called live with
  | nil => exact ⟨called, rfl, fun _ => .inl⟩
  | cons command commands ih =>
    obtain ⟨first, later⟩ := not_or.1 (mt List.mem_cons.2 going)
    cases command with
    | announce event =>
      obtain ⟨roll, entered, known⟩ := ih live later distinct apart
      refine ⟨roll, ?_, known⟩
      rw [executeStory, enrolAll_cons]
      cases event with
      | ended => exact absurd rfl first
      | started | canceled | repeated => exact entered
    | call act id =>
      rw [executeStory, enrolAll_append]
      by_cases starts : act = .start
      · subst starts
        have split : (Decision.mk (.call .start id :: commands) closed).started =
            id :: (Decision.mk commands closed).started := rfl
        rw [split] at distinct apart ⊢
        obtain ⟨once, distinct⟩ := List.nodup_cons.1 distinct
        obtain ⟨absent, apart⟩ := List.forall_mem_cons.1 apart
        obtain ⟨roll, entered, known⟩ := enrolAll_callStory_start (b := b) absent live
        obtain ⟨last, more, known'⟩ := ih (live.call b .start id) later distinct
          fun unit member here =>
          (known unit here).elim (apart unit member) fun same => once (same ▸ member)
        refine ⟨last, by rw [entered]; exact more, fun unit member => ?_⟩
        rcases known' unit member with earlier | now
        · refine (known unit earlier).imp_right ?_
          rintro rfl
          exact List.mem_cons_self ..
        · exact .inr (List.mem_cons_of_mem _ now)
      · have split : (Decision.mk (.call act id :: commands) closed).started =
            (Decision.mk commands closed).started := by
          cases act with
          | start => exact absurd rfl starts
          | finish | cancel => rfl
        rw [split] at distinct apart ⊢
        obtain ⟨roll, entered, known⟩ := ih (live.call b act id) later distinct apart
        exact ⟨roll, by rw [enrolAll_callStory_stop called starts]; exact entered, known⟩

theorem executeStory_append (commands more : List Command) (live : Live U) :
    executeStory b (commands ++ more) live =
      executeStory b commands live ++ executeStory b more (execute b commands live).2 := by
  induction commands generalizing live with
  | nil => rfl
  | cons command commands ih =>
    cases command with
    | call act id => rw [List.cons_append, executeStory, executeStory, ih, List.append_assoc]; rfl
    | announce event => rw [List.cons_append, executeStory, executeStory, ih]; rfl

/-- A story enters in this roll those whom it starts, and the roll is kept. -/
def Enrols (called : List UnitId) (story : List Happening) (next : Live U) : Prop :=
  ∃ roll, enrolAll called story = some roll ∧ next.conductor.Reachable ∧
    next.conductor.Enrolled roll

theorem Enrols.of_outward {called : List UnitId} {story : List Happening} {next : Live U}
    (outward : inward story = []) (reached : next.conductor.Reachable)
    (enrolled : next.conductor.Enrolled called) :
    Enrols called story next :=
  ⟨called, enrolAll_of_outward called outward, reached, enrolled⟩

theorem Move.enrols {called : List UnitId} {live next : Live U} {story : List Happening}
    (move : Move b live story next) (reached : live.conductor.Reachable)
    (enrolled : live.conductor.Enrolled called) : Enrols called story next := by
  cases move with
  | decide operation performs queue =>
    obtain ⟨distinct, apart, going⟩ := enrolled.operate reached operation
    have reached' : (live.conductor.operate operation).2.Reachable := reached.run [operation]
    rw [Enrols, conductor_execute]
    by_cases ended : Command.announce .ended ∈ (live.conductor.operate operation).1.commands
    · -- the roll is cleared after the commands that come before the announcement
      obtain ⟨commands, same, silent⟩ := Conductor.ended_last live.conductor operation ended
      have starts : (Decision.mk commands false).started =
          (live.conductor.operate operation).1.started := by
        rw [Decision.started, Decision.started, same, List.filterMap_append]
        exact (List.append_nil _).symm
      obtain ⟨roll, entered, -⟩ := enrolAll_executeStory (b := b)
        (live.conducted (live.conductor.operate operation).2 queue) silent (starts ▸ distinct)
        (starts ▸ apart)
      refine ⟨[], ?_, reached', Conductor.enrolled_nil _⟩
      rw [same, executeStory_append, enrolAll_append, entered]
      rfl
    · obtain ⟨roll, entered, known⟩ := enrolAll_executeStory (b := b)
        (live.conducted (live.conductor.operate operation).2 queue) ended distinct apart
      exact ⟨roll, entered, reached', going ended roll known⟩
  | refuse _ refused =>
    obtain ⟨idle, same⟩ : live.conductor.phase = .idle ∧ live.conductor.begin.2.phase = .idle := by
      rcases Conductor.begin_cases live.conductor with ⟨-, begun⟩ | ⟨cycle, idle, -, begun⟩ |
        ⟨order, opened, -, -, -, ⟨-, begun⟩ | ⟨-, begun⟩⟩
      all_goals rw [begun] at refused ⊢
      · cases refused
      · exact ⟨idle, idle⟩
      · cases refused
      · cases refused
    obtain rfl := enrolled.idle idle
    refine ⟨[], rfl, ?_, Conductor.enrolled_nil _⟩
    rw [← Conductor.operate_begin]
    exact reached.run [.begin]
  | tick delta id =>
    rw [Enrols, conductor_tickUnit]
    refine ⟨called, ?_, reached, enrolled⟩
    rw [tickUnitStory]
    split
    · rfl
    · rw [enrolAll_cons]
      exact enrolAll_of_outward called (Stage.inward_changes ..)
  | deliver events => exact .of_outward (Stage.inward_announceAllStory ..) reached enrolled
  | take | enqueue => exact .of_outward rfl reached enrolled

theorem Moves.enrols {called : List UnitId} {live next : Live U} {story : List Happening}
    (moves : Moves b live story next) (reached : live.conductor.Reachable)
    (enrolled : live.conductor.Enrolled called) : Enrols called story next := by
  induction moves generalizing called with
  | nil => exact ⟨called, rfl, reached, enrolled⟩
  | cons now later ih =>
    obtain ⟨roll, entered, reached, enrolled⟩ := now.enrols reached enrolled
    obtain ⟨last, more, after⟩ := ih reached enrolled
    exact ⟨last, by rw [enrolAll_append, entered]; exact more, after⟩

theorem enrolled_relate {called : List UnitId} {live : Live U} (grounded : live.sequence.Grounded)
    (enrolled : live.conductor.Enrolled called) {cue : Cue U} (relates : cue.relates = true) :
    (live.onCue b cue).2.conductor.Enrolled called := by
  obtain ⟨-, -, extended⟩ := extended_onCue b grounded relates
  obtain ⟨changes, same⟩ := extended.edited
  have grown : live.conductor.graph.Extends (live.onCue b cue).2.sequence.graph :=
    same ▸ live.sequence.graph.extends_edits changes
  rw [conductor, extended.conductor]
  exact ⟨enrolled.idle, fun unit member => (enrolled.released unit member).mono grown
    (List.Subset.refl _)⟩

theorem enrols_cueStory {called : List UnitId} {live : Live U} (reached : live.Reached)
    (enrolled : live.conductor.Enrolled called) (cue : Cue U) :
    Enrols called (live.cueStory b cue) (live.onCue b cue).2 := by
  have reached' := (reached.onCue (b := b) cue).conductor
  cases cue with
  | add label unit => exact .of_outward rfl reached' enrolled
  | meanwhile change => exact .of_outward (Stage.inward_changes ..) reached' enrolled
  | play | together | sequential | sort =>
    exact .of_outward rfl reached' (enrolled_relate reached.grounded enrolled rfl)
  | start | finish | cancel | tick | report | serve =>
    exact (moves_onCue b live _ rfl).enrols reached.conductor enrolled

theorem enrols_rehearseStory {called : List UnitId} {live : Live U} (reached : live.Reached)
    (enrolled : live.conductor.Enrolled called) (cues : List (Cue U)) :
    ∃ roll, enrolAll called (live.rehearseStory b cues) = some roll := by
  induction cues generalizing called live with
  | nil => exact ⟨called, rfl⟩
  | cons cue rest ih =>
    obtain ⟨roll, entered, -, enrolled⟩ := enrols_cueStory (b := b) reached enrolled cue
    obtain ⟨last, more⟩ := ih (reached.onCue cue) enrolled
    refine ⟨last, ?_⟩
    rw [rehearseStory, List.cons_append, enrolAll_cons]
    simp only [enrol, Option.bind_some]
    rw [enrolAll_append, entered]
    exact more

/-- In a part of what happens in which no run comes to its end, no unit is told to start twice. -/
theorem summons_within {live : Live U} (reached : live.Reached)
    {cues : List (Cue U)} {part : List Happening} (within : part <:+: live.rehearseStory b cues)
    (going : .announced .ended ∉ part) :
    (summons part).Nodup := by
  obtain ⟨roll, entered⟩ := enrols_rehearseStory (b := b) reached (Conductor.enrolled_nil _) cues
  obtain ⟨earlier, later, story⟩ := within
  rw [← story, enrolAll_append, Option.bind_eq_some_iff] at entered
  obtain ⟨middle, entered, -⟩ := entered
  rw [enrolAll_append, Option.bind_eq_some_iff] at entered
  obtain ⟨called, -, entered⟩ := entered
  exact (nodup_summons entered going).1

end Live

end Choreo
