import Choreo.Proofs.Sequence.Obedient
import Choreo.Proofs.World.Holdings

/-!
# Nested runs and their holders

A sequence that is a unit of another one serves the requests of its own channel when it is called,
and a start that is asked for there may make it run again after it has reported its end. Its holder
has then taken it out of what plays, and ends without it. As long as nobody asks it for that, a
nested sequence is a unit that keeps its word, so it runs just while its holder plays it: at every
depth, and whatever the listeners ask of all the others.
-/

namespace Choreo

/-- A sequence that is set up, with no run going on and nothing to look at. -/
structure Sequence.Dormant {U : Type} (sequence : Sequence U) : Prop where
  grounded : sequence.Grounded
  coherent : sequence.conductor.Coherent
  idle : sequence.conductor.phase = .idle
  empty : sequence.queue = []

namespace Sequence

theorem Dormant.resting {U : Type} {b : Behaviour U} {terms : Terms U} {sequence : Sequence U}
    (dormant : sequence.Dormant) (fits : sequence.registry.Fits terms.fit)
    (still : sequence.Still b terms.counts) : sequence.Resting b terms := by
  have nobody := (dormant.coherent.idle dormant.idle).1
  have sane : sequence.Sane terms.fit :=
    ⟨dormant.grounded, dormant.coherent, fits, by simp [nobody]⟩
  exact Winding.resting ⟨sane, by simp [dormant.idle], still⟩ dormant.idle dormant.empty

variable {sequence : Sequence Member}

theorem dormant_empty (number : Nat) : (empty number).All Dormant :=
  all_iff.2 ⟨⟨grounded_empty number, Conductor.coherent_fresh, rfl, rfl⟩, fits_empty number _⟩

theorem All.enter (all : sequence.All Dormant) (label : Option String) {member : Member}
    (dormant : member.All Dormant) : (sequence.add label member).2.All Dormant := by
  obtain ⟨own, units⟩ := all_iff.1 all
  refine all_iff.2 ⟨⟨own.grounded.engage _, own.coherent, own.idle, own.empty⟩,
    fun id other known => ?_⟩
  have after : (sequence.add label member).2.registry.get? id =
      if id = sequence.registry.nextId then some member else sequence.registry.get? id :=
    sequence.registry.get?_push _ id
  rw [after] at known
  split at known
  · cases known
    exact dormant
  · exact units id other known

theorem All.relate (all : sequence.All Dormant) {after : Sequence Member}
    (related : after.Grounded ∧ Extended Member.timer sequence after) : after.All Dormant := by
  obtain ⟨own, units⟩ := all_iff.1 all
  obtain ⟨grounded, extended⟩ := related
  have old := own.coherent
  refine all_iff.2 ⟨⟨grounded, ?_, ?_, extended.queue.trans own.empty⟩, fun id other known => ?_⟩
  · rw [extended.conductor]
    exact ⟨old.nodup, old.idle, old.running, old.canceling, old.ending⟩
  · rw [extended.conductor]
    exact own.idle
  · rcases extended.made id other known with before | ⟨-, delay, rfl⟩
    · exact units id other before
    · trivial

end Sequence

namespace Member

/-- What a holder relies on where sequences keep to the terms: those in it are at rest, and pay for
every start with an end if they have this number, on stages where nobody asks them to start. -/
def holding (inner : Behaviour Member) (terms : Terms Member) (number : Nat) : Terms Member where
  fit member :=
    match member with
    | .performer .. => True
    | .ensemble _ sequence => sequence.Resting inner terms
  counts member :=
    match member with
    | .performer .. => False
    | .ensemble _ sequence => sequence.number = number
  stages := Stage.Unbidden number

/-- What is relied on at a depth. Below it sequences do nothing, so they have to be dormant. -/
def terms (number : Nat) : Nat → Terms Member
  | 0 => ⟨Member.All Sequence.Dormant, fun _ => False, Stage.Unbidden number⟩
  | depth + 1 => holding (behaviour depth) (terms number depth) number

theorem stages_terms (number depth : Nat) :
    (terms number depth).stages = Stage.Unbidden number := by
  cases depth <;> rfl

section Calls

variable {inner : Behaviour Member} {terms : Terms Member} {number : Nat}
  (honors : inner.Honors terms)
  (stages : terms.stages = Stage.Unbidden number) {watch : Option String}
    {sequence : Sequence Member}
  {stage : Stage} (rest : sequence.Resting inner terms) (unbidden : stage.Unbidden number)

include stages rest unbidden in
theorem rests_logCall (watch : Option String) (line : String → Line) :
    (⟨sequence, logCall watch line stage⟩ : Live Member).Rests inner terms :=
  ⟨rest, stages.symm ▸ unbidden.of_channels (channels_logCall watch line stage)⟩

include honors stages rest unbidden in
theorem conduct_holding (act : Act) :
    (holding inner terms number).fit (conduct inner act watch sequence stage).2.1 ∧
      (conduct inner act watch sequence stage).2.2.Unbidden number := by
  have called := rests_logCall stages rest unbidden watch (Line.told · act)
  have after := Live.respond_rests honors act called
  rw [conduct, Live.actAsUnit_eq]
  exact ⟨after.toResting, (stages ▸ after.stages).of_channels (channels_logReport ..)⟩

theorem counts_of_conduct {act : Act}
    (counts : (holding inner terms number).counts (conduct inner act watch sequence stage).2.1) :
    sequence.number = number := by
  obtain ⟨called, story, next, moves, same⟩ := moves_conduct inner act watch sequence stage
  rw [same] at counts
  exact Eq.trans (moves.setting inner.throughout_owner).symm counts

include honors stages rest unbidden in
theorem conduct_start (own : sequence.number = number) (idle : sequence.isIdle = true) :
    (conduct inner .start watch sequence stage).1.count .ended +
      (running (conduct inner .start watch sequence stage).2.1).toNat = 1 := by
  have called := rests_logCall stages rest unbidden watch (Line.told · .start)
  exact Live.actAsUnit_start honors (fun _ good => stages ▸ good) called own
    (Sequence.isIdle_iff.1 idle)

include honors stages rest unbidden in
theorem conduct_stop (own : sequence.number = number) {act : Act} (stops : act ≠ .start) :
    running (conduct inner act watch sequence stage).2.1 = false := by
  have called := rests_logCall stages rest unbidden watch (Line.told · act)
  exact Bool.toNat_eq_zero.1
    (Live.actAsUnit_stop honors (fun _ good => stages ▸ good) called own stops)

include honors stages rest unbidden in
theorem conductTick_holding (delta : Span) {events : List Lifecycle}
    (done : (conductTick inner delta watch sequence stage).1 = .ok events) :
    (holding inner terms number).fit (conductTick inner delta watch sequence stage).2.1 ∧
      (conductTick inner delta watch sequence stage).2.2.Unbidden number := by
  have called := rests_logCall stages rest unbidden watch Line.ticked
  have after := Live.tickAsUnit_rests honors delta called
  rw [conductTick] at done ⊢
  rcases reply : Live.tickAsUnit inner delta ⟨sequence, logCall watch Line.ticked stage⟩ with
    ⟨overflow | told, next⟩
  · rw [reply] at done
    cases done
  · rw [reply] at after
    have after := after ⟨told, rfl⟩
    exact ⟨after.toResting, (stages ▸ after.stages).of_channels (channels_logReport ..)⟩

theorem counts_of_conductTick {delta : Span} (counts : (holding inner terms number).counts
      (conductTick inner delta watch sequence stage).2.1) :
    sequence.number = number := by
  obtain ⟨called, story, next, moves, same⟩ := moves_conductTick inner delta watch sequence stage
  rw [same] at counts
  exact Eq.trans (moves.setting inner.throughout_owner).symm counts

include honors stages rest unbidden in
theorem conductTick_settles (own : sequence.number = number)
    (delta : Span) {events : List Lifecycle}
    (done : (conductTick inner delta watch sequence stage).1 = .ok events) :
    events.count .ended + (running (conductTick inner delta watch sequence stage).2.1).toNat =
      (!sequence.isIdle).toNat := by
  have called := rests_logCall stages rest unbidden watch Line.ticked
  have paid := @Live.tickAsUnit_settles _ _ _ _ _ honors (fun _ good => stages ▸ good) called
    own delta
  rw [conductTick] at done ⊢
  rcases reply : Live.tickAsUnit inner delta ⟨sequence, logCall watch Line.ticked stage⟩ with
    ⟨overflow | told, next⟩
  · rw [reply] at done
    cases done
  · rw [reply] at paid done
    cases done
    exact paid rfl

end Calls

theorem honors (number depth : Nat) : (behaviour depth).Honors (terms number depth) := by
  have performs : ∀ act watch p (stage : Stage), stage.Unbidden number →
      (perform act watch p stage).2.2.Unbidden number := fun act watch p stage unbidden =>
    unbidden.of_channels (channels_perform act watch p stage)
  have passes : ∀ delta watch p (stage : Stage), stage.Unbidden number →
      (pass delta watch p stage).2.2.Unbidden number := fun delta watch p stage unbidden =>
    unbidden.of_channels (channels_pass delta watch p stage)
  induction depth with
  | zero =>
    constructor
    · exact fun delay => ⟨trivial, False.elim⟩
    · exact fun other events stage unbidden => unbidden.announceAll other events
    · exact fun next unbidden => (unbidden.take next).2
    · intro act member stage fits unbidden
      cases member with
      | performer watch p => exact ⟨trivial, performs act watch p stage unbidden⟩
      | ensemble watch sequence => exact ⟨fits, unbidden⟩
    · exact fun _ _ _ => False.elim
    · exact fun _ _ _ _ => False.elim
    · exact fun _ _ _ _ _ => False.elim
    · intro delta member stage events fits unbidden done
      cases member with
      | performer watch p => exact ⟨trivial, passes delta watch p stage unbidden⟩
      | ensemble watch sequence => exact ⟨fits, unbidden⟩
    · exact fun _ _ _ => False.elim
    · exact fun _ _ _ _ _ _ => False.elim
  | succ depth ih =>
    have stages := stages_terms number depth
    constructor
    · exact fun delay => ⟨trivial, False.elim⟩
    · exact fun other events stage unbidden => unbidden.announceAll other events
    · exact fun next unbidden => (unbidden.take next).2
    · intro act member stage fits unbidden
      cases member with
      | performer watch p => exact ⟨trivial, performs act watch p stage unbidden⟩
      | ensemble watch sequence => exact conduct_holding ih stages fits unbidden act
    · intro act member stage counts
      cases member with
      | performer watch p => exact counts.elim
      | ensemble watch sequence => exact counts_of_conduct counts
    · intro member stage fits unbidden counts idle
      cases member with
      | performer watch p => exact counts.elim
      | ensemble watch sequence =>
        exact conduct_start ih stages fits unbidden counts
          (by simpa [behaviour, running] using idle)
    · intro act member stage fits unbidden counts stops
      cases member with
      | performer watch p => exact counts.elim
      | ensemble watch sequence => exact conduct_stop ih stages fits unbidden counts stops
    · intro delta member stage events fits unbidden done
      cases member with
      | performer watch p => exact ⟨trivial, passes delta watch p stage unbidden⟩
      | ensemble watch sequence => exact conductTick_holding ih stages fits unbidden delta done
    · intro delta member stage counts
      cases member with
      | performer watch p => exact counts.elim
      | ensemble watch sequence => exact counts_of_conductTick counts
    · intro delta member stage events fits unbidden counts done
      cases member with
      | performer watch p => exact counts.elim
      | ensemble watch sequence =>
        exact conductTick_settles ih stages fits unbidden counts delta done

end Member

namespace Sequence

variable {root outer : Sequence Member}

theorem All.resting (all : root.All Dormant) (number depth : Nat) :
    root.Resting (Member.behaviour depth) (Member.terms number depth) := by
  induction depth generalizing root with
  | zero =>
    obtain ⟨own, units⟩ := all_iff.1 all
    exact own.resting units fun _ _ _ => False.elim
  | succ depth ih =>
    obtain ⟨own, units⟩ := all_iff.1 all
    refine own.resting (fun id member known => ?_) fun id member known counts => ?_
    · cases member with
      | performer => trivial
      | ensemble watch nested => exact ih (units id _ known)
    · cases member with
      | performer => exact counts.elim
      | ensemble watch nested =>
        have idle := isIdle_iff.2 (units id _ known nested (.self nested)).idle
        simp [Member.behaviour, Member.running, idle]

theorem Holds.resting (held : root.Holds outer) {number depth : Nat}
    (rest : root.Resting (Member.behaviour depth) (Member.terms number depth)) :
    ∃ depth, outer.Resting (Member.behaviour depth) (Member.terms number depth) := by
  induction held generalizing depth with
  | self => exact ⟨depth, rest⟩
  | unit known _ ih =>
    have fits := rest.sane.fits _ _ known
    cases depth with
    | zero => exact ih (All.resting fits number 0)
    | succ depth => exact ih fits

theorem Resting.nested {number depth : Nat}
    (rest : outer.Resting (Member.behaviour depth) (Member.terms number depth)) {id : UnitId}
    {watch : Option String} {nested : Sequence Member}
    (known : outer.registry.get? id = some (.ensemble watch nested)) (own : nested.number = number)
    (runs : nested.isIdle = false) : id ∈ outer.conductor.playing.units := by
  cases depth with
  | zero =>
    have fits := rest.sane.fits id _ known
    rw [isIdle_iff.2 (fits nested (.self nested)).idle] at runs
    cases runs
  | succ depth =>
    exact (rest.running_iff known own).1 (by simp [Member.behaviour, Member.running, runs])

end Sequence

/-- A cue by which nothing comes in from outside: no unit, no report, and nothing that is done to
the stage. -/
def Cue.inside {U : Type} : Cue U → Bool
  | .add .. | .report _ | .meanwhile _ => false
  | _ => true

theorem Cue.honest_of_inside {U : Type} (b : Behaviour U) (terms : Terms U) {cue : Cue U}
    (inside : cue.inside = true) : cue.Honest b terms := by
  cases cue with
  | add | report | meanwhile => cases inside
  | _ => trivial

namespace Member

/-- Whatever a tree of sequences is asked to do, and whatever its listeners ask of any of them: once
a call has come back, a nested sequence that nobody asks to start through its own channel runs only
while it is in the list of what its holder plays, and when its holder is idle it does not run. -/
theorem nested_runs_played (depth : Nat) (root : Sequence Member) (stage : Stage)
    (cues : List (Cue Member))
    (dormant : root.All Sequence.Dormant) (inside : ∀ cue ∈ cues, cue.inside = true)
    (returned : ∀ outcome ∈ (Live.rehearse (behaviour depth) cues ⟨root, stage⟩).1,
      outcome.returns = true) :
    let live := (Live.rehearse (behaviour depth) cues ⟨root, stage⟩).2
    ∀ outer, live.sequence.Holds outer →
      ∀ id watch nested, outer.registry.get? id = some (.ensemble watch nested) →
        stage.Unbidden nested.number →
          (nested.isIdle = false → id ∈ outer.conductor.playing.units) ∧
          (outer.isIdle = true → nested.isIdle = true) := by
  intro live outer held id watch nested known unbidden
  have before : (⟨root, stage⟩ : Live Member).Rests (behaviour depth) (terms nested.number depth) :=
    ⟨dormant.resting nested.number depth, (stages_terms nested.number depth).symm ▸ unbidden⟩
  have rest : live.sequence.Resting (behaviour depth) (terms nested.number depth) :=
    (Live.rehearse_rests (honors nested.number depth)
      (fun cue member => Cue.honest_of_inside _ _ (inside cue member)) before returned).toResting
  obtain ⟨less, rest⟩ := held.resting rest
  have plays := rest.nested known rfl
  refine ⟨plays, fun idle => ?_⟩
  by_contra runs
  have member := plays (by simpa using runs)
  rw [(rest.sane.coherent.idle (Sequence.isIdle_iff.1 idle)).1] at member
  cases member

/-- The member is a sequence of this number, and its run goes on. -/
def goesOn (number : Nat) : Member → Bool
  | .performer .. => false
  | .ensemble _ sequence => sequence.number == number && !sequence.isIdle

theorem exists_of_goesOn {number : Nat} {member? : Option Member}
    (found : member?.elim false (goesOn number) = true) :
    ∃ watch nested, member? = some (.ensemble watch nested) ∧ nested.number = number ∧
      nested.isIdle = false := by
  rcases member? with _ | (_ | ⟨watch, nested⟩)
  · cases found
  · cases found
  · exact ⟨watch, nested, rfl, by simpa [goesOn] using found⟩

/-- A sequence of a silent puppet, which runs until it is told to stop. -/
def inset : Sequence Member :=
  ((Sequence.empty 1).add none (.performer none (.puppet (.fresh .manual true)))).2.playWith timer
    (some ⟨1, 0⟩) []

/-- A sequence of nothing but that one. -/
def frame : Sequence Member :=
  ((Sequence.empty 0).add none (.ensemble none inset)).2.playWith timer (some ⟨0, 0⟩) []

/-- When the first run of the inset is over a listener asks for a start of the sequence of this
number. -/
def plea (number : Nat) : Stage :=
  Stage.bare.openChannel.openChannel.listen 1 "audience" [⟨.ended, 0, 1, [.send number .start]⟩]

theorem dormant_frame : frame.All Sequence.Dormant := by
  have inner : inset.All Sequence.Dormant := by
    have entered := (Sequence.dormant_empty 1).enter none
      (show All Sequence.Dormant (.performer none (.puppet (.fresh .manual true))) from trivial)
    exact entered.relate ((Sequence.all_iff.1 entered).1.grounded.playWith timer (some ⟨1, 0⟩) [])
  have entered := (Sequence.dormant_empty 0).enter none
    (show All Sequence.Dormant (.ensemble none inset) from inner)
  exact entered.relate ((Sequence.all_iff.1 entered).1.grounded.playWith timer (some ⟨0, 0⟩) [])

theorem unbidden_plea : (plea 0).Unbidden 1 := by
  have modest : ¬ (Action.add 1 "audience" [⟨.ended, 0, 1, [.send 0 .start]⟩]).Bids 1 := by
    rintro (_ | ⟨among, part, bids⟩)
    cases List.mem_singleton.1 among
    cases List.mem_singleton.1 part
    cases bids
  exact ((Stage.unbidden_bare 1).openChannel.openChannel).react modest

/-- The frame is told to start and to end, and then serves what the listener asked of it: it runs
again, and so does the inset, which plays. -/
theorem nested_runs_played_again :
    frame.All Sequence.Dormant ∧ (plea 0).Unbidden 1 ∧
      (Live.rehearse (behaviour 1) [.start, .finish] ⟨frame, plea 0⟩).1 = [.done, .done] ∧
      (⟨0, 0⟩ : UnitId) ∈
        (Live.rehearse (behaviour 1) [.start, .finish]
          ⟨frame, plea 0⟩).2.conductor.playing.units := by
  have outcomes : (Live.rehearse (behaviour 1) [.start, .finish] ⟨frame, plea 0⟩).1 =
      [.done, .done] := by cbv
  have returned : ∀ outcome ∈ [Outcome.done, .done], outcome.returns = true := by
    simp [Outcome.returns]
  obtain ⟨watch, nested, known, own, runs⟩ := exists_of_goesOn
    (show ((Live.rehearse (behaviour 1) [.start, .finish] ⟨frame, plea 0⟩).2.sequence.registry.get?
      ⟨0, 0⟩).elim false (goesOn 1) = true by cbv)
  exact ⟨dormant_frame, unbidden_plea, outcomes,
    (nested_runs_played 1 frame (plea 0) [.start, .finish] dormant_frame (by simp [Cue.inside])
      (outcomes ▸ returned) _ (.self _) ⟨0, 0⟩ watch nested known (own ▸ unbidden_plea)).1 runs⟩

/-- If the listener asks that of the inset instead the frame is idle and nothing plays in it, but
the inset runs. -/
theorem nested_outlives_holder :
    frame.All Sequence.Dormant ∧
      (Live.rehearse (behaviour 1) [.start, .finish] ⟨frame, plea 1⟩).1 = [.done, .done] ∧
      (Live.rehearse (behaviour 1) [.start, .finish] ⟨frame, plea 1⟩).2.sequence.isIdle = true ∧
      (Live.rehearse (behaviour 1) [.start, .finish] ⟨frame, plea 1⟩).2.conductor.playing.units =
        [] ∧
      ∃ watch nested, (Live.rehearse (behaviour 1) [.start, .finish]
        ⟨frame, plea 1⟩).2.sequence.registry.get? ⟨0, 0⟩ = some (.ensemble watch nested) ∧
          nested.number = 1 ∧ nested.isIdle = false :=
  ⟨dormant_frame, by cbv, by cbv, by cbv, exists_of_goesOn (by cbv)⟩

end Member

end Choreo
