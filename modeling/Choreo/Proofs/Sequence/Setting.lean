import Choreo.Proofs.Sequence.Conducting
import Choreo.Proofs.Sequence.Edits
import Choreo.Proofs.Stage.Traffic

/-!
# The setting of a sequence

A sequence changes its units and its stage only by calling units, by telling its listeners of events
and by taking requests out of its channel. So whatever holds between the setting before and the
setting after each of these, and can be carried from one to the next, holds for all that a sequence
does.
-/

namespace Choreo

variable {U : Type}

/-- A relation between settings that calls on units keep to. -/
structure Behaviour.Within (b : Behaviour U)
    (R : Registry U × Stage → Registry U × Stage → Prop) : Prop where
  refl : ∀ setting, R setting setting
  trans : ∀ {first second third}, R first second → R second third → R first third
  act : ∀ act {id unit registry} stage, registry.get? id = some unit →
    R (registry, stage) (registry.update id (b.act act unit stage).2.1, (b.act act unit stage).2.2)
  tick : ∀ delta {id unit registry} stage, registry.get? id = some unit →
    R (registry, stage)
      (registry.update id (b.tick delta unit stage).2.1, (b.tick delta unit stage).2.2)

/-- A relation between settings that deliveries and the serving of requests keep to as well. -/
structure Behaviour.Throughout (b : Behaviour U)
    (R : Registry U × Stage → Registry U × Stage → Prop) :
    Prop extends b.Within R where
  deliver : ∀ events registry stage,
    R (registry, stage) (registry, stage.announceAll registry.owner events)
  take : ∀ {act registry stage after}, stage.nextRequest? registry.owner = some (act, after) →
    R (registry, stage) (registry, after)

/-- Calls, deliveries and the serving of requests leave a register with its owner. -/
theorem Behaviour.throughout_owner (b : Behaviour U) :
    b.Throughout fun before after => after.1.owner = before.1.owner :=
  ⟨⟨fun _ => rfl, fun one two => two.trans one, fun _ _ _ _ _ _ => rfl, fun _ _ _ _ _ _ => rfl⟩,
    fun _ _ _ => rfl, fun _ => rfl⟩

namespace Live

def setting (live : Live U) : Registry U × Stage := (live.sequence.registry, live.stage)

variable {b : Behaviour U} {R : Registry U × Stage → Registry U × Stage → Prop}
  (within : b.Within R) (live : Live U)

include within in
theorem setting_call (act : Act) (id : UnitId) : R live.setting (live.call b act id).setting := by
  rw [call]
  split
  · exact within.refl _
  · rename_i unit known
    exact within.act act live.stage known

include within in
theorem setting_execute (commands : List Command) :
    R live.setting (execute b commands live).2.setting := by
  induction commands generalizing live with
  | nil => exact within.refl _
  | cons command commands ih =>
    cases command with
    | call act unit => exact within.trans (setting_call within live act unit) (ih _)
    | announce event => exact ih live

include within in
theorem setting_drain : R live.setting (live.drain b).2.setting := by
  induction live using Live.drain.induct b with
  | case1 live none =>
    rw [drain_of_nil b none]
    exact within.refl _
  | case2 live report rest queue done =>
    rename_i ih
    rw [drain_of_cons b queue]
    have looked : R live.setting done.2.setting := setting_execute within
      ⟨{ live.sequence with conductor := (live.conductor.step report).2, queue := rest },
        live.stage⟩ _
    exact within.trans looked ih

include within in
theorem setting_drive (decision : Decision) : R live.setting (live.drive b decision).2.setting :=
  within.trans (setting_execute within live _) (setting_drain within _)

include within in
theorem setting_settleRun : R live.setting (live.settleRun b).2.setting :=
  setting_drive within (live.withConductor live.conductor.settle.2) live.conductor.settle.1

include within in
theorem setting_windDown (decided : Decision × Conductor) :
    R live.setting (live.windDown b decided).2.setting :=
  within.trans (setting_drive within (live.withConductor decided.2) decided.1)
    (setting_settleRun within ((live.withConductor decided.2).drive b decided.1).2)

include within in
theorem setting_obey (act : Act) : R live.setting (obey b act live).2.setting := by
  cases act with
  | start =>
    rw [obey, startRun]
    rcases live.conductor.begin with ⟨cycle | decision, conductor⟩
    · exact within.refl _
    · exact setting_drive within (live.withConductor conductor) decision
  | finish => exact setting_windDown within live _
  | cancel => exact setting_windDown within live _

include within in
theorem setting_tickUnit (delta : Span) (id : UnitId) :
    R live.setting (live.tickUnit b delta id).2.setting := by
  rw [tickUnit]
  split
  · exact within.refl _
  · rename_i unit known
    have ticked := within.tick delta live.stage known
    split <;> rename_i same <;> rw [same] at ticked <;> exact ticked

include within in
theorem setting_tickUnits (delta : Span) (units : List UnitId) :
    R live.setting (live.tickUnits b delta units).2.setting := by
  induction units generalizing live with
  | nil => exact within.refl _
  | cons id units ih =>
    have first := setting_tickUnit within live delta id
    rw [tickUnits]
    rcases reply : live.tickUnit b delta id with ⟨overflow | ⟨⟩, next⟩
    · rw [reply] at first
      exact first
    · rw [reply] at first
      exact within.trans first (ih next)

include within in
theorem setting_tickRun (delta : Span) : R live.setting (live.tickRun b delta).2.setting := by
  have ticked := setting_tickUnits within live delta live.conductor.playing.units
  rw [tickRun]
  split
  · exact within.refl _
  · rcases reply : live.tickUnits b delta live.conductor.playing.units with ⟨overflow | ⟨⟩, next⟩
    · rw [reply] at ticked
      exact ticked
    · rw [reply] at ticked
      exact within.trans ticked (setting_drain within next)

variable (throughout : b.Throughout R)

include throughout in
theorem setting_serve (limit : Nat) : R live.setting (serve b limit live).2.setting := by
  induction limit generalizing live with
  | zero => exact throughout.refl _
  | succ limit ih =>
    rw [serve]
    cases next : live.stage.nextRequest? live.sequence.number with
    | none => exact throughout.refl _
    | some taken =>
      let obeyed := obey b taken.1 { live with stage := taken.2 }
      have took : R live.setting (live.sequence.registry, taken.2) := throughout.take next
      have did := setting_obey throughout.toWithin { live with stage := taken.2 } taken.1
      have delivered : R obeyed.2.setting (obeyed.2.deliver obeyed.1).setting :=
        throughout.deliver obeyed.1 obeyed.2.sequence.registry obeyed.2.stage
      have served := ih (obeyed.2.deliver obeyed.1)
      exact throughout.trans (throughout.trans took did) (throughout.trans delivered served)

include throughout in
theorem setting_publish (events : List Lifecycle) :
    R live.setting (live.publish b events).2.setting :=
  throughout.trans (throughout.deliver events live.sequence.registry live.stage)
    (setting_serve (live.deliver events) throughout _)

include throughout in
theorem setting_respond (act : Act) : R live.setting (live.respond b act).2.setting := by
  have obeyed := setting_obey throughout.toWithin live act
  rw [respond]
  split
  · exact obeyed
  · exact throughout.trans obeyed (setting_publish _ throughout _)

include throughout in
theorem setting_tickAsUnit (delta : Span) : R live.setting (live.tickAsUnit b delta).2.setting := by
  have ticked := setting_tickRun throughout.toWithin live delta
  rw [tickAsUnit]
  rcases reply : live.tickRun b delta with ⟨overflow | events, next⟩
  · rw [reply] at ticked
    exact ticked
  · rw [reply] at ticked
    exact throughout.trans ticked (setting_publish next throughout events)

end Live

/-- A cue that lets the sequence perform. -/
def Cue.calls : Cue U → Bool
  | .start | .finish | .cancel | .tick _ | .report _ | .serve => true
  | _ => false

namespace Live

variable {b : Behaviour U} {R : Registry U × Stage → Registry U × Stage → Prop}

theorem setting_onCue (throughout : b.Throughout R) (live : Live U) {cue : Cue U}
    (calls : cue.calls = true) : R live.setting (live.onCue b cue).2.setting := by
  cases cue with
  | add | play | together | sequential | sort | meanwhile => cases calls
  | start =>
    rw [onCue, snd_start]
    exact setting_respond live throughout .start
  | finish => exact setting_respond live throughout .finish
  | cancel => exact setting_respond live throughout .cancel
  | tick delta =>
    rw [onCue, tick_eq]
    exact setting_tickAsUnit live throughout delta
  | report report =>
    let queued : Live U :=
      { live with sequence := { live.sequence with queue := live.sequence.queue ++ [report] } }
    have drained : R live.setting (queued.drain b).2.setting :=
      setting_drain throughout.toWithin queued
    exact throughout.trans drained (setting_publish _ throughout _)
  | serve => exact setting_publish live throughout []

end Live

/-- A cue that brings neither units nor relations between them into the sequence. -/
def Cue.uses : Cue U → Bool
  | .meanwhile _ => true
  | cue => cue.calls

theorem Cue.uses_of_calls {cue : Cue U} (calls : cue.calls = true) : cue.uses = true := by
  cases cue <;> first | rfl | exact calls

theorem Cue.performs_of_uses {cue : Cue U} (uses : cue.uses = true) : cue.performs = true := by
  cases cue <;> first | rfl | cases uses

/-- A cue that relates units. -/
def Cue.relates : Cue U → Bool
  | .play .. | .together _ | .sequential _ | .sort => true
  | _ => false

namespace Live

variable (b : Behaviour U) {live : Live U}

/-- Where units are related the sequence grows, and its stage is left alone. -/
theorem extended_onCue (grounded : live.sequence.Grounded) {cue : Cue U}
    (relates : cue.relates = true) :
    (live.onCue b cue).2.stage = live.stage ∧ (live.onCue b cue).2.sequence.Grounded ∧
      Sequence.Extended b.timer live.sequence (live.onCue b cue).2.sequence := by
  cases cue with
  | play unit links => exact ⟨rfl, grounded.playWith b.timer unit links⟩
  | together units => exact ⟨rfl, grounded.playTogether b.timer units⟩
  | sequential units => exact ⟨rfl, grounded.playSequentially b.timer units⟩
  | sort =>
    rw [onCue, revise, Sequence.snd_sortedUnits]
    exact ⟨rfl, grounded.sort,
      Sequence.extended_withGraph live.sequence .sort⟩
  | add | start | finish | cancel | tick | report | serve | meanwhile => cases relates

theorem number_onCue (grounded : live.sequence.Grounded) (cue : Cue U) :
    (live.onCue b cue).2.sequence.number = live.sequence.number := by
  cases cue with
  | add | meanwhile => rfl
  | play | together | sequential | sort => exact (extended_onCue b grounded rfl).2.2.owner
  | start | finish | cancel | tick | report | serve =>
    exact setting_onCue b.throughout_owner live rfl

end Live

namespace Registry

/-- Every unit in the register fits. -/
def Fits (fit : U → Prop) (registry : Registry U) : Prop :=
  ∀ id unit, registry.get? id = some unit → fit unit

/-- What calls on units leave of a register: the same names, and units that fit. -/
structure Keeps (fit : U → Prop) (before after : Registry U) : Prop where
  owner : after.owner = before.owner
  contains : ∀ id, after.contains id = before.contains id
  fits : after.Fits fit

variable {fit : U → Prop} {first second third : Registry U}

theorem Keeps.refl (fits : first.Fits fit) : first.Keeps fit first := ⟨rfl, fun _ => rfl, fits⟩

theorem Keeps.trans (one : first.Keeps fit second) (two : second.Keeps fit third) :
    first.Keeps fit third :=
  ⟨two.owner.trans one.owner, fun id => (two.contains id).trans (one.contains id), two.fits⟩

theorem Fits.update (fits : first.Fits fit) {id : UnitId}
    {old unit : U} (known : first.get? id = some old) (now : fit unit) :
    first.Keeps fit (first.update id unit) := by
  refine ⟨rfl, contains_update known unit, fun other holder here => ?_⟩
  rw [get?_update known] at here
  split at here
  · cases here
    exact now
  · exact fits other holder here

end Registry

/-- Units that fit go on fitting, and spare a channel: they take no request out of it. -/
structure Behaviour.Discreet (b : Behaviour U) (fit : U → Prop) (number : Nat) : Prop where
  timer : ∀ delay, fit (b.timer delay)
  act : ∀ act unit stage, fit unit →
    fit (b.act act unit stage).2.1 ∧ stage.Spares number (b.act act unit stage).2.2
  tick : ∀ delta unit stage, fit unit →
    fit (b.tick delta unit stage).2.1 ∧ stage.Spares number (b.tick delta unit stage).2.2

namespace Behaviour.Discreet

variable {b : Behaviour U} {fit : U → Prop} {number : Nat}

theorem within (discreet : b.Discreet fit number) : b.Within fun before after =>
    before.1.Fits fit → before.1.Keeps fit after.1 ∧ before.2.Spares number after.2 := by
  refine ⟨fun setting fits => ⟨.refl fits, .refl _ _⟩,
    fun one two fits => ?_, fun act id unit registry stage known fits => ?_,
    fun delta id unit registry stage known fits => ?_⟩
  · obtain ⟨kept, spared⟩ := one fits
    obtain ⟨kept', spared'⟩ := two kept.fits
    exact ⟨kept.trans kept', spared.trans spared'⟩
  · obtain ⟨now, spared⟩ := discreet.act act unit stage (fits id unit known)
    exact ⟨fits.update known now, spared⟩
  · obtain ⟨now, spared⟩ := discreet.tick delta unit stage (fits id unit known)
    exact ⟨fits.update known now, spared⟩

/-- All that a sequence does keeps its register, and the listeners of the channel in order. -/
theorem keeps (discreet : b.Discreet fit number) : b.Throughout fun before after =>
    before.1.Fits fit → before.1.Keeps fit after.1 ∧
      ((before.2.channel number).Ordered → (after.2.channel number).Ordered) := by
  have within := discreet.within
  have spared : ∀ {before after : Registry U × Stage}, (before.1.Fits fit →
      before.1.Keeps fit after.1 ∧ before.2.Spares number after.2) → before.1.Fits fit →
      before.1.Keeps fit after.1 ∧
        ((before.2.channel number).Ordered → (after.2.channel number).Ordered) :=
    fun spares fits => ⟨(spares fits).1, (spares fits).2.grows.ordered⟩
  refine ⟨⟨fun setting => spared (within.refl setting), fun one two fits => ?_,
    fun act id unit registry stage known => spared (within.act act stage known),
    fun delta id unit registry stage known => spared (within.tick delta stage known)⟩,
    fun events registry stage fits =>
      ⟨.refl fits, (stage.spares_announceAll number registry.owner events).grows.ordered⟩,
    fun {act registry stage after} next fits => ⟨.refl fits, fun ordered => ?_⟩⟩
  · obtain ⟨kept, order⟩ := one fits
    obtain ⟨kept', order'⟩ := two kept.fits
    exact ⟨kept.trans kept', fun ordered => order' (order ordered)⟩
  · obtain ⟨-, listeners, nextId, -, others⟩ := Stage.nextRequest?_eq_some next
    by_cases own : number = registry.owner
    · subst own
      rw [Channel.Ordered, listeners, nextId]
      exact ordered
    · rw [others number own]
      exact ordered

/-- All that a sequence does spares the channels of other sequences. -/
theorem throughout (discreet : b.Discreet fit number) : b.Throughout fun before after =>
    before.1.owner ≠ number → before.1.Fits fit →
      before.1.Keeps fit after.1 ∧ before.2.Spares number after.2 := by
  have within := discreet.within
  refine ⟨⟨fun setting _ => within.refl setting, fun {first second third} one two other fits => ?_,
    fun act id unit registry stage known _ => within.act act stage known,
    fun delta id unit registry stage known _ => within.tick delta stage known⟩,
    fun events registry stage other fits => ⟨.refl fits, stage.spares_announceAll number _ events⟩,
    fun next other fits => ⟨.refl fits, Stage.spares_nextRequest next other.symm⟩⟩
  obtain ⟨kept, spared⟩ := one other fits
  obtain ⟨kept', spared'⟩ := two (kept.owner.symm ▸ other) kept.fits
  exact ⟨kept.trans kept', spared.trans spared'⟩

end Behaviour.Discreet

end Choreo
