import Mathlib.Algebra.GroupWithZero.Nat
import Mathlib.Algebra.Order.BigOperators.Group.List
import Mathlib.Algebra.Order.Group.Nat
import Choreo.Stage

/-!
# Traffic on a stage

Each request that is sent by a witness was part of the witness's weight before, and so was the
weight of each listener that it brings in. So telling the listeners of an event makes a stage no
heavier, and a request that is taken out to be served makes it lighter. Requests are only ever put
behind those that wait already, and listeners behind those that are there, so both keep the order in
which they came. That witnesses act on reactions is no loss: there are reactions for whatever is to
be done finitely often.
-/

namespace Choreo

/-- Who a listener is. -/
inductive Ear where
  | recorder (label : String)
  | witness (name : String)
  deriving DecidableEq

def Listener.ear : Listener → Ear
  | .recorder label => .recorder label
  | .witness name _ => .witness name

theorem Action.weightOfAll_append (actions more : List Action) :
    weightOfAll (actions ++ more) = weightOfAll actions + weightOfAll more := by
  induction actions with
  | nil => simp [weightOfAll]
  | cons action actions ih => simp [weightOfAll, ih, Nat.add_assoc]

/-- What a reaction does is taken off its weight. -/
theorem Reaction.weight_hear (event : Lifecycle) (reaction : Reaction Action) :
    Action.weightOfReaction (reaction.hear event) +
      (if reaction.isDue event then Action.weightOfAll reaction.actions else 0) =
        Action.weightOfReaction reaction := by
  obtain ⟨own, skip, times, actions⟩ := reaction
  by_cases same : own = event
  · by_cases now : skip = 0
    · cases times with
      | zero => simp [hear, isDue, same, now, Action.weightOfReaction]
      | succ times =>
        simp [hear, isDue, same, now, Action.weightOfReaction, Nat.succ_mul]
    · simp [hear, isDue, same, now, Action.weightOfReaction]
  · simp [hear, isDue, same, Action.weightOfReaction]

namespace Listener

theorem weight_hear_reactions (event : Lifecycle) (reactions : List (Reaction Action)) :
    Action.weightOfReactions (reactions.map (Reaction.hear event)) +
      Action.weightOfAll ((reactions.filter (Reaction.isDue event)).flatMap Reaction.actions) =
        Action.weightOfReactions reactions := by
  induction reactions with
  | nil => rfl
  | cons reaction rest ih =>
    have first := Reaction.weight_hear event reaction
    rw [List.map_cons, Action.weightOfReactions, Action.weightOfReactions]
    by_cases due : reaction.isDue event = true
    · rw [List.filter_cons_of_pos due, List.flatMap_cons, Action.weightOfAll_append]
      rw [if_pos due] at first
      omega
    · rw [List.filter_cons_of_neg due]
      rw [if_neg due] at first
      omega

/-- What a listener does is taken off its weight. -/
theorem weight_hear (event : Lifecycle) (listener : Listener) :
    (listener.hear event).weight + Action.weightOfAll (listener.answer event) =
      listener.weight := by
  cases listener with
  | recorder label => rfl
  | witness name reactions => exact weight_hear_reactions event reactions

end Listener

namespace Reaction

variable {α : Type}

/-- The reaction put off by one notification of an event. -/
def putOff (event : Lifecycle) (reaction : Reaction α) : Reaction α :=
  if reaction.event = event then { reaction with skip := reaction.skip + 1 } else reaction

/-- The reactions of somebody who answers notifications that come in this order with these
actions. -/
def script : List (Lifecycle × List α) → List (Reaction α)
  | [] => []
  | (event, actions) :: rest => ⟨event, 0, 1, actions⟩ :: (script rest).map (putOff event)

theorem isDue_putOff (event : Lifecycle) (reaction : Reaction α) :
    (reaction.putOff event).isDue event = false := by
  rw [putOff]
  split
  · simp [isDue]
  · rename_i other
    simp [isDue, other]

theorem hear_putOff (event : Lifecycle) (reaction : Reaction α) :
    (reaction.putOff event).hear event = reaction := by
  obtain ⟨own, skip, times, actions⟩ := reaction
  by_cases same : own = event
  · simp [putOff, hear, same]
  · simp [putOff, hear, same]

theorem isDue_of_spent (event : Lifecycle) {reaction : Reaction α} (spent : reaction.times = 0) :
    reaction.isDue event = false := by
  simp [isDue, spent]

theorem times_hear_of_spent (event : Lifecycle) {reaction : Reaction α}
    (spent : reaction.times = 0) :
    (reaction.hear event).times = 0 := by
  rw [hear]
  split
  · split
    · simp [spent]
    · exact spent
  · exact spent

end Reaction

namespace Listener

/-- What a listener does at these notifications, one after the other. -/
def answers : List Lifecycle → Listener → List (List Action)
  | [], _ => []
  | event :: events, listener => listener.answer event :: answers events (listener.hear event)

/-- Whatever a witness is to do at each of finitely many notifications, there are reactions for
it. -/
theorem answers_script (name : String) (plan : List (Lifecycle × List Action)) :
    (Listener.witness name (Reaction.script plan)).answers (plan.map Prod.fst) =
      plan.map Prod.snd := by
  -- the reactions that are used up stand before those that are still to come
  have going : ∀ spent : List (Reaction Action), (∀ reaction ∈ spent, reaction.times = 0) →
      (Listener.witness name (spent ++ Reaction.script plan)).answers (plan.map Prod.fst) =
        plan.map Prod.snd := by
    induction plan with
    | nil => exact fun _ _ => rfl
    | cons first rest ih =>
      intro spent used
      obtain ⟨event, actions⟩ := first
      have silent : spent.filter (Reaction.isDue event) = [] :=
        List.filter_eq_nil_iff.2 fun reaction member => by
          simp [Reaction.isDue_of_spent event (used reaction member)]
      have later : ((Reaction.script rest).map (Reaction.putOff event)).filter
          (Reaction.isDue event) = [] := by
        simp [List.filter_eq_nil_iff, Reaction.isDue_putOff]
      have now : (Listener.witness name
          (spent ++ Reaction.script ((event, actions) :: rest))).answer event =
          actions := by
        simp [answer, Reaction.script, silent, later, Reaction.isDue]
      have next :
          (Listener.witness name (spent ++ Reaction.script ((event, actions) :: rest))).hear event =
          .witness name ((spent.map (Reaction.hear event) ++ [⟨event, 0, 0, actions⟩]) ++
            Reaction.script rest) := by
        have restored :
            ((Reaction.script rest).map (Reaction.putOff event)).map (Reaction.hear event) =
            Reaction.script rest := by
          simp [Function.comp_def, Reaction.hear_putOff]
        have first : Reaction.hear event ⟨event, 0, 1, actions⟩ = ⟨event, 0, 0, actions⟩ := by
          simp [Reaction.hear]
        simp only [hear, Reaction.script, List.map_append, List.map_cons, restored, first,
          List.append_assoc, List.singleton_append]
      have more := ih (spent.map (Reaction.hear event) ++ [⟨event, 0, 0, actions⟩])
        fun reaction member => by
        rcases List.mem_append.1 member with before | last
        · obtain ⟨old, there, rfl⟩ := List.mem_map.1 before
          exact Reaction.times_hear_of_spent event (used old there)
        · rw [List.mem_singleton.1 last]
      simp only [List.map_cons, answers, now, next, more]
  exact going [] (by simp)

end Listener

namespace Channel

theorem weight_eq (channel : Channel) : channel.weight =
    (channel.listeners.map fun entry => entry.2.weight).sum + channel.requests.length := by
  rw [weight]
  induction channel.listeners with
  | nil => simp
  | cons entry rest ih => simp [ih, Nat.add_assoc]

/-- How many requests can come of what the listeners do when they are told of an event. -/
def answers (event : Lifecycle) (channel : Channel) : Nat :=
  (channel.listeners.map fun entry => Action.weightOfAll (entry.2.answer event)).sum

theorem weight_hear (event : Lifecycle) (channel : Channel) :
    (channel.hear event).weight + channel.answers event = channel.weight := by
  rw [weight_eq, weight_eq, hear, answers]
  induction channel.listeners with
  | nil => simp
  | cons entry rest ih =>
    have first := entry.2.weight_hear event
    simp only [List.map_cons, List.sum_cons] at ih ⊢
    omega

theorem weight_send (act : Act) (channel : Channel) :
    (channel.send act).weight = channel.weight + 1 := by
  simp [weight_eq, send]
  omega

theorem weight_add (listener : Listener) (channel : Channel) :
    (channel.add listener).weight = channel.weight + listener.weight := by
  simp [weight_eq, add]
  omega

theorem weight_remove_le (id : Nat) (channel : Channel) :
    (channel.remove id).weight ≤ channel.weight := by
  have fewer : ((channel.remove id).listeners.map fun entry => entry.2.weight).Sublist
      (channel.listeners.map fun entry => entry.2.weight) := List.filter_sublist.map _
  rw [weight_eq, weight_eq]
  exact Nat.add_le_add_right (fewer.sum_le_sum fun _ _ => Nat.zero_le _) _

/-- The listeners are numbered in the order in which they came. -/
def Ordered (channel : Channel) : Prop :=
  (channel.listeners.map Prod.fst).Pairwise (· < ·) ∧
    ∀ id ∈ channel.listeners.map Prod.fst, id < channel.nextId

/-- The numbers and the names of the listeners, in order. -/
def roster (channel : Channel) : List (Nat × Ear) :=
  channel.listeners.map fun entry => (entry.1, entry.2.ear)

theorem map_fst_roster (channel : Channel) :
    channel.roster.map Prod.fst = channel.listeners.map Prod.fst := by
  rw [roster, List.map_map]
  rfl

theorem has_iff {channel : Channel} {id : Nat} :
    channel.has id = true ↔ id ∈ channel.roster.map Prod.fst := by
  rw [map_fst_roster, has, List.any_eq_true, List.mem_map]
  simp

/-- What becomes of a channel as long as none of its requests is served: more may come, and
listeners may go and others come after those that stay. -/
structure Grows (before after : Channel) : Prop where
  requests : before.requests <+: after.requests
  roster : ∃ (stays : Nat → Bool) (more : List (Nat × Ear)),
    after.roster = before.roster.filter (fun entry => stays entry.1) ++ more ∧
      ∀ entry ∈ more, before.nextId ≤ entry.1
  nextId : before.nextId ≤ after.nextId
  ordered : before.Ordered → after.Ordered

/-- As long as all listeners stay where they are. -/
theorem Grows.of_roster {before after : Channel} (requests : before.requests <+: after.requests)
    (roster : after.roster = before.roster) (nextId : after.nextId = before.nextId) :
    before.Grows after := by
  refine ⟨requests, ⟨fun _ => true, [], by simp [roster], by simp⟩, Nat.le_of_eq nextId.symm,
    fun ordered => ?_⟩
  rw [Ordered, ← map_fst_roster, roster, map_fst_roster, nextId]
  exact ordered

theorem Grows.refl (channel : Channel) : channel.Grows channel := .of_roster List.prefix_rfl rfl rfl

theorem Grows.trans {first second third : Channel} (one : first.Grows second)
    (two : second.Grows third) : first.Grows third := by
  obtain ⟨stays, more, roster, late⟩ := one.roster
  obtain ⟨stays', more', roster', late'⟩ := two.roster
  refine ⟨one.requests.trans two.requests, ⟨fun id => stays id && stays' id,
    more.filter (fun entry => stays' entry.1) ++ more', ?_, fun entry member => ?_⟩,
    one.nextId.trans two.nextId, fun ordered => two.ordered (one.ordered ordered)⟩
  · rw [roster', roster, List.filter_append, List.filter_filter, List.append_assoc]
    simp only [Bool.and_comm]
  · rcases List.mem_append.1 member with earlier | later
    · exact late entry (List.mem_of_mem_filter earlier)
    · exact one.nextId.trans (late' entry later)

/-- Those who are there are those who stayed and after them those who came. -/
theorem Grows.roster_eq {before after : Channel} (grows : before.Grows after)
    (ordered : before.Ordered) :
    after.roster = before.roster.filter (fun entry => after.has entry.1) ++
      after.roster.filter fun entry => !before.has entry.1 := by
  obtain ⟨stays, more, roster, late⟩ := grows.roster
  have below : ∀ entry ∈ before.roster, entry.1 < before.nextId := fun entry member =>
    ordered.2 entry.1 (before.map_fst_roster ▸ List.mem_map_of_mem member)
  have stayed : before.roster.filter (fun entry => after.has entry.1) =
      before.roster.filter fun entry => stays entry.1 := by
    refine List.filter_congr fun entry member => Bool.eq_iff_iff.2 (has_iff.trans ?_)
    rw [roster, List.map_append, List.mem_append, List.mem_map, List.mem_map]
    constructor
    · rintro (⟨other, kept, same⟩ | ⟨other, new, same⟩)
      · exact same ▸ (List.mem_filter.1 kept).2
      · have := below entry member
        have := late other new
        omega
    · exact fun kept => .inl ⟨entry, List.mem_filter.2 ⟨member, kept⟩, rfl⟩
  have came : after.roster.filter (fun entry => !before.has entry.1) = more := by
    rw [roster, List.filter_append]
    have gone : (before.roster.filter fun entry => stays entry.1).filter
        (fun entry => !before.has entry.1) = [] := by
      refine List.filter_eq_nil_iff.2 fun entry member => ?_
      have known := has_iff.2 (List.mem_map_of_mem (f := Prod.fst) (List.mem_of_mem_filter member))
      simp [known]
    have new : more.filter (fun entry => !before.has entry.1) = more := by
      refine List.filter_eq_self.2 fun entry member => ?_
      rw [Bool.not_eq_true', ← Bool.not_eq_true, has_iff]
      intro known
      obtain ⟨other, there, same⟩ := List.mem_map.1 known
      have := below other there
      have := late entry member
      omega
    rw [gone, new, List.nil_append]
  rw [stayed, came, roster]

theorem grows_send (act : Act) (channel : Channel) : channel.Grows (channel.send act) :=
  .of_roster (List.prefix_append _ _) rfl rfl

theorem grows_add (listener : Listener) (channel : Channel) :
    channel.Grows (channel.add listener) := by
  refine ⟨List.prefix_rfl, ⟨fun _ => true, [(channel.nextId, listener.ear)], ?_, by simp⟩,
    Nat.le_succ _, fun ⟨sorted, below⟩ => ⟨?_, fun id member => ?_⟩⟩
  · simp [roster, add]
  · simp only [add, List.map_append, List.map_cons, List.map_nil]
    refine List.pairwise_append.2 ⟨sorted, by simp, fun id member last same => ?_⟩
    rw [List.mem_singleton.1 same]
    exact below id member
  · simp only [add, List.map_append, List.map_cons, List.map_nil, List.mem_append] at member ⊢
    rcases member with before | last
    · exact Nat.lt_succ_of_lt (below id before)
    · rw [List.mem_singleton.1 last]
      exact Nat.lt_succ_self _

theorem grows_remove (id : Nat) (channel : Channel) : channel.Grows (channel.remove id) := by
  have fewer : ((channel.remove id).listeners.map Prod.fst).Sublist
      (channel.listeners.map Prod.fst) :=
    List.filter_sublist.map _
  refine ⟨List.prefix_rfl, ⟨fun other => other != id, [], ?_, by simp⟩,
    Nat.le_refl _, fun ⟨sorted, below⟩ =>
    ⟨sorted.sublist fewer, fun other member => below other (fewer.subset member)⟩⟩
  rw [roster, roster, remove, List.filter_map, List.append_nil]
  rfl

theorem roster_hear (event : Lifecycle) (channel : Channel) :
    (channel.hear event).roster = channel.roster := by
  rw [roster, roster, hear, List.map_map]
  refine List.map_congr_left fun entry _ => ?_
  obtain ⟨id, listener⟩ := entry
  cases listener <;> rfl

theorem grows_hear (event : Lifecycle) (channel : Channel) : channel.Grows (channel.hear event) :=
  .of_roster List.prefix_rfl (channel.roster_hear event) rfl

end Channel

namespace Stage

theorem channel_congr {first second : Stage} (same : first.channels = second.channels)
    (number : Nat) :
    first.channel number = second.channel number := by
  rw [channel, channel, same]

theorem channel_modify (number other : Nat) (change : Channel → Channel) (stage : Stage) :
    (stage.modify other change).channel number =
      if number = other ∧ number < stage.channels.length then change (stage.channel number)
      else stage.channel number := by
  simp only [channel, modify, List.getElem?_modify]
  by_cases inside : number < stage.channels.length
  · by_cases same : number = other
    · simp [same, same ▸ inside]
    · simp [same, Ne.symm same, inside]
  · simp [inside]

theorem weight_eq (stage : Stage) : stage.weight = (stage.channels.map Channel.weight).sum := by
  rw [weight, List.sum_eq_foldr, List.foldr_map]

/-- Something of a stage that can be weighed: all channels, or one of them. A change of one channel
adds no more to it than to the channel. -/
structure Weighs (size : Stage → Nat) : Prop where
  congr : ∀ first second, first.channels = second.channels → size first = size second
  modify : ∀ number change more stage,
    (∀ channel : Channel, (change channel).weight ≤ channel.weight + more) →
      size (stage.modify number change) ≤ size stage + more

theorem weighs_weight : Weighs weight := by
  refine ⟨fun first second same => ?_, fun number change more stage light => ?_⟩
  · rw [weight_eq, weight_eq, same]
  · rw [weight_eq, weight_eq, Stage.modify]
    induction stage.channels generalizing number with
    | nil => simp
    | cons channel rest ih =>
      cases number with
      | zero =>
        have here := light channel
        simp
        omega
      | succ number =>
        have later := ih number
        simp at later ⊢
        omega

theorem weighs_channel (number : Nat) : Weighs fun stage => (stage.channel number).weight := by
  refine ⟨fun first second same => by rw [channel_congr same],
    fun other change more stage light => ?_⟩
  simp only [channel_modify]
  split
  · exact light _
  · exact Nat.le_add_right _ _

section

variable {size : Stage → Nat} (weighs : Weighs size)
include weighs

/-- A witness's action adds no more than its weight. -/
theorem Weighs.react (stage : Stage) (action : Action) :
    size (stage.react action) ≤ size stage + action.weight := by
  cases action with
  | send number act =>
    exact weighs.modify number _ 1 stage fun channel => Nat.le_of_eq (channel.weight_send act)
  | remove number name =>
    simp only [Stage.react, dismiss]
    split
    · rename_i id _
      have removed := weighs.modify number (Channel.remove id) 0 stage fun channel =>
        channel.weight_remove_le id
      have same : ∀ line, size ((stage.modify number (Channel.remove id)).log line) =
          size (stage.modify number (Channel.remove id)) := fun line => weighs.congr _ _ rfl
      rw [Action.weight, same]
      exact removed
    · exact Nat.le_add_right _ _
  | add number name reactions =>
    have listened := weighs.modify number (Channel.add (.witness name reactions))
      (Action.weightOfReactions reactions) stage fun channel =>
        Nat.le_of_eq (channel.weight_add (.witness name reactions))
    have same : size (stage.listen number name reactions) =
        size (stage.modify number (Channel.add (.witness name reactions))) := weighs.congr _ _ rfl
    rw [Action.weight, Stage.react, same]
    exact listened

theorem Weighs.reactAll (actions : List Action) (stage : Stage) :
    size (actions.foldl Stage.react stage) ≤ size stage + Action.weightOfAll actions := by
  induction actions generalizing stage with
  | nil => exact Nat.le_refl _
  | cons action actions ih =>
    have first := weighs.react stage action
    have later := ih (stage.react action)
    rw [Action.weightOfAll]
    refine later.trans ?_
    omega

theorem Weighs.notify (event : Lifecycle) (stage : Stage) (listener : Listener) :
    size (stage.notify event listener) ≤ size stage +
      Action.weightOfAll (listener.answer event) := by
  cases listener with
  | recorder label => exact Nat.le_of_eq (weighs.congr _ _ rfl)
  | witness name reactions =>
    have reacted := weighs.reactAll ((Listener.witness name reactions).answer event)
      (stage.log (.heard name event))
    have same : size (stage.log (.heard name event)) = size stage := weighs.congr _ _ rfl
    rw [same] at reacted
    exact reacted

theorem Weighs.tell (event : Lifecycle) (listeners : List Listener) (stage : Stage) :
    size (listeners.foldl (Stage.notify event) stage) ≤
      size stage +
        (listeners.map fun listener => Action.weightOfAll (listener.answer event)).sum := by
  induction listeners generalizing stage with
  | nil => exact Nat.le_refl _
  | cons listener rest ih =>
    have first := weighs.notify event stage listener
    have later := ih (stage.notify event listener)
    rw [List.map_cons, List.sum_cons]
    refine later.trans ?_
    omega

end

/-- A number that was not given out has a quiet channel, which nothing changes. -/
theorem channel_cases (number : Nat) (stage : Stage) : number < stage.channels.length ∨
    stage.channel number = .quiet ∧ ∀ change, stage.modify number change = stage := by
  by_cases inside : number < stage.channels.length
  · exact .inl inside
  · have outside := Nat.le_of_not_lt inside
    refine .inr ⟨by rw [channel, List.getElem?_eq_none outside]; rfl, fun change => ?_⟩
    rw [modify, List.modify_eq_self outside]

theorem weight_modify {number : Nat} {stage : Stage}
    (inside : number < stage.channels.length) (change : Channel → Channel) :
    (stage.modify number change).weight + (stage.channel number).weight =
      stage.weight + (change (stage.channel number)).weight := by
  obtain ⟨recording, journal, channels, names⟩ := stage
  simp only [weight_eq, modify, channel] at inside ⊢
  induction channels generalizing number with
  | nil => simp at inside
  | cons first rest ih =>
    cases number with
    | zero =>
      simp
      omega
    | succ number =>
      have later := ih (Nat.lt_of_succ_lt_succ inside)
      simp at later ⊢
      omega

/-- What the listeners of a channel do when they are told of an event is taken off their weight. -/
theorem weight_hear_le (number : Nat) (event : Lifecycle) (stage : Stage) :
    (stage.modify number (Channel.hear event)).weight + (stage.channel number).answers event ≤
        stage.weight ∧
      ((stage.modify number (Channel.hear event)).channel number).weight +
        (stage.channel number).answers event ≤ (stage.channel number).weight := by
  have taken := (stage.channel number).weight_hear event
  rcases stage.channel_cases number with inside | ⟨quiet, same⟩
  · have modified := weight_modify inside (Channel.hear event)
    rw [channel_modify, if_pos ⟨rfl, inside⟩]
    omega
  · rw [same, quiet]
    exact ⟨Nat.le_refl _, Nat.le_refl _⟩

/-- Telling the listeners of a channel of an event makes neither the channel nor the stage
heavier. -/
theorem weight_announce_le (number : Nat) (event : Lifecycle) (stage : Stage) :
    (stage.announce number event).weight ≤ stage.weight ∧
      ((stage.announce number event).channel number).weight ≤ (stage.channel number).weight := by
  have told : ∀ {size : Stage → Nat}, Weighs size → size (stage.announce number event) ≤
      size (stage.modify number (Channel.hear event)) + (stage.channel number).answers event := by
    intro size weighs
    have all := weighs.tell event ((stage.channel number).listeners.map Prod.snd)
      (stage.modify number (Channel.hear event))
    rwa [List.map_map] at all
  have heard := stage.weight_hear_le number event
  exact ⟨(told weighs_weight).trans heard.1, (told (weighs_channel number)).trans heard.2⟩

/-- A request that is taken out was the first of its channel and makes the stage lighter by one. -/
theorem nextRequest?_eq_some {number : Nat} {stage after : Stage} {act : Act}
    (next : stage.nextRequest? number = some (act, after)) :
    (stage.channel number).requests = act :: (after.channel number).requests ∧
      (after.channel number).listeners = (stage.channel number).listeners ∧
      (after.channel number).nextId = (stage.channel number).nextId ∧
      after.weight + 1 = stage.weight ∧
      ∀ other, other ≠ number → after.channel other = stage.channel other := by
  rw [nextRequest?] at next
  split at next
  · cases next
  · rename_i first rest requests
    obtain ⟨rfl, rfl⟩ := Prod.mk.inj (Option.some.inj next)
    rcases stage.channel_cases number with inside | ⟨quiet, -⟩
    · have lighter := weight_modify inside fun channel => { channel with requests := rest }
      have size : Channel.weight
          ⟨(stage.channel number).nextId, (stage.channel number).listeners, rest⟩ + 1 =
          (stage.channel number).weight := by
        rw [Channel.weight_eq, Channel.weight_eq, requests]
        simp only [List.length_cons]
        omega
      simp only [channel_modify, inside, and_self, ↓reduceIte, true_and]
      refine ⟨requests, by omega, fun other different => if_neg fun same => different same.1⟩
    · rw [quiet] at requests
      cases requests

theorem nextRequest?_eq_none {number : Nat} {stage : Stage} :
    stage.nextRequest? number = none ↔ (stage.channel number).requests = [] := by
  rw [nextRequest?]
  split <;> simp_all

theorem requests_of_weight {number : Nat} {stage : Stage} (light : stage.weight = 0) :
    (stage.channel number).requests = [] := by
  cases next : stage.nextRequest? number with
  | none => exact nextRequest?_eq_none.1 next
  | some taken =>
    have lighter := (nextRequest?_eq_some next).2.2.2.1
    omega

/-- A channel without weight has no requests, and is still without weight when its listeners have
been told of something. -/
theorem requests_of_silent {number : Nat} {stage : Stage}
    (silent : (stage.channel number).weight = 0) :
    (stage.channel number).requests = [] := by
  rw [Channel.weight_eq, Nat.add_eq_zero_iff] at silent
  exact List.length_eq_zero_iff.1 silent.2

theorem silent_announceAll {number : Nat} (events : List Lifecycle) {stage : Stage}
    (silent : (stage.channel number).weight = 0) :
    ((stage.announceAll number events).channel number).weight = 0 := by
  induction events generalizing stage with
  | nil => exact silent
  | cons event events ih =>
    have lighter := (stage.weight_announce_le number event).2
    exact ih (Nat.le_zero.1 (lighter.trans (Nat.le_of_eq silent)))

theorem grows_modify {change : Channel → Channel}
    (grows : ∀ channel : Channel, channel.Grows (change channel)) (number other : Nat)
    (stage : Stage) :
    (stage.channel number).Grows ((stage.modify other change).channel number) := by
  rw [channel_modify]
  split
  · exact grows _
  · exact .refl _

/-- Whatever a witness does, no request is taken out of a channel. -/
theorem grows_react (number : Nat) (stage : Stage) (action : Action) :
    (stage.channel number).Grows ((stage.react action).channel number) := by
  cases action with
  | send other act => exact grows_modify (Channel.grows_send act) number other stage
  | remove other name =>
    rw [react, dismiss]
    split
    · rename_i id _
      exact grows_modify (Channel.grows_remove id) number other stage
    · exact .refl _
  | add other name reactions => exact grows_modify (Channel.grows_add _) number other stage

theorem grows_notify (number : Nat) (event : Lifecycle) (stage : Stage) (listener : Listener) :
    (stage.channel number).Grows ((stage.notify event listener).channel number) := by
  cases listener with
  | recorder label => exact .refl _
  | witness name reactions =>
    have reacted : ∀ (actions : List Action) (stage : Stage),
        (stage.channel number).Grows ((actions.foldl react stage).channel number) := by
      intro actions
      induction actions with
      | nil => exact fun stage => .refl _
      | cons action rest ih => exact fun stage => (stage.grows_react number action).trans (ih _)
    exact reacted _ (stage.log (.heard name event))

theorem grows_announce (number other : Nat) (event : Lifecycle) (stage : Stage) :
    (stage.channel number).Grows ((stage.announce other event).channel number) := by
  have told : ∀ (listeners : List Listener) (stage : Stage),
      (stage.channel number).Grows ((listeners.foldl (notify event) stage).channel number) := by
    intro listeners
    induction listeners with
    | nil => exact fun stage => .refl _
    | cons listener rest ih =>
      exact fun stage => (stage.grows_notify number event listener).trans (ih _)
  exact (grows_modify (Channel.grows_hear event) number other stage).trans (told _ _)

/-- What a channel can rely on while others act: its requests are not taken out, its listeners stay
in order, and there is not more to serve on the whole stage afterwards. -/
structure Spares (number : Nat) (before after : Stage) : Prop where
  grows : (before.channel number).Grows (after.channel number)
  weight : after.weight ≤ before.weight

namespace Spares

variable {number : Nat} {first second third : Stage}

theorem refl (number : Nat) (stage : Stage) : Spares number stage stage := ⟨.refl _, Nat.le_refl _⟩

theorem trans (one : Spares number first second) (two : Spares number second third) :
    Spares number first third := ⟨one.grows.trans two.grows, two.weight.trans one.weight⟩

theorem of_channels (number : Nat) {before after : Stage}
    (same : after.channels = before.channels) :
    Spares number before after := by
  refine ⟨?_, Nat.le_of_eq (weighs_weight.congr _ _ same)⟩
  rw [channel_congr same]
  exact .refl _

end Spares

theorem spares_announceAll (number other : Nat) (events : List Lifecycle) (stage : Stage) :
    Spares number stage (stage.announceAll other events) := by
  induction events generalizing stage with
  | nil => exact .refl _ _
  | cons event events ih =>
    have first : Spares number stage (stage.announce other event) :=
      ⟨stage.grows_announce number other event, (stage.weight_announce_le other event).1⟩
    exact first.trans (ih _)

theorem spares_nextRequest {number other : Nat} {stage after : Stage} {act : Act}
    (next : stage.nextRequest? other = some (act, after)) (different : number ≠ other) :
    Spares number stage after := by
  obtain ⟨-, -, -, lighter, others⟩ := nextRequest?_eq_some next
  refine ⟨?_, by omega⟩
  rw [others number different]
  exact .refl _

end Stage

end Choreo
