import Choreo.Proofs.Stage.Traffic

/-!
# Who is asked to start

A sequence is asked to start when a witness sends the request to its channel, and a witness that may
do so may be brought in by another one. Where no listener on the stage ever asks for it, and no such
request is waiting, none ever comes to be served, whatever the listeners are told and whatever they
do then.
-/

namespace Choreo

/-- The action asks for the start of the sequence of this number, or brings in a witness that
may. -/
inductive Action.Bids (number : Nat) : Action → Prop where
  | send : Bids number (.send number .start)
  | add {channel : Nat} {name : String} {reactions : List (Reaction Action)}
    {reaction : Reaction Action}
    {action : Action} (among : reaction ∈ reactions) (part : action ∈ reaction.actions)
    (bids : Bids number action) : Bids number (.add channel name reactions)

/-- A witness asks for the start when one of its reactions does. -/
def Listener.Bids (number : Nat) : Listener → Prop
  | .recorder _ => False
  | .witness _ reactions => ∃ reaction ∈ reactions, ∃ action ∈ reaction.actions, action.Bids number

namespace Listener

variable {number : Nat} {listener : Listener}

theorem bids_hear (event : Lifecycle) (bids : (listener.hear event).Bids number) :
    listener.Bids number := by
  cases listener with
  | recorder => exact bids
  | witness name reactions =>
    obtain ⟨heard, among, action, part, asks⟩ := bids
    obtain ⟨reaction, member, rfl⟩ := List.mem_map.1 among
    have same : (reaction.hear event).actions = reaction.actions := by
      rw [Reaction.hear]
      split
      · split <;> rfl
      · rfl
    exact ⟨reaction, member, action, same ▸ part, asks⟩

theorem bids_of_answer (event : Lifecycle) {action : Action}
    (answers : action ∈ listener.answer event) (bids : action.Bids number) :
    listener.Bids number := by
  cases listener with
  | recorder => cases answers
  | witness name reactions =>
    obtain ⟨reaction, due, part⟩ := List.mem_flatMap.1 answers
    exact ⟨reaction, List.mem_of_mem_filter due, action, part, bids⟩

end Listener

namespace Stage

/-- Nobody on the stage asks the sequence of this number to start, or ever will. -/
structure Unbidden (number : Nat) (stage : Stage) : Prop where
  listeners : ∀ channel, ∀ entry ∈ (stage.channel channel).listeners, ¬ entry.2.Bids number
  requests : .start ∉ (stage.channel number).requests

theorem channel_openChannel (stage : Stage) (number : Nat) :
    stage.openChannel.channel number = stage.channel number := by
  simp only [channel, openChannel]
  rcases Nat.lt_trichotomy number stage.channels.length with before | rfl | behind
  · rw [List.getElem?_append_left before]
  · simp
  · rw [List.getElem?_eq_none (by simpa using Nat.succ_le_of_lt behind),
      List.getElem?_eq_none behind.le]

theorem unbidden_bare (number : Nat) : bare.Unbidden number :=
  ⟨fun _ _ => by simp [bare, channel, Channel.quiet], by simp [bare, channel, Channel.quiet]⟩

namespace Unbidden

variable {number : Nat} {stage : Stage}

theorem openChannel (unbidden : stage.Unbidden number) : stage.openChannel.Unbidden number := by
  refine ⟨fun channel => ?_, ?_⟩ <;> rw [channel_openChannel]
  · exact unbidden.listeners channel
  · exact unbidden.requests

theorem of_channels (unbidden : stage.Unbidden number) {after : Stage}
    (same : after.channels = stage.channels) : after.Unbidden number := by
  refine ⟨fun channel => ?_, ?_⟩ <;> rw [channel_congr same]
  · exact unbidden.listeners channel
  · exact unbidden.requests

/-- One channel may change if nobody comes into it who asks for the start, and no such request. -/
theorem modify (unbidden : stage.Unbidden number) (other : Nat) {change : Channel → Channel}
    (listeners : ∀ entry ∈ (change (stage.channel other)).listeners, ¬ entry.2.Bids number)
    (requests : number = other → .start ∉ (change (stage.channel number)).requests) :
    (stage.modify other change).Unbidden number := by
  refine ⟨fun channel => ?_, ?_⟩ <;> rw [channel_modify]
  · split
    · rename_i here
      exact here.1 ▸ listeners
    · exact unbidden.listeners channel
  · split
    · rename_i here
      exact requests here.1
    · exact unbidden.requests

theorem react (unbidden : stage.Unbidden number) {action : Action} (modest : ¬ action.Bids number) :
    (stage.react action).Unbidden number := by
  cases action with
  | send other act =>
    refine unbidden.modify other (unbidden.listeners other) fun same asked => ?_
    rcases List.mem_append.1 asked with before | now
    · exact unbidden.requests before
    · obtain rfl := List.mem_singleton.1 now
      exact modest (same ▸ .send)
  | remove other name =>
    rw [Stage.react, dismiss]
    split
    · refine (unbidden.modify other (fun entry member => ?_) fun _ => unbidden.requests).of_channels
        rfl
      exact unbidden.listeners other entry (List.mem_of_mem_filter member)
    · exact unbidden
  | add other name reactions =>
    refine (unbidden.modify other (fun entry member => ?_) fun _ => unbidden.requests).of_channels
      rfl
    rcases List.mem_append.1 member with before | now
    · exact unbidden.listeners other entry before
    · obtain rfl := List.mem_singleton.1 now
      rintro ⟨reaction, among, action, part, bids⟩
      exact modest (.add among part bids)

theorem reactAll (unbidden : stage.Unbidden number)
    {actions : List Action} (modest : ∀ action ∈ actions, ¬ action.Bids number) :
    (actions.foldl Stage.react stage).Unbidden number := by
  induction actions generalizing stage with
  | nil => exact unbidden
  | cons action rest ih =>
    exact ih (unbidden.react (modest action (List.mem_cons_self ..))) fun other member =>
      modest other (List.mem_cons_of_mem _ member)

theorem notify (unbidden : stage.Unbidden number) (event : Lifecycle) {listener : Listener}
    (modest : ¬ listener.Bids number) : (stage.notify event listener).Unbidden number := by
  cases listener with
  | recorder label => exact unbidden.of_channels rfl
  | witness name reactions =>
    have logged : (stage.log (.heard name event)).Unbidden number := unbidden.of_channels rfl
    exact logged.reactAll fun action answers bids =>
      modest (Listener.bids_of_answer event answers bids)

theorem announce (unbidden : stage.Unbidden number) (other : Nat) (event : Lifecycle) :
    (stage.announce other event).Unbidden number := by
  have told : ∀ (audience : List Listener) {stage : Stage}, stage.Unbidden number →
      (∀ listener ∈ audience, ¬ listener.Bids number) →
      (audience.foldl (Stage.notify event) stage).Unbidden number := by
    intro audience
    induction audience with
    | nil => exact fun unbidden _ => unbidden
    | cons listener rest ih =>
      exact fun unbidden modest =>
        ih (unbidden.notify event (modest listener (List.mem_cons_self ..)))
        fun other member => modest other (List.mem_cons_of_mem _ member)
  refine told _ (unbidden.modify other (fun entry member bids => ?_) fun _ => unbidden.requests)
    fun listener member => ?_
  · obtain ⟨before, there, rfl⟩ := List.mem_map.1 member
    exact unbidden.listeners other before there (Listener.bids_hear event bids)
  · obtain ⟨entry, there, rfl⟩ := List.mem_map.1 member
    exact unbidden.listeners other entry there

theorem announceAll (unbidden : stage.Unbidden number) (other : Nat) (events : List Lifecycle) :
    (stage.announceAll other events).Unbidden number := by
  induction events generalizing stage with
  | nil => exact unbidden
  | cons event events ih => exact ih (unbidden.announce other event)

/-- What is taken out to be served is no start of the sequence, and leaves none behind. -/
theorem take (unbidden : stage.Unbidden number) {other : Nat} {act : Act} {after : Stage}
    (next : stage.nextRequest? other = some (act, after)) :
    (number = other → act ≠ .start) ∧ after.Unbidden number := by
  obtain ⟨requests, listeners, -, -, others⟩ := nextRequest?_eq_some next
  refine ⟨fun same start => ?_, fun channel entry member => ?_, fun waits => ?_⟩
  · refine unbidden.requests ?_
    rw [same, requests, start]
    exact List.mem_cons_self ..
  · by_cases own : channel = other
    · subst own
      exact unbidden.listeners channel entry (listeners ▸ member)
    · exact unbidden.listeners channel entry (others channel own ▸ member)
  · refine unbidden.requests ?_
    by_cases own : number = other
    · subst own
      rw [requests]
      exact List.mem_cons_of_mem _ waits
    · exact others number own ▸ waits

end Unbidden

end Stage

end Choreo
