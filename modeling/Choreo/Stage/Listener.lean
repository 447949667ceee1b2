import Choreo.Lifecycle

/-!
# Listeners

A listener is told what happens to a sequence as a whole. A recorder writes it down on the
recording. A witness writes it into the journal and may react: it sends requests to sequences, and
takes listeners away or brings new ones in. A reaction lets a number of notifications of its event
pass and answers a number of the next ones, so a listener acts finitely often. Its weight is the
number of requests that can ever come of it.
-/

namespace Choreo

/-- Lets `skip` notifications of the event pass and answers the next `times` with these actions. -/
structure Reaction (α : Type) where
  event : Lifecycle
  skip : Nat
  times : Nat
  actions : List α

namespace Reaction

variable {α : Type}

def isDue (event : Lifecycle) (reaction : Reaction α) : Bool :=
  reaction.event == event && reaction.skip == 0 && 0 < reaction.times

def hear (event : Lifecycle) (reaction : Reaction α) : Reaction α :=
  if reaction.event = event then
    if reaction.skip = 0 then { reaction with times := reaction.times - 1 }
    else { reaction with skip := reaction.skip - 1 }
  else reaction

end Reaction

inductive Action where
  | send (channel : Nat) (act : Act)
  | remove (channel : Nat) (name : String)
  | add (channel : Nat) (name : String) (reactions : List (Reaction Action))

mutual

def Action.weight : Action → Nat
  | .send .. => 1
  | .remove .. => 0
  | .add _ _ reactions => Action.weightOfReactions reactions

def Action.weightOfReactions : List (Reaction Action) → Nat
  | [] => 0
  | reaction :: rest => Action.weightOfReaction reaction + Action.weightOfReactions rest

def Action.weightOfReaction : Reaction Action → Nat
  | ⟨_, _, times, actions⟩ => times * Action.weightOfAll actions

def Action.weightOfAll : List Action → Nat
  | [] => 0
  | action :: rest => action.weight + Action.weightOfAll rest

end

/-- Somebody who is told what happens to a sequence. -/
inductive Listener where
  | recorder (label : String)
  | witness (name : String) (reactions : List (Reaction Action))

namespace Listener

def hear (event : Lifecycle) : Listener → Listener
  | .recorder label => .recorder label
  | .witness name reactions => .witness name (reactions.map (Reaction.hear event))

def answer (event : Lifecycle) : Listener → List Action
  | .recorder _ => []
  | .witness _ reactions => (reactions.filter (Reaction.isDue event)).flatMap Reaction.actions

def weight : Listener → Nat
  | .recorder _ => 0
  | .witness _ reactions => Action.weightOfReactions reactions

end Listener

end Choreo
