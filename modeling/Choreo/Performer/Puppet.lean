import Choreo.Lifecycle
import Choreo.Span

/-!
# Puppets

A puppet ends at once, after some time, or only when it is told to, as its mode says. A silent
puppet obeys an order to stop without reporting that it did.
-/

namespace Choreo

/-- When a puppet ends. -/
inductive Puppet.Mode where
  | instant
  | timed (duration : Span)
  | manual
  deriving DecidableEq

structure Puppet where
  mode : Puppet.Mode
  silent : Bool
  elapsed : Span
  running : Bool

namespace Puppet

def fresh (mode : Mode) (silent : Bool) : Puppet := ⟨mode, silent, .zero, false⟩

def Mode.immediate : Mode → Bool
  | .instant => true
  | .timed duration => duration.isZero
  | .manual => false

def start (puppet : Puppet) : List Lifecycle × Puppet :=
  if puppet.running then ([], puppet)
  else if puppet.mode.immediate then
    ([.started, .ended], { puppet with elapsed := .zero, running := false })
  else ([.started], { puppet with elapsed := .zero, running := true })

/-- Stops a running puppet, which reports these events unless it is silent. -/
def stop (events : List Lifecycle) (puppet : Puppet) : List Lifecycle × Puppet :=
  if puppet.running then
    (if puppet.silent then [] else events, { puppet with running := false })
  else ([], puppet)

def finish (puppet : Puppet) : List Lifecycle × Puppet := puppet.stop [.ended]

def cancel (puppet : Puppet) : List Lifecycle × Puppet := puppet.stop [.canceled, .ended]

/-- Lets time go by for a running puppet; only a timed one takes notice. -/
def tick (delta : Span) (puppet : Puppet) : Except Overflow (List Lifecycle × Puppet) :=
  match puppet.mode, puppet.running with
  | .timed duration, true =>
    match puppet.elapsed.add delta with
    | .error e => .error e
    | .ok elapsed =>
      if duration.ns ≤ elapsed.ns then .ok ([.ended], { puppet with elapsed, running := false })
      else .ok ([], { puppet with elapsed })
  | _, _ => .ok ([], puppet)

end Puppet

end Choreo
