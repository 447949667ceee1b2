import Choreo.Lifecycle
import Choreo.Span

/-!
# Delays

A delay does nothing but last. It ends when enough time has gone by, at once if its duration is
zero, and an ended delay counts as having lasted its whole duration.
-/

namespace Choreo

/-- A delay and how far it has come. -/
structure Delay where
  duration : Span
  elapsed : Span
  running : Bool

namespace Delay

def fresh (duration : Span) : Delay := ⟨duration, .zero, false⟩

def start (delay : Delay) : List Lifecycle × Delay :=
  if delay.running then ([], delay)
  else if delay.duration.isZero then
    ([.started, .ended], { delay with elapsed := .zero, running := false })
  else ([.started], { delay with elapsed := .zero, running := true })

/-- Ends a running delay as if all its time had gone by. -/
def finish (delay : Delay) : List Lifecycle × Delay :=
  if delay.running then ([.ended], { delay with elapsed := delay.duration, running := false })
  else ([], delay)

def cancel (delay : Delay) : List Lifecycle × Delay :=
  if delay.running then ([.canceled, .ended], { delay with running := false }) else ([], delay)

def tick (delta : Span) (delay : Delay) : Except Overflow (List Lifecycle × Delay) :=
  if delay.running then
    match delay.elapsed.add delta with
    | .error e => .error e
    | .ok elapsed =>
      if delay.duration.ns ≤ elapsed.ns
        then .ok ([.ended], { delay with elapsed, running := false })
      else .ok ([], { delay with elapsed })
  else .ok ([], delay)

end Delay

end Choreo
