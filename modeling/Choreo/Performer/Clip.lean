import Choreo.Lifecycle
import Choreo.Span

/-!
# Clips

A clip lasts a fixed time and may be played several times over. It reports a repeat each time it
goes round and its end after the last round; time beyond the end of a round counts for the next
one. A clip without duration ends as soon as it starts.
-/

namespace Choreo

/-- A clip that goes round `extra + 1` times, and how far it has come. -/
structure Clip where
  duration : Span
  extra : Nat
  rounds : Nat
  elapsed : Span
  running : Bool

namespace Clip

def fresh (duration : Span) (extra : Nat) : Clip := ⟨duration, extra, 0, .zero, false⟩

/-- Begins the first round; a running clip goes on undisturbed. -/
def start (clip : Clip) : List Lifecycle × Clip :=
  if clip.running then ([], clip)
  else
    let begun := { clip with rounds := 0, elapsed := .zero, running := true }
    if clip.duration.isZero then ([.started, .ended], { begun with running := false })
    else ([.started], begun)

def finish (clip : Clip) : List Lifecycle × Clip :=
  if clip.running then ([.ended], { clip with running := false }) else ([], clip)

def cancel (clip : Clip) : List Lifecycle × Clip :=
  if clip.running then ([.canceled, .ended], { clip with running := false }) else ([], clip)

/-- The rounds that are over once so much time has gone by in the present one. -/
def roundsIn (clip : Clip) (elapsed : Span) : Nat :=
  min (clip.extra - clip.rounds) (elapsed.ns / clip.duration.ns)

/-- The clip when so much time of its present round has gone by. -/
def reach (elapsed : Span) (clip : Clip) : List Lifecycle × Clip :=
  let more := clip.roundsIn elapsed
  let left : Span :=
    ⟨elapsed.ns - more * clip.duration.ns, Nat.le_trans (Nat.sub_le _ _) elapsed.ns_le⟩
  let repeats := List.replicate more Lifecycle.repeated
  if clip.duration.ns ≤ left.ns then
    (repeats ++ [.ended],
      { clip with rounds := clip.rounds + more, elapsed := clip.duration, running := false })
  else (repeats, { clip with rounds := clip.rounds + more, elapsed := left })

def tick (delta : Span) (clip : Clip) : Except Overflow (List Lifecycle × Clip) :=
  if clip.running then
    match clip.elapsed.add delta with
    | .ok elapsed => .ok (clip.reach elapsed)
    | .error e => .error e
  else .ok ([], clip)

end Clip

end Choreo
