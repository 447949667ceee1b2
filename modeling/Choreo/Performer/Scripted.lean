import Choreo.Lifecycle

/-!
# Scripted units

A scripted unit reports the same list of events at each call of a kind, whatever its state, and
takes no notice of time. It runs from a start to the next order to stop.
-/

namespace Choreo

/-- What the unit reports when it is started, ended and canceled, and whether it runs. -/
structure Scripted where
  onStart : List Lifecycle
  onFinish : List Lifecycle
  onCancel : List Lifecycle
  running : Bool
  deriving DecidableEq

namespace Scripted

def act (act : Act) (unit : Scripted) : List Lifecycle × Scripted :=
  match act with
  | .start => (unit.onStart, { unit with running := true })
  | .finish => (unit.onFinish, { unit with running := false })
  | .cancel => (unit.onCancel, { unit with running := false })

end Scripted

end Choreo
