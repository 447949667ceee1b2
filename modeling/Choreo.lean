import Choreo.Main
import Choreo.World
import Choreo.Proofs.Performer.Contract
import Choreo.Proofs.Performer.Elapse
import Choreo.Proofs.Performer.Prompt
import Choreo.Proofs.Plan.Acceptance
import Choreo.Proofs.Playback.Bounded
import Choreo.Proofs.Playback.CriticalPath
import Choreo.Proofs.Playback.Limit
import Choreo.Proofs.Playback.Realtime
import Choreo.Proofs.Playback.Season
import Choreo.Proofs.Run.Consumption
import Choreo.Proofs.Run.Desk
import Choreo.Proofs.Run.Remembered
import Choreo.Proofs.Run.Repetition
import Choreo.Proofs.Run.Simultaneous
import Choreo.Proofs.Run.Stray
import Choreo.Proofs.Run.Tally
import Choreo.Proofs.Sequence.Pump
import Choreo.Proofs.Sequence.Undisturbed
import Choreo.Proofs.Sequence.WindingDown
import Choreo.Proofs.Span.RoundTrip
import Choreo.Proofs.World.Delivery
import Choreo.Proofs.World.Handles
import Choreo.Proofs.World.Nested
