import Choreo.CommandLine.Directory
import Choreo.CommandLine.Options
import Choreo.Plan.Listing
import Choreo.Plan.Playback

/-!
# The program

The program reads a plan, checks it, and then either lists it or plays it and shows what was
recorded.
-/

namespace Choreo.CommandLine

/-- Why the program fails. -/
inductive Failure where
  | unreadable (failure : LoadFailure)
  | faulty (fault : Fault)
  | playback (failure : Playback.Failure)
  | refused (refusal : Refusal)
  deriving DecidableEq

def Failure.message : Failure → String
  | .unreadable failure => failure.message
  | .faulty fault => fault.message
  | .playback (.refused refusal) => refusal.message
  | .playback (.overflow overflow) => overflow.message
  | .playback .unfinished => "the clock stands still"
  | .refused refusal => refusal.message

/-- What the program prints, and why it fails if it does. -/
structure Outcome where
  printed : String
  failure : Option Failure

namespace Outcome

def failed (failure : Failure) : Outcome := ⟨"", some failure⟩

end Outcome

def load (file : Except FileFault ByteArray) : Except Failure Timeline :=
  match Draft.ofFile file with
  | .error failure => .error (.unreadable failure)
  | .ok draft =>
    match draft.check with
    | .error fault => .error (.faulty fault)
    | .ok timeline => .ok timeline

def list (timeline : Timeline) : Outcome :=
  let listing := timeline.listing
  ⟨listing.1, listing.2.map .refused⟩

def report (played : Except Playback.Failure Playback.Outcome × Scene) : Outcome :=
  match played with
  | (.error failure, _) => .failed (.playback failure)
  | (.ok outcome, scene) =>
    let notice :=
      if outcome.canceled then "(canceled at t=" ++ toString outcome.elapsed.millis ++
        "ms)\n" else ""
    ⟨scene.recording.render ++ notice, none⟩

def play (timeline : Timeline) : Outcome :=
  report (Playback.virtual Performer.behaviour timeline.settings (Scene.ofTimeline timeline))

/-- Plays a plan on the clock of a machine that is never late. -/
def playPunctually (timeline : Timeline) : Outcome :=
  report (Playback.punctual Performer.behaviour timeline.settings (Scene.ofTimeline timeline))

def run (options : Options) (file : Except FileFault ByteArray) : Outcome :=
  match load file with
  | .error failure => .failed failure
  | .ok timeline =>
    if options.dryRun then list timeline
    else if options.realtime then playPunctually timeline
    else play timeline

def runIn (directory : Directory) (options : Options) : Outcome :=
  run options (directory.read options.config)

end Choreo.CommandLine
