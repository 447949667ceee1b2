import Choreo.CommandLine

/-!
# The program on the command line

Reads the file, runs the program on it and prints what it says. With `--realtime` the clock of the
run is that of the machine: after each pause of one tick the time that really went by counts.
-/

namespace Choreo.CommandLine

def helpText : String :=
  "Play a timeline of simulated clips through the animation sequencer.\n\n" ++
  "Usage: sequencer [OPTIONS]\n\n" ++
  "Options:\n" ++
  "      --config <PATH>      Path to the timeline file (TOML) [default: Timeline.toml]\n" ++
  "      --log-level <LEVEL>  Logging level (error, warn, info, debug, trace)\n" ++
  "      --dry-run            Print clips, constraints and start order, but play nothing\n" ++
  "      --realtime           Drive the clock from wall time instead of a virtual clock\n" ++
  "  -h, --help               Print help\n" ++
  "  -V, --version            Print version\n"

def Usage.message : Usage → String
  | .unknownArgument => "error: unexpected argument"
  | .invalidValue => "error: missing or invalid value"
  | .repeated => "error: an option cannot be used twice"
  | .unexpectedValue => "error: unexpected value"
  | .help => helpText
  | .version => "sequencer 0.1.0\n"

/-- The fault behind an error of the system. -/
def faultOf : IO.Error → Option FileFault
  | .noFileOrDirectory .. => some .notFound
  | .inappropriateType _ 20 _ => some .notDirectory
  | .inappropriateType .. => some .isDirectory
  | _ => none

def readFile (path : String) : IO (Except FileFault ByteArray) := do
  try
    return .ok (← IO.FS.readBinFile path)
  catch e =>
    match faultOf e with
    | some fault => return .error fault
    | none => throw e

/-- Moves a scene on by the time that goes by, pause after pause, until its run is over. -/
partial def keepTime (settings : Settings Span) (last ticks : Nat) (canceled : Bool)
  (scene : Scene) :
    IO (Except Playback.Failure Playback.Outcome × Scene) := do
  if scene.sequence.isIdle then return (.ok ⟨Playback.now scene, ticks, canceled⟩, scene)
  IO.sleep (min (Playback.pause settings.tick).millis 4294967295).toUInt32
  let present ← IO.monoNanosNow
  match Span.ofNanos? (present - last) with
  | none => return (.error (.overflow .sumTooLong), scene)
  | some delta =>
    match Playback.followStep Performer.behaviour settings.cap delta scene with
    | (.error e, next) => return (.error (.overflow e), next)
    | (.ok cut, next) => keepTime settings present (ticks + 1) (canceled || cut) next

def playInTime (timeline : Timeline) : IO Outcome := do
  match (Scene.ofTimeline timeline).start Performer.behaviour with
  | (.error refusal, _) => return .failed (.refused refusal)
  | (.ok (), scene) =>
    return report (← keepTime timeline.settings (← IO.monoNanosNow) 0 false scene)

def runFile (options : Options) : IO Outcome := do
  let file ← readFile options.config
  match load file, options.dryRun, options.realtime with
  | .ok timeline, false, true => playInTime timeline
  | _, _, _ => return run options file

end Choreo.CommandLine

open Choreo.CommandLine in
def main (words : List String) : IO UInt32 := do
  match Options.ofWords words with
  | .error .help => IO.print Usage.help.message; return 0
  | .error .version => IO.print Usage.version.message; return 0
  | .error usage => IO.eprintln usage.message; return 2
  | .ok options =>
    let outcome ← runFile options
    IO.print outcome.printed
    match outcome.failure with
    | none => return 0
    | some failure => IO.eprintln ("sequencer error: " ++ failure.message); return 1
