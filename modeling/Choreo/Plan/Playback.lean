import Choreo.Plan.Scene

/-!
# Playing a scene

A scene is started and its clock is moved on step by step until the run is over. A run that is still
going when the clock has reached the cap is canceled. On a virtual clock all steps are alike, and
the cap is looked at before each step; on a real clock the steps are whatever time went by, and the
cap is looked at after each of them.
-/

namespace Choreo

abbrev PlaybackOptions := Settings Span

namespace Playback

def standard : PlaybackOptions := ⟨⟨16000000, by decide⟩, ⟨60000000000, by decide⟩⟩

/-- The clock at the end of a run, the number of steps, and whether the run was canceled. The steps
are counted without a limit; a counter of 64 bits would show the same up to 2 ^ 64 - 1 steps. -/
structure Outcome where
  elapsed : Span
  ticks : Nat
  canceled : Bool
  deriving DecidableEq

/-- Why there is no outcome: the run was refused, the clock went beyond the limit, or the steps did
not suffice. -/
inductive Failure where
  | refused (refusal : Refusal)
  | overflow (overflow : Overflow)
  | unfinished
  deriving DecidableEq

variable {U : Type}

def now (live : Live U) : Span := live.stage.recording.now

def advance (b : Behaviour U) (delta : Span) (live : Live U) : Except Overflow Unit × Live U :=
  match live.stage.recording.advance delta with
  | .error e => (.error e, live)
  | .ok recording => { live with stage := { live.stage with recording } }.tick b delta

/-- Goes on for at most so many rounds of looking at the cap and taking a step. -/
def goOn (b : Behaviour U) (options : PlaybackOptions) :
    Nat → Nat → Live U → Except Failure Outcome × Live U
  | rounds, ticks, live =>
    if live.sequence.isIdle then (.ok ⟨now live, ticks, false⟩, live)
    else if options.cap.ns ≤ (now live).ns then
      let canceled := live.cancel b
      (.ok ⟨now canceled, ticks, true⟩, canceled)
    else
      match rounds with
      | 0 => (.error .unfinished, live)
      | rounds + 1 =>
        match advance b options.tick live with
        | (.error e, next) => (.error (.overflow e), next)
        | (.ok (), next) => goOn b options rounds (ticks + 1) next

def stepsToCap (options : PlaybackOptions) (start : Span) : Nat :=
  (options.cap.ns - start.ns + (options.tick.ns - 1)) / options.tick.ns

def virtual (b : Behaviour U) (options : PlaybackOptions) (live : Live U) :
    Except Failure Outcome × Live U :=
  match live.start b with
  | (.error refusal, next) => (.error (.refused refusal), next)
  | (.ok (), next) => goOn b options (stepsToCap options (now next)) 0 next

/-- Takes one step and cancels a run that goes on beyond the cap; the answer is whether it did. -/
def followStep (b : Behaviour U) (cap delta : Span) (live : Live U) :
    Except Overflow Bool × Live U :=
  match advance b delta live with
  | (.error e, next) => (.error e, next)
  | (.ok (), next) =>
    if !next.sequence.isIdle && cap.ns ≤ (now next).ns then (.ok true, next.cancel b)
    else (.ok false, next)

/-- Follows a clock for at most so many rounds; the clock tells how long each of its steps is. -/
def follow (b : Behaviour U) (cap : Span) (clock : Nat → Span) :
    Nat → Nat → Bool → Live U → Except Failure Outcome × Live U
  | rounds, ticks, canceled, live =>
    if live.sequence.isIdle then (.ok ⟨now live, ticks, canceled⟩, live)
    else
      match rounds with
      | 0 => (.error .unfinished, live)
      | rounds + 1 =>
        match followStep b cap (clock ticks) live with
        | (.error e, next) => (.error (.overflow e), next)
        | (.ok cut, next) => follow b cap clock rounds (ticks + 1) (canceled || cut) next

def realtime (b : Behaviour U) (cap : Span) (clock : Nat → Span) (rounds : Nat) (live : Live U) :
    Except Failure Outcome × Live U :=
  match live.start b with
  | (.error refusal, next) => (.error (.refused refusal), next)
  | (.ok (), next) => follow b cap clock rounds 0 false next

/-- How long it takes until the clock of a machine is looked at again: one tick, but no less than a
millisecond. -/
def pause (tick : Span) : Span := if tick.ns < 1000000 then ⟨1000000, by decide⟩ else tick

/-- Plays a scene on the clock of a machine that is never late. -/
def punctual (b : Behaviour U) (options : PlaybackOptions) (live : Live U) :
    Except Failure Outcome × Live U :=
  let step := pause options.tick
  realtime b options.cap (fun _ => step) (stepsToCap ⟨step, options.cap⟩ (now live) + 1) live

end Playback

end Choreo
