import Choreo.Proofs.Playback.Bounded

/-!
# What a playback does

A playback starts a sequence, moves the clock and lets time go by for the sequence in turns, and may
cancel it. These deeds are all that it does to the sequence and its clock; what it looks at between
them decides which deed comes next. Done one after the other they lead to where the playback leads.
-/

namespace Choreo

variable {U : Type}

/-- Moves the clock of a stage, if there is so much time left. -/
def Stage.windOn (delta : Span) (stage : Stage) : Stage :=
  match stage.recording.advance delta with
  | .error _ => stage
  | .ok recording => { stage with recording }

namespace Playback

/-- One thing that a playback does to a sequence or to its clock. -/
inductive Deed where
  | start
  | clock (delta : Span)
  | tick (delta : Span)
  | cancel
  deriving DecidableEq

def Deed.cue : Deed → Cue U
  | .start => .start
  | .clock delta => .meanwhile (Stage.windOn delta)
  | .tick delta => .tick delta
  | .cancel => .cancel

/-- The sequence after these deeds. -/
def enact (b : Behaviour U) (deeds : List Deed) (live : Live U) : Live U :=
  (live.rehearse b (deeds.map Deed.cue)).2

/-- A step of the clock; the units hear of it only if the clock can follow. -/
def advanceDeeds (delta : Span) (live : Live U) : List Deed :=
  .clock delta ::
    match live.stage.recording.advance delta with
    | .error _ => []
    | .ok _ => [.tick delta]

def goOnDeeds (b : Behaviour U) (options : PlaybackOptions) : Nat → Live U → List Deed
  | rounds, live =>
    if live.sequence.isIdle then []
    else if options.cap.ns ≤ (now live).ns then [.cancel]
    else
      match rounds with
      | 0 => []
      | rounds + 1 =>
        advanceDeeds options.tick live ++
          match advance b options.tick live with
          | (.error _, _) => []
          | (.ok (), next) => goOnDeeds b options rounds next

/-- What is done to play a sequence on a virtual clock. -/
def virtualDeeds (b : Behaviour U) (options : PlaybackOptions) (live : Live U) : List Deed :=
  .start ::
    match live.start b with
    | (.error _, _) => []
    | (.ok (), next) => goOnDeeds b options (stepsToCap options (now next)) next

def followStepDeeds (b : Behaviour U) (cap delta : Span) (live : Live U) : List Deed :=
  advanceDeeds delta live ++
    match advance b delta live with
    | (.error _, _) => []
    | (.ok (), next) => if !next.sequence.isIdle && cap.ns ≤ (now next).ns then [.cancel] else []

def followDeeds (b : Behaviour U) (cap : Span) (clock : Nat → Span) : Nat → Nat → Live U → List Deed
  | rounds, ticks, live =>
    if live.sequence.isIdle then []
    else
      match rounds with
      | 0 => []
      | rounds + 1 =>
        followStepDeeds b cap (clock ticks) live ++
          match followStep b cap (clock ticks) live with
          | (.error _, _) => []
          | (.ok _, next) => followDeeds b cap clock rounds (ticks + 1) next

/-- What is done to play a sequence on a clock of which at most so many steps are followed. -/
def realtimeDeeds (b : Behaviour U) (cap : Span) (clock : Nat → Span) (rounds : Nat)
    (live : Live U) :
    List Deed :=
  .start ::
    match live.start b with
    | (.error _, _) => []
    | (.ok (), next) => followDeeds b cap clock rounds 0 next

variable {b : Behaviour U}

theorem enact_cons (deed : Deed) (deeds : List Deed) (live : Live U) :
    enact b (deed :: deeds) live = enact b deeds (live.onCue b deed.cue).2 := rfl

theorem enact_append (deeds more : List Deed) (live : Live U) :
    enact b (deeds ++ more) live = enact b more (enact b deeds live) := by
  induction deeds generalizing live with
  | nil => rfl
  | cons deed deeds ih => exact ih _

theorem enact_advanceDeeds (delta : Span) (live : Live U) :
    enact b (advanceDeeds delta live) live = (advance b delta live).2 := by
  rw [advanceDeeds, enact_cons, advance, Deed.cue, Live.onCue]
  simp only [Stage.windOn]
  cases live.stage.recording.advance delta with
  | error overflow => rfl
  | ok recording => rfl

theorem enact_goOnDeeds (options : PlaybackOptions) (rounds ticks : Nat) (live : Live U) :
    enact b (goOnDeeds b options rounds live) live = (goOn b options rounds ticks live).2 := by
  induction rounds generalizing ticks live with
  | zero =>
    rw [goOnDeeds, goOn]
    split
    · rfl
    · split <;> rfl
  | succ rounds ih =>
    rw [goOnDeeds, goOn]
    split
    · rfl
    · split
      · rfl
      · rw [enact_append, enact_advanceDeeds]
        rcases advance b options.tick live with ⟨overflow | ⟨⟩, next⟩
        · rfl
        · exact ih (ticks + 1) next

theorem enact_virtualDeeds (options : PlaybackOptions) (live : Live U) :
    enact b (virtualDeeds b options live) live = (virtual b options live).2 := by
  have started : (live.onCue b Deed.start.cue).2 = (live.start b).2 := rfl
  rw [virtualDeeds, enact_cons, started, virtual]
  rcases live.start b with ⟨refusal | ⟨⟩, next⟩
  · rfl
  · exact enact_goOnDeeds options _ 0 next

end Playback

end Choreo
