import Choreo.Sequence.Live

/-!
# What can be asked of a sequence

Units may be registered and related, runs started, ended and canceled, time may go by, reports may
come in from outside, and between two of these the stage may change in any way: listeners come and
go, requests are sent, the clock moves on. A score of such cues is played in order. A start that is
refused comes back with the refusal, and time that does not fit the clocks of the units breaks a
tick off.
-/

namespace Choreo

/-- One thing that is asked of a live sequence, or done to its stage meanwhile. -/
inductive Cue (U : Type) where
  | add (label : Option String) (unit : U)
  | play (unit : Option UnitId) (links : List Link)
  | together (units : List UnitId)
  | sequential (units : List UnitId)
  | sort
  | start
  | finish
  | cancel
  | tick (delta : Span)
  | report (report : Report)
  | serve
  | meanwhile (change : Stage → Stage)

/-- How a call comes back, if it does. -/
inductive Outcome where
  | done
  | refused (refusal : Refusal)
  | overflowed
  deriving DecidableEq

namespace Outcome

def ofResult {α : Type} : Except Refusal α → Outcome
  | .ok _ => .done
  | .error refusal => .refused refusal

def ofTick {α : Type} : Except Overflow α → Outcome
  | .ok _ => .done
  | .error _ => .overflowed

/-- Whether the caller gets an answer at all. -/
def returns : Outcome → Bool
  | .overflowed => false
  | _ => true

theorem returns_ofTick {α : Type} {result : Except Overflow α} :
    (ofTick result).returns = true ↔ ∃ value, result = .ok value := by
  cases result <;> simp [ofTick, returns]

end Outcome

namespace Live

variable {U : Type} (b : Behaviour U)

theorem drain_of_nil {live : Live U} (none : live.sequence.queue = []) :
    live.drain b = ([], live) := by
  rw [drain]
  split
  · rfl
  · rename_i some
    rw [none] at some
    cases some

theorem drain_of_cons {live : Live U} {report : Report} {rest : List Report}
    (queue : live.sequence.queue = report :: rest) : live.drain b =
      ((live.heed b report rest).1 ++ ((live.heed b report rest).2.drain b).1,
        ((live.heed b report rest).2.drain b).2) := by
  rw [drain]
  split
  · rename_i none
    rw [queue] at none
    cases none
  · rename_i same
    rw [queue] at same
    cases same
    rfl

theorem queue_drain (live : Live U) : (live.drain b).2.sequence.queue = [] := by
  induction live using Live.drain.induct b with
  | case1 live none => rwa [drain_of_nil b none]
  | case2 live report rest queue done =>
    rename_i ih
    rwa [drain_of_cons b queue]

theorem drive_nothing {b : Behaviour U} {live : Live U} (empty : live.sequence.queue = []) :
    live.drive b .nothing = ([], live) := by
  simp [drive, Decision.nothing, execute, drain_of_nil b empty]

theorem conductor_tickUnit (delta : Span) (id : UnitId) (live : Live U) :
    (live.tickUnit b delta id).2.conductor = live.conductor := by
  rw [tickUnit]
  split
  · rfl
  · split <;> rfl

theorem conductor_tickUnits (delta : Span) (ids : List UnitId) (live : Live U) :
    (tickUnits b delta ids live).2.conductor = live.conductor := by
  induction ids generalizing live with
  | nil => rfl
  | cons id ids ih =>
    have same := conductor_tickUnit b delta id live
    rw [tickUnits]
    split
    · rename_i next ticked
      rw [ih, ← same, ticked]
    · rename_i failed
      rw [← same, failed]

/-- Whether a call is one for a start that is refused. -/
def refuses (act : Act) (live : Live U) : Bool :=
  match act, live.conductor.begin.1 with
  | .start, .error _ => true
  | _, _ => false

/-- What comes of a call, and what is announced at it, whoever makes it: what it asks for is done,
and unless it is refused that is published. -/
def respond (act : Act) (live : Live U) : List Lifecycle × Live U :=
  if live.refuses act then obey b act live
  else (obey b act live).2.publish b (obey b act live).1

theorem fst_obey_of_refuses {act : Act} {live : Live U} (refused : live.refuses act = true) :
    (obey b act live).1 = [] := by
  cases act with
  | start =>
    rcases begun : live.conductor.begin with ⟨cycle | decision, next⟩
    · simp [obey, startRun, begun]
    · simp [refuses, begun] at refused
  | finish | cancel => cases refused

theorem start_cases (live : Live U) :
    (∃ cycle next, live.startRun b = (.error cycle, next) ∧ live.refuses .start = true ∧
      live.respond b .start = ([], next)) ∨
    ∃ events next, live.startRun b = (.ok events, next) ∧ live.refuses .start = false ∧
      live.respond b .start = next.publish b events := by
  rcases begun : live.conductor.begin with ⟨cycle | decision, next⟩
  · refine .inl ⟨cycle, live.withConductor next, ?_, ?_, ?_⟩ <;>
      simp [respond, obey, refuses, startRun, begun]
  · let driven := (live.withConductor next).drive b decision
    refine .inr ⟨driven.1, driven.2, ?_, ?_, ?_⟩ <;>
      simp [respond, obey, refuses, startRun, begun, driven]

theorem snd_start (live : Live U) : (live.start b).2 = (live.respond b .start).2 := by
  rw [start]
  rcases live.start_cases b with ⟨cycle, next, started, -, same⟩
    | ⟨events, next, started, -, same⟩ <;>
    rw [started, same]

/-- A sequence that is a unit reports what it announces, unless it refuses to start. -/
theorem actAsUnit_eq (act : Act) (live : Live U) : live.actAsUnit b act =
    (if live.refuses act then [.canceled, .ended]
      else (live.respond b act).1, (live.respond b act).2) := by
  cases act with
  | start =>
    rw [actAsUnit]
    rcases live.start_cases b with ⟨cycle, next, started, refused, same⟩ |
      ⟨events, next, started, refused, same⟩ <;> rw [started, same, refused] <;> rfl
  | finish => rfl
  | cancel => rfl

theorem tick_eq (delta : Span) (live : Live U) : live.tick b delta =
    ((live.tickAsUnit b delta).1.map fun _ => (), (live.tickAsUnit b delta).2) := by
  rw [tick, tickAsUnit]
  rcases live.tickRun b delta with ⟨overflow | events, next⟩ <;> rfl

/-- Changes the sequence while nothing is performed. -/
def revise (change : Sequence U → Sequence U) (live : Live U) : Live U :=
  { live with sequence := change live.sequence }

def onCue (cue : Cue U) (live : Live U) : Outcome × Live U :=
  match cue with
  | .add label unit => (.done, live.revise fun sequence => (sequence.add label unit).2)
  | .play unit links => (.done, live.revise (Sequence.playWith b.timer unit links))
  | .together units => (.done, live.revise (Sequence.playTogether b.timer units))
  | .sequential units => (.done, live.revise (Sequence.playSequentially b.timer units))
  | .sort =>
    (.ofResult live.sequence.sortedUnits.1, live.revise fun sequence => sequence.sortedUnits.2)
  | .start => (.ofResult (live.start b).1, (live.start b).2)
  | .finish => (.done, live.finish b)
  | .cancel => (.done, live.cancel b)
  | .tick delta => (.ofTick (live.tick b delta).1, (live.tick b delta).2)
  | .report report => (.done, live.report b report)
  | .serve => (.done, live.serveRequests b)
  | .meanwhile change => (.done, { live with stage := change live.stage })

/-- Gives these cues one after the other; the list is how each of them came back. -/
def rehearse : List (Cue U) → Live U → List Outcome × Live U
  | [], live => ([], live)
  | cue :: rest, live =>
    let done := live.onCue b cue
    let more := rehearse rest done.2
    (done.1 :: more.1, more.2)

theorem rehearse_induction {P : Live U → Prop} {allowed : Cue U → Prop}
    (keeps : ∀ cue live, allowed cue → P live → (live.onCue b cue).1.returns = true →
      P (live.onCue b cue).2)
    {live : Live U} (h : P live) {cues : List (Cue U)} (all : ∀ cue ∈ cues, allowed cue)
    (returned : ∀ outcome ∈ (live.rehearse b cues).1, outcome.returns = true) :
    P (live.rehearse b cues).2 := by
  induction cues generalizing live with
  | nil => exact h
  | cons cue rest ih =>
    have first := keeps cue live (all cue (List.mem_cons_self ..)) h
      (returned _ (List.mem_cons_self ..))
    exact ih first (fun other member => all other (List.mem_cons_of_mem _ member))
      fun outcome member => returned outcome (List.mem_cons_of_mem _ member)

end Live

end Choreo
