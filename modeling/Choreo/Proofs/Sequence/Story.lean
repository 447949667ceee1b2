import Choreo.Proofs.Sequence.Cues
import Choreo.Proofs.Stage.Traffic

/-!
# The story of a sequence

What happens while a sequence performs, told in order: which units are asked to do something and
what they answer, what is announced, who is called together to hear of it and who is told, which
requests are sent to the sequence in the meantime, which are served, and which starts are refused.
Each part of the work has its part in the story.
-/

namespace Choreo

/-- One thing that happens around a sequence. A unit that is not told to do anything lets time go
by. -/
inductive Happening where
  | cued
  | asked (unit : UnitId) (act : Option Act) (reply : Except Overflow (List Lifecycle))
  | announced (event : Lifecycle)
  | called (event : Lifecycle) (audience : List (Nat × Ear))
  | told (id : Nat) (ear : Ear) (event : Lifecycle)
  | left (id : Nat)
  | joined (id : Nat) (ear : Ear)
  | sent (act : Act)
  | served (act : Act)
  | refused

namespace Happening

/-- Whether something happens between the sequence and its units, or is decided about the run. -/
def isInward : Happening → Bool
  | .asked .. | .announced _ | .refused => true
  | _ => false

def announcement? : Happening → Option Lifecycle
  | .announced event => some event
  | _ => none

/-- What was announced in a story. -/
def announcements (story : List Happening) : List Lifecycle := story.filterMap announcement?

/-- What the listener of this number is told, if this is what happens. -/
def heardBy? (id : Nat) : Happening → Option Lifecycle
  | .told other _ event => if other = id then some event else none
  | _ => none

/-- What the listener of this number was told in a story. -/
def toldTo (id : Nat) (story : List Happening) : List Lifecycle := story.filterMap (heardBy? id)

def delivery? : Happening → Option Lifecycle
  | .called event _ => some event
  | _ => none

/-- What was delivered in a story. -/
def deliveries (story : List Happening) : List Lifecycle := story.filterMap delivery?

def request? : Happening → Option Act
  | .sent act => some act
  | _ => none

/-- What was requested in a story. -/
def requests (story : List Happening) : List Act := story.filterMap request?

def service? : Happening → Option Act
  | .served act => some act
  | _ => none

/-- Which requests were served in a story. -/
def services (story : List Happening) : List Act := story.filterMap service?

@[simp] theorem announcements_append (story more : List Happening) :
    announcements (story ++ more) = announcements story ++ announcements more :=
  List.filterMap_append

@[simp] theorem deliveries_append (story more : List Happening) :
    deliveries (story ++ more) = deliveries story ++ deliveries more :=
  List.filterMap_append

end Happening

namespace Stage

/-- What changes in a channel between two moments: who leaves, who joins, and what is sent. -/
def changes (number : Nat) (before after : Stage) : List Happening :=
  let old := before.channel number
  let new := after.channel number
  (old.roster.filter fun entry => !new.has entry.1).map (fun entry => .left entry.1) ++
    (new.roster.filter fun entry => !old.has entry.1).map (fun entry => .joined entry.1 entry.2) ++
    (new.requests.drop old.requests.length).map .sent

/-- These listeners of a channel are told of an event, one after the other. -/
def tellStory (number : Nat) (event : Lifecycle) : List (Nat × Listener) → Stage → List Happening
  | [], _ => []
  | (id, listener) :: rest, stage =>
    let after := stage.notify event listener
    .told id listener.ear event :: changes number stage after ++ tellStory number event rest after

/-- The listeners of a channel are called together and told of an event. -/
def announceStory (number : Nat) (event : Lifecycle) (stage : Stage) : List Happening :=
  let audience := (stage.channel number).listeners
  .called event (audience.map fun entry => (entry.1, entry.2.ear)) ::
    tellStory number event audience (stage.modify number (Channel.hear event))

def announceAllStory (number : Nat) : List Lifecycle → Stage → List Happening
  | [], _ => []
  | event :: events, stage =>
    announceStory number event stage ++ announceAllStory number events (stage.announce number event)

end Stage

namespace Live

variable {U : Type} (b : Behaviour U)

def callStory (act : Act) (id : UnitId) (live : Live U) : List Happening :=
  match live.sequence.registry.get? id with
  | none => []
  | some unit =>
    let reply := b.act act unit live.stage
    .asked id (some act) (.ok reply.1) :: Stage.changes live.sequence.number live.stage reply.2.2

def executeStory : List Command → Live U → List Happening
  | [], _ => []
  | .call act unit :: commands, live =>
    live.callStory b act unit ++ executeStory commands (live.call b act unit)
  | .announce event :: commands, live => .announced event :: executeStory commands live

def heedStory (report : Report) (rest : List Report) (live : Live U) : List Happening :=
  let decided := live.conductor.step report
  executeStory b decided.1.commands
    ⟨{ live.sequence with conductor := decided.2, queue := rest }, live.stage⟩

def drainStory (live : Live U) : List Happening :=
  match _h : live.sequence.queue with
  | [] => []
  | report :: rest => live.heedStory b report rest ++ drainStory (live.heed b report rest).2
termination_by (live.conductor.awaiting, live.sequence.queue.length)
decreasing_by
  rcases live.awaiting_heed b report rest with less | ⟨le, queue⟩
  · exact .left _ _ less
  · rcases Nat.lt_or_eq_of_le le with less | same
    · exact .left _ _ less
    · rw [same, queue, _h]
      exact .right _ (Nat.lt_succ_self _)

def driveStory (decision : Decision) (live : Live U) : List Happening :=
  executeStory b decision.commands live ++ (execute b decision.commands live).2.drainStory b

def startRunStory (live : Live U) : List Happening :=
  match live.conductor.begin with
  | (.error _, _) => [.refused]
  | (.ok decision, conductor) => (live.withConductor conductor).driveStory b decision

def settleRunStory (live : Live U) : List Happening :=
  (live.withConductor live.conductor.settle.2).driveStory b live.conductor.settle.1

def windDownStory (decided : Decision × Conductor) (live : Live U) : List Happening :=
  let winding := live.withConductor decided.2
  winding.driveStory b decided.1 ++ (winding.drive b decided.1).2.settleRunStory b

def tickUnitStory (delta : Span) (id : UnitId) (live : Live U) : List Happening :=
  match live.sequence.registry.get? id with
  | none => []
  | some unit =>
    let reply := b.tick delta unit live.stage
    .asked id none reply.1 :: Stage.changes live.sequence.number live.stage reply.2.2

def tickUnitsStory (delta : Span) : List UnitId → Live U → List Happening
  | [], _ => []
  | id :: ids, live =>
    live.tickUnitStory b delta id ++
      match live.tickUnit b delta id with
      | (.ok (), next) => tickUnitsStory delta ids next
      | (.error _, _) => []

def tickRunStory (delta : Span) (live : Live U) : List Happening :=
  if live.sequence.isIdle then []
  else
    let units := live.conductor.playing.units
    live.tickUnitsStory b delta units ++
      match live.tickUnits b delta units with
      | (.ok (), next) => next.drainStory b
      | (.error _, _) => []

def deliverStory (events : List Lifecycle) (live : Live U) : List Happening :=
  live.stage.announceAllStory live.sequence.number events

def obeyStory (act : Act) (live : Live U) : List Happening :=
  match act with
  | .start => live.startRunStory b
  | .finish => live.windDownStory b live.conductor.endRun
  | .cancel => live.windDownStory b live.conductor.cancelRun

def serveStory : Nat → Live U → List Happening
  | 0, _ => []
  | limit + 1, live =>
    match live.stage.nextRequest? live.sequence.number with
    | none => []
    | some (act, stage) =>
      let taken : Live U := { live with stage }
      let obeyed := obey b act taken
      .served act :: (taken.obeyStory b act ++ (obeyed.2.deliverStory obeyed.1 ++
        serveStory limit (obeyed.2.deliver obeyed.1)))

def publishStory (events : List Lifecycle) (live : Live U) : List Happening :=
  let delivered := live.deliver events
  live.deliverStory events ++ delivered.serveStory b delivered.stage.weight

/-- What happens at a call for a start, an end or a cancellation, whoever makes it. -/
def respondStory (act : Act) (live : Live U) : List Happening :=
  live.obeyStory b act ++
    if live.refuses act then [] else (obey b act live).2.publishStory b (obey b act live).1

/-- What happens when time goes by, whoever lets it go by. -/
def tickStory (delta : Span) (live : Live U) : List Happening :=
  live.tickRunStory b delta ++
    match live.tickRun b delta with
    | (.error _, _) => []
    | (.ok events, next) => next.publishStory b events

def reportStory (report : Report) (live : Live U) : List Happening :=
  let queued : Live U :=
    { live with sequence := { live.sequence with queue := live.sequence.queue ++ [report] } }
  queued.drainStory b ++ (queued.drain b).2.publishStory b (queued.drain b).1

def cueStory (cue : Cue U) (live : Live U) : List Happening :=
  match cue with
  | .add .. | .play .. | .together _ | .sequential _ | .sort => []
  | .start => live.respondStory b .start
  | .finish => live.respondStory b .finish
  | .cancel => live.respondStory b .cancel
  | .tick delta => live.tickStory b delta
  | .report report => live.reportStory b report
  | .serve => live.publishStory b []
  | .meanwhile change => Stage.changes live.sequence.number live.stage (change live.stage)

/-- What happens while these cues are given one after the other. -/
def rehearseStory : List (Cue U) → Live U → List Happening
  | [], _ => []
  | cue :: rest, live => .cued :: live.cueStory b cue ++ rehearseStory rest (live.onCue b cue).2

end Live

/-! ### What is announced in a story is what the sequence gives out -/

open Happening

namespace Stage

theorem mem_changes {number : Nat} {before after : Stage} {happening : Happening}
    (member : happening ∈ changes number before after) :
    (∃ id, happening = .left id) ∨ (∃ id ear, happening = .joined id ear) ∨
      ∃ act, happening = .sent act := by
  rcases List.mem_append.1 member with member | member
  · rcases List.mem_append.1 member with member | member
    · obtain ⟨entry, -, rfl⟩ := List.mem_map.1 member
      exact .inl ⟨_, rfl⟩
    · obtain ⟨entry, -, rfl⟩ := List.mem_map.1 member
      exact .inr (.inl ⟨_, _, rfl⟩)
  · obtain ⟨act, -, rfl⟩ := List.mem_map.1 member
    exact .inr (.inr ⟨_, rfl⟩)

@[simp] theorem announcements_changes (number : Nat) (before after : Stage) :
    announcements (changes number before after) = [] := by
  refine List.filterMap_eq_nil_iff.2 fun happening member => ?_
  rcases mem_changes member with ⟨id, rfl⟩ | ⟨id, ear, rfl⟩ | ⟨act, rfl⟩ <;> rfl

theorem announcements_tellStory (number : Nat)
    (event : Lifecycle) (audience : List (Nat × Listener)) (stage : Stage) :
    announcements (tellStory number event audience stage) = [] := by
  induction audience generalizing stage with
  | nil => rfl
  | cons entry rest ih =>
    have sent := announcements_changes number stage (stage.notify event entry.2)
    have later := ih (stage.notify event entry.2)
    rw [tellStory, announcements, List.cons_append, List.filterMap_cons]
    rw [← announcements, announcements_append, sent, later]
    rfl

theorem announcements_announceAllStory (number : Nat) (events : List Lifecycle) (stage : Stage) :
    announcements (announceAllStory number events stage) = [] := by
  induction events generalizing stage with
  | nil => rfl
  | cons event events ih =>
    rw [announceAllStory, announcements_append, ih, List.append_nil]
    exact announcements_tellStory _ _ _ _

end Stage

namespace Live

variable {U : Type} (b : Behaviour U) (live : Live U)

theorem announcements_callStory (act : Act) (id : UnitId) :
    announcements (live.callStory b act id) = [] := by
  rw [callStory]
  split
  · rfl
  · exact Stage.announcements_changes _ _ _

theorem announcements_executeStory (commands : List Command) :
    announcements (executeStory b commands live) = (execute b commands live).1 := by
  induction commands generalizing live with
  | nil => rfl
  | cons command commands ih =>
    cases command with
    | call act unit =>
      rw [executeStory, announcements_append, announcements_callStory, ih]
      rfl
    | announce event => exact congrArg (event :: ·) (ih live)

theorem drainStory_of_nil (none : live.sequence.queue = []) : live.drainStory b = [] := by
  rw [drainStory]
  split
  · rfl
  · rename_i some
    rw [none] at some
    cases some

theorem drainStory_of_cons {report : Report} {rest : List Report}
    (queue : live.sequence.queue = report :: rest) : live.drainStory b =
      live.heedStory b report rest ++ (live.heed b report rest).2.drainStory b := by
  rw [drainStory]
  split
  · rename_i none
    rw [queue] at none
    cases none
  · rename_i same
    rw [queue] at same
    cases same
    rfl

theorem announcements_drainStory : announcements (live.drainStory b) = (live.drain b).1 := by
  induction live using Live.drain.induct b with
  | case1 live none => rw [drainStory_of_nil b live none, drain_of_nil b none]; rfl
  | case2 live report rest queue done =>
    rename_i ih
    rw [drainStory_of_cons b live queue, drain_of_cons b queue, announcements_append, ih]
    exact congrArg (· ++ _) (announcements_executeStory b _ _)

theorem announcements_driveStory (decision : Decision) :
    announcements (live.driveStory b decision) = (live.drive b decision).1 := by
  rw [driveStory, announcements_append, announcements_executeStory, announcements_drainStory]
  rfl

/-- A start that is refused announces nothing. -/
theorem announcements_startRunStory : announcements (live.startRunStory b) =
    match live.startRun b with
    | (.ok events, _) => events
    | (.error _, _) => [] := by
  rw [startRunStory, startRun]
  rcases live.conductor.begin with ⟨cycle | decision, conductor⟩
  · rfl
  · exact announcements_driveStory b _ decision

theorem announcements_windDownStory (decided : Decision × Conductor) :
    announcements (live.windDownStory b decided) = (live.windDown b decided).1 := by
  rw [windDownStory, announcements_append, settleRunStory, announcements_driveStory,
    announcements_driveStory]
  rfl

theorem announcements_obeyStory (act : Act) :
    announcements (live.obeyStory b act) = (obey b act live).1 := by
  cases act with
  | start =>
    rw [obeyStory, announcements_startRunStory, obey]
    rcases live.startRun b with ⟨cycle | events, next⟩ <;> rfl
  | finish => exact announcements_windDownStory b live _
  | cancel => exact announcements_windDownStory b live _

theorem announcements_tickUnitsStory (delta : Span) (units : List UnitId) :
    announcements (live.tickUnitsStory b delta units) = [] := by
  induction units generalizing live with
  | nil => rfl
  | cons id units ih =>
    have unit : announcements (live.tickUnitStory b delta id) = [] := by
      rw [tickUnitStory]
      split
      · rfl
      · exact Stage.announcements_changes _ _ _
    rw [tickUnitsStory, announcements_append, unit]
    rcases live.tickUnit b delta id with ⟨overflow | ⟨⟩, next⟩
    · rfl
    · exact ih next

theorem announcements_tickRunStory (delta : Span) : announcements (live.tickRunStory b delta) =
    match live.tickRun b delta with
    | (.ok events, _) => events
    | (.error _, _) => [] := by
  rw [tickRunStory, tickRun]
  split
  · rfl
  · rw [announcements_append, announcements_tickUnitsStory]
    rcases live.tickUnits b delta live.conductor.playing.units with ⟨overflow | ⟨⟩, next⟩
    · rfl
    · exact announcements_drainStory b next

theorem announcements_deliverStory (events : List Lifecycle) :
    announcements (live.deliverStory events) = [] :=
  Stage.announcements_announceAllStory _ _ _

theorem announcements_serveStory (limit : Nat) :
    announcements (live.serveStory b limit) = (serve b limit live).1 := by
  induction limit generalizing live with
  | zero => rfl
  | succ limit ih =>
    rw [serveStory, serve]
    cases live.stage.nextRequest? live.sequence.number with
    | none => rfl
    | some next =>
      have obeyed := announcements_obeyStory b { live with stage := next.2 } next.1
      have rest := ih ((obey b next.1 { live with stage := next.2 }).2.deliver
        (obey b next.1 { live with stage := next.2 }).1)
      simp only
      rw [announcements, List.filterMap_cons, ← announcements, announcements_append,
        announcements_append, announcements_deliverStory, obeyed, rest]
      rfl

/-- All that is delivered is what was announced before and what is announced meanwhile. -/
theorem announcements_publishStory (events : List Lifecycle) :
    (live.publish b events).1 = events ++ announcements (live.publishStory b events) := by
  rw [publishStory, announcements_append, announcements_deliverStory, announcements_serveStory]
  rfl

theorem announcements_respondStory (act : Act) :
    announcements (live.respondStory b act) = (live.respond b act).1 := by
  rw [respondStory, respond, announcements_append, announcements_obeyStory]
  split
  · exact List.append_nil _
  · exact (announcements_publishStory b _ _).symm

/-- A tick that is broken off announces nothing. -/
theorem announcements_tickStory (delta : Span) : announcements (live.tickStory b delta) =
    (live.tickAsUnit b delta).1.toOption.getD [] := by
  rw [tickStory, announcements_append, announcements_tickRunStory, tickAsUnit]
  rcases live.tickRun b delta with ⟨overflow | events, next⟩
  · rfl
  · exact (announcements_publishStory b next events).symm

theorem announcements_reportStory (report : Report) : announcements (live.reportStory b report) =
    let queued : Live U :=
      { live with sequence := { live.sequence with queue := live.sequence.queue ++ [report] } }
    ((queued.drain b).2.publish b (queued.drain b).1).1 := by
  rw [reportStory, announcements_append, announcements_drainStory, announcements_publishStory]

end Live

/-! ### What is delivered -/

namespace Stage

theorem deliveries_changes (number : Nat) (before after : Stage) :
    deliveries (changes number before after) = [] := by
  refine List.filterMap_eq_nil_iff.2 fun happening member => ?_
  rcases mem_changes member with ⟨id, rfl⟩ | ⟨id, ear, rfl⟩ | ⟨act, rfl⟩ <;> rfl

/-- Each event is delivered once. -/
theorem deliveries_announceAllStory (number : Nat) (events : List Lifecycle) (stage : Stage) :
    deliveries (announceAllStory number events stage) = events := by
  have told : ∀ event (audience : List (Nat × Listener)) (stage : Stage),
      deliveries (tellStory number event audience stage) = [] := by
    intro event audience
    induction audience with
    | nil => exact fun stage => rfl
    | cons entry rest ih =>
      intro stage
      have sent := deliveries_changes number stage (stage.notify event entry.2)
      rw [tellStory, List.cons_append, deliveries, List.filterMap_cons_none rfl, ← deliveries,
        deliveries_append, sent, ih]
      rfl
  induction events generalizing stage with
  | nil => rfl
  | cons event events ih =>
    rw [announceAllStory, deliveries_append, ih]
    exact congrArg (event :: · ++ events) (told event _ _)

end Stage

namespace Live

variable {U : Type} (b : Behaviour U) (live : Live U)

theorem deliveries_executeStory (commands : List Command) :
    deliveries (executeStory b commands live) = [] := by
  induction commands generalizing live with
  | nil => rfl
  | cons command commands ih =>
    cases command with
    | announce event => exact ih live
    | call act id =>
      have called : deliveries (live.callStory b act id) = [] := by
        rw [callStory]
        split
        · rfl
        · exact Stage.deliveries_changes _ _ _
      rw [executeStory, deliveries_append, called, ih]
      rfl

theorem deliveries_drainStory : deliveries (live.drainStory b) = [] := by
  induction live using Live.drain.induct b with
  | case1 live none =>
    rw [drainStory_of_nil b live none]
    rfl
  | case2 live report rest queue done =>
    rename_i ih
    rw [drainStory_of_cons b live queue, deliveries_append, heedStory, deliveries_executeStory, ih]
    rfl

/-- While a run is started nothing is delivered yet. -/
theorem deliveries_startRunStory : deliveries (live.startRunStory b) = [] := by
  rw [startRunStory]
  rcases live.conductor.begin with ⟨cycle | decision, conductor⟩
  · rfl
  · simp only [driveStory, deliveries_append, deliveries_executeStory, deliveries_drainStory]
    rfl

end Live

/-! ### The journal and the recording bear the story out -/

/-- What a witness says that it heard, if this line says so. -/
def Line.heard? : Line → Option (Ear × Lifecycle)
  | .heard name event => some (.witness name, event)
  | _ => none

namespace Happening

/-- What a witness is told, if this is what happens. -/
def witnessed? : Happening → Option (Ear × Lifecycle)
  | .told _ (.witness name) event => some (.witness name, event)
  | _ => none

/-- What a recorder is told is written down. -/
def write (recording : Recording) : Happening → Recording
  | .told _ (.recorder label) event => recording.record label event
  | _ => recording

end Happening

namespace Stage

/-- What witnesses heard, line by line. -/
def heard (stage : Stage) : List (Ear × Lifecycle) := stage.journal.toList.filterMap Line.heard?

/-- Between two moments witnesses heard what they are told in the story, in that order, and
recorders wrote down what they are told in it. -/
structure Attests (before : Stage) (story : List Happening) (after : Stage) : Prop where
  heard : after.heard = before.heard ++ story.filterMap witnessed?
  recording : after.recording = story.foldl write before.recording

namespace Attests

variable {first second third : Stage} {story more : List Happening}

theorem nil (stage : Stage) : stage.Attests [] stage := ⟨(List.append_nil _).symm, rfl⟩

theorem append (one : first.Attests story second) (two : second.Attests more third) :
    first.Attests (story ++ more) third := by
  refine ⟨?_, ?_⟩
  · rw [two.heard, one.heard, List.filterMap_append, List.append_assoc]
  · rw [two.recording, one.recording, List.foldl_append]

/-- Who comes, who goes and what is sent leaves no trace. -/
theorem of_changes (number : Nat) (before after stage : Stage) :
    stage.Attests (changes number before after) stage := by
  have silent : ∀ happening ∈ changes number before after,
      happening.witnessed? = none ∧ ∀ recording, write recording happening = recording := by
    intro happening member
    rcases mem_changes member with ⟨id, rfl⟩ | ⟨id, ear, rfl⟩ | ⟨act, rfl⟩
      <;> exact ⟨rfl, fun _ => rfl⟩
  have recording := List.foldlRecOn (changes number before after) write
    (motive := fun recording => recording = stage.recording) rfl
    fun recording same happening member => ((silent happening member).2 recording).trans same
  refine ⟨?_, recording.symm⟩
  rw [List.filterMap_eq_nil_iff.2 fun happening member => (silent happening member).1,
    List.append_nil]

end Attests

theorem heard_log (line : Line) (stage : Stage) :
    (stage.log line).heard = stage.heard ++ [line].filterMap Line.heard? := by
  rw [heard, log, Array.toList_push, List.filterMap_append, ← heard]

/-- What a witness does is not put down to anybody. -/
theorem heard_react (stage : Stage) (action : Action) :
    (stage.react action).heard = stage.heard ∧
      (stage.react action).recording = stage.recording := by
  cases action with
  | send number act => exact ⟨rfl, rfl⟩
  | add number name reactions => exact ⟨rfl, rfl⟩
  | remove number name =>
    rw [react, dismiss]
    split
    · exact ⟨(heard_log _ _).trans (List.append_nil _), rfl⟩
    · exact ⟨rfl, rfl⟩

theorem attests_notify (id : Nat) (event : Lifecycle) (stage : Stage) (listener : Listener) :
    stage.Attests [.told id listener.ear event] (stage.notify event listener) := by
  cases listener with
  | recorder label => exact ⟨(List.append_nil _).symm, rfl⟩
  | witness name reactions =>
    have reacted : ∀ (actions : List Action) (stage : Stage),
        (actions.foldl react stage).heard = stage.heard ∧
          (actions.foldl react stage).recording = stage.recording := by
      intro actions
      induction actions with
      | nil => exact fun stage => ⟨rfl, rfl⟩
      | cons action rest ih =>
        intro stage
        obtain ⟨heard, recording⟩ := stage.heard_react action
        obtain ⟨heard', recording'⟩ := ih (stage.react action)
        exact ⟨heard'.trans heard, recording'.trans recording⟩
    obtain ⟨heard, recording⟩ := reacted ((Listener.witness name reactions).answer event)
      (stage.log (.heard name event))
    exact ⟨heard.trans (heard_log _ _), recording⟩

/-- The listeners of a channel are told what the story says, and nobody else is told anything. -/
theorem attests_announceAll (number : Nat) (events : List Lifecycle) (stage : Stage) :
    stage.Attests (announceAllStory number events stage) (stage.announceAll number events) := by
  have told : ∀ event (audience : List (Nat × Listener)) (stage : Stage), stage.Attests
      (tellStory number event audience stage)
        ((audience.map Prod.snd).foldl (notify event) stage) := by
    intro event audience
    induction audience with
    | nil => exact fun stage => .nil stage
    | cons entry rest ih =>
      intro stage
      exact ((stage.attests_notify entry.1 event entry.2).append (.of_changes _ _ _ _)).append
        (ih _)
  induction events generalizing stage with
  | nil => exact .nil stage
  | cons event events ih =>
    have announced : stage.Attests (announceStory number event stage)
        (stage.announce number event) :=
      let spoken := told event (stage.channel number).listeners
        (stage.modify number (Channel.hear event))
      ⟨spoken.heard, spoken.recording⟩
    exact announced.append (ih _)

end Stage

end Choreo
