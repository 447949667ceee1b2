import Choreo.Proofs.Sequence.Setting

/-!
# The moves of a sequence

All that a sequence does is made of a few moves: its conductor does one thing and what that decides
is carried out, a start is refused, time goes by for one unit, events are delivered, a request is
taken out of the channel, and the queue of reports changes. Each move has its story, and the story
of a call is the stories of its moves. So what every move keeps is kept by every call.
-/

namespace Choreo

namespace Live

variable {U : Type}

/-- The sequence with this conductor and this queue. -/
def conducted (conductor : Conductor) (queue : List Report) (live : Live U) : Live U :=
  ⟨{ live.sequence with conductor, queue }, live.stage⟩

/-- One move of a sequence, with its story. -/
inductive Move (b : Behaviour U) : Live U → List Happening → Live U → Prop where
  | decide (operation : Operation) (performs : operation.performs = true) (queue : List Report)
    (live : Live U) :
    Move b live
      (executeStory b (live.conductor.operate operation).1.commands
        (live.conducted (live.conductor.operate operation).2 queue))
      (execute b (live.conductor.operate operation).1.commands
        (live.conducted (live.conductor.operate operation).2 queue)).2
  | refuse {cycle : Cycle} (live : Live U) (refused : live.conductor.begin.1 = .error cycle) :
    Move b live [.refused] (live.withConductor live.conductor.begin.2)
  | tick (delta : Span) (id : UnitId) (live : Live U) :
    Move b live (live.tickUnitStory b delta id) (live.tickUnit b delta id).2
  | deliver (events : List Lifecycle) (live : Live U) :
    Move b live (live.deliverStory events) (live.deliver events)
  | take {act : Act} {stage : Stage} (live : Live U)
    (next : live.stage.nextRequest? live.sequence.number = some (act, stage)) :
    Move b live [.served act] { live with stage }
  | enqueue (queue : List Report) (live : Live U) :
    Move b live [] (live.conducted live.conductor queue)

/-- Moves one after the other, with their story. -/
inductive Moves (b : Behaviour U) : Live U → List Happening → Live U → Prop where
  | nil (live : Live U) : Moves b live [] live
  | cons {first second third : Live U} {story more : List Happening}
    (now : Move b first story second)
    (later : Moves b second more third) : Moves b first (story ++ more) third

namespace Moves

variable {b : Behaviour U} {first second third : Live U} {story more : List Happening}

theorem one (move : Move b first story second) : Moves b first story second := by
  have alone := Moves.cons move (.nil second)
  rwa [List.append_nil] at alone

theorem append (one : Moves b first story second) (two : Moves b second more third) :
    Moves b first (story ++ more) third := by
  induction one with
  | nil => exact two
  | cons now later ih =>
    rw [List.append_assoc]
    exact .cons now (ih two)

end Moves

/-- A move changes the setting only as calls, deliveries and the serving of requests do. -/
theorem Move.setting {b : Behaviour U} {R : Registry U × Stage → Registry U × Stage → Prop}
    (throughout : b.Throughout R) {live next : Live U} {story : List Happening}
    (move : Move b live story next) : R live.setting next.setting := by
  cases move with
  | decide operation performs queue =>
    exact setting_execute throughout.toWithin
      (live.conducted (live.conductor.operate operation).2 queue) _
  | refuse | enqueue => exact throughout.refl _
  | tick delta id => exact setting_tickUnit throughout.toWithin live delta id
  | deliver events => exact throughout.deliver events live.sequence.registry live.stage
  | take _ next => exact throughout.take next

theorem Moves.setting {b : Behaviour U} {R : Registry U × Stage → Registry U × Stage → Prop}
    (throughout : b.Throughout R) {live next : Live U} {story : List Happening}
    (moves : Moves b live story next) : R live.setting next.setting := by
  induction moves with
  | nil => exact throughout.refl _
  | cons now _ ih => exact throughout.trans (now.setting throughout) ih

variable (b : Behaviour U) (live : Live U)

theorem moves_drain : Moves b live (live.drainStory b) (live.drain b).2 := by
  induction live using Live.drain.induct b with
  | case1 live none =>
    rw [drainStory_of_nil b live none, drain_of_nil b none]
    exact .nil _
  | case2 live report rest queue done =>
    rename_i ih
    rw [drainStory_of_cons b live queue, drain_of_cons b queue]
    exact .cons (.decide (.step report) rfl rest live) ih

/-- One thing is decided and done, and all that is reported is looked at. -/
theorem moves_operate (operation : Operation) (performs : operation.performs = true) :
    let next := live.withConductor (live.conductor.operate operation).2
    Moves b live (next.driveStory b (live.conductor.operate operation).1)
      (next.drive b (live.conductor.operate operation).1).2 :=
  .cons (.decide operation performs live.sequence.queue live) (moves_drain b _)

theorem moves_startRun : Moves b live (live.startRunStory b) (live.startRun b).2 := by
  have operated := moves_operate b live .begin rfl
  rcases begun : live.conductor.begin with ⟨cycle | decision, conductor⟩
  · have refused : live.conductor.begin.1 = .error cycle := by rw [begun]
    have move := Move.refuse (b := b) live refused
    simp only [startRunStory, startRun, begun] at move ⊢
    exact .one move
  · simp only [Conductor.operate, begun] at operated
    simp only [startRunStory, startRun, begun]
    exact operated

theorem moves_windDown (operation : Operation) (performs : operation.performs = true) :
    Moves b live (live.windDownStory b (live.conductor.operate operation))
      (live.windDown b (live.conductor.operate operation)).2 :=
  (moves_operate b live operation performs).append (moves_operate b _ .settle rfl)

theorem moves_obey (act : Act) : Moves b live (live.obeyStory b act) (obey b act live).2 := by
  cases act with
  | start =>
    have started := moves_startRun b live
    rw [obeyStory, obey]
    rcases reply : live.startRun b with ⟨cycle | events, next⟩
    · rwa [reply] at started
    · rwa [reply] at started
  | finish => exact moves_windDown b live .finish rfl
  | cancel => exact moves_windDown b live .cancel rfl

theorem moves_tickUnits (delta : Span) (units : List UnitId) :
    Moves b live (live.tickUnitsStory b delta units) (live.tickUnits b delta units).2 := by
  induction units generalizing live with
  | nil => exact .nil _
  | cons id units ih =>
    have first := Move.tick (b := b) delta id live
    rw [tickUnitsStory, tickUnits]
    rcases reply : live.tickUnit b delta id with ⟨overflow | ⟨⟩, next⟩
    · rw [reply] at first
      exact .cons first (.nil _)
    · rw [reply] at first
      exact .cons first (ih next)

theorem moves_tickRun (delta : Span) :
    Moves b live (live.tickRunStory b delta) (live.tickRun b delta).2 := by
  have ticked := moves_tickUnits b live delta live.conductor.playing.units
  rw [tickRunStory, tickRun]
  split
  · exact .nil _
  · simp only
    rcases reply : live.tickUnits b delta live.conductor.playing.units with ⟨overflow | ⟨⟩, next⟩
    · rw [reply] at ticked
      exact ticked.append (.nil _)
    · rw [reply] at ticked
      exact ticked.append (moves_drain b next)

theorem moves_serve (limit : Nat) :
    Moves b live (live.serveStory b limit) (live.serve b limit).2 := by
  induction limit generalizing live with
  | zero => exact .nil _
  | succ limit ih =>
    rw [serveStory, serve]
    cases next : live.stage.nextRequest? live.sequence.number with
    | none => exact .nil _
    | some taken =>
      obtain ⟨act, stage⟩ := taken
      have obeyed := moves_obey b { live with stage } act
      have delivered := Move.deliver (b := b) (obey b act { live with stage }).1
        (obey b act { live with stage }).2
      exact .cons (.take live next) (obeyed.append (.cons delivered (ih _)))

theorem moves_publish (events : List Lifecycle) :
    Moves b live (live.publishStory b events) (live.publish b events).2 :=
  .cons (.deliver events live) (moves_serve b _ _)

theorem moves_respond (act : Act) :
    Moves b live (live.respondStory b act) (live.respond b act).2 := by
  have obeyed := moves_obey b live act
  rw [respondStory, respond]
  split
  · rw [List.append_nil]
    exact obeyed
  · exact obeyed.append (moves_publish b _ _)

theorem moves_tick (delta : Span) :
    Moves b live (live.tickStory b delta) (live.tickAsUnit b delta).2 := by
  have ticked := moves_tickRun b live delta
  rw [tickStory, tickAsUnit]
  rcases reply : live.tickRun b delta with ⟨overflow | events, next⟩
  · rw [reply] at ticked
    exact ticked.append (.nil _)
  · rw [reply] at ticked
    exact ticked.append (moves_publish b next events)

theorem moves_report (report : Report) :
    Moves b live (live.reportStory b report) (live.report b report) := by
  let queued := live.conducted live.conductor (live.sequence.queue ++ [report])
  have looked := (moves_drain b queued).append
    (moves_publish b (queued.drain b).2 (queued.drain b).1)
  have all := Moves.cons (.enqueue (live.sequence.queue ++ [report]) live) looked
  rwa [List.nil_append] at all

/-- A call is made of moves. -/
theorem moves_onCue (cue : Cue U) (calls : cue.calls = true) :
    Moves b live (live.cueStory b cue) (live.onCue b cue).2 := by
  cases cue with
  | start =>
    rw [cueStory, onCue, snd_start]
    exact moves_respond b live .start
  | finish => exact moves_respond b live .finish
  | cancel => exact moves_respond b live .cancel
  | tick delta =>
    rw [cueStory, onCue, tick_eq]
    exact moves_tick b live delta
  | report report => exact moves_report b live report
  | serve => exact moves_publish b live []
  | add | play | together | sequential | sort | meanwhile => cases calls

end Live

end Choreo
