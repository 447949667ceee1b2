import Choreo.Proofs.Performer.Contract
import Choreo.Proofs.Playback.Deeds
import Choreo.Proofs.Playback.Quiet

/-!
# What a scene writes down

Whatever a unit of a scene reports is written down on its track, and whatever is announced is
written down under the label of the scene, each at the time that the clock shows then, and nothing
else is. So the recording can be read off what happened; and what a unit has reported is what it
promises, with no more starts than it was told to make.
-/

namespace Choreo

open Happening

/-- Nothing changes for the listeners as long as the channels stay as they are. -/
theorem Stage.changes_of_channels (number : Nat) {before after : Stage}
    (same : after.channels = before.channels) : changes number before after = [] := by
  have still : after.channel number = before.channel number := by rw [channel, channel, same]
  have present : (before.channel number).roster.filter
      (fun entry => !(before.channel number).has entry.1) =
      [] := by
    refine List.filter_eq_nil_iff.2 fun entry member => ?_
    simp [Channel.has_iff.2 (List.mem_map_of_mem member)]
  rw [changes, still, present, List.drop_length]
  rfl

namespace Happening

/-- What this unit reports, if this is what happens. -/
def reportOf (id : UnitId) : Happening → List Lifecycle
  | .asked unit _ reply => if unit = id then reply.toOption.getD [] else []
  | _ => []

/-- What this unit reported in a story. -/
def reports (id : UnitId) (story : List Happening) : List Lifecycle := story.flatMap (reportOf id)

theorem reports_append (id : UnitId) (story more : List Happening) :
    reports id (story ++ more) = reports id story ++ reports id more :=
  List.flatMap_append

theorem summons_append (story more : List Happening) :
    summons (story ++ more) = summons story ++ summons more :=
  List.filterMap_append

/-- What is written down if this is what happens, and under which label. -/
def inscription (tracks : UnitId → Option String) : Happening → List (String × Lifecycle)
  | .asked unit _ reply =>
    match tracks unit with
    | some label => (reply.toOption.getD []).map (Prod.mk label)
    | none => []
  | .called event _ => [(Scene.label, event)]
  | _ => []

/-- The moments of what happened at a time. -/
def moments (tracks : UnitId → Option String) (entry : Span × Happening) : List Moment :=
  (entry.2.inscription tracks).map fun line => ⟨entry.1, line.1, line.2⟩

end Happening

/-- The moments of a recording come one after the other, and none of them is still to come. -/
structure Recording.Ordered (recording : Recording) : Prop where
  moments : recording.moments.toList.Pairwise fun earlier later => earlier.time.ns ≤ later.time.ns
  past : ∀ moment ∈ recording.moments.toList, moment.time.ns ≤ recording.now.ns

namespace Recording.Ordered

variable {recording : Recording}

theorem recordAll (ordered : recording.Ordered) (label : String) (events : List Lifecycle) :
    (recording.recordAll label events).Ordered := by
  constructor
  · rw [moments_recordAll, List.pairwise_append]
    refine ⟨ordered.moments, ?_, fun earlier before later now => ?_⟩
    · rw [List.pairwise_map]
      exact List.pairwise_of_forall fun _ _ => Nat.le_refl _
    · obtain ⟨event, -, rfl⟩ := List.mem_map.1 now
      exact ordered.past earlier before
  · intro moment member
    rw [now_recordAll]
    rw [moments_recordAll, List.mem_append] at member
    rcases member with before | now
    · exact ordered.past moment before
    · obtain ⟨event, -, rfl⟩ := List.mem_map.1 now
      exact Nat.le_refl _

theorem note (ordered : recording.Ordered) (track : Option String) (events : List Lifecycle) :
    (Performer.note track events recording).Ordered := by
  cases track with
  | none => exact ordered
  | some label => exact ordered.recordAll label events

theorem windOn {stage : Stage} (ordered : stage.recording.Ordered) (delta : Span) :
    (stage.windOn delta).recording.Ordered := by
  rw [Stage.windOn, advance]
  cases sum : stage.recording.now.add delta with
  | error overflow => exact ordered
  | ok later =>
    refine ⟨ordered.moments, fun moment member => ?_⟩
    have before := ordered.past moment member
    have moved := Span.add_eq_ok.1 sum
    simp only
    omega

end Recording.Ordered

/-- In one answer there is at most one start, and none of somebody who plays already. -/
theorem Reply.count_started_le {before after : Bool} {events : List Lifecycle}
    (reply : Reply before events after) : events.count .started ≤ (!before).toNat := by
  cases reply <;> simp [List.count_replicate]

namespace Performer

variable {p next : Performer}

theorem track_act (act : Act) (p : Performer) : (p.act act).2.track = p.track := by
  cases p <;> rfl

theorem track_tick {delta : Span} {events : List Lifecycle}
    (done : p.tick delta = .ok (events, next)) :
    next.track = p.track := by
  cases p with
  | scripted unit =>
    cases done
    rfl
  | clip | delay | puppet =>
    obtain ⟨reply, -, same⟩ := map_eq_ok done
    cases same
    rfl

theorem Loyal.count_started_act (loyal : p.Loyal) (act : Act) :
    (p.act act).1.count .started ≤ if act = .start then 1 else 0 := by
  have answered := (loyal.act_reply act).count_started_le
  split
  · exact answered.trans (Bool.toNat_le _)
  · next stops =>
    cases running : p.running with
    | false =>
      rw [act_of_idle loyal.plain running stops]
      exact Nat.le_refl _
    | true =>
      rw [running] at answered
      exact answered

theorem Loyal.count_started_tick {delta : Span} {events : List Lifecycle} (loyal : p.Loyal)
    (done : p.tick delta = .ok (events, next)) : events.count .started = 0 := by
  cases running : p.running with
  | false =>
    rw [tick_of_idle running] at done
    cases done
    rfl
  | true =>
    have answered := (loyal.tick done).1.count_started_le
    rw [running] at answered
    exact Nat.le_zero.1 answered

theorem timeless : behaviour.Timeless :=
  ⟨fun _ _ _ => now_note _ _ _, fun delta p stage => p.now_pass delta stage.recording⟩

end Performer

namespace Scene

open Live Playback

/-- The track of a unit. -/
def trackOf (live : Scene) (id : UnitId) : Option String :=
  (live.sequence.registry.get? id).bind Performer.track

/-- Whether a unit plays. -/
def plays (live : Scene) (id : UnitId) : Bool :=
  ((live.sequence.registry.get? id).map Performer.running).getD false

/-- A scene on which only the recorder listens, and whose units keep their promises. -/
structure Trusted (live : Scene) : Prop where
  quiet : Quiet (now live) live
  loyal : ∀ id p, live.sequence.registry.get? id = some p → p.Loyal

/-- What happened between two states of a scene: nothing was requested, the units have kept their
tracks, what happened is written down, in order, and what the units reported continues what they
promise. -/
structure Records (live : Scene) (entries : List (Span × Happening)) (next : Scene) : Prop where
  trusted : next.Trusted
  silent : requests (entries.map Prod.snd) = []
  tracks : next.trackOf = live.trackOf
  moments : next.recording.moments.toList =
    live.recording.moments.toList ++ entries.flatMap (Happening.moments live.trackOf)
  ordered : live.recording.Ordered → next.recording.Ordered
  standing : ∀ id past, Standing (live.plays id) past →
    Standing (next.plays id) (past ++ reports id (entries.map Prod.snd))
  starts : ∀ id, (reports id (entries.map Prod.snd)).count .started ≤
    (summons (entries.map Prod.snd)).count id

variable {live next : Scene}

section

variable {id : UnitId} {p : Performer} (known : live.sequence.registry.get? id = some p)
  (events : List Lifecycle) (after : Performer) (stage : Stage) (other : UnitId)

include known

theorem plays_takeBack : plays ⟨live.sequence.takeBack id events after, stage⟩ other =
    if other = id then after.running else live.plays other := by
  rw [plays, Sequence.takeBack, Registry.get?_update known]
  split <;> rfl

theorem trackOf_takeBack (track : after.track = p.track) :
    trackOf ⟨live.sequence.takeBack id events after, stage⟩ other = live.trackOf other := by
  rw [trackOf, Sequence.takeBack, Registry.get?_update known]
  split
  · next same =>
    subst same
    rw [trackOf, known]
    exact track
  · rfl

end

namespace Records

variable {first second third : Scene} {entries more : List (Span × Happening)}

theorem refl (trusted : live.Trusted) : live.Records [] live :=
  ⟨trusted, rfl, rfl, (List.append_nil _).symm, id,
    fun _ past standing => (List.append_nil past).symm ▸ standing, fun _ => Nat.le_refl _⟩

theorem trans (one : first.Records entries second) (two : second.Records more third) :
    first.Records (entries ++ more) third := by
  refine ⟨two.trusted, ?_, two.tracks.trans one.tracks, ?_,
    fun ordered => two.ordered (one.ordered ordered), fun id past standing => ?_, fun id => ?_⟩
  · rw [List.map_append, requests_append, one.silent, two.silent]
    rfl
  · rw [two.moments, one.moments, one.tracks, List.flatMap_append, List.append_assoc]
  · rw [List.map_append, reports_append, ← List.append_assoc]
    exact two.standing id _ (one.standing id past standing)
  · rw [List.map_append, reports_append, summons_append, List.count_append, List.count_append]
    exact Nat.add_le_add (one.starts id) (two.starts id)

/-- What concerns neither the units nor the stage leaves nothing to write down. -/
theorem aside (trusted : live.Trusted) (registry : next.sequence.registry = live.sequence.registry)
    (stage : next.stage = live.stage) (silent : requests (entries.map Prod.snd) = [])
    (unwritten : entries.flatMap (Happening.moments live.trackOf) = [])
    (unreported : ∀ id, reports id (entries.map Prod.snd) = []) : live.Records entries next := by
  obtain ⟨⟨conductor, registry', queue⟩, stage'⟩ := next
  cases registry
  cases stage
  refine ⟨⟨⟨trusted.quiet.owner, trusted.quiet.channels, rfl⟩, trusted.loyal⟩, silent, rfl, ?_, id,
    fun unit past standing => ?_, fun unit => ?_⟩
  · rw [unwritten, List.append_nil]
    rfl
  · rw [unreported, List.append_nil]
    exact standing
  · rw [unreported]
    exact Nat.zero_le _

theorem answer (trusted : live.Trusted) {id : UnitId}
    {p after : Performer} (act : Option Act) (result : Except Overflow (List Lifecycle))
    (events : List Lifecycle) (known : live.sequence.registry.get? id = some p)
    (said : result.toOption.getD [] = events) (reply : Reply p.running events after.running)
    (loyal : after.Loyal) (track : after.track = p.track)
    (starts : events.count .started ≤ if act = some .start then 1 else 0) :
    live.Records [(now live, .asked id act result)]
      ⟨live.sequence.takeBack id events after,
        { live.stage with recording := Performer.note p.track events live.stage.recording }⟩ := by
  have own : live.trackOf id = p.track := by rw [trackOf, known]; rfl
  have before : live.plays id = p.running := by rw [plays, known]; rfl
  refine ⟨⟨⟨trusted.quiet.owner, trusted.quiet.channels, rfl⟩, fun other q here => ?_⟩,
    rfl, funext fun other => trackOf_takeBack known events after _ other track, ?_,
    fun ordered => ordered.note _ _, fun other past standing => ?_, fun other => ?_⟩
  · rw [Sequence.takeBack, Registry.get?_update known] at here
    split at here
    · cases here
      exact loyal
    · exact trusted.loyal other q here
  · rw [List.flatMap_singleton, Happening.moments, inscription, own, said]
    cases p.track with
    | none => exact (List.append_nil _).symm
    | some label =>
      refine (Recording.moments_recordAll label events live.stage.recording).trans ?_
      rw [List.map_map]
      rfl
  -- what the others have reported stays as it is, and so does whether they play
  · rw [plays_takeBack known, List.map_singleton, reports, List.flatMap_singleton, reportOf, said]
    by_cases same : other = id
    · subst same
      rw [if_pos rfl, if_pos rfl]
      rw [before] at standing
      exact standing.append reply
    · rw [if_neg same, if_neg (Ne.symm same), List.append_nil]
      exact standing
  -- only a unit that is told to start reports one, and then it is summoned
  · rw [List.map_singleton, reports, List.flatMap_singleton, reportOf, said]
    by_cases same : id = other
    · subst same
      rw [if_pos rfl]
      refine starts.trans ?_
      split
      · next told =>
        subst told
        simp [summons, summons?]
      · exact Nat.zero_le _
    · rw [if_neg same]
      exact Nat.zero_le _

end Records

/-! ### One move -/

theorem now_call (live : Scene) (act : Act) (id : UnitId) :
    now (live.call Performer.behaviour act id) = now live :=
  setting_call Performer.timeless.throughout.toWithin live act id

theorem records_call (trusted : live.Trusted) (act : Act) (id : UnitId) :
    live.Records ((live.callStory Performer.behaviour act id).map (Prod.mk (now live)))
      (live.call Performer.behaviour act id) := by
  rw [callStory, call]
  cases known : live.sequence.registry.get? id with
  | none => exact .refl trusted
  | some p =>
    have loyal := trusted.loyal id p known
    have once : (p.act act).1.count .started ≤ if some act = some .start then 1 else 0 := by
      simpa only [Option.some.injEq] using loyal.count_started_act act
    have answered := Records.answer trusted (some act) (.ok (p.act act).1) (p.act act).1 known rfl
      (loyal.act_reply act) (loyal.act act) (p.track_act act) once
    simp only
    rw [List.map_cons, Stage.changes_of_channels]
    · exact answered
    · rfl

theorem records_execute (trusted : live.Trusted) (commands : List Command) :
    live.Records ((executeStory Performer.behaviour commands live).map (Prod.mk (now live)))
      (execute Performer.behaviour commands live).2 := by
  induction commands generalizing live with
  | nil => exact .refl trusted
  | cons command commands ih =>
    cases command with
    | call act id =>
      have called := records_call trusted act id
      have later := ih called.trusted
      rw [now_call] at later
      rw [executeStory, List.map_append]
      exact called.trans later
    | announce event =>
      have announced : live.Records [(now live, .announced event)] live :=
        .aside trusted rfl rfl rfl rfl fun _ => rfl
      exact announced.trans (ih trusted)

theorem records_tickUnit (trusted : live.Trusted) (delta : Span) (id : UnitId) :
    live.Records ((live.tickUnitStory Performer.behaviour delta id).map (Prod.mk (now live)))
      (live.tickUnit Performer.behaviour delta id).2 := by
  rw [tickUnitStory, tickUnit]
  cases known : live.sequence.registry.get? id with
  | none => exact .refl trusted
  | some p =>
    have loyal := trusted.loyal id p known
    rcases p.pass_cases delta live.stage.recording with ⟨overflow, same⟩
      | ⟨events, after, done, same⟩
    · have answered := Records.answer trusted none (.error overflow)
        [] known rfl (.none _) loyal rfl (Nat.zero_le _)
      have unwritten : Performer.note p.track [] live.stage.recording = live.stage.recording := by
        cases p.track <;> rfl
      rw [unwritten] at answered
      simp only [Performer.behaviour, same]
      rw [List.map_cons, Stage.changes_of_channels]
      · exact answered
      · rfl
    · have answered := Records.answer trusted none (.ok events) events known rfl (loyal.tick done).1
        (loyal.tick done).2 (Performer.track_tick done) (loyal.count_started_tick done).le
      simp only [Performer.behaviour, same]
      rw [List.map_cons, Stage.changes_of_channels]
      · exact answered
      · rfl

theorem announceStory_quiet (stage : Stage) (event : Lifecycle)
    (quiet : stage.channels = channels) :
    stage.announceStory 0 event =
      [.called event [(0, .recorder label)], .told 0 (.recorder label) event] := by
  obtain ⟨recording, journal, channels, names⟩ := stage
  cases quiet
  rfl

theorem records_announce (trusted : live.Trusted) (event : Lifecycle) :
    live.Records ((live.stage.announceStory 0 event).map (Prod.mk (now live)))
      { live with stage := live.stage.announce 0 event } := by
  rw [announceStory_quiet live.stage event trusted.quiet.channels,
    announce_quiet live.stage event trusted.quiet.channels]
  refine ⟨⟨⟨trusted.quiet.owner, trusted.quiet.channels, rfl⟩, trusted.loyal⟩,
    rfl, rfl, ?_, fun ordered => ordered.recordAll label [event], fun _ past standing => ?_,
    fun _ => Nat.le_refl _⟩
  · exact Recording.moments_record label event live.stage.recording
  · exact (List.append_nil past).symm ▸ standing

theorem records_deliver (trusted : live.Trusted) (events : List Lifecycle) :
    live.Records ((live.deliverStory events).map (Prod.mk (now live))) (live.deliver events) := by
  induction events generalizing live with
  | nil => exact .refl trusted
  | cons event events ih =>
    have number : live.sequence.number = 0 := trusted.quiet.owner
    have told := records_announce trusted event
    have rest := ih told.trusted
    have still : now (⟨live.sequence, live.stage.announce 0 event⟩ : Scene) = now live := by
      rw [announce_quiet live.stage event trusted.quiet.channels]
      rfl
    have split : live.deliver (event :: events) =
        Live.deliver events ⟨live.sequence, live.stage.announce 0 event⟩ := by
      simp only [Live.deliver, number, Stage.announceAll, List.foldl_cons]
    rw [still, deliverStory, number] at rest
    rw [split, deliverStory, number, Stage.announceAllStory, List.map_append]
    exact told.trans rest

theorem records_move {story : List Happening} (move : Move Performer.behaviour live story next)
    (trusted : live.Trusted) : live.Records (story.map (Prod.mk (now live))) next := by
  cases move with
  | decide operation performs queue =>
    have conducted : Trusted (live.conducted (live.conductor.operate operation).2 queue) :=
      ⟨⟨trusted.quiet.owner, trusted.quiet.channels, rfl⟩, trusted.loyal⟩
    have done := records_execute conducted (live.conductor.operate operation).1.commands
    exact ⟨done.trusted, done.silent, done.tracks, done.moments, done.ordered, done.standing,
      done.starts⟩
  | refuse => exact .aside trusted rfl rfl rfl rfl fun _ => rfl
  | tick delta id => exact records_tickUnit trusted delta id
  | deliver events => exact records_deliver trusted events
  | take _ waiting =>
    have number : live.sequence.number = 0 := trusted.quiet.owner
    rw [number, Stage.nextRequest?, Stage.channel, trusted.quiet.channels] at waiting
    cases waiting
  | enqueue queue => exact .aside trusted rfl rfl rfl rfl fun _ => rfl

theorem records_moves {story : List Happening} (moves : Moves Performer.behaviour live story next)
    (trusted : live.Trusted) : live.Records (story.map (Prod.mk (now live))) next := by
  induction moves with
  | nil => exact .refl trusted
  | cons move later ih =>
    have first := records_move move trusted
    have rest := ih first.trusted
    have still : now _ = now _ := move.setting Performer.timeless.throughout
    rw [still] at rest
    rw [List.map_append]
    exact first.trans rest

end Scene

end Choreo
