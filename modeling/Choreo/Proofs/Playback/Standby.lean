import Choreo.Proofs.Playback.Chronicle
import Choreo.Proofs.Plan.Agreement

/-!
# Scenes that stand by

A scene that was set up from a plan which passed the checks stands by: it is idle, none of its units
runs, and its nodes do not wait for one another in a circle. When it has been played it stands by
again. Whatever happened in between is recorded, it was one run, and of each unit it tells nothing
or one stint.
-/

namespace Choreo

open Happening

/-- Clips, delays and puppets that are not silent owe one end for each start. -/
theorem Performer.dutiful : Performer.behaviour.Dutiful Performer.Loyal where
  timer _ := ⟨trivial, rfl⟩
  act_fit act _ _ loyal := loyal.act act
  tick_fit delta p stage loyal := by
    rcases p.pass_cases delta stage.recording with ⟨overflow, same⟩ | ⟨events, next, done, same⟩
    · simp only [behaviour, same]
      exact loyal
    · simp only [behaviour, same]
      exact (loyal.tick done).2
  start _ _ loyal idle := start_dutiful loyal.plain idle
  stop _ _ _ loyal stops := running_act loyal.plain stops
  tick delta p stage events loyal fits := by
    rcases p.pass_cases delta stage.recording with ⟨overflow, same⟩ | ⟨reported, next, done, same⟩
    · simp only [behaviour, same] at fits
      cases fits
    · simp only [behaviour, same] at fits ⊢
      cases fits
      exact (tick_dutiful loyal.plain done).2

namespace Scene

open Live Playback

variable {live next final : Scene} {timeline : Timeline}

theorem Quiet.unasked {time : Span} (quiet : Quiet time live) : live.Unasked := by
  have number : live.sequence.number = 0 := quiet.owner
  rw [Live.Unasked, number, Stage.Unasked, Stage.channel, quiet.channels]
  rfl

/-! ### Deeds on a scene -/

theorem records_deed (trusted : live.Trusted) (deed : Deed) :
    live.Records ((live.cueStory Performer.behaviour deed.cue).map (Prod.mk (now live)))
      (live.onCue Performer.behaviour deed.cue).2 := by
  cases deed with
  | start | tick | cancel =>
    exact records_moves (moves_onCue Performer.behaviour live _ rfl) trusted
  | clock delta =>
    have channels := channels_windOn delta live.stage
    have kept : (live.stage.windOn delta).recording.moments = live.stage.recording.moments := by
      rw [Stage.windOn, Recording.advance]
      cases live.stage.recording.now.add delta <;> rfl
    rw [cueStory_clock]
    refine ⟨⟨⟨trusted.quiet.owner, channels.trans trusted.quiet.channels, rfl⟩, trusted.loyal⟩,
      rfl, rfl, ?_, fun ordered => ordered.windOn delta,
      fun _ past standing => (List.append_nil past).symm ▸ standing, fun _ => Nat.le_refl _⟩
    exact (congrArg Array.toList kept).trans (List.append_nil _).symm

/-- What happens while deeds are done is recorded. -/
theorem records_chronicle (trusted : live.Trusted) (deeds : List Deed) :
    live.Records (chronicle Performer.behaviour deeds live)
      (enact Performer.behaviour deeds live) := by
  induction deeds generalizing live with
  | nil => exact .refl trusted
  | cons deed deeds ih =>
    have first := records_deed trusted deed
    exact first.trans (ih first.trusted)

/-! ### Setting a scene up -/

section

variable {sequence : Sequence Performer} {stage : Stage}

theorem reached_foldl {α : Type} {step : Sequence Performer → α → Sequence Performer}
    (keeps : ∀ {sequence} a, Live.Reached ⟨sequence, stage⟩ → Live.Reached ⟨step sequence a, stage⟩)
    (reached : Live.Reached ⟨sequence, stage⟩) (list : List α) :
    Live.Reached ⟨list.foldl step sequence, stage⟩ := by
  induction list generalizing sequence with
  | nil => exact reached
  | cons a list ih => exact ih (keeps a reached)

theorem reached_playWith (reached : Live.Reached ⟨sequence, stage⟩) (unit : Option UnitId)
    (links : List Link) : Live.Reached ⟨sequence.playWith timer unit links, stage⟩ :=
  reached.onCue (b := Performer.behaviour) (.play unit links)

theorem reached_cast (reached : Live.Reached ⟨sequence, stage⟩)
    (entries : List (String × ClipPlan Span)) :
    Live.Reached ⟨cast entries sequence, stage⟩ := by
  refine reached_foldl (fun entry reached => ?_) reached entries
  have added := reached.onCue (b := Performer.behaviour) (.add (some entry.1) (performer entry))
  exact reached_playWith added _ []

theorem reached_relateClip (timeline : Timeline)
    (reached : Live.Reached ⟨sequence, stage⟩) (entry : String × ClipPlan Span) :
    Live.Reached ⟨relateClip timeline sequence entry, stage⟩ := by
  rw [relateClip]
  split
  · exact reached
  · next unit known =>
    have paired :=
      reached_foldl (fun other reached => reached_playWith reached (some other) [.together unit])
      reached (entry.2.partners.filterMap (unit? timeline))
    have followed :=
      reached_foldl (fun other reached => reached_playWith reached (some unit) [.after other])
      paired (entry.2.forerunners.filterMap (unit? timeline))
    simp only
    split
    · exact reached_playWith followed _ _
    · exact followed

theorem reached_relateGroup (timeline : Timeline) (reached : Live.Reached ⟨sequence, stage⟩)
    (group : Group) : Live.Reached ⟨relateGroup timeline sequence group, stage⟩ := by
  rw [relateGroup]
  split
  · exact reached.onCue (b := Performer.behaviour) (.together _)
  · exact reached.onCue (b := Performer.behaviour) (.sequential _)

end

theorem reached_ofTimeline (timeline : Timeline) : (ofTimeline timeline).Reached := by
  have cast := reached_cast (reached_empty 0 (ofTimeline timeline).stage) timeline.clips.entries
  have related :=
    reached_foldl (fun entry reached => reached_relateClip timeline reached entry) cast
    timeline.clips.entries
  exact reached_foldl (fun group reached => reached_relateGroup timeline reached group) related
    timeline.groups

theorem mem_castOf_of_get? {id : UnitId} {p : Performer}
    (known : (ofTimeline timeline).sequence.registry.get? id = some p) :
    ∃ node, id = ⟨0, node⟩ ∧ (castOf timeline)[node]? = some p := by
  have wired := wired_sequenceOf timeline
  obtain ⟨owner, node⟩ := id
  have own : owner = 0 := by
    by_contra foreign
    rw [Registry.get?, Registry.slot?, if_neg (fun same => foreign (same.trans wired.owner))]
      at known
    cases known
  subst own
  exact ⟨node, rfl, (wired.get? node).symm.trans known⟩

/-- They are clips and delays, and none of them runs. -/
theorem fresh_of_mem_castOf {p : Performer} (member : p ∈ castOf timeline) :
    p.Loyal ∧ p.running = false := by
  rcases List.mem_append.1 member with clip | delay
  · obtain ⟨entry, -, rfl⟩ := List.mem_map.1 clip
    exact ⟨trivial, rfl⟩
  · obtain ⟨delay, -, rfl⟩ := List.mem_map.1 delay
    exact ⟨trivial, rfl⟩

/-! ### Standing by -/

/-- A scene that can be played. -/
structure Standby (live : Scene) : Prop where
  reached : live.Reached
  idle : live.conductor.phase = .idle
  acyclic : Graph.Acyclic live.conductor.graph.nodes
  quiet : Quiet (now live) live
  rests : live.sequence.AtRest Performer.behaviour Performer.Loyal

theorem standby_ofTimeline (valid : timeline.Valid) : (ofTimeline timeline).Standby := by
  have wired := wired_sequenceOf timeline
  have reached := reached_ofTimeline timeline
  have idle : (ofTimeline timeline).conductor.phase = .idle := by
    rw [Live.conductor, show (ofTimeline timeline).sequence.conductor = _ from wired.fresh]
    rfl
  have coherent := reached.conductor.coherent
  -- there was no run yet, so no unit runs and none owes an end
  have fresh : ∀ id p, (ofTimeline timeline).sequence.registry.get? id = some p →
      p.Loyal ∧ p.running = false := fun id p known => by
    obtain ⟨node, -, here⟩ := mem_castOf_of_get? known
    exact fresh_of_mem_castOf (List.mem_of_getElem? here)
  have sane : (ofTimeline timeline).sequence.Sane Performer.Loyal := by
    refine ⟨reached.grounded, coherent, fun id p known => (fresh id p known).1, fun id plays => ?_⟩
    have nobody : (ofTimeline timeline).sequence.conductor.playing.units = [] :=
      (coherent.idle idle).1
    rw [nobody] at plays
    cases plays
  have winding : (ofTimeline timeline).sequence.Winding Performer.behaviour
      (.all Performer.Loyal) :=
    ⟨sane, fun running => Phase.noConfusion (idle.symm.trans running),
      fun id p known _ => (fresh id p known).2⟩
  exact ⟨reached, idle, Plan.acyclic_scene valid, ⟨wired.owner, rfl, rfl⟩,
    winding.resting idle wired.queue⟩

namespace Standby

theorem trusted (standby : live.Standby) : live.Trusted := ⟨standby.quiet, standby.rests.sane.fits⟩

theorem rested (standby : live.Standby) : live.Rested :=
  ⟨standby.reached, ⟨standby.rests.calm, standby.rests.empty⟩, standby.quiet.unasked⟩

theorem plays (standby : live.Standby) (id : UnitId) : live.plays id = false := by
  rw [Scene.plays]
  cases known : live.sequence.registry.get? id with
  | none => rfl
  | some p => exact standby.rests.still standby.idle id p known

variable {options : PlaybackOptions} {rounds : Nat} {outcome : Playback.Outcome}

theorem records (standby : live.Standby) (options : PlaybackOptions) (rounds : Nat) : live.Records
    (chronicle Performer.behaviour (playDeeds Performer.behaviour options rounds live) live)
    (playFor Performer.behaviour options rounds live).2 := by
  have recorded := records_chronicle standby.trusted
    (playDeeds Performer.behaviour options rounds live)
  rwa [enact_playDeeds] at recorded

/-- A scene that stands by lets itself be played. -/
theorem unrefused (standby : live.Standby) (options : PlaybackOptions) (rounds : Nat)
    (refusal : Refusal) :
    (playFor Performer.behaviour options rounds live).1 ≠ .error (.refused refusal) := by
  have starts : (live.start Performer.behaviour).1 = .ok () :=
    start_of_acyclic Performer.behaviour standby.reached.conductor.sound standby.acyclic
  rw [playFor]
  rcases started : live.start Performer.behaviour with ⟨refusal | ⟨⟩, next⟩
  · rw [started] at starts
    cases starts
  · exact goOn_ne_refused options rounds 0 next refusal

/-- One run is announced, from its start to its end. -/
theorem closes (standby : live.Standby)
    (played : playFor Performer.behaviour options rounds live = (.ok outcome, final)) :
    let reached := stepped Performer.behaviour options.tick outcome.ticks
      (live.start Performer.behaviour).2
    final.conductor.phase = .idle ∧
      announcements
        (story Performer.behaviour (playDeeds Performer.behaviour options rounds live) live) =
        bracket outcome.canceled ∧
      (outcome.canceled = true ↔ reached.conductor.phase = .running ∧
        options.cap.ns ≤ (now reached).ns) :=
  playFor_closes Performer.timeless standby.rested standby.idle standby.acyclic
    (standby.records options rounds).silent played

theorem again (standby : live.Standby)
    (played : playFor Performer.behaviour options rounds live = (.ok outcome, final)) :
    final.Standby := by
  let deeds := playDeeds Performer.behaviour options rounds live
  have enacted : enact Performer.behaviour deeds live = final := by rw [enact_playDeeds, played]
  have returned := returns_playDeeds played
  -- a playback adds no nodes, so they still do not wait for one another in a circle
  have performs : ∀ cue ∈ deeds.map Deed.cue, (cue : Cue Performer).performs = true := by
    intro cue member
    obtain ⟨deed, -, rfl⟩ := List.mem_map.1 member
    cases deed <;> rfl
  have proper : ∀ cue ∈ deeds.map Deed.cue,
      (cue : Cue Performer).Proper Performer.behaviour Performer.Loyal := by
    intro cue member
    obtain ⟨deed, -, rfl⟩ := List.mem_map.1 member
    cases deed <;> trivial
  obtain ⟨events, performed⟩ := live.performs_rehearse Performer.behaviour performs
  have recorded := (standby.records options rounds).trusted
  rw [played] at recorded
  have rests := rehearse_atRest Performer.dutiful proper standby.rests returned
  have reached := standby.reached.rehearse (b := Performer.behaviour) (deeds.map Deed.cue)
  have acyclic := performed.nodes ▸ standby.acyclic
  rw [enact] at enacted
  rw [enacted] at rests reached acyclic
  exact ⟨reached, (standby.closes played).1, acyclic, recorded.quiet, rests⟩

/-- Of each unit one playback tells nothing or one stint. -/
theorem stint (standby : live.Standby)
    (played : playFor Performer.behaviour options rounds live = (.ok outcome, final))
    (id : UnitId) :
    let told := story Performer.behaviour (playDeeds Performer.behaviour options rounds live) live
    reports id told = [] ∨ ∃ repeats canceled, reports id told = Choreo.stint repeats canceled := by
  intro told
  obtain ⟨past, announced, -⟩ := standby.closes played
  have recorded := standby.records options rounds
  have standing := recorded.standing id [] ((standby.plays id).symm ▸ .nil)
  have starts := recorded.starts id
  rw [played] at standing
  rw [(standby.again played).plays, List.nil_append] at standing
  -- the roll is empty before the run and after it, so nobody was told to start twice
  obtain ⟨roll, entered, -, enrolled⟩ := enrols_story (b := Performer.behaviour) standby.reached
    (Conductor.enrolled_nil _) (playDeeds Performer.behaviour options rounds live)
  rw [enact_playDeeds, played] at enrolled
  rw [enrolled.idle past] at entered
  have once : (announcements told).count .ended ≤ 1 := by
    rw [announced]
    cases outcome.canceled <;> decide
  have distinct := nodup_summons_of_closed entered once
  exact standing.eq_stint (starts.trans (List.nodup_iff_count_le_one.1 distinct id))

end Standby

end Scene

end Choreo
