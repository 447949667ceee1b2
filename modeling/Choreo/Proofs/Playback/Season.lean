import Choreo.Proofs.Playback.CriticalPath
import Choreo.Proofs.Playback.Standby

/-!
# A scene that is played again and again

What is recorded of a scene over any number of playbacks can be read label by label. Under the label
of the scene stand its announcements, a bracket for each playback; under the name of a clip stands
what that clip reported, a stint or nothing for each playback; and under a label that is both stand
both, merged. The checks let a clip have the name that is also the label of the scene.
-/

namespace Choreo

open Happening

/-! ### Reading a recording -/

namespace Merges

variable {α β : Type} {xs ys zs xs' ys' zs' : List α}

theorem append (one : Merges xs ys zs) (two : Merges xs' ys' zs') :
    Merges (xs ++ xs') (ys ++ ys') (zs ++ zs') := by
  induction two with
  | nil => simpa using one
  | left x _ ih =>
    rw [← List.append_assoc, ← List.append_assoc]
    exact ih.left x
  | right y _ ih =>
    rw [← List.append_assoc, ← List.append_assoc]
    exact ih.right y

theorem concat (xs ys : List α) : Merges xs ys (xs ++ ys) :=
  (Merges.nil.append_left xs).append_right ys

theorem flatMap (f g : β → List α) (list : List β) :
    Merges (list.flatMap f) (list.flatMap g) (list.flatMap fun b => f b ++ g b) := by
  induction list with
  | nil => exact .nil
  | cons b list ih =>
    rw [List.flatMap_cons, List.flatMap_cons, List.flatMap_cons]
    exact (concat (f b) (g b)).append ih

end Merges

namespace Recording

variable {recording : Recording} {label : String} {event : Lifecycle}

theorem mem_track {ns : Nat} : (ns, event) ∈ recording.track label ↔
    ∃ moment ∈ recording.moments.toList,
    moment.label = label ∧ moment.event = event ∧ moment.time.ns = ns := by
  rw [track, List.mem_map]
  constructor
  · rintro ⟨moment, member, same⟩
    obtain ⟨here, named⟩ := List.mem_filter.1 member
    obtain ⟨time, told⟩ := Prod.mk.inj same
    exact ⟨moment, here, of_decide_eq_true named, told, time⟩
  · rintro ⟨moment, here, named, rfl, rfl⟩
    exact ⟨moment, List.mem_filter.2 ⟨here, decide_eq_true named⟩, rfl⟩

theorem first?_eq_some_iff (ordered : recording.moments.toList.Pairwise
      fun earlier later => earlier.time.ns ≤ later.time.ns) {time : Span} :
    recording.first? label event = some time ↔ (time.ns, event) ∈ recording.track label ∧
      ∀ ns, (ns, event) ∈ recording.track label → time.ns ≤ ns := by
  have least : ∀ moment, recording.moments.toList.find?
      (fun m => m.label == label && m.event == event) =
      some moment → (moment.time.ns, event) ∈ recording.track label ∧
        ∀ ns, (ns, event) ∈ recording.track label → moment.time.ns ≤ ns := by
    intro moment found
    obtain ⟨fits, before, after, split, none⟩ := List.find?_eq_some_iff_append.1 found
    rw [Bool.and_eq_true, beq_iff_eq, beq_iff_eq] at fits
    have here : moment ∈ recording.moments.toList :=
      split ▸ List.mem_append_right _ (List.mem_cons_self ..)
    refine ⟨mem_track.2 ⟨moment, here, fits.1, fits.2, rfl⟩, fun ns member => ?_⟩
    obtain ⟨other, there, named, told, rfl⟩ := mem_track.1 member
    rw [split] at ordered there
    rcases List.mem_append.1 there with earlier | later
    · have other := none other earlier
      simp [named, told] at other
    · rcases List.mem_cons.1 later with rfl | later
      · exact Nat.le_refl _
      · exact (List.pairwise_cons.1 (List.pairwise_append.1 ordered).2.1).1 other later
  rw [first?, ← Array.find?_toList, Option.map_eq_some_iff]
  constructor
  · rintro ⟨moment, found, rfl⟩
    exact least moment found
  · rintro ⟨member, first⟩
    obtain ⟨moment, here, named, told, same⟩ := mem_track.1 member
    cases found : recording.moments.toList.find? fun m => m.label == label && m.event == event with
    | none =>
      have absent := List.find?_eq_none.1 found moment here
      simp [named, told] at absent
    | some other =>
      obtain ⟨there, before⟩ := least other found
      exact ⟨other, rfl, Span.ext (Nat.le_antisymm (before _ member) (first _ there))⟩

end Recording

namespace Happening

/-- Part of what happens, with the time at which it does. -/
def timed (part : Happening → List Lifecycle) (entry : Span × Happening) : List (Nat × Lifecycle) :=
  (part entry.2).map (Prod.mk entry.1.ns)

/-- What is announced, if this is what happens. -/
def announcementOf (happening : Happening) : List Lifecycle := happening.announcement?.toList

/-- What is delivered, if this is what happens. -/
def deliveryOf (happening : Happening) : List Lifecycle := happening.delivery?.toList

/-- What is written down under a label, if this is what happens. -/
def under (tracks : UnitId → Option String) (label : String) (happening : Happening) :
    List Lifecycle :=
  ((happening.inscription tracks).filter fun line => line.1 = label).map Prod.snd

theorem flatMap_timed (part : Happening → List Lifecycle) (time : Span) (story : List Happening) :
    (story.map (Prod.mk time)).flatMap (timed part) =
      (story.flatMap part).map (Prod.mk time.ns) := by
  rw [List.flatMap_map, List.map_flatMap]
  rfl

theorem flatMap_announcementOf (story : List Happening) :
    story.flatMap announcementOf = announcements story :=
  (List.filterMap_eq_flatMap_toList ..).symm

theorem flatMap_deliveryOf (story : List Happening) :
    story.flatMap deliveryOf = deliveries story :=
  (List.filterMap_eq_flatMap_toList ..).symm

variable {tracks : UnitId → Option String} {label : String}

theorem filter_lines (track : String) (events : List Lifecycle) :
    ((events.map (Prod.mk track)).filter fun line => line.1 = label).map Prod.snd =
      if track = label then events else [] := by
  rw [List.filter_map, List.map_map]
  by_cases same : track = label
  · rw [if_pos same]
    refine Eq.trans (congrArg _ (List.filter_eq_self.2 fun event _ => ?_)) (List.map_id _)
    exact decide_eq_true same
  · rw [if_neg same]
    refine congrArg _ (List.filter_eq_nil_iff.2 fun event _ => ?_)
    simp [same]

theorem under_called (event : Lifecycle) (audience : List (Nat × Ear)) :
    (called event audience).under tracks label =
      if label = Scene.label then (called event audience).deliveryOf else [] := by
  refine (filter_lines Scene.label [event]).trans ?_
  simp only [eq_comm]
  rfl

/-- Under the track of a unit stands what it reports, and what is delivered if that is also the
label of the scene. -/
theorem under_of_unit {id : UnitId} (own : ∀ other, tracks other = some label ↔ other = id)
    (happening : Happening) : happening.under tracks label =
      (if label = Scene.label then happening.deliveryOf else []) ++ happening.reportOf id := by
  cases happening with
  | asked unit act reply =>
    have undelivered : (asked unit act reply).deliveryOf = [] := rfl
    rw [under, inscription, undelivered, ite_self, List.nil_append, reportOf]
    cases tracked : tracks unit with
    | none =>
      have other : unit ≠ id := fun same => by
        rw [(own unit).2 same] at tracked
        cases tracked
      rw [if_neg other]
      rfl
    | some track =>
      have mine : track = label ↔ unit = id := by rw [← own unit, tracked, Option.some.injEq]
      simp only [filter_lines, mine]
  | called event audience => exact (under_called event audience).trans (List.append_nil _).symm
  | _ => exact ((List.append_nil _).trans (ite_self _)).symm

/-- Under a label that is no unit's track stands what is delivered, if that is the label of the
scene. -/
theorem under_of_none (none : ∀ id, tracks id ≠ some label) (happening : Happening) :
    happening.under tracks label = if label = Scene.label then happening.deliveryOf else [] := by
  cases happening with
  | asked unit act reply =>
    have undelivered : (asked unit act reply).deliveryOf = [] := rfl
    rw [under, inscription, undelivered, ite_self]
    cases tracked : tracks unit with
    | none => rfl
    | some track =>
      have other : track ≠ label := fun same => none unit (same ▸ tracked)
      simp only [filter_lines, if_neg other]
  | called event audience => exact under_called event audience
  | _ => exact (ite_self _).symm

end Happening

namespace Scene

open Live Playback

variable {live next : Scene} {entries : List (Span × Happening)}

theorem Records.track (records : live.Records entries next) (label : String) :
    next.recording.track label =
      live.recording.track label ++ entries.flatMap (timed (under live.trackOf label)) := by
  rw [Recording.track, records.moments, List.filter_append, List.map_append, List.filter_flatMap,
    List.map_flatMap]
  refine congrArg (live.recording.track label ++ ·) (List.flatMap_congr fun entry _ => ?_)
  rw [Happening.moments, List.filter_map, List.map_map, timed, under, List.map_map]
  rfl

theorem Trusted.delivered (trusted : live.Trusted) (deeds : List Deed) :
    (chronicle Performer.behaviour deeds live).flatMap (timed deliveryOf) =
      (chronicle Performer.behaviour deeds live).flatMap (timed announcementOf) := by
  induction deeds generalizing live with
  | nil => rfl
  | cons deed deeds ih =>
    have recorded := records_deed trusted deed
    have silent := recorded.silent
    -- within one deed the clock stands still, so the times are the same
    have same : deliveries (live.cueStory Performer.behaviour deed.cue) =
        announcements (live.cueStory Performer.behaviour deed.cue) := by
      rw [List.map_map] at silent
      replace silent : requests (live.cueStory Performer.behaviour deed.cue) = [] :=
        (congrArg requests (List.map_id _)).symm.trans silent
      cases deed with
      | start => exact trusted.quiet.unasked.deliveries_respondStory silent
      | cancel => exact trusted.quiet.unasked.deliveries_respondStory silent
      | tick delta => exact trusted.quiet.unasked.deliveries_tickStory silent
      | clock delta =>
        rw [cueStory_clock]
        rfl
    rw [chronicle, List.flatMap_append, List.flatMap_append, ih recorded.trusted, flatMap_timed,
      flatMap_timed, flatMap_deliveryOf, flatMap_announcementOf, same]

theorem trackOf_ofTimeline {timeline : Timeline} {id : UnitId} {label : String} :
    (ofTimeline timeline).trackOf id = some label ↔
      label ∈ timeline.clips.names ∧ id = timeline.clipUnit label := by
  rw [trackOf, Option.bind_eq_some_iff]
  constructor
  · rintro ⟨p, known, track⟩
    obtain ⟨node, rfl, here⟩ := mem_castOf_of_get? known
    rw [castOf, List.getElem?_append] at here
    split at here
    · rw [List.getElem?_map, Option.map_eq_some_iff] at here
      obtain ⟨entry, found, rfl⟩ := here
      obtain rfl : entry.1 = label := Option.some.inj track
      have place := Plan.placeOf_eq found
      exact ⟨List.mem_map_of_mem (List.mem_of_getElem? found), congrArg (UnitId.mk 0) place.symm⟩
    · obtain ⟨delay, -, rfl⟩ := List.mem_map.1 (List.mem_of_getElem? here)
      cases track
  · rintro ⟨member, rfl⟩
    obtain ⟨entry, found, rfl⟩ := Plan.exists_entry member
    refine ⟨performer entry, ?_, rfl⟩
    refine ((wired_sequenceOf timeline).get? _).trans ?_
    have inside := (List.getElem?_eq_some_iff.1 found).1
    rw [castOf, List.getElem?_append_left (by rwa [List.length_map]), List.getElem?_map]
    exact congrArg (Option.map performer) found

/-! ### Label by label -/

theorem timed_append (one two : Happening → List Lifecycle) (entry : Span × Happening) :
    timed (fun happening => one happening ++ two happening) entry =
      timed one entry ++ timed two entry :=
  List.map_append

section

variable {timeline : Timeline} (records : (ofTimeline timeline).Records entries next)

include records

theorem track_of_records (label : String) :
    next.recording.track label = entries.flatMap
      (timed (under (ofTimeline timeline).trackOf label)) :=
  records.track label

/-- Under a name that no clip has stands what was delivered if it is the label of the scene, and
nothing if it is not. -/
theorem track_of_not_mem {label : String} (other : label ∉ timeline.clips.names) :
    next.recording.track label =
      if label = Scene.label then entries.flatMap (timed deliveryOf) else [] := by
  have none : ∀ id, (ofTimeline timeline).trackOf id ≠ some label := fun id same =>
    other (trackOf_ofTimeline.1 same).1
  rw [track_of_records records, funext (under_of_none none)]
  split
  · rfl
  · exact List.flatMap_eq_nil_iff.2 fun _ _ => rfl

/-- Under the name of a clip stands what its unit reported, and if that is also the label of the
scene, what was delivered stands in between. -/
theorem track_of_mem {name : String} (member : name ∈ timeline.clips.names) :
    if name = Scene.label then
      Merges (entries.flatMap (timed deliveryOf))
        (entries.flatMap (timed (reportOf (timeline.clipUnit name)))) (next.recording.track name)
    else next.recording.track name =
      entries.flatMap (timed (reportOf (timeline.clipUnit name))) := by
  have own : ∀ other, (ofTimeline timeline).trackOf other = some name ↔
      other = timeline.clipUnit name :=
    fun other => trackOf_ofTimeline.trans (and_iff_right member)
  rw [track_of_records records, funext (under_of_unit own)]
  split
  · rw [funext (timed_append _ _)]
    exact .flatMap _ _ entries
  · rfl

end

end Scene

namespace Playback

variable {U : Type}

/-- A playback that has an outcome: the scene before it, how it is played, and what comes of it. -/
structure Showing (U : Type) where
  live : Live U
  options : PlaybackOptions
  rounds : Nat
  outcome : Outcome

namespace Showing

def play (b : Behaviour U) (showing : Showing U) : Except Failure Outcome × Live U :=
  playFor b showing.options showing.rounds showing.live

/-- As many rounds as there are steps to the cap are what a playback on a virtual clock takes at
most. -/
theorem play_eq_virtual {b : Behaviour U} {showing : Showing U}
    (whole : showing.rounds = stepsToCap showing.options (now (showing.live.start b).2)) :
    showing.play b = virtual b showing.options showing.live := by
  rw [play, whole, virtual_eq_playFor]

/-- What happens in the playback, each thing with the time that the clock shows then. -/
def chronicle (b : Behaviour U) (showing : Showing U) : List (Span × Happening) :=
  Playback.chronicle b (playDeeds b showing.options showing.rounds showing.live) showing.live

/-- Part of what happens in the playback, with the times. -/
def told (b : Behaviour U) (part : Happening → List Lifecycle) (showing : Showing U) :
    List (Nat × Lifecycle) :=
  (showing.chronicle b).flatMap (timed part)

theorem map_snd_told (b : Behaviour U) (part : Happening → List Lifecycle) (showing : Showing U) :
    (showing.told b part).map Prod.snd =
      (story b (playDeeds b showing.options showing.rounds showing.live) showing.live).flatMap
        part := by
  rw [told, List.map_flatMap, story, List.flatMap_map]
  refine List.flatMap_congr fun entry _ => ?_
  rw [timed, List.map_map]
  exact List.map_id _

theorem flatMap_told (b : Behaviour U) (part : Happening → List Lifecycle)
    (showings : List (Showing U)) :
    (showings.flatMap (chronicle b)).flatMap (timed part) = showings.flatMap (told b part) :=
  List.flatMap_assoc

/-- The scene after the last step of the playback. -/
def reached (b : Behaviour U) (showing : Showing U) : Live U :=
  stepped b showing.options.tick showing.outcome.ticks (showing.live.start b).2

/-- After its last step the run still goes on, and the clock has reached the cap. -/
def HitsCap (b : Behaviour U) (showing : Showing U) : Prop :=
  (showing.reached b).conductor.phase = .running ∧
    showing.options.cap.ns ≤ (now (showing.reached b)).ns

end Showing

/-- These playbacks are one after the other and lead from one scene to another. -/
inductive Season (b : Behaviour U) : Live U → List (Showing U) → Live U → Prop
  | nil (live : Live U) : Season b live [] live
  | cons {showing : Showing U} {later : List (Showing U)} {final : Live U}
      (returns : (showing.play b).1 = .ok showing.outcome)
      (season : Season b (showing.play b).2 later final) :
        Season b showing.live (showing :: later) final

end Playback

namespace Scene

open Live Playback

variable {live final : Scene} {showings : List (Showing Performer)} {timeline : Timeline}

/-- A scene that stands by does so again after a season. All that happened is recorded, and it stood
by before each of the playbacks. -/
theorem Standby.season (standby : live.Standby)
    (season : Season Performer.behaviour live showings final) :
    final.Standby ∧ live.Records (showings.flatMap (Showing.chronicle Performer.behaviour)) final ∧
      ∀ showing ∈ showings,
        Standby showing.live ∧ (showing.play Performer.behaviour).1 = .ok showing.outcome := by
  induction season with
  | nil live => exact ⟨standby, .refl standby.trusted, fun _ member => by cases member⟩
  | @cons showing later final returns season ih =>
    obtain ⟨rests, records, each⟩ := ih (standby.again (Prod.ext returns rfl))
    have recorded := standby.records showing.options showing.rounds
    exact ⟨rests, recorded.trans records, List.forall_mem_cons.2 ⟨⟨standby, returns⟩, each⟩⟩

theorem Standby.delivered (standby : live.Standby)
    (season : Season Performer.behaviour live showings final) :
    (showings.flatMap (Showing.chronicle Performer.behaviour)).flatMap (timed deliveryOf) =
      showings.flatMap (Showing.told Performer.behaviour announcementOf) := by
  rw [List.flatMap_assoc]
  refine List.flatMap_congr fun showing member => ?_
  exact ((standby.season season).2.2 showing member).1.trusted.delivered _

end Scene

namespace Playback

variable {draft : Draft} {timeline : Timeline} {showings : List (Showing Performer)} {final : Scene}

/-- What was recorded of a plan that passed the checks, over any number of playbacks. The moments
are in order, and the first of an event is the earliest. Under a name that no clip has stands what
was announced, if it is the label of the scene, one bracket for each playback, with a cancellation
if the cap was hit; under the name of a clip stands what this clip reported, nothing or one stint
for each playback. If a clip has the name that is also the label of the scene, both stand there,
merged. -/
theorem recording_season (accepted : draft.check = .ok timeline)
    (season : Season Performer.behaviour (Scene.ofTimeline timeline) showings final) :
    let recording := final.recording
    let announced := Showing.told Performer.behaviour announcementOf
    let reported := fun name => Showing.told Performer.behaviour (reportOf (timeline.clipUnit name))
    (∀ options rounds refusal,
      (playFor Performer.behaviour options rounds final).1 ≠ .error (.refused refusal)) ∧
    (recording.moments.toList.Pairwise fun earlier later => earlier.time.ns ≤ later.time.ns) ∧
    (∀ label event time, recording.first? label event = some time ↔
      (time.ns, event) ∈ recording.track label ∧
        ∀ ns, (ns, event) ∈ recording.track label → time.ns ≤ ns) ∧
    (∀ label, label ∉ timeline.clips.names → recording.track label =
      if label = Scene.label then showings.flatMap announced else []) ∧
    (∀ name ∈ timeline.clips.names,
      if name = Scene.label then
        Merges (showings.flatMap announced) (showings.flatMap (reported name))
          (recording.track name)
      else recording.track name = showings.flatMap (reported name)) ∧
    ∀ showing ∈ showings,
      (announced showing).map Prod.snd = bracket showing.outcome.canceled ∧
      (showing.outcome.canceled = true ↔ showing.HitsCap Performer.behaviour) ∧
      ∀ name ∈ timeline.clips.names, (reported name showing).map Prod.snd = [] ∨
        ∃ repeats canceled, (reported name showing).map Prod.snd = stint repeats canceled := by
  intro recording announced reported
  have standby := Scene.standby_ofTimeline (Draft.valid_of_check accepted)
  obtain ⟨rests, records, each⟩ := standby.season season
  have ordered := (records.ordered ⟨.nil, fun _ member => by cases member⟩).moments
  have delivered := standby.delivered season
  have told := fun part => Showing.flatMap_told Performer.behaviour part showings
  refine ⟨rests.unrefused, ordered, fun label event time => Recording.first?_eq_some_iff ordered,
    ?_, ?_, ?_⟩
  -- the recorder of the scene hears what is delivered, which is what was announced
  · intro label other
    exact delivered ▸ Scene.track_of_not_mem records other
  · intro name member
    have noted := Scene.track_of_mem records member
    rwa [delivered, told] at noted
  · intro showing member
    obtain ⟨before, returns⟩ := each showing member
    have played : showing.play Performer.behaviour =
        (.ok showing.outcome, (showing.play Performer.behaviour).2) := Prod.ext returns rfl
    obtain ⟨-, bracketed, hits⟩ := before.closes played
    simp only [announced, reported, Showing.map_snd_told, flatMap_announcementOf]
    exact ⟨bracketed, hits, fun name _ => before.stint played _⟩

/-- The pair is played to its end. -/
def pairShowing : Showing Performer where
  live := Scene.ofTimeline pairPlan
  options := pairPlan.settings
  rounds := 100
  outcome := ⟨⟨50000000, by decide⟩, 5, false⟩

/-- Then it is played once more, up to a cap that comes before its second round. -/
def pairEncore : Showing Performer where
  live := (pairShowing.play Performer.behaviour).2
  options := ⟨pairPlan.settings.tick, ⟨70000000, by decide⟩⟩
  rounds := 2
  outcome := ⟨⟨70000000, by decide⟩, 2, true⟩

theorem season_pair : Season Performer.behaviour (Scene.ofTimeline pairPlan)
    [pairShowing, pairEncore] (pairEncore.play Performer.behaviour).2 := by
  have first : (pairShowing.play Performer.behaviour).1 = .ok pairShowing.outcome := by
    rw [Showing.play_eq_virtual (by cbv)]
    cbv
  have second : (pairEncore.play Performer.behaviour).1 = .ok pairEncore.outcome := by
    rw [Showing.play_eq_virtual (by cbv)]
    cbv
  exact .cons first (.cons second (.nil _))

theorem recording_season_pair : ∃ final : Scene,
    Season Performer.behaviour (Scene.ofTimeline pairPlan) [pairShowing, pairEncore] final ∧
      (pairEncore.told Performer.behaviour announcementOf).map Prod.snd =
        [.started, .canceled, .ended] ∧
      final.recording.track "a" = [pairShowing, pairEncore].flatMap
        (Showing.told Performer.behaviour (reportOf (pairPlan.clipUnit "a"))) := by
  obtain ⟨-, -, -, -, clips, each⟩ := recording_season check_pair season_pair
  obtain ⟨bracketed, -⟩ := each pairEncore (List.mem_cons_of_mem _ List.mem_cons_self)
  exact ⟨_, season_pair, bracketed, clips "a" (by decide)⟩

/-- A clip that has the name under which the scene is recorded. -/
def namesakeDraft : Draft where
  settings := ⟨"40ms", "3s"⟩
  clips := .ofList [("sequence", ⟨"40ms", 0, [], [], none⟩)]
  groups := []

def namesakePlan : Timeline where
  settings := ⟨⟨40000000, by decide⟩, ⟨3000000000, by decide⟩⟩
  clips := ⟨[("sequence", ⟨⟨40000000, by decide⟩, 0, [], [], none⟩)], by decide⟩
  groups := []

theorem check_namesake : namesakeDraft.check = .ok namesakePlan :=
  Draft.check_eq_ok rfl (by decide +kernel) (by decide +kernel) (by decide +kernel) rfl

def namesakeShowing : Showing Performer where
  live := Scene.ofTimeline namesakePlan
  options := namesakePlan.settings
  rounds := 75
  outcome := ⟨⟨40000000, by decide⟩, 1, false⟩

/-- It passes the checks, and after one playback there are two starts and two ends under its name:
those of the clip and those of the scene. -/
theorem recording_namesake : namesakeDraft.check = .ok namesakePlan ∧ ∃ final : Scene,
    Season Performer.behaviour (Scene.ofTimeline namesakePlan) [namesakeShowing] final ∧
      final.recording.track Scene.label =
        [(0, .started), (0, .started), (40000000, .ended), (40000000, .ended)] ∧
      namesakeShowing.told Performer.behaviour announcementOf =
        [(0, .started), (40000000, .ended)] ∧
      namesakeShowing.told Performer.behaviour (reportOf (namesakePlan.clipUnit Scene.label)) =
        [(0, .started), (40000000, .ended)] := by
  have returns : (namesakeShowing.play Performer.behaviour).1 = .ok namesakeShowing.outcome := by
    rw [Showing.play_eq_virtual (by cbv)]
    cbv
  refine ⟨check_namesake, (namesakeShowing.play Performer.behaviour).2, .cons returns (.nil _),
    ?_, ?_, ?_⟩
  · cbv
  · cbv
  · cbv

end Playback

end Choreo
