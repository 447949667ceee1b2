import Choreo.Proofs.Plan.Cast
import Choreo.Proofs.Sequence.Edits

/-!
# The roster of a scene

The register of a scene has one entry for each clip, under its name and in the order of the names,
and then one for each delay in the order of their clips, which the scene made for itself.
-/

namespace Choreo

namespace Scene

/-- The entry of a clip. -/
def clipSlot (entry : String × ClipPlan Span) : Slot Performer := ⟨entry.1, false, performer entry⟩

/-- The entry of a delay. -/
def delaySlot (delay : Span) : Slot Performer :=
  ⟨"delay(" ++ delay.detail ++ ")", true, timer delay⟩

variable {timeline : Timeline} {units : List Performer} {links : List (Nat × Dependency)}
  {sequence : Sequence Performer}

theorem slots_cast (entries : List (String × ClipPlan Span)) (sequence : Sequence Performer) :
    (cast entries sequence).registry.slots.toList =
      sequence.registry.slots.toList ++ entries.map clipSlot := by
  induction entries generalizing sequence with
  | nil => simp [cast]
  | cons entry entries ih =>
    have rest := ih ((sequence.add (some entry.1) (performer entry)).2.play
      (some (sequence.add (some entry.1) (performer entry)).1)).2
    rw [Sequence.registry_play] at rest
    refine rest.trans ?_
    simp [Sequence.add, Registry.insert, clipSlot]

theorem registry_foldl {α : Type} (step : Sequence Performer → α → Sequence Performer)
    (keeps : ∀ sequence a, (step sequence a).registry = sequence.registry) (list : List α)
    (sequence : Sequence Performer) : (list.foldl step sequence).registry = sequence.registry := by
  induction list generalizing sequence with
  | nil => rfl
  | cons a list ih => exact (ih _).trans (keeps _ _)

theorem slots_playAfterDelay (wired : Wired units links sequence) {anchor : Nat}
    (here : anchor < units.length) (delay : Span) :
    (sequence.playWith timer (some ⟨0, anchor⟩) [.afterDelay delay]).registry.slots.toList =
      sequence.registry.slots.toList ++ [delaySlot delay] := by
  simp only [Sequence.playWith, wired.play here, Sequence.relateAll, List.foldl_cons,
    List.foldl_nil, Sequence.relate]
  exact Array.toList_push

theorem slots_relateClip (wired : Wired units links sequence)
    (clips : timeline.clips.entries.length ≤ units.length) (entry : String × ClipPlan Span) :
    (relateClip timeline sequence entry).registry.slots.toList = sequence.registry.slots.toList ++
      (delays timeline [entry]).map fun delay => delaySlot delay.2 := by
  have prompt := wired_relateClip wired clips (entry.1, { entry.2 with delay := none })
  cases here : timeline.clips.position? entry.1 with
  | none => simp [relateClip, unit?, here, delays]
  | some place =>
    have known : unit? timeline entry.1 = some ⟨0, place⟩ := by rw [unit?, here]; rfl
    have same : (relateClip timeline sequence (entry.1, { entry.2 with delay := none })).registry =
        sequence.registry := by
      simp only [relateClip, known]
      exact (registry_foldl _ (fun s other => Sequence.registry_playWith timer s _ (by simp)) _
        _).trans
        (registry_foldl _ (fun s other => Sequence.registry_playWith timer s _ (by simp)) _ _)
    cases late : entry.2.delay with
    | none =>
      have none : relateClip timeline sequence entry =
          relateClip timeline sequence (entry.1, { entry.2 with delay := none }) := by
        simp only [relateClip, known, late]
      rw [none, same]
      simp [delays, here, late]
    | some delay =>
      have split : relateClip timeline sequence entry =
          (relateClip timeline sequence (entry.1, { entry.2 with delay := none })).playWith timer
            (some ⟨0, place⟩) [.afterDelay delay] := by
        simp only [relateClip, known, late]
      have inside := Nat.lt_of_lt_of_le (position?_lt here) clips
      rw [split, slots_playAfterDelay prompt (by simpa [delays] using inside), same]
      simp [delays, here, late]

theorem slots_relateClips (wired : Wired units links sequence)
    (clips : timeline.clips.entries.length ≤ units.length)
    (entries : List (String × ClipPlan Span)) :
    (entries.foldl (relateClip timeline) sequence).registry.slots.toList =
      sequence.registry.slots.toList ++
        (delays timeline entries).map fun delay => delaySlot delay.2 := by
  induction entries generalizing units links sequence with
  | nil => simp [delays]
  | cons entry entries ih =>
    have rest := ih (wired_relateClip wired clips entry) (by rw [List.length_append]; omega)
    have split : delays timeline (entry :: entries) =
        delays timeline [entry] ++ delays timeline entries := by
      rw [delays, delays, delays, ← List.filterMap_append, List.singleton_append]
    rw [List.foldl_cons, rest, slots_relateClip wired clips entry, split, List.map_append,
      List.append_assoc]

theorem registry_relateGroup (sequence : Sequence Performer) (group : Group) :
    (relateGroup timeline sequence group).registry = sequence.registry := by
  rw [relateGroup]
  cases group.mode with
  | together => exact Sequence.registry_playTogether timer sequence _
  | sequential => exact Sequence.registry_playSequentially timer sequence _

/-- The entries of a scene: those of its clips, then those of its delays. -/
theorem slots_sequenceOf (timeline : Timeline) :
    (sequenceOf timeline).registry.slots.toList = timeline.clips.entries.map clipSlot ++
      (delays timeline timeline.clips.entries).map fun delay => delaySlot delay.2 := by
  have clips := wired_cast Wired.empty timeline.clips.entries
  rw [List.nil_append] at clips
  have related : (timeline.clips.entries.foldl (relateClip timeline) _).registry.slots.toList = _ :=
    slots_relateClips clips (by simp) timeline.clips.entries
  rw [slots_cast] at related
  have grouped := registry_foldl (relateGroup timeline) registry_relateGroup timeline.groups
    (timeline.clips.entries.foldl (relateClip timeline) (cast timeline.clips.entries (.empty 0)))
  exact (congrArg (fun registry => registry.slots.toList) grouped).trans related

theorem label_clip {place : Nat} {entry : String × ClipPlan Span}
    (here : timeline.clips.entries[place]? = some entry) :
    (sequenceOf timeline).registry.label ⟨0, place⟩ = entry.1 := by
  have slot : (sequenceOf timeline).registry.slots[place]? = some (clipSlot entry) := by
    have inside := (List.getElem?_eq_some_iff.1 here).1
    rw [← Array.getElem?_toList, slots_sequenceOf,
      List.getElem?_append_left (by simpa using inside), List.getElem?_map, here]
    rfl
  rw [Registry.label, Registry.slot?, if_pos (wired_sequenceOf timeline).owner.symm, slot]
  rfl

end Scene

end Choreo
