import Choreo.Proofs.World.Holdings
import Choreo.World

/-!
# What is registered with whom

Whatever a world is asked to do, with whatever handles, a log is kept of the units that are
registered: with which sequence, under which name and label, and whether the sequence made them for
itself. The names of a log are all different, and the register of a sequence, wherever it is, holds
what the log says was registered with that sequence, in that order.
-/

namespace Choreo

variable {U : Type}

/-- A unit that was registered: with which sequence, under which name, and as what. -/
structure Registration where
  issuer : Nat
  id : UnitId
  label : String
  synthetic : Bool
  deriving DecidableEq

namespace Registration

/-- The registrations with one sequence, from this index on, of units with these labels and
marks. -/
def file (issuer start : Nat) (tags : List (String × Bool)) : List Registration :=
  (tags.zipIdx start).map fun (tag, index) => ⟨issuer, ⟨issuer, index⟩, tag.1, tag.2⟩

theorem file_append (issuer start : Nat) (tags more : List (String × Bool)) :
    file issuer start (tags ++ more) =
      file issuer start tags ++ file issuer (start + tags.length) more := by
  simp [file, List.zipIdx_append]

theorem mem_file {issuer start : Nat} {tags : List (String × Bool)} {entry : Registration} :
    entry ∈ file issuer start tags ↔ ∃ index, tags[index]? = some (entry.label, entry.synthetic) ∧
      entry.issuer = issuer ∧ entry.id = ⟨issuer, start + index⟩ := by
  obtain ⟨owner, id, label, synthetic⟩ := entry
  simp only [file, List.mem_map, Prod.exists, List.mem_zipIdx_iff_le_and_getElem?_sub,
    Registration.mk.injEq]
  constructor
  · rintro ⟨name, made, index, ⟨late, here⟩, rfl, rfl, rfl, rfl⟩
    exact ⟨index - start, here, rfl, by rw [Nat.add_sub_cancel' late]⟩
  · rintro ⟨index, here, rfl, rfl⟩
    exact ⟨label, synthetic, start + index, ⟨Nat.le_add_right .., by simpa using here⟩, rfl, rfl,
      rfl, rfl⟩

theorem issuer_of_mem_file {issuer start : Nat}
    {tags : List (String × Bool)} {entry : Registration} (member : entry ∈ file issuer start tags) :
    entry.issuer = issuer ∧ entry.id.owner = issuer := by
  obtain ⟨index, -, own, id⟩ := mem_file.1 member
  exact ⟨own, by rw [id]⟩

theorem ids_file (issuer start : Nat) (tags : List (String × Bool)) :
    (file issuer start tags).map Registration.id =
      (List.range tags.length).map fun k => ⟨issuer, start + k⟩ := by
  refine List.ext_getElem (by simp [file]) fun k _ _ => ?_
  simp [file]

theorem nodup_file (issuer start : Nat) (tags : List (String × Bool)) :
    ((file issuer start tags).map Registration.id).Nodup := by
  rw [ids_file]
  refine List.nodup_range.map fun one two same => ?_
  simpa using same

end Registration

open Registration

namespace Registry

/-- The labels and marks of the units, in order. -/
def tags (registry : Registry U) : List (String × Bool) :=
  registry.slots.toList.map fun slot => (slot.label, slot.synthetic)

theorem getElem?_tags (registry : Registry U) (index : Nat) :
    registry.tags[index]? = registry.slots[index]?.map fun slot =>
      (slot.label, slot.synthetic) := by
  simp [tags]

@[simp] theorem length_tags (registry : Registry U) :
    registry.tags.length = registry.slots.size := by
  simp [tags]

theorem tags_push (registry : Registry U) (slot : Slot U) :
    ({ registry with slots := registry.slots.push slot } : Registry U).tags =
      registry.tags ++ [(slot.label, slot.synthetic)] := by
  simp [tags]

@[simp] theorem tags_update (id : UnitId) (unit : U) (registry : Registry U) :
    (registry.update id unit).tags = registry.tags := by
  refine List.ext_getElem? fun index => ?_
  rw [getElem?_tags, getElem?_tags, update, Array.getElem?_modify]
  split
  · cases registry.slots[index]? <;> rfl
  · rfl

/-- What a register finds is what is filed in it. -/
theorem slot?_iff_mem_file {registry : Registry U} {id : UnitId} {label : String}
    {synthetic : Bool} :
    (∃ unit, registry.slot? id = some ⟨label, synthetic, unit⟩) ↔
      ⟨registry.owner, id, label, synthetic⟩ ∈ file registry.owner 0 registry.tags := by
  obtain ⟨owner, index⟩ := id
  have tag : registry.tags[index]? = some (label, synthetic) ↔
      ∃ unit, registry.slots[index]? = some ⟨label, synthetic, unit⟩ := by
    rw [getElem?_tags]
    cases registry.slots[index]? with
    | none => simp
    | some slot =>
      obtain ⟨name, made, unit⟩ := slot
      simp only [Option.map_some, Option.some.injEq, Prod.mk.injEq, Slot.mk.injEq]
      exact ⟨fun ⟨same, same'⟩ => ⟨unit, same, same', rfl⟩,
        fun ⟨_, same, same', _⟩ => ⟨same, same'⟩⟩
  rw [mem_file, slot?]
  split
  · rename_i own
    simp only at own
    subst own
    rw [← tag]
    simp
  · rename_i foreign
    simp only [reduceCtorEq, exists_false, false_iff, UnitId.mk.injEq, not_exists, not_and]
    exact fun _ _ _ same => absurd same foreign

end Registry

/-- What the timer is registered as that a link asks for, if it does. -/
def Link.tag? : Link → Option (String × Bool)
  | .afterDelay delay => some ("delay(" ++ delay.detail ++ ")", true)
  | _ => none

namespace Sequence

variable {timer : Span → U} {sequence : Sequence U}

theorem relateAll_of_noop (timer : Span → U) (links : List Link)
    (last : Option UnitId) (sequence : Sequence U) :
    relateAll timer links ⟨none, last⟩ sequence = (⟨none, last⟩, sequence) := by
  induction links with
  | nil => rfl
  | cons link links ih => exact ih

theorem tags_relate (timer : Span → U) (sequence : Sequence U) (link : Link) {cursor : Cursor}
    {anchor : Nat} (on : cursor.anchor = some anchor) :
    (relate timer link cursor sequence).1.anchor = some anchor ∧
      (relate timer link cursor sequence).2.registry.tags =
        sequence.registry.tags ++ link.tag?.toList := by
  cases link with
  | together other | before other | after other =>
    simp only [relate, on, Link.tag?, Option.toList_none, List.append_nil]
    cases found : sequence.resolve other with
    | none => exact ⟨on, rfl⟩
    | some placed =>
      have same := registry_resolve found
      exact ⟨on, congrArg Registry.tags same⟩
  | afterDelay delay =>
    simp only [relate, on]
    exact ⟨trivial, sequence.registry.tags_push _⟩

/-- Each delay among the links registers one timer. -/
theorem tags_relateAll (timer : Span → U) (sequence : Sequence U)
    (links : List Link) {cursor : Cursor} {anchor : Nat} (on : cursor.anchor = some anchor) :
    (relateAll timer links cursor sequence).2.registry.tags =
      sequence.registry.tags ++ links.filterMap Link.tag? := by
  induction links generalizing cursor sequence with
  | nil => simp [relateAll]
  | cons link links ih =>
    obtain ⟨stays, first⟩ := tags_relate timer sequence link on
    have rest := @ih (relate timer link cursor sequence).2 _ stays
    rw [first, List.append_assoc] at rest
    refine rest.trans (congrArg _ ?_)
    cases tag : link.tag? <;> simp [tag]

theorem tags_playWith (timer : Span → U) (unit : Option UnitId) (links : List Link)
    (sequence : Sequence U) : (sequence.playWith timer unit links).registry.tags =
      sequence.registry.tags ++
        if (sequence.play unit).1.anchor.isSome then links.filterMap Link.tag? else [] := by
  have same : (sequence.play unit).2.registry = sequence.registry := sequence.registry_play unit
  rw [playWith]
  rcases cursor : (sequence.play unit).1 with ⟨_ | anchor, last⟩
  · rw [relateAll_of_noop]
    simp [same]
  · have on : (⟨some anchor, last⟩ : Cursor).anchor = some anchor := rfl
    rw [tags_relateAll timer _ links on, same]
    simp

end Sequence

end Choreo
