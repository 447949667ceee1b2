import Choreo.Proofs.World.Log

/-!
# Handles

A handle means something to one sequence only, the one that the unit was registered with. To all
others it is foreign: they do not find it, relate it to nothing, and never call it. That holds for
whatever is done with all handles of a world, and in the midst of it, in sequences that are units of
others as well.
-/

namespace Choreo

open Registration

/-- The unit that a link names. -/
def Link.other? : Link → Option UnitId
  | .together other | .before other | .after other => some other
  | .afterDelay _ => none

/-- Whether all that the link names is of this owner. -/
def Link.native (owner : Nat) (link : Link) :
    Bool := link.other?.all fun other => other.owner == owner

namespace Sequence

variable {U : Type} {timer : Span → U} {sequence : Sequence U}

theorem contains_of_foreign {unit : UnitId} (foreign : unit.owner ≠ sequence.number) :
    sequence.registry.contains unit = false := by
  have apart : unit.owner ≠ sequence.registry.owner := foreign
  simp [Registry.contains, Registry.slot?, apart]

theorem resolve_of_unknown {unit : UnitId} (unknown : sequence.registry.contains unit = false) :
    sequence.resolve unit = none := by
  simp [resolve, unknown]

theorem play_of_unknown {unit : Option UnitId}
    (unknown : ∀ id ∈ unit, sequence.registry.contains id = false) :
    sequence.play unit = (⟨none, none⟩, sequence.withGraph sequence.graph.touch) := by
  cases unit with
  | none => rfl
  | some id => simp [play, resolve_of_unknown (unknown id rfl)]

/-- To play a unit that the sequence does not know does nothing but that the order is worked out
anew. -/
theorem playWith_of_unknown (timer : Span → U) {unit : Option UnitId} (links : List Link)
    (unknown : ∀ id ∈ unit, sequence.registry.contains id = false) :
    sequence.playWith timer unit links = sequence.withGraph sequence.graph.touch := by
  rw [playWith, play_of_unknown unknown, relateAll_of_noop]

theorem relate_of_unknown {unit : UnitId} (unknown : sequence.registry.contains unit = false)
    {link : Link} (names : link.other? = some unit) (cursor : Cursor) :
    relate timer link cursor sequence = (cursor, sequence) := by
  obtain ⟨_ | anchor, last⟩ := cursor
  · rfl
  · cases link with
    | together other | before other | after other =>
      cases names
      simp [relate, resolve_of_unknown unknown]
    | afterDelay => cases names

theorem number_relate (link : Link) (cursor : Cursor) :
    (relate timer link cursor sequence).2.number = sequence.number := by
  obtain ⟨_ | anchor, last⟩ := cursor
  · rfl
  · cases link with
    | together other | before other | after other =>
      simp only [relate]
      cases found : sequence.resolve other with
      | none => rfl
      | some placed =>
        have same := registry_resolve found
        exact congrArg Registry.owner same
    | afterDelay => rfl

theorem relateAll_native (links : List Link) (cursor : Cursor) :
    relateAll timer links cursor sequence =
    relateAll timer (links.filter (Link.native sequence.number)) cursor sequence := by
  induction links generalizing cursor sequence with
  | nil => rfl
  | cons link links ih =>
    have rest := @ih (relate timer link cursor sequence).2 (relate timer link cursor sequence).1
    rw [number_relate] at rest
    by_cases native : link.native sequence.number = true
    · rw [List.filter_cons_of_pos native]
      exact rest
    · rw [List.filter_cons_of_neg native]
      obtain ⟨other, names, foreign⟩ : ∃ other, link.other? = some other ∧
          other.owner ≠ sequence.number := by
        simpa [Link.native, Option.all_eq_true] using native
      rw [relate_of_unknown (contains_of_foreign foreign) names] at rest
      simp only [relateAll, List.foldl_cons, relate_of_unknown (contains_of_foreign foreign) names]
      exact rest

theorem playWith_native (timer : Span → U) (unit : Option UnitId) (links : List Link)
    (sequence : Sequence U) : sequence.playWith timer unit links =
      sequence.playWith timer unit (links.filter (Link.native sequence.number)) := by
  have same : (sequence.play unit).2.number = sequence.number :=
    congrArg Registry.owner (sequence.registry_play unit)
  rw [playWith, relateAll_native, same]
  rfl

end Sequence

namespace Live

variable {U : Type} {b : Behaviour U}

/-- Every unit that the conductor calls, whatever it decides about next, is the sequence's own when
its turn comes, and so is every unit that plays. -/
def Owns (b : Behaviour U) (live : Live U) : Prop :=
  (∀ operation : Operation, operation.performs = true →
    ∀ (queue : List Report) (done rest : List Command) (act : Act) (unit : UnitId),
      (live.conductor.operate operation).1.commands = done ++ .call act unit :: rest →
      (execute b done
        (live.conducted (live.conductor.operate operation).2 queue)).2.sequence.registry.contains
        unit = true) ∧
  ∀ unit ∈ live.conductor.playing.units, live.sequence.registry.contains unit = true

theorem Reached.owns {live : Live U} (reached : live.Reached) : live.Owns b := by
  refine ⟨fun operation performs queue done rest act unit commands => ?_, fun unit plays => ?_⟩
  · have called : .call act unit ∈ (live.conductor.operate operation).1.commands := by
      simp [commands]
    have known := reached.grounded.registered unit (reached.conductor.called_mem operation called)
    exact (setting_execute (throughout_contains b).toWithin _ done unit).trans known
  · exact reached.grounded.registered unit (reached.conductor.playing_mem plays)

end Live

namespace Member

/-- The states that a sequence passes through while it performs, with those of the sequences in it:
from one move to the next, in the midst of what was decided, and when a unit is called. -/
inductive Passes : Nat → Live Member → Live Member → Prop where
  | here (depth : Nat) (live : Live Member) : Passes depth live live
  | later {depth : Nat} {live next other : Live Member} {story : List Happening}
    (move : Live.Move (behaviour depth) live story next) (on : Passes depth next other) :
    Passes depth live other
  | amid {depth : Nat} {live other : Live Member} (operation : Operation)
    (performs : operation.performs = true) (queue : List Report) {done rest : List Command}
    (commands : (live.conductor.operate operation).1.commands = done ++ rest)
    (on : Passes depth (Live.execute (behaviour depth) done
      (live.conducted (live.conductor.operate operation).2 queue)).2 other) :
        Passes depth live other
  | within {depth : Nat} {live other : Live Member} {nested : Sequence Member} {id : UnitId}
    {watch : Option String} (known : live.sequence.registry.get? id = some (.ensemble watch nested))
    (stage : Stage) (on : Passes depth ⟨nested, stage⟩ other) : Passes (depth + 1) live other

end Member

namespace Sequence

variable {log : List Registration}

theorem filed_of_passes {depth : Nat} {live other : Live Member}
    (passes : Member.Passes depth live other) (all : live.sequence.All (Filed log)) :
    other.sequence.Filed log := by
  have lasting : Member.Lasting (Filed log) := fun move filed =>
    (Member.lasting_filed log (fun _ => True) move ⟨filed, trivial⟩).1
  induction passes with
  | here => exact (all_iff.1 all).1
  | later move _ ih => exact ih (lasting.moves (.one move) all)
  | @amid depth live other operation performs queue done rest _ _ ih =>
    obtain ⟨filed, units⟩ := all_iff.1 all
    let decided := live.conducted (live.conductor.operate operation).2 queue
    have reached := (filed.live live.stage).execute (b := Member.behaviour depth) operation performs
      queue done
    obtain ⟨number, tags⟩ :=
      Live.setting_execute (Member.behaviour depth).throughout_tags.toWithin decided done
    have fits := Live.setting_execute (lasting.retains depth).throughout.toWithin decided done units
    refine ih (all_iff.2 ⟨⟨reached.grounded, reached.conductor, ?_⟩, fits⟩)
    have same : (Live.execute (Member.behaviour depth) done decided).2.sequence.number =
      live.sequence.number := number
    rw [same, filed.filed]
    exact congrArg _ tags.symm
  | within known stage _ ih => exact ih fun inner held => all inner (.unit known held)

/-- The nodes of a sequence, and so what its nodes wait for, are units that were registered with
it. -/
theorem Filed.nodes {sequence : Sequence Member} (filed : sequence.Filed log) {node : Nat}
    {unit : UnitId} (named : sequence.graph.unit? node = some unit) :
    (∃ entry ∈ log, entry.issuer = sequence.number ∧ entry.id = unit) ∧
      ∀ d ∈ sequence.graph.dependencies node, ∃ other,
        sequence.graph.unit? d.node = some other := by
  refine ⟨(filed.contains_iff unit).1
    (filed.grounded.registered unit (Conductor.unit_mem_of_unit? named)), fun d member => ?_⟩
  obtain ⟨here, found, -⟩ := Graph.unit?_eq_some.1 named
  rw [Graph.dependencies, found] at member
  have inside := filed.grounded.sound.arena.lt_of_dependency found member
  exact ⟨_, Graph.unit?_eq_some.2 ⟨_, List.getElem?_eq_getElem inside, rfl⟩⟩

end Sequence

namespace World

/-- Whatever a world is asked to do, with whatever handles, all handles are different. A sequence is
found under its own number, and refuses to play a unit that was not registered with it. And every
sequence, wherever it is, finds just what was registered with it, as what it was registered; only
that becomes nodes, and what nodes wait for; to play another unit changes nothing but that the order
is worked out anew, and links to foreign units change nothing; and whatever it does from here on, on
whatever stage, in itself and in what it holds, no conductor calls a unit that is not its own. -/
theorem handles_apart (calls : List Call) :
    let log := (follow calls void).1
    let world := (follow calls void).2
    (world.handles = log.map Registration.id ∧ (log.map Registration.id).Nodup) ∧
    ∀ number top, world.sequence? number = some top →
      (top.number = number ∧ ∀ unit links,
        (∀ entry ∈ log, entry.issuer = number → entry.id ≠ unit) →
        world.tryPlay number unit links = some (.error (.unregistered unit), world)) ∧
      ∀ sequence, top.Holds sequence →
        (∀ id label synthetic,
          (∃ unit, sequence.registry.slot? id = some ⟨label, synthetic, unit⟩) ↔
          ⟨sequence.number, id, label, synthetic⟩ ∈ log) ∧
        (∀ node unit, sequence.graph.unit? node = some unit →
          (∃ entry ∈ log, entry.issuer = sequence.number ∧ entry.id = unit) ∧
            ∀ d ∈ sequence.graph.dependencies node, ∃ other,
              sequence.graph.unit? d.node = some other) ∧
        (∀ unit, (∀ id ∈ unit, ∀ entry ∈ log, entry.issuer = sequence.number → entry.id ≠ id) →
          ∀ links,
          sequence.playWith Member.timer unit links = sequence.withGraph sequence.graph.touch) ∧
        (∀ unit links, sequence.playWith Member.timer unit links =
          sequence.playWith Member.timer unit (links.filter (Link.native sequence.number))) ∧
        ∀ depth stage other, Member.Passes depth ⟨sequence, stage⟩ other →
          other.Owns (Member.behaviour depth) ∧ other.sequence.Filed log := by
  intro log world
  have orderly : world.Orderly log := by simpa using Orderly.void.follow calls
  have unknown : ∀ {sequence : Sequence Member}, sequence.Filed log → ∀ {unit : UnitId},
      (∀ entry ∈ log, entry.issuer = sequence.number → entry.id ≠ unit) →
      sequence.registry.contains unit = false := by
    intro sequence filed unit others
    refine Bool.eq_false_iff.2 fun known => ?_
    obtain ⟨entry, member, own, same⟩ := (filed.contains_iff unit).1 known
    exact others entry member own same
  refine ⟨⟨orderly.handles, orderly.unique⟩, fun number top there => ?_⟩
  obtain ⟨numbered, filed⟩ := orderly.own number top there
  refine ⟨⟨numbered, fun unit links others => ?_⟩, fun sequence held => ?_⟩
  · have absent := unknown filed (numbered.symm ▸ others)
    simp [World.tryPlay, there, absent]
  · have all : top.All (Sequence.Filed log) := by
      refine Sequence.all_iff.2 ⟨filed, fun id member known => ?_⟩
      exact (orderly.nested number top there id member known).mono fun _ tucked => tucked.filed
    have filed := all sequence held
    refine ⟨filed.finds_iff, fun node unit named => filed.nodes named, fun unit others links =>
      Sequence.playWith_of_unknown _ links fun id named => unknown filed (others id named),
      fun unit links => Sequence.playWith_native .., fun depth stage other passes => ?_⟩
    have all' : sequence.All (Sequence.Filed log) :=
      fun inner within => all inner (held.trans within)
    have there := Sequence.filed_of_passes passes all'
    exact ⟨(there.live other.stage).owns, there⟩

end World

end Choreo
