import Choreo.Proofs.World.Register

/-!
# The log of a world

Whatever a world is asked to do, with whatever handles, the log says which units are registered
meanwhile, and with which sequence. The names in the log are all different, those of a sequence are
told by its number, and wherever a sequence is, in the world or in other sequences, its register
holds what the log says, in that order, and nothing else ever becomes a node of it.
-/

namespace Choreo

open Registration

namespace Sequence

/-- The sequence has come to where it is by what was asked of it, and all that is registered with it
is what the log says. -/
structure Filed (log : List Registration) (sequence : Sequence Member) : Prop where
  grounded : sequence.Grounded
  reached : sequence.conductor.Reachable
  filed : log.filter (·.issuer = sequence.number) = file sequence.number 0 sequence.registry.tags

namespace Filed

variable {log new : List Registration} {sequence : Sequence Member}

theorem live (filed : sequence.Filed log) (stage : Stage) :
    (⟨sequence, stage⟩ : Live Member).Reached :=
  ⟨filed.grounded, filed.reached⟩

theorem append (filed : sequence.Filed log)
    (others : ∀ entry ∈ new, entry.issuer ≠ sequence.number) :
    sequence.Filed (log ++ new) := by
  refine ⟨filed.grounded, filed.reached, ?_⟩
  have none : new.filter (·.issuer = sequence.number) = [] := by simpa using others
  rw [List.filter_append, none, List.append_nil, filed.filed]

theorem mem_iff (filed : sequence.Filed log) (entry : Registration) :
    entry ∈ log ∧ entry.issuer = sequence.number ↔
      entry ∈ file sequence.number 0 sequence.registry.tags := by
  rw [← filed.filed]
  simp

/-- The sequence finds what was registered with it, as what it was registered. -/
theorem finds_iff (filed : sequence.Filed log) (id : UnitId) (label : String) (synthetic : Bool) :
    (∃ unit, sequence.registry.slot? id = some ⟨label, synthetic, unit⟩) ↔
      ⟨sequence.number, id, label, synthetic⟩ ∈ log := by
  rw [Registry.slot?_iff_mem_file]
  have same := filed.mem_iff ⟨sequence.number, id, label, synthetic⟩
  exact same.symm.trans (and_iff_left rfl)

theorem contains_iff (filed : sequence.Filed log) (id : UnitId) :
    sequence.registry.contains id = true ↔ ∃ entry ∈ log, entry.issuer = sequence.number ∧
      entry.id = id := by
  rw [Registry.contains, Option.isSome_iff_exists]
  constructor
  · rintro ⟨⟨label, synthetic, unit⟩, found⟩
    exact ⟨_, (filed.finds_iff id label synthetic).1 ⟨unit, found⟩, rfl, rfl⟩
  · rintro ⟨⟨issuer, id, label, synthetic⟩, member, rfl, rfl⟩
    obtain ⟨unit, found⟩ := (filed.finds_iff id label synthetic).2 member
    exact ⟨_, found⟩

end Filed

end Sequence

/-- Calls, deliveries and the serving of requests leave a register's owner, labels and marks as they
are. -/
theorem Behaviour.throughout_tags {U : Type} (b : Behaviour U) : b.Throughout fun before after =>
    after.1.owner = before.1.owner ∧ after.1.tags = before.1.tags :=
  ⟨⟨fun _ => ⟨rfl, rfl⟩, fun one two => ⟨two.1.trans one.1, two.2.trans one.2⟩,
    fun _ _ _ _ _ _ => ⟨rfl, Registry.tags_update ..⟩,
    fun _ _ _ _ _ _ => ⟨rfl, Registry.tags_update ..⟩⟩,
    fun _ _ _ => ⟨rfl, rfl⟩, fun _ => ⟨rfl, rfl⟩⟩

theorem Member.lasting_filed (log : List Registration) (so : Nat → Prop) :
    Lasting fun sequence => sequence.Filed log ∧ so sequence.number := by
  intro depth live next story move ⟨filed, own⟩
  obtain ⟨number, tags⟩ := move.setting (behaviour depth).throughout_tags
  have reached := move.reached (filed.live live.stage)
  have same : next.sequence.number = live.sequence.number := number
  refine ⟨⟨reached.grounded, reached.conductor, ?_⟩, same ▸ own⟩
  rw [same, filed.filed]
  exact congrArg _ tags.symm

namespace World

/-- What a world can be asked to do. -/
inductive Call where
  | create
  | add (number : Nat) (label : Option String) (performer : Performer)
  | nest (number child : Nat) (label : Option String)
  | drop (number : Nat)
  | play (number : Nat) (unit : Option UnitId) (links : List Link)
  | tryPlay (number : Nat) (unit : UnitId) (links : List Link)
  | together (number : Nat) (units : List UnitId)
  | sequential (number : Nat) (units : List UnitId)
  | tell (number : Nat) (act : Act)
  | tick (number : Nat) (delta : Span)
  | report (number : Nat) (report : Report)
  | serve (number : Nat)
  | meanwhile (change : Stage → Stage)

/-- The world after something was done, or as it was if that was not done. -/
def settle {α : Type} (world : World) (done : Option (α × World)) :
    World := (done.map Prod.snd).getD world

/-- The handles that came of something, as what was asked for. -/
def entered (number : Nat) (before after : World) (tags : List (Option String × Bool)) :
    List Registration :=
  (after.handles.drop before.handles.length).zipWith
    (fun id tag => ⟨number, id, tag.1.getD id.shown, tag.2⟩) tags

theorem entered_self (number : Nat) (world : World) (tags : List (Option String × Bool)) :
    entered number world world tags = [] := by
  simp [entered]

namespace Call

/-- The world after a call. -/
def after (call : Call) (world : World) : World :=
  match call with
  | .create => world.create.2
  | .add number label performer => world.settle (world.add number label performer)
  | .nest number child label => world.settle (world.nest number child label)
  | .drop number => (world.drop number).getD world
  | .play number unit links => world.settle (world.play number unit links)
  | .tryPlay number unit links => world.settle (world.tryPlay number unit links)
  | .together number units => (world.playTogether number units).getD world
  | .sequential number units => (world.playSequentially number units).getD world
  | .tell number act => world.settle (world.act number act)
  | .tick number delta => world.settle (world.tick number delta)
  | .report number news => (world.report number news).getD world
  | .serve number => (world.serveRequests number).getD world
  | .meanwhile change => { world with stage := change world.stage }

/-- With which sequence the call registers units, and as what: under a label or their names, and
whether they are the sequence's own. -/
def asked : Call → Nat × List (Option String × Bool)
  | .add number label _ | .nest number _ label => (number, [(label, false)])
  | .play number _ links | .tryPlay number _ links =>
    (number, (links.filterMap Link.tag?).map fun tag => (some tag.1, tag.2))
  | _ => (0, [])

/-- What the call registers. -/
def registrations (call : Call) (world : World) : List Registration :=
  entered call.asked.1 world (call.after world) call.asked.2

end Call

/-- The log of these calls, and the world after them. -/
def follow : List Call → World → List Registration × World
  | [], world => ([], world)
  | call :: calls, world =>
    let rest := follow calls (call.after world)
    (call.registrations world ++ rest.1, rest.2)

/-- A sequence that the log knows and that is not in the world by itself. -/
structure Tucked (log : List Registration) (world : World) (sequence : Sequence Member) : Prop where
  filed : sequence.Filed log
  known : sequence.number < world.sequences.length
  away : world.sequence? sequence.number = none

/-- The log has the handles, which are all different, and each sequence is where it belongs. -/
structure Orderly (log : List Registration) (world : World) : Prop where
  handles : world.handles = log.map Registration.id
  unique : (log.map Registration.id).Nodup
  owner : ∀ entry ∈ log, entry.id.owner = entry.issuer
  known : ∀ entry ∈ log, entry.issuer < world.sequences.length
  own : ∀ number sequence, world.sequence? number = some sequence →
    sequence.number = number ∧ sequence.Filed log
  nested : ∀ number sequence, world.sequence? number = some sequence →
    sequence.registry.Fits (Member.All (world.Tucked log))

section

variable {log : List Registration} {world : World} {number : Nat} {sequence : Sequence Member}

theorem length_of_sequence? (there : world.sequence? number = some sequence) :
    number < world.sequences.length := by
  rw [sequence?] at there
  by_contra outside
  simp [List.getElem?_eq_none (Nat.le_of_not_lt outside)] at there

theorem sequence?_set (there : number < world.sequences.length) (now : Option (Sequence Member))
    (stage : Stage) (handles : List UnitId) (other : Nat) :
    (⟨stage, world.sequences.set number now, handles⟩ : World).sequence? other =
      if other = number then now else world.sequence? other := by
  simp only [sequence?, List.getElem?_set]
  by_cases same : other = number
  · simp [same, there]
  · simp [same, Ne.symm same]

theorem Tucked.append {new : List Registration} {after : World} (tucked : world.Tucked log sequence)
    (others : ∀ entry ∈ new, entry.issuer ≠ sequence.number)
    (length : world.sequences.length ≤ after.sequences.length)
    (away : after.sequence? sequence.number = world.sequence? sequence.number) :
    after.Tucked (log ++ new) sequence :=
  ⟨tucked.filed.append others, tucked.known.trans_le length, away.trans tucked.away⟩

theorem Tucked.drop (tucked : world.Tucked log sequence) (there : number < world.sequences.length) :
    Tucked log { world with sequences := world.sequences.set number none } sequence := by
  refine ⟨tucked.filed, by simpa using tucked.known, ?_⟩
  rw [sequence?_set there]
  split
  · rfl
  · exact tucked.away

namespace Orderly

theorem onStage (orderly : world.Orderly log) (stage : Stage) : { world with stage }.Orderly log :=
  ⟨orderly.handles, orderly.unique, orderly.owner, orderly.known, orderly.own,
    fun number sequence there =>
    fun id member known => (orderly.nested number sequence there id member known).mono
      fun _ tucked => ⟨tucked.filed, tucked.known, tucked.away⟩⟩

theorem void : World.void.Orderly [] := by
  have none : ∀ number, World.void.sequence? number = none := fun number => by
    simp [World.void, sequence?]
  refine ⟨rfl, List.nodup_nil, by simp, by simp, fun number sequence there => ?_,
    fun number sequence there => ?_⟩ <;>
    rw [none] at there <;> cases there

theorem create (orderly : world.Orderly log) : world.create.2.Orderly log := by
  have at' : ∀ other, world.create.2.sequence? other =
      if other = world.sequences.length then some (.empty world.sequences.length)
      else world.sequence? other := by
    intro other
    simp only [World.create, sequence?, List.getElem?_append]
    rcases Nat.lt_trichotomy other world.sequences.length with less | same | more
    · simp [less, less.ne]
    · simp [same]
    · simp [more.not_gt, more.ne', Nat.sub_ne_zero_of_lt more]
  have length : world.create.2.sequences.length = world.sequences.length + 1 := by
    simp [World.create]
  refine ⟨orderly.handles, orderly.unique, orderly.owner,
    fun entry member => ?_, fun other sequence there => ?_, fun other sequence there => ?_⟩
  · rw [length]
    exact (orderly.known entry member).trans (Nat.lt_succ_self _)
  · rw [at'] at there
    split at there
    · rename_i new
      cases there
      refine ⟨new.symm, Sequence.grounded_empty _, ⟨[], rfl⟩, ?_⟩
      have none : log.filter (·.issuer = world.sequences.length) = [] := by
        simpa using fun entry member => (orderly.known entry member).ne
      exact none
    · exact orderly.own other sequence there
  · rw [at'] at there
    split at there
    · cases there
      exact Sequence.fits_empty _ _
    · intro id member known
      refine (orderly.nested other sequence there id member known).mono fun inner tucked => ?_
      exact ⟨tucked.filed, length ▸ tucked.known.trans (Nat.lt_succ_self _),
        by rw [at', if_neg tucked.known.ne, tucked.away]⟩

theorem drop (orderly : world.Orderly log) (there : number < world.sequences.length) :
    { world with sequences := world.sequences.set number none }.Orderly log := by
  have fewer : ∀ other sequence, (⟨world.stage, world.sequences.set number none, world.handles⟩ :
      World).sequence? other = some sequence → world.sequence? other = some sequence := by
    intro other sequence here
    rw [sequence?_set there] at here
    split at here
    · cases here
    · exact here
  refine ⟨orderly.handles, orderly.unique, orderly.owner, by simpa using orderly.known,
    fun other sequence here => orderly.own other sequence (fewer other sequence here),
    fun other sequence here id member known => ?_⟩
  exact (orderly.nested other sequence (fewer other sequence here) id member known).mono
    fun inner tucked => tucked.drop there

theorem put (orderly : world.Orderly log) (there : world.sequence? number = some sequence)
    (live : Live Member) (more : List (String × Bool)) (grounded : live.sequence.Grounded)
    (reached : live.sequence.conductor.Reachable) (same : live.sequence.number = number)
    (tags : live.sequence.registry.tags = sequence.registry.tags ++ more)
    (fits : live.sequence.registry.Fits (Member.All (world.Tucked log))) :
    let new := file number sequence.registry.slots.size more
    Orderly (log ++ new) ⟨live.stage, world.sequences.set number (some live.sequence),
      world.handles ++ new.map Registration.id⟩ := by
  intro new
  have inside := length_of_sequence? there
  obtain ⟨numbered, filed⟩ := orderly.own number sequence there
  have at' : ∀ other, (⟨live.stage, world.sequences.set number (some live.sequence),
      world.handles ++ new.map Registration.id⟩ : World).sequence? other =
        if other = number then some live.sequence else world.sequence? other :=
    sequence?_set inside _ _ _
  have issued : ∀ entry ∈ new, entry.issuer = number ∧ entry.id.owner = number :=
    fun entry member => issuer_of_mem_file member
  have all : new.filter (·.issuer = number) = new :=
    List.filter_eq_self.2 fun entry member => by simpa using (issued entry member).1
  have full : (log ++ new).filter (·.issuer = number) =
      file number 0 live.sequence.registry.tags := by
    have before := filed.filed
    rw [numbered] at before
    rw [List.filter_append, before, all, tags, file_append, Nat.zero_add, Registry.length_tags]
  -- those within any sequence have other numbers than this one, which is in the world
  have stay : ∀ inner, world.Tucked log inner → Tucked (log ++ new) ⟨live.stage,
      world.sequences.set number (some live.sequence),
      world.handles ++ new.map Registration.id⟩ inner := by
    intro inner tucked
    have apart : inner.number ≠ number := by
      intro same
      have gone := tucked.away
      rw [same, there] at gone
      cases gone
    exact tucked.append (fun entry member => (issued entry member).1.trans_ne apart.symm)
      (by simp) ((at' _).trans (if_neg apart))
  refine ⟨?_, ?_, fun entry member => ?_, fun entry member => ?_, fun other inner here => ?_,
    fun other inner here id member known => ?_⟩
  · simp [orderly.handles]
  · rw [List.map_append]
    refine List.nodup_append.2
      ⟨orderly.unique, nodup_file .., fun id earlier other late same' => ?_⟩
    obtain ⟨old, member, rfl⟩ := List.mem_map.1 earlier
    -- an old name of the same owner is one of those before the new ones
    obtain ⟨entry, added, rfl⟩ := List.mem_map.1 late
    have owned : old.issuer = number :=
      (orderly.owner old member).symm.trans (same' ▸ (issued entry added).2)
    have apart := nodup_file number 0 live.sequence.registry.tags
    rw [← full, List.filter_append, all, List.map_append] at apart
    have among : old ∈ log.filter (·.issuer = number) :=
      List.mem_filter.2 ⟨member, by simpa using owned⟩
    exact (List.nodup_append.1 apart).2.2 old.id (List.mem_map_of_mem among) entry.id
      (List.mem_map_of_mem added) same'
  · rcases List.mem_append.1 member with earlier | late
    · exact orderly.owner entry earlier
    · exact (issued entry late).2.trans (issued entry late).1.symm
  · rw [List.length_set]
    rcases List.mem_append.1 member with earlier | late
    · exact orderly.known entry earlier
    · rw [(issued entry late).1]
      exact inside
  · rw [at'] at here
    split at here
    · rename_i own
      cases here
      exact ⟨same.trans own.symm, grounded, reached, by rw [same, full]⟩
    · rename_i apart
      obtain ⟨known, filed⟩ := orderly.own other inner here
      exact ⟨known, filed.append fun entry member =>
        (issued entry member).1.trans_ne (known ▸ Ne.symm apart)⟩
  · rw [at'] at here
    split at here
    · cases here
      exact (fits id member known).mono stay
    · exact (orderly.nested other inner here id member known).mono stay

theorem moved (orderly : world.Orderly log) (there : world.sequence? number = some sequence)
    {depth : Nat} {next : Live Member} {story : List Happening}
    (moves : Live.Moves (Member.behaviour depth) ⟨sequence, world.stage⟩ story next) :
    (world.put number next).Orderly log := by
  obtain ⟨numbered, filed⟩ := orderly.own number sequence there
  have lasting : Member.Lasting (world.Tucked log) := by
    intro depth live next story move tucked
    obtain ⟨filed, known, away⟩ := Member.lasting_filed log
      (fun number => number < world.sequences.length ∧ world.sequence? number = none) move
      ⟨tucked.filed, tucked.known, tucked.away⟩
    exact ⟨filed, known, away⟩
  have reached := moves.reached (filed.live world.stage)
  obtain ⟨same, tags⟩ := moves.setting (Member.behaviour depth).throughout_tags
  have fits := moves.setting (lasting.retains depth).throughout
    (orderly.nested number sequence there)
  have put := orderly.put there next [] reached.grounded reached.conductor
    (Eq.trans same numbered) (tags.trans (List.append_nil _).symm) fits
  simp only [file, List.zipIdx_nil, List.map_nil, List.append_nil] at put
  exact put

theorem perform {α : Type} (orderly : world.Orderly log) (number : Nat)
    {deed : Behaviour Member → Live Member → α × Live Member}
    (moves : ∀ live, ∃ story, Live.Moves world.behaviour live story (deed world.behaviour live).2) :
    (world.settle (world.perform number deed)).Orderly log := by
  rw [World.perform]
  cases there : world.sequence? number with
  | none => exact orderly
  | some sequence =>
    obtain ⟨story, moved⟩ := moves ⟨sequence, world.stage⟩
    exact orderly.moved there moved

theorem extended (orderly : world.Orderly log) (there : world.sequence? number = some sequence)
    {next : Sequence Member} (grounded : next.Grounded)
    (extended : Sequence.Extended Member.timer sequence next) (more : List (String × Bool))
    (tags : next.registry.tags = sequence.registry.tags ++ more) :
    let new := file number sequence.registry.slots.size more
    Orderly (log ++ new) ⟨world.stage, world.sequences.set number (some next),
      world.handles ++ new.map Registration.id⟩ := by
  obtain ⟨numbered, filed⟩ := orderly.own number sequence there
  refine orderly.put there ⟨next, world.stage⟩ more grounded (extended.reachable filed.reached)
    (Eq.trans extended.owner numbered) tags fun id member known => ?_
  rcases extended.made id member known with earlier | ⟨-, delay, rfl⟩
  · exact orderly.nested number sequence there id member earlier
  · trivial

theorem edit (orderly : world.Orderly log) (number : Nat)
    {change : Sequence Member → Sequence Member}
    (changes : ∀ sequence, sequence.Grounded → (change sequence).Grounded ∧
      Sequence.Extended Member.timer sequence (change sequence))
    (same : ∀ sequence, (change sequence).registry = sequence.registry) :
    (world.settle (world.edit number fun sequence => ((), change sequence))).Orderly log := by
  rw [World.edit, World.perform]
  cases there : world.sequence? number with
  | none => exact orderly
  | some sequence =>
    obtain ⟨numbered, filed⟩ := orderly.own number sequence there
    obtain ⟨grounded, extended⟩ := changes sequence filed.grounded
    have done := orderly.extended there grounded extended []
      (same sequence ▸ (List.append_nil _).symm)
    simp only [file, List.zipIdx_nil, List.map_nil, List.append_nil] at done
    exact done

theorem enter (orderly : world.Orderly log) (number : Nat) (label : Option String) (member : Member)
    (all : member.All (world.Tucked log)) :
    let after := world.settle (world.enter number label member)
    after.Orderly (log ++ entered number world after [(label, false)]) := by
  rw [World.enter, World.edit, World.perform]
  cases there : world.sequence? number with
  | none =>
    intro after
    rw [show after = world from rfl, entered_self, List.append_nil]
    exact orderly
  | some sequence =>
    obtain ⟨numbered, filed⟩ := orderly.own number sequence there
    let slot : Slot Member := ⟨label.getD sequence.registry.nextId.shown, false, member⟩
    have put := orderly.put there ⟨sequence.engage slot, world.stage⟩ [(slot.label, false)]
      (filed.grounded.engage slot)
      filed.reached numbered (sequence.registry.tags_push slot) fun id unit known => by
        rw [Sequence.get?_engage] at known
        split at known
        · cases known
          exact all
        · exact orderly.nested number sequence there id unit known
    have next : sequence.registry.nextId = ⟨number, sequence.registry.slots.size⟩ := by
      rw [Registry.nextId, show sequence.registry.owner = number from numbered]
    simpa [World.settle, World.put, entered, file, slot, next, Sequence.engage, Sequence.add,
      Registry.insert] using put

theorem nest (orderly : world.Orderly log) (number child : Nat) (label : Option String) :
    let after := world.settle (world.nest number child label)
    after.Orderly (log ++ entered number world after [(label, false)]) := by
  have unchanged : world.Orderly (log ++ entered number world world [(label, false)]) := by
    rw [entered_self, List.append_nil]
    exact orderly
  rw [World.nest]
  split
  · exact unchanged
  · split
    · exact unchanged
    · rename_i apart sequence there
      have inside := length_of_sequence? there
      obtain ⟨numbered, filed⟩ := orderly.own child sequence there
      let emptied : World := { world with sequences := world.sequences.set child none }
      have gone : emptied.sequence? child = none :=
        (sequence?_set inside none _ _ child).trans (if_pos rfl)
      have without : emptied.Orderly log := orderly.drop inside
      have all : (Member.ensemble (some (world.watchName label)) sequence).All
          (emptied.Tucked log) := by
        refine Sequence.all_iff.2
          ⟨⟨filed, by simpa [emptied, numbered] using inside, numbered ▸ gone⟩, ?_⟩
        exact fun id member known =>
          (orderly.nested child sequence there id member known).mono fun inner tucked =>
            tucked.drop inside
      have entered := without.enter number label _ all
      cases reply :
        emptied.enter number label (.ensemble (some (world.watchName label)) sequence) with
      | none => exact unchanged
      | some done =>
        rw [reply] at entered
        exact entered

theorem entered_of_file {before after : World} {start : Nat} {tags : List (String × Bool)}
    (handles : after.handles = before.handles ++ (file number start tags).map Registration.id) :
    entered number before after (tags.map fun tag => (some tag.1, tag.2)) =
      file number start tags := by
  rw [entered, handles, List.drop_left]
  refine List.ext_getElem (by simp [file]) fun k _ _ => ?_
  simp [file]

theorem play (orderly : world.Orderly log) (number : Nat) (unit : Option UnitId)
    (links : List Link) :
    let after := world.settle (world.play number unit links)
    after.Orderly (log ++ entered number world after
      ((links.filterMap Link.tag?).map fun tag => (some tag.1, tag.2))) := by
  rw [World.play, World.edit, World.perform]
  cases there : world.sequence? number with
  | none =>
    intro after
    rw [show after = world from rfl, entered_self, List.append_nil]
    exact orderly
  | some sequence =>
    intro after
    obtain ⟨numbered, filed⟩ := orderly.own number sequence there
    obtain ⟨grounded, extended⟩ := filed.grounded.playWith Member.timer unit links
    let next := sequence.playWith Member.timer unit links
    let more := if (sequence.play unit).1.anchor.isSome then links.filterMap Link.tag? else []
    have tags : next.registry.tags = sequence.registry.tags ++ more := Sequence.tags_playWith ..
    have made : next.registry.slots.size - sequence.registry.slots.size = more.length := by
      rw [← Registry.length_tags, ← Registry.length_tags, tags, List.length_append,
        Nat.add_sub_cancel_left]
    have handles : after.handles =
        world.handles ++ (file number sequence.registry.slots.size more).map Registration.id := by
      rw [ids_file, ← made, ← show sequence.registry.owner = number from numbered]
      rfl
    have done := orderly.extended there grounded extended more tags
    have new : entered number world after
        ((links.filterMap Link.tag?).map fun tag => (some tag.1, tag.2)) =
        file number sequence.registry.slots.size more := by
      by_cases anchored : (sequence.play unit).1.anchor.isSome = true
      · have all : more = links.filterMap Link.tag? := if_pos anchored
        rw [← all]
        exact entered_of_file handles
      · have none : more = [] := if_neg anchored
        rw [none] at handles ⊢
        simp [entered, handles, file]
    rw [new, show after = ⟨world.stage, world.sequences.set number (some next), after.handles⟩
      from rfl, handles]
    exact done

end Orderly

/-- A call leaves the world in order, and the log with what it registered. -/
theorem Orderly.after (orderly : world.Orderly log) (call : Call) :
    (call.after world).Orderly (log ++ call.registrations world) := by
  have quiet : ∀ after, Orderly log after → after.Orderly (log ++ entered 0 world after []) := by
    intro after kept
    rw [entered, List.zipWith_nil_right, List.append_nil]
    exact kept
  cases call with
  | create => exact quiet _ orderly.create
  | add number label performer =>
    exact orderly.enter number label (.performer _ _) trivial
  | nest number child label => exact orderly.nest number child label
  | drop number =>
    refine quiet _ ?_
    simp only [Call.after, World.drop]
    cases there : world.sequence? number with
    | none => exact orderly
    | some sequence => exact orderly.drop (length_of_sequence? there)
  | play number unit links => exact orderly.play number unit links
  | tryPlay number unit links =>
    have played := orderly.play number (some unit) links
    have unchanged : Orderly (log ++ entered number world world
        ((links.filterMap Link.tag?).map fun tag => (some tag.1, tag.2))) world := by
      rw [entered_self, List.append_nil]
      exact orderly
    simp only [Call.registrations, Call.after, Call.asked, World.tryPlay]
    cases there : world.sequence? number with
    | none => exact unchanged
    | some sequence =>
      rw [Option.bind_some]
      split
      · cases reply : world.play number (some unit) links with
        | none => exact unchanged
        | some done =>
          rw [reply] at played
          exact played
      · exact unchanged
  | together number units =>
    exact quiet _ (orderly.edit number (fun sequence grounded => grounded.playTogether Member.timer
      units) fun sequence => sequence.registry_playTogether Member.timer units)
  | sequential number units =>
    exact quiet _ (orderly.edit number (fun sequence grounded => grounded.playSequentially
      Member.timer units) fun sequence => sequence.registry_playSequentially Member.timer units)
  | tell number act =>
    refine quiet _ (orderly.perform number fun live => ?_)
    cases act with
    | start => exact ⟨_, Live.moves_onCue world.behaviour live .start rfl⟩
    | finish => exact ⟨_, Live.moves_onCue world.behaviour live .finish rfl⟩
    | cancel => exact ⟨_, Live.moves_onCue world.behaviour live .cancel rfl⟩
  | tick number delta =>
    exact quiet _ (orderly.perform number fun live =>
      ⟨_, Live.moves_onCue world.behaviour live (.tick delta) rfl⟩)
  | report number report =>
    exact quiet _
      (orderly.perform number fun live => ⟨_, Live.moves_report world.behaviour live report⟩)
  | serve number =>
    exact quiet _
      (orderly.perform number fun live => ⟨_, Live.moves_publish world.behaviour live []⟩)
  | meanwhile change => exact quiet _ (orderly.onStage _)

theorem Orderly.follow (orderly : world.Orderly log) (calls : List Call) :
    (World.follow calls world).2.Orderly (log ++ (World.follow calls world).1) := by
  induction calls generalizing log world with
  | nil =>
    rw [World.follow, List.append_nil]
    exact orderly
  | cons call calls ih =>
    rw [World.follow, ← List.append_assoc]
    exact ih (orderly.after call)

end

end World

end Choreo
