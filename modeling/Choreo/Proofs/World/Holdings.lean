import Choreo.Proofs.Performer.Replay
import Choreo.Proofs.Sequence.Reached

/-!
# Sequences in sequences

A sequence holds itself and all that its units hold. A sequence does something to those within it
only by calling them, and when they are called they do no more than they can do by themselves. So
what the moves of a sequence keep, whatever its units are, they keep of all sequences that it holds.
-/

namespace Choreo

variable {U : Type}

/-- Calls leave a unit that fits fitting. -/
structure Behaviour.Retains (b : Behaviour U) (fit : U → Prop) : Prop where
  act : ∀ act unit stage, fit unit → fit (b.act act unit stage).2.1
  tick : ∀ delta unit stage, fit unit → fit (b.tick delta unit stage).2.1

theorem Behaviour.Retains.throughout {b : Behaviour U} {fit : U → Prop} (retains : b.Retains fit) :
    b.Throughout fun before after => before.1.Fits fit → after.1.Fits fit :=
  ⟨⟨fun _ fits => fits, fun one two fits => two (one fits),
    fun act id unit _ stage known fits =>
      (fits.update known (retains.act act unit stage (fits id unit known))).fits,
    fun delta id unit _ stage known fits =>
      (fits.update known (retains.tick delta unit stage (fits id unit known))).fits⟩,
    fun _ _ _ fits => fits, fun _ fits => fits⟩

namespace Sequence

/-- The sequence itself, or one that a unit of it is or holds. -/
inductive Holds : Sequence Member → Sequence Member → Prop where
  | self (sequence : Sequence Member) : Holds sequence sequence
  | unit {outer nested inner : Sequence Member} {id : UnitId} {watch : Option String}
    (known : outer.registry.get? id = some (.ensemble watch nested)) (held : Holds nested inner) :
    Holds outer inner

theorem Holds.trans {outer middle inner : Sequence Member} (one : outer.Holds middle)
    (two : middle.Holds inner) : outer.Holds inner := by
  induction one with
  | self => exact two
  | unit known _ ih => exact .unit known (ih two)

/-- All that the sequence holds is so. -/
def All (so : Sequence Member → Prop) (sequence : Sequence Member) : Prop :=
  ∀ inner, sequence.Holds inner → so inner

end Sequence

namespace Member

/-- All that the member holds is so. -/
def All (so : Sequence Member → Prop) : Member → Prop
  | .performer .. => True
  | .ensemble _ sequence => sequence.All so

end Member

namespace Sequence

variable {so other : Sequence Member → Prop} {sequence : Sequence Member}

theorem all_iff : sequence.All so ↔ so sequence ∧ sequence.registry.Fits (Member.All so) := by
  refine ⟨fun all => ⟨all _ (.self _), fun id member known => ?_⟩,
    fun ⟨own, units⟩ inner held => ?_⟩
  · cases member with
    | performer => trivial
    | ensemble watch nested => exact fun inner held => all inner (.unit known held)
  · cases held with
    | self => exact own
    | unit known held => exact units _ _ known inner held

theorem All.mono (all : sequence.All so) (weaker : ∀ inner, so inner → other inner) :
    sequence.All other :=
  fun inner held => weaker inner (all inner held)

theorem fits_empty (number : Nat) (fit : Member → Prop) : (empty number).registry.Fits fit := by
  intro id member known
  simp [empty, Registry.get?, Registry.slot?, Registry.empty] at known

end Sequence

theorem Member.All.mono {so other : Sequence Member → Prop} {member : Member} (all : member.All so)
    (weaker : ∀ inner, so inner → other inner) : member.All other := by
  cases member with
  | performer => trivial
  | ensemble watch sequence => exact Sequence.All.mono all weaker

namespace Member

/-- What is kept by every move of a sequence, however deep others are nested in it. -/
def Lasting (so : Sequence Member → Prop) : Prop :=
  ∀ {depth : Nat} {live next : Live Member} {story : List Happening},
    Live.Move (behaviour depth) live story next → so live.sequence → so next.sequence

theorem moves_conduct (inner : Behaviour Member) (act : Act) (watch : Option String)
    (sequence : Sequence Member) (stage : Stage) : ∃ (called : Stage) (story : List Happening)
      (next : Live Member), Live.Moves inner ⟨sequence, called⟩ story next ∧
        (conduct inner act watch sequence stage).2.1 = .ensemble watch next.sequence := by
  refine ⟨logCall watch (Line.told · act) stage, _, _, Live.moves_respond inner _ act, ?_⟩
  rw [conduct, Live.actAsUnit_eq]

theorem moves_conductTick (inner : Behaviour Member) (delta : Span) (watch : Option String)
    (sequence : Sequence Member) (stage : Stage) : ∃ (called : Stage) (story : List Happening)
      (next : Live Member), Live.Moves inner ⟨sequence, called⟩ story next ∧
        (conductTick inner delta watch sequence stage).2.1 = .ensemble watch next.sequence := by
  refine ⟨logCall watch Line.ticked stage, _, _, Live.moves_tick inner _ delta, ?_⟩
  rw [conductTick]
  split <;> rename_i same <;> rw [same]

variable {so : Sequence Member → Prop}

theorem Lasting.moves_of_retains (lasting : Lasting so)
    {depth : Nat} (retains : (behaviour depth).Retains (All so)) {live next : Live Member}
    {story : List Happening} (moves : Live.Moves (behaviour depth) live story next)
    (all : live.sequence.All so) :
    next.sequence.All so := by
  induction moves with
  | nil => exact all
  | cons now _ ih =>
    obtain ⟨own, units⟩ := Sequence.all_iff.1 all
    exact ih (Sequence.all_iff.2 ⟨lasting now own, now.setting retains.throughout units⟩)

theorem Lasting.retains (lasting : Lasting so) (depth : Nat) :
    (behaviour depth).Retains (All so) := by
  have performer : ∀ depth act watch p (stage : Stage),
      ((behaviour depth).act act (.performer watch p) stage).2.1.All so := by
    intro depth act watch p stage
    rw [act_performer]
    trivial
  have passes : ∀ depth delta watch p (stage : Stage),
      ((behaviour depth).tick delta (.performer watch p) stage).2.1.All so := by
    intro depth delta watch p stage
    rw [tick_performer]
    trivial
  induction depth with
  | zero =>
    refine ⟨fun act unit stage all => ?_, fun delta unit stage all => ?_⟩ <;> cases unit
    · exact performer 0 act _ _ stage
    · exact all
    · exact passes 0 delta _ _ stage
    · exact all
  | succ depth ih =>
    refine ⟨fun act unit stage all => ?_, fun delta unit stage all => ?_⟩ <;> cases unit
    · exact performer (depth + 1) act _ _ stage
    · rename_i watch sequence
      obtain ⟨called, story, next, moves, same⟩ :=
        moves_conduct (behaviour depth) act watch sequence stage
      have kept : (conduct (behaviour depth) act watch sequence stage).2.1.All so := by
        rw [same]
        exact lasting.moves_of_retains ih moves all
      exact kept
    · exact passes (depth + 1) delta _ _ stage
    · rename_i watch sequence
      obtain ⟨called, story, next, moves, same⟩ :=
        moves_conductTick (behaviour depth) delta watch sequence stage
      have kept : (conductTick (behaviour depth) delta watch sequence stage).2.1.All so := by
        rw [same]
        exact lasting.moves_of_retains ih moves all
      exact kept

theorem Lasting.moves (lasting : Lasting so) {depth : Nat} {live next : Live Member}
    {story : List Happening} (moves : Live.Moves (behaviour depth) live story next)
    (all : live.sequence.All so) : next.sequence.All so :=
  lasting.moves_of_retains (lasting.retains depth) moves all

end Member

end Choreo
