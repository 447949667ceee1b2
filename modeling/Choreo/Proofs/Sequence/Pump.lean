import Mathlib.Data.Prod.Lex
import Mathlib.Logic.Relation
import Choreo.Proofs.Sequence.Roll

/-!
# The pump of reports

A sequence looks at its reports one after the other, and each of them may lead to calls whose
reports come to the end of the queue. Such a call uses up a subscription, and subscriptions are only
made when a run begins, so the pump comes to its end, whatever units report and however much. For
the same reason no unit is told to start twice in a run.
-/

namespace Choreo

variable {U : Type}

namespace Live

variable (b : Behaviour U)

/-- Looks at one report, if there is any. -/
def pump (live : Live U) : Option (Live U) :=
  match live.sequence.queue with
  | [] => none
  | report :: rest => some (live.heed b report rest).2

/-- What is left to be done at most: subscriptions, and then reports. -/
def burden (live : Live U) : Nat × Nat := (live.conductor.awaiting, live.sequence.queue.length)

variable {b}

theorem burden_pump {live next : Live U} (pumped : live.pump b = some next) :
    Prod.Lex (· < ·) (· < ·) next.burden live.burden := by
  rw [pump] at pumped
  split at pumped
  · cases pumped
  · rename_i report rest queue
    cases pumped
    rcases live.awaiting_heed b report rest with less | ⟨le, same⟩
    · exact .left _ _ less
    · rcases Nat.lt_or_eq_of_le le with less | equal
      · exact .left _ _ less
      · rw [burden, burden, equal, same, queue]
        exact .right _ (Nat.lt_succ_self _)

theorem wellFounded_pump : WellFounded fun next live : Live U => live.pump b = some next :=
  Subrelation.wf (fun pumped => burden_pump pumped)
    (InvImage.wf burden (Prod.lex Nat.lt_wfRel Nat.lt_wfRel).wf)

theorem pump_drain (live : Live U) :
    Relation.ReflTransGen (fun now next : Live U => now.pump b = some next) live (live.drain b).2 ∧
      (live.drain b).2.sequence.queue = [] := by
  refine ⟨?_, live.queue_drain b⟩
  induction live using Live.drain.induct b with
  | case1 live none =>
    rw [drain_of_nil b none]
  | case2 live report rest queue done =>
    rename_i ih
    rw [drain_of_cons b queue]
    refine .head ?_ ih
    simp only [pump, queue]
    rfl

/-- Whatever the units report, also what they should not, and whatever is in the queue, looking at
one report after the other comes to an end: each look leaves fewer subscriptions, or as many and
fewer reports. And whatever is asked of a sequence, with whatever reports in its queue, between two
ends of a run it tells no unit to start twice. -/
theorem pump_ends (b : Behaviour U) :
    (∀ live next : Live U, live.pump b = some next →
      Prod.Lex (· < ·) (· < ·) next.burden live.burden) ∧
    (WellFounded fun next live : Live U => live.pump b = some next) ∧
    (∀ live : Live U,
      Relation.ReflTransGen (fun now next : Live U => now.pump b = some next) live
      (live.drain b).2 ∧
        (live.drain b).2.sequence.queue = []) ∧
    ∀ number stage before queue cues,
      let first : Live U := ⟨.empty number, stage⟩
      let live := (first.rehearse b before).2
      ∀ part, part <:+: (live.conducted live.conductor queue).rehearseStory b cues →
        .announced .ended ∉ part → ∀ unit, (Happening.summons part).count unit ≤ 1 := by
  refine ⟨fun _ _ => burden_pump, wellFounded_pump, pump_drain,
    fun number stage before queue cues => ?_⟩
  intro first live part within going unit
  have reached : live.Reached := (reached_empty number stage).rehearse before
  have ready : (live.conducted live.conductor queue).Reached :=
    ⟨⟨reached.grounded.sound, reached.grounded.registered⟩, reached.conductor⟩
  exact List.nodup_iff_count_le_one.1 (summons_within ready within going) unit

end Live

/-- Units that break their word: when they are told to start they report an end, a start and an end
again. -/
def hasty : Behaviour Unit where
  act act _ stage := (if act = .start then [.ended, .started, .ended] else [], (), stage)
  tick _ _ stage := (.ok [.started, .ended], (), stage)
  running _ := false
  timer _ := ()

namespace Live

/-- Three hasty units play one after the other. What they report of their first run is all in the
queue when the sequence is started. -/
theorem pump_ends_hasty :
    let units := [⟨0, 0⟩, ⟨0, 1⟩, ⟨0, 2⟩]
    let live := (Live.rehearse hasty [.add none (), .add none (), .add none (), .sequential units]
      ⟨.empty 0, Stage.bare⟩).2
    let reported := live.conducted live.conductor (units.map (⟨·, .ended⟩))
    let story := reported.rehearseStory hasty [.start, .start]
    let run := story.takeWhile fun happening => happening.announcement? ≠ some .ended
    Happening.summons story = units ++ units ∧ ∀ unit, (Happening.summons run).count unit ≤ 1 := by
  intro units live reported story run
  have once := (pump_ends hasty).2.2.2 0 Stage.bare
    [.add none (), .add none (), .add none (), .sequential units] (units.map (⟨·, .ended⟩))
      [.start, .start]
  refine ⟨by cbv, once _ (List.takeWhile_prefix _).isInfix fun member => ?_⟩
  have going := List.all_eq_true.1 List.all_takeWhile _ member
  cases going

end Live

end Choreo
