import Choreo.Proofs.Run.History
import Choreo.Proofs.Sequence.Conducting
import Choreo.Proofs.Sequence.Edits

/-!
# Units that keep their word

A dutiful unit that is started owes one end. It pays by reporting its end, and runs until then; a
unit that is told to stop stops, whether it says so or not. While a run goes on, the units that play
are therefore those that run or whose end is in the queue, and each of them owes exactly one end.
This balance holds from report to report, through every chain of starts that one report sets off. It
may be kept for some of the units only, whatever the others do, and it may need stages of a certain
kind.
-/

namespace Choreo

variable {U : Type}

/-- Units that fit answer a start with what they owe for it, and stop when they are told to. -/
structure Behaviour.Dutiful (b : Behaviour U) (fit : U → Prop) : Prop where
  timer : ∀ delay, fit (b.timer delay) ∧ b.running (b.timer delay) = false
  act_fit : ∀ act unit stage, fit unit → fit (b.act act unit stage).2.1
  tick_fit : ∀ delta unit stage, fit unit → fit (b.tick delta unit stage).2.1
  start : ∀ unit stage, fit unit → b.running unit = false →
    (b.act .start unit stage).1.count .ended + (b.running (b.act .start unit stage).2.1).toNat = 1
  stop : ∀ act unit stage, fit unit → act ≠ .start → b.running (b.act act unit stage).2.1 = false
  tick : ∀ delta unit stage events, fit unit → (b.tick delta unit stage).1 = .ok events →
    events.count .ended + (b.running (b.tick delta unit stage).2.1).toNat = (b.running unit).toNat

/-- What is relied on: units that fit, those of them whose ends are counted, and the stages on which
they keep their word. -/
structure Terms (U : Type) where
  fit : U → Prop
  counts : U → Prop
  stages : Stage → Prop

/-- Every unit counts, on any stage. -/
def Terms.all (fit : U → Prop) : Terms U := ⟨fit, fun _ => True, fun _ => True⟩

/-- Units that fit go on fitting when they are called, and leave the stage one of that kind. Those
that count answer a start with what they owe for it, and stop when they are told to. -/
structure Behaviour.Honors (b : Behaviour U) (terms : Terms U) : Prop where
  timer : ∀ delay, terms.fit (b.timer delay) ∧
    (terms.counts (b.timer delay) → b.running (b.timer delay) = false)
  deliver : ∀ number events stage, terms.stages stage →
    terms.stages (stage.announceAll number events)
  take : ∀ {number act stage after}, stage.nextRequest? number = some (act, after) →
    terms.stages stage → terms.stages after
  act : ∀ act unit stage, terms.fit unit → terms.stages stage →
    terms.fit (b.act act unit stage).2.1 ∧ terms.stages (b.act act unit stage).2.2
  act_counts : ∀ act unit stage, terms.counts (b.act act unit stage).2.1 → terms.counts unit
  start : ∀ unit stage, terms.fit unit → terms.stages stage → terms.counts unit →
    b.running unit = false →
    (b.act .start unit stage).1.count .ended + (b.running (b.act .start unit stage).2.1).toNat = 1
  stop : ∀ act unit stage, terms.fit unit → terms.stages stage → terms.counts unit → act ≠ .start →
    b.running (b.act act unit stage).2.1 = false
  tick : ∀ delta unit stage events, terms.fit unit → terms.stages stage →
    (b.tick delta unit stage).1 = .ok events →
    terms.fit (b.tick delta unit stage).2.1 ∧ terms.stages (b.tick delta unit stage).2.2
  tick_counts : ∀ delta unit stage, terms.counts (b.tick delta unit stage).2.1 → terms.counts unit
  settle : ∀ delta unit stage events, terms.fit unit → terms.stages stage → terms.counts unit →
    (b.tick delta unit stage).1 = .ok events →
    events.count .ended + (b.running (b.tick delta unit stage).2.1).toNat = (b.running unit).toNat

theorem Behaviour.Dutiful.honors {b : Behaviour U} {fit : U → Prop} (dutiful : b.Dutiful fit) :
    b.Honors (.all fit) where
  timer delay := ⟨(dutiful.timer delay).1, fun _ => (dutiful.timer delay).2⟩
  deliver _ _ _ _ := trivial
  take _ _ := trivial
  act act unit stage fits _ := ⟨dutiful.act_fit act unit stage fits, trivial⟩
  act_counts _ _ _ _ := trivial
  start unit stage fits _ _ := dutiful.start unit stage fits
  stop act unit stage fits _ _ := dutiful.stop act unit stage fits
  tick delta unit stage _ fits _ _ := ⟨dutiful.tick_fit delta unit stage fits, trivial⟩
  tick_counts _ _ _ _ := trivial
  settle delta unit stage events fits _ _ := dutiful.tick delta unit stage events fits

namespace Conductor

theorem enrol_fresh (units : List UnitId) {playing : Playing} (distinct : playing.units.Nodup) :
    ∃ fresh, enrol units playing = (fresh.map (Command.call .start), ⟨playing.units ++ fresh⟩) ∧
      (playing.units ++ fresh).Nodup ∧ ∀ id ∈ fresh, id ∈ units := by
  induction units generalizing playing with
  | nil => exact ⟨[], by simp [enrol], by simpa using distinct, by simp⟩
  | cons unit units ih =>
    have distinct' := Playing.nodup_insert unit distinct
    obtain ⟨fresh, same, apart, known⟩ := ih distinct'
    rw [enrol, same]
    by_cases present : playing.contains unit = true
    · have inserted : playing.insert unit = (false, playing) := by simp [Playing.insert, present]
      rw [inserted] at apart ⊢
      exact ⟨fresh, rfl, apart, fun id member => List.mem_cons_of_mem _ (known id member)⟩
    · have inserted : playing.insert unit = (true, ⟨playing.units ++ [unit]⟩) := by
        simp [Playing.insert, present]
      rw [inserted] at apart ⊢
      refine ⟨unit :: fresh, by simp, by simpa using apart, fun id member => ?_⟩
      rcases List.mem_cons.1 member with rfl | later
      · exact List.mem_cons_self ..
      · exact List.mem_cons_of_mem _ (known id later)

/-- Commands among which is no call on a unit. -/
def Idly (commands : List Command) : Prop := ∀ act unit, Command.call act unit ∉ commands

/-- A report that comes in while the run goes on starts units of the graph that do not play, and
takes the unit out that ended. -/
theorem step_fresh {conductor : Conductor} (coherent : conductor.Coherent)
    (running : conductor.phase = .running)
    (enrolled : ∀ id ∈ conductor.playing.units, id ∈ conductor.graph.nodes.map Node.unit)
    (report : Report) :
    ∃ fresh tail, (conductor.step report).1.commands = fresh.map (Command.call .start) ++ tail ∧
      Idly tail ∧ (conductor.playing.units ++ fresh).Nodup ∧
      (∀ id ∈ fresh, id ∈ conductor.graph.nodes.map Node.unit) ∧
      (conductor.step report).2.playing.units = report.without (conductor.playing.units ++ fresh) ∧
      ((conductor.step report).2.phase = .idle ∨ (conductor.step report).2.phase = .running) := by
  have active : conductor.phase ≠ .idle := by simp [running]
  cases found : conductor.graph.nodeFor? report.unit with
  | none =>
    rw [step_of_absent found]
    refine ⟨[], [], rfl, by simp [Idly], by simpa using coherent.nodup, by simp, ?_, .inr running⟩
    have absent : report.unit ∉ conductor.playing.units := fun plays =>
      Graph.nodeFor?_eq_none.1 found (enrolled _ plays)
    rw [Report.without, List.append_nil, List.erase_of_not_mem absent, ite_self]
  | some node =>
    obtain ⟨fresh, entered, distinct, known⟩ := enrol_fresh
      (conductor.graph.units (conductor.waiting.hear report.event node).1) coherent.nodup
    have absorbed := absorb_of_running report.event node conductor running
    simp only [entered] at absorbed
    have inside : ∀ id ∈ fresh, id ∈ conductor.graph.nodes.map Node.unit := by
      intro id fresher
      obtain ⟨place, -, here⟩ := List.mem_filterMap.1 (known id fresher)
      obtain ⟨holder, there, rfl⟩ := Graph.unit?_eq_some.1 here
      exact List.mem_map_of_mem (List.mem_of_getElem? there)
    rw [step_eq active found]
    by_cases ended : report.event = .ended
    · rw [ended] at absorbed
      have left := playing_leave report.unit (conductor.absorb .ended node)
      rw [absorbed] at left
      have gone : ∀ units, report.without units = units.erase report.unit := fun _ => if_pos ended
      rw [if_pos ended, absorbed, left]
      simp only [gone, leave]
      split
      · exact ⟨fresh, [.announce .ended], rfl, by simp [Idly], distinct, inside, rfl, .inl rfl⟩
      · exact ⟨fresh, [], by simp, by simp [Idly], distinct, inside, rfl, .inr running⟩
    · rw [if_neg ended, absorbed]
      exact ⟨fresh, [], by simp, by simp [Idly], distinct, inside, by simp [Report.without, ended],
        .inr running⟩

theorem step_winding {conductor : Conductor} (winding : conductor.phase ≠ .running)
    (report : Report) :
    Idly (conductor.step report).1.commands ∧ (conductor.step report).2.phase ≠ .running ∧
      ∀ id ∈ (conductor.step report).2.playing.units, id ∈ conductor.playing.units := by
  by_cases idle : conductor.phase = .idle
  · rw [step_of_idle report idle]
    exact ⟨by simp [Idly, Decision.nothing], winding, fun id plays => plays⟩
  cases found : conductor.graph.nodeFor? report.unit with
  | none =>
    rw [step_of_absent found]
    exact ⟨by simp [Idly, Decision.nothing], winding, fun id plays => plays⟩
  | some node =>
    rw [step_eq idle found, absorb_of_not_running _ _ _ winding,
      absorb_of_not_running _ _ _ winding]
    split
    · have plays := playing_leave report.unit
        ([], { conductor with waiting := (conductor.waiting.hear .ended node).2 })
      rw [plays]
      refine ⟨?_, ?_, fun id => List.mem_of_mem_erase⟩
      · simp only [leave]
        split <;> simp [Idly]
      · simp only [leave]
        split
        · simp [close]
        · exact winding
    · exact ⟨by simp [Idly], winding, fun id plays => plays⟩

end Conductor

namespace Sequence

/-- What has to be true of a sequence at any time: its units fit, and what plays is in the graph. -/
structure Sane (fit : U → Prop) (sequence : Sequence U) : Prop where
  grounded : sequence.Grounded
  coherent : sequence.conductor.Coherent
  fits : ∀ id unit, sequence.registry.get? id = some unit → fit unit
  enrolled : ∀ id ∈ sequence.conductor.playing.units, id ∈ sequence.graph.nodes.map Node.unit

/-- A unit that counts and is in the list owes one end: it runs, or its end is in the queue. The
others owe none. -/
def Balanced (b : Behaviour U) (counts : U → Prop) (plays : List UnitId)
    (sequence : Sequence U) : Prop :=
  ∀ id unit, sequence.registry.get? id = some unit → counts unit →
    sequence.queue.count ⟨id, .ended⟩ + (b.running unit).toNat = if id ∈ plays then 1 else 0

/-- No unit that counts runs. -/
def Still (b : Behaviour U) (counts : U → Prop) (sequence : Sequence U) : Prop :=
  ∀ id unit, sequence.registry.get? id = some unit → counts unit → b.running unit = false

theorem count_reports (id other : UnitId) (events : List Lifecycle) :
    (events.map (Report.mk id)).count ⟨other, .ended⟩ =
      if other = id then events.count .ended else 0 := by
  induction events with
  | nil => simp
  | cons event events ih =>
    rw [List.map_cons, List.count_cons, ih, List.count_cons]
    by_cases same : other = id
    · subst same
      simp
    · simp [same, Ne.symm same]

variable {b : Behaviour U} {fit counts : U → Prop} {sequence : Sequence U} {plays : List UnitId}
  {id : UnitId} {old : U}

theorem Sane.contains (sane : sequence.Sane fit) (plays : id ∈ sequence.conductor.playing.units) :
    sequence.registry.contains id = true :=
  sane.grounded.registered id (sane.enrolled id plays)

theorem Sane.takeBack (sane : sequence.Sane fit) (known : sequence.registry.get? id = some old)
    (events : List Lifecycle) {unit : U} (fits : fit unit) :
    (sequence.takeBack id events unit).Sane fit := by
  have after := Registry.get?_update known unit
  refine ⟨⟨sane.grounded.sound, fun other member => ?_⟩, sane.coherent, fun other now here => ?_,
    sane.enrolled⟩
  · exact (Registry.contains_update known unit other).trans (sane.grounded.registered other member)
  · rw [Sequence.takeBack, after] at here
    split at here
    · cases here
      exact fits
    · exact sane.fits other now here

theorem Balanced.takeBack (balanced : sequence.Balanced b counts plays)
    (known : sequence.registry.get? id = some old) {events : List Lifecycle} {unit : U}
    {after : List UnitId} (others : ∀ other, other ≠ id → (other ∈ after ↔ other ∈ plays))
    (own : counts unit → sequence.queue.count ⟨id, .ended⟩ +
      (events.count .ended + (b.running unit).toNat) = if id ∈ after then 1 else 0) :
    (sequence.takeBack id events unit).Balanced b counts after := by
  intro other now here counted
  rw [Sequence.takeBack, Registry.get?_update known] at here
  simp only [Sequence.takeBack, List.count_append, count_reports]
  by_cases same : other = id
  · subst same
    rw [if_pos rfl] at here ⊢
    cases here
    have account := own counted
    omega
  · rw [if_neg same] at here ⊢
    rw [Nat.add_zero, balanced other now here counted]
    simp only [others other same]

theorem Balanced.congr (balanced : sequence.Balanced b counts plays) {after : List UnitId}
    (same : ∀ id unit, sequence.registry.get? id = some unit → counts unit →
      (id ∈ after ↔ id ∈ plays)) :
    sequence.Balanced b counts after := by
  intro id unit here counted
  rw [balanced id unit here counted]
  simp only [same id unit here counted]

theorem Balanced.not_running (balanced : sequence.Balanced b counts plays)
    (known : sequence.registry.get? id = some old) (counted : counts old) (absent : id ∉ plays) :
    sequence.queue.count ⟨id, .ended⟩ = 0 ∧ b.running old = false := by
  have none := balanced id old known counted
  rw [if_neg absent, Nat.add_eq_zero_iff, Bool.toNat_eq_zero] at none
  exact none

end Sequence

namespace Live

open Sequence

variable {b : Behaviour U} {terms : Terms U} {live : Live U}

theorem execute_of_idly {commands : List Command} (idly : Conductor.Idly commands) (live : Live U) :
    (execute b commands live).2 = live :=
  execute_of_no_call b live fun ⟨act, unit, member⟩ => idly act unit member

/-- Starting units that do not play adds them to those that owe an end; those that count did
before. -/
theorem execute_starts (live : Live U) (honors : b.Honors terms) {fresh plays : List UnitId}
    {tail : List Command} (idly : Conductor.Idly tail) (sane : live.sequence.Sane terms.fit)
    (stages : terms.stages live.stage) (balanced : live.sequence.Balanced b terms.counts plays)
    (distinct : (plays ++ fresh).Nodup)
    (registered : ∀ id ∈ fresh, live.sequence.registry.contains id = true) :
    let after := (execute b (fresh.map (Command.call .start) ++ tail) live).2
    (after.sequence.Sane terms.fit ∧ terms.stages after.stage) ∧
      after.sequence.Balanced b terms.counts (plays ++ fresh) ∧
      ∀ id unit, after.sequence.registry.get? id = some unit → terms.counts unit →
        ∃ old, live.sequence.registry.get? id = some old ∧ terms.counts old := by
  induction fresh generalizing live plays with
  | nil =>
    intro after
    have same : after = live := execute_of_idly idly live
    rw [same, List.append_nil]
    exact ⟨⟨sane, stages⟩, balanced, fun id unit known counted => ⟨unit, known, counted⟩⟩
  | cons id fresh ih =>
    obtain ⟨unit, known⟩ := Registry.contains_iff.1 (registered id (List.mem_cons_self ..))
    have apart : id ∉ plays := fun member =>
      (List.nodup_append.1 distinct).2.2 id member id (List.mem_cons_self ..) rfl
    have called : live.call b .start id =
        ⟨live.sequence.takeBack id (b.act .start unit live.stage).1
          (b.act .start unit live.stage).2.1, (b.act .start unit live.stage).2.2⟩ := by
      rw [call, known]
    obtain ⟨fits, stages'⟩ := honors.act .start unit live.stage (sane.fits id unit known) stages
    have sane' : (live.call b .start id).sequence.Sane terms.fit :=
      called ▸ sane.takeBack known _ fits
    have balanced' : (live.call b .start id).sequence.Balanced b terms.counts (plays ++ [id]) := by
      rw [called]
      refine balanced.takeBack known (fun other different => by simp [different]) fun after => ?_
      have counted := honors.act_counts _ _ _ after
      obtain ⟨quiet, idle⟩ := balanced.not_running known counted apart
      simp [quiet, honors.start unit live.stage (sane.fits id unit known) stages counted idle]
    have registered' : ∀ other ∈ fresh,
        (live.call b .start id).sequence.registry.contains other = true := by
      intro other member
      rw [called]
      exact (Registry.contains_update known _ other).trans
        (registered other (List.mem_cons_of_mem _ member))
    obtain ⟨good, balance, counted⟩ := ih (live.call b .start id) sane' (called ▸ stages') balanced'
      (by simpa using distinct) registered'
    rw [List.append_assoc] at balance
    refine ⟨good, balance, fun other now here counts => ?_⟩
    obtain ⟨old, there, before⟩ := counted other now here counts
    rw [called, takeBack, Registry.get?_update known] at there
    split at there
    · rename_i same
      cases there
      exact ⟨unit, same ▸ known, honors.act_counts _ _ _ before⟩
    · exact ⟨old, there, before⟩

end Live

end Choreo
