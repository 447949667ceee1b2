import Mathlib.Data.List.Infix
import Choreo.Proofs.Run.Operations

/-!
# The bracket of a run

What is announced over any history is a run of brackets, each a start, perhaps a cancellation, and
an end, the last of which may still be open. What is missing of it can be told from the phase, and
the phase fits what plays: nothing while idle or being canceled, something while running or ending.
-/

namespace Choreo

/-- What is announced of one whole run. -/
def bracket (canceled : Bool) : List Lifecycle :=
  if canceled then [.started, .canceled, .ended] else [.started, .ended]

/-- What was announced of a run that is in this phase. -/
def Phase.opening : Phase → List Lifecycle
  | .idle => []
  | .running | .ending => [.started]
  | .canceling => [.started, .canceled]

theorem opens_bracket (phase : Phase) : ∃ canceled, phase.opening <+: bracket canceled := by
  cases phase
  · exact ⟨false, List.nil_prefix⟩
  · exact ⟨false, [.ended], rfl⟩
  · exact ⟨true, [.ended], rfl⟩
  · exact ⟨false, [.ended], rfl⟩

theorem repeated_not_mem_bracket (canceled : Bool) : .repeated ∉ bracket canceled := by
  cases canceled <;> simp [bracket]

namespace Conductor

/-- What plays, waits and is blocked fits the phase. -/
structure Coherent (conductor : Conductor) : Prop where
  nodup : conductor.playing.units.Nodup
  idle : conductor.phase = .idle → conductor.playing.units = [] ∧
    conductor.waiting.subscriptions = [] ∧ conductor.waiting.blocked = []
  running : conductor.phase = .running → conductor.playing.units ≠ []
  canceling : conductor.phase = .canceling → conductor.playing.units = []
  ending : conductor.phase = .ending → conductor.playing.units ≠ []

/-- What one decision may announce between two states, and when it closes the run. -/
structure Bracketed (before : Conductor) (done : Decision × Conductor) : Prop where
  announced : ∃ runs : List Bool, before.phase.opening ++ done.1.announced =
    runs.flatMap bracket ++ done.2.phase.opening
  closed_iff_ended : done.1.closed = true ↔ Command.announce .ended ∈ done.1.commands
  closed_iff_idle : done.1.closed = true ↔
    done.2.phase = .idle ∧ (before.phase ≠ .idle ∨ before.runs < done.2.runs)

/-- Commands that announce nothing. -/
def Silent (commands : List Command) : Prop := ∀ event, Command.announce event ∉ commands

theorem Silent.announced {commands : List Command} (silent : Silent commands) (closed : Bool) :
    (Decision.mk commands closed).announced = [] := by
  apply List.filterMap_eq_nil_iff.2
  intro command member
  cases command with
  | call act unit => rfl
  | announce event => exact absurd member (silent event)

theorem silent_calls (act : Act) (units : List UnitId) : Silent (units.map (Command.call act)) := by
  intro event member
  simp at member

theorem announced_append (commands more : List Command) (closed : Bool) :
    (Decision.mk (commands ++ more) closed).announced =
      (Decision.mk commands closed).announced ++ (Decision.mk more closed).announced :=
  List.filterMap_append

theorem silent_enrol (units : List UnitId) (playing : Playing) :
    Silent (enrol units playing).1 := by
  induction units generalizing playing with
  | nil => simp [enrol, Silent]
  | cons unit units ih =>
    intro event member
    have rest := ih (playing.insert unit).2 event
    simp only [enrol] at member
    split at member
    · exact rest (by simpa using member)
    · exact rest member

theorem prefix_units_insert (unit : UnitId) (playing : Playing) :
    playing.units <+: (playing.insert unit).2.units := by
  simp only [Playing.insert]
  split
  · exact List.prefix_rfl
  · exact List.prefix_append _ _

theorem prefix_units_enrol (units : List UnitId) (playing : Playing) :
    playing.units <+: (enrol units playing).2.units := by
  induction units generalizing playing with
  | nil => exact List.prefix_rfl
  | cons unit units ih => exact (prefix_units_insert unit playing).trans (ih _)

theorem nodup_enrol (units : List UnitId) {playing : Playing} (h : playing.units.Nodup) :
    (enrol units playing).2.units.Nodup := by
  induction units generalizing playing with
  | nil => exact h
  | cons unit units ih => exact ih (Playing.nodup_insert unit h)

theorem silent_absorb (event : Lifecycle) (node : Nat) (conductor : Conductor) :
    Silent (conductor.absorb event node).1 := by
  by_cases running : conductor.phase = .running
  · rw [absorb_of_running _ _ _ running]
    exact silent_enrol _ _
  · rw [absorb_of_not_running _ _ _ running]
    simp [Silent]

/-- Absorbing a report lets units in and none out, and only while the run goes on. -/
theorem Coherent.absorb {conductor : Conductor} (h : conductor.Coherent)
    (active : conductor.phase ≠ .idle) (event : Lifecycle) (node : Nat) :
    (conductor.absorb event node).2.Coherent := by
  by_cases running : conductor.phase = .running
  · rw [absorb_of_running _ _ _ running]
    refine ⟨nodup_enrol _ h.nodup, ?_, ?_, ?_, ?_⟩
    · exact fun idle => absurd idle active
    · intro _ none
      have before := prefix_units_enrol
        (conductor.graph.units (conductor.waiting.hear event node).1) conductor.playing
      rw [none] at before
      exact h.running running (List.prefix_nil.1 before)
    · intro canceling
      rw [running] at canceling
      cases canceling
    · intro ending
      rw [running] at ending
      cases ending
  · rw [absorb_of_not_running _ _ _ running]
    exact ⟨h.nodup, fun idle => absurd idle active, fun now => absurd now running, h.canceling,
      h.ending⟩

/-- A run closes with the last unit that leaves it. -/
theorem leave_spec {conductor : Conductor} {begun : List Command × Conductor} (unit : UnitId)
    (h : begun.2.Coherent) (active : begun.2.phase ≠ .idle) (silent : Silent begun.1)
    (phase : begun.2.phase = conductor.phase) :
    (leave unit begun).2.Coherent ∧ Bracketed conductor (leave unit begun) := by
  by_cases last : (begun.2.playing.remove unit).1 && (begun.2.playing.remove unit).2.isEmpty
  · simp only [leave, last, ↓reduceIte]
    obtain ⟨member, empty⟩ := Bool.and_eq_true_iff.1 last
    have none : (begun.2.playing.remove unit).2.units = [] := by simpa [Playing.isEmpty] using empty
    have present : begun.2.playing.units ≠ [] := by
      intro nobody
      simp [Playing.remove, Playing.contains, nobody] at member
    have going : conductor.phase = .running ∨ conductor.phase = .ending := by
      cases hphase : conductor.phase with
      | idle => exact absurd (phase.trans hphase) active
      | canceling => exact absurd (h.canceling (phase.trans hphase)) present
      | running => exact .inl rfl
      | ending => exact .inr rfl
    have opening : conductor.phase.opening = [.started] := by
      rcases going with now | now <;> rw [now] <;> rfl
    refine ⟨⟨by simp [close, none], ?_, ?_, ?_, ?_⟩, ?_, by simp, ?_⟩
    · exact fun _ => ⟨none, rfl, rfl⟩
    · simp [close]
    · simp [close]
    · simp [close]
    · refine ⟨[false], ?_⟩
      rw [announced_append, silent.announced, opening]
      rfl
    · simp only [close, true_and, true_iff]
      exact .inl (phase ▸ active)
  · simp only [leave, last]
    have stays : begun.2.playing.units ≠ [] → (begun.2.playing.remove unit).2.units ≠ [] := by
      intro present none
      by_cases member : unit ∈ begun.2.playing.units
      · refine last (Bool.and_eq_true_iff.2 ⟨?_, ?_⟩)
        · simpa [Playing.remove, Playing.contains] using member
        · simpa [Playing.isEmpty] using none
      · rw [Playing.remove, List.erase_of_not_mem member] at none
        exact present none
    refine ⟨⟨Playing.nodup_remove unit h.nodup, ?_, ?_, ?_, ?_⟩, ?_, ?_, ?_⟩
    · exact fun idle => absurd idle active
    · exact fun running => stays (h.running running)
    · intro canceling
      have nobody := h.canceling canceling
      simp [Playing.remove, nobody]
    · exact fun ending => stays (h.ending ending)
    · refine ⟨[], ?_⟩
      simp [silent.announced, ← phase]
    · simpa using silent .ended
    · simp [active]

theorem bracketed_of_silent {before : Conductor} {commands : List Command}
    {after : Conductor} (silent : Silent commands) (phase : after.phase = before.phase)
    (runs : after.runs = before.runs) :
    Bracketed before (⟨commands, false⟩, after) := by
  refine ⟨⟨[], ?_⟩, ?_, ?_⟩
  · simp [silent.announced, phase]
  · simpa using silent .ended
  · simp only [Bool.false_eq_true, phase, runs, Nat.lt_irrefl, or_false, false_iff,
      not_and_not_right, imp_self]

theorem bracketed_nothing {before after : Conductor} (phase : after.phase = before.phase)
    (runs : after.runs = before.runs) : Bracketed before (.nothing, after) :=
  bracketed_of_silent (by simp [Silent]) phase runs

theorem step_spec {conductor : Conductor} (h : conductor.Coherent) (report : Report) :
    (conductor.step report).2.Coherent ∧ Bracketed conductor (conductor.step report) := by
  by_cases idle : conductor.phase = .idle
  · rw [step_of_idle report idle]
    exact ⟨h, bracketed_nothing rfl rfl⟩
  cases found : conductor.graph.nodeFor? report.unit with
  | none =>
    rw [step_of_absent found]
    exact ⟨h, bracketed_nothing rfl rfl⟩
  | some node =>
    rw [step_eq idle found]
    split
    · exact leave_spec report.unit (h.absorb idle _ _) (by simpa using idle) (silent_absorb _ _ _)
        (by simp)
    · exact ⟨h.absorb idle _ _, bracketed_of_silent (silent_absorb _ _ _) (by simp) (by simp)⟩

theorem nodup_units {graph : Graph} (arena : Arena graph.nodes) {places : List Nat}
    (h : places.Nodup) : (graph.units places).Nodup :=
  h.filterMap fun _ _ _ hi hj => Graph.unit?_inj arena hi hj

/-- The ways in which a run begins. -/
theorem begin_cases (conductor : Conductor) :
    (conductor.phase ≠ .idle ∧ conductor.begin = (.ok .nothing, conductor)) ∨
    (∃ cycle, conductor.phase = .idle ∧ conductor.graph.sorted.1 = .error cycle ∧
      conductor.begin = (.error cycle, { conductor with graph := conductor.graph.sorted.2 })) ∨
    (∃ order opened, conductor.phase = .idle ∧ conductor.graph.sorted.1 = .ok order ∧
      opened = { conductor with graph := conductor.graph.sorted.2 }.launch order ∧
      (opened.playing.units = [] ∧
          conductor.begin = (.ok ⟨[.announce .started, .announce .ended], true⟩, opened.close) ∨
        opened.playing.units ≠ [] ∧ conductor.begin =
          (.ok ⟨opened.playing.units.map (Command.call .start) ++ [.announce .started], false⟩,
            opened))) := by
  by_cases idle : conductor.phase = .idle
  · cases sorted : conductor.graph.sorted with
    | mk result graph =>
      cases result with
      | error cycle =>
        exact .inr (.inl ⟨cycle, idle, rfl, by simp [Conductor.begin, idle, sorted]⟩)
      | ok order =>
        refine .inr (.inr ⟨order, _, idle, rfl, rfl, ?_⟩)
        rw [Conductor.begin, if_neg (not_not.2 idle), sorted]
        by_cases none : ({ conductor with graph }.launch order).playing.units = []
        · have empty : ({ conductor with graph }.launch order).playing.isEmpty = true := by
            simp [Playing.isEmpty, none]
          exact .inl ⟨none, by simp only [empty, none, ↓reduceIte, List.map_nil, List.nil_append]⟩
        · have full : ({ conductor with graph }.launch order).playing.isEmpty = false := by
            simpa [Playing.isEmpty] using none
          exact .inr ⟨none, by simp only [full, Bool.false_eq_true, ↓reduceIte]⟩
  · exact .inl ⟨idle, by simp [Conductor.begin, idle]⟩

section Begin

variable {c : Conductor}

/-- An idle conductor that has an order of start opens a run, and closes it at once if nothing
starts. -/
theorem begin_of_sorted (idle : c.phase = .idle) {start : List Nat}
    (sorted : c.graph.sorted.1 = .ok start) :
    let opened := { c with graph := c.graph.sorted.2 }.launch start
    opened.playing.units = [] ∧
        c.begin = (.ok ⟨[.announce .started, .announce .ended], true⟩, opened.close) ∨
      opened.playing.units ≠ [] ∧ c.begin =
        (.ok ⟨opened.playing.units.map (Command.call .start) ++ [.announce .started], false⟩,
          opened) := by
  rcases begin_cases c with ⟨active, -⟩ | ⟨cycle, -, refused, -⟩
    | ⟨other, opened, -, known, rfl, begun⟩
  · exact absurd idle active
  · cases sorted.symm.trans refused
  · cases sorted.symm.trans known
    exact begun

theorem begin_of_refused (idle : c.phase = .idle) {cycle : Cycle}
    (refused : c.graph.sorted.1 = .error cycle) :
    c.begin = (.error cycle, { c with graph := c.graph.sorted.2 }) := by
  rcases begin_cases c with ⟨active, -⟩ | ⟨other, -, same, begun⟩ | ⟨_, _, -, sorted, -⟩
  · exact absurd idle active
  · cases refused.symm.trans same
    exact begun
  · cases refused.symm.trans sorted

end Begin

theorem begin_spec {conductor : Conductor} (sound : conductor.graph.Sound)
    (h : conductor.Coherent) :
    (conductor.operate .begin).2.Coherent ∧ Bracketed conductor (conductor.operate .begin) := by
  rcases begin_cases conductor with ⟨-, same⟩ | ⟨cycle, idle, -, refused⟩ |
    ⟨order, opened, idle, sorted, rfl, ⟨none, begun⟩ | ⟨some, begun⟩⟩
  · simp only [operate, same]
    exact ⟨h, bracketed_nothing rfl rfl⟩
  · simp only [operate, refused]
    exact ⟨⟨h.nodup, h.idle, h.running, h.canceling, h.ending⟩, bracketed_nothing rfl rfl⟩
  · simp only [operate, begun]
    refine ⟨⟨by simp [close, none], fun _ => ⟨none, rfl, rfl⟩, by simp [close], by simp [close],
      by simp [close]⟩, ⟨[false], ?_⟩, by simp, ?_⟩
    · simp [idle, Phase.opening, Decision.announced, close, bracket]
    · simp [close, launch]
  · simp only [operate, begun]
    have distinct := nodup_units sound.sorted.arena ((sound.ordering sorted).nodup.filter
      fun place => (conductor.graph.sorted.2.nodes[place]?.map Node.isRoot).getD false)
    refine ⟨⟨distinct, ?_, fun _ => some, ?_, ?_⟩, ⟨[], ?_⟩, ?_, ?_⟩
    · simp [launch]
    · simp [launch]
    · simp [launch]
    · rw [announced_append, (silent_calls .start _).announced, idle]
      rfl
    · simp
    · simp [launch]

theorem cancel_spec {conductor : Conductor} (h : conductor.Coherent) :
    conductor.cancelRun.2.Coherent ∧ Bracketed conductor conductor.cancelRun := by
  by_cases running : conductor.phase = .running
  · have some := h.running running
    have full : conductor.playing.units.isEmpty = false := by simpa using some
    simp only [cancelRun, running, ↓reduceIte, Playing.drain, full, Bool.false_eq_true]
    refine ⟨⟨by simp [Playing.none], by simp, by simp, fun _ => rfl, by simp⟩, ⟨[], ?_⟩, ?_,
      by simp⟩
    · rw [announced_append, (silent_calls .cancel _).announced, running]
      rfl
    · simp
  · simp only [cancelRun, running, ↓reduceIte]
    exact ⟨h, bracketed_nothing rfl rfl⟩

theorem finish_spec {conductor : Conductor} (h : conductor.Coherent) :
    conductor.endRun.2.Coherent ∧ Bracketed conductor conductor.endRun := by
  by_cases running : conductor.phase = .running
  · simp only [endRun, running, ↓reduceIte]
    refine ⟨⟨h.nodup, by simp, by simp, by simp, fun _ => h.running running⟩, ⟨[], ?_⟩, ?_, by simp⟩
    · rw [(silent_calls .finish _).announced, running]
      rfl
    · simp
  · simp only [endRun, running, ↓reduceIte]
    exact ⟨h, bracketed_nothing rfl rfl⟩

theorem settle_spec {conductor : Conductor} (h : conductor.Coherent) :
    conductor.settle.2.Coherent ∧ Bracketed conductor conductor.settle := by
  have closed : ({ conductor with playing := .none } : Conductor).close.Coherent :=
    ⟨by simp [close, Playing.none], fun _ => ⟨rfl, rfl, rfl⟩, by simp [close], by simp [close],
      by simp [close]⟩
  cases phase : conductor.phase with
  | idle | running =>
    simp only [settle, phase]
    exact ⟨h, bracketed_nothing rfl rfl⟩
  | canceling =>
    simp only [settle, phase]
    exact ⟨closed, ⟨[true], by rw [phase]; rfl⟩, by simp, by simp [close, phase]⟩
  | ending =>
    simp only [settle, phase]
    exact ⟨closed, ⟨[false], by rw [phase]; rfl⟩, by simp, by simp [close, phase]⟩

/-- Every operation keeps the graph sound and the phase fitting, and announces its part of a
bracket. -/
theorem operate_spec {conductor : Conductor} (sound : conductor.graph.Sound)
    (h : conductor.Coherent) (operation : Operation) :
    (conductor.operate operation).2.Coherent ∧
      Bracketed conductor (conductor.operate operation) := by
  cases operation with
  | begin => exact begin_spec sound h
  | step report => exact step_spec h report
  | cancel => exact cancel_spec h
  | finish => exact finish_spec h
  | settle => exact settle_spec h
  | edit change =>
    exact ⟨⟨h.nodup, h.idle, h.running, h.canceling, h.ending⟩, bracketed_nothing rfl rfl⟩
  | refill =>
    exact ⟨⟨h.nodup, h.idle, h.running, h.canceling, h.ending⟩, bracketed_nothing rfl rfl⟩

theorem coherent_fresh : fresh.Coherent :=
  ⟨.nil, fun _ => ⟨rfl, rfl, rfl⟩, by simp [fresh], by simp [fresh], by simp [fresh]⟩

theorem Reachable.coherent {conductor : Conductor} (reached : conductor.Reachable) :
    conductor.Coherent := by
  obtain ⟨history, rfl⟩ := reached
  have both := run_induction (P := fun c => c.graph.Sound ∧ c.Coherent)
    (fun operation c h => ⟨sound_operate c operation h.1, (operate_spec h.1 h.2 operation).1⟩)
    ⟨Graph.sound_empty, coherent_fresh⟩ history
  exact both.2

/-- A history announces whole brackets and what its phase stands for. -/
theorem announced_run (history : List Operation) : ∃ runs : List Bool,
    (fresh.run history).1.flatMap Decision.announced =
      runs.flatMap bracket ++ (fresh.run history).2.phase.opening := by
  induction history using List.reverseRecOn with
  | nil => exact ⟨[], rfl⟩
  | append_singleton history operation ih =>
    obtain ⟨runs, earlier⟩ := ih
    have reached : (fresh.run history).2.Reachable := ⟨history, rfl⟩
    obtain ⟨more, now⟩ := (operate_spec reached.sound reached.coherent operation).2.announced
    refine ⟨runs ++ more, ?_⟩
    rw [run_concat]
    simp only [List.flatMap_append, List.flatMap_cons, List.flatMap_nil, List.append_nil]
    rw [earlier, List.append_assoc, now, List.append_assoc]

/-- The announcements over any history are a prefix of brackets, a decision closes a run exactly
when it announces the end, and what plays always fits the phase. -/
theorem run_bracket (history : List Operation) :
    (∃ runs : List Bool,
      (fresh.run history).1.flatMap Decision.announced <+: runs.flatMap bracket) ∧
    .repeated ∉ (fresh.run history).1.flatMap Decision.announced ∧
    (∀ operation,
      let before := (fresh.run history).2
      let done := before.operate operation
      (done.1.closed = true ↔ Command.announce .ended ∈ done.1.commands) ∧
      (done.1.closed = true ↔
        done.2.phase = .idle ∧ (before.phase ≠ .idle ∨ before.runs < done.2.runs))) ∧
    (fresh.run history).2.Coherent := by
  have reached : (fresh.run history).2.Reachable := ⟨history, rfl⟩
  obtain ⟨runs, announced⟩ := announced_run history
  obtain ⟨canceled, opening⟩ := opens_bracket (fresh.run history).2.phase
  have whole : (fresh.run history).1.flatMap Decision.announced <+:
      (runs ++ [canceled]).flatMap bracket := by
    rw [announced, List.flatMap_append]
    exact (List.prefix_append_right_inj _).2 (by simpa using opening)
  refine ⟨⟨_, whole⟩, fun again => ?_, fun operation => ?_, reached.coherent⟩
  · obtain ⟨run, -, member⟩ := List.mem_flatMap.1 (whole.subset again)
    exact repeated_not_mem_bracket run member
  · have spec := (operate_spec reached.sound reached.coherent operation).2
    exact ⟨spec.closed_iff_ended, spec.closed_iff_idle⟩

end Conductor

end Choreo
