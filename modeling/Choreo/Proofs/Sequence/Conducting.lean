import Choreo.Proofs.Run.Replay
import Choreo.Proofs.Sequence.Story

/-!
# A sequence follows its conductor

Whatever units and listeners do, a sequence that performs makes its conductor go through a history
of begins, reports, cancellations, ends and settlements, and what it announces is what the conductor
decides in the course of it. So all that is known of histories is known of sequences at work: their
graphs keep their nodes, and their phases fit what plays.
-/

namespace Choreo

/-- What may be done to a conductor while the sequence performs: its graph may be sorted, but
neither nodes nor dependencies come in. -/
def Operation.performs : Operation → Bool
  | .edit .sort => true
  | .edit _ | .refill => false
  | _ => true

namespace Conductor

theorem nodes_operate {operation : Operation}
    (performs : operation.performs = true) (conductor : Conductor) :
    (conductor.operate operation).2.graph.nodes = conductor.graph.nodes := by
  cases operation with
  | begin =>
    rw [operate_begin]
    rcases graph_begin conductor with graph | graph <;> rw [graph]
    exact Graph.nodes_sorted _
  | step report => rw [operate, graph_step]
  | cancel =>
    simp only [operate, cancelRun]
    split <;> rfl
  | finish =>
    simp only [operate, endRun]
    split <;> rfl
  | settle =>
    simp only [operate, settle]
    split <;> rfl
  | edit change =>
    cases change with
    | sort => exact Graph.nodes_sorted _
    | place | depend | touch => cases performs
  | refill => cases performs

/-- What is decided in a history, from first to last. -/
def announcedIn (history : List Operation) (conductor : Conductor) : List Lifecycle :=
  (conductor.run history).1.flatMap Decision.announced

/-- One conductor is what becomes of another one in a performance that announces this. -/
def Performs (before : Conductor) (events : List Lifecycle) (after : Conductor) : Prop :=
  ∃ history : List Operation, (∀ operation ∈ history, operation.performs = true) ∧
    before.announcedIn history = events ∧ (before.run history).2 = after

namespace Performs

variable {first second third : Conductor} {events more : List Lifecycle}

theorem refl (conductor : Conductor) : conductor.Performs [] conductor := ⟨[], by simp, rfl, rfl⟩

theorem trans (one : first.Performs events second) (two : second.Performs more third) :
    first.Performs (events ++ more) third := by
  obtain ⟨history, performs, rfl, rfl⟩ := one
  obtain ⟨rest, performs', rfl, rfl⟩ := two
  refine ⟨history ++ rest, fun operation member => ?_, ?_, ?_⟩
  · exact (List.mem_append.1 member).elim (performs operation) (performs' operation)
  · rw [announcedIn, run_append, List.flatMap_append]
    rfl
  · rw [run_append]

theorem operate (operation : Operation) (performs : operation.performs = true)
    (conductor : Conductor) :
    conductor.Performs (conductor.operate operation).1.announced (conductor.operate operation).2 :=
  ⟨[operation], by simpa using performs, by simp [announcedIn, run], rfl⟩

theorem nodes (h : first.Performs events second) : second.graph.nodes = first.graph.nodes := by
  obtain ⟨history, performs, -, rfl⟩ := h
  induction history generalizing first with
  | nil => rfl
  | cons operation rest ih =>
    have now := nodes_operate (performs operation (List.mem_cons_self ..)) first
    exact (ih fun other member => performs other (List.mem_cons_of_mem _ member)).trans now

theorem sound (h : first.Performs events second) (sound : first.graph.Sound) :
    second.graph.Sound := by
  obtain ⟨history, -, -, rfl⟩ := h
  exact run_induction (fun operation c => sound_operate c operation) sound history

end Performs

end Conductor

theorem Sequence.snd_sortedUnits {U : Type} (sequence : Sequence U) :
    sequence.sortedUnits.2 = sequence.withGraph sequence.graph.sorted.2 := by
  rw [sortedUnits]
  split <;> rfl

namespace Live

variable {U : Type} (b : Behaviour U) (live : Live U)

/-- What is carried out of a decision is announced as decided. -/
theorem fst_execute (commands : List Command) (closed : Bool) :
    (execute b commands live).1 = (Decision.mk commands closed).announced := by
  induction commands generalizing live with
  | nil => rfl
  | cons command commands ih =>
    cases command with
    | call act unit => exact ih _
    | announce event =>
      rw [execute, ih live]
      rfl

theorem performs_heed (report : Report) (rest : List Report) :
    live.conductor.Performs (live.heed b report rest).1 (live.heed b report rest).2.conductor := by
  have step := Conductor.Performs.operate (.step report) rfl live.conductor
  have same : (live.heed b report rest).2.conductor = (live.conductor.step report).2 :=
    conductor_execute b _ _
  rw [same, heed, fst_execute b _ _ (live.conductor.step report).1.closed]
  exact step

theorem performs_drain : live.conductor.Performs (live.drain b).1 (live.drain b).2.conductor := by
  induction live using Live.drain.induct b with
  | case1 live none =>
    rw [drain_of_nil b none]
    exact .refl _
  | case2 live report rest queue done =>
    rename_i ih
    rw [drain_of_cons b queue]
    exact (live.performs_heed b report rest).trans ih

/-- Doing what is decided lets the conductor look at what comes of it. -/
theorem performs_drive (decision : Decision) : ∃ later : List Lifecycle,
    (live.drive b decision).1 = decision.announced ++ later ∧
      live.conductor.Performs later (live.drive b decision).2.conductor := by
  have later := (execute b decision.commands live).2.performs_drain b
  rw [conductor_execute] at later
  exact ⟨_, by rw [drive, fst_execute b live _ decision.closed], later⟩

theorem performs_operation (operation : Operation) (performs : operation.performs = true) :
    let driven := (live.withConductor (live.conductor.operate operation).2).drive b
      (live.conductor.operate operation).1
    live.conductor.Performs driven.1 driven.2.conductor := by
  intro driven
  obtain ⟨later, announced, after⟩ :=
    (live.withConductor (live.conductor.operate operation).2).performs_drive b
    (live.conductor.operate operation).1
  rw [announced]
  exact (Conductor.Performs.operate operation performs live.conductor).trans after

theorem performs_settleRun :
    live.conductor.Performs (live.settleRun b).1 (live.settleRun b).2.conductor :=
  live.performs_operation b .settle rfl

theorem performs_endRun : live.conductor.Performs (live.endRun b).1 (live.endRun b).2.conductor :=
  (live.performs_operation b .finish rfl).trans (performs_settleRun b _)

theorem performs_cancelRun :
    live.conductor.Performs (live.cancelRun b).1 (live.cancelRun b).2.conductor :=
  (live.performs_operation b .cancel rfl).trans (performs_settleRun b _)

theorem performs_startRun : match live.startRun b with
    | (.ok events, next) => live.conductor.Performs events next.conductor
    | (.error _, next) => live.conductor.Performs [] next.conductor := by
  have operated := live.performs_operation b .begin rfl
  have begun := Conductor.Performs.operate .begin rfl live.conductor
  rw [startRun]
  rcases reply : live.conductor.begin with ⟨cycle | decision, conductor⟩
  · simp only [Conductor.operate, reply] at begun
    exact begun
  · simp only [Conductor.operate, reply] at operated
    exact operated

theorem performs_tickRun (delta : Span) : match live.tickRun b delta with
    | (.ok events, next) => live.conductor.Performs events next.conductor
    | (.error _, next) => live.conductor.Performs [] next.conductor := by
  rw [tickRun]
  by_cases idle : live.sequence.isIdle = true
  · rw [if_pos idle]
    exact .refl _
  · rw [if_neg idle]
    have same := conductor_tickUnits b delta live.conductor.playing.units live
    rcases reply : live.tickUnits b delta live.conductor.playing.units with ⟨overflow | ⟨⟩, next⟩
    · rw [reply] at same
      rw [← same]
      exact .refl _
    · rw [reply] at same
      rw [← same]
      exact next.performs_drain b

theorem performs_obey (act : Act) :
    live.conductor.Performs (obey b act live).1 (obey b act live).2.conductor := by
  cases act with
  | start =>
    have started := live.performs_startRun b
    rw [obey]
    rcases reply : live.startRun b with ⟨cycle | events, next⟩
    · rw [reply] at started
      exact started
    · rw [reply] at started
      exact started
  | finish => exact live.performs_endRun b
  | cancel => exact live.performs_cancelRun b

theorem performs_serve (limit : Nat) :
    live.conductor.Performs (serve b limit live).1 (serve b limit live).2.conductor := by
  induction limit generalizing live with
  | zero => exact .refl _
  | succ limit ih =>
    rw [serve]
    cases live.stage.nextRequest? live.sequence.number with
    | none => exact .refl _
    | some next =>
      have obeyed := performs_obey b { live with stage := next.2 } next.1
      exact obeyed.trans (ih ((obey b next.1 { live with stage := next.2 }).2.deliver
        (obey b next.1 { live with stage := next.2 }).1))

/-- What was announced is delivered, and what comes of that is announced as well. -/
theorem performs_publish {before : Conductor} {events : List Lifecycle}
    (performed : before.Performs events live.conductor) :
    before.Performs (live.publish b events).1 (live.publish b events).2.conductor :=
  performed.trans ((live.deliver events).performs_serve b _)

theorem performs_respond (act : Act) :
    live.conductor.Performs (live.respond b act).1 (live.respond b act).2.conductor := by
  rw [respond]
  split
  · exact live.performs_obey b act
  · exact performs_publish b _ (live.performs_obey b act)

end Live

/-- A cue that does not bring nodes or dependencies into the graph. -/
def Cue.performs {U : Type} : Cue U → Bool
  | .play .. | .together _ | .sequential _ => false
  | _ => true

namespace Live

open Happening

variable {U : Type} (b : Behaviour U) (live : Live U)

/-- Unless units are related, a cue lets the conductor perform, and what is announced is what the
conductor decides. -/
theorem performs_cueStory {cue : Cue U} (performs : cue.performs = true) :
    live.conductor.Performs (announcements (live.cueStory b cue))
      (live.onCue b cue).2.conductor := by
  cases cue with
  | add => exact .refl _
  | meanwhile =>
    rw [cueStory, Stage.announcements_changes]
    exact .refl _
  | play | together | sequential => cases performs
  | sort =>
    have sorted := Conductor.Performs.operate (.edit .sort) rfl live.conductor
    have same : (live.onCue b .sort).2.conductor = (live.conductor.operate (.edit .sort)).2 := by
      rw [onCue, revise, Sequence.snd_sortedUnits]
      rfl
    exact same ▸ sorted
  | start =>
    rw [cueStory, announcements_respondStory, onCue, snd_start]
    exact live.performs_respond b .start
  | finish =>
    rw [cueStory, announcements_respondStory]
    exact live.performs_respond b .finish
  | cancel =>
    rw [cueStory, announcements_respondStory]
    exact live.performs_respond b .cancel
  | tick delta =>
    have ticked := live.performs_tickRun b delta
    rw [cueStory, announcements_tickStory, onCue, tick_eq, tickAsUnit]
    rcases reply : live.tickRun b delta with ⟨overflow | events, next⟩
    · rw [reply] at ticked
      exact ticked
    · rw [reply] at ticked
      exact next.performs_publish b ticked
  | report report =>
    let queued : Live U :=
      { live with sequence := { live.sequence with queue := live.sequence.queue ++ [report] } }
    rw [cueStory, announcements_reportStory]
    exact performs_publish b _ (queued.performs_drain b)
  | serve =>
    have published := live.performs_publish b (.refl _)
    rw [announcements_publishStory] at published
    exact published

theorem performs_rehearse {cues : List (Cue U)} (performs : ∀ cue ∈ cues, cue.performs = true) :
    ∃ events, live.conductor.Performs events (live.rehearse b cues).2.conductor := by
  induction cues generalizing live with
  | nil => exact ⟨_, .refl _⟩
  | cons cue rest ih =>
    have first := live.performs_cueStory b (performs cue (List.mem_cons_self ..))
    obtain ⟨more, later⟩ := ih (live.onCue b cue).2 fun other member =>
      performs other (List.mem_cons_of_mem _ member)
    exact ⟨_, first.trans later⟩

theorem onCue_ne_refused (sound : live.conductor.graph.Sound)
    (acyclic : Graph.Acyclic live.conductor.graph.nodes) (cue : Cue U) (refusal : Refusal) :
    (live.onCue b cue).1 ≠ .refused refusal := by
  obtain ⟨order, sorted, -⟩ := sound.sorted_of_acyclic acyclic
  cases cue with
  | sort =>
    have same : live.sequence.graph.sorted.1 = .ok order := sorted
    simp only [onCue, Sequence.sortedUnits, same]
    simp [Outcome.ofResult]
  | start =>
    obtain ⟨decision, conductor, begun⟩ := Conductor.begin_of_acyclic sound acyclic
    simp [onCue, start, startRun, begun, Outcome.ofResult]
  | tick delta =>
    rw [onCue]
    cases (live.tick b delta).1 <;> simp [Outcome.ofTick]
  | add | play | together | sequential | finish | cancel | report | serve | meanwhile =>
    simp [onCue]

/-- Without a cycle nothing is ever refused, as long as no more units are related. -/
theorem rehearse_ne_refused (sound : live.conductor.graph.Sound)
    (acyclic : Graph.Acyclic live.conductor.graph.nodes) {cues : List (Cue U)}
    (performs : ∀ cue ∈ cues, cue.performs = true) :
    ∀ outcome ∈ (live.rehearse b cues).1, ∀ refusal, outcome ≠ .refused refusal := by
  induction cues generalizing live with
  | nil => simp [rehearse]
  | cons cue rest ih =>
    have first := live.performs_cueStory b (performs cue (List.mem_cons_self ..))
    intro outcome member
    rcases List.mem_cons.1 member with rfl | later
    · exact live.onCue_ne_refused b sound acyclic cue
    · exact ih _ (first.sound sound) (first.nodes.symm ▸ acyclic)
        (fun other member => performs other (List.mem_cons_of_mem _ member)) outcome later

/-- An idle sequence with a cycle refuses to start, and names the units of all nodes that wait for
themselves by their labels. -/
theorem start_of_cyclic (sound : live.conductor.graph.Sound)
    (cyclic : ¬ Graph.Acyclic live.conductor.graph.nodes) (idle : live.conductor.phase = .idle) :
    ∃ labels, (live.start b).1 = .error (.cyclic labels) ∧ ∀ node unit,
      Relation.TransGen (Graph.Waits live.conductor.graph.nodes) node node →
      live.conductor.graph.unit? node = some unit → live.sequence.registry.label unit ∈ labels := by
  obtain ⟨cycle, refused, members⟩ := sound.sorted_of_cyclic cyclic
  have begun := Conductor.begin_of_refused idle refused
  refine ⟨cycle.units.map live.sequence.registry.label, ?_, fun node unit loops here => ?_⟩
  · simp only [start, startRun, begun]
    rfl
  · exact List.mem_map_of_mem ((members unit).2 ⟨node, loops, here⟩)

end Live

end Choreo
