import Choreo.Proofs.Run.Bracket
import Choreo.Proofs.Run.Hearing
import Choreo.Proofs.Run.History

/-!
# How a run is wired

At any time, whatever was done before, each subscription of a node stands for a dependency that the
node declares and for an entry of its pending list. A node that has started has no subscription
left, so nothing that happens later makes it ready again, and no unit is told to start twice in a
run.
-/

namespace Choreo

namespace Conductor

/-- The node of the unit waits for nothing more. -/
def Released (conductor : Conductor) (unit : UnitId) : Prop :=
  ∃ node, conductor.graph.unit? node = some unit ∧
    ∀ subscription ∈ conductor.waiting.subscriptions, subscription.dependent ≠ node

/-- Subscriptions stand for what is declared and for what is pending, and what plays is released. -/
structure Wired (conductor : Conductor) : Prop where
  declared : ∀ d node, conductor.waiting.subscriptions.count ⟨d, node⟩ ≤
    (conductor.graph.dependencies node).count d
  pending : ∀ d node, conductor.waiting.subscriptions.count ⟨d, node⟩ ≤
    (conductor.waiting.pendingOf node).count d
  playing : ∀ unit ∈ conductor.playing.units, conductor.Released unit

/-- What was released stays so as long as no subscription is added. -/
theorem Released.mono {before after : Conductor} {unit : UnitId} (released : before.Released unit)
    (grown : before.graph.Extends after.graph)
    (fewer : after.waiting.subscriptions ⊆ before.waiting.subscriptions) : after.Released unit := by
  obtain ⟨node, named, free⟩ := released
  exact ⟨node, grown.unit? named, fun subscription member => free subscription (fewer member)⟩

theorem Released.found {conductor : Conductor} {unit : UnitId} (released : conductor.Released unit)
    (arena : Arena conductor.graph.nodes) : ∃ node, conductor.graph.nodeFor? unit = some node := by
  obtain ⟨node, named, -⟩ := released
  exact ⟨node, (Graph.nodeFor?_eq_some arena).2 named⟩

/-- Without subscriptions nothing has to be kept but that what plays has a node. -/
theorem wired_of_unsubscribed {conductor : Conductor} (none : conductor.waiting.subscriptions = [])
    (nobody : conductor.playing.units = []) : conductor.Wired := by
  refine ⟨fun d node => ?_, fun d node => ?_, fun unit plays => ?_⟩
  · simp [none]
  · simp [none]
  · rw [nobody] at plays
    cases plays

theorem wired_fresh : fresh.Wired := wired_of_unsubscribed rfl rfl

theorem Wired.regraph {conductor : Conductor} (wired : conductor.Wired) {graph : Graph}
    (grown : conductor.graph.Extends graph) : { conductor with graph }.Wired :=
  ⟨fun d node => (wired.declared d node).trans ((grown.dependencies node).sublist.count_le d),
    wired.pending, fun unit plays => (wired.playing unit plays).mono grown (List.Subset.refl _)⟩

/-! ### The beginning of a run -/

theorem count_wiring (graph : Graph) {order : List Nat} (distinct : order.Nodup) (d : Dependency)
    (node : Nat) :
    (wiring graph order).count ⟨d, node⟩ = if node ∈ order then (graph.dependencies node).count d
      else 0 := by
  induction order with
  | nil => rfl
  | cons place order ih =>
    obtain ⟨once, distinct⟩ := List.nodup_cons.1 distinct
    have split : wiring graph (place :: order) =
        (graph.dependencies place).map (fun event => Subscription.mk event place) ++
          wiring graph order := rfl
    rw [split, List.count_append, ih distinct]
    by_cases here : node = place
    · subst here
      have own := List.count_map_of_injective (graph.dependencies node)
        (fun event => Subscription.mk event node) (fun _ _ same => (Subscription.mk.inj same).1) d
      simp [own, once]
    · have other : ((graph.dependencies place).map fun event => Subscription.mk event place).count
          ⟨d, node⟩ = 0 := by
        refine List.count_eq_zero.2 fun member => here ?_
        obtain ⟨event, -, same⟩ := List.mem_map.1 member
        exact (Subscription.mk.inj same).2.symm
      simp [other, here]

theorem wired_launch (conductor : Conductor) {order : List Nat} (distinct : order.Nodup) :
    (conductor.launch order).Wired := by
  refine ⟨fun d node => ?_, fun d node => ?_, fun unit plays => ?_⟩
  · simp only [launch, count_wiring _ distinct]
    split <;> omega
  · have all : (conductor.launch order).waiting.pendingOf node =
        conductor.graph.dependencies node := by
      simp [launch, Waiting.pendingOf, Graph.dependencies]
    rw [all]
    simp only [launch, count_wiring _ distinct]
    split <;> omega
  · obtain ⟨node, root, named⟩ := List.mem_filterMap.1 plays
    refine ⟨node, named, fun subscription member here => ?_⟩
    obtain ⟨place, -, declared⟩ := List.mem_flatMap.1 member
    obtain ⟨event, waits, rfl⟩ := List.mem_map.1 declared
    obtain rfl : place = node := here
    obtain ⟨holder, there, member⟩ := Graph.mem_dependencies.1 waits
    have free := (List.mem_filter.1 root).2
    rw [there, Option.map_some, Option.getD_some, Node.isRoot, List.isEmpty_iff] at free
    rw [free] at member
    cases member

theorem Wired.begin {conductor : Conductor} (wired : conductor.Wired)
    (sound : conductor.graph.Sound) :
    conductor.begin.2.Wired := by
  have grown : conductor.graph.Extends conductor.graph.sorted.2 :=
    conductor.graph.extends_edit .sort
  rcases begin_cases conductor with ⟨-, same⟩ | ⟨cycle, -, -, refused⟩ |
    ⟨order, opened, -, sorted, rfl, ⟨none, begun⟩ | ⟨-, begun⟩⟩
  · rw [same]
    exact wired
  · rw [refused]
    exact wired.regraph grown
  · rw [begun]
    exact wired_of_unsubscribed rfl none
  · rw [begun]
    exact wired_launch _ (sound.ordering sorted).nodup

/-! ### What a report leads to -/

/-- The units that start when this is heard of a node. -/
def starting (event : Lifecycle) (node : Nat) (conductor : Conductor) : List UnitId :=
  if conductor.phase = .running then conductor.graph.units (conductor.waiting.hear event node).1
    else []

variable {conductor : Conductor} (event : Lifecycle) (node : Nat)

/-- A node that becomes ready had a subscription, and has none now. -/
theorem Wired.ready (wired : conductor.Wired) {place : Nat}
    (ready : place ∈ (conductor.waiting.hear event node).1) :
    (∃ subscription ∈ conductor.waiting.subscriptions, subscription.dependent = place) ∧
      ∀ subscription ∈ (conductor.waiting.hear event node).2.subscriptions,
        subscription.dependent ≠ place := by
  have noted := Waiting.noted_hear event node conductor.waiting
  obtain ⟨-, -, held, gone⟩ := (noted.ready place).1 ready
  constructor
  · by_contra none
    refine held ?_
    rw [← gone, noted.pendingOf, eq_comm, Waiting.drop_eq_self_iff]
    refine fun d _ => .inl (List.count_eq_zero.2 fun member => none ⟨_, member, rfl⟩)
  · rintro ⟨d, dependent⟩ member rfl
    rw [noted.subscriptions, List.mem_filter, decide_eq_true_eq] at member
    have entry : d ∈ conductor.waiting.pendingOf dependent :=
      List.count_pos_iff.1 ((List.count_pos_iff.2 member.1).trans_le (wired.pending d dependent))
    have stays := (Waiting.mem_drop_of_not_mem conductor.waiting dependent _ member.2).2 entry
    rw [← noted.pendingOf, gone] at stays
    cases stays

theorem subscriptions_hear_sublist (waiting : Waiting) :
    (waiting.hear event node).2.subscriptions.Sublist waiting.subscriptions := by
  rw [(Waiting.noted_hear event node waiting).subscriptions]
  exact List.filter_sublist

theorem Wired.hear (wired : conductor.Wired) {units : List UnitId}
    (released : ∀ unit ∈ units, { conductor with
      waiting := (conductor.waiting.hear event node).2, playing := ⟨units⟩ }.Released unit) :
    { conductor with
      waiting := (conductor.waiting.hear event node).2, playing := ⟨units⟩ }.Wired := by
  have noted := Waiting.noted_hear event node conductor.waiting
  have fewer : ∀ subscription,
      (conductor.waiting.hear event node).2.subscriptions.count subscription ≤
        conductor.waiting.subscriptions.count subscription :=
    fun subscription => (subscriptions_hear_sublist event node conductor.waiting).count_le
      subscription
  refine ⟨fun d place => (fewer _).trans (wired.declared d place), fun d place => ?_, released⟩
  by_cases settled : d ∈ event.settles node
  · have none : (conductor.waiting.hear event node).2.subscriptions.count ⟨d, place⟩ = 0 := by
      rw [noted.subscriptions]
      exact List.count_eq_zero.2 fun member =>
        of_decide_eq_true (List.mem_filter.1 member).2 settled
    simp [none]
  · have kept : ((conductor.waiting.hear event node).2.pendingOf place).count d =
        (conductor.waiting.pendingOf place).count d := by
      rw [noted.pendingOf, Waiting.count_drop_of_not_mem _ _ _ settled]
    simp only [kept]
    exact (fewer _).trans (wired.pending d place)

/-- The units that start were not released before; they are now, as is all that plays. -/
structure Enters (conductor : Conductor) (event : Lifecycle) (node : Nat) : Prop where
  distinct : (conductor.starting event node).Nodup
  before : ∀ unit ∈ conductor.starting event node, ¬ conductor.Released unit
  after : ∀ unit ∈ conductor.playing.units ++ conductor.starting event node,
    { conductor with waiting := (conductor.waiting.hear event node).2 }.Released unit

theorem Wired.enters (wired : conductor.Wired) (arena : Arena conductor.graph.nodes) :
    conductor.Enters event node := by
  have ready : ∀ unit ∈ conductor.starting event node, ¬ conductor.Released unit ∧
      { conductor with waiting := (conductor.waiting.hear event node).2 }.Released unit := by
    intro unit starts
    rw [starting] at starts
    split at starts
    · obtain ⟨place, now, named⟩ := List.mem_filterMap.1 starts
      obtain ⟨⟨subscription, member, here⟩, free⟩ := wired.ready event node now
      refine ⟨?_, place, named, free⟩
      rintro ⟨other, same, unsubscribed⟩
      exact unsubscribed subscription member (here.trans (Graph.unit?_inj arena named same))
    · cases starts
  refine ⟨?_, fun unit starts => (ready unit starts).1, fun unit plays => ?_⟩
  · rw [starting]
    split
    · exact nodup_units arena (Waiting.noted_hear event node conductor.waiting).distinct
    · exact .nil
  · rcases List.mem_append.1 plays with earlier | starts
    · exact (wired.playing unit earlier).mono (.refl _)
        (subscriptions_hear_sublist event node _).subset
    · exact (ready unit starts).2

theorem Wired.absorb_eq (wired : conductor.Wired) (arena : Arena conductor.graph.nodes) :
    conductor.absorb event node = ((conductor.starting event node).map (Command.call .start),
      { conductor with
        waiting := (conductor.waiting.hear event node).2
        playing := ⟨conductor.playing.units ++ conductor.starting event node⟩ }) := by
  obtain ⟨distinct, before, -⟩ := wired.enters event node arena
  by_cases running : conductor.phase = .running
  · have apart : ∀ unit ∈ conductor.starting event node, unit ∉ conductor.playing.units :=
      fun unit starts plays => before unit starts (wired.playing unit plays)
    rw [absorb_of_running _ _ _ running]
    simp only [starting, running, ↓reduceIte] at distinct apart ⊢
    rw [enrol_of_disjoint distinct apart]
  · rw [absorb_of_not_running _ _ _ running]
    simp only [starting, running, ↓reduceIte, List.map_nil, List.append_nil]

theorem leave_eq (unit : UnitId) (commands : List Command) (after : Conductor) :
    leave unit (commands, after) = if after.playing.units = [unit]
      then (⟨commands ++ [.announce .ended], true⟩, { after with playing := ⟨[]⟩ }.close)
      else (⟨commands, false⟩, { after with playing := ⟨after.playing.units.erase unit⟩ }) := by
  have last : ((after.playing.remove unit).1 && (after.playing.remove unit).2.isEmpty) = true ↔
      after.playing.units = [unit] := by
    simp only [Playing.remove, Playing.contains, Playing.isEmpty, Bool.and_eq_true,
      List.contains_iff_mem, List.isEmpty_iff]
    constructor
    · rintro ⟨member, none⟩
      have split := List.perm_cons_erase member
      rw [none] at split
      exact split.eq_singleton
    · intro only
      simp [only]
  by_cases only : after.playing.units = [unit]
  · have now := last.2 only
    rw [if_pos only]
    simp only [leave, now, ↓reduceIte]
    simp only [Playing.remove, only, List.erase_cons_head]
  · have later := mt last.1 only
    rw [if_neg only]
    simp only [leave, later, Bool.false_eq_true, ↓reduceIte]
    simp only [Playing.remove]

/-- What a report leads to: those that it makes ready start, one that ended leaves, and the run is
over if that was all that played. -/
theorem Wired.step_eq (wired : conductor.Wired) (arena : Arena conductor.graph.nodes)
    {report : Report} {node : Nat} (active : conductor.phase ≠ .idle)
    (found : conductor.graph.nodeFor? report.unit = some node) :
    let starts := (conductor.starting report.event node).map (Command.call .start)
    let all := conductor.playing.units ++ conductor.starting report.event node
    let heard := { conductor with waiting := (conductor.waiting.hear report.event node).2 }
    conductor.step report =
      if report.event = .ended ∧ all = [report.unit] then
        (⟨starts ++ [.announce .ended], true⟩, { heard with playing := ⟨[]⟩ }.close)
      else (⟨starts, false⟩, { heard with playing := ⟨report.without all⟩ }) := by
  intro starts all heard
  rw [Conductor.step_eq active found, wired.absorb_eq _ _ arena, wired.absorb_eq _ _ arena,
    leave_eq]
  by_cases ended : report.event = .ended
  · simp only [ended, ↓reduceIte, true_and, starts, all, heard, Report.without]
  · simp only [ended, ↓reduceIte, false_and, starts, all, heard, Report.without]

/-- A decision starts no unit twice and none that was released before, and those that it starts are
released by it; what was released stays so. -/
structure Summoned (before : Conductor) (done : Decision × Conductor) : Prop where
  distinct : done.1.started.Nodup
  anew : ∀ unit ∈ done.1.started, ¬ before.Released unit
  released : ∀ unit ∈ done.1.started, done.2.Released unit
  kept : ∀ unit, before.Released unit → done.2.Released unit

theorem summoned_of_none {before : Conductor} {done : Decision × Conductor}
    (none : done.1.started = []) (kept : ∀ unit, before.Released unit → done.2.Released unit) :
    Summoned before done := by
  refine ⟨?_, ?_, ?_, kept⟩ <;> simp [none]

theorem Wired.step (wired : conductor.Wired) (arena : Arena conductor.graph.nodes)
    (report : Report) :
    (conductor.step report).2.Wired ∧ Summoned conductor (conductor.step report) := by
  by_cases idle : conductor.phase = .idle
  · rw [step_of_idle report idle]
    exact ⟨wired, summoned_of_none rfl fun _ => id⟩
  cases found : conductor.graph.nodeFor? report.unit with
  | none =>
    rw [step_of_absent found]
    exact ⟨wired, summoned_of_none rfl fun _ => id⟩
  | some node =>
    obtain ⟨distinct, before, after⟩ := wired.enters report.event node arena
    have now : ∀ unit ∈ conductor.starting report.event node,
        { conductor with waiting := (conductor.waiting.hear report.event node).2 }.Released unit :=
      fun unit starts => after unit (List.mem_append_right _ starts)
    have kept : ∀ unit, conductor.Released unit →
        { conductor with waiting := (conductor.waiting.hear report.event node).2 }.Released unit :=
      fun unit released => released.mono (.refl _)
        (subscriptions_hear_sublist report.event node _).subset
    rw [wired.step_eq arena idle found]
    split
    · refine ⟨wired_of_unsubscribed rfl rfl, ⟨?_, ?_, ?_, fun unit released => ?_⟩⟩
      · rwa [started_announcing]
      · rwa [started_announcing]
      · rw [started_announcing]
        exact fun unit starts => (now unit starts).mono (.refl _) (List.nil_subset _)
      · exact (kept unit released).mono (.refl _) (List.nil_subset _)
    · refine ⟨wired.hear report.event node fun unit plays => after unit
        (Report.mem_of_mem_without plays), ⟨?_, ?_, ?_, kept⟩⟩
      · rwa [started_calls]
      · rwa [started_calls]
      · rwa [started_calls]

theorem begin_summons (sound : conductor.graph.Sound) (idle : conductor.phase = .idle) :
    (conductor.operate .begin).1.started.Nodup ∧
      ∀ unit ∈ (conductor.operate .begin).1.started,
        (conductor.operate .begin).2.Released unit := by
  rcases begin_cases conductor with ⟨active, -⟩ | ⟨cycle, -, -, refused⟩ |
    ⟨order, opened, -, sorted, rfl, ⟨-, begun⟩ | ⟨-, begun⟩⟩
  · exact absurd idle active
  · simp [operate, refused, Decision.nothing, Decision.started]
  · simp [operate, begun, Decision.started]
  · simp only [operate, begun, started_announcing]
    have distinct := (sound.ordering sorted).nodup
    exact ⟨nodup_units sound.sorted.arena (distinct.filter _), (wired_launch _ distinct).playing⟩

theorem Wired.operate (wired : conductor.Wired) (sound : conductor.graph.Sound)
    (operation : Operation) :
    (conductor.operate operation).2.Wired := by
  cases operation with
  | begin =>
    rw [operate_begin]
    exact wired.begin sound
  | step report => exact (wired.step sound.arena report).1
  | cancel =>
    simp only [Conductor.operate, cancelRun]
    split
    · exact ⟨wired.declared, wired.pending, fun unit plays => by cases plays⟩
    · exact wired
  | finish =>
    simp only [Conductor.operate, endRun]
    split
    · exact ⟨wired.declared, wired.pending, wired.playing⟩
    · exact wired
  | settle =>
    simp only [Conductor.operate, settle]
    split
    · exact wired_of_unsubscribed rfl rfl
    · exact wired_of_unsubscribed rfl rfl
    · exact wired
    · exact wired
  | edit change => exact wired.regraph (Graph.extends_edit ..)
  | refill =>
    refine ⟨wired.declared, fun d place => ?_, wired.playing⟩
    have all : (conductor.waiting.refill conductor.graph.nodes).pendingOf place =
        conductor.graph.dependencies place := by
      simp [Waiting.refill, Waiting.pendingOf, Graph.dependencies]
    exact (wired.declared d place).trans_eq (by rw [← all]; rfl)

theorem started_cancelRun (conductor : Conductor) : conductor.cancelRun.1.started = [] := by
  rw [cancelRun]
  split
  · simp only [Decision.started]
    split <;> simp [List.filterMap_map]
  · rfl

theorem started_endRun (conductor : Conductor) : conductor.endRun.1.started = [] := by
  rw [endRun]
  split
  · simp [Decision.started, List.filterMap_map]
  · rfl

/-- While a run lasts no unit is told to start that was released in it before. -/
theorem Wired.summoned (wired : conductor.Wired) (arena : Arena conductor.graph.nodes)
    (active : conductor.phase ≠ .idle) (operation : Operation) :
    Summoned conductor (conductor.operate operation) := by
  cases operation with
  | begin =>
    have same : conductor.operate .begin = (.nothing, conductor) := by
      simp [Conductor.operate, Conductor.begin, active]
    rw [same]
    exact summoned_of_none rfl fun _ => id
  | step report => exact (wired.step arena report).2
  | cancel =>
    refine summoned_of_none (started_cancelRun conductor) fun _ released => ?_
    simp only [Conductor.operate, cancelRun]
    split <;> exact released
  | finish =>
    refine summoned_of_none (started_endRun conductor) fun _ released => ?_
    simp only [Conductor.operate, endRun]
    split <;> exact released
  | settle =>
    have kept : ∀ unit, conductor.Released unit → (conductor.settle).2.Released unit := by
      intro unit released
      simp only [settle]
      split
      · exact released.mono (.refl _) (List.nil_subset _)
      · exact released.mono (.refl _) (List.nil_subset _)
      · exact released
      · exact released
    refine summoned_of_none ?_ kept
    simp only [Conductor.operate, settle]
    split <;> rfl
  | edit change =>
    exact summoned_of_none rfl fun _ released => released.mono (Graph.extends_edit ..)
      (List.Subset.refl _)
  | refill => exact summoned_of_none rfl fun _ released => released

theorem Reachable.wired {conductor : Conductor} (reached : conductor.Reachable) :
    conductor.Wired := by
  obtain ⟨history, rfl⟩ := reached
  have both := run_induction (P := fun c => c.graph.Sound ∧ c.Wired)
    (fun operation c h => ⟨sound_operate c operation h.1, h.2.operate h.1 operation⟩)
    ⟨Graph.sound_empty, wired_fresh⟩ history
  exact both.2

end Conductor

end Choreo
