import Choreo.Proofs.Performer.Dutiful
import Choreo.Proofs.Sequence.Replay
import Choreo.Proofs.Sequence.Setting

/-!
# Performers begin anew

How far a clip, a delay or a puppet has come matters while it runs. One that does not run may have
come any way before it stopped, and forgets that when it starts. So a sequence of performers that is
idle does the same whatever it did before.
-/

namespace Choreo

/-- The performer as it is before it starts, without what it remembers of its last run. -/
def Performer.renewed : Performer → Performer
  | .clip c track => .clip { c with rounds := 0, elapsed := .zero, running := false } track
  | .delay d => .delay { d with elapsed := .zero, running := false }
  | .puppet p => .puppet { p with elapsed := .zero, running := false }
  | .scripted s => .scripted s

namespace Performer

/-- The performers are the same, but for what is past if they do not run. -/
structure Same (p q : Performer) : Prop where
  renewed : p.renewed = q.renewed
  running : p.running = true ∨ q.running = true → p = q

theorem Same.refl (p : Performer) : p.Same p := ⟨rfl, fun _ => rfl⟩

theorem Same.symm {p q : Performer} (same : p.Same q) : q.Same p :=
  ⟨same.renewed.symm, fun active => (same.running active.symm).symm⟩

theorem act_start_renewed {p : Performer} (idle : p.running = false) :
    p.act .start = p.renewed.act .start := by
  cases p with
  | clip clip track => simp_all [act, renewed, running, Clip.start]
  | delay delay => simp_all [act, renewed, running, Delay.start]
  | puppet puppet => simp_all [act, renewed, running, Puppet.start]
  | scripted unit => rfl

theorem act_of_idle {p : Performer} {order : Act} (plain : p.Plain) (idle : p.running = false)
    (stops : order ≠ .start) : p.act order = ([], p) := by
  cases order with
  | start => exact absurd rfl stops
  | finish | cancel =>
    cases p with
    | scripted unit => exact plain.elim
    | clip | delay | puppet =>
      simp_all [act, running, Clip.finish, Clip.cancel, Delay.finish, Delay.cancel, Puppet.finish,
        Puppet.cancel, Puppet.stop]

theorem tick_of_idle {p : Performer} (idle : p.running = false) (delta : Span) :
    p.tick delta = .ok ([], p) := by
  cases p with
  | scripted unit => rfl
  | clip clip track => simp_all [tick, running, Clip.tick, Except.map]
  | delay delay => simp_all [tick, running, Delay.tick, Except.map]
  | puppet puppet =>
    simp_all [tick, running, Puppet.tick, Except.map]

namespace Same

variable {p q : Performer}

theorem eq_or_idle (same : p.Same q) :
    p = q ∨ p.Plain ∧ q.Plain ∧ p.running = false ∧ q.running = false := by
  by_cases active : p.running = true ∨ q.running = true
  · exact .inl (same.running active)
  have idle : p.running = false := by simpa using fun now => active (.inl now)
  have idle' : q.running = false := by simpa using fun now => active (.inr now)
  have renewed := same.renewed
  cases p with
  | scripted s =>
    cases q with
    | scripted t => exact .inl renewed
    | clip | delay | puppet => cases renewed
  | clip | delay | puppet =>
    cases q with
    | scripted t => cases renewed
    | clip | delay | puppet => exact .inr ⟨trivial, trivial, idle, idle'⟩

theorem act (same : p.Same q) (order : Act) :
    (p.act order).1 = (q.act order).1 ∧ (p.act order).2.Same (q.act order).2 := by
  rcases same.eq_or_idle with rfl | ⟨plain, plain', idle, idle'⟩
  · exact ⟨rfl, .refl _⟩
  · by_cases starts : order = .start
    · rw [starts, act_start_renewed idle, act_start_renewed idle', same.renewed]
      exact ⟨rfl, .refl _⟩
    · rw [act_of_idle plain idle starts, act_of_idle plain' idle' starts]
      exact ⟨rfl, same⟩

theorem tick (same : p.Same q) (delta : Span) :
    (∃ overflow, p.tick delta = .error overflow ∧ q.tick delta = .error overflow) ∨
    ∃ events p' q', p.tick delta = .ok (events, p') ∧ q.tick delta = .ok (events, q') ∧
      p'.Same q' := by
  rcases same.eq_or_idle with rfl | ⟨-, -, idle, idle'⟩
  · rcases p.tick delta with overflow | ⟨events, p'⟩
    · exact .inl ⟨overflow, rfl, rfl⟩
    · exact .inr ⟨events, p', p', rfl, rfl, .refl _⟩
  · exact .inr ⟨[], p, q, tick_of_idle idle delta, tick_of_idle idle' delta, same⟩

end Same

theorem map_eq_ok {α β : Type} {f : α → β} {result : Except Overflow α} {value : β}
    (mapped : result.map f = .ok value) : ∃ source, result = .ok source ∧ f source = value := by
  cases result with
  | error overflow => cases mapped
  | ok source => exact ⟨source, rfl, Except.ok.inj mapped⟩

theorem renewed_act {p : Performer} (plain : p.Plain) (order : Act) :
    (p.act order).2.renewed = p.renewed := by
  cases p with
  | clip clip track =>
    cases order with
    | start =>
      simp only [act, Clip.start]
      split
      · rfl
      · split <;> rfl
    | finish | cancel =>
      simp only [act, Clip.finish, Clip.cancel]
      split <;> rfl
  | delay delay =>
    cases order with
    | start =>
      simp only [act, Delay.start]
      split
      · rfl
      · split <;> rfl
    | finish | cancel =>
      simp only [act, Delay.finish, Delay.cancel]
      split <;> rfl
  | puppet puppet =>
    cases order with
    | start =>
      simp only [act, Puppet.start]
      split
      · rfl
      · split <;> rfl
    | finish | cancel =>
      simp only [act, Puppet.finish, Puppet.cancel, Puppet.stop]
      split <;> rfl
  | scripted unit => exact plain.elim

theorem renewed_tick {p next : Performer} {delta : Span} {events : List Lifecycle}
    (ticked : p.tick delta = .ok (events, next)) : next.renewed = p.renewed := by
  cases p with
  | clip clip track =>
    obtain ⟨reply, done, same⟩ := map_eq_ok ticked
    cases same
    simp only [Clip.tick] at done
    split at done
    · split at done
      · cases done
        simp only [Clip.reach]
        split <;> rfl
      · cases done
    · cases done
      rfl
  | delay delay =>
    obtain ⟨reply, done, same⟩ := map_eq_ok ticked
    cases same
    simp only [Delay.tick] at done
    split at done
    · split at done
      · cases done
      · split at done <;> cases done <;> rfl
    · cases done
      rfl
  | puppet puppet =>
    obtain ⟨reply, done, same⟩ := map_eq_ok ticked
    cases same
    simp only [Puppet.tick] at done
    split at done
    · split at done
      · cases done
      · split at done <;> cases done <;> rfl
    · cases done
      rfl
  | scripted unit =>
    cases ticked
    rfl

end Performer

namespace Member

/-- Both members are performers, and these are the same, but for what is past if they do not run. -/
def Same : Member → Member → Prop
  | .performer _ p, .performer _ q => p.Same q
  | _, _ => False

/-- The member without what it remembers of its last run, and without its name. -/
def renewed : Member → Member
  | .performer _ p => .performer none p.renewed
  | .ensemble watch sequence => .ensemble watch sequence

theorem Same.cases {m n : Member} (same : m.Same n) :
    ∃ watch p watch' q, m = .performer watch p ∧ n = .performer watch' q ∧ p.Same q := by
  cases m with
  | ensemble watch sequence => exact same.elim
  | performer watch p =>
    cases n with
    | ensemble watch sequence => exact same.elim
    | performer watch' q => exact ⟨watch, p, watch', q, rfl, rfl, same⟩

theorem channels_logCall (watch : Option String) (line : String → Line) (stage : Stage) :
    (logCall watch line stage).channels = stage.channels := by
  cases watch <;> rfl

theorem channels_logReport (watch : Option String) (events : List Lifecycle) (stage : Stage) :
    (logReport watch events stage).channels = stage.channels := by
  cases watch with
  | none => rfl
  | some name =>
    simp only [logReport]
    split <;> rfl

theorem channels_perform (act : Act) (watch : Option String) (p : Performer) (stage : Stage) :
    (perform act watch p stage).2.2.channels = stage.channels :=
  (channels_logReport _ _ _).trans (channels_logCall _ _ _)

theorem channels_pass (delta : Span) (watch : Option String) (p : Performer) (stage : Stage) :
    (pass delta watch p stage).2.2.channels = stage.channels := by
  simp only [pass]
  split
  · exact channels_logCall _ _ _
  · exact (channels_logReport _ _ _).trans (channels_logCall _ _ _)

/-- Performers that are the same answer alike, and have no part in the traffic of their stages. -/
theorem respects_same (depth : Nat) : (behaviour depth).Respects Same := by
  constructor
  · intro m n same
    obtain ⟨watch, p, watch', q, rfl, rfl, same⟩ := same.cases
    exact same.symm
  · intro act m n stage stage' same
    obtain ⟨watch, p, watch', q, rfl, rfl, same⟩ := same.cases
    rw [act_performer, act_performer]
    exact same.act act
  · intro delta m n stage stage' same
    obtain ⟨watch, p, watch', q, rfl, rfl, same⟩ := same.cases
    rw [tick_performer, tick_performer]
    rcases same.tick delta with ⟨overflow, ticked, ticked'⟩
      | ⟨events, p', q', ticked, ticked', after⟩
    · simp only [pass, Performer.pass, ticked, ticked']
      exact ⟨trivial, same⟩
    · simp only [pass, Performer.pass, ticked, ticked']
      exact ⟨trivial, after⟩
  · intro act m n stage same
    obtain ⟨watch, p, watch', q, rfl, rfl, same⟩ := same.cases
    rw [act_performer]
    exact channels_perform act watch p stage
  · intro delta m n stage same
    obtain ⟨watch, p, watch', q, rfl, rfl, same⟩ := same.cases
    rw [tick_performer]
    exact channels_pass delta watch p stage

theorem renewed_act (depth : Nat) (act : Act) {m : Member} (stage : Stage) (plain : m.Plain) :
    ((behaviour depth).act act m stage).2.1.renewed = m.renewed := by
  cases m with
  | ensemble watch sequence => exact plain.elim
  | performer watch p =>
    rw [act_performer]
    exact congrArg (Member.performer none) (Performer.renewed_act plain act)

theorem renewed_tick (depth : Nat) (delta : Span) {m : Member} (stage : Stage) (plain : m.Plain) :
    ((behaviour depth).tick delta m stage).2.1.renewed = m.renewed := by
  cases m with
  | ensemble watch sequence => exact plain.elim
  | performer watch p =>
    rw [tick_performer]
    rcases p.pass_cases delta (logCall watch Line.ticked stage).recording with
      ⟨overflow, same⟩ | ⟨events, next, ticked, same⟩
    · simp only [pass, same, renewed]
    · simp only [pass, same]
      exact congrArg (Member.performer none) (Performer.renewed_tick ticked)

/-- Whatever a sequence of performers does, they are what they were before they started. -/
theorem renewed_throughout (depth : Nat) : (behaviour depth).Throughout fun before after =>
    before.1.Fits Plain → after.1.Fits Plain ∧
      ∀ id, (after.1.get? id).map renewed = (before.1.get? id).map renewed := by
  have update : ∀ {id : UnitId} {unit after : Member} {registry : Registry Member},
      registry.get? id = some unit → after.Plain → after.renewed = unit.renewed →
      registry.Fits Plain → (registry.update id after).Fits Plain ∧
        ∀ other, ((registry.update id after).get? other).map renewed =
          (registry.get? other).map renewed := by
    intro id unit after registry known plain same fits
    refine ⟨(fits.update known plain).fits, fun other => ?_⟩
    rw [Registry.get?_update known]
    split
    · rename_i here
      rw [here, known, Option.map_some, Option.map_some, same]
    · rfl
  refine ⟨⟨fun setting fits => ⟨fits, fun _ => rfl⟩, fun one two fits => ?_,
    fun act id unit registry stage known fits => ?_, fun delta id unit registry stage known fits =>
    ?_⟩, fun events registry stage fits => ⟨fits, fun _ => rfl⟩, fun _ fits => ⟨fits, fun _ => rfl⟩⟩
  · obtain ⟨plain, same⟩ := one fits
    obtain ⟨plain', same'⟩ := two plain
    exact ⟨plain', fun id => (same' id).trans (same id)⟩
  · have plain := fits id unit known
    exact update known ((dutiful depth).act_fit act unit stage plain)
      (renewed_act depth act stage plain) fits
  · have plain := fits id unit known
    exact update known ((dutiful depth).tick_fit delta unit stage plain)
      (renewed_tick depth delta stage plain)
      fits

/-- A sequence that is used keeps its nodes, and its performers are what they were. -/
theorem renewed_rehearse (depth : Nat) {live : Live Member}
    (fits : live.sequence.registry.Fits Plain) {cues : List (Cue Member)}
    (uses : ∀ cue ∈ cues, cue.uses = true) :
    ∀ id, ((live.rehearse (behaviour depth) cues).2.sequence.registry.get? id).map renewed =
      (live.sequence.registry.get? id).map renewed := by
  induction cues generalizing live with
  | nil => exact fun _ => rfl
  | cons cue rest ih =>
    have now : (live.onCue (behaviour depth) cue).2.sequence.registry.Fits Plain ∧
        ∀ id, ((live.onCue (behaviour depth) cue).2.sequence.registry.get? id).map renewed =
          (live.sequence.registry.get? id).map renewed := by
      cases cue with
      | meanwhile change => exact ⟨fits, fun _ => rfl⟩
      | start | finish | cancel | tick | report | serve =>
        exact Live.setting_onCue (renewed_throughout depth) live rfl fits
      | add | play | together | sequential | sort => cases uses _ (List.mem_cons_self ..)
    have later := ih now.1 fun other member => uses other (List.mem_cons_of_mem _ member)
    exact fun id => (later id).trans (now.2 id)

theorem same_of_renewed {m n : Member} (plain : m.Plain) (plain' : n.Plain)
    (idle : m.running = false) (idle' : n.running = false) (renewed : m.renewed = n.renewed) :
    m.Same n := by
  cases m with
  | ensemble watch sequence => exact plain.elim
  | performer watch p =>
    cases n with
    | ensemble watch sequence => exact plain'.elim
    | performer watch' q =>
      have here : p.running = false := idle
      have there : q.running = false := idle'
      exact ⟨(Member.performer.inj renewed).2, by simp [here, there]⟩

/-- A sequence of this number was built of clips, delays and puppets; then runs were started, ended
and canceled and time went by, until it was idle and nobody was left who will send requests to
it. -/
structure Worn (depth number : Nat) (built worn : Live Member) : Prop where
  building : ∃ stage cues, (∀ cue ∈ cues, cue.Proper (behaviour depth) Plain) ∧
    (∀ outcome ∈ (Live.rehearse (behaviour depth) cues ⟨.empty number, stage⟩).1,
      outcome.returns = true) ∧
    (Live.rehearse (behaviour depth) cues ⟨.empty number, stage⟩).2 = built
  performing : ∃ cues, (∀ cue ∈ cues, cue.uses = true ∧ cue.Proper (behaviour depth) Plain) ∧
    (∀ outcome ∈ (built.rehearse (behaviour depth) cues).1, outcome.returns = true) ∧
    (built.rehearse (behaviour depth) cues).2 = worn
  idle : worn.conductor.phase = .idle
  silent : (worn.stage.channel number).weight = 0

namespace Worn

variable {depth number : Nat} {built worn built' worn' : Live Member}

theorem keep (live : Live Member) {cues : List (Cue Member)}
    (rest : live.sequence.AtRest (behaviour depth) Plain ∧ live.sequence.number = number)
    (proper : ∀ cue ∈ cues, cue.Proper (behaviour depth) Plain)
    (returned : ∀ outcome ∈ (live.rehearse (behaviour depth) cues).1, outcome.returns = true) :
    (live.rehearse (behaviour depth) cues).2.sequence.AtRest (behaviour depth) Plain ∧
      (live.rehearse (behaviour depth) cues).2.sequence.number = number := by
  refine Live.rehearse_induction (behaviour depth)
    (P := fun live => live.sequence.AtRest (behaviour depth) Plain ∧ live.sequence.number = number)
    (fun cue live proper rest returned => ?_) rest proper returned
  exact ⟨Live.onCue_atRest (dutiful depth) proper rest.1 returned,
    (Live.number_onCue (behaviour depth) rest.1.sane.grounded cue).trans rest.2⟩

theorem built_rest (h : Worn depth number built worn) :
    built.sequence.AtRest (behaviour depth) Plain ∧ built.sequence.number = number := by
  obtain ⟨stage, cues, proper, returned, rfl⟩ := h.building
  exact keep _ ⟨Live.atRest_empty number, rfl⟩ proper returned

theorem rest (h : Worn depth number built worn) :
    worn.sequence.AtRest (behaviour depth) Plain ∧ worn.sequence.number = number := by
  obtain ⟨cues, allowed, returned, rfl⟩ := h.performing
  exact keep built h.built_rest (fun cue member => (allowed cue member).2) returned

theorem nodes (h : Worn depth number built worn) :
    worn.conductor.graph.nodes = built.conductor.graph.nodes := by
  obtain ⟨cues, allowed, -, rfl⟩ := h.performing
  obtain ⟨events, performed⟩ := built.performs_rehearse (behaviour depth) fun cue member =>
    Cue.performs_of_uses (allowed cue member).1
  exact performed.nodes

theorem units (h : Worn depth number built worn) (id : UnitId) :
    (worn.sequence.registry.get? id).map renewed =
      (built.sequence.registry.get? id).map renewed := by
  obtain ⟨cues, allowed, -, rfl⟩ := h.performing
  exact renewed_rehearse depth h.built_rest.1.sane.fits
    (fun cue member => (allowed cue member).1) id

/-- Of two sequences that were built alike none can tell from its units what went before. -/
theorem akin (h : Worn depth number built worn) (h' : Worn depth number built' worn')
    (alike : ∀ id, (built.sequence.registry.get? id).map renewed =
      (built'.sequence.registry.get? id).map renewed) : worn.Akin Same number worn' := by
  refine ⟨h.rest.2, h'.rest.2, fun id => ?_, h.rest.1.empty.trans h'.rest.1.empty.symm, h.silent,
    h'.silent⟩
  have renewed := (h.units id).trans ((alike id).trans (h'.units id).symm)
  cases here : worn.sequence.registry.get? id with
  | none =>
    rw [here, Option.map_none] at renewed
    rw [Option.map_eq_none_iff.1 renewed.symm]
    exact .none
  | some m =>
    rw [here, Option.map_some] at renewed
    obtain ⟨n, there, same⟩ := Option.map_eq_some_iff.1 renewed.symm
    rw [there]
    have idle := h.rest.1.still h.idle id m here
    have idle' := h'.rest.1.still h'.idle id n there
    rw [running_behaviour] at idle idle'
    exact .some (same_of_renewed (h.rest.1.sane.fits id m here) (h'.rest.1.sane.fits id n there)
      idle idle' same.symm)

end Worn

/-- A run does not depend on what went before it. Of two idle conductors with the same nodes, no
cycle among them, each decides in a run and in all that follows it what the other one decides,
whatever runs, cancellations, ends and refused starts went before, and they are in the same phase,
with the same units playing, the same lists of what is pending and the same nodes blocked. So of two
sequences that were built of the same clips, delays and puppets and are idle again, however they
were used, or not at all, and whoever listens to them, each calls its units in a new run as the
other one does, its units report the same, and the same is announced. -/
theorem replay_forgets :
    (∀ c d : Conductor, c.Reachable → d.Reachable → c.phase = .idle → d.phase = .idle →
      c.graph.nodes = d.graph.nodes → Graph.Acyclic c.graph.nodes → ∀ operations : List Operation,
      let run := c.run (.begin :: operations)
      let other := d.run (.begin :: operations)
      run.1 = other.1 ∧ run.2.phase = other.2.phase ∧ run.2.playing = other.2.playing ∧
        run.2.waiting = other.2.waiting) ∧
    ∀ (depth number : Nat) (built worn built' worn' : Live Member), Worn depth number built worn →
      Worn depth number built' worn' → built.conductor.graph.nodes = built'.conductor.graph.nodes →
      Graph.Acyclic built.conductor.graph.nodes →
      (∀ id, (built.sequence.registry.get? id).map renewed =
        (built'.sequence.registry.get? id).map renewed) →
      ∀ following : List (Cue Member), (∀ cue ∈ following, cue.Silent number) →
      let b := behaviour depth
      let run := worn.rehearse b (.start :: following)
      let other := worn'.rehearse b (.start :: following)
      run.1 = other.1 ∧ Happening.inward (worn.rehearseStory b (.start :: following)) =
        Happening.inward (worn'.rehearseStory b (.start :: following)) ∧
      run.2.conductor.phase = other.2.conductor.phase ∧
      run.2.conductor.playing = other.2.conductor.playing ∧
      run.2.conductor.waiting = other.2.conductor.waiting := by
  refine ⟨fun c d reached reached' idle idle' nodes acyclic operations => ?_,
    fun depth number built worn built' worn' used used' nodes acyclic units following silent => ?_⟩
  · obtain ⟨decided, after⟩ :=
      Conductor.run_begin_alike reached.sound reached'.sound nodes acyclic idle idle'
      operations
    exact ⟨decided, after.phase, after.playing, after.waiting⟩
  · have same : worn.conductor.graph.nodes = worn'.conductor.graph.nodes :=
      used.nodes.trans (nodes.trans used'.nodes.symm)
    obtain ⟨outcomes, told, after⟩ :=
      Live.rehearse_start_alike (respects_same depth) (used.akin used' units)
      used.rest.1.sane.grounded.sound used'.rest.1.sane.grounded.sound same (used.nodes ▸ acyclic)
        used.idle
      used'.idle silent
    have alike := after.conductor.alike
    exact ⟨outcomes, told, alike.phase, alike.playing, alike.waiting⟩

/-- A clip that is played twice over and a silent puppet that starts with it. -/
def duo : List (Cue Member) :=
  [.add (some "clip") (.performer (some "clip") (.clip (.fresh ⟨3, by decide⟩ 1) none)),
    .add (some "puppet") (.performer none (.puppet (.fresh .manual true))),
    .play (some ⟨0, 0⟩) [.together ⟨0, 1⟩, .afterDelay .zero]]

/-- The two of them on a stage with a listener who wants nothing. -/
def duet : Live Member :=
  (Live.rehearse (behaviour 0) (.meanwhile (Stage.listen 0 "audience" []) :: duo)
    ⟨.empty 0, Stage.bare.openChannel⟩).2

/-- They are canceled in the second round of the clip. -/
def interruption : List (Cue Member) := [.start, .tick ⟨4, by decide⟩, .cancel]

/-- The two of them by themselves, new. -/
def rehearsal : Live Member :=
  (Live.rehearse (behaviour 0) duo ⟨.empty 0, Stage.bare.openChannel⟩).2

theorem proper_duo : ∀ cue ∈ duo, cue.Proper (behaviour 0) Plain := by
  simp [duo, Cue.Proper, Plain, Performer.Plain, behaviour, running, Performer.running, Clip.fresh,
    Puppet.fresh]

theorem worn_duet : Worn 0 0 duet (duet.rehearse (behaviour 0) interruption).2 := by
  have built : (Live.rehearse (behaviour 0) (.meanwhile (Stage.listen 0 "audience" []) :: duo)
    ⟨.empty 0, Stage.bare.openChannel⟩).1 = List.replicate 4 .done := by cbv
  have used : (duet.rehearse (behaviour 0) interruption).1 = List.replicate 3 .done := by cbv
  refine ⟨⟨_, _, fun cue member => ?_, fun outcome member => ?_, rfl⟩,
    ⟨interruption, fun cue member => ?_, fun outcome member => ?_, rfl⟩, by cbv, by cbv⟩
  · rcases List.mem_cons.1 member with rfl | member
    · trivial
    · exact proper_duo cue member
  · rw [built] at member
    rw [List.eq_of_mem_replicate member]
    rfl
  · simp only [interruption, List.mem_cons, List.not_mem_nil, or_false] at member
    rcases member with rfl | rfl | rfl <;> exact ⟨rfl, trivial⟩
  · rw [used] at member
    rw [List.eq_of_mem_replicate member]
    rfl

theorem worn_rehearsal : Worn 0 0 rehearsal rehearsal := by
  have built : (Live.rehearse (behaviour 0) duo ⟨.empty 0, Stage.bare.openChannel⟩).1 =
    List.replicate 3 .done := by cbv
  refine ⟨⟨_, duo, proper_duo, fun outcome member => ?_, rfl⟩,
    ⟨[], by simp, by simp [Live.rehearse], rfl⟩, by cbv, by cbv⟩
  rw [built] at member
  rw [List.eq_of_mem_replicate member]
  rfl

/-- After the interruption the same happens as if they were new. -/
theorem replay_forgets_duo :
    let worn := (duet.rehearse (behaviour 0) interruption).2
    let following := [.start, .tick ⟨4, by decide⟩, .finish]
    Happening.inward (worn.rehearseStory (behaviour 0) following) =
      Happening.inward (rehearsal.rehearseStory (behaviour 0) following) := by
  have sorted : ∃ order, Graph.waveOrder duet.conductor.graph.nodes = .ok order :=
    ⟨[2, 0, 1], by cbv⟩
  have acyclic :=
    (Graph.waveOrder_isOk_iff worn_duet.built_rest.1.sane.grounded.sound.arena).1 sorted
  have nodes : duet.conductor.graph.nodes = rehearsal.conductor.graph.nodes := by cbv
  have registry : duet.sequence.registry = rehearsal.sequence.registry := by cbv
  have silent : ∀ cue ∈ [Cue.tick ⟨4, by decide⟩, .finish], cue.Silent (U := Member) 0 := by
    simp [Cue.Silent]
  exact (replay_forgets.2 0 0 duet _ rehearsal rehearsal worn_duet worn_rehearsal nodes acyclic
    (fun id => by rw [registry]) _ silent).2.1

end Member

end Choreo
