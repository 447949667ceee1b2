import Choreo.Proofs.Sequence.Ledger
import Choreo.Proofs.Sequence.Setting

/-!
# Delivery

Whatever is asked of a sequence and whatever its listeners do, what happens fits the ledger: all
that is announced is delivered to those who listen, in order, and all that is requested is served in
order when nothing is left to deliver. After a call that comes back and is not refused nothing is
left to be done.
-/

namespace Choreo

namespace Live

open Ledger

variable {U : Type} {b : Behaviour U} {fit : U → Prop} {number : Nat} {live : Live U}

/-- A sequence of this number whose units fit and whose listeners are in order. -/
structure Ready (fit : U → Prop) (number : Nat) (live : Live U) : Prop where
  own : live.sequence.number = number
  fits : live.sequence.registry.Fits fit
  ordered : (live.stage.channel number).Ordered

theorem Ready.keep (ready : live.Ready fit number) {after : Live U}
    (kept : live.sequence.registry.Fits fit →
      live.sequence.registry.Keeps fit after.sequence.registry ∧
      ((live.stage.channel number).Ordered → (after.stage.channel number).Ordered)) :
    after.Ready fit number :=
  ⟨(kept ready.fits).1.owner.trans ready.own, (kept ready.fits).1.fits,
    (kept ready.fits).2 ready.ordered⟩

section

variable (discreet : b.Discreet fit number) (announcements : List Lifecycle)

include discreet

theorem Ready.call (ready : live.Ready fit number) (act : Act) (id : UnitId) :
    (live.call b act id).Ready fit number :=
  ready.keep (setting_call discreet.keeps.toWithin live act id)

theorem Ready.execute (ready : live.Ready fit number) (commands : List Command) :
    (execute b commands live).2.Ready fit number :=
  ready.keep (setting_execute discreet.keeps.toWithin live commands)

theorem Ready.drain (ready : live.Ready fit number) : (live.drain b).2.Ready fit number :=
  ready.keep (setting_drain discreet.keeps.toWithin live)

theorem Ready.drive (ready : live.Ready fit number) (decision : Decision) :
    (live.drive b decision).2.Ready fit number :=
  ready.keep (setting_drive discreet.keeps.toWithin live decision)

theorem Ready.obey (ready : live.Ready fit number) (act : Act) :
    (obey b act live).2.Ready fit number :=
  ready.keep (setting_obey discreet.keeps.toWithin live act)

theorem Ready.tickRun (ready : live.Ready fit number) (delta : Span) :
    (live.tickRun b delta).2.Ready fit number :=
  ready.keep (setting_tickRun discreet.keeps.toWithin live delta)

omit discreet in
theorem Ready.deliver (ready : live.Ready fit number) (events : List Lifecycle) :
    (live.deliver events).Ready fit number :=
  ⟨ready.own, ready.fits,
    (live.stage.spares_announceAll number live.sequence.number events).grows.ordered ready.ordered⟩

theorem leads_callStory (ready : live.Ready fit number) (act : Act) (id : UnitId) :
    (ofStage number announcements false live.stage).Leads (live.callStory b act id)
      (ofStage number announcements false (live.call b act id).stage) := by
  rw [callStory, Live.call, ready.own]
  cases known : live.sequence.registry.get? id with
  | none => exact .nil _
  | some unit =>
    exact .cons rfl
      (leads_changes ready.ordered
        (discreet.act act unit live.stage (ready.fits id unit known)).2.grows)

theorem leads_executeStory (ready : live.Ready fit number) (commands : List Command) :
    (ofStage number announcements false live.stage).Leads (executeStory b commands live)
      (ofStage number (announcements ++ (Live.execute b commands live).1) false
        (Live.execute b commands live).2.stage) := by
  induction commands generalizing live announcements with
  | nil =>
    rw [Live.execute, List.append_nil]
    exact .nil _
  | cons command commands ih =>
    cases command with
    | call act id =>
      exact (leads_callStory discreet announcements ready act id).append
        (ih announcements (ready.call discreet act id))
    | announce event =>
      have later := ih (announcements ++ [event]) ready
      rw [List.append_assoc] at later
      exact .cons rfl later

theorem leads_drainStory (ready : live.Ready fit number) :
    (ofStage number announcements false live.stage).Leads (live.drainStory b)
      (ofStage number (announcements ++ (live.drain b).1) false (live.drain b).2.stage) := by
  induction live using Live.drain.induct b generalizing announcements with
  | case1 live none =>
    rw [drainStory_of_nil b live none, drain_of_nil b none, List.append_nil]
    exact .nil _
  | case2 live report rest queue done =>
    rename_i ih
    let heeding : Live U :=
      ⟨{ live.sequence with conductor := (live.conductor.step report).2, queue := rest },
        live.stage⟩
    have looking : heeding.Ready fit number := ⟨ready.own, ready.fits, ready.ordered⟩
    have looked := leads_executeStory discreet announcements looking
      (live.conductor.step report).1.commands
    have later := ih (announcements ++ done.1) (looking.execute discreet _)
    rw [drainStory_of_cons b live queue, drain_of_cons b queue, ← List.append_assoc]
    exact looked.append later

theorem leads_driveStory (ready : live.Ready fit number) (decision : Decision) :
    (ofStage number announcements false live.stage).Leads (live.driveStory b decision)
      (ofStage number (announcements ++ (live.drive b decision).1) false
        (live.drive b decision).2.stage) := by
  have executed := leads_executeStory discreet announcements ready decision.commands
  have drained := leads_drainStory discreet
    (announcements ++ (Live.execute b decision.commands live).1)
    (ready.execute discreet decision.commands)
  rw [List.append_assoc] at drained
  exact executed.append drained

theorem leads_windDownStory (ready : live.Ready fit number) (decided : Decision × Conductor) :
    (ofStage number announcements false live.stage).Leads (live.windDownStory b decided)
      (ofStage number (announcements ++ (live.windDown b decided).1) false
        (live.windDown b decided).2.stage) := by
  have winding : (live.withConductor decided.2).Ready fit number :=
    ⟨ready.own, ready.fits, ready.ordered⟩
  let wound := (live.withConductor decided.2).drive b decided.1
  have wound' : wound.2.Ready fit number := winding.drive discreet decided.1
  have settling : (wound.2.withConductor wound.2.conductor.settle.2).Ready fit number :=
    ⟨wound'.own, wound'.fits, wound'.ordered⟩
  have settled := leads_driveStory discreet (announcements ++ wound.1) settling
    wound.2.conductor.settle.1
  rw [List.append_assoc] at settled
  exact (leads_driveStory discreet announcements winding decided.1).append settled

/-- A call leads to what it announces, or is refused and leads to nothing. -/
theorem leads_obeyStory (ready : live.Ready fit number) (act : Act) :
    (ofStage number [] false live.stage).Leads (live.obeyStory b act)
      (ofStage number (Live.obey b act live).1 (live.refuses act)
        (Live.obey b act live).2.stage) := by
  cases act with
  | start =>
    rcases begun : live.conductor.begin with ⟨cycle | decision, conductor⟩
    · simp only [obeyStory, startRunStory, Live.obey, startRun, refuses, begun]
      exact .cons rfl (.nil _)
    · simp only [obeyStory, startRunStory, Live.obey, startRun, refuses, begun]
      have starting : (live.withConductor conductor).Ready fit number :=
        ⟨ready.own, ready.fits, ready.ordered⟩
      exact leads_driveStory discreet [] starting decision
  | finish => exact leads_windDownStory discreet [] ready _
  | cancel => exact leads_windDownStory discreet [] ready _

theorem leads_tickUnitsStory (ready : live.Ready fit number) (delta : Span) (units : List UnitId) :
    (ofStage number announcements false live.stage).Leads (live.tickUnitsStory b delta units)
      (ofStage number announcements false (live.tickUnits b delta units).2.stage) := by
  induction units generalizing live with
  | nil => exact .nil _
  | cons id units ih =>
    have first : (ofStage number announcements false live.stage).Leads
        (live.tickUnitStory b delta id)
        (ofStage number announcements false (live.tickUnit b delta id).2.stage) := by
      rw [tickUnitStory, tickUnit, ready.own]
      cases known : live.sequence.registry.get? id with
      | none => exact .nil _
      | some unit =>
        have spared := (discreet.tick delta unit live.stage (ready.fits id unit known)).2
        simp only
        rcases reply : b.tick delta unit live.stage with ⟨overflow | events, unit', stage⟩ <;>
          rw [reply] at spared <;> exact .cons rfl (leads_changes ready.ordered spared.grows)
    have kept := ready.keep (setting_tickUnits discreet.keeps.toWithin live delta [id])
    rw [tickUnits] at kept
    rw [tickUnitsStory, tickUnits]
    rcases reply : live.tickUnit b delta id with ⟨overflow | ⟨⟩, next⟩
    · rw [reply] at first
      exact first.append (.nil _)
    · rw [reply] at first kept
      exact first.append (ih kept)

/-- A tick that is broken off has announced nothing. -/
theorem leads_tickRunStory (ready : live.Ready fit number) (delta : Span) :
    (ofStage number [] false live.stage).Leads (live.tickRunStory b delta)
      (ofStage number ((live.tickRun b delta).1.toOption.getD []) false
        (live.tickRun b delta).2.stage) := by
  have ticked := leads_tickUnitsStory discreet [] ready delta live.conductor.playing.units
  have kept := ready.keep
    (setting_tickUnits discreet.keeps.toWithin live delta live.conductor.playing.units)
  rw [tickRunStory, tickRun]
  split
  · exact .nil _
  · simp only
    rcases reply : live.tickUnits b delta live.conductor.playing.units with ⟨overflow | ⟨⟩, next⟩
    · rw [reply] at ticked
      exact ticked.append (.nil _)
    · rw [reply] at ticked kept
      exact ticked.append (leads_drainStory discreet [] kept)

omit discreet in
theorem leads_deliverStory (ready : live.Ready fit number) (events : List Lifecycle)
    (refused : Bool) :
    (ofStage number events refused live.stage).Leads (live.deliverStory events)
      (ofStage number [] refused (live.deliver events).stage) := by
  rw [deliverStory, deliver, ready.own]
  exact leads_announceAllStory ready.ordered events

/-- Requests are served one after the other, each with all that comes of it. With as much patience
as the stage has weight none is left. -/
theorem leads_serveStory (limit : Nat) (ready : live.Ready fit number) (refused : Bool) :
    ∃ refused', (ofStage number [] refused live.stage).Leads (live.serveStory b limit)
        (ofStage number [] refused' (live.serve b limit).2.stage) ∧
      (live.stage.weight ≤ limit →
        ((live.serve b limit).2.stage.channel number).requests = []) := by
  induction limit generalizing live refused with
  | zero => exact ⟨refused, .nil _, fun light => Stage.requests_of_weight (Nat.le_zero.1 light)⟩
  | succ limit ih =>
    rw [serveStory, serve, ready.own]
    cases next : live.stage.nextRequest? number with
    | none => exact ⟨refused, .nil _, fun _ => Stage.nextRequest?_eq_none.1 next⟩
    | some taken =>
      obtain ⟨act, stage⟩ := taken
      obtain ⟨requests, listeners, nextId, lighter, -⟩ := Stage.nextRequest?_eq_some next
      have served : (ofStage number [] refused live.stage).enter (.served act) =
          some (ofStage number [] false stage) := by
        simp [enter, ofStage, requests, Channel.roster, listeners]
      let taken : Live U := { live with stage }
      have took : taken.Ready fit number := by
        refine ⟨ready.own, ready.fits, ?_⟩
        rw [Channel.Ordered, listeners, nextId]
        exact ready.ordered
      have obeyed := took.obey discreet act
      have spared := (setting_obey discreet.within taken act took.fits).2
      obtain ⟨refused', later, done⟩ :=
        ih (obeyed.deliver (Live.obey b act taken).1) (taken.refuses act)
      refine ⟨refused', .cons served ?_, fun light => done ?_⟩
      · exact (leads_obeyStory discreet took act).append
          ((leads_deliverStory obeyed (Live.obey b act taken).1 _).append later)
      · have told := Stage.spares_announceAll number (Live.obey b act taken).2.sequence.number
          (Live.obey b act taken).1 (Live.obey b act taken).2.stage
        have less : (Live.obey b act taken).2.stage.weight ≤ stage.weight := spared.weight
        have least : ((Live.obey b act taken).2.deliver (Live.obey b act taken).1).stage.weight ≤
          (Live.obey b act taken).2.stage.weight := told.weight
        omega

/-- What was announced is delivered and what was requested is served until nothing is left. -/
theorem leads_publishStory (ready : live.Ready fit number) (events : List Lifecycle) :
    ∃ refused, (ofStage number events false live.stage).Leads (live.publishStory b events)
        (ofStage number [] refused (live.publish b events).2.stage) ∧
      ((live.publish b events).2.stage.channel number).requests = [] := by
  obtain ⟨refused, served, done⟩ := leads_serveStory discreet (live.deliver events).stage.weight
    (ready.deliver events) false
  exact ⟨refused, (leads_deliverStory ready events false).append served, done (Nat.le_refl _)⟩

/-- After a call that is not refused nothing is left to be done. -/
theorem leads_respondStory (ready : live.Ready fit number) (act : Act) :
    ∃ refused, (ofStage number [] false live.stage).Leads (live.respondStory b act)
        (ofStage number [] refused (live.respond b act).2.stage) ∧
      (live.refuses act = false → ((live.respond b act).2.stage.channel number).requests = []) := by
  have obeyed := leads_obeyStory discreet ready act
  obtain ⟨refused, published, done⟩ := leads_publishStory discreet (ready.obey discreet act)
    (Live.obey b act live).1
  rw [respondStory, respond]
  cases begins : live.refuses act with
  | true =>
    rw [begins] at obeyed
    rw [fst_obey_of_refuses b begins] at obeyed
    exact ⟨true, obeyed.append (.nil _), fun h => by cases h⟩
  | false =>
    rw [begins] at obeyed
    exact ⟨refused, obeyed.append published, fun _ => done⟩

theorem leads_tickStory (ready : live.Ready fit number) (delta : Span) :
    ∃ refused, (ofStage number [] false live.stage).Leads (live.tickStory b delta)
        (ofStage number [] refused (live.tick b delta).2.stage) ∧
      ((∃ value, (live.tick b delta).1 = .ok value) →
        ((live.tick b delta).2.stage.channel number).requests = []) := by
  have ticked := leads_tickRunStory discreet ready delta
  have after := ready.tickRun discreet delta
  rw [tickStory, tick]
  rcases reply : live.tickRun b delta with ⟨overflow | events, next⟩
  · rw [reply] at ticked
    refine ⟨false, ticked.append (.nil _), ?_⟩
    rintro ⟨value, returned⟩
    cases returned
  · rw [reply] at ticked after
    obtain ⟨refused, published, done⟩ := leads_publishStory discreet after events
    exact ⟨refused, ticked.append published, fun _ => done⟩

theorem leads_reportStory (ready : live.Ready fit number) (report : Report) :
    ∃ refused, (ofStage number [] false live.stage).Leads (live.reportStory b report)
        (ofStage number [] refused (live.report b report).stage) ∧
      ((live.report b report).stage.channel number).requests = [] := by
  let queued : Live U :=
    { live with sequence := { live.sequence with queue := live.sequence.queue ++ [report] } }
  have waiting : queued.Ready fit number := ⟨ready.own, ready.fits, ready.ordered⟩
  have drained := leads_drainStory discreet [] waiting
  obtain ⟨refused, published, done⟩ := leads_publishStory discreet (waiting.drain discreet)
    (queued.drain b).1
  exact ⟨refused, drained.append published, done⟩

end

end Live

/-- A cue that brings in no unit but one that fits, and takes no requests out of the channel. -/
def Cue.Polite {U : Type} (fit : U → Prop) (number : Nat) : Cue U → Prop
  | .add _ unit => fit unit
  | .meanwhile change =>
    ∀ stage : Stage, (stage.channel number).Grows ((change stage).channel number)
  | _ => True

theorem Cue.polite_of_calls {U : Type} {fit : U → Prop} {number : Nat} {cue : Cue U}
    (calls : cue.calls = true) : cue.Polite fit number := by
  cases cue with
  | add | meanwhile => cases calls
  | play | together | sequential | sort | start | finish | cancel | tick | report | serve => trivial

namespace Live

open Ledger

variable {U : Type} {b : Behaviour U} {fit : U → Prop} {number : Nat} {live : Live U}

/-- The story of every cue fits the ledger, and after a call that comes back and is not refused
nothing is left to be done. -/
theorem leads_cueStory (discreet : b.Discreet fit number) (ready : live.Ready fit number)
    {cue : Cue U} (polite : cue.Polite fit number) :
    ∃ refused, (ofStage number [] false live.stage).Leads (live.cueStory b cue)
        (ofStage number [] refused (live.onCue b cue).2.stage) ∧
      (cue.calls = true → (live.onCue b cue).1 = .done →
        ((live.onCue b cue).2.stage.channel number).requests = []) := by
  cases cue with
  | add | play | together | sequential | sort => exact ⟨false, .nil _, fun calls => by cases calls⟩
  | start =>
    obtain ⟨refused, responded, done⟩ := leads_respondStory discreet ready .start
    rw [cueStory, onCue, snd_start]
    refine ⟨refused, responded, fun _ returned => done ?_⟩
    rcases live.start_cases b with ⟨cycle, next, started, -, -⟩ | ⟨events, next, -, begins, -⟩
    · simp only [start, started, Outcome.ofResult] at returned
      cases returned
    · exact begins
  | finish =>
    obtain ⟨refused, responded, done⟩ := leads_respondStory discreet ready .finish
    exact ⟨refused, responded, fun _ _ => done rfl⟩
  | cancel =>
    obtain ⟨refused, responded, done⟩ := leads_respondStory discreet ready .cancel
    exact ⟨refused, responded, fun _ _ => done rfl⟩
  | tick delta =>
    obtain ⟨refused, ticked, done⟩ := leads_tickStory discreet ready delta
    refine ⟨refused, ticked, fun _ returned => done ?_⟩
    have done : Outcome.ofTick (live.tick b delta).1 = .done := returned
    exact Outcome.returns_ofTick.1 (done ▸ rfl)
  | report report =>
    obtain ⟨refused, reported, done⟩ := leads_reportStory discreet ready report
    exact ⟨refused, reported, fun _ _ => done⟩
  | serve =>
    obtain ⟨refused, published, done⟩ := leads_publishStory discreet ready []
    exact ⟨refused, published, fun _ _ => done⟩
  | meanwhile change =>
    refine ⟨false, ?_, fun calls => by cases calls⟩
    rw [cueStory, ready.own]
    exact leads_changes ready.ordered (polite live.stage)

/-- A polite cue leaves a sequence ready for the next one. -/
theorem Ready.onCue (discreet : b.Discreet fit number) (ready : live.Ready fit number)
    (grounded : live.sequence.Grounded) {cue : Cue U} (polite : cue.Polite fit number) :
    (live.onCue b cue).2.Ready fit number ∧ (live.onCue b cue).2.sequence.Grounded := by
  have relates : cue.relates = true →
      (live.onCue b cue).2.Ready fit number ∧ (live.onCue b cue).2.sequence.Grounded := by
    intro relates
    obtain ⟨stage, after, extended⟩ := extended_onCue b grounded relates
    refine ⟨⟨extended.owner.trans ready.own, fun id unit known => ?_, stage ▸ ready.ordered⟩, after⟩
    rcases extended.made id unit known with before | ⟨-, delay, rfl⟩
    · exact ready.fits id unit before
    · exact discreet.timer delay
  have performs : cue.calls = true →
      (live.onCue b cue).2.Ready fit number ∧ (live.onCue b cue).2.sequence.Grounded := by
    intro calls
    have kept := setting_onCue discreet.keeps live calls
    have performed := live.performs_cueStory b (Cue.performs_of_uses (Cue.uses_of_calls calls))
    refine ⟨ready.keep kept, performed.sound grounded.sound, fun unit member => ?_⟩
    have contains : (live.onCue b cue).2.sequence.registry.contains unit =
      live.sequence.registry.contains unit := (kept ready.fits).1.contains unit
    rw [contains]
    have nodes : (live.onCue b cue).2.sequence.graph.nodes = live.sequence.graph.nodes :=
      performed.nodes
    exact grounded.registered unit (nodes ▸ member)
  cases cue with
  | add label unit =>
    refine ⟨⟨ready.own, fun id other known => ?_, ready.ordered⟩, grounded.engage _⟩
    have after : (live.sequence.add label unit).2.registry.get? id =
        if id = live.sequence.registry.nextId then some unit else live.sequence.registry.get? id :=
      live.sequence.registry.get?_push _ id
    have known : (live.sequence.add label unit).2.registry.get? id = some other := known
    rw [after] at known
    split at known
    · cases known
      exact polite
    · exact ready.fits id other known
  | play | together | sequential | sort => exact relates rfl
  | start | finish | cancel | tick | report | serve => exact performs rfl
  | meanwhile change =>
    exact ⟨⟨ready.own, ready.fits, (polite live.stage).ordered ready.ordered⟩, grounded⟩

/-- Whatever is asked of a sequence, the story fits the ledger from first to last. -/
theorem leads_rehearseStory (discreet : b.Discreet fit number) (ready : live.Ready fit number)
    (grounded : live.sequence.Grounded) {cues : List (Cue U)}
    (polite : ∀ cue ∈ cues, cue.Polite fit number) (refused : Bool) :
    (∃ refused', (ofStage number [] refused live.stage).Leads (live.rehearseStory b cues)
      (ofStage number [] refused' (live.rehearse b cues).2.stage)) ∧
    (live.rehearse b cues).2.Ready fit number := by
  induction cues generalizing live refused with
  | nil => exact ⟨⟨refused, .nil _⟩, ready⟩
  | cons cue rest ih =>
    have first := polite cue (List.mem_cons_self ..)
    obtain ⟨refused', told, -⟩ := leads_cueStory discreet ready first
    obtain ⟨ready', grounded'⟩ := ready.onCue discreet grounded first
    obtain ⟨⟨refused'', later⟩, last⟩ := ih ready' grounded'
      (fun other member => polite other (List.mem_cons_of_mem _ member)) refused'
    have cued : (ofStage number [] refused live.stage).enter .cued =
        some (ofStage number [] false live.stage) := rfl
    exact ⟨⟨refused'', (Leads.cons cued told).append later⟩, last⟩

end Live

end Choreo
