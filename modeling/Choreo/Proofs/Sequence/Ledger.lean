import Choreo.Proofs.Sequence.Story

/-!
# The ledger of deliveries

A ledger is kept of what is announced and not delivered yet, of who listens, of who is still to be
told of what, of the requests that were sent and are not served yet, and of a start that was
refused. A story fits a ledger if the first announcement is delivered before the next one and while
nobody is still being told of another one; if those who are called together are just those who
joined and have not left, in the order in which they joined, and are told one after the other; if
the first request is served before the next one and only when nothing is left to deliver; and if
nothing comes of a start that is refused. So a listener who is called whenever listeners are is told
all that is announced.
-/

namespace Choreo

/-- Whether the listener of this number is among those who are called, if any are. -/
def Happening.calls (id : Nat) : Happening → Bool
  | .called _ audience => (audience.map Prod.fst).contains id
  | _ => true

/-- What is still to be done, as far as the story has been told. -/
structure Ledger where
  announcements : List Lifecycle
  roster : List (Nat × Ear)
  telling : List (Nat × Ear × Lifecycle)
  requests : List Act
  refused : Bool
  deriving DecidableEq

namespace Ledger

/-- The ledger after one more happening, if that may happen now. -/
def enter (ledger : Ledger) : Happening → Option Ledger
  | .cued =>
    if ledger.announcements = [] ∧ ledger.telling = [] then some { ledger with refused := false }
      else none
  | .asked .. => if ledger.telling = [] ∧ ledger.refused = false then some ledger else none
  | .announced event =>
    if ledger.telling = [] ∧ ledger.refused = false then
      some { ledger with announcements := ledger.announcements ++ [event] }
    else none
  | .called event audience =>
    match ledger.announcements with
    | [] => none
    | first :: rest =>
      if first = event ∧ ledger.telling = [] ∧ audience = ledger.roster ∧
          (audience.map Prod.fst).Pairwise (· < ·) then
        some { ledger with
          announcements := rest
          telling := audience.map fun entry => (entry.1, entry.2, event) }
      else none
  | .told id ear event =>
    match ledger.telling with
    | [] => none
    | first :: rest =>
      if first = (id, ear, event) then some { ledger with telling := rest } else none
  | .left id => some { ledger with roster := ledger.roster.filter fun entry => entry.1 != id }
  | .joined id ear => some { ledger with roster := ledger.roster ++ [(id, ear)] }
  | .sent act => some { ledger with requests := ledger.requests ++ [act] }
  | .served act =>
    match ledger.requests with
    | [] => none
    | first :: rest =>
      if first = act ∧ ledger.announcements = [] ∧ ledger.telling = [] then
        some { ledger with requests := rest, refused := false }
      else none
  | .refused =>
    if ledger.announcements = [] ∧ ledger.telling = [] then some { ledger with refused := true }
      else none

/-- The ledger after a story, if all of it may happen. -/
def follow (ledger : Ledger) : List Happening → Option Ledger
  | [] => some ledger
  | happening :: rest => (ledger.enter happening).bind fun next => next.follow rest

/-- A story may happen and leads from one ledger to another one. -/
def Leads (before : Ledger) (story : List Happening) (after : Ledger) : Prop :=
  before.follow story = some after

namespace Leads

variable {first second third : Ledger} {story more : List Happening}

theorem nil (ledger : Ledger) : ledger.Leads [] ledger := rfl

theorem cons {happening : Happening} (now : first.enter happening = some second)
    (later : second.Leads story third) : first.Leads (happening :: story) third := by
  rw [Leads, follow, now]
  exact later

theorem append (one : first.Leads story second) (two : second.Leads more third) :
    first.Leads (story ++ more) third := by
  induction story generalizing first with
  | nil =>
    cases one
    exact two
  | cons happening rest ih =>
    obtain ⟨next, now, later⟩ := Option.bind_eq_some_iff.1 one
    exact cons now (ih later)

end Leads

theorem leads_left (ledger : Ledger) (gone : List (Nat × Ear)) :
    ledger.Leads (gone.map fun entry => .left entry.1)
      { ledger with
        roster := ledger.roster.filter fun entry => gone.all fun other => entry.1 != other.1 } := by
  induction gone generalizing ledger with
  | nil =>
    simp only [List.all_nil, List.filter_true]
    exact .nil _
  | cons first rest ih =>
    have later := ih { ledger with roster := ledger.roster.filter fun entry => entry.1 != first.1 }
    simp only [List.filter_filter] at later
    simp only [List.all_cons]
    simp only [Bool.and_comm] at later ⊢
    exact .cons rfl later

theorem leads_joined (ledger : Ledger) (more : List (Nat × Ear)) :
    ledger.Leads (more.map fun entry => .joined entry.1 entry.2)
      { ledger with roster := ledger.roster ++ more } := by
  induction more generalizing ledger with
  | nil =>
    rw [List.append_nil]
    exact .nil _
  | cons entry more ih =>
    have later := ih { ledger with roster := ledger.roster ++ [entry] }
    simp only [List.append_assoc] at later
    exact .cons rfl later

theorem leads_sent (ledger : Ledger) (more : List Act) :
    ledger.Leads (more.map .sent) { ledger with requests := ledger.requests ++ more } := by
  induction more generalizing ledger with
  | nil =>
    rw [List.append_nil]
    exact .nil _
  | cons act more ih =>
    have later := ih { ledger with requests := ledger.requests ++ [act] }
    simp only [List.append_assoc] at later
    exact .cons rfl later

theorem enter_cases {before after : Ledger} {happening : Happening}
    (now : before.enter happening = some after) :
    match happening with
    | .announced event => after = { before with announcements := before.announcements ++ [event] }
    | .called event audience => before.telling = [] ∧ (audience.map Prod.fst).Pairwise (· < ·) ∧
        before.announcements = event :: after.announcements ∧
        after.telling = (audience.map fun entry => (entry.1, entry.2, event)) ∧
        after.requests = before.requests
    | .told id ear event => before.telling = (id, ear, event) :: after.telling ∧
        after.announcements = before.announcements ∧ after.requests = before.requests
    | .sent act => after = { before with requests := before.requests ++ [act] }
    | .served act => before.requests = act :: after.requests ∧
        after.announcements = before.announcements ∧ after.telling = before.telling
    | _ => after.announcements = before.announcements ∧ after.telling = before.telling ∧
        after.requests = before.requests := by
  obtain ⟨announcements, roster, telling, requests, refused⟩ := before
  cases happening with
  | cued | asked | refused | announced =>
    simp only [enter, Option.ite_none_right_eq_some] at now
    obtain ⟨-, now⟩ := now
    cases now
    trivial
  | left | joined | sent =>
    cases now
    trivial
  | served act =>
    cases requests with
    | nil => cases now
    | cons first rest =>
      simp only [enter, Option.ite_none_right_eq_some] at now
      obtain ⟨⟨rfl, -⟩, same⟩ := now
      cases same
      trivial
  | called event audience =>
    cases announcements with
    | nil => cases now
    | cons first rest =>
      simp only [enter, Option.ite_none_right_eq_some] at now
      obtain ⟨⟨rfl, rfl, -, distinct⟩, same⟩ := now
      cases same
      exact ⟨rfl, distinct, rfl, rfl, rfl⟩
  | told other ear event =>
    cases telling with
    | nil => cases now
    | cons first rest =>
      simp only [enter, Option.ite_none_right_eq_some] at now
      obtain ⟨rfl, same⟩ := now
      cases same
      trivial

/-- If each happening of some kind puts something on a list in the ledger and each one of another
kind takes the first off, the latter have taken off what was there and what the former put on, in
order. -/
theorem Leads.balance {α : Type} {list : Ledger → List α} {puts takes : Happening → Option α}
    {allowed : Happening → Prop} (step : ∀ {before after happening}, allowed happening →
      before.enter happening = some after →
      (takes happening).toList ++ list after = list before ++ (puts happening).toList)
    {first last : Ledger} {story : List Happening} (leads : first.Leads story last)
    (all : ∀ happening ∈ story, allowed happening) :
    story.filterMap takes ++ list last = list first ++ story.filterMap puts := by
  have unfold : ∀ (f : Happening → Option α) (happening : Happening) (rest : List Happening),
      (happening :: rest).filterMap f = (f happening).toList ++ rest.filterMap f := by
    intro f happening rest
    rw [List.filterMap_cons]
    cases f happening <;> rfl
  induction story generalizing first with
  | nil =>
    cases leads
    exact (List.append_nil _).symm
  | cons happening rest ih =>
    obtain ⟨next, now, later⟩ := Option.bind_eq_some_iff.1 leads
    have one := step (all happening (List.mem_cons_self ..)) now
    have more := ih later fun other member => all other (List.mem_cons_of_mem _ member)
    calc (happening :: rest).filterMap takes ++ list last
        = (takes happening).toList ++ (rest.filterMap takes ++ list last) := by
          rw [unfold, List.append_assoc]
      _ = ((takes happening).toList ++ list next) ++ rest.filterMap puts := by
          rw [more, List.append_assoc]
      _ = list first ++ (happening :: rest).filterMap puts := by
          rw [one, unfold, List.append_assoc]

theorem Leads.services {first last : Ledger} {story : List Happening}
    (leads : first.Leads story last) :
    Happening.services story ++ last.requests = first.requests ++ Happening.requests story := by
  refine leads.balance (fun {before after happening} (_ : True) now => ?_)
    fun _ _ => trivial
  have done := enter_cases now
  cases happening with
  | sent act =>
    rw [done]
    rfl
  | served act => exact done.1.symm.trans (List.append_nil _).symm
  | announced event =>
    rw [done]
    exact (List.append_nil _).symm
  | called event audience => exact done.2.2.2.2.trans (List.append_nil _).symm
  | cued | asked | told | left | joined | refused => exact done.2.2.trans (List.append_nil _).symm

theorem Leads.deliveries {first last : Ledger} {story : List Happening}
    (leads : first.Leads story last) :
    Happening.deliveries story ++ last.announcements =
      first.announcements ++ Happening.announcements story := by
  refine leads.balance (fun {before after happening} (_ : True) now => ?_)
    fun _ _ => trivial
  have done := enter_cases now
  cases happening with
  | announced event =>
    rw [done]
    rfl
  | called event audience => exact done.2.2.1.symm.trans (List.append_nil _).symm
  | sent act =>
    rw [done]
    exact (List.append_nil _).symm
  | told id ear event => exact done.2.1.trans (List.append_nil _).symm
  | served act => exact done.2.1.trans (List.append_nil _).symm
  | cued | asked | left | joined | refused => exact done.1.trans (List.append_nil _).symm

/-- What the listener of this number is still to be told if it is called whenever listeners are. -/
def owed (id : Nat) (ledger : Ledger) : List Lifecycle :=
  ledger.telling.filterMap (fun entry => if entry.1 = id then some entry.2.2 else none) ++
    ledger.announcements

theorem owed_called {id : Nat} (event : Lifecycle) {audience : List (Nat × Ear)}
    (distinct : (audience.map Prod.fst).Pairwise (· < ·)) (present : id ∈ audience.map Prod.fst) :
    (audience.map fun entry => (entry.1, entry.2, event)).filterMap
      (fun entry => if entry.1 = id then some entry.2.2 else none) = [event] := by
  induction audience with
  | nil => cases present
  | cons entry rest ih =>
    rw [List.map_cons, List.pairwise_cons] at distinct
    by_cases first : entry.1 = id
    · have others : ∀ other ∈ rest, other.1 ≠ id := fun other member =>
        first ▸ Nat.ne_of_gt (distinct.1 other.1 (List.mem_map_of_mem member))
      rw [List.map_cons, List.filterMap_cons, if_pos first]
      simpa using others
    · rw [List.map_cons, List.mem_cons] at present
      rw [List.map_cons, List.filterMap_cons, if_neg first]
      exact ih distinct.2 (present.resolve_left fun same => first same.symm)

/-- A listener who is called whenever listeners are called is told all that is announced, in that
order. -/
theorem Leads.toldTo {id : Nat} {first last : Ledger} {story : List Happening}
    (leads : first.Leads story last) (present : ∀ happening ∈ story, happening.calls id = true) :
    Happening.toldTo id story ++ last.owed id = first.owed id ++ Happening.announcements story := by
  refine leads.balance (fun {before after happening} present now => ?_) present
  have done := enter_cases now
  cases happening with
  | announced event =>
    rw [done]
    simp [owed, Happening.heardBy?, Happening.announcement?]
  | called event audience =>
    obtain ⟨nobody, distinct, first, telling, -⟩ := done
    rw [owed, owed, nobody, first, telling,
      owed_called event distinct (List.contains_iff_mem.1 present)]
    exact (List.append_nil _).symm
  | told other ear event =>
    obtain ⟨first, same, -⟩ := done
    rw [owed, owed, first, same, List.filterMap_cons]
    by_cases mine : other = id
    · simp [Happening.heardBy?, Happening.announcement?, mine]
    · simp [Happening.heardBy?, Happening.announcement?, mine]
  | sent act =>
    rw [done]
    exact (List.append_nil _).symm
  | served act =>
    obtain ⟨-, announcements, telling⟩ := done
    rw [owed, owed, announcements, telling]
    exact (List.append_nil _).symm
  | cued | asked | left | joined | refused =>
    obtain ⟨announcements, telling, -⟩ := done
    rw [owed, owed, announcements, telling]
    exact (List.append_nil _).symm

/-- The requests of a channel, with these announcements outstanding and nobody left to tell. -/
def ofStage (number : Nat) (announcements : List Lifecycle) (refused : Bool) (stage : Stage) :
    Ledger :=
  ⟨announcements, (stage.channel number).roster, [], (stage.channel number).requests, refused⟩

/-- Where nothing is outstanding before and after, a listener who is called whenever listeners are
has been told all that was announced. -/
theorem toldTo_eq_announcements {id number : Nat} {first last : Stage} {before after : Bool}
    {story : List Happening} (present : ∀ happening ∈ story, happening.calls id = true)
    (leads : (ofStage number [] before first).Leads story (ofStage number [] after last)) :
    Happening.toldTo id story = Happening.announcements story :=
  (List.append_nil _).symm.trans (leads.toldTo present)

variable {announcements : List Lifecycle} {telling : List (Nat × Ear × Lifecycle)} {refused : Bool}

/-- As long as requests are only put behind those that wait already, and listeners behind those that
are there, the ledger has them all. -/
theorem leads_changes {number : Nat} {before after : Stage}
    (ordered : (before.channel number).Ordered)
    (grows : (before.channel number).Grows (after.channel number)) : Leads
      ⟨announcements, (before.channel number).roster, telling, (before.channel number).requests,
        refused⟩
      (Stage.changes number before after)
      ⟨announcements, (after.channel number).roster, telling, (after.channel number).requests,
        refused⟩ := by
  let old := before.channel number
  let new := after.channel number
  have stay : old.roster.filter (fun entry =>
      (old.roster.filter fun entry => !new.has entry.1).all fun other => entry.1 != other.1) =
        old.roster.filter fun entry => new.has entry.1 := by
    refine List.filter_congr fun entry member => Bool.eq_iff_iff.2 ?_
    rw [List.all_eq_true]
    constructor
    · intro apart
      by_contra gone
      have self := apart entry (List.mem_filter.2 ⟨member, by simpa using gone⟩)
      simp at self
    · intro stays other gone
      have absent := (List.mem_filter.1 gone).2
      simp only [bne_iff_ne]
      intro same
      rw [← same, stays] at absent
      cases absent
  have present : old.roster.filter (fun entry => new.has entry.1) ++
      new.roster.filter (fun entry => !old.has entry.1) = new.roster :=
        (grows.roster_eq ordered).symm
  let first : Ledger := ⟨announcements, old.roster, telling, old.requests, refused⟩
  have left := first.leads_left (old.roster.filter fun entry => !new.has entry.1)
  have joined :=
    leads_joined { first with roster := old.roster.filter fun entry => new.has entry.1 }
    (new.roster.filter fun entry => !old.has entry.1)
  obtain ⟨more, requests⟩ := grows.requests
  have sent := leads_sent { first with roster := new.roster } more
  simp only [first, stay] at left
  simp only [first, present] at joined
  rw [Stage.changes, ← requests, List.drop_left]
  exact (left.append joined).append sent

theorem leads_tellStory (announcements : List Lifecycle) (refused : Bool)
    (number : Nat) (event : Lifecycle) (audience : List (Nat × Listener)) {stage : Stage}
    (ordered : (stage.channel number).Ordered) : Leads
      ⟨announcements, (stage.channel number).roster,
        audience.map fun entry => (entry.1, entry.2.ear, event),
        (stage.channel number).requests, refused⟩
      (Stage.tellStory number event audience stage)
      (ofStage number announcements refused
        ((audience.map Prod.snd).foldl (Stage.notify event) stage)) := by
  induction audience generalizing stage with
  | nil => exact .nil _
  | cons entry rest ih =>
    obtain ⟨id, listener⟩ := entry
    have grows := stage.grows_notify number event listener
    exact .cons (if_pos rfl) ((leads_changes ordered grows).append (ih (grows.ordered ordered)))

theorem leads_announceStory {number : Nat} {stage : Stage}
    (ordered : (stage.channel number).Ordered) (event : Lifecycle) :
    (ofStage number (event :: announcements) refused stage).Leads (stage.announceStory number event)
      (ofStage number announcements refused (stage.announce number event)) := by
  let hearing := stage.modify number (Channel.hear event)
  have grows := Stage.grows_modify (Channel.grows_hear event) number number stage
  have told := leads_tellStory announcements refused number event (stage.channel number).listeners
    (grows.ordered ordered)
  have requests : (hearing.channel number).requests = (stage.channel number).requests := by
    rw [Stage.channel_modify]
    split <;> rfl
  have roster : (hearing.channel number).roster = (stage.channel number).roster := by
    rw [Stage.channel_modify]
    split
    · exact Channel.roster_hear event _
    · rfl
  rw [requests, roster] at told
  refine .cons ?_ told
  have increasing := ordered.1
  rw [← Channel.map_fst_roster] at increasing
  simp only [enter, ofStage, Channel.roster] at increasing ⊢
  rw [if_pos ⟨trivial, trivial, trivial, increasing⟩]
  simp only [List.map_map, Function.comp_def]

theorem leads_announceAllStory {number : Nat} {stage : Stage}
    (ordered : (stage.channel number).Ordered) (events : List Lifecycle) :
    (ofStage number events refused stage).Leads (stage.announceAllStory number events)
      (ofStage number [] refused (stage.announceAll number events)) := by
  induction events generalizing stage with
  | nil => exact .nil _
  | cons event events ih =>
    have next := (stage.grows_announce number number event).ordered ordered
    exact (leads_announceStory ordered event).append (ih next)

end Ledger

end Choreo
