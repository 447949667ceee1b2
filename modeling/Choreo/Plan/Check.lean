import Choreo.Digraph.Search
import Choreo.Plan
import Choreo.Sequence

/-!
# Checking plans

A plan as it is written can be played if it has clips, its spans can be read and its tick is not
zero, every reference names a clip of the plan, no clip refers to itself, and its constraints form
no cycle. What is wrong is reported in the order of the checks: the settings, the references of the
clips in the order of their names, those of the groups, the cycle, and the spans of the clips.
-/

namespace Choreo

inductive SpanField where
  | tick
  | cap
  | duration (clip : String)
  | delay (clip : String)
  deriving DecidableEq

def SpanField.word : SpanField → String
  | .tick => "[config].tick"
  | .cap => "[config].max_duration"
  | .duration clip => "[clip." ++ clip ++ "].duration"
  | .delay clip => "[clip." ++ clip ++ "].delay"

inductive Fault where
  | noClips
  | badSpan (field : SpanField) (reason : Span.ParseError)
  | zeroTick
  | unknownClip (clip : String) (rule : Rule) (other : String)
  | selfReference (clip : String) (rule : Rule)
  | unknownMember (group : Nat) (other : String)
  | cyclic (clips : List String)
  deriving DecidableEq

def Fault.message : Fault → String
  | .noClips => "Configuration error: timeline must contain at least one [clip.<name>] section"
  | .badSpan field reason => "Configuration error: " ++ field.word ++ ": " ++ reason.message
  | .zeroTick => "Configuration error: [config].tick must be greater than zero"
  | .unknownClip clip rule other =>
    "Configuration error: clip '" ++ clip ++ "' has unknown clip '" ++ other ++ "' in `" ++
      rule.word ++ "`"
  | .selfReference clip rule =>
    "Configuration error: clip '" ++ clip ++ "' cannot reference itself in `" ++ rule.word ++ "`"
  | .unknownMember group other =>
    "Configuration error: group #" ++ toString group ++ " names unknown clip '" ++ other ++ "'"
  | .cyclic clips => cycleText clips

def neighbours : List String → List (String × String)
  | first :: second :: rest => (first, second) :: neighbours (second :: rest)
  | _ => []

/-- Which clips of a group have to precede which, as pairs of a prerequisite and a dependent. -/
def Group.edges (group : Group) : List (String × String) :=
  match group.mode with
  | .sequential => neighbours group.clips
  | .together =>
    match group.clips with
    | [] => []
    | first :: rest => rest.map fun other => (first, other)

namespace Plan

variable {τ : Type}

/-- Which clips have to precede which, in the order of the clips and then of the groups. -/
def edges (plan : Plan τ) : List (String × String) :=
  (plan.clips.entries.flatMap fun entry =>
    (entry.2.partners ++ entry.2.forerunners).map fun other => (other, entry.1)) ++
  plan.groups.flatMap Group.edges

/-- The constraints between the clips, by their places. -/
def constraintGraph (plan : Plan τ) : Digraph :=
  let names := plan.clips.names
  ⟨names.length, plan.edges.map fun edge => (names.idxOf edge.1, names.idxOf edge.2)⟩

def cycle? (plan : Plan τ) : Option (List String) :=
  plan.constraintGraph.foundCycle?.map fun places =>
    places.filterMap fun place => plan.clips.names[place]?

end Plan

namespace Draft

def readSpan (field : SpanField) (text : String) : Except Fault Span :=
  match Span.parse text with
  | .ok span => .ok span
  | .error reason => .error (.badSpan field reason)

def readSettings (settings : Settings String) : Except Fault (Settings Span) :=
  match readSpan .tick settings.tick with
  | .error fault => .error fault
  | .ok tick =>
    if tick.isZero then .error .zeroTick
    else
      match readSpan .cap settings.cap with
      | .error fault => .error fault
      | .ok cap => .ok ⟨tick, cap⟩

def readClip (name : String) (clip : ClipPlan String) : Except Fault (ClipPlan Span) :=
  match readSpan (.duration name) clip.duration with
  | .error fault => .error fault
  | .ok duration =>
    match clip.delay with
    | none => .ok ⟨duration, clip.repeats, clip.partners, clip.forerunners, none⟩
    | some text =>
      match readSpan (.delay name) text with
      | .error fault => .error fault
      | .ok delay => .ok ⟨duration, clip.repeats, clip.partners, clip.forerunners, some delay⟩

def referenceFault (draft : Draft) (clip : String) (rule : Rule) (other : String) : Option Fault :=
  if !draft.clips.contains other then some (.unknownClip clip rule other)
  else if other = clip then some (.selfReference clip rule)
  else none

def clipFault (draft : Draft) : Option Fault :=
  draft.clips.entries.findSome? fun entry =>
    [Rule.onStart, .onEnd].findSome? fun rule =>
      (entry.2.references rule).findSome? (draft.referenceFault entry.1 rule)

def groupFault (draft : Draft) : Option Fault :=
  draft.groups.zipIdx.findSome? fun entry =>
    (entry.1.clips.find? fun other => !draft.clips.contains other).map (Fault.unknownMember entry.2)

/-- Reads a plan that can be played, or tells what is wrong with it. -/
def check (draft : Draft) : Except Fault Timeline :=
  if draft.clips.isEmpty then .error .noClips
  else
    match readSettings draft.settings with
    | .error fault => .error fault
    | .ok settings =>
      match draft.clipFault.or draft.groupFault with
      | some fault => .error fault
      | none =>
        match draft.cycle? with
        | some clips => .error (.cyclic clips)
        | none =>
          match draft.clips.traverse readClip with
          | .error fault => .error fault
          | .ok clips => .ok ⟨settings, clips, draft.groups⟩

end Draft

end Choreo
