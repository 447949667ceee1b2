import Choreo.Plan.Scene
import Choreo.Span.Text
import Choreo.Text.Quoted

/-!
# Listing a plan

A listing shows the settings of a plan, its clips in the order of their names, its groups, and the
order in which the units of its scene start, each with what it waits for.
-/

namespace Choreo

namespace Timeline

def settingLines (settings : Settings Span) : List String :=
  ["sequencer dry-run",
    "  config.tick = " ++ settings.tick.render,
    "  config.max_duration = " ++ settings.cap.render,
    ""]

def referenceLines (word : String) (clips : List String) : List String :=
  if clips.isEmpty then [] else ["      " ++ word ++ ": " ++ Text.quoteAll clips]

/-- The lines on one clip; what it does not have is left out. -/
def clipLines (entry : String × ClipPlan Span) : List String :=
  ["  - " ++ entry.1, "      duration: " ++ entry.2.duration.render] ++
  (if 0 < entry.2.repeats then ["      repeat: " ++ toString entry.2.repeats] else []) ++
  referenceLines "with" entry.2.partners ++
  referenceLines "after" entry.2.forerunners ++
  (match entry.2.delay with
    | some delay => ["      delay: " ++ delay.render]
    | none => [])

def groupLines (groups : List Group) : List String :=
  if groups.isEmpty then []
  else
    ["", "groups (" ++ toString groups.length ++ "):"] ++
    groups.map fun group => "  - " ++ group.mode.title ++ " " ++ Text.quoteAll group.clips

def orderLine (sequence : Sequence Performer) (place : Nat) (unit : UnitId) : String :=
  let label := sequence.registry.label
  let waits := (sequence.dependenciesOf unit).map fun edge => edge.2.title ++ " " ++ label edge.1
  let line := "  " ++ toString place ++ ". " ++ label unit
  if waits.isEmpty then line else line ++ " (waits for: " ++ ", ".intercalate waits ++ ")"

def headLines (timeline : Timeline) : List String :=
  settingLines timeline.settings ++
  ["clips (" ++ toString timeline.clips.entries.length ++ "):"] ++
  timeline.clips.entries.flatMap clipLines ++
  groupLines timeline.groups

def closeLines (lines : List String) : String := String.join (lines.map (· ++ "\n"))

/-- The listing, and why it lacks the order of start if it does. -/
def listing (timeline : Timeline) : String × Option Refusal :=
  let sorted := (Scene.sequenceOf timeline).sortedUnits
  match sorted.1 with
  | .error refusal => (closeLines timeline.headLines, some refusal)
  | .ok order =>
    let lines := order.zipIdx.map fun entry => orderLine sorted.2 entry.2 entry.1
    (closeLines (timeline.headLines ++ ["", "start order:"] ++ lines), none)

end Timeline

end Choreo
