import Choreo.Lifecycle

/-!
# The journal

What is said and done on a stage, line by line: calls on watched units and what they report,
notifications as witnesses hear them, and listeners that are taken away.
-/

namespace Choreo

/-- One line of the journal. -/
inductive Line where
  | told (unit : String) (act : Act)
  | ticked (unit : String)
  | reported (unit : String) (events : List Lifecycle)
  | heard (witness : String) (event : Lifecycle)
  | removed (witness : String) (found : Bool)
  deriving DecidableEq

def Line.render : Line → String
  | .told unit act => "call " ++ unit ++ " " ++ act.word
  | .ticked unit => "call " ++ unit ++ " tick"
  | .reported unit events => "emit " ++ unit ++ " " ++ ",".intercalate (events.map Lifecycle.word)
  | .heard witness event => "note " ++ witness ++ " " ++ event.word
  | .removed witness found => "removed " ++ witness ++ " " ++ (if found then "true" else "false")

end Choreo
