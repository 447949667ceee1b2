/-!
# What happens to a unit and what is asked of it

A unit is something that can be started, ended and canceled. It answers each call with the list of
what happened to it. A dependency waits for its prerequisite either to start or to end, and a unit
is named by the sequence that registered it and its place there, so units of two sequences are
never confused.
-/

namespace Choreo

/-- What can happen to a unit, or to a sequence as a whole. -/
inductive Lifecycle where
  | started | ended | canceled | repeated
  deriving DecidableEq

def Lifecycle.word : Lifecycle → String
  | .started => "start"
  | .ended => "end"
  | .canceled => "cancel"
  | .repeated => "repeat"

inductive Act where
  | start | finish | cancel
  deriving DecidableEq

def Act.word : Act → String
  | .start => "start"
  | .finish => "end"
  | .cancel => "cancel"

/-- What a dependent waits for: its prerequisite's start or its prerequisite's end. -/
inductive Rule where
  | onStart | onEnd
  deriving DecidableEq

def Rule.word : Rule → String
  | .onStart => "with"
  | .onEnd => "after"

def Rule.title : Rule → String
  | .onStart => "With"
  | .onEnd => "After"

/-- A unit: the sequence that owns it and its place in that sequence's register. -/
structure UnitId where
  owner : Nat
  index : Nat
  deriving DecidableEq

def UnitId.shown (unit : UnitId) : String := "unit#" ++ toString unit.index

end Choreo
