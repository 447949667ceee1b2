import Choreo.Lifecycle
import Choreo.NameMap
import Choreo.Span

/-!
# Plans

A plan names clips, says how long each lasts and how often it is repeated, and which clips it starts
with or after; groups of clips are played together or one after the other. A plan as it is written
has its spans as texts; in a plan that can be played they are spans.
-/

namespace Choreo

inductive GroupMode where
  | together | sequential
  deriving DecidableEq

def GroupMode.word : GroupMode → String
  | .together => "together"
  | .sequential => "sequential"

def GroupMode.title : GroupMode → String
  | .together => "Together"
  | .sequential => "Sequential"

structure Group where
  mode : GroupMode
  clips : List String
  deriving DecidableEq

/-- The step of the clock, and the time after which a run is canceled. -/
structure Settings (τ : Type) where
  tick : τ
  cap : τ
  deriving DecidableEq

/-- A clip: its duration, how often it is repeated, the clips that it starts together with, those
after whose end it starts, and how long after the start of the run it starts at the earliest. -/
structure ClipPlan (τ : Type) where
  duration : τ
  repeats : Nat
  partners : List String
  forerunners : List String
  delay : Option τ
  deriving DecidableEq

def ClipPlan.references {τ : Type} (clip : ClipPlan τ) : Rule → List String
  | .onStart => clip.partners
  | .onEnd => clip.forerunners

/-- The settings, the clips by name, and the groups in their order. -/
structure Plan (τ : Type) where
  settings : Settings τ
  clips : NameMap (ClipPlan τ)
  groups : List Group

abbrev Draft := Plan String

abbrev Timeline := Plan Span

def Settings.standard : Settings String := ⟨"16ms", "60s"⟩

end Choreo
