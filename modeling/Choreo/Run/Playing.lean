import Choreo.Lifecycle

/-!
# Playing units

The units that were told to start in the present run and have not reported their end, in the order
in which they started. The run is over when none is left.
-/

namespace Choreo

/-- The units that are playing, first started first. -/
structure Playing where
  units : List UnitId
  deriving DecidableEq

namespace Playing

def none : Playing := ⟨[]⟩

instance : Inhabited Playing := ⟨none⟩

def contains (playing : Playing) (unit : UnitId) : Bool := playing.units.contains unit

def isEmpty (playing : Playing) : Bool := playing.units.isEmpty

/-- Puts a unit at the end; the answer is whether it was not there before. -/
def insert (unit : UnitId) (playing : Playing) : Bool × Playing :=
  if playing.contains unit then (false, playing) else (true, ⟨playing.units ++ [unit]⟩)

/-- Takes a unit out; the answer is whether it was there. -/
def remove (unit : UnitId) (playing : Playing) : Bool × Playing :=
  (playing.contains unit, ⟨playing.units.erase unit⟩)

def drain (playing : Playing) : List UnitId × Playing := (playing.units, none)

theorem contains_iff (playing : Playing) (unit : UnitId) :
    playing.contains unit = true ↔ unit ∈ playing.units := by
  simp [contains]

theorem nodup_insert {playing : Playing} (unit : UnitId) (h : playing.units.Nodup) :
    (playing.insert unit).2.units.Nodup := by
  rw [insert]
  split
  · exact h
  · rename_i absent
    rw [contains_iff] at absent
    apply List.nodup_append.2
    refine ⟨h, by simp, fun other member one same => ?_⟩
    rw [List.mem_singleton] at same
    exact fun equal => absent (same ▸ equal ▸ member)

theorem nodup_remove {playing : Playing} (unit : UnitId) (h : playing.units.Nodup) :
    (playing.remove unit).2.units.Nodup := h.erase unit

end Playing

end Choreo
