import Choreo.Lifecycle

/-!
# Registers of units

A register keeps the units of one sequence, each with a label, in the order in which they were
entered. It hands out a unit's name when the unit is entered and knows no names but its own. A unit
entered without a label is labelled with its name; one that the sequence made for itself is marked
as synthetic.
-/

namespace Choreo

structure Slot (U : Type) where
  label : String
  synthetic : Bool
  unit : U

/-- The owner of the names that the register hands out, and the units entered so far. -/
structure Registry (U : Type) where
  owner : Nat
  slots : Array (Slot U)

namespace Registry

variable {U : Type}

def empty (owner : Nat) : Registry U := ⟨owner, #[]⟩

def nextId (registry : Registry U) : UnitId := ⟨registry.owner, registry.slots.size⟩

def insert (label : Option String) (unit : U) (registry : Registry U) : UnitId × Registry U :=
  (registry.nextId,
    { registry with
      slots := registry.slots.push ⟨label.getD registry.nextId.shown, false, unit⟩ })

/-- Enters a unit that the sequence made for itself. -/
def insertSynthetic (label : String) (unit : U) (registry : Registry U) : UnitId × Registry U :=
  (registry.nextId, { registry with slots := registry.slots.push ⟨label, true, unit⟩ })

def slot? (registry : Registry U) (id : UnitId) : Option (Slot U) :=
  if id.owner = registry.owner then registry.slots[id.index]? else none

def contains (registry : Registry U) (id : UnitId) : Bool := (registry.slot? id).isSome

def label (registry : Registry U) (id : UnitId) : String :=
  ((registry.slot? id).map Slot.label).getD "<absent>"

def get? (registry : Registry U) (id : UnitId) : Option U := (registry.slot? id).map Slot.unit

def update (id : UnitId) (unit : U) (registry : Registry U) : Registry U :=
  { registry with
    slots := registry.slots.modify id.index fun slot => { slot with unit } }

def entries (registry : Registry U) : List (Nat × Slot U) :=
  registry.slots.toList.zipIdx.map fun entry => (entry.2, entry.1)

/-- The first unit of this label that the sequence did not make for itself. -/
def find? (label : String) (registry : Registry U) : Option UnitId :=
  (registry.slots.findIdx? fun slot => !slot.synthetic && slot.label == label).map fun index =>
    ⟨registry.owner, index⟩

end Registry

end Choreo
