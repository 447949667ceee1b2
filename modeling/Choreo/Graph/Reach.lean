/-!
# What can be reached

For each vertex a row tells where a walk of one step or more leads from it. A row is a number, and
its binary digits stand for the vertices. The rows start with walks of one step. Then one vertex
after the other may be passed on the way: whoever reaches it also reaches all that it reaches. When
every vertex may be passed the rows tell all that can be reached.
-/

namespace Choreo

structure Reach where
  rows : Array Nat

namespace Reach

/-- The number whose binary digits are ones at these places. -/
def digits (places : List Nat) : Nat := places.foldr (fun place row => 1 <<< place ||| row) 0

theorem testBit_digits {places : List Nat} {v : Nat} : (digits places).testBit v ↔ v ∈ places := by
  induction places with
  | nil => simp [digits]
  | cons place places ih =>
    have step : digits (place :: places) = 1 <<< place ||| digits places := rfl
    rw [step, Nat.testBit_or, Nat.one_shiftLeft, Nat.testBit_two_pow, Bool.or_eq_true,
      decide_eq_true_eq, ih, List.mem_cons, eq_comm]

/-- Whether a walk leads from `u` to `v`. -/
def leads (reach : Reach) (u v : Nat) : Bool := (reach.rows[u]?.getD 0).testBit v

def single (next : List (List Nat)) : Reach := ⟨(next.map digits).toArray⟩

theorem leads_single {next : List (List Nat)} {u v : Nat} :
    (single next).leads u v ↔ v ∈ next[u]?.getD [] := by
  cases h : next[u]? <;> simp [leads, single, h, testBit_digits]

/-- The walks that may also pass `v`. -/
def through (reach : Reach) (v : Nat) : Reach :=
  let onward := reach.rows[v]?.getD 0
  ⟨reach.rows.map fun row => if row.testBit v then row ||| onward else row⟩

theorem leads_through (reach : Reach) (v u w : Nat) :
    (reach.through v).leads u w = (reach.leads u w || reach.leads u v && reach.leads v w) := by
  cases h : reach.rows[u]? with
  | none => simp [leads, through, h]
  | some row => cases bit : row.testBit v <;> simp [leads, through, h, bit]

def closure (reach : Reach) : Reach := (List.range reach.rows.size).foldl through reach

/-- Where walks of any length lead, where `next` lists for each vertex those that are one step
away. -/
def ofNext (next : List (List Nat)) : Reach := (single next).closure

def onCycle (reach : Reach) (v : Nat) : Bool := reach.leads v v

end Reach

end Choreo
