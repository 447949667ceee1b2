/-!
# Waves

Places that wait for one another take their turns in waves. Each place has a count of the places
that it still waits for. The first wave is the places whose count is zero; a place that takes its
turn is taken off the counts of those that wait for it, and the next wave is the places whose counts
come down to zero by that. Inside a wave the order of the places decides. The places whose counts
never come down to zero are what remains.
-/

namespace Choreo

/-- Takes one off the count at a place, and tells whether that made it zero. -/
def takeOne : List Nat → Nat → List Nat × Bool
  | [], _ => ([], false)
  | count :: counts, 0 => ((count - 1) :: counts, count == 1)
  | count :: counts, place + 1 =>
    let rest := takeOne counts place
    (count :: rest.1, rest.2)

def total : List Nat → Nat
  | [] => 0
  | count :: counts => count + total counts

theorem total_takeOne (counts : List Nat) (place : Nat) :
    total (takeOne counts place).1 + (takeOne counts place).2.toNat ≤ total counts := by
  induction counts generalizing place with
  | nil => simp [takeOne, total]
  | cons count counts ih =>
    cases place with
    | zero =>
      by_cases h : count = 1
      · simp [takeOne, total, h, Nat.add_comm]
      · simp [takeOne, total, beq_eq_false_iff_ne.2 h]
    | succ place => have := ih place; simp [takeOne, total]; omega

/-- Takes one off the count of each of these places; the second list is those that come to zero. -/
def discharge : List Nat → List Nat → List Nat × List Nat
  | [], counts => (counts, [])
  | place :: places, counts =>
    let taken := takeOne counts place
    let rest := discharge places taken.1
    (rest.1, if taken.2 then place :: rest.2 else rest.2)

theorem total_discharge (places counts : List Nat) :
    total (discharge places counts).1 + (discharge places counts).2.length ≤ total counts := by
  induction places generalizing counts with
  | nil => simp [discharge]
  | cons place places ih =>
    have head := total_takeOne counts place
    have tail := ih (takeOne counts place).1
    cases h : (takeOne counts place).2 <;> simp [discharge, h] at head ⊢ <;> omega

def followers (waiting : Nat → List Nat) (wave : List Nat) : List Nat := wave.flatMap waiting

/-- This wave and all that follow it, and the counts at the end. -/
def waves (waiting : Nat → List Nat) (wave counts : List Nat) : List Nat × List Nat :=
  let turn := discharge (followers waiting wave) counts
  if _h : turn.2 = [] then (wave, turn.1)
  else
    let rest := waves waiting (turn.2.mergeSort fun a b => decide (a ≤ b)) turn.1
    (wave ++ rest.1, rest.2)
termination_by total counts
decreasing_by
  have fall := total_discharge (followers waiting wave) counts
  have freed := List.length_pos_iff.2 _h
  simp only [turn] at freed ⊢
  omega

def placesWhere (test : Nat → Bool) (counts : List Nat) : List Nat :=
  (List.range counts.length).filter fun place => test (counts[place]?.getD 0)

/-- The places in the order of their turns, and those that remain without a turn, where `waiting`
tells which places wait for one, and the counts for how many places each of them waits. -/
def turns (waiting : Nat → List Nat) (counts : List Nat) : List Nat × List Nat :=
  let result := waves waiting (placesWhere (· == 0) counts) counts
  (result.1, placesWhere (0 < ·) result.2)

end Choreo
