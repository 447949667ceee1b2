import Choreo.Text.LowerCase.Table

/-!
# Lower case of a text

Every character with a lower case is replaced by it. Two letters need more than a table: the dotted
capital I becomes an i with a combining dot, and a capital sigma becomes a final sigma where it
closes a word, that is, where a letter precedes it and no letter follows it, characters without
influence on case being passed over on both sides.
-/

namespace Choreo.Text

def CaseRun.holds (run : CaseRun) (code : Nat) : Bool :=
  run.first ≤ code && code ≤ run.last && (code - run.first) % run.step == 0

def lowerChar (c : Char) : Char :=
  match caseRuns.find? (·.holds c.toNat) with
  | some run => Char.ofNat (c.toNat + run.shift).toNat
  | none => c

/-- Whether the first character that is not passed over has a case. -/
def meetsCased (cs : List Char) : Bool :=
  match cs.dropWhile caseIgnorable.has with
  | [] => false
  | c :: _ => cased.has c

/-- The lower case of a text whose preceding characters, last one first, are `before`. -/
def lowerAfter (before : List Char) : List Char → List Char
  | [] => []
  | c :: rest =>
    let tail := lowerAfter (c :: before) rest
    if c = 'Σ' then
      (if meetsCased before && !meetsCased rest then 'ς' else 'σ') :: tail
    else if c = 'İ' then 'i' :: '\u0307' :: tail
    else lowerChar c :: tail

def lower (cs : List Char) : List Char := lowerAfter [] cs

@[simp] theorem lower_nil : lower [] = [] := rfl

theorem lowerChar_of_outside {c : Char}
    (outside : ∀ run ∈ caseRuns, c.toNat < run.first ∨ run.last < c.toNat) : lowerChar c = c := by
  have none : caseRuns.find? (·.holds c.toNat) = none := by
    rw [List.find?_eq_none]
    intro run member
    have apart := outside run member
    simp only [CaseRun.holds, Bool.and_eq_true, decide_eq_true_eq]
    omega
  rw [lowerChar, none]

/-- A character of its own lower case is kept, wherever it stands. -/
theorem mem_lower {c : Char} {cs : List Char} (member : c ∈ cs) (same : lowerChar c = c)
    (sigma : c ≠ 'Σ') (dotted : c ≠ 'İ') : c ∈ lower cs := by
  suffices every : ∀ before, c ∈ lowerAfter before cs from every []
  induction cs with
  | nil => cases member
  | cons d rest ih =>
    intro before
    rcases List.mem_cons.1 member with rfl | later
    · simp [lowerAfter, sigma, dotted, same]
    · have kept := ih later (d :: before)
      simp only [lowerAfter]
      split
      · exact List.mem_cons_of_mem _ kept
      · split
        · exact List.mem_cons_of_mem _ (List.mem_cons_of_mem _ kept)
        · exact List.mem_cons_of_mem _ kept

end Choreo.Text
