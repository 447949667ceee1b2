import Choreo.Text.Ranges

/-!
# Blank characters

The characters with the White_Space property, and trimming them off both ends of a text.
-/

namespace Choreo.Text

/-- The 25 characters with the White_Space property. -/
def blanks : Ranges := [
  (0x9, 0xD), (0x20, 0x20), (0x85, 0x85), (0xA0, 0xA0), (0x1680, 0x1680), (0x2000, 0x200A),
  (0x2028, 0x2029), (0x202F, 0x202F), (0x205F, 0x205F), (0x3000, 0x3000)]

def isBlank (c : Char) : Bool := blanks.has c

def trimEnd (cs : List Char) : List Char := (cs.reverse.dropWhile isBlank).reverse

def trim (cs : List Char) : List Char := trimEnd (cs.dropWhile isBlank)

@[simp] theorem trim_nil : trim [] = [] := rfl

theorem not_isBlank_of_isDigit {c : Char} (h : c.isDigit = true) : isBlank c = false := by
  have range := h
  simp only [Char.isDigit, Bool.and_eq_true, decide_eq_true_eq, ge_iff_le, UInt32.le_iff_toNat_le]
    at range
  obtain ⟨low, high⟩ := range
  change 48 ≤ c.toNat at low
  change c.toNat ≤ 57 at high
  apply Bool.eq_false_iff.2
  intro blank
  obtain ⟨range, member, first, last⟩ := (Ranges.has_iff blanks c).1 blank
  simp only [blanks, List.mem_cons, List.not_mem_nil, or_false] at member
  rcases member with rfl | rfl | rfl | rfl | rfl | rfl | rfl | rfl | rfl | rfl <;>
    simp only at first last <;> omega

/-- What is trimmed off a text is blank. -/
theorem exists_trim (cs : List Char) : ∃ front back, cs = front ++ trim cs ++ back ∧
    (∀ c ∈ front, isBlank c = true) ∧ ∀ c ∈ back, isBlank c = true := by
  let rest := cs.dropWhile isBlank
  have front : cs = cs.takeWhile isBlank ++ rest := List.takeWhile_append_dropWhile.symm
  have back : rest = trim cs ++ (rest.reverse.takeWhile isBlank).reverse := by
    have parts :=
      congrArg List.reverse (List.takeWhile_append_dropWhile (p := isBlank) (l := rest.reverse))
    rw [List.reverse_append, List.reverse_reverse] at parts
    exact parts.symm
  refine ⟨_, _, front.trans ((congrArg _ back).trans (List.append_assoc ..).symm), ?_, ?_⟩
  · exact List.all_eq_true.1 List.all_takeWhile
  · exact fun c member => List.all_eq_true.1 List.all_takeWhile c (List.mem_reverse.1 member)

/-- Trimming takes off just the blanks around a text that begins and ends with another character. -/
theorem trim_of_blank {front core back : List Char} (before : ∀ c ∈ front, isBlank c = true)
    (after : ∀ c ∈ back, isBlank c = true) (first : ∃ c more, core = c :: more ∧ isBlank c = false)
    (last : ∃ less c, core = less ++ [c] ∧ isBlank c = false) :
    trim (front ++ core ++ back) = core := by
  have start : (front ++ core ++ back).dropWhile isBlank = core ++ back := by
    obtain ⟨c, more, rfl, solid⟩ := first
    simp [List.dropWhile_append_of_pos before, solid]
  obtain ⟨less, c, rfl, solid⟩ := last
  have ending : ∀ c ∈ back.reverse, isBlank c = true :=
    fun c member => after c (List.mem_reverse.1 member)
  rw [trim, start, trimEnd, List.reverse_append, List.dropWhile_append_of_pos ending]
  simp [solid]

end Choreo.Text
