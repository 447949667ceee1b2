import Choreo.Proofs.Span.Grammar

/-!
# Writing a span and reading it again

`Span.render` writes the whole milliseconds of a span, in seconds where that is exact. What it
writes is read again as just those milliseconds unless a number of milliseconds needs more than 64
bits, which cannot happen to a span that was read itself.
-/

namespace Choreo.Span

open Text

/-- The whole milliseconds of a span. -/
def whole (span : Span) : Span :=
  ⟨span.millis * 1000000, Nat.le_trans (Nat.div_mul_le_self _ _) span.ns_le⟩

/-- So many of a unit, written without blanks. -/
def Scale.spelled (scale : Scale) (n : Nat) : Spelling where
  front := []
  digits := Nat.toDigits 10 n
  gap := []
  unit := scale.letters
  back := []
  scale
  front_blank := List.forall_mem_nil _
  gap_blank := List.forall_mem_nil _
  back_blank := List.forall_mem_nil _
  isDigit _ member := Nat.isDigit_of_mem_toDigits (b := 10) (by decide) (by decide) member
  digits_ne := Nat.toDigits_ne_nil
  lower_unit := by cases scale <;> decide +kernel

theorem Scale.spelled_number (scale : Scale) (n : Nat) : (scale.spelled n).number = n :=
  Nat.ofDigitChars_ten_toDigits

theorem Scale.spelled_text (scale : Scale) (n : Nat) :
    (scale.spelled n).text = (toString n).toList ++ scale.letters := by
  simp [Spelling.text, spelled]

/-- What is written for a span is a number of seconds or milliseconds, and fits unless these are too
many. -/
theorem exists_spelled (span : Span) :
    ∃ scale n, span.render.toList = (Scale.spelled scale n).text ∧
    span.whole.ns = n * scale.nanos ∧
    ((scale.spelled n).Fits ↔ span.millis % 1000 = 0 ∨ span.millis < numberBound) := by
  have within := span.ns_le
  rw [limit] at within
  have most : span.millis / 1000 < numberBound := by
    rw [millis, numberBound]
    omega
  by_cases exact_seconds : span.millis % 1000 = 0 ∧ 0 < span.millis
  · refine ⟨.seconds, span.millis / 1000, ?_, ?_, ?_⟩
    · rw [render, if_pos exact_seconds, Scale.spelled_text, String.toList_append]
      rfl
    · simp only [whole, Scale.nanos]
      omega
    · simp only [Spelling.Fits, Scale.spelled_number]
      simp only [Scale.spelled, Scale.wholeSeconds, Nat.mul_one]
      exact iff_of_true ⟨most, most⟩ (.inl exact_seconds.1)
  · refine ⟨.milliseconds, span.millis, ?_, rfl, ?_⟩
    · rw [render, if_neg exact_seconds, Scale.spelled_text, String.toList_append]
      rfl
    · simp only [Spelling.Fits, Scale.spelled_number]
      simp only [Scale.spelled, Scale.wholeSeconds, Nat.mul_zero, numberBound]
      omega

theorem parse_render {span : Span} (fits : span.millis % 1000 = 0 ∨ span.millis < numberBound) :
    parse span.render = .ok span.whole := by
  obtain ⟨scale, n, text, length, fit⟩ := exists_spelled span
  refine parse_eq_ok.2 ⟨scale.spelled n, text, fit.2 fits, ?_⟩
  rw [length, Scale.spelled_number]
  rfl

theorem parse_render_of_parse {text : String} {span : Span} (read : parse text = .ok span) :
    parse span.render = .ok span := by
  obtain ⟨spelling, _, ⟨small, _⟩, length⟩ := parse_eq_ok.1 read
  have fits : span.millis % 1000 = 0 ∨ span.millis < numberBound := by
    rw [millis, length]
    cases spelling.scale <;> simp only [Scale.nanos] <;> omega
  have same : span.whole = span := by
    ext
    change span.ns / 1000000 * 1000000 = span.ns
    rw [length]
    cases spelling.scale <;> simp only [Scale.nanos] <;> omega
  rw [parse_render fits, same]

/-- A span is written so that its whole milliseconds are read again, unless a number of milliseconds
would need more than 64 bits: then what is written is refused. Nothing is lost of a span that was
read itself, and two such spans are written in the same way only if they are the same. -/
theorem round_trip (span : Span) :
    (span.millis % 1000 = 0 ∨ span.millis < numberBound → parse span.render = .ok span.whole) ∧
    (¬ (span.millis % 1000 = 0 ∨ span.millis < numberBound) → ∃ e, parse span.render = .error e) ∧
    ((∃ text, parse text = .ok span) → parse span.render = .ok span ∧
      ∀ text other, parse text = .ok other → other.render = span.render → other = span) := by
  refine ⟨parse_render, ?_, ?_⟩
  · intro beyond
    obtain ⟨scale, n, text, _, fit⟩ := exists_spelled span
    refine parse_eq_error.2 fun spelling same fits => beyond (fit.1 ?_)
    obtain ⟨number, unit⟩ := Spelling.determined (same.symm.trans text)
    have same_scale : (scale.spelled n).scale = scale := rfl
    rw [Spelling.Fits, number, unit] at fits
    exact fits
  · rintro ⟨text, read⟩
    have again := parse_render_of_parse read
    refine ⟨again, fun text other read same => ?_⟩
    have there := parse_render_of_parse read
    rw [same, again] at there
    exact (Except.ok.inj there).symm

def longest : Span := ⟨limit, Nat.le_refl _⟩

/-- A second and a half, and a nanosecond that is not written. -/
def fraction : Span := ⟨1500000001, by decide⟩

theorem round_trip_fraction : parse fraction.render = .ok ⟨1500000000, by decide⟩ ∧
    (∃ e, parse longest.render = .error e) ∧
    parse (whole fraction).render = .ok (whole fraction) :=
  have fits : fraction.millis % 1000 = 0 ∨ fraction.millis < numberBound := by decide
  ⟨(round_trip fraction).1 fits, (round_trip longest).2.1 (by decide),
    ((round_trip fraction.whole).2.2 ⟨_, (round_trip fraction).1 fits⟩).1⟩

end Choreo.Span
