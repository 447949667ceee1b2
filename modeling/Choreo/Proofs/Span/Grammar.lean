import Choreo.Span.Text

/-!
# What is written for a span

A span is written as decimal digits and a unit, with blanks around them and in between. `Spelling`
has the parts of such a text, and `Span.parse` reads just the texts that are put together from them,
provided the number and the span in seconds do not need more than 64 bits.
-/

namespace Choreo.Span

open Text

/-- The whole seconds in a unit; a millisecond has none. -/
def Scale.wholeSeconds : Scale → Nat
  | .milliseconds => 0
  | .seconds => 1
  | .minutes => 60
  | .hours => 3600

def Scale.nanos : Scale → Nat
  | .milliseconds => 1000000
  | .seconds => 1000000000
  | .minutes => 60000000000
  | .hours => 3600000000000

/-- The parts of a text for a span. -/
structure Spelling where
  front : List Char
  digits : List Char
  gap : List Char
  unit : List Char
  back : List Char
  scale : Scale
  front_blank : ∀ c ∈ front, isBlank c = true
  gap_blank : ∀ c ∈ gap, isBlank c = true
  back_blank : ∀ c ∈ back, isBlank c = true
  isDigit : ∀ c ∈ digits, c.isDigit = true
  digits_ne : digits ≠ []
  lower_unit : lower unit = scale.letters

namespace Spelling

def text (spelling : Spelling) : List Char :=
  spelling.front ++ (spelling.digits ++ spelling.gap ++ spelling.unit) ++ spelling.back

def number (spelling : Spelling) : Nat := Nat.ofDigitChars 10 spelling.digits 0

/-- Neither the number nor the seconds that it makes up need more than 64 bits. -/
def Fits (spelling : Spelling) : Prop :=
  spelling.number < numberBound ∧ spelling.number * spelling.scale.wholeSeconds < numberBound

end Spelling

theorem digitsValue_eq (digits : List Char) : digitsValue digits = Nat.ofDigitChars 10 digits 0 :=
  Nat.ofDigitChars_eq_foldl.symm

/-- The digits and the blanks. -/
def unlettered : Ranges := (0x30, 0x39) :: blanks

theorem unlettered_has {c : Char} : unlettered.has c = (c.isDigit || isBlank c) := by
  have digit : (decide (0x30 ≤ c.toNat) && decide (c.toNat ≤ 0x39)) = c.isDigit := by
    simp only [Char.isDigit, ge_iff_le, UInt32.le_iff_toNat_le]
    rfl
  rw [← digit]
  rfl

theorem unlettered_apart : ∀ range ∈ unlettered, ∀ run ∈ caseRuns,
    range.2 < run.first ∨ run.last < range.1 := by
  decide +kernel

theorem lowerChar_of_unlettered {c : Char} (within : unlettered.has c = true) :
    lowerChar c = c := by
  obtain ⟨range, member, first, last⟩ := (Ranges.has_iff _ c).1 within
  refine lowerChar_of_outside fun run cased => ?_
  have apart := unlettered_apart range member run cased
  omega

theorem Scale.letters_unlettered (scale : Scale) :
    ∀ c ∈ scale.letters, unlettered.has c = false := by
  have none : scale.letters.all (!unlettered.has ·) = true := by cases scale <;> rfl
  intro c member
  simpa using List.all_eq_true.1 none c member

theorem Spelling.mem_unit (spelling : Spelling) :
    ∀ c ∈ spelling.unit, c.isDigit = false ∧ isBlank c = false := by
  intro c member
  rw [← Bool.or_eq_false_iff, ← unlettered_has, Bool.eq_false_iff]
  intro within
  have sigma : c ≠ 'Σ' := by
    rintro rfl
    exact absurd within (by decide)
  have dotted : c ≠ 'İ' := by
    rintro rfl
    exact absurd within (by decide)
  have kept := mem_lower member (lowerChar_of_unlettered within) sigma dotted
  rw [spelling.lower_unit] at kept
  rw [spelling.scale.letters_unlettered c kept] at within
  cases within

theorem Scale.ofLetters?_eq_some {letters : List Char} {scale : Scale} :
    ofLetters? letters = some scale ↔ letters = scale.letters := by
  constructor
  · intro found
    rw [ofLetters?] at found
    have same := List.find?_some found
    exact (eq_of_beq same).symm
  · rintro rfl
    cases scale <;> rfl

/-- So many of a unit are a span if their seconds fit. -/
theorem Scale.times?_eq_some {scale : Scale} {n : Nat} {span : Span} (small : n < numberBound) :
    scale.times? n = some span ↔
      n * scale.wholeSeconds < numberBound ∧ span.ns = n * scale.nanos := by
  have within := span.ns_le
  rw [numberBound] at small ⊢
  rw [limit] at within
  cases scale <;> simp only [times?, ofMillis?, ofSeconds?, ofNanos?_eq_some, wholeSeconds, nanos]
    <;> omega

/-- The number in front of a unit is read if there is one and it is not too large. -/
theorem parseNumber_eq_ok {digits : List Char} {n : Nat} :
    parseNumber digits = .ok n ↔ digits ≠ [] ∧ n < numberBound ∧
      n = Nat.ofDigitChars 10 digits 0 := by
  rw [parseNumber, digitsValue_eq]
  cases digits with
  | nil => simp
  | cons c more =>
    by_cases small : Nat.ofDigitChars 10 (c :: more) 0 < numberBound
    · simp only [List.isEmpty_cons, small, if_true]
      grind
    · simp only [List.isEmpty_cons, small]
      grind

/-- A text without blanks around it is read from the digits it begins with and the unit after
them. -/
theorem parseTrimmed_eq_ok {text : List Char} {span : Span} :
    parseTrimmed text = .ok span ↔ ∃ n, ∃ scale : Scale,
      parseNumber (text.takeWhile Char.isDigit) = .ok n ∧
      lower (trim (text.dropWhile Char.isDigit)) = scale.letters ∧ scale.times? n = some span := by
  simp only [← Scale.ofLetters?_eq_some]
  have unnamed : Scale.ofLetters? [] = none := rfl
  cases text with
  | nil => simp [parseTrimmed, unnamed]
  | cons c more =>
    simp only [parseTrimmed, List.isEmpty_cons, Bool.false_eq_true, if_false]
    cases rest : (c :: more).dropWhile Char.isDigit with
    | nil => simp [unnamed]
    | cons d tail =>
      cases number : parseNumber ((c :: more).takeWhile Char.isDigit) with
      | error e => simp
      | ok n =>
        cases named : Scale.ofLetters? (lower (trim (d :: tail))) with
        | none => simp
        | some scale => cases times : scale.times? n <;> simp [times]

variable {text : List Char} {span : Span}

theorem exists_spelling (read : parseTrimmed (trim text) = .ok span) :
    ∃ spelling : Spelling, text = spelling.text ∧ spelling.Fits ∧
      span.ns = spelling.number * spelling.scale.nanos := by
  obtain ⟨n, scale, number, named, times⟩ := parseTrimmed_eq_ok.1 read
  obtain ⟨some, small, rfl⟩ := parseNumber_eq_ok.1 number
  obtain ⟨seconds, length⟩ := (Scale.times?_eq_some small).1 times
  obtain ⟨front, back, around, front_blank, back_blank⟩ := exists_trim text
  obtain ⟨gap, tail, rest, gap_blank, tail_blank⟩ :=
    exists_trim ((trim text).dropWhile Char.isDigit)
  let spelling : Spelling := {
    front, gap, scale, front_blank, gap_blank
    digits := (trim text).takeWhile Char.isDigit
    unit := trim ((trim text).dropWhile Char.isDigit)
    back := tail ++ back
    back_blank := fun c member => (List.mem_append.1 member).elim (tail_blank c) (back_blank c)
    isDigit := List.all_eq_true.1 List.all_takeWhile
    digits_ne := some
    lower_unit := named }
  have parts : trim text = spelling.digits ++ spelling.gap ++ spelling.unit ++ tail := by
    calc trim text = spelling.digits ++ (trim text).dropWhile Char.isDigit :=
          List.takeWhile_append_dropWhile.symm
      _ = spelling.digits ++ (gap ++ spelling.unit ++ tail) := congrArg _ rest
      _ = spelling.digits ++ spelling.gap ++ spelling.unit ++ tail := by simp [spelling]
  refine ⟨spelling, ?_, ⟨small, seconds⟩, length⟩
  calc text = front ++ trim text ++ back := around
    _ = front ++ (spelling.digits ++ spelling.gap ++ spelling.unit ++ tail) ++ back :=
        congrArg (front ++ · ++ back) parts
    _ = spelling.text := by simp [Spelling.text, spelling]

namespace Spelling

variable (spelling : Spelling)

theorem first_digit : ∃ c more, spelling.digits = c :: more ∧ isBlank c = false := by
  obtain ⟨c, more, digits⟩ := List.exists_cons_of_ne_nil spelling.digits_ne
  exact ⟨c, more, digits,
    not_isBlank_of_isDigit (spelling.isDigit c (digits ▸ List.mem_cons_self ..))⟩

theorem unit_ne : spelling.unit ≠ [] := by
  intro none
  have letters := spelling.lower_unit
  rw [none, lower_nil] at letters
  revert letters
  cases spelling.scale <;> decide

theorem first_letter : ∃ c more, spelling.unit = c :: more ∧ c.isDigit = false ∧
    isBlank c = false := by
  obtain ⟨c, more, unit⟩ := List.exists_cons_of_ne_nil spelling.unit_ne
  exact ⟨c, more, unit, spelling.mem_unit c (unit ▸ List.mem_cons_self ..)⟩

theorem last_letter : ∃ less c, spelling.unit = less ++ [c] ∧ isBlank c = false := by
  obtain none | ⟨less, c, unit⟩ := List.eq_nil_or_concat spelling.unit
  · exact absurd none spelling.unit_ne
  · rw [List.concat_eq_append] at unit
    exact ⟨less, c, unit, (spelling.mem_unit c (by simp [unit])).2⟩

theorem trim_text : trim spelling.text = spelling.digits ++ (spelling.gap ++ spelling.unit) := by
  rw [← List.append_assoc]
  refine trim_of_blank spelling.front_blank spelling.back_blank ?_ ?_
  · obtain ⟨c, more, digits, solid⟩ := spelling.first_digit
    exact ⟨c, more ++ spelling.gap ++ spelling.unit, by rw [digits]; rfl, solid⟩
  · obtain ⟨less, c, unit, solid⟩ := spelling.last_letter
    exact ⟨spelling.digits ++ spelling.gap ++ less, c,
      by rw [unit, List.append_assoc _ less], solid⟩

theorem trim_rest : trim (spelling.gap ++ spelling.unit) = spelling.unit := by
  obtain ⟨c, more, unit, _, solid⟩ := spelling.first_letter
  have trimmed := trim_of_blank spelling.gap_blank (List.forall_mem_nil _) ⟨c, more, unit, solid⟩
    spelling.last_letter
  rwa [List.append_nil] at trimmed

/-- The digits end where the blanks or the unit begin. -/
theorem first_rest : ∃ c more, spelling.gap ++ spelling.unit = c :: more ∧ c.isDigit = false := by
  cases gap : spelling.gap with
  | nil =>
    obtain ⟨c, more, unit, solid, _⟩ := spelling.first_letter
    exact ⟨c, more, unit, solid⟩
  | cons c more =>
    have blank := spelling.gap_blank c (by simp [gap])
    refine ⟨c, more ++ spelling.unit, rfl, Bool.eq_false_iff.2 fun digit => ?_⟩
    rw [not_isBlank_of_isDigit digit] at blank
    cases blank

theorem takeWhile_trim : (trim spelling.text).takeWhile Char.isDigit = spelling.digits := by
  obtain ⟨c, more, rest, other⟩ := spelling.first_rest
  rw [trim_text, List.takeWhile_append_of_pos spelling.isDigit, rest]
  simp [other]

theorem dropWhile_trim :
    (trim spelling.text).dropWhile Char.isDigit = spelling.gap ++ spelling.unit := by
  obtain ⟨c, more, rest, other⟩ := spelling.first_rest
  rw [trim_text, List.dropWhile_append_of_pos spelling.isDigit, rest]
  simp [other]

/-- The digits and the unit can be found again in the text. -/
theorem determined {spelling other : Spelling} (same : spelling.text = other.text) :
    spelling.number = other.number ∧ spelling.scale = other.scale := by
  have digits : spelling.digits = other.digits := by
    rw [← spelling.takeWhile_trim, same, other.takeWhile_trim]
  have unit : spelling.unit = other.unit := by
    rw [← spelling.trim_rest, ← spelling.dropWhile_trim, same, other.dropWhile_trim,
      other.trim_rest]
  refine ⟨by rw [number, number, digits], Option.some.inj ?_⟩
  rw [← Scale.ofLetters?_eq_some.2 spelling.lower_unit, unit,
    Scale.ofLetters?_eq_some.2 other.lower_unit]

variable {spelling}

theorem Fits.parse (fits : spelling.Fits)
    (length : span.ns = spelling.number * spelling.scale.nanos) :
    parseTrimmed (trim spelling.text) = .ok span := by
  obtain ⟨small, seconds⟩ := fits
  rw [parseTrimmed_eq_ok, spelling.takeWhile_trim, spelling.dropWhile_trim, spelling.trim_rest]
  exact ⟨spelling.number, spelling.scale, parseNumber_eq_ok.2 ⟨spelling.digits_ne, small, rfl⟩,
    spelling.lower_unit, (Scale.times?_eq_some small).2 ⟨seconds, length⟩⟩

/-- There is a span for everything that fits. -/
theorem Fits.exists_span (fits : spelling.Fits) :
    ∃ span : Span, span.ns = spelling.number * spelling.scale.nanos := by
  obtain ⟨small, seconds⟩ := fits
  refine ⟨⟨spelling.number * spelling.scale.nanos, ?_⟩, rfl⟩
  rw [numberBound] at small
  revert seconds
  rw [limit, numberBound]
  cases spelling.scale <;> simp only [Scale.wholeSeconds, Scale.nanos] <;> omega

end Spelling

theorem utf8ByteSize_digits {digits : List Char} (all : ∀ c ∈ digits, c.isDigit = true) :
    (String.ofList digits).utf8ByteSize = digits.length := by
  induction digits with
  | nil => rfl
  | cons c more ih =>
    have byte : c.utf8Size = 1 := by
      have digit := all c (List.mem_cons_self ..)
      simp only [Char.isDigit, Bool.and_eq_true, decide_eq_true_eq, UInt32.le_iff_toNat_le] at digit
      rw [Char.utf8Size_eq_one_iff, UInt32.le_iff_toNat_le]
      exact Nat.le_trans digit.2 (by decide)
    rw [String.ofList_cons, String.utf8ByteSize_append, String.utf8ByteSize_singleton, byte,
      ih fun c member => all c (List.mem_cons_of_mem _ member), List.length_cons, Nat.add_comm]

/-- The number of digits is the byte at which a text is cut, and a character begins there. -/
theorem cut_after_digits {cs : List Char} {place : Nat}
    (found : cs.findIdx? (!·.isDigit) = some place) :
    String.Pos.Raw.IsValid (String.ofList cs) ⟨place⟩ ∧
      ∃ front back : String, String.ofList cs = front ++ back ∧ front.utf8ByteSize = place ∧
        front.toList = cs.takeWhile Char.isDigit ∧ back.toList = cs.dropWhile Char.isDigit := by
  obtain ⟨within, rfl⟩ := List.findIdx?_eq_some_iff_findIdx_eq.1 found
  have parts : String.ofList cs =
      String.ofList (cs.takeWhile Char.isDigit) ++ String.ofList (cs.dropWhile Char.isDigit) := by
    rw [← String.ofList_append, List.takeWhile_append_dropWhile]
  have size : (String.ofList (cs.takeWhile Char.isDigit)).utf8ByteSize =
      cs.findIdx (!·.isDigit) := by
    rw [utf8ByteSize_digits (List.all_eq_true.1 List.all_takeWhile),
      List.takeWhile_eq_take_findIdx_not, List.length_take]
    omega
  refine ⟨String.Pos.Raw.isValid_iff_exists_append.2 ⟨_, _, parts, ?_⟩, _, _, parts, size,
    String.toList_ofList, String.toList_ofList⟩
  exact String.Pos.Raw.ext size.symm

theorem parse_eq_ok {text : String} {span : Span} : parse text = .ok span ↔
    ∃ spelling : Spelling, text.toList = spelling.text ∧ spelling.Fits ∧
      span.ns = spelling.number * spelling.scale.nanos := by
  constructor
  · exact exists_spelling
  · rintro ⟨spelling, whole, fits, length⟩
    rw [parse, whole]
    exact fits.parse length

theorem parse_eq_error {text : String} : (∃ e, parse text = .error e) ↔
    ∀ spelling : Spelling, text.toList = spelling.text → ¬ spelling.Fits := by
  constructor
  · rintro ⟨e, refused⟩ spelling whole fits
    obtain ⟨span, length⟩ := fits.exists_span
    rw [parse_eq_ok.2 ⟨spelling, whole, fits, length⟩] at refused
    cases refused
  · intro never
    cases read : parse text with
    | error e => exact ⟨e, rfl⟩
    | ok span =>
      obtain ⟨spelling, whole, fits, _⟩ := parse_eq_ok.1 read
      exact absurd fits (never spelling whole)

/-- A text is read if it is put together as a `Spelling` whose number and seconds fit, as just so
many nanoseconds, and refused otherwise. Where it is cut after its digits a character begins. -/
theorem parse_grammar (text : String) :
    (∀ span, parse text = .ok span ↔ ∃ spelling : Spelling, text.toList = spelling.text ∧
      spelling.Fits ∧ span.ns = spelling.number * spelling.scale.nanos) ∧
    ((∃ e, parse text = .error e) ↔
      ∀ spelling : Spelling, text.toList = spelling.text → ¬ spelling.Fits) ∧
    ∀ place, (trim text.toList).findIdx? (!·.isDigit) = some place →
      String.Pos.Raw.IsValid (String.ofList (trim text.toList)) ⟨place⟩ ∧
      ∃ front back : String, String.ofList (trim text.toList) = front ++ back ∧
        front.utf8ByteSize = place ∧ front.toList = (trim text.toList).takeWhile Char.isDigit ∧
        back.toList = (trim text.toList).dropWhile Char.isDigit :=
  ⟨fun _ => parse_eq_ok, parse_eq_error, fun _ => cut_after_digits⟩

/-- Seven milliseconds with a wide blank, zeros, capitals and a line end. -/
def padded : Spelling where
  front := ['\u3000']
  digits := ['0', '0', '7']
  gap := [' ', '\t']
  unit := ['M', 'S']
  back := ['\n']
  scale := .milliseconds
  front_blank := List.all_eq_true.1 rfl
  gap_blank := List.all_eq_true.1 rfl
  back_blank := List.all_eq_true.1 rfl
  isDigit := List.all_eq_true.1 rfl
  digits_ne := by decide
  lower_unit := by decide +kernel

theorem parse_grammar_padded : parse "\u3000007 \tMS\n" = .ok ⟨7000000, by decide⟩ ∧
    String.Pos.Raw.IsValid (String.ofList (trim "\u3000007 \tMS\n".toList)) ⟨3⟩ := by
  obtain ⟨read, _, cut⟩ := parse_grammar "\u3000007 \tMS\n"
  have fits : padded.Fits := by constructor <;> decide
  exact ⟨(read _).2 ⟨padded, by decide, fits, by decide⟩, (cut 3 (by decide +kernel)).1⟩

end Choreo.Span
