import Choreo.Span
import Choreo.Text.Blank
import Choreo.Text.LowerCase

/-!
# Spans as texts

A span is written as a number and a unit, `16ms`, `3s`, `2m` or `1h`; blanks may stand around it and
before the unit, and capitals count as small letters. `Span.parse` reads such a text or says why it
cannot, `Span.render` writes whole milliseconds, in seconds where that is exact, and `Span.detail`
writes a span without loss, in the largest unit that leaves a whole part.
-/

namespace Choreo.Span

open Text

inductive ParseError where
  | empty
  | missingUnit (text : List Char)
  | missingNumber
  | numberTooLarge (digits : List Char)
  | unknownUnit (unit : List Char)
  | tooLong (text : List Char)
  deriving DecidableEq

def ParseError.message : ParseError → String
  | .empty => "empty duration string"
  | .missingUnit text => "duration '" ++ String.ofList text ++ "' is missing a unit suffix"
  | .missingNumber => "invalid duration number '': cannot parse integer from empty string"
  | .numberTooLarge digits =>
    "invalid duration number '" ++ String.ofList digits ++
      "': number too large to fit in target type"
  | .unknownUnit unit =>
    "unsupported duration unit '" ++ String.ofList unit ++ "'; expected ms, s, m, or h"
  | .tooLong text => "duration '" ++ String.ofList text ++ "' is too large"

inductive Scale where
  | milliseconds | seconds | minutes | hours
  deriving DecidableEq

def Scale.letters : Scale → List Char
  | .milliseconds => ['m', 's']
  | .seconds => ['s']
  | .minutes => ['m']
  | .hours => ['h']

def Scale.ofLetters? (letters : List Char) : Option Scale :=
  [Scale.milliseconds, .seconds, .minutes, .hours].find? fun scale => scale.letters == letters

def Scale.times? (n : Nat) : Scale → Option Span
  | .milliseconds => ofMillis? n
  | .seconds => ofSeconds? n
  | .minutes => ofSeconds? (n * 60)
  | .hours => ofSeconds? (n * 3600)

def digitsValue (digits : List Char) : Nat :=
  digits.foldl (fun n c => 10 * n + (c.toNat - '0'.toNat)) 0

def numberBound : Nat := 18446744073709551616

def parseNumber (digits : List Char) : Except ParseError Nat :=
  if digits.isEmpty then .error .missingNumber
  else if digitsValue digits < numberBound then .ok (digitsValue digits)
  else .error (.numberTooLarge digits)

def parseTrimmed (text : List Char) : Except ParseError Span :=
  if text.isEmpty then .error .empty
  else
    let digits := text.takeWhile Char.isDigit
    let rest := text.dropWhile Char.isDigit
    if rest.isEmpty then .error (.missingUnit text)
    else
      match parseNumber digits with
      | .error e => .error e
      | .ok number =>
        let unit := lower (trim rest)
        match Scale.ofLetters? unit with
        | none => .error (.unknownUnit unit)
        | some scale =>
          match scale.times? number with
          | some span => .ok span
          | none => .error (.tooLong text)

def parse (text : String) : Except ParseError Span := parseTrimmed (trim text.toList)

/-- Whole milliseconds, written in seconds where that is exact and not zero. -/
def render (s : Span) : String :=
  if s.millis % 1000 = 0 ∧ 0 < s.millis then toString (s.millis / 1000) ++ "s"
  else toString s.millis ++ "ms"

/-- The decimal places of `part` out of `whole`, a power of ten, without zeros at the end. -/
def places (whole part : Nat) : List Char :=
  let digits := Nat.toDigits 10 (whole + part)
  ((digits.drop 1).reverse.dropWhile (· == '0')).reverse

/-- A number of nanoseconds in a unit of `whole` nanoseconds, with its exact decimal places. -/
def inUnit (ns whole : Nat) (unit : String) : String :=
  let fraction := places whole (ns % whole)
  toString (ns / whole) ++ (if fraction.isEmpty then "" else "." ++ String.ofList fraction) ++ unit

/-- The exact length in the largest of s, ms, µs and ns that leaves a whole part. -/
def detail (s : Span) : String :=
  if 1000000000 ≤ s.ns then inUnit s.ns 1000000000 "s"
  else if 1000000 ≤ s.ns then inUnit s.ns 1000000 "ms"
  else if 1000 ≤ s.ns then inUnit s.ns 1000 "µs"
  else inUnit s.ns 1 "ns"

end Choreo.Span
