/-!
# TOML values

What a TOML document consists of. A table remembers how it came about, and an array whether it
consists of tables with headers of their own, because that decides whether they may be extended
further down in the document. Of dates and times only their presence is kept. An integer may lack a
value, because a document may hold one whose digits do not make a number as long as nobody reads it.
-/

namespace Choreo.Toml

/-- How a table came about: between braces, by its own header, by a header of a table inside it, or
by a dotted key. -/
inductive TableKind where
  | inline | declared | implied | dotted
  deriving DecidableEq

/-- A number with decimal places or an exponent: `digits · 10 ^ exponent`, infinite, or not a
number. -/
inductive Decimal where
  | finite (negative : Bool) (digits : Nat) (exponent : Int)
  | infinite (negative : Bool)
  | nan
  deriving DecidableEq

inductive Value where
  | string (text : String)
  | integer (value : Option Int)
  | decimal (value : Decimal)
  | boolean (value : Bool)
  | moment
  | array (growing : Bool) (items : List Value)
  | table (kind : TableKind) (entries : List (String × Value))

instance : Inhabited Value := ⟨.moment⟩

/-- The entries of a table in the order in which they were made. -/
abbrev Entries := List (String × Value)

/-- The half-way point between the largest double and the next power of two: from here on a number
counts as infinite. -/
def Decimal.bound : Nat := Nat.pow 2 1024 - Nat.pow 2 970

def Decimal.fits : Decimal → Bool
  | .finite _ digits exponent =>
    if digits = 0 then true
    else if 0 ≤ exponent then
      decide (exponent ≤ 400) && decide (digits * Nat.pow 10 exponent.toNat < bound)
    else if (Nat.toDigits 10 digits).length + exponent ≤ 300 then true
    else decide (digits < bound * Nat.pow 10 (-exponent).toNat)
  | .infinite _ => true
  | .nan => true

mutual

/-- Whether all numbers in a value have a value within range: 128 bits for integers. -/
def Value.inRange : Value → Bool
  | .integer (some n) => decide (-(2 ^ 127 : Int) ≤ n) && decide (n < (2 ^ 128 : Int))
  | .integer none => false
  | .decimal x => x.fits
  | .array _ items => Value.allInRange items
  | .table _ entries => Value.entriesInRange entries
  | .string _ => true
  | .boolean _ => true
  | .moment => true

def Value.allInRange : List Value → Bool
  | [] => true
  | value :: rest => value.inRange && Value.allInRange rest

def Value.entriesInRange : List (String × Value) → Bool
  | [] => true
  | entry :: rest => Value.entryInRange entry && Value.entriesInRange rest

def Value.entryInRange : String × Value → Bool
  | (_, value) => value.inRange

end

end Choreo.Toml
