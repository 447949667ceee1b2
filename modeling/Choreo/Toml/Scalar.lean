import Choreo.Toml.Text
import Choreo.Toml.Value

/-!
# Numbers, dates and words of TOML

Digits may be grouped by underscores that stand between two digits. A decimal integer has no zeros
in front; an integer to another base has no sign. A number with decimal places has digits on both
sides of the point. Dates are those of the calendar, hours go to 23, and seconds may be left out.

A word counts as an integer before its digits are looked at: `0x` does, and after an underscore
anything may follow that begins like a group of digits. Such a word is an integer without a value.
-/

namespace Choreo.Toml

/-- The digits without the underscores between them, if there are any digits and nothing else. -/
def digitGroups? (isDigit : Char → Bool) : List Char → Option (List Char)
  | [] => none
  | [c] => if isDigit c then some [c] else none
  | c :: '_' :: rest => if isDigit c then (digitGroups? isDigit rest).map (c :: ·) else none
  | c :: rest => if isDigit c then (digitGroups? isDigit rest).map (c :: ·) else none

def valueOf (base : Nat) (digits : List Char) : Nat :=
  digits.foldl (fun n c => base * n + (hexDigit? c).getD 0) 0

def isExponentMark (c : Char) : Bool := c == 'e' || c == 'E'

def sign : List Char → Bool × List Char
  | '-' :: rest => (true, rest)
  | '+' :: rest => (false, rest)
  | cs => (false, cs)

def isHexDigit (c : Char) : Bool := (hexDigit? c).isSome

/-- Whether every underscore stands between two digits to base sixteen. -/
def grouped : List Char → Bool
  | [] => true
  | '_' :: _ => false
  | c :: '_' :: d :: rest => isHexDigit c && isHexDigit d && grouped (d :: rest)
  | _ :: rest => grouped rest

/-- Whether a word without a sign counts as a decimal integer. After the first underscore only
spaces, points and the mark of an exponent are ruled out, apart from what every underscore asks
for. -/
def isDecimal (cs : List Char) : Bool :=
  match cs, cs.dropWhile Char.isDigit with
  | ['0'], _ => true
  | '0' :: _, _ => false
  | c :: _, [] => c.isDigit
  | c :: _, '_' :: tail =>
    c.isDigit && grouped cs && tail.all fun c => c != ' ' && c != '.' && !isExponentMark c
  | _, _ => false

def natural? (cs : List Char) : Option Nat :=
  let digits := cs.filter (· != '_')
  if digits.all Char.isDigit then some (valueOf 10 digits) else none

def based? (base : Nat) (isDigit : Char → Bool) (cs : List Char) : Option (Option Int) :=
  if cs.isEmpty then some none
  else (digitGroups? isDigit cs).map fun digits => some (valueOf base digits : Int)

/-- An integer to base two, eight, ten or sixteen, with its value if it has one. -/
def integer? : List Char → Option (Option Int)
  | '0' :: 'x' :: rest => based? 16 isHexDigit rest
  | '0' :: 'o' :: rest => based? 8 (fun c => '0' ≤ c && c ≤ '7') rest
  | '0' :: 'b' :: rest => based? 2 (fun c => c == '0' || c == '1') rest
  | cs =>
    let signed := sign cs
    if isDecimal signed.2 then
      some ((natural? signed.2).map fun n => if signed.1 then -(n : Int) else n)
    else none

/-- The exponent of a number: nothing, or a letter and a signed number. -/
def exponent? : List Char → Option Int
  | [] => some 0
  | c :: rest =>
    if isExponentMark c then
      let signed := sign rest
      (digitGroups? Char.isDigit signed.2).map fun digits =>
        if signed.1 then -(valueOf 10 digits : Int) else valueOf 10 digits
    else none

def whole? (cs : List Char) : Option Nat :=
  match digitGroups? Char.isDigit cs with
  | some ('0' :: _ :: _) => none
  | some digits => some (valueOf 10 digits)
  | none => none

def finite? (negative : Bool) (cs : List Char) : Option Decimal :=
  let front := cs.takeWhile fun c => c != '.' && !isExponentMark c
  match whole? front, cs.drop front.length with
  | some n, '.' :: rest =>
    let places := rest.takeWhile fun c => !isExponentMark c
    match digitGroups? Char.isDigit places, exponent? (rest.drop places.length) with
    | some digits, some exponent =>
      some (.finite negative (n * Nat.pow 10 digits.length + valueOf 10 digits)
        (exponent - digits.length))
    | _, _ => none
  | some n, c :: rest => (exponent? (c :: rest)).map fun exponent => .finite negative n exponent
  | _, _ => none

def decimal? (cs : List Char) : Option Decimal :=
  let signed := sign cs
  if signed.2 = ['i', 'n', 'f'] then some (.infinite signed.1)
  else if signed.2 = ['n', 'a', 'n'] then some .nan
  else finite? signed.1 signed.2

def fixedDigits? (count : Nat) (cs : List Char) : Option (Nat × List Char) :=
  let digits := cs.take count
  if digits.length = count ∧ digits.all Char.isDigit then some (valueOf 10 digits, cs.drop count)
  else none

def daysIn (year month : Nat) : Nat :=
  if month = 2 then
    if year % 4 = 0 ∧ (year % 100 ≠ 0 ∨ year % 400 = 0) then 29 else 28
  else if month = 4 ∨ month = 6 ∨ month = 9 ∨ month = 11 then 30
  else 31

def date? (cs : List Char) : Option (List Char) :=
  match fixedDigits? 4 cs with
  | some (year, '-' :: rest) =>
    match fixedDigits? 2 rest with
    | some (month, '-' :: rest) =>
      match fixedDigits? 2 rest with
      | some (day, rest) =>
        if 1 ≤ month ∧ month ≤ 12 ∧ 1 ≤ day ∧ day ≤ daysIn year month then some rest else none
      | none => none
    | _ => none
  | _ => none

def fraction? : List Char → Option (List Char)
  | '.' :: rest =>
    if (rest.takeWhile Char.isDigit).isEmpty then none else some (rest.dropWhile Char.isDigit)
  | cs => some cs

def time? (cs : List Char) : Option (List Char) :=
  match fixedDigits? 2 cs with
  | some (hour, ':' :: rest) =>
    match fixedDigits? 2 rest with
    | some (minute, rest) =>
      if 23 < hour ∨ 59 < minute then none
      else
        match rest with
        | ':' :: rest =>
          match fixedDigits? 2 rest with
          | some (second, rest) => if 60 < second then none else fraction? rest
          | none => none
        | rest => some rest
    | none => none
  | _ => none

def isOffset : List Char → Bool
  | [] => true
  | [c] => c == 'Z' || c == 'z'
  | c :: rest =>
    (c == '+' || c == '-') &&
      match fixedDigits? 2 rest with
      | some (hour, ':' :: rest) =>
        match fixedDigits? 2 rest with
        | some (minute, []) => decide (hour ≤ 23) && decide (minute ≤ 59)
        | _ => false
      | _ => false

def isMoment (cs : List Char) : Bool :=
  match date? cs with
  | some [] => true
  | some (c :: rest) =>
    (c == 'T' || c == 't' || c == ' ') &&
      match time? rest with
      | some rest => isOffset rest
      | none => false
  | none => time? cs == some []

def wordValue? (word : List Char) : Option Value :=
  if word = ['t', 'r', 'u', 'e'] then some (.boolean true)
  else if word = ['f', 'a', 'l', 's', 'e'] then some (.boolean false)
  else
    match integer? word, decimal? word with
    | some n, _ => some (.integer n)
    | none, some x => some (.decimal x)
    | none, none => if isMoment word then some .moment else none

def isWord (c : Char) : Bool :=
  !(isBlank c || c == '\n' || c == '\r' || c == '=' || c == ',' || c == '#' || c == '[' ||
    c == ']' || c == '\x7b' || c == '\x7d')

/-- Whether a word goes on after blanks: another begins there, without a quote or a point. -/
def goesOn (cs : List Char) : Bool :=
  match skipBlanks cs with
  | c :: _ => isWord c && c != '.' && c != '"' && c != '\''
  | [] => false

/-- The word that begins here and what follows it. Words with nothing but blanks between them count
as one. -/
def splitWord : List Char → List Char × List Char
  | [] => ([], [])
  | c :: rest =>
    if isWord c || (isBlank c && goesOn rest) then
      let split := splitWord rest
      (c :: split.1, split.2)
    else ([], c :: rest)

def scalar? (cs : List Char) : Option (Value × List Char) :=
  let split := splitWord cs
  (wordValue? split.1).map fun value => (value, split.2)

end Choreo.Toml
