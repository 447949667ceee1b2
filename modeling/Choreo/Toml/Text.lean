import Choreo.Toml.Lexical

/-!
# Texts of TOML

A text stands between double quotes, with escapes, or between single quotes, without. With three
quotes on each side it may run over several lines: a line end right after the opening quotes does
not count, one or two quotes may stand before the closing ones, and a backslash at the end of a line
of a text with escapes leaves out that line end and all blanks and line ends after it.
-/

namespace Choreo.Toml

abbrev TextResult := Option (List Char × List Char)

def push (c : Char) (result : TextResult) : TextResult :=
  result.map fun r => (c :: r.1, r.2)

def shortEscape? : Char → Option Char
  | 'b' => some '\x08'
  | 't' => some '\t'
  | 'n' => some '\n'
  | 'f' => some '\x0c'
  | 'r' => some '\r'
  | 'e' => some '\x1b'
  | '"' => some '"'
  | '\\' => some '\\'
  | _ => none

def codeLength? : Char → Option Nat
  | 'x' => some 2
  | 'u' => some 4
  | 'U' => some 8
  | _ => none

def hexDigit? (c : Char) : Option Nat :=
  if c.isDigit then some (c.toNat - '0'.toNat)
  else if 'a' ≤ c ∧ c ≤ 'f' then some (c.toNat - 'a'.toNat + 10)
  else if 'A' ≤ c ∧ c ≤ 'F' then some (c.toNat - 'A'.toNat + 10)
  else none

def codeChar? (code : Nat) : Option Char :=
  if code.isValidChar then some (Char.ofNat code) else none

/-- Where in a text with escapes the reader stands: at a character, after a backslash, or before so
many digits of a number begun; and in a text of several lines, after a backslash that has to be
followed by the end of the line, or where blanks and line ends are left out. -/
inductive TextState where
  | plain
  | escape
  | code (left value : Nat)
  | lineEnd
  | gap

def basicText : TextState → List Char → TextResult
  | _, [] => none
  | .escape, c :: rest =>
    match shortEscape? c, codeLength? c with
    | some e, _ => push e (basicText .plain rest)
    | none, some n => basicText (.code n 0) rest
    | none, none => none
  | .code left value, c :: rest =>
    match hexDigit? c with
    | none => none
    | some digit =>
      if left ≤ 1 then
        match codeChar? (16 * value + digit) with
        | some e => push e (basicText .plain rest)
        | none => none
      else basicText (.code (left - 1) (16 * value + digit)) rest
  | _, c :: rest =>
    if c = '"' then some ([], rest)
    else if c = '\\' then basicText .escape rest
    else if isPlain c then push c (basicText .plain rest)
    else none

def literalText : List Char → TextResult
  | [] => none
  | c :: rest =>
    if c = '\'' then some ([], rest)
    else if isPlain c then push c (literalText rest)
    else none

/-- What is left of a text after three quotes: up to two more belong to the text. -/
def closing (mark : Char) : List Char → List Char × List Char
  | a :: b :: rest =>
    if a = mark then if b = mark then ([mark, mark], rest) else ([mark], b :: rest)
    else ([], a :: b :: rest)
  | a :: rest => if a = mark then ([mark], rest) else ([], a :: rest)
  | [] => ([], [])

/-- The rest of a text of several lines with escapes. -/
def basicLines : TextState → List Char → TextResult
  | _, [] => none
  | .escape, c :: rest =>
    match shortEscape? c, codeLength? c with
    | some e, _ => push e (basicLines .plain rest)
    | none, some n => basicLines (.code n 0) rest
    | none, none =>
      if isBlank c then basicLines .lineEnd rest
      else if c = '\n' then basicLines .gap rest
      else if c = '\r' then
        match rest with
        | '\n' :: tail => basicLines .gap tail
        | _ => none
      else none
  | .code left value, c :: rest =>
    match hexDigit? c with
    | none => none
    | some digit =>
      if left ≤ 1 then
        match codeChar? (16 * value + digit) with
        | some e => push e (basicLines .plain rest)
        | none => none
      else basicLines (.code (left - 1) (16 * value + digit)) rest
  | .lineEnd, c :: rest =>
    if isBlank c then basicLines .lineEnd rest
    else if c = '\n' then basicLines .gap rest
    else if c = '\r' then
      match rest with
      | '\n' :: tail => basicLines .gap tail
      | _ => none
    else none
  | .gap, ' ' :: rest => basicLines .gap rest
  | .gap, '\t' :: rest => basicLines .gap rest
  | .gap, '\n' :: rest => basicLines .gap rest
  | .gap, '\r' :: '\n' :: rest => basicLines .gap rest
  | _, '"' :: '"' :: '"' :: rest => some (closing '"' rest)
  | _, '\r' :: '\n' :: rest => push '\r' (push '\n' (basicLines .plain rest))
  | _, c :: rest =>
    if c = '\\' then basicLines .escape rest
    else if isPlain c ∨ c = '\n' then push c (basicLines .plain rest)
    else none

/-- The rest of a text of several lines without escapes. -/
def literalLines : List Char → TextResult
  | [] => none
  | '\'' :: '\'' :: '\'' :: rest => some (closing '\'' rest)
  | '\r' :: '\n' :: rest => push '\r' (push '\n' (literalLines rest))
  | c :: rest => if isPlain c ∨ c = '\n' then push c (literalLines rest) else none

/-- Leaves out a line end right after the opening quotes. -/
def skipOpening (cs : List Char) : List Char := (lineBreak? cs).getD cs

def lineText? : List Char → TextResult
  | '"' :: rest => basicText .plain rest
  | '\'' :: rest => literalText rest
  | _ => none

def text? : List Char → TextResult
  | '"' :: '"' :: '"' :: rest => basicLines .plain (skipOpening rest)
  | '\'' :: '\'' :: '\'' :: rest => literalLines (skipOpening rest)
  | cs => lineText? cs

end Choreo.Toml
