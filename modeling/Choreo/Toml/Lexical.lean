/-!
# Characters and lines of TOML

Blanks are spaces and tabs, a line ends with a line feed that may follow a carriage return, and a
comment runs from a number sign to the end of its line. Control characters other than these are
allowed nowhere.
-/

namespace Choreo.Toml

def isBlank (c : Char) : Bool := c == ' ' || c == '\t'

/-- A character that may stand in a comment and in a text on one line. -/
def isPlain (c : Char) : Bool := c == '\t' || (' ' ≤ c && c != '\x7f')

def isBare (c : Char) : Bool := c.isAlphanum || c == '_' || c == '-'

def skipBlanks (cs : List Char) : List Char := cs.dropWhile isBlank

/-- What follows the end of a line, if the line ends here. -/
def lineBreak? : List Char → Option (List Char)
  | '\n' :: rest => some rest
  | '\r' :: '\n' :: rest => some rest
  | _ => none

def skipComment : List Char → List Char
  | '#' :: rest => rest.dropWhile isPlain
  | cs => cs

def endLine? (cs : List Char) : Option (List Char) :=
  match skipComment (skipBlanks cs) with
  | [] => some []
  | rest => lineBreak? rest

/-- What follows blanks, line ends and comments; `comment` tells whether this is inside a
comment. -/
def skipFill (comment : Bool) : List Char → List Char
  | [] => []
  | '\n' :: rest => skipFill false rest
  | '\r' :: '\n' :: rest => skipFill false rest
  | c :: rest =>
    if comment then if isPlain c then skipFill true rest else c :: rest
    else if isBlank c then skipFill false rest
    else if c = '#' then skipFill true rest
    else c :: rest

end Choreo.Toml
