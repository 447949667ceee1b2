import Choreo.Toml.Scalar
import Choreo.Toml.Table

/-!
# TOML documents

A document is read line by line: headers, and keys with their values. Arrays and tables between
braces may run over several lines, may hold comments, and may have a comma after the last item; they
may be nested eighty deep, and a key has at most eighty parts. A document that is not well-formed is
not read at all.
-/

namespace Choreo.Toml

def simpleKey? (cs : List Char) : Option (String × List Char) :=
  match lineText? cs with
  | some (text, rest) => some (String.ofList text, rest)
  | none =>
    let bare := cs.takeWhile isBare
    if bare.isEmpty then none else some (String.ofList bare, cs.drop bare.length)

/-- Reads a key of at most so many parts between dots: the tables on its way, the key itself, and
the rest. -/
def key? : Nat → List Char → Option (List String × String × List Char)
  | 0, _ => none
  | parts + 1, cs =>
    match simpleKey? (skipBlanks cs) with
    | none => none
    | some (name, rest) =>
      match skipBlanks rest with
      | '.' :: rest => (key? parts rest).map fun (path, last, rest) => (name :: path, last, rest)
      | rest => some ([], name, rest)

/-- How deep arrays and tables may be nested, and how many parts a key may have. -/
def nesting : Nat := 80

def path? (cs : List Char) : Option (List String × String × List Char) := key? nesting cs

abbrev Reader := List Char → Option (Value × List Char)

def arrayItems (item : Reader) : Nat → List Char → Option (List Value × List Char)
  | 0, _ => none
  | limit + 1, cs =>
    match skipFill false cs with
    | ']' :: rest => some ([], rest)
    | start =>
      match item start with
      | none => none
      | some (value, rest) =>
        match skipFill false rest with
        | ',' :: rest =>
          (arrayItems item limit rest).map fun (values, rest) => (value :: values, rest)
        | ']' :: rest => some ([value], rest)
        | _ => none

/-- Reads a key, an equals sign and a value; `skip` leaves out what may stand on either side of the
equals sign. -/
def pair? (skip : List Char → List Char) (item : Reader) (cs : List Char) :
    Option ((List String × String × Value) × List Char) :=
  match path? cs with
  | none => none
  | some (path, key, rest) =>
    match skip rest with
    | '=' :: rest => (item (skip rest)).map fun (value, rest) => ((path, key, value), rest)
    | _ => none

def inlineEntries (item : Reader) : Nat → Entries → List Char → Option (Entries × List Char)
  | 0, _, _ => none
  | limit + 1, entries, cs =>
    match skipFill false cs with
    | '\x7d' :: rest => some (entries, rest)
    | start =>
      match pair? (skipFill false) item start with
      | none => none
      | some ((path, key, value), rest) =>
        match assign path key value entries with
        | none => none
        | some entries =>
          match skipFill false rest with
          | ',' :: rest => inlineEntries item limit entries rest
          | '\x7d' :: rest => some (entries, rest)
          | _ => none

def value? : Nat → Reader
  | depth, '[' :: rest =>
    match depth with
    | 0 => none
    | depth + 1 =>
      (arrayItems (value? depth) (rest.length + 1) rest).map fun (items, rest) =>
        (.array false items, rest)
  | depth, '\x7b' :: rest =>
    match depth with
    | 0 => none
    | depth + 1 =>
      (inlineEntries (value? depth) (rest.length + 1) [] rest).map fun (entries, rest) =>
        (.table .inline entries, rest)
  | _, cs =>
    match text? cs with
    | some (text, rest) => some (.string (String.ofList text), rest)
    | none => scalar? cs

/-- The path of the header that is in force, and the entries of the document so far. -/
structure DocumentState where
  header : List String
  entries : Entries

def statement? (state : DocumentState) : List Char → Option (DocumentState × List Char)
  | '[' :: '[' :: rest =>
    match path? rest with
    | some (path, key, ']' :: ']' :: rest) =>
      (append path key state.entries).map fun entries => (⟨path ++ [key], entries⟩, rest)
    | _ => none
  | '[' :: rest =>
    match path? rest with
    | some (path, key, ']' :: rest) =>
      (declare path key state.entries).map fun entries => (⟨path ++ [key], entries⟩, rest)
    | _ => none
  | cs =>
    match pair? skipBlanks (value? nesting) cs with
    | some ((path, key, value), rest) =>
      (assignUnder state.header path key value state.entries).map fun entries =>
        ({ state with entries }, rest)
    | none => none

def lines? : Nat → DocumentState → List Char → Option Entries
  | 0, _, _ => none
  | limit + 1, state, cs =>
    match skipFill false cs with
    | [] => some state.entries
    | start =>
      match statement? state start with
      | none => none
      | some (state, rest) =>
        match endLine? rest with
        | none => none
        | some rest => lines? limit state rest

def document? (text : String) : Option Entries :=
  let cs := match text.toList with
    | '\uFEFF' :: rest => rest
    | cs => cs
  lines? (cs.length + 1) ⟨[], []⟩ cs

end Choreo.Toml
