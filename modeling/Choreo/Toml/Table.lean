import Choreo.Toml.Value

/-!
# Defining tables

A document defines its tables piece by piece. A header declares the table at the end of its path, or
adds a table to an array of them; a key with dots goes into tables on its way. Tables on the way are
made if they are not there. No table is declared twice, no key is given twice, a table between
braces is complete where it stands, and a key with dots ends only in tables made by such keys.
-/

namespace Choreo.Toml

def replace (key : String) (value : Value) (entries : Entries) : Entries :=
  entries.map fun entry => if entry.1 = key then (key, value) else entry

/-- Changes the table at the end of a path; `dotted` tells whether it is the path of a dotted key
and not of a header. In an array of tables the path goes into the last one. -/
def within (dotted : Bool) (change : TableKind → Entries → Option Entries) :
    List String → TableKind → Entries → Option Entries
  | [], kind, entries => change kind entries
  | key :: path, _, entries =>
    match entries.lookup key with
    | none =>
      let made : TableKind := if dotted then .dotted else .implied
      (within dotted change path made []).map fun inner => entries ++ [(key, .table made inner)]
    | some (.table kind inner) =>
      if kind = .inline ∨ (dotted ∧ kind = .declared) then none
      else
        (within dotted change path kind inner).map fun inner =>
          replace key (.table kind inner) entries
    | some (.array true items) =>
      match items.getLast? with
      | some (.table kind inner) =>
        (within dotted change path kind inner).map fun inner =>
          replace key (.array true (items.dropLast ++ [.table kind inner])) entries
      | _ => none
    | some _ => none

def give (dotted : Bool) (key : String) (value : Value) (kind : TableKind) (entries : Entries) :
    Option Entries :=
  if (kind == .dotted) != dotted then none
  else
    match entries.lookup key with
    | some _ => none
    | none => some (entries ++ [(key, value)])

def assign (path : List String) (key : String) (value : Value) (entries : Entries) :
    Option Entries :=
  within true (give (!path.isEmpty) key value) path .declared entries

def declare (path : List String) (key : String) (entries : Entries) : Option Entries :=
  within false (fun _ inner =>
    match inner.lookup key with
    | none => some (inner ++ [(key, .table .declared [])])
    | some (.table .implied entries) => some (replace key (.table .declared entries) inner)
    | some _ => none) path .declared entries

def append (path : List String) (key : String) (entries : Entries) : Option Entries :=
  within false (fun _ inner =>
    match inner.lookup key with
    | none => some (inner ++ [(key, .array true [.table .declared []])])
    | some (.array true items) =>
      some (replace key (.array true (items ++ [.table .declared []])) inner)
    | some _ => none) path .declared entries

/-- Gives the key at the end of a dotted path its value in the table with this header. -/
def assignUnder (header path : List String) (key : String) (value : Value) (entries : Entries) :
    Option Entries :=
  within false (fun _ inner => assign path key value inner) header .declared entries

end Choreo.Toml
