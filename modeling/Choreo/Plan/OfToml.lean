import Choreo.Plan
import Choreo.Toml.Document

/-!
# Plans written in TOML

A plan is a document with a table of settings, a table of clips and an array of groups, each of
which may be missing; other keys count only in that their numbers have to have a value within range.
Settings, clips and groups may be written as tables, or as arrays of their fields in a fixed order,
where fields at the end may be missing and what follows the last one is not looked at.
-/

namespace Choreo

open Toml (Value Entries)

namespace Draft

/-- The values of these fields of a table or of an array of fields. A date counts as a table without
fields. -/
def fields? (names : List String) : Value → Option (List (Option Value))
  | .table _ entries =>
    let others := entries.filter fun entry => !names.contains entry.1
    if Value.entriesInRange others then some (names.map fun name => entries.lookup name) else none
  | .array _ items => some ((List.range names.length).map fun place => items[place]?)
  | .moment => some (names.map fun _ => none)
  | _ => none

def text? : Value → Option String
  | .string text => some text
  | _ => none

def texts? : Value → Option (List String)
  | .array _ items => items.mapM text?
  | _ => none

def count? : Value → Option Nat
  | .integer (some n) => if 0 ≤ n ∧ n < UInt32.size then some n.toNat else none
  | _ => none

def orElse {α : Type} (read : Value → Option α) (missing : α) : Option Value → Option α
  | some value => read value
  | none => some missing

def settings? (value : Value) : Option (Settings String) :=
  match fields? ["tick", "max_duration"] value with
  | some [tick, cap] =>
    match orElse text? Settings.standard.tick tick, orElse text? Settings.standard.cap cap with
    | some tick, some cap => some ⟨tick, cap⟩
    | _, _ => none
  | _ => none

def clip? (value : Value) : Option (ClipPlan String) :=
  match fields? ["duration", "repeat", "with", "after", "delay"] value with
  | some [some duration, repeats, partners, forerunners, delay] =>
    match text? duration, orElse count? 0 repeats, orElse texts? [] partners,
      orElse texts? [] forerunners, orElse (fun v => (text? v).map some) none delay with
    | some duration, some repeats, some partners, some forerunners, some delay =>
      some ⟨duration, repeats, partners, forerunners, delay⟩
    | _, _, _, _, _ => none
  | _ => none

/-- A way of playing: its word, or the word as the only key of a table, with nothing under it. -/
def mode? : Value → Option GroupMode
  | .string "together" => some .together
  | .string "sequential" => some .sequential
  | .table _ [(word, .table _ [])] => ofWord? word
  | .table _ [(word, .array _ [])] => ofWord? word
  | _ => none
where
  ofWord? (word : String) : Option GroupMode :=
    if word = "together" then some .together
    else if word = "sequential" then some .sequential
    else none

def group? (value : Value) : Option Group :=
  match fields? ["mode", "clips"] value with
  | some [mode, some clips] =>
    match orElse mode? .sequential mode, texts? clips with
    | some mode, some clips => some ⟨mode, clips⟩
    | _, _ => none
  | _ => none

def clips? : Value → Option (NameMap (ClipPlan String))
  | .table _ entries =>
    (entries.mapM fun entry => (clip? entry.2).map fun clip => (entry.1, clip)).map NameMap.ofList
  | _ => none

def groups? : Value → Option (List Group)
  | .array _ items => items.mapM group?
  | _ => none

def ofEntries? (entries : Entries) : Option Draft :=
  match fields? ["config", "clip", "group"] (.table .declared entries) with
  | some [settings, clips, groups] =>
    match orElse settings? .standard settings, orElse clips? .empty clips,
      orElse groups? [] groups with
    | some settings, some clips, some groups => some ⟨settings, clips, groups⟩
    | _, _, _ => none
  | _ => none

def ofToml? (text : String) : Option Draft := (Toml.document? text).bind ofEntries?

end Draft

end Choreo
