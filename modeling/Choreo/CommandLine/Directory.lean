import Choreo.Plan.File

/-!
# Directories

A directory holds the files that were put into it, and the folders on their way. A path is followed
part by part: a dot stays, two dots go up, and to go on from a file is an error. Outside of the
directory nothing is known but what was put there, and the few places at the root that every system
has.
-/

namespace Choreo.CommandLine

/-- From where a place is counted: the root, or so many levels above the directory. -/
inductive Origin where
  | root
  | above (levels : Nat)
  deriving DecidableEq

structure Place where
  origin : Origin
  path : List String
  deriving DecidableEq

namespace Place

def here : Place := ⟨.above 0, []⟩

/-- The place one level up; the root has none above it. -/
def up : Place → Place
  | ⟨.root, []⟩ => ⟨.root, []⟩
  | ⟨.above levels, []⟩ => ⟨.above (levels + 1), []⟩
  | ⟨origin, path⟩ => ⟨origin, path.dropLast⟩

def enter (place : Place) (part : String) : Place :=
  if part = "" ∨ part = "." then place
  else if part = ".." then place.up
  else ⟨place.origin, place.path ++ [part]⟩

def start (path : String) : Place :=
  if path.toList.head? = some '/' then ⟨.root, []⟩ else here

end Place

def parts (path : String) : List String := path.splitOn "/"

structure Directory where
  folders : List Place
  files : List (Place × ByteArray)

namespace Directory

/-- A directory with nothing in it; at the root there are the devices, with one that is always
empty, and a place for what is needed for a while. -/
def empty : Directory :=
  ⟨[⟨.root, ["dev"]⟩, ⟨.root, ["tmp"]⟩], [(⟨.root, ["dev", "null"]⟩, .empty)]⟩

/-- Puts a file where the parts of a path lead from a place; the folders on the way are made. -/
def put (bytes : ByteArray) : List String → Place → Directory → Directory
  | [], place, directory => { directory with files := (place, bytes) :: directory.files }
  | [part], place, directory =>
    { directory with files := (place.enter part, bytes) :: directory.files }
  | part :: rest, place, directory =>
    let next := place.enter part
    put bytes rest next { directory with folders := next :: directory.folders }

def ofFiles (files : List (String × ByteArray)) : Directory :=
  files.foldl (fun directory file => put file.2 (parts file.1) (Place.start file.1) directory) empty

def isFolder (directory : Directory) (place : Place) : Bool :=
  place.path.isEmpty || directory.folders.contains place

def file? (directory : Directory) (place : Place) : Option ByteArray := directory.files.lookup place

def step (directory : Directory) (part : String) (last : Bool) (place : Place) :
    Except FileFault Place :=
  let next := place.enter part
  if 255 < part.utf8ByteSize then .error .nameTooLong
  else if directory.isFolder next then .ok next
  else
    match directory.file? next with
    | some _ => if last then .ok next else .error .notDirectory
    | none => .error .notFound

def follow (directory : Directory) : List String → Place → Except FileFault Place
  | [], place => .ok place
  | part :: rest, place =>
    match directory.step part rest.isEmpty place with
    | .error fault => .error fault
    | .ok next => follow directory rest next

def read (directory : Directory) (path : String) : Except FileFault ByteArray :=
  if path.toList.contains '\x00' then .error .nullInName
  else if 4095 < path.utf8ByteSize then .error .nameTooLong
  else
    match directory.follow (parts path) (Place.start path) with
    | .error fault => .error fault
    | .ok place =>
      if directory.isFolder place then .error .isDirectory
      else
        match directory.file? place with
        | some bytes => .ok bytes
        | none => .error .notFound

end Directory

end Choreo.CommandLine
