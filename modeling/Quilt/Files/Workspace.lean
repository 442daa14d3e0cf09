import Quilt.Files.Basic

namespace Quilt

inductive Entry where
  | directory
  | text (content : String)
  | image (raster : Raster)
deriving DecidableEq, Repr

/-- What a file holds when it is read as an image. An image that was written is a PNG. -/
def Entry.readAs? [ImageLibrary] (format : ImageFormat) : Entry → Option Raster
  | directory => none
  | text content => ImageLibrary.decode? format content.toUTF8
  | image raster => if format = .png then some raster else none

abbrev Place := List String

structure Workspace where
  /-- The working directory. It and those above it are always there. -/
  home : Place
  entries : List (Place × Entry)
deriving DecidableEq, Repr

namespace Workspace

def empty (home : Place) : Workspace := ⟨home, []⟩

def get? (w : Workspace) (place : Place) : Option Entry :=
  if place.isPrefixOf w.home then some .directory else w.entries.lookup place

def put (w : Workspace) (place : Place) (entry : Entry) : Workspace :=
  { w with entries := w.entries.filter (·.1 ≠ place) ++ [(place, entry)] }

/-- One step along a path. The directory above the root is the root. -/
def enter (w : Workspace) (place : Place) (part : String) : Except FileFault Place :=
  match w.get? place with
  | none => .error .missing
  | some .directory =>
    if Path.stays part then .ok place
    else if part = ".." then .ok place.dropLast
    else if Path.nameLimit < part.utf8ByteSize then .error .nameTooLong
    else .ok (place ++ [part])
  | some _ => .error .notDirectory

def start (w : Workspace) (path : Path) : Place := if path.isAbsolute then [] else w.home

/-- The place that a path names. What stands there may be missing. -/
def resolve (w : Workspace) (path : Path) : Except FileFault Place :=
  if path.isTooLong then .error .nameTooLong else path.parts.foldlM w.enter (w.start path)

def read (w : Workspace) (path : Path) : Except FileFault Entry := do
  match w.get? (← w.resolve path) with
  | none => .error .missing
  | some .directory => .error .isDirectory
  | some entry => .ok entry

def write (w : Workspace) (path : Path) (entry : Entry) : Except FileFault Workspace := do
  let place ← w.resolve path
  if w.get? place = some .directory then .error .isDirectory else .ok (w.put place entry)

/-- Makes the directories along a path that are missing, and keeps those that were made when a
later part fails. A name that nothing but dots follow is not made. -/
def makeAlong (w : Workspace) (place : Place) : List String → Option FileFault × Workspace
  | [] => (if w.get? place = some .directory then none else some .notDirectory, w)
  | part :: rest =>
    match w.enter place part with
    | .error fault => (some fault, w)
    | .ok next =>
      if w.get? next = none ∧ ¬ (rest.contains "." ∧ rest.all Path.stays) then
        (w.put next .directory).makeAlong next rest
      else w.makeAlong next rest

def makeDirs (w : Workspace) (path : Path) : Option FileFault × Workspace :=
  if path.isTooLong then (some .nameTooLong, w) else w.makeAlong (w.start path) path.parts

def files [ImageLibrary] : Files (StateM Workspace) where
  readText path := do
    match (← get).read path with
    | .ok (.text content) => return content
    | .ok _ => throw .notText
    | .error fault => throw fault
  readImage format path := do
    match (← get).read path with
    | .ok entry =>
      match entry.readAs? format with
      | some raster => return raster
      | none => throw .notImage
    | .error fault => throw fault
  makeDirs path := do
    let (fault?, w) := (← get).makeDirs path
    set w
    match fault? with
    | none => return ()
    | some fault => throw fault
  writeText path content := do
    match (← get).write path (.text content) with
    | .ok w => set w
    | .error fault => throw fault
  writeImage path raster := do
    match (← get).write path (.image raster) with
    | .ok w => set w
    | .error fault => throw fault

/-- The entries that another state of the tree does not have, or not with this content. -/
def changedSince (w before : Workspace) : List (Place × Entry) :=
  w.entries.filter fun (place, entry) => before.get? place ≠ some entry

def isEmptyDirectory (w : Workspace) (place : Place) : Bool :=
  w.get? place == some .directory &&
    w.entries.all fun (other, _) => !(other.length == place.length + 1 && place.isPrefixOf other)

end Workspace

end Quilt
